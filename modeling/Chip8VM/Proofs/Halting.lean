import Chip8VM.Proofs.Log
import Chip8VM.Proofs.Endings

/-!
# Where a run says that it halts

A run that ends with the fault of a cycle reports the fault twice: the machine warns of it with the
address of the instruction, and the run notes the program counter where it halts. Nothing else in a
run warns or halts (`Turn.Calm`), so both reports are unique, and `halting_address_iff` compares
them. The program counter is past every word that could be read, so the two addresses are the same
only if the word could not be.
-/

namespace Chip8VM

/-! ## What runs warn of -/

namespace Machine

theorem Record.warning?_of_ofCycle {record : Record} (h : record.ofCycle = false) :
    record.warning? = none := by
  cases record with
  | answered | loaded | reset => rfl
  | _ => cases h

/-- Loads, resets, keys and frames do not warn. -/
theorem warnings_of_quiet {request : Request} (hquiet : request.cycles = false) (m : Machine) :
    (m.serve request).log.filterMap Record.warning? = [] :=
  List.filterMap_eq_nil_iff.2 fun record hrecord =>
    Record.warning?_of_ofCycle (ofCycle_of_quiet hquiet m record hrecord)

/-- Cycles without a fault do not warn. -/
theorem warnings_logOf {m : Machine} {n : Nat}
    (h : ∀ j < n, (m.after j).cycle.result = .ok ()) :
    (m.logOf n).filterMap Record.warning? = [] := by
  rw [logOf, List.filterMap_flatMap, List.flatMap_eq_nil_iff]
  intro j hj
  rw [(m.after j).told_cycle.warnings, failure?_of_ok (h j (List.mem_range.1 hj))]
  rfl

theorem warnings_run_of_ok {m : Machine} {n : Nat} (h : (m.run n).result = .ok ()) :
    (m.run n).log.filterMap Record.warning? = [] := by
  rcases m.run_cases n with ⟨k, fault, -, -, -, heq⟩ | ⟨hall, heq⟩
  · rw [heq] at h
    cases h
  · rw [heq]
    exact warnings_logOf hall

/-- A run with a fault warns once: of this fault, at the instruction that has it. -/
theorem warnings_run_of_error {m : Machine} {n : Nat} {fault : Fault}
    (h : (m.run n).result = .error fault) :
    ∃ k < n, (∀ j < k, (m.after j).cycle.result = .ok ()) ∧
      (m.after k).cycle.result = .error fault ∧
      (m.run n).machine = (m.after k).cycle.machine ∧
      (m.run n).log.filterMap Record.warning? =
        [((m.after k).guest.processor.pc, fault)] := by
  rcases m.run_cases n with ⟨k, first, hk, hall, hfirst, heq⟩ | ⟨-, heq⟩
  · rw [heq] at h ⊢
    obtain rfl := Except.error.inj h
    have hlog : m.logOf (k + 1) = m.logOf k ++ (m.after k).cycle.log := by
      rw [logOf, logOf, List.range_succ, List.flatMap_append, List.flatMap_singleton]
    refine ⟨k, hk, hall, hfirst, after_succ m k, ?_⟩
    dsimp only
    rw [hlog, List.filterMap_append, warnings_logOf hall, (m.after k).told_cycle.warnings,
      failure?_of_error hfirst]
    rfl
  · rw [heq] at h
    cases h

/-- A cycle with a fault leaves the program counter where it is exactly if the word there cannot be
read, and otherwise two further on. -/
theorem pc_cycle_of_error {m : Machine} {fault : Fault} (h : m.cycle.result = .error fault) :
    (m.cycle.machine.guest.processor.pc = m.guest.processor.pc ↔ m.fetch = .error fault) ∧
      (m.fetch ≠ .error fault →
        m.cycle.machine.guest.processor.pc.toNat = m.guest.processor.pc.toNat + 2) := by
  rcases cycle_of_error h with ⟨hfetch, hmachine⟩ | ⟨hfetch, hpc, hmachine⟩
  · rw [hmachine]
    exact ⟨iff_of_true rfl hfetch, fun hno => absurd hfetch hno⟩
  · obtain ⟨pc, hnext, hpassed⟩ := passInstruction_eq_withPc hpc
    have hpast : m.cycle.machine.guest.processor.pc.toNat = m.guest.processor.pc.toNat + 2 := by
      rw [hmachine, hpassed]
      exact hnext
    refine ⟨iff_of_false (fun hsame => ?_) (fun hno => ?_), fun _ => hpast⟩
    · rw [hsame] at hpast
      omega
    · rw [hfetch] at hno
      cases hno

/-- A stack fault carries the address of its instruction. -/
theorem address_of_stack_fault {m : Machine} (hm : m.Sound) {fault : Fault}
    (h : m.cycle.result = .error fault) {address : UInt16}
    (hstack : fault = .stackOverflow address ∨ fault = .stackUnderflow address) :
    address = m.guest.processor.pc := by
  rcases hstack with rfl | rfl
  · cases cycleFault_of_cycle_error hm h with
    | overflow => rfl
  · cases cycleFault_of_cycle_error hm h with
    | underflow => rfl

end Machine

namespace Host

open Machine

/-! ## Turns that go on -/

/-- Where a call says that the run halts, and with which fault. -/
def Call.halting? : Call → Option (UInt16 × Fault)
  | .note (.halting pc fault) => some (pc, fault)
  | _ => none

/-- What a turn does that neither warns of a fault nor says that the run halts, as long as it does
not end the run. -/
def Turn.Calm (turn : Turn) : Prop :=
  turn.ending = none →
    turn.calls.filterMap Call.halting? = [] ∧ turn.log.filterMap Record.warning? = []

theorem Turn.Calm.andThen {turn : Turn} {next : Session → Turn} (h : turn.Calm)
    (hnext : (next turn.session).Calm) : (turn.andThen next).Calm := by
  intro hending
  obtain ⟨hturn, hlast⟩ := Turn.ending_andThen_eq_none_iff.1 hending
  obtain ⟨hcalls, hlog⟩ := h hturn
  obtain ⟨hcalls', hlog'⟩ := hnext hlast
  rw [andThen_of_none hturn]
  dsimp only
  rw [List.filterMap_append, List.filterMap_append, hcalls, hlog, hcalls', hlog']
  exact ⟨rfl, rfl⟩

namespace Session

variable {s : Session}

theorem halting?_setActive (s : Session) (active : Bool) :
    (s.sound.setActive s.devices active).2.filterMap Call.halting? = [] :=
  List.filterMap_eq_nil_iff.2 (forall_calls_setActive (p := fun call => call.halting? = none) rfl
    (fun _ => rfl) rfl s.devices s.sound active)

theorem calm_handle (hm : Reachable s.machine) (event : Event) : (s.handle event).Calm := by
  have hhandled := handled hm event
  generalize s.handle event = turn at hhandled ⊢
  intro _
  cases hhandled with
  | quit | reset | moved | answered | ignored => exact ⟨rfl, rfl⟩

theorem calm_handleAll (hm : Reachable s.machine) (events : List Event) :
    (s.handleAll events).Calm := by
  induction events generalizing s with
  | nil => exact fun _ => ⟨rfl, rfl⟩
  | cons event rest ih => exact (calm_handle hm event).andThen (ih (reachable_handle hm event))

theorem calm_listen (hm : Reachable s.machine) (events : List Event) : (s.listen events).Calm :=
  Turn.Calm.andThen (fun _ => ⟨rfl, rfl⟩) (calm_handleAll hm events)

/-- The cycles of a frame are calm unless one of them faults, and then the run is over. -/
theorem calm_advance (s : Session) : s.advance.Calm := by
  intro hending
  rw [ending_advance] at hending
  unfold advance
  dsimp only
  cases hrun : (s.machine.run s.cyclesPerFrame.toNat).result with
  | ok done => exact ⟨halting?_setActive s _, warnings_run_of_ok hrun⟩
  | error fault =>
    rw [hrun] at hending
    cases hending

theorem log_refresh (s : Session) : s.refresh.log = [] := by
  unfold refresh
  split
  · rfl
  · rfl

theorem calm_refresh (s : Session) : s.refresh.Calm := by
  intro _
  have hcalls := forall_calls_refresh (p := fun call => call.halting? = none) rfl (fun _ => rfl)
    rfl s
  rw [log_refresh]
  exact ⟨List.filterMap_eq_nil_iff.2 hcalls, rfl⟩

theorem calm_frame (hm : Reachable s.machine) (events : List Event) : (s.frame events).Calm :=
  ((calm_listen hm events).andThen (calm_advance _)).andThen (calm_refresh _)

theorem calm_frames (hm : Reachable s.machine) (script : List (List Event)) :
    (s.frames script).Calm := by
  induction script generalizing s with
  | nil => exact fun _ => ⟨rfl, rfl⟩
  | cons events rest ih => exact (calm_frame hm events).andThen (ih (reachable_frame hm events))

theorem calm_upTo (hm : Reachable s.machine) (t : Moment) : (s.upTo t).Calm :=
  (calm_frames hm t.past).andThen (calm_listen (reachable_frames hm t.past) t.handled)

/-! ## The turn that ends the run -/

/-- The cycles of a frame in which one faults: the run says that it halts where the program counter
stands then. -/
theorem reports_advance_of_error {fault : Fault}
    (h : (s.machine.run s.cyclesPerFrame.toNat).result = .error fault) :
    s.advance.calls.filterMap Call.halting? =
        [((s.machine.run s.cyclesPerFrame.toNat).machine.guest.processor.pc, fault)] ∧
      s.advance.log = (s.machine.run s.cyclesPerFrame.toNat).log := by
  unfold advance
  dsimp only
  rw [h]
  dsimp only
  refine ⟨?_, rfl⟩
  rw [List.filterMap_cons, halting?_setActive]
  rfl

/-- Whether a run comes to a cycle that faults, the first of all, and this is the machine with which
the cycle begins. -/
def HaltsIn (s : Session) (script : List (List Event)) (m : Machine) (fault : Fault) : Prop :=
  ∃ t later, Moment.Within t script [] later ∧ (s.upTo t).ending = none ∧
    ∃ k < s.cyclesPerFrame.toNat,
      (∀ j < k, ((s.upTo t).session.machine.after j).cycle.result = .ok ()) ∧
      m = (s.upTo t).session.machine.after k ∧ m.cycle.result = .error fault

theorem HaltsIn.sound (hm : Reachable s.machine) {script : List (List Event)} {m : Machine}
    {fault : Fault} (h : s.HaltsIn script m fault) : m.Sound := by
  obtain ⟨t, -, -, -, k, -, -, rfl, -⟩ := h
  exact (reachable_after (reachable_upTo hm t) k).sound

theorem HaltsIn.result {script : List (List Event)} {m : Machine} {fault : Fault}
    (h : s.HaltsIn script m fault) : m.cycle.result = .error fault := by
  obtain ⟨-, -, -, -, -, -, -, -, hfault⟩ := h
  exact hfault

/-- The frames of a run that ends with a cycle's fault warn once, of this fault at its instruction,
and say once that the run halts, at the program counter that the cycle leaves. -/
theorem reports_play_of_faultsAt (hm : Reachable s.machine) {t : Moment}
    {script : List (List Event)} {fault : Fault} (h : s.FaultsAt script t fault) :
    ∃ m, s.HaltsIn script m fault ∧
      (s.play script).log.filterMap Record.warning? = [(m.guest.processor.pc, fault)] ∧
      (s.play script).calls.filterMap Call.halting? =
        [(m.cycle.machine.guest.processor.pc, fault)] := by
  obtain ⟨hplay, -⟩ := play_of_faultsAt hm h
  obtain ⟨later, hwithin, hundisturbed, hfault⟩ := h
  have hgoing := (going_iff_undisturbed hm t).2 hundisturbed
  obtain ⟨-, hcycles⟩ := fittings_upTo hm t
  obtain ⟨hcalls, hlog⟩ := calm_upTo hm t hgoing
  have hrun : ((s.upTo t).session.machine.run
      (s.upTo t).session.cyclesPerFrame.toNat).result = .error fault := by
    rw [hcycles]
    exact result_run_error_iff.2 hfault
  obtain ⟨halts, hrecords⟩ := reports_advance_of_error hrun
  obtain ⟨k, hk, hbefore, hfault, hmachine, hwarnings⟩ := warnings_run_of_error hrun
  rw [hcycles] at hk
  refine ⟨_, ⟨t, later, hwithin, hgoing, k, hk, hbefore, rfl, hfault⟩, ?_, ?_⟩
  · rw [hplay, Turn.andThen_of_none hgoing, List.filterMap_append, hlog, hrecords, hwarnings]
    rfl
  · rw [hplay, Turn.andThen_of_none hgoing, List.filterMap_append, hcalls, halts, hmachine]
    rfl

end Session

/-! ## Runs -/

/-- The report of a turn adds at most that the user wants the run to end. -/
theorem reports_report (turn : Turn) :
    turn.report.log = turn.log ∧
      turn.report.calls.filterMap Call.halting? = turn.calls.filterMap Call.halting? := by
  have hquitting : (turn.calls ++ [Call.note .quitting]).filterMap Call.halting? =
      turn.calls.filterMap Call.halting? := by
    rw [List.filterMap_append]
    exact List.append_nil _
  unfold Turn.report
  split
  · exact ⟨rfl, hquitting⟩
  · exact ⟨rfl, hquitting⟩
  · exact ⟨rfl, rfl⟩
  · exact ⟨rfl, rfl⟩

section

variable {arguments : Arguments} {rom : Except String Rom.Source} {devices : Devices}
  {supply : Random.Supply} {first : Session} {opening : List Call}

/-- Before the first frame nothing is warned of, and the run does not say that it halts. -/
theorem reports_run_of_opened
    (h : opened arguments rom devices supply = some (first, opening))
    (script : List (List Event)) :
    (run arguments rom devices supply script).log.filterMap Record.warning? =
        (first.play script).log.filterMap Record.warning? ∧
      (run arguments rom devices supply script).calls.filterMap Call.halting? =
        (first.play script).calls.filterMap Call.halting? := by
  obtain ⟨hlog, hcalls⟩ := reports_report (first.play script)
  obtain ⟨source, rfl, hload, hstart, rfl⟩ := eq_of_opened h
  have hopening := forall_calls_start (p := fun call => call.halting? = none) (fun _ _ _ => rfl)
    rfl rfl rfl (fun _ => rfl) (fun _ => rfl) arguments devices
    ((powerOn (Session.settings arguments) supply).loadRom source).machine
  have hloaded := warnings_of_quiet (rfl : (Request.loadRom source).cycles = false)
    (powerOn (Session.settings arguments) supply)
  unfold run
  dsimp only
  rw [hload]
  dsimp only
  rw [hstart]
  dsimp only [Report.after]
  rw [List.filterMap_append, List.filterMap_append, hlog, hcalls, List.filterMap_cons,
    List.filterMap_eq_nil_iff.2 hopening]
  exact ⟨congrArg (· ++ _) hloaded, rfl⟩

/-- A run that ends with the fault of a cycle warns once, of this fault at the address of the
instruction, which a stack fault carries too. It says once that it halts, with the same fault. The
address that it gives is that of the instruction exactly if the word there could not be read;
otherwise it is two further on. -/
theorem halting_address_iff
    (hopen : opened arguments rom devices supply = some (first, opening))
    {script : List (List Event)} {fault : Fault}
    (hresult : (run arguments rom devices supply script).result = .error (.fault fault)) :
    let report := run arguments rom devices supply script
    ∃ (m : Machine) (pc : UInt16), first.HaltsIn script m fault ∧
      report.log.filterMap Record.warning? = [(m.guest.processor.pc, fault)] ∧
      report.calls.filterMap Call.halting? = [(pc, fault)] ∧
      (pc = m.guest.processor.pc ↔ m.fetch = .error fault) ∧
      (m.fetch ≠ .error fault → pc.toNat = m.guest.processor.pc.toNat + 2) ∧
      ∀ address, fault = .stackOverflow address ∨ fault = .stackUnderflow address →
        address = m.guest.processor.pc := by
  intro report
  have hm := reachable_opened hopen
  obtain ⟨hlog, hcalls⟩ := reports_run_of_opened hopen script
  obtain ⟨t, hat⟩ := (result_run_iff hopen script (.fault fault)).1 hresult
  obtain ⟨m, hhalts, hwarned, hhalted⟩ := Session.reports_play_of_faultsAt hm hat
  have hfault := hhalts.result
  refine ⟨m, _, hhalts, hlog.trans hwarned, hcalls.trans hhalted, ?_⟩
  obtain ⟨hsame, hpast⟩ := pc_cycle_of_error hfault
  exact ⟨hsame, hpast, fun address => address_of_stack_fault (hhalts.sound hm) hfault⟩

set_option maxRecDepth 100000 in
/-- A return without a call at 200 is warned of there, and the run says that it halts at 202. -/
theorem halting_address_of_return :
    (returningRun [[]]).result = .error (.fault (.stackUnderflow 0x200)) ∧
      (returningRun [[]]).log.filterMap Record.warning? = [(0x200, .stackUnderflow 0x200)] ∧
      (returningRun [[]]).calls.filterMap Call.halting? = [(0x202, .stackUnderflow 0x200)] := by
  have hresult : (returningRun [[]]).result = .error (.fault (.stackUnderflow 0x200)) :=
    Report.failure?_eq_some_iff.1 (by decide +kernel)
  obtain ⟨⟨first, opening⟩, hopen⟩ := Option.isSome_iff_exists.1
    (show (opened { rom := "a.ch8", seed := some 0, mute := true } (.ok [.bytes [0x00, 0xEE]])
      quietDevices idleSupply).isSome = true by decide +kernel)
  obtain ⟨m, pc, -, hwarned, hhalted, -, hpast, haddress⟩ := halting_address_iff hopen hresult
  have hm : 0x200 = m.guest.processor.pc := haddress 0x200 (Or.inr rfl)
  have hfetch : m.fetch ≠ .error (.stackUnderflow 0x200) := by
    rw [fetch_eq, ← hm]
    exact nofun
  have hpc : pc = 0x202 := by
    apply UInt16.toNat_inj.1
    rw [hpast hfetch, ← hm]
    rfl
  rw [hpc] at hhalted
  rw [← hm] at hwarned
  exact ⟨hresult, hwarned, hhalted⟩

end

end Host

end Chip8VM
