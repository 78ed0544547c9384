import Chip8VM.Proofs.Faults

/-!
# Stretches between power-ons

What a machine counts and remembers it counts and remembers from its last power-on on: when
it was made, or a load or a reset that succeeded (`PoweredOn`). A stretch is a history in
which no request starts the machine over (`Uninterrupted`).

A cycle is completed when the machine does not wait for a key as it begins, and it has no
fault (`completed_isSome_iff`). `completedIn` lists the completed cycles of a history, with
the address and the instruction of each, and `momentsIn` the machines with which its cycles
begin. `Served` lists what a request may do to a machine: start it over, touch nothing but its
registers, its keypad and the redraw flag, or run cycles. What single cycles and touches keep,
stretches keep, together with what is observed as the cycles begin (`moments_invariant`) or
with the completed cycles (`stretch_invariant`).
-/

namespace Chip8VM.Machine

/-! ## Completed cycles -/

/-- A completed cycle. -/
structure Completed where
  /-- Where the instruction stands. -/
  address : UInt16
  /-- The instruction that was carried out. -/
  instruction : Instruction
  /-- Whether the timers ticked after it. -/
  ticked : Bool
  deriving DecidableEq

/-- Whether the timers tick after the next completed cycle. -/
def tickDue (m : Machine) : Bool := m.settings.timerPeriod ≤ m.counter + 1

/-- The cycle that the machine completes next. None if it waits for a key or the cycle has
a fault. -/
def completed (m : Machine) : Option Completed :=
  match m.isWaiting, m.cycle.result, Instruction.decode m.word with
  | false, .ok (), .ok i => some ⟨m.guest.processor.pc, i, m.tickDue⟩
  | _, _, _ => none

/-- What is known of a machine that completes its next cycle with an instruction. -/
structure Completes (m : Machine) (i : Instruction) : Prop where
  awake : m.isWaiting = false
  pc_le : m.guest.processor.pc.toNat + 1 ≤ 4095
  spells : i.Spells m.word
  no_fault : i.fault? m.ahead = none
  result : m.cycle.result = .ok ()
  machine : m.cycle.machine = m.complete i
  completed : m.completed = some ⟨m.guest.processor.pc, i, m.tickDue⟩

/-- A cycle that is not completed moves the program counter at most. -/
theorem completed_cases (m : Machine) :
    (m.completed = none ∧ ∃ pc, m.cycle.machine = m.withPc pc) ∨ ∃ i, m.Completes i := by
  have hcycled := m.cycled
  generalize hreply : m.cycle = reply at hcycled
  cases hcycled with
  | waiting hwait => exact Or.inl ⟨by simp [completed, hwait], _, rfl⟩
  | fetchFailed => exact Or.inl ⟨by simp [completed, hreply], _, rfl⟩
  | decodeFailed => exact Or.inl ⟨by simp [completed, hreply], _, rfl⟩
  | executeFailed => exact Or.inl ⟨by simp [completed, hreply], _, rfl⟩
  | @completed i hwait hpc hi hnone =>
    refine Or.inr ⟨i, hwait, hpc, hi, hnone, by rw [hreply], by rw [hreply], ?_⟩
    simp [completed, hreply, hwait, Instruction.decode_eq_ok_iff.2 hi]

/-- The guest after the instruction, with the timers one lower if they tick. -/
theorem Completes.guest {m : Machine} {i : Instruction} (h : m.Completes i) :
    m.cycle.machine.guest =
      { (i.execute m.ahead).2 with
        processor :=
          if m.tickDue then (i.execute m.ahead).2.processor.tick
          else (i.execute m.ahead).2.processor } := by
  rw [h.machine, complete, countCycle, tickDue]
  simp only [decide_eq_true_iff]
  split
  · rfl
  · rfl

/-- A completed cycle does what its instruction does, and changes timers besides. -/
theorem Completes.exists_timers {m : Machine} {i : Instruction} (h : m.Completes i) :
    ∃ delay sound, m.cycle.machine.guest =
      { (i.execute m.ahead).2 with
        processor := { (i.execute m.ahead).2.processor with delay := delay, sound := sound } } := by
  rw [h.guest]
  split
  · exact ⟨_, _, rfl⟩
  · exact ⟨_, _, rfl⟩

theorem completes_of_completed {m : Machine} {c : Completed} (h : m.completed = some c) :
    ∃ i, m.Completes i ∧ c = ⟨m.guest.processor.pc, i, m.tickDue⟩ := by
  rcases m.completed_cases with ⟨hnone, -⟩ | ⟨i, hi⟩
  · rw [hnone] at h
    cases h
  · rw [hi.completed] at h
    exact ⟨i, hi, (Option.some.inj h).symm⟩

/-- A cycle is completed when the machine does not wait as it begins and it has no fault. -/
theorem completed_isSome_iff (m : Machine) :
    m.completed.isSome = true ↔ m.isWaiting = false ∧ m.cycle.result = .ok () := by
  constructor
  · intro h
    rcases m.completed_cases with ⟨hnone, -⟩ | ⟨i, hi⟩
    · rw [hnone] at h
      cases h
    · exact ⟨hi.awake, hi.result⟩
  · rintro ⟨hwait, hok⟩
    have hcycled := m.cycled
    rcases m.completed_cases with ⟨hnone, -⟩ | ⟨i, hi⟩
    · generalize hreply : m.cycle = reply at hcycled
      cases hcycled with
      | waiting h =>
        rw [hwait] at h
        cases h
      | fetchFailed | decodeFailed | executeFailed =>
        rw [hreply] at hok
        cases hok
      | completed _ _ hi =>
        simp [completed, hreply, hwait, Instruction.decode_eq_ok_iff.2 hi] at hnone
    · rw [hi.completed]
      rfl

/-- The cycles that a run completes: those before its first fault, up to a wait for a key. -/
def completedInRun (m : Machine) : Nat → List Completed
  | 0 => []
  | n + 1 =>
    m.completed.toList ++
      match m.cycle.result with
      | .ok () => m.cycle.machine.completedInRun n
      | .error _ => []

/-- The cycles that a request completes. -/
def completedBy (m : Machine) : Request → List Completed
  | .cycle => m.completed.toList
  | .run n => m.completedInRun n.toNat
  | _ => []

/-- The cycles that a history completes, in order. -/
def completedIn (m : Machine) : List Request → List Completed
  | [] => []
  | request :: rest => m.completedBy request ++ (m.serve request).machine.completedIn rest

/-! ## Where cycles begin -/

/-- The machines with which the cycles of a run begin, in order. -/
def momentsInRun (m : Machine) : Nat → List Machine
  | 0 => []
  | n + 1 =>
    m ::
      match m.cycle.result with
      | .ok () => m.cycle.machine.momentsInRun n
      | .error _ => []

/-- The machines with which the cycles of a request begin. -/
def momentsOf (m : Machine) : Request → List Machine
  | .cycle => [m]
  | .run n => m.momentsInRun n.toNat
  | _ => []

/-- The machines with which the cycles of a history begin, in order. -/
def momentsIn (m : Machine) : List Request → List Machine
  | [] => []
  | request :: rest => m.momentsOf request ++ (m.serve request).machine.momentsIn rest

theorem completedInRun_eq (m : Machine) (n : Nat) :
    m.completedInRun n = (m.momentsInRun n).flatMap (·.completed.toList) := by
  induction n generalizing m with
  | zero => rfl
  | succ n ih =>
    rw [completedInRun, momentsInRun, List.flatMap_cons]
    congr 1
    split
    · exact ih _
    · rfl

/-- The completed cycles of a history are among those that it begins. -/
theorem completedIn_eq (m : Machine) (history : List Request) :
    m.completedIn history = (m.momentsIn history).flatMap (·.completed.toList) := by
  induction history generalizing m with
  | nil => rfl
  | cons request rest ih =>
    rw [completedIn, momentsIn, List.flatMap_append, ih]
    congr 1
    cases request with
    | cycle => exact (List.append_nil _).symm
    | run n => exact m.completedInRun_eq n.toNat
    | load | loadRom | reset | setKey | answerKey | takeFrame => rfl

/-! ## Power-on points -/

/-- Whether a request is to start the machine over. -/
def Request.restarts : Request → Bool
  | .load _ | .loadRom _ | .reset => true
  | _ => false

/-- Whether a request is to run cycles. -/
def Request.cycles : Request → Bool
  | .cycle | .run _ => true
  | _ => false

/-- The program image that a request is to load, if it is a load and its source gives one. -/
def Request.image? : Request → Option (List UInt8)
  | .load program => some program
  | .loadRom source => (Rom.gather source).toOption
  | _ => none

/-- Whether a request starts the machine over: a load or a reset that succeeds does. -/
def startsOver (m : Machine) (request : Request) : Bool :=
  request.restarts && (m.serve request).result.isOk

/-- A machine at a power-on point: just made, or just started over. -/
inductive PoweredOn : Machine → Prop where
  /-- The machine was just made. -/
  | made (settings : Settings) (supply : Random.Supply) : PoweredOn (powerOn settings supply)
  /-- A load or a reset has just succeeded. -/
  | startedOver {m : Machine} {request : Request} (h : m.startsOver request = true) :
      PoweredOn (m.serve request).machine

/-- Whether no request of a history starts the machine over. -/
def Uninterrupted (m : Machine) : List Request → Prop
  | [] => True
  | request :: rest => m.startsOver request = false ∧ (m.serve request).machine.Uninterrupted rest

/-! ## What a request may do -/

/-- The machine with other registers, another keypad and another redraw flag. -/
def touched (m : Machine) (v : Vector UInt8 16) (keypad : Keypad) (redraw : Bool) : Machine :=
  { m with
    guest := { m.guest with
      processor := { m.guest.processor with v := v }
      screen := { m.guest.screen with redraw := redraw }
      keypad := keypad } }

/-- What a request may do to a machine. -/
inductive Served (m : Machine) : Request → Prop where
  /-- A load starts the machine over with its image and a reset with the kept program. -/
  | startedOver {request : Request} {program : List UInt8} {memory : Memory}
      (hstart : m.startsOver request = true) (hprogram : program = request.image?.getD m.program)
      (hload : Memory.powerOn.loadProgram program = .ok memory)
      (hmachine : (m.serve request).machine = m.restart program memory) : Served m request
  /-- A reset that fails leaves no program in memory. -/
  | emptied (hstart : m.startsOver .reset = false)
      (hmachine : (m.serve .reset).machine = m.emptied) : Served m .reset
  /-- Keys, frames, and loads that fail touch the machine at most. -/
  | touched {request : Request} (v : Vector UInt8 16) (keypad : Keypad) (redraw : Bool)
      (hstart : m.startsOver request = false) (hdone : m.completedBy request = [])
      (hmachine : (m.serve request).machine = m.touched v keypad redraw) : Served m request
  /-- A single cycle. -/
  | cycle : Served m .cycle
  /-- A run of cycles. -/
  | run (n : UInt32) : Served m (.run n)

/-- What comes of a load or a reset: a fault and what it leaves of the machine, or the machine
started over with a program that fits. -/
def Starts (m left : Machine) (program : List UInt8) (reply : Reply Unit) : Prop :=
  (∃ fault, reply = ⟨.error fault, left, []⟩) ∨
    ∃ memory log, Memory.powerOn.loadProgram program = .ok memory ∧
      reply = ⟨.ok (), m.restart program memory, log⟩

theorem starts_load (m : Machine) (program : List UInt8) :
    m.Starts m program (m.load program) := by
  unfold load
  split
  · exact Or.inl ⟨_, rfl⟩
  · rename_i memory hload
    exact Or.inr ⟨memory, _, hload, rfl⟩

theorem starts_loadRom (m : Machine) (source : Rom.Source) :
    m.Starts m ((Rom.gather source).toOption.getD m.program) (m.loadRom source) := by
  unfold loadRom
  cases Rom.gather source with
  | error reason => exact Or.inl ⟨_, rfl⟩
  | ok program => exact m.starts_load program

theorem starts_reset (m : Machine) : m.Starts m.emptied m.program m.reset := by
  unfold reset
  split
  · exact Or.inl ⟨_, rfl⟩
  · rename_i memory hload
    exact Or.inr ⟨memory, _, hload, rfl⟩

theorem Starts.served {m left : Machine} {request : Request} {reply : Reply Unit}
    (h : m.Starts left (request.image?.getD m.program) reply)
    (hserve : m.serve request = reply.noFrame) (hrestarts : request.restarts = true)
    (hfails : m.startsOver request = false → (m.serve request).machine = left →
      Served m request) : Served m request := by
  rcases h with ⟨fault, rfl⟩ | ⟨memory, log, hload, rfl⟩
  · refine hfails ?_ ?_
    · rw [startsOver, hserve]
      exact Bool.and_false _
    · rw [hserve]
      rfl
  · refine .startedOver ?_ rfl hload ?_
    · rw [startsOver, hserve, hrestarts]
      rfl
    · rw [hserve]
      rfl

/-- Every request does one of these. -/
theorem served (m : Machine) (request : Request) : Served m request := by
  have huntouched : m = m.touched m.guest.processor.v m.guest.keypad m.guest.screen.redraw := rfl
  cases request with
  | load program =>
    refine (m.starts_load program).served rfl rfl fun hnot hmachine => ?_
    exact .touched _ _ _ hnot rfl (hmachine.trans huntouched)
  | loadRom source =>
    refine (m.starts_loadRom source).served rfl rfl fun hnot hmachine => ?_
    exact .touched _ _ _ hnot rfl (hmachine.trans huntouched)
  | reset => exact m.starts_reset.served rfl rfl .emptied
  | cycle => exact .cycle
  | run n => exact .run n
  | setKey key pressed =>
    refine .touched m.guest.processor.v (m.setKey key pressed).machine.guest.keypad
      m.guest.screen.redraw rfl rfl ?_
    simp only [serve, Reply.noFrame, setKey]
    split
    · rfl
    · rfl
  | answerKey key =>
    refine .touched (m.answerKey key).machine.guest.processor.v
      (m.answerKey key).machine.guest.keypad m.guest.screen.redraw rfl rfl ?_
    simp only [serve, Reply.noFrame, answerKey]
    split
    · rfl
    · rfl
    · rfl
  | takeFrame =>
    refine .touched m.guest.processor.v m.guest.keypad m.takeFrame.2.guest.screen.redraw rfl rfl ?_
    simp only [serve, takeFrame, Screen.takeFrame]
    split
    · rfl
    · rfl

/-! ## Power-on points start over -/

/-- A machine at a power-on point has been started with a program that fits. -/
theorem PoweredOn.eq_restart {m : Machine} (h : m.PoweredOn) :
    ∃ before program memory, Memory.powerOn.loadProgram program = .ok memory ∧
      m = restart before program memory := by
  cases h with
  | made settings supply =>
    refine ⟨{ powerOn settings supply with supply := supply }, [], Memory.powerOn, ?_, rfl⟩
    rw [Memory.loadProgram_eq, if_neg (by decide), Memory.overwrite]
  | @startedOver before request hstart =>
    cases before.served request with
    | startedOver _ _ hload hmachine => exact ⟨before, _, _, hload, hmachine⟩
    | emptied hnot | touched _ _ _ hnot =>
      rw [hnot] at hstart
      cases hstart
    | cycle | run => cases hstart

theorem PoweredOn.sound {m : Machine} (h : m.PoweredOn) : m.Sound := by
  obtain ⟨before, program, memory, hload, rfl⟩ := h.eq_restart
  exact before.sound_restart hload

/-! ## What stretches keep -/

/-- A reset of a sound machine succeeds. -/
theorem Sound.reset_eq {m : Machine} (h : m.Sound) :
    ∃ memory, Memory.powerOn.loadProgram m.program = .ok memory ∧
      m.reset = ⟨.ok (), m.restart m.program memory, [.reset]⟩ := by
  have hfits : ¬maxProgramSize < m.program.length := Nat.not_lt.2 h.program_le
  have hload := Memory.powerOn.loadProgram_eq m.program
  rw [if_neg hfits] at hload
  exact ⟨_, hload, by rw [Machine.reset, hload]⟩

/-- So it starts the machine over. -/
theorem Sound.startsOver_reset {m : Machine} (h : m.Sound) : m.startsOver .reset = true := by
  obtain ⟨memory, -, hreset⟩ := h.reset_eq
  rw [startsOver, Machine.serve, hreset]
  rfl

/-- A request that runs no cycles and does not start the machine over touches it at most. -/
theorem Sound.touched_of_quiet {m : Machine} (h : m.Sound) {request : Request}
    (hquiet : request.cycles = false) (hnot : m.startsOver request = false) :
    ∃ v keypad redraw, (m.serve request).machine = m.touched v keypad redraw := by
  cases m.served request with
  | startedOver hstart =>
    rw [hstart] at hnot
    cases hnot
  | emptied =>
    rw [h.startsOver_reset] at hnot
    cases hnot
  | touched v keypad redraw _ _ hmachine => exact ⟨v, keypad, redraw, hmachine⟩
  | cycle | run => cases hquiet

theorem momentsOf_of_quiet {request : Request} (hquiet : request.cycles = false) (m : Machine) :
    m.momentsOf request = [] := by
  cases request with
  | cycle | run => cases hquiet
  | load | loadRom | reset | setKey | answerKey | takeFrame => rfl

section

variable {α : Type} {observe : Machine → List α} {P : Machine → List α → Prop}

theorem run_moments (cycle : ∀ m seen, P m seen → P m.cycle.machine (seen ++ observe m))
    {m : Machine} {seen : List α} (h : P m seen) (n : Nat) :
    P (m.run n).machine (seen ++ (m.momentsInRun n).flatMap observe) := by
  induction n generalizing m seen with
  | zero =>
    rw [run_zero, momentsInRun, List.flatMap_nil, List.append_nil]
    exact h
  | succ n ih =>
    have hnext := cycle m seen h
    rw [run_succ, momentsInRun, List.flatMap_cons, ← List.append_assoc]
    generalize m.cycle = reply at hnext ⊢
    rcases reply with ⟨fault | ⟨⟩, m', log⟩
    · rw [List.flatMap_nil, List.append_nil]
      exact hnext
    · exact ih hnext

/-- What single cycles and touches keep, of the machine and of what was observed as its cycles
began, a stretch keeps. -/
theorem moments_invariant
    (cycle : ∀ m seen, P m seen → P m.cycle.machine (seen ++ observe m))
    (touch : ∀ m seen v keypad redraw, P m seen → P (m.touched v keypad redraw) seen)
    {m : Machine} (hm : m.Sound) {history : List Request} (hstretch : m.Uninterrupted history)
    {seen : List α} (h : P m seen) :
    P (m.serveAll history) (seen ++ (m.momentsIn history).flatMap observe) := by
  induction history generalizing m seen with
  | nil =>
    rw [momentsIn, List.flatMap_nil, List.append_nil]
    exact h
  | cons request rest ih =>
    obtain ⟨hnot, hrest⟩ := hstretch
    have hnext : P (m.serve request).machine (seen ++ (m.momentsOf request).flatMap observe) := by
      by_cases hcycles : request.cycles = true
      · cases request with
        | cycle =>
          rw [momentsOf, List.flatMap_singleton]
          exact cycle m seen h
        | run n => exact run_moments cycle h n.toNat
        | load | loadRom | reset | setKey | answerKey | takeFrame => cases hcycles
      · have hquiet : request.cycles = false := Bool.eq_false_iff.2 hcycles
        obtain ⟨v, keypad, redraw, hmachine⟩ := hm.touched_of_quiet hquiet hnot
        rw [momentsOf_of_quiet hquiet, hmachine, List.flatMap_nil, List.append_nil]
        exact touch m seen v keypad redraw h
    rw [serveAll_cons, momentsIn, List.flatMap_append, ← List.append_assoc]
    exact ih (hm.serve request) hrest hnext

end

/-- What single cycles and touches keep, of the machine and of the cycles completed so far,
a stretch keeps. -/
theorem stretch_invariant {P : Machine → List Completed → Prop}
    (cycle : ∀ m done, P m done → P m.cycle.machine (done ++ m.completed.toList))
    (touch : ∀ m done v keypad redraw, P m done → P (m.touched v keypad redraw) done)
    {m : Machine} (hm : m.Sound) {history : List Request} (hstretch : m.Uninterrupted history)
    {done : List Completed} (h : P m done) :
    P (m.serveAll history) (done ++ m.completedIn history) := by
  rw [completedIn_eq]
  exact moments_invariant cycle touch hm hstretch h

end Chip8VM.Machine
