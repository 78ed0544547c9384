import Chip8VM.Proofs.Disturbances

/-!
# How a run ends

A run polls the keyboard once a frame, and at most once more than its script has frames
(`polls_run`): in the last frame the window is closed. It reports the first thing that ends it
(`result_run_iff`). `run_ends` puts this together with what is known of events: they are no reason
for a run to fail, for what they ask of the machine has no fault at any moment (`replies_ok`).
-/

namespace Chip8VM.Host

open Machine

/-! ## Polls -/

/-- Whether a call polls the keyboard. -/
def Call.isPoll : Call → Bool
  | .poll => true
  | _ => false

/-- What a turn does without polling the keyboard. -/
def Turn.Unpolled (turn : Turn) : Prop := ∀ call ∈ turn.calls, call.isPoll = false

theorem Turn.Unpolled.andThen {turn : Turn} {next : Session → Turn} (h : turn.Unpolled)
    (hnext : (next turn.session).Unpolled) : (turn.andThen next).Unpolled := by
  cases hending : turn.ending with
  | some ending =>
    rw [andThen_of_some hending]
    exact h
  | none =>
    rw [andThen_of_none hending]
    exact List.forall_mem_append.2 ⟨h, hnext⟩

theorem Turn.Unpolled.countP {turn : Turn} (h : turn.Unpolled) :
    turn.calls.countP Call.isPoll = 0 :=
  List.countP_eq_zero.2 fun call hcall => Bool.eq_false_iff.1 (h call hcall)

/-- The calls of two turns are no more than those of both. -/
theorem countP_andThen_le (p : Call → Bool) (turn : Turn) (next : Session → Turn) :
    (turn.andThen next).calls.countP p ≤
      turn.calls.countP p + (next turn.session).calls.countP p := by
  cases h : turn.ending with
  | some ending =>
    rw [Turn.andThen_of_some h]
    exact Nat.le_add_right _ _
  | none => rw [Turn.andThen_of_none h, List.countP_append]

namespace Session

variable {s : Session}

theorem unpolled_handle (hm : Reachable s.machine) (event : Event) :
    (s.handle event).Unpolled := by
  intro call hcall
  rw [(handle_frame hm event).2 call hcall]
  rfl

theorem unpolled_handleAll (hm : Reachable s.machine) (events : List Event) :
    (s.handleAll events).Unpolled := by
  induction events generalizing s with
  | nil => exact nofun
  | cons event rest ih =>
    exact (unpolled_handle hm event).andThen (ih (reachable_handle hm event))

theorem unpolled_advance (s : Session) : s.advance.Unpolled :=
  forall_calls_advance (p := fun call => call.isPoll = false) (fun _ _ => rfl) rfl (fun _ => rfl)
    rfl s

theorem unpolled_refresh (s : Session) : s.refresh.Unpolled :=
  forall_calls_refresh (p := fun call => call.isPoll = false) rfl (fun _ => rfl) rfl s

/-- A frame polls the keyboard once, before anything else. -/
theorem polls_frame (hm : Reachable s.machine) (events : List Event) :
    (s.frame events).calls.countP Call.isPoll ≤ 1 := by
  have hrest : ((s.handleAll events).andThen fun s => s.advance.andThen refresh).Unpolled :=
    (unpolled_handleAll hm events).andThen ((unpolled_advance _).andThen (unpolled_refresh _))
  have hframe : s.frame events = ({ session := s, calls := [.poll] } : Turn).andThen fun s =>
      (s.handleAll events).andThen fun s => s.advance.andThen refresh := by
    simp only [frame, listen, Turn.andThen_assoc]
  rw [hframe]
  refine (countP_andThen_le _ _ _).trans ?_
  rw [hrest.countP]
  rfl

theorem polls_frames (hm : Reachable s.machine) (script : List (List Event)) :
    (s.frames script).calls.countP Call.isPoll ≤ script.length := by
  induction script generalizing s with
  | nil => exact Nat.le_refl 0
  | cons events rest ih =>
    refine (countP_andThen_le _ _ _).trans ?_
    rw [List.length_cons, Nat.add_comm]
    exact Nat.add_le_add (ih (reachable_frame hm events)) (polls_frame hm events)

end Session

/-! ## What events ask of the machine -/

/-- An answer with a key of the pad is taken, whether or not a register waits. -/
theorem answerKey_result {m : Machine} {pad : UInt8} (h : pad < 16) :
    (m.answerKey pad).result = .ok () := by
  cases hwait : m.isWaiting with
  | false => rw [answerKey_of_not_waiting hwait h]
  | true =>
    obtain ⟨x, hx⟩ := Option.isSome_iff_exists.1 hwait
    rw [answerKey_of_waiting hx h]

/-- What events ask of the machine has no fault. -/
theorem replies_ok {m : Machine} (hm : Reachable m) :
    m.reset.result = .ok () ∧ ∀ (key : Key) (pad : UInt8), key.pad? = some pad →
      ∀ down, (m.setKey pad down).result = .ok () ∧
        ((m.setKey pad down).machine.answerKey pad).result = .ok () := by
  obtain ⟨memory, -, hreset⟩ := hm.sound.reset_eq
  refine ⟨by rw [hreset], ?_⟩
  intro key pad hpad down
  have hlt := Key.lt_of_pad? hpad
  exact ⟨by rw [m.setKey_eq hlt], answerKey_result hlt⟩

/-! ## Runs -/

/-- What a run that ended so reports. -/
def Ending.result : Ending → Except Failure Unit
  | .quit => .ok ()
  | .fault f => .error (.fault f)
  | .device reason => .error (.device reason)

theorem Ending.result_inj {ending ending' : Ending} (h : ending.result = ending'.result) :
    ending = ending' := by
  cases ending with
  | quit | fault | device =>
    cases ending' with
    | quit | fault | device => simp_all [result]

theorem result_report {turn : Turn} {ending : Ending} (h : turn.ending = some ending) :
    turn.report.result = ending.result := by
  rw [Turn.report, h]
  cases ending with
  | quit | fault | device => rfl

/-- Why a run failed, if it did. -/
def Report.failure? (report : Report) : Option Failure :=
  match report.result with
  | .ok () => none
  | .error failure => some failure

theorem Report.failure?_eq_none_iff {report : Report} :
    report.failure? = none ↔ report.result = .ok () := by
  unfold failure?
  cases report.result with
  | ok done => exact iff_of_true rfl rfl
  | error failure => exact iff_of_false nofun nofun

theorem Report.failure?_eq_some_iff {report : Report} {failure : Failure} :
    report.failure? = some failure ↔ report.result = .error failure := by
  unfold failure?
  cases report.result with
  | ok done => exact iff_of_false nofun nofun
  | error failure' => rw [Option.some.injEq, Except.error.injEq]

theorem reachable_after {m : Machine} (hm : Reachable m) (k : Nat) : Reachable (m.after k) := by
  induction k with
  | zero => exact hm
  | succ k ih =>
    rw [after_succ]
    exact ih.serve .cycle

section

variable {arguments : Arguments} {rom : Except String Rom.Source} {devices : Devices}
  {supply : Random.Supply} {first : Session} {opening : List Call}

/-- Before the first frame the keyboard is not polled and no picture shown, and the session has the
devices and the cycles in a frame that were asked for. -/
theorem fittings_opened (h : opened arguments rom devices supply = some (first, opening)) :
    (∀ call ∈ opening, call.isPoll = false) ∧ first.devices = devices ∧
      first.cyclesPerFrame = arguments.cyclesPerFrame ∧ first.pictures = 0 := by
  obtain ⟨source, -, -, hstart, rfl⟩ := eq_of_opened h
  obtain ⟨sound, -, rfl⟩ := Session.start_eq hstart
  refine ⟨List.forall_mem_cons.2 ⟨rfl, ?_⟩, rfl, rfl, rfl⟩
  exact forall_calls_start (p := fun call => call.isPoll = false) (fun _ _ _ => rfl) rfl rfl rfl
    (fun _ => rfl) (fun _ => rfl) _ _ _

/-- The calls of a run are those before its first frame, those of its frames, and perhaps a
note. -/
theorem polls_run (h : opened arguments rom devices supply = some (first, opening))
    (script : List (List Event)) :
    (run arguments rom devices supply script).calls.countP Call.isPoll ≤ script.length + 1 := by
  have hopening : opening.countP Call.isPoll = 0 :=
    List.countP_eq_zero.2 fun call hcall =>
      Bool.eq_false_iff.1 ((fittings_opened h).1 call hcall)
  have hreport : (first.play script).report.calls.countP Call.isPoll =
      (first.play script).calls.countP Call.isPoll := by
    unfold Turn.report
    split
    · exact List.countP_append
    · exact List.countP_append
    · rfl
    · rfl
  rw [run_calls_of_opened h, List.countP_append, hopening, hreport, Nat.zero_add,
    Session.play_eq_frames]
  refine (Session.polls_frames (reachable_opened h) _).trans ?_
  rw [List.length_append]
  exact Nat.le_refl _

theorem exists_result_run (h : opened arguments rom devices supply = some (first, opening))
    (script : List (List Event)) :
    ∃ ending, (first.play script).ending = some ending ∧
      (run arguments rom devices supply script).result = ending.result := by
  have hm := reachable_opened h
  obtain ⟨loaded, hrun⟩ := run_of_opened h
  obtain ⟨ending, hends⟩ := first.exists_ends script
  have hending := Session.ending_play_of_ends hm hends
  refine ⟨ending, hending, ?_⟩
  rw [hrun]
  exact result_report hending

/-- A run reports the first thing that ends it. -/
theorem result_run_iff (h : opened arguments rom devices supply = some (first, opening))
    (script : List (List Event)) (ending : Ending) :
    (run arguments rom devices supply script).result = ending.result ↔
      first.Ends script ending := by
  obtain ⟨ending', hending, hresult⟩ := exists_result_run h script
  rw [hresult, ← Session.ending_play_iff (reachable_opened h), hending, Option.some.injEq]
  exact ⟨Ending.result_inj, congrArg Ending.result⟩

/-- No cycle complains about a key or the size of a program. -/
theorem ne_of_faultsAt {script : List (List Event)} {t : Moment} {fault : Fault}
    (hm : Reachable first.machine) (h : first.FaultsAt script t fault) :
    (∀ key, fault ≠ .invalidKey key) ∧ ∀ size, fault ≠ .programTooLarge size := by
  obtain ⟨later, -, -, k, -, -, hfault⟩ := h
  have hsound := (reachable_after (reachable_upTo hm t) k).sound
  cases cycleFault_of_cycle_error hsound hfault with
  | fetch | decode | overflow | underflow | range | font =>
    exact ⟨fun _ => Fault.noConfusion, fun _ => Fault.noConfusion⟩

/-- Of a run that gets to its first frame: It polls the keyboard at most once more than its
script has frames. It ends well exactly if it comes to an event that closes it, with no fault and
no failure before; then nothing is done after what was done before this event. It ends with a
fault exactly if it comes to a cycle that has this fault, and with a failure exactly if it comes
to a picture that fails for this reason, in both cases with nothing before that ends it; and there
are no other ends. At no moment does anything that an event asks of the machine have a fault, so no
run ends because the pad lacks a key or the program is too large. -/
theorem run_ends (hopen : opened arguments rom devices supply = some (first, opening))
    (script : List (List Event)) :
    let report := run arguments rom devices supply script
    (first.devices = devices ∧ first.cyclesPerFrame = arguments.cyclesPerFrame ∧
      first.pictures = 0 ∧
      ∃ loaded, report = (first.play script).report.after opening loaded) ∧
    report.calls.countP Call.isPoll ≤ script.length + 1 ∧
    (report.result = .ok () ↔ ∃ t, first.ClosesAt script t) ∧
    (∀ t, first.ClosesAt script t →
      first.play script = { first.upTo t with ending := some .quit }) ∧
    (∀ fault, report.result = .error (.fault fault) ↔ ∃ t, first.FaultsAt script t fault) ∧
    (∀ reason, report.result = .error (.device reason) ↔ ∃ t, first.FailsAt script t reason) ∧
    (∀ reason, report.result ≠ .error (.file reason)) ∧
    (∀ t, let s := (first.upTo t).session
      s.machine.reset.result = .ok () ∧
        (∀ (key : Key) (pad : UInt8), key.pad? = some pad → ∀ down,
          (s.machine.setKey pad down).result = .ok () ∧
            ((s.machine.setKey pad down).machine.answerKey pad).result = .ok ()) ∧
        ∀ event fault, (s.handle event).ending ≠ some (.fault fault)) ∧
    (∀ key, report.result ≠ .error (.fault (.invalidKey key))) ∧
    ∀ size, report.result ≠ .error (.fault (.programTooLarge size)) := by
  intro report
  have hm := reachable_opened hopen
  obtain ⟨loaded, hrun⟩ := run_of_opened hopen
  obtain ⟨-, hdevices, hcycles, hpictures⟩ := fittings_opened hopen
  have hends := result_run_iff hopen script
  have hfaults : ∀ fault, report.result = .error (.fault fault) →
      (∀ key, fault ≠ .invalidKey key) ∧ ∀ size, fault ≠ .programTooLarge size := by
    intro fault hresult
    obtain ⟨t, hat⟩ := (hends (.fault fault)).1 hresult
    exact ne_of_faultsAt hm hat
  refine ⟨⟨hdevices, hcycles, hpictures, loaded, hrun script⟩, polls_run hopen script,
    hends .quit, fun t ht => Session.play_of_closesAt hm ht, fun fault => hends (.fault fault),
    fun reason => hends (.device reason), ?_, ?_, ?_, ?_⟩
  · intro reason hresult
    obtain ⟨ending, -, hending⟩ := exists_result_run hopen script
    cases ending with
    | quit | fault | device => cases hending.symm.trans hresult
  · intro t s
    have hs : Reachable s.machine := reachable_upTo hm t
    obtain ⟨hreset, hkeys⟩ := replies_ok hs
    refine ⟨hreset, hkeys, ?_⟩
    intro event fault
    rw [Session.ending_handle hs]
    split
    · nofun
    · nofun
  · intro key hresult
    exact (hfaults _ hresult).1 key rfl
  · intro size hresult
    exact (hfaults _ hresult).2 size rfl

end

/-- A run of a program that returns without having been called. -/
def returningRun : List (List Event) → Report :=
  run { rom := "a.ch8", seed := some 0, mute := true } (.ok [.bytes [0x00, 0xEE]]) quietDevices
    idleSupply

/-- Devices that copy one picture to the window and no other. -/
def failingDevices : Devices :=
  { quietDevices with
    failingAfter := fun pictures part =>
      if pictures = 1 ∧ part = .copy then some "copy failed" else none }

/-- A run with these devices and one cycle in a frame, of a program that draws in every second
instruction. -/
def flickeringRun : List (List Event) → Report :=
  run { rom := "a.ch8", cyclesPerFrame := 1, mute := true }
    (.ok [.bytes [0xD0, 0x01, 0x12, 0x00]]) failingDevices idleSupply

set_option maxRecDepth 100000 in
/-- A return that was not called ends a run with a fault, unless the key that closes it is held
before. A run that draws in its first and third frame ends with the picture of the third, unless
it is closed in this frame. -/
theorem run_ends_three_ways :
    (∃ first opening, opened { rom := "a.ch8", seed := some 0, mute := true }
        (.ok [.bytes [0x00, 0xEE]]) quietDevices idleSupply = some (first, opening) ∧
      (returningRun [[.keyDown (some .escape) true]]).result = .ok () ∧
      ∃ t, first.FaultsAt [[]] t (.stackUnderflow 0x200)) ∧
    ∃ first opening, opened { rom := "a.ch8", cyclesPerFrame := 1, mute := true }
        (.ok [.bytes [0xD0, 0x01, 0x12, 0x00]]) failingDevices idleSupply =
          some (first, opening) ∧
      (∃ t, first.FailsAt [[], [], []] t "copy failed") ∧
      ∃ t, first.ClosesAt [[], [], [.quit]] t := by
  constructor
  · obtain ⟨⟨first, opening⟩, hopen⟩ := Option.isSome_iff_exists.1
      (show (opened { rom := "a.ch8", seed := some 0, mute := true } (.ok [.bytes [0x00, 0xEE]])
        quietDevices idleSupply).isSome = true by decide +kernel)
    obtain ⟨-, -, hcloses, -⟩ := run_ends hopen [[.keyDown (some .escape) true]]
    obtain ⟨-, -, -, -, hfaults, -⟩ := run_ends hopen [[]]
    have hescape : first.ClosesAt [[.keyDown (some .escape) true]] ⟨[], []⟩ :=
      ⟨_, [], [[.quit]], rfl, first.undisturbed_start, rfl⟩
    have hreturn : (returningRun [[]]).failure? = some (.fault (.stackUnderflow 0x200)) := by
      decide +kernel
    exact ⟨first, opening, hopen, hcloses.2 ⟨_, hescape⟩,
      (hfaults _).1 (Report.failure?_eq_some_iff.1 hreturn)⟩
  · obtain ⟨⟨first, opening⟩, hopen⟩ := Option.isSome_iff_exists.1
      (show (opened { rom := "a.ch8", cyclesPerFrame := 1, mute := true }
        (.ok [.bytes [0xD0, 0x01, 0x12, 0x00]]) failingDevices idleSupply).isSome = true by
          decide +kernel)
    obtain ⟨-, -, -, -, -, hfails, -⟩ := run_ends hopen [[], [], []]
    obtain ⟨-, -, hcloses, -⟩ := run_ends hopen [[], [], [.quit]]
    have hcopy : (flickeringRun [[], [], []]).failure? = some (.device "copy failed") := by
      decide +kernel
    have hquit : (flickeringRun [[], [], [.quit]]).failure? = none := by decide +kernel
    exact ⟨first, opening, hopen, (hfails _).1 (Report.failure?_eq_some_iff.1 hcopy),
      hcloses.1 (Report.failure?_eq_none_iff.1 hquit)⟩

end Chip8VM.Host
