import Chip8VM.Host.Session

/-!
# Turns and frames

A turn that has not ended the run goes on with the next (`Turn.andThen`). `Turn.Leaves`
says what holds of the session and of all calls so far if a turn has not ended the run; it
goes through turns that follow each other (`Turn.Leaves.andThen`), and what every frame
leaves as it found it, the frames of a script leave (`Session.frames_leaves`).

`afterFrames` is a run at the moment when the frames of a script are over. Its calls are
the first of the whole run, however the script goes on (`run_calls_of_afterFrames`).
-/

namespace Chip8VM.Host

/-! ## Attempts -/

namespace Attempt

variable {α β : Type} {attempt : Attempt α} {next : α → Attempt β}

/-- An attempt that succeeds has succeeded in its first part. -/
theorem eq_of_bind {b : β} (h : (attempt >>= next).result = .ok b) :
    ∃ a, attempt.result = .ok a ∧ (next a).result = .ok b := by
  change (attempt.andThen next).result = .ok b at h
  unfold andThen at h
  split at h
  · cases h
  · rename_i a ha
    exact ⟨a, ha, h⟩

/-- What is so of the calls of both parts is so of all calls. -/
theorem forall_calls_bind {p : Call → Prop} (hfirst : ∀ call ∈ attempt.calls, p call)
    (hnext : ∀ a, ∀ call ∈ (next a).calls, p call) :
    ∀ call ∈ (attempt >>= next).calls, p call := by
  change ∀ call ∈ (attempt.andThen next).calls, p call
  unfold andThen
  split
  · exact hfirst
  · rename_i a ha
    intro call hcall
    exact (List.mem_append.1 hcall).elim (hfirst call) (hnext a call)

theorem calls_need (devices : Devices) (part : Part) : (need devices part).calls = [] := by
  unfold need
  split
  · rfl
  · rfl

theorem forall_calls_need {p : Call → Prop} (devices : Devices) (part : Part) :
    ∀ call ∈ (need devices part).calls, p call := by
  rw [calls_need]
  exact fun _ hcall => absurd hcall List.not_mem_nil

theorem forall_calls_call {p : Call → Prop} {call : Call} (h : p call) :
    ∀ c ∈ (Attempt.call call).calls, p c := by
  intro c hc
  rw [List.mem_singleton.1 hc]
  exact h

end Attempt

/-! ## Calls -/

/-- A session is started step by step, with a buzzer or without. -/
theorem Session.start_eq_bind (arguments : Arguments) (devices : Devices) (m : Machine) :
    Session.start arguments devices m =
      (Attempt.need devices .startup >>= fun _ =>
        Window.create devices (Session.title arguments.rom) arguments.scale >>= fun _ =>
          Attempt.need devices .events >>= fun _ =>
            (if arguments.mute then pure .muted else Sound.create devices) >>= fun sound =>
              pure ⟨devices, arguments.cyclesPerFrame, m, sound, 0⟩) := by
  unfold Session.start
  cases arguments.mute with
  | true => rfl
  | false => rfl

section

variable {p : Call → Prop}

/-- The calls that open the window. -/
theorem forall_calls_window (hwindow : ∀ width height title, p (.window width height title))
    (hcenter : p .center) (hclear : p .clear) (hpresent : p .present) (devices : Devices)
    (title : String) (scale : UInt32) :
    ∀ call ∈ (Window.create devices title scale).calls, p call := by
  unfold Window.create
  refine Attempt.forall_calls_bind (Attempt.forall_calls_need _ _) fun _ => ?_
  refine Attempt.forall_calls_bind (Attempt.forall_calls_call (hwindow _ _ _)) fun _ => ?_
  refine Attempt.forall_calls_bind (Attempt.forall_calls_call hcenter) fun _ => ?_
  refine Attempt.forall_calls_bind (Attempt.forall_calls_need _ _) fun _ => ?_
  refine Attempt.forall_calls_bind (Attempt.forall_calls_need _ _) fun _ => ?_
  exact Attempt.forall_calls_bind (Attempt.forall_calls_call hclear) fun _ =>
    Attempt.forall_calls_call hpresent

/-- The calls that open the sound device, or tell the user that there is none. -/
theorem forall_calls_sound (haudio : ∀ rate, p (.audio rate))
    (hsoundless : ∀ reason, p (.note (.soundless reason))) (devices : Devices) :
    ∀ call ∈ (Sound.create devices).calls, p call := by
  have hbuzzer : ∀ call ∈ (Buzzer.create devices).calls, p call := by
    unfold Buzzer.create
    refine Attempt.forall_calls_bind (Attempt.forall_calls_need _ _) fun _ => ?_
    refine Attempt.forall_calls_bind (Attempt.forall_calls_call (haudio _)) fun _ => ?_
    exact Attempt.forall_calls_bind (Attempt.forall_calls_need _ _) fun _ _ hcall =>
      absurd hcall List.not_mem_nil
  unfold Sound.create
  split
  · rename_i calls opened hcreate
    rw [hcreate] at hbuzzer
    exact hbuzzer
  · rename_i calls reason hcreate
    rw [hcreate] at hbuzzer
    intro call hcall
    rcases List.mem_append.1 hcall with hmem | hmem
    · exact hbuzzer call hmem
    · rw [List.mem_singleton.1 hmem]
      exact hsoundless reason

/-- The calls that open the devices of a run. -/
theorem forall_calls_start (hwindow : ∀ width height title, p (.window width height title))
    (hcenter : p .center) (hclear : p .clear) (hpresent : p .present)
    (haudio : ∀ rate, p (.audio rate)) (hsoundless : ∀ reason, p (.note (.soundless reason)))
    (arguments : Arguments) (devices : Devices) (m : Machine) :
    ∀ call ∈ (Session.start arguments devices m).calls, p call := by
  have hnone : ∀ call ∈ ([] : List Call), p call := fun _ hcall => absurd hcall List.not_mem_nil
  rw [Session.start_eq_bind]
  refine Attempt.forall_calls_bind (Attempt.forall_calls_need _ _) fun _ => ?_
  refine Attempt.forall_calls_bind
    (forall_calls_window hwindow hcenter hclear hpresent _ _ _) fun _ => ?_
  refine Attempt.forall_calls_bind (Attempt.forall_calls_need _ _) fun _ => ?_
  refine Attempt.forall_calls_bind ?_ fun _ => hnone
  split
  · exact hnone
  · exact forall_calls_sound haudio hsoundless _

/-- The calls that show a frame. -/
theorem forall_calls_render (htexture : p .texture) (hcopy : ∀ texture, p (.copy texture))
    (hpresent : p .present) (devices : Devices) (frame : Frame) :
    ∀ call ∈ (Window.render devices frame).calls, p call := by
  unfold Window.render
  refine Attempt.forall_calls_bind (Attempt.forall_calls_call htexture) fun _ => ?_
  refine Attempt.forall_calls_bind (Attempt.forall_calls_need _ _) fun _ => ?_
  refine Attempt.forall_calls_bind (Attempt.forall_calls_need _ _) fun _ => ?_
  refine Attempt.forall_calls_bind (Attempt.forall_calls_call (hcopy _)) fun _ => ?_
  exact Attempt.forall_calls_bind (Attempt.forall_calls_need _ _) fun _ =>
    Attempt.forall_calls_call hpresent

/-- The calls that switch the sound. -/
theorem forall_calls_setActive (hresume : p .resume) (hsamples : ∀ samples, p (.samples samples))
    (hpause : p .pause) (devices : Devices) (sound : Sound) (active : Bool) :
    ∀ call ∈ (sound.setActive devices active).2, p call := by
  have hnone : ∀ call ∈ ([] : List Call), p call := fun _ hcall => absurd hcall List.not_mem_nil
  cases sound with
  | muted => exact hnone
  | buzzer b =>
    simp only [Sound.setActive, Buzzer.setActive]
    split
    · exact hnone
    · split
      · dsimp only
        split
        · exact List.forall_mem_singleton.2 hresume
        · exact List.forall_mem_cons.2 ⟨hresume, List.forall_mem_singleton.2 (hsamples _)⟩
      · exact List.forall_mem_singleton.2 hpause

end

/-! ## Turns -/

namespace Turn

variable {turn : Turn} {next : Session → Turn}

theorem andThen_of_none (h : turn.ending = none) :
    turn.andThen next =
      ⟨(next turn.session).session, turn.calls ++ (next turn.session).calls,
        turn.log ++ (next turn.session).log, (next turn.session).ending⟩ := by
  rw [andThen, h]

theorem andThen_of_some {ending : Ending} (h : turn.ending = some ending) :
    turn.andThen next = turn := by
  rw [andThen, h]

theorem andThen_assoc (turn : Turn) (first second : Session → Turn) :
    (turn.andThen first).andThen second =
      turn.andThen fun s => (first s).andThen second := by
  cases h : turn.ending with
  | some ending => rw [andThen_of_some h, andThen_of_some h, andThen_of_some h]
  | none =>
    rw [andThen_of_none h, andThen_of_none h]
    cases hfirst : (first turn.session).ending with
    | some ending => rw [andThen_of_some hfirst, andThen_of_some rfl, hfirst]
    | none =>
      rw [andThen_of_none hfirst, andThen_of_none rfl]
      simp only [List.append_assoc]

/-- The calls of a turn come first. -/
theorem calls_andThen (turn : Turn) (next : Session → Turn) :
    ∃ more, (turn.andThen next).calls = turn.calls ++ more := by
  cases h : turn.ending with
  | some ending => exact ⟨[], by rw [andThen_of_some h, List.append_nil]⟩
  | none => exact ⟨(next turn.session).calls, by rw [andThen_of_none h]⟩

/-- What holds after a turn that has not ended the run, of the session and of the calls
made before the turn and in it. -/
def Leaves (turn : Turn) (before : List Call) (P : Session → List Call → Prop) : Prop :=
  turn.ending = none → P turn.session (before ++ turn.calls)

variable {before : List Call} {P Q : Session → List Call → Prop}

theorem Leaves.andThen (h : turn.Leaves before P)
    (hnext : ∀ s calls, P s calls → (next s).Leaves calls Q) :
    (turn.andThen next).Leaves before Q := by
  intro hending
  cases hturn : turn.ending with
  | some ending =>
    rw [andThen_of_some hturn, hturn] at hending
    cases hending
  | none =>
    rw [andThen_of_none hturn] at hending ⊢
    have hQ := hnext turn.session (before ++ turn.calls) (h hturn) hending
    rw [List.append_assoc] at hQ
    exact hQ

/-- A turn in which nothing happens leaves what it found. -/
theorem leaves_still {s : Session} (h : P s before) :
    ({ session := s } : Turn).Leaves before P := by
  intro _
  rw [List.append_nil]
  exact h

/-- Of a turn that ends the run nothing has to be shown. -/
theorem leaves_of_ending {ending : Ending} (h : turn.ending = some ending) :
    turn.Leaves before P := by
  intro hnone
  rw [h] at hnone
  cases hnone

end Turn

/-! ## Frames -/

namespace Session

theorem frames_append (s : Session) (first rest : List (List Event)) :
    s.frames (first ++ rest) = (s.frames first).andThen fun s => s.frames rest := by
  induction first generalizing s with
  | nil => rfl
  | cons events first ih =>
    rw [List.cons_append, frames, frames, Turn.andThen_assoc]
    congr 1
    funext s
    exact ih s

/-- What every frame leaves as it found it, the frames of a script leave. -/
theorem frames_leaves {P : Session → List Call → Prop}
    (step : ∀ s calls events, P s calls → (s.frame events).Leaves calls P) {s : Session}
    {calls : List Call} (h : P s calls) (script : List (List Event)) :
    (s.frames script).Leaves calls P := by
  induction script generalizing s calls with
  | nil => exact Turn.leaves_still h
  | cons events rest ih => exact (step s calls events h).andThen fun s calls hs => ih hs

/-- A session starts with the machine that it is given, and with a sound of its own. -/
theorem start_eq {arguments : Arguments} {devices : Devices} {m : Machine} {s : Session}
    (h : (start arguments devices m).result = .ok s) :
    ∃ sound, (if arguments.mute then pure .muted else Sound.create devices).result = .ok sound ∧
      s = ⟨devices, arguments.cyclesPerFrame, m, sound, 0⟩ := by
  rw [start_eq_bind] at h
  obtain ⟨-, -, h⟩ := Attempt.eq_of_bind h
  obtain ⟨-, -, h⟩ := Attempt.eq_of_bind h
  obtain ⟨-, -, h⟩ := Attempt.eq_of_bind h
  obtain ⟨sound, hsound, h⟩ := Attempt.eq_of_bind h
  exact ⟨sound, hsound, (Except.ok.inj h).symm⟩

end Session

/-! ## Runs -/

/-- Devices that never fail and take no samples. -/
def quietDevices : Devices where
  failing _ := none
  padding := 0
  rate := none
  samples := 0

/-- A run before its first frame: the session, and the calls made so far. None if the
program image or a device fails. -/
def opened (arguments : Arguments) (rom : Except String Rom.Source) (devices : Devices)
    (supply : Random.Supply) : Option (Session × List Call) :=
  match rom with
  | .error _ => none
  | .ok source =>
    let loaded := (Machine.powerOn (Session.settings arguments) supply).loadRom source
    match loaded.result with
    | .error _ => none
    | .ok () =>
      let attempt := Session.start arguments devices loaded.machine
      match attempt.result with
      | .error _ => none
      | .ok session => some (session, .note (.loaded arguments.rom) :: attempt.calls)

/-- A run when the frames of a script are over: the session, and the calls made so far. None
if the run ends before that. -/
def afterFrames (arguments : Arguments) (rom : Except String Rom.Source) (devices : Devices)
    (supply : Random.Supply) (script : List (List Event)) : Option (Session × List Call) :=
  match opened arguments rom devices supply with
  | none => none
  | some (s, calls) =>
    match (s.frames script).ending with
    | none => some ((s.frames script).session, calls ++ (s.frames script).calls)
    | some _ => none

section

variable {arguments : Arguments} {rom : Except String Rom.Source} {devices : Devices}
  {supply : Random.Supply} {script : List (List Event)} {s : Session} {calls : List Call}

/-- A run that gets to its first frame has loaded its program and opened its devices. -/
theorem eq_of_opened (h : opened arguments rom devices supply = some (s, calls)) :
    ∃ source, rom = .ok source ∧
      ((Machine.powerOn (Session.settings arguments) supply).loadRom source).result = .ok () ∧
      (Session.start arguments devices ((Machine.powerOn (Session.settings arguments)
        supply).loadRom source).machine).result = .ok s ∧
      calls = .note (.loaded arguments.rom) :: (Session.start arguments devices
        ((Machine.powerOn (Session.settings arguments) supply).loadRom source).machine).calls := by
  unfold opened at h
  cases rom with
  | error reason => cases h
  | ok source =>
    dsimp only at h
    cases hload : ((Machine.powerOn (Session.settings arguments) supply).loadRom source).result with
    | error fault =>
      rw [hload] at h
      cases h
    | ok done =>
      rw [hload] at h
      dsimp only at h
      cases hstart : (Session.start arguments devices
          ((Machine.powerOn (Session.settings arguments) supply).loadRom
            source).machine).result with
      | error reason =>
        rw [hstart] at h
        cases h
      | ok session =>
        rw [hstart] at h
        obtain ⟨rfl, rfl⟩ := Prod.mk.inj (Option.some.inj h)
        exact ⟨source, rfl, hload, hstart, rfl⟩

/-- A run that gets to its first frame goes on with its script, and ends as that ends. -/
theorem run_of_opened (h : opened arguments rom devices supply = some (s, calls)) :
    ∃ loaded, ∀ script,
      run arguments rom devices supply script = (s.play script).report.after calls loaded := by
  obtain ⟨source, rfl, hload, hstart, rfl⟩ := eq_of_opened h
  refine ⟨((Machine.powerOn (Session.settings arguments) supply).loadRom source).log, ?_⟩
  intro script
  unfold run
  dsimp only
  rw [hload]
  dsimp only
  rw [hstart]

/-- The calls of the frames come after those before the first frame. -/
theorem run_calls_of_opened (h : opened arguments rom devices supply = some (s, calls)) :
    (run arguments rom devices supply script).calls =
      calls ++ (s.play script).report.calls := by
  obtain ⟨loaded, hrun⟩ := run_of_opened h
  rw [hrun]
  rfl

/-- A run that does not get to its first frame has at most told that the program image was loaded
and opened devices. -/
theorem forall_calls_run_of_not_opened {p : Call → Prop}
    (hloaded : p (.note (.loaded arguments.rom)))
    (hstart : ∀ m, ∀ call ∈ (Session.start arguments devices m).calls, p call)
    (h : opened arguments rom devices supply = none) (script : List (List Event)) :
    ∀ call ∈ (run arguments rom devices supply script).calls, p call := by
  unfold opened at h
  unfold run
  dsimp only at h ⊢
  split
  · exact nofun
  · split
    · exact nofun
    · rename_i hload
      dsimp only at h
      rw [hload] at h
      dsimp only at h
      split
      · exact List.forall_mem_cons.2 ⟨hloaded, hstart _⟩
      · rename_i hopen
        rw [hopen] at h
        cases h

theorem eq_of_afterFrames
    (h : afterFrames arguments rom devices supply script = some (s, calls)) :
    ∃ first before, opened arguments rom devices supply = some (first, before) ∧
      (first.frames script).ending = none ∧ s = (first.frames script).session ∧
      calls = before ++ (first.frames script).calls := by
  unfold afterFrames at h
  split at h
  · cases h
  · rename_i first before hopened
    split at h
    · rename_i hending
      obtain ⟨rfl, rfl⟩ := Prod.mk.inj (Option.some.inj h)
      exact ⟨first, before, hopened, hending, rfl, rfl⟩
    · cases h

/-- The calls of a turn come first in the report of the run. -/
theorem calls_report (turn : Turn) : ∃ more, turn.report.calls = turn.calls ++ more := by
  unfold Turn.report
  split
  · exact ⟨_, rfl⟩
  · exact ⟨_, rfl⟩
  · exact ⟨[], (List.append_nil _).symm⟩
  · exact ⟨[], (List.append_nil _).symm⟩

/-- The calls up to the end of some frames come first in a run that begins with these
frames. -/
theorem run_calls_of_afterFrames
    (h : afterFrames arguments rom devices supply script = some (s, calls))
    (rest : List (List Event)) :
    ∃ more, (run arguments rom devices supply (script ++ rest)).calls = calls ++ more := by
  obtain ⟨first, before, hopened, hending, -, rfl⟩ := eq_of_afterFrames h
  rw [run_calls_of_opened hopened, Session.play, Session.frames_append, Turn.andThen_assoc]
  obtain ⟨later, hlater⟩ := Turn.calls_andThen (first.frames script)
    fun s => (s.frames rest).andThen fun s => s.frame [.quit]
  obtain ⟨last, hlast⟩ := calls_report ((first.frames script).andThen
    fun s => (s.frames rest).andThen fun s => s.frame [.quit])
  exact ⟨later ++ last, by rw [hlast, hlater, List.append_assoc, List.append_assoc]⟩

/-- One frame more, if it is completed. -/
theorem afterFrames_append
    (h : afterFrames arguments rom devices supply script = some (s, calls))
    {events : List Event} (hending : (s.frame events).ending = none) :
    afterFrames arguments rom devices supply (script ++ [events]) =
      some ((s.frame events).session, calls ++ (s.frame events).calls) := by
  obtain ⟨first, before, hopened, hnone, rfl, rfl⟩ := eq_of_afterFrames h
  have hlast : ∀ s : Session, s.frames [events] = s.frame events := fun s => by
    rw [Session.frames]
    unfold Turn.andThen
    split
    · rfl
    · rename_i hframe
      simp [Session.frames, ← hframe]
  unfold afterFrames
  simp only [hopened, Session.frames_append, Turn.andThen_of_none hnone, hlast, hending,
    List.append_assoc]

/-- What holds before the first frame and every frame leaves as it found it holds when the
frames of a script are over. -/
theorem afterFrames_invariant {P : Session → List Call → Prop}
    (start : ∀ s calls, opened arguments rom devices supply = some (s, calls) → P s calls)
    (step : ∀ s calls events, P s calls → (s.frame events).Leaves calls P)
    (h : afterFrames arguments rom devices supply script = some (s, calls)) : P s calls := by
  obtain ⟨first, before, hopened, hending, rfl, rfl⟩ := eq_of_afterFrames h
  exact Session.frames_leaves step (start first before hopened) script hending

end

end Chip8VM.Host
