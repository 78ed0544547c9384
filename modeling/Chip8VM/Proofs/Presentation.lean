import Chip8VM.Proofs.Moments

/-!
# Presentation

How a run is shown and heard does not reach its machine. Take two runs of one program image with
one script, whose arguments differ at most in the pace, the size of the window and the wish for
silence (`Arguments.SamePlay`), and whose devices differ at most in sound
(`Devices.SameSight`). They end in the same way and make the same calls, if one does not listen
and does not look at the size of the window (`bare`); at every moment they have the same machine.

Two sessions are twins if they differ at most in sound (`Session.Twins`). Every step of a run
does to twins what leaves them twins, with the same bare calls and the same ending, and so does
the whole run (`Session.Twins.play`).
-/

namespace Chip8VM.Host

/-! ## What may differ -/

/-- Arguments that differ at most in how a run is presented. -/
structure Arguments.SamePlay (arguments arguments' : Arguments) : Prop where
  rom : arguments.rom = arguments'.rom
  cyclesPerFrame : arguments.cyclesPerFrame = arguments'.cyclesPerFrame
  seed : arguments.seed = arguments'.seed

/-- Devices that differ at most in sound: in whether there is any, and how it takes samples. -/
structure Devices.SameSight (devices devices' : Devices) : Prop where
  failing : ∀ part, part ≠ .audio → part ≠ .playback → devices.failing part = devices'.failing part
  failingAfter : ∀ pictures part, part ≠ .audio → part ≠ .playback →
    devices.failingAfter pictures part = devices'.failingAfter pictures part
  padding : devices.padding = devices'.padding

/-- A call without the size of a window, and none if the call is about sound. -/
def Call.bare? : Call → Option Call
  | .audio _ | .resume | .samples _ | .pause | .note (.soundless _) => none
  | .window _ _ title => some (.window 0 0 title)
  | call => some call

/-- Calls without those about sound and without the size of a window. -/
def bare (calls : List Call) : List Call := calls.filterMap Call.bare?

/-- The texture that a call copies to the window. -/
def Call.copied? : Call → Option Texture
  | .copy t => some t
  | _ => none

/-- The textures copied to the window, in order. -/
def copies (calls : List Call) : List Texture := calls.filterMap Call.copied?

theorem bare_append (calls more : List Call) : bare (calls ++ more) = bare calls ++ bare more :=
  List.filterMap_append

theorem bare_cons (call : Call) (calls : List Call) :
    bare (call :: calls) = call.bare?.toList ++ bare calls := by
  rw [bare, List.filterMap_cons]
  cases call.bare? with
  | none => rfl
  | some call => rfl

/-- The bare calls tell which textures are copied. -/
theorem copies_bare (calls : List Call) : copies (bare calls) = copies calls := by
  rw [copies, copies, bare, List.filterMap_filterMap]
  congr 1
  funext call
  cases call with
  | note note => cases note with | _ => rfl
  | _ => rfl

/-- Switching the sound is no bare call. -/
theorem bare_setActive (devices : Devices) (sound : Sound) (active : Bool) :
    bare (sound.setActive devices active).2 = [] :=
  List.filterMap_eq_nil_iff.2 <|
    forall_calls_setActive (p := fun call => call.bare? = none) rfl (fun _ => rfl) rfl _ _ _

/-! ## Attempts -/

/-- Attempts with the same bare calls that fail for the same reason, or come to two values in
some relation. -/
inductive Attempt.Twins {α β : Type} (R : α → β → Prop) : Attempt α → Attempt β → Prop where
  | ok {calls calls' : List Call} {a : α} {b : β} (hcalls : bare calls = bare calls')
      (hvalues : R a b) : Twins R ⟨calls, .ok a⟩ ⟨calls', .ok b⟩
  | error {calls calls' : List Call} {reason : String} (hcalls : bare calls = bare calls') :
      Twins R ⟨calls, .error reason⟩ ⟨calls', .error reason⟩

namespace Attempt

variable {α β γ δ : Type} {R : α → β → Prop} {S : γ → δ → Prop}

theorem Twins.bind {attempt : Attempt α} {attempt' : Attempt β} {next : α → Attempt γ}
    {next' : β → Attempt δ} (h : Twins R attempt attempt')
    (hnext : ∀ a b, R a b → Twins S (next a) (next' b)) :
    Twins S (attempt >>= next) (attempt' >>= next') := by
  change Twins S (attempt.andThen next) (attempt'.andThen next')
  cases h with
  | error hcalls => exact .error hcalls
  | @ok calls calls' a b hcalls hvalues =>
    have hafter := hnext a b hvalues
    unfold andThen
    dsimp only
    generalize next a = after at hafter ⊢
    generalize next' b = after' at hafter ⊢
    cases hafter with
    | error hmore => exact .error (by rw [bare_append, bare_append, hcalls, hmore])
    | ok hmore hvalues => exact .ok (by rw [bare_append, bare_append, hcalls, hmore]) hvalues

theorem twins_self (attempt : Attempt α) : Twins Eq attempt attempt := by
  obtain ⟨calls, reason | a⟩ := attempt
  · exact .error rfl
  · exact .ok rfl rfl

theorem twins_call {call call' : Call} (h : call.bare? = call'.bare?) :
    Twins Eq (Attempt.call call) (Attempt.call call') :=
  .ok (by rw [bare_cons, bare_cons, h]) rfl

end Attempt

namespace Devices.SameSight

variable {devices devices' : Devices} (h : devices.SameSight devices')

include h

/-- Parts that have nothing to do with sound work for both or for neither. -/
theorem need_eq (part : Part) (haudio : part ≠ .audio) (hplayback : part ≠ .playback) :
    Attempt.need devices part = Attempt.need devices' part := by
  rw [Attempt.need, Attempt.need, h.failing part haudio hplayback]

/-- They still differ at most in sound when pictures have been shown. -/
theorem after (pictures : Nat) : (devices.after pictures).SameSight (devices'.after pictures) :=
  ⟨h.failingAfter pictures, h.failingAfter, h.padding⟩

theorem render_eq (frame : Frame) : Window.render devices frame = Window.render devices' frame := by
  rw [Window.render, Window.render, h.padding, h.need_eq .texture nofun nofun,
    h.need_eq .lock nofun nofun, h.need_eq .copy nofun nofun]

theorem create (title : String) (scale scale' : UInt32) :
    Attempt.Twins Eq (Window.create devices title scale)
      (Window.create devices' title scale') := by
  unfold Window.create
  rw [h.need_eq .video nofun nofun, h.need_eq .window nofun nofun, h.need_eq .canvas nofun nofun]
  have hsize : Attempt.Twins Eq
      (Attempt.call (.window (Window.width scale) (Window.height scale) title))
      (Attempt.call (.window (Window.width scale') (Window.height scale') title)) :=
    Attempt.twins_call rfl
  exact (Attempt.twins_self _).bind fun _ _ _ => hsize.bind fun _ _ _ => Attempt.twins_self _

end Devices.SameSight

/-- Whether or not there is to be sound, and whether or not it can be had, a run goes on. -/
theorem sound_eq (mute : Bool) (devices : Devices) :
    ∃ calls sound, (if mute then pure .muted else Sound.create devices) =
      (⟨calls, .ok sound⟩ : Attempt Sound) ∧ bare calls = [] := by
  cases mute with
  | true => exact ⟨[], .muted, rfl, rfl⟩
  | false =>
    have hcalls : bare (Sound.create devices).calls = [] :=
      List.filterMap_eq_nil_iff.2 <|
        forall_calls_sound (p := fun call => call.bare? = none) (fun _ => rfl) (fun _ => rfl) _
    unfold Sound.create at hcalls ⊢
    split at hcalls
    · exact ⟨_, _, rfl, hcalls⟩
    · exact ⟨_, _, rfl, hcalls⟩

/-! ## Sessions and turns -/

/-- Sessions that differ at most in sound. -/
structure Session.Twins (s s' : Session) : Prop where
  devices : s.devices.SameSight s'.devices
  cyclesPerFrame : s.cyclesPerFrame = s'.cyclesPerFrame
  machine : s.machine = s'.machine
  pictures : s.pictures = s'.pictures

/-- Turns that differ at most in sound. -/
structure Turn.Twins (turn turn' : Turn) : Prop where
  session : turn.session.Twins turn'.session
  calls : bare turn.calls = bare turn'.calls
  log : turn.log = turn'.log
  ending : turn.ending = turn'.ending

theorem Turn.Twins.andThen {turn turn' : Turn} {next next' : Session → Turn}
    (h : turn.Twins turn') (hnext : ∀ s s', s.Twins s' → (next s).Twins (next' s')) :
    (turn.andThen next).Twins (turn'.andThen next') := by
  cases hending : turn.ending with
  | some ending =>
    rw [andThen_of_some hending, andThen_of_some (h.ending ▸ hending)]
    exact h
  | none =>
    have hafter := hnext _ _ h.session
    rw [andThen_of_none hending, andThen_of_none (h.ending ▸ hending)]
    exact ⟨hafter.session, by rw [bare_append, bare_append, h.calls, hafter.calls],
      by rw [h.log, hafter.log], hafter.ending⟩

namespace Session

/-- Sessions are started as twins. -/
theorem start_twins {arguments arguments' : Arguments} (h : arguments.SamePlay arguments')
    {devices devices' : Devices} (hdevices : devices.SameSight devices') (m : Machine) :
    Attempt.Twins Twins (start arguments devices m) (start arguments' devices' m) := by
  rw [start_eq_bind, start_eq_bind, h.rom, h.cyclesPerFrame,
    hdevices.need_eq .startup nofun nofun, hdevices.need_eq .events nofun nofun]
  refine (Attempt.twins_self _).bind fun _ _ _ => ?_
  refine (hdevices.create _ _ _).bind fun _ _ _ => ?_
  refine (Attempt.twins_self _).bind fun _ _ _ => ?_
  -- The two sounds may have nothing in common: of them only the bare calls are compared.
  obtain ⟨calls, sound, hsound, hcalls⟩ := sound_eq arguments.mute devices
  obtain ⟨calls', sound', hsound', hcalls'⟩ := sound_eq arguments'.mute devices'
  rw [hsound, hsound']
  have hboth : Attempt.Twins (fun _ _ => True) (⟨calls, .ok sound⟩ : Attempt Sound)
      ⟨calls', .ok sound'⟩ := .ok (hcalls.trans hcalls'.symm) trivial
  exact hboth.bind fun _ _ _ => .ok rfl ⟨hdevices, rfl, rfl, rfl⟩

namespace Twins

variable {s s' : Session} (h : s.Twins s')

include h

theorem still : ({ session := s } : Turn).Twins { session := s' } := ⟨h, rfl, rfl, rfl⟩

theorem reply (calls : List Call) (reply : Machine.Reply Unit) :
    (s.reply calls reply).Twins (s'.reply calls reply) :=
  ⟨⟨h.devices, h.cyclesPerFrame, rfl, h.pictures⟩, rfl, rfl, rfl⟩

theorem press (pad : UInt8) (held : Bool) : (s.press pad held).Twins (s'.press pad held) := by
  unfold Session.press
  rw [h.machine]
  refine (h.reply _ _).andThen fun s s' hs => ?_
  rw [hs.machine]
  split
  · exact hs.reply _ _
  · exact hs.still

/-- Twins hear the same events in the same way. -/
theorem handle (event : Event) : (s.handle event).Twins (s'.handle event) := by
  cases event with
  | quit => exact ⟨h, rfl, rfl, rfl⟩
  | other => exact h.still
  | keyDown key held =>
    cases key with
    | none => exact h.still
    | some key =>
      rw [Session.handle, Session.handle, h.machine]
      split
      · exact ⟨h, rfl, rfl, rfl⟩
      · split
        · split
          · exact h.still
          · exact h.reply _ _
        · split
          · exact h.press _ _
          · exact h.still
  | keyUp key =>
    cases key with
    | none => exact h.still
    | some key =>
      rw [Session.handle, Session.handle, h.machine]
      split
      · exact h.reply _ _
      · exact h.still

theorem handleAll (events : List Event) : (s.handleAll events).Twins (s'.handleAll events) := by
  induction events generalizing s s' with
  | nil => exact h.still
  | cons event rest ih => exact (h.handle event).andThen fun _ _ hs => ih hs

theorem listen (events : List Event) : (s.listen events).Twins (s'.listen events) := by
  have hpoll : ({ session := s, calls := [.poll] } : Turn).Twins
      { session := s', calls := [.poll] } := ⟨h, rfl, rfl, rfl⟩
  exact hpoll.andThen fun _ _ hs => hs.handleAll events

/-- Their machines run the same cycles, and only the buzzer tells the difference. -/
theorem advance : s.advance.Twins s'.advance := by
  unfold Session.advance
  rw [h.machine, h.cyclesPerFrame]
  dsimp only
  split
  · refine ⟨⟨h.devices, rfl, rfl, h.pictures⟩, ?_, rfl, rfl⟩
    rw [bare_setActive, bare_setActive]
  · refine ⟨⟨h.devices, rfl, rfl, h.pictures⟩, ?_, rfl, rfl⟩
    rw [bare_cons, bare_cons, bare_setActive, bare_setActive]

/-- They show the same pictures. -/
theorem refresh : s.refresh.Twins s'.refresh := by
  unfold Session.refresh
  rw [h.machine, h.pictures]
  split
  · exact ⟨⟨h.devices, h.cyclesPerFrame, rfl, rfl⟩, rfl, rfl, rfl⟩
  · rw [(h.devices.after s'.pictures).render_eq]
    exact ⟨⟨h.devices, h.cyclesPerFrame, rfl, rfl⟩, rfl, rfl, rfl⟩

theorem frame (events : List Event) : (s.frame events).Twins (s'.frame events) :=
  ((h.listen events).andThen fun _ _ hs => hs.advance).andThen fun _ _ hs => hs.refresh

theorem frames (script : List (List Event)) : (s.frames script).Twins (s'.frames script) := by
  induction script generalizing s s' with
  | nil => exact h.still
  | cons events rest ih => exact (h.frame events).andThen fun _ _ hs => ih hs

/-- Twins do the same up to every moment. -/
theorem upTo (t : Moment) : (s.upTo t).Twins (s'.upTo t) :=
  (h.frames t.past).andThen fun _ _ hs => hs.listen t.handled

/-- Twins play the same script in the same way. -/
theorem play (script : List (List Event)) : (s.play script).Twins (s'.play script) :=
  (h.frames script).andThen fun _ _ hs => hs.frame [.quit]

end Twins

end Session

/-! ## Runs -/

/-- Reports that differ at most in sound. -/
structure Report.Twins (report report' : Report) : Prop where
  result : report.result = report'.result
  calls : bare report.calls = bare report'.calls
  log : report.log = report'.log

theorem Turn.Twins.report {turn turn' : Turn} (h : turn.Twins turn') :
    turn.report.Twins turn'.report := by
  unfold Turn.report
  rw [h.ending, h.log]
  split
  · exact ⟨rfl, by rw [bare_append, bare_append, h.calls], rfl⟩
  · exact ⟨rfl, by rw [bare_append, bare_append, h.calls], rfl⟩
  · exact ⟨rfl, h.calls, rfl⟩
  · exact ⟨rfl, h.calls, rfl⟩

theorem Report.Twins.after {report report' : Report} (h : report.Twins report')
    {calls calls' : List Call} (hcalls : bare calls = bare calls') (log : List Machine.Record) :
    (report.after calls log).Twins (report'.after calls' log) := by
  refine ⟨h.result, ?_, congrArg (log ++ ·) h.log⟩
  rw [Report.after, Report.after, bare_append, bare_append, hcalls, h.calls]

section

variable {arguments arguments' : Arguments} {devices devices' : Devices}

theorem Arguments.SamePlay.settings (h : arguments.SamePlay arguments') :
    Session.settings arguments = Session.settings arguments' := by
  rw [Session.settings, Session.settings, h.cyclesPerFrame, h.seed]

/-- Runs that differ at most in presentation report the same, apart from sound. -/
theorem run_twins (h : arguments.SamePlay arguments') (hdevices : devices.SameSight devices')
    (rom : Except String Rom.Source) (supply : Random.Supply) (script : List (List Event)) :
    (run arguments rom devices supply script).Twins
      (run arguments' rom devices' supply script) := by
  unfold run
  rw [h.settings, h.rom]
  dsimp only
  split
  · exact ⟨rfl, rfl, rfl⟩
  · split
    · exact ⟨rfl, rfl, rfl⟩
    · rename_i source _ _
      have hstart := Session.start_twins h hdevices
        ((Machine.powerOn (Session.settings arguments') supply).loadRom source).machine
      generalize Session.start arguments devices _ = attempt at hstart ⊢
      generalize Session.start arguments' devices' _ = attempt' at hstart ⊢
      cases hstart with
      | error hcalls => exact ⟨rfl, by rw [bare_cons, bare_cons, hcalls], rfl⟩
      | ok hcalls hs =>
        exact (hs.play script).report.after (by rw [bare_cons, bare_cons, hcalls]) _

/-- They get to their first frame together, as twins. -/
theorem opened_twins (h : arguments.SamePlay arguments') (hdevices : devices.SameSight devices')
    {rom : Except String Rom.Source} {supply : Random.Supply} {first : Session}
    {opening : List Call} (hopen : opened arguments rom devices supply = some (first, opening)) :
    ∃ first' opening', opened arguments' rom devices' supply = some (first', opening') ∧
      first.Twins first' := by
  obtain ⟨source, rfl, hload, hstart, -⟩ := eq_of_opened hopen
  have htwins := Session.start_twins h hdevices
    ((Machine.powerOn (Session.settings arguments) supply).loadRom source).machine
  unfold opened
  rw [← h.settings]
  dsimp only
  rw [hload]
  dsimp only
  generalize Session.start arguments devices _ = attempt at hstart htwins
  generalize Session.start arguments' devices' _ = attempt' at htwins ⊢
  cases htwins with
  | error => cases hstart
  | ok hcalls hs =>
    obtain rfl := Except.ok.inj hstart
    exact ⟨_, _, rfl, hs⟩

/-- Runs of one program image with one script, whose arguments differ at most in the pace, the
size of the window and the wish for silence, and whose devices differ at most in sound: They end
in the same way, their machines note down the same, and they make the same calls apart from those
about sound and the size of the window, so they copy the same pictures in the same order. If one
gets to its first frame, so does the other, and at every moment from then on their machines are
the same. -/
theorem presentation_unseen (h : arguments.SamePlay arguments')
    (hdevices : devices.SameSight devices') (rom : Except String Rom.Source)
    (supply : Random.Supply) (script : List (List Event)) :
    let report := run arguments rom devices supply script
    let report' := run arguments' rom devices' supply script
    report.result = report'.result ∧ bare report.calls = bare report'.calls ∧
      report.log = report'.log ∧ copies report.calls = copies report'.calls ∧
      ∀ first opening, opened arguments rom devices supply = some (first, opening) →
        ∃ first' opening', opened arguments' rom devices' supply = some (first', opening') ∧
          ∀ t, (first.upTo t).session.machine = (first'.upTo t).session.machine ∧
            (first.upTo t).ending = (first'.upTo t).ending := by
  intro report report'
  have htwins : report.Twins report' := run_twins h hdevices rom supply script
  refine ⟨htwins.result, htwins.calls, htwins.log, ?_, ?_⟩
  · rw [← copies_bare, htwins.calls, copies_bare]
  · intro first opening hopen
    obtain ⟨first', opening', hopen', hs⟩ := opened_twins h hdevices hopen
    exact ⟨first', opening', hopen', fun t => ⟨(hs.upTo t).session.machine, (hs.upTo t).ending⟩⟩

end

/-- A run of a program that starts the sound timer and draws in one frame of three cycles, and
stops with a fault in the next. -/
def chimingRun (arguments : Arguments) (devices : Devices) : Report :=
  run arguments (.ok [.bytes [0x60, 0x05, 0xF0, 0x18, 0xD0, 0x01]]) devices Machine.idleSupply
    [[], []]

/-- A run with a buzzer. -/
def heardRun : Report :=
  chimingRun { rom := "a.ch8", cyclesPerFrame := 3, seed := some 0 } quietDevices

/-- Devices without sound, which would take samples at a rate of their own. -/
def soundlessDevices : Devices :=
  { quietDevices with
    failing := fun part => if part = .audio then some "no device" else none
    rate := some 8000
    samples := 512 }

/-- A slow run in a large window, without a sound device. -/
def unheardRun : Report :=
  chimingRun { rom := "a.ch8", cyclesPerFrame := 3, frameRate := 1, scale := 64, seed := some 0 }
    soundlessDevices

set_option maxRecDepth 100000 in
/-- One of these runs sounds and the other does not, and both copy one picture and end with the
same fault. -/
theorem presentation_unseen_of_failing_audio :
    heardRun.calls.length ≠ unheardRun.calls.length ∧ (copies heardRun.calls).length = 1 ∧
      copies heardRun.calls = copies unheardRun.calls ∧
      bare heardRun.calls = bare unheardRun.calls ∧ heardRun.result.isOk = false ∧
      heardRun.result = unheardRun.result := by
  have hsight : quietDevices.SameSight soundlessDevices :=
    ⟨fun part haudio _ => (if_neg haudio).symm, fun _ _ _ _ => rfl, rfl⟩
  obtain ⟨hlength, hcopies, herror⟩ : heardRun.calls.length ≠ unheardRun.calls.length ∧
      (copies heardRun.calls).length = 1 ∧ heardRun.result.isOk = false := by decide +kernel
  have hplay : Arguments.SamePlay { rom := "a.ch8", cyclesPerFrame := 3, seed := some 0 }
      { rom := "a.ch8", cyclesPerFrame := 3, frameRate := 1, scale := 64, seed := some 0 } :=
    ⟨rfl, rfl, rfl⟩
  obtain ⟨hresult, hcalls, -, hsame, -⟩ := presentation_unseen hplay hsight
    (.ok [.bytes [0x60, 0x05, 0xF0, 0x18, 0xD0, 0x01]]) Machine.idleSupply [[], []]
  exact ⟨hlength, hcopies, hsame, hcalls, herror, hresult⟩

end Chip8VM.Host
