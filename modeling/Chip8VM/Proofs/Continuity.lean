import Chip8VM.Proofs.Buzzing
import Mathlib.Logic.Function.Iterate

/-!
# The tone goes on

A wave has a phase, and every sample moves it on by one step. So samples that are pulled batch by
batch are those of one long batch, whatever the wave and however the batches are cut
(`Wave.pullAll_eq_pull`): sample `k` is the one in the phase `k` steps after the first
(`Wave.pull_eq`).

A buzzer pulls batches whenever its device starts, and keeps the phase while the device is silent.
`Plays` says that the samples of some calls are those of one wave, so many for each start. Every
switch of a buzzer plays (`Buzzer.plays_setActive`), what plays one after the other plays as a
whole (`Plays.append`), and so do all calls of a run: its samples are one pull of a single square
wave (`tone_goes_on`).
-/

namespace Chip8VM.Host

open Machine

/-! ## Waves -/

namespace Wave

variable {Phase : Type} (w : Wave Phase)

/-- The samples of a wave in a phase and those that follow it. -/
def samples (n : Nat) (phase : Phase) : List Sample :=
  (List.range n).map fun k => w.sample (w.advance^[k] phase)

theorem samples_succ (n : Nat) (phase : Phase) :
    w.samples (n + 1) phase = w.sample phase :: w.samples n (w.advance phase) := by
  rw [samples, List.range_succ_eq_map, List.map_cons, List.map_map]
  rfl

/-- A batch has a sample for every step, and leaves the phase after all of them. -/
theorem pull_eq (n : Nat) (phase : Phase) :
    w.pull n phase = (w.samples n phase, w.advance^[n] phase) := by
  induction n generalizing phase with
  | zero => rfl
  | succ n ih => rw [pull_succ, ih, samples_succ, Function.iterate_succ_apply]

/-- Batches one after the other are one batch as long as all of them. -/
theorem pullAll_eq_pull (lengths : List Nat) (phase : Phase) :
    w.pullAll lengths phase = w.pull lengths.sum phase := by
  induction lengths generalizing phase with
  | nil => rfl
  | cons n rest ih =>
    rw [pullAll, List.sum_cons, pull_add]
    dsimp only
    rw [ih]

end Wave

/-! ## Calls that play -/

/-- Whether a call starts the sound device. -/
def Call.isResume : Call → Bool
  | .resume => true
  | _ => false

/-- The samples that a call hands to the sound device. -/
def Call.handed : Call → List Sample
  | .samples batch => batch
  | _ => []

/-- Whether a call neither starts the sound device nor hands it samples. -/
def Call.Silent (call : Call) : Prop := call.isResume = false ∧ call.handed = []

/-- How often calls start the sound device. -/
def resumes (calls : List Call) : Nat := calls.countP Call.isResume

/-- The samples that calls hand to the sound device, in order. -/
def played (calls : List Call) : List Sample := calls.flatMap Call.handed

/-- Whether calls play a wave on from one phase to another, so many samples for each start. -/
def Plays (w : Wave Float32) (each : Nat) (before : Float32) (calls : List Call)
    (after : Float32) : Prop :=
  w.pull (resumes calls * each) before = (played calls, after)

namespace Plays

variable {w : Wave Float32} {each : Nat} {before between after : Float32}
  {calls more : List Call}

/-- Silent calls play nothing. -/
theorem of_silent (h : ∀ call ∈ calls, call.Silent) :
    Plays w each before calls before := by
  have hresumes : resumes calls = 0 :=
    List.countP_eq_zero.2 fun call hcall => by
      rw [(h call hcall).1]
      exact Bool.false_ne_true
  have hplayed : played calls = [] :=
    List.flatMap_eq_nil_iff.2 fun call hcall => (h call hcall).2
  rw [Plays, hresumes, hplayed, Nat.zero_mul]
  rfl

/-- A wave that is played on is played as a whole. -/
theorem append (h : Plays w each before calls between) (hmore : Plays w each between more after) :
    Plays w each before (calls ++ more) after := by
  unfold Plays at h hmore ⊢
  have hresumes : resumes (calls ++ more) = resumes calls + resumes more := List.countP_append
  have hplayed : played (calls ++ more) = played calls ++ played more := List.flatMap_append
  rw [hresumes, Nat.add_mul, Wave.pull_add, h, hmore, hplayed]

theorem append_silent (h : Plays w each before calls between)
    (hmore : ∀ call ∈ more, call.Silent) :
    Plays w each before (calls ++ more) between :=
  h.append (of_silent hmore)

/-- A start with a batch plays it; an empty batch is not handed out. -/
theorem of_batch {batch : List Sample} (h : w.pull each before = (batch, after)) :
    Plays w each before (if batch.isEmpty then [.resume] else [.resume, .samples batch])
      after := by
  split
  · rename_i hempty
    change w.pull (1 * each) before = ([], after)
    rw [Nat.one_mul, h, List.isEmpty_iff.1 hempty]
  · change w.pull (1 * each) before = (batch ++ [], after)
    rw [Nat.one_mul, h, List.append_nil]

end Plays

/-! ## The buzzer -/

namespace Buzzer

variable (devices : Devices) (b : Buzzer)

theorem rate_setActive (active : Bool) : (b.setActive devices active).1.rate = b.rate := by
  unfold setActive
  split
  · rfl
  · cases active with
    | true | false => rfl

/-- The two batches of a start are one. -/
theorem pull_eq_pull (count : Nat) : b.pull count = (Tone.square b.rate).pull count b.phase := by
  have hsum : [count / 2, count - count / 2].sum = count := by
    rw [List.sum_cons, List.sum_singleton]
    omega
  rw [pull, Wave.pullAll_eq_pull, hsum]

/-- A buzzer that starts plays its wave on, and keeps the phase in every other case. -/
theorem plays_setActive (active : Bool) :
    Plays (Tone.square b.rate) devices.samples b.phase (b.setActive devices active).2
      (b.setActive devices active).1.phase := by
  unfold setActive
  split
  · exact .of_silent nofun
  · cases active with
    | true => exact .of_batch (b.pull_eq_pull devices.samples).symm
    | false => exact .of_silent (List.forall_mem_singleton.2 ⟨rfl, rfl⟩)

/-- So it does however often it is switched. -/
theorem plays_setAll (actives : List Bool) :
    Plays (Tone.square b.rate) devices.samples b.phase (b.setAll devices actives).2
      (b.setAll devices actives).1.phase := by
  induction actives generalizing b with
  | nil => exact .of_silent nofun
  | cons active rest ih =>
    have hrest := ih (b.setActive devices active).1
    rw [rate_setActive] at hrest
    exact (b.plays_setActive devices active).append hrest

end Buzzer

/-! ## Runs -/

/-- Whether the next sample of a sound is that of this phase, at so many samples a second. -/
def Sound.At (rate : Int) (phase : Float32) : Sound → Prop
  | .muted => True
  | .buzzer b => b.rate = rate ∧ b.phase = phase

theorem Sound.At.setActive {rate : Int} {phase : Float32} {sound : Sound}
    (h : sound.At rate phase) (devices : Devices) (active : Bool) :
    ∃ after, Plays (Tone.square rate) devices.samples phase
        (sound.setActive devices active).2 after ∧
      (sound.setActive devices active).1.At rate after := by
  cases sound with
  | muted => exact ⟨phase, .of_silent nofun, trivial⟩
  | buzzer b =>
    obtain ⟨rfl, rfl⟩ := h
    exact ⟨_, b.plays_setActive devices active, b.rate_setActive devices active, rfl⟩

/-- The samples a second that a sound device takes. -/
def Devices.takes (devices : Devices) : Int := devices.rate.getD Tone.sampleRate

/-- Whether calls have played the wave from its beginning up to where the sound of a session
stands. -/
structure OnWave (devices : Devices) (s : Session) (calls : List Call) : Prop where
  devices_eq : s.devices = devices
  plays : ∃ phase, Plays (Tone.square devices.takes) devices.samples 0 calls phase ∧
    s.sound.At devices.takes phase

namespace OnWave

variable {devices : Devices} {s : Session} {calls more : List Call}

/-- Other calls do not matter while the sound stays as it is. -/
theorem append_silent (h : OnWave devices s calls) (machine : Machine) (pictures : Nat)
    (hmore : ∀ call ∈ more, call.Silent) :
    OnWave devices { s with machine := machine, pictures := pictures } (calls ++ more) := by
  obtain ⟨phase, hplays, hat⟩ := h.plays
  exact ⟨h.devices_eq, phase, hplays.append_silent hmore, hat⟩

theorem switch (h : OnWave devices s calls) (machine : Machine) (active : Bool) :
    OnWave devices
      { s with machine := machine, sound := (s.sound.setActive s.devices active).1 }
      (calls ++ (s.sound.setActive s.devices active).2) := by
  obtain ⟨rfl, phase, hplays, hat⟩ := h
  obtain ⟨after, hmore, hafter⟩ := hat.setActive s.devices active
  exact ⟨rfl, after, hplays.append hmore, hafter⟩

end OnWave

/-- Everything that a run does plays on. -/
theorem onWave_kept (devices : Devices) : Kept (OnWave devices) where
  poll {s calls} h := h.append_silent s.machine s.pictures (List.forall_mem_singleton.2 ⟨rfl, rfl⟩)
  handle event hm h := by
    obtain ⟨hsession, hcalls⟩ := Session.handle_frame hm event
    rw [hsession]
    refine h.append_silent _ _ fun call hcall => ?_
    rw [hcalls call hcall]
    exact ⟨rfl, rfl⟩
  advance {s calls} _ h := by
    obtain ⟨notes, active, hnotes, hsession, hcalls⟩ := s.advance_frame
    -- A note comes before the switch and plays nothing.
    have hnoted : OnWave devices s (calls ++ notes) := by
      refine h.append_silent s.machine s.pictures fun call hcall => ?_
      obtain ⟨pc, fault, rfl⟩ := hnotes call hcall
      exact ⟨rfl, rfl⟩
    rw [hsession, hcalls, ← List.append_assoc]
    exact hnoted.switch _ active
  refresh {s calls} h := by
    obtain ⟨pictures, hsession⟩ := s.refresh_frame
    rw [hsession]
    exact h.append_silent _ _ (Session.forall_calls_refresh (p := Call.Silent) ⟨rfl, rfl⟩
      (fun _ => ⟨rfl, rfl⟩) ⟨rfl, rfl⟩ s)

section

variable {arguments : Arguments} {rom : Except String Rom.Source} {devices : Devices}
  {supply : Random.Supply} {first : Session} {opening : List Call}

/-- Opening the devices plays nothing. -/
theorem silent_start (arguments : Arguments) (devices : Devices) (m : Machine) :
    ∀ call ∈ (Session.start arguments devices m).calls, call.Silent :=
  forall_calls_start (p := Call.Silent) (fun _ _ _ => ⟨rfl, rfl⟩) ⟨rfl, rfl⟩ ⟨rfl, rfl⟩ ⟨rfl, rfl⟩
    (fun _ => ⟨rfl, rfl⟩) (fun _ => ⟨rfl, rfl⟩) _ _ _

/-- A run begins with its wave. -/
theorem onWave_opened (h : opened arguments rom devices supply = some (first, opening)) :
    OnWave devices first opening := by
  have hat : first.sound.At devices.takes 0 := by
    rcases sound_opened h with hsound | hsound
    · rw [hsound]
      trivial
    · rw [hsound]
      exact ⟨rfl, rfl⟩
  obtain ⟨source, -, -, hstart, rfl⟩ := eq_of_opened h
  obtain ⟨sound, -, rfl⟩ := Session.start_eq hstart
  exact ⟨rfl, 0, .of_silent (List.forall_mem_cons.2 ⟨⟨rfl, rfl⟩, silent_start _ _ _⟩), hat⟩

/-- The calls of a whole run play its wave from the beginning. -/
theorem plays_run (arguments : Arguments) (rom : Except String Rom.Source) (devices : Devices)
    (supply : Random.Supply) (script : List (List Event)) :
    ∃ phase, Plays (Tone.square devices.takes) devices.samples 0
      (run arguments rom devices supply script).calls phase := by
  cases hopen : opened arguments rom devices supply with
  | none =>
    have hsilent := forall_calls_run_of_not_opened (p := Call.Silent) ⟨rfl, rfl⟩
      (silent_start arguments devices) hopen script
    exact ⟨0, .of_silent hsilent⟩
  | some begun =>
    have hrun := (onWave_kept devices).run
      (fun s calls hs =>
        hs.append_silent s.machine s.pictures (List.forall_mem_singleton.2 ⟨rfl, rfl⟩))
      hopen (onWave_opened hopen) script
    obtain ⟨phase, hplays, -⟩ := hrun.plays
    exact ⟨phase, hplays⟩

end

/-- Of every wave, with whatever samples and steps, batches of any lengths are one batch as long
as all of them: the same samples, sample `k` in the phase `k` steps on, and the same phase
afterwards. A square wave of any increment is such a wave. So a buzzer goes on where it stopped:
however often it is switched, what it has played since is one pull of its wave, and the whole run
plays one wave from its beginning. -/
theorem tone_goes_on :
    (∀ {Phase : Type} (w : Wave Phase) (lengths : List Nat) (phase : Phase),
      w.pullAll lengths phase = w.pull lengths.sum phase ∧
        w.pull lengths.sum phase =
          (w.samples lengths.sum phase, w.advance^[lengths.sum] phase)) ∧
    (∀ (devices : Devices) (b : Buzzer) (actives : List Bool),
      let (after, calls) := b.setAll devices actives
      (Tone.square b.rate).pull (resumes calls * devices.samples) b.phase =
        (played calls, after.phase)) ∧
    ∀ arguments rom devices supply script,
      let calls := (run arguments rom devices supply script).calls
      played calls =
        ((Tone.square devices.takes).pull (resumes calls * devices.samples) 0).1 := by
  refine ⟨fun w lengths phase => ⟨w.pullAll_eq_pull lengths phase, w.pull_eq _ phase⟩,
    fun devices b actives => b.plays_setAll devices actives, ?_⟩
  intro arguments rom devices supply script calls
  obtain ⟨phase, hplays⟩ := plays_run arguments rom devices supply script
  exact (congrArg Prod.fst hplays).symm

end Chip8VM.Host
