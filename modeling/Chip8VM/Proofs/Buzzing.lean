import Chip8VM.Proofs.Endings

/-!
# When the buzzer sounds

A buzzer notes whether it sounds, and tells the sound device only of changes
(`Buzzer.setActive`). What it notes is what the device does: the device plays exactly if the last
call that switched it was a start, and starts and stops alternate (`Tracks`). This is kept by
everything that a run does (`tracks_kept`). So once the cycles of a frame are over the device
plays exactly if the sound timer runs, and a fault leaves it silent
(`device_follows_sound_timer`).

A reset or a wait for a key switches nothing by itself: the device hears of it when the cycles of
the frame are over.
-/

namespace Chip8VM.Host

open Machine

/-! ## Switches -/

/-- What a call switches the sound device to. -/
def Call.switch? : Call → Option Bool
  | .resume => some true
  | .pause => some false
  | _ => none

/-- What calls switch the sound device to, one after the other. -/
def switches (calls : List Call) : List Bool := calls.filterMap Call.switch?

/-- Whether the sound device plays after some calls; at first it is silent. -/
def playing (calls : List Call) : Bool := (switches calls).getLastD false

/-- Whether starts and stops alternate, beginning with a start. -/
def Alternating (switches : List Bool) : Prop := (false :: switches).IsChain (· ≠ ·)

/-- Whether calls switch the sound device on and off by turns, and leave it like this. -/
structure Tracks (calls : List Call) (sounding : Bool) : Prop where
  alternating : Alternating (switches calls)
  playing : playing calls = sounding

theorem switches_append (calls more : List Call) :
    switches (calls ++ more) = switches calls ++ switches more :=
  List.filterMap_append

theorem switches_eq_nil {calls : List Call} (h : ∀ call ∈ calls, call.switch? = none) :
    switches calls = [] :=
  List.filterMap_eq_nil_iff.2 h

theorem tracks_nil : Tracks [] false := ⟨.singleton _, rfl⟩

/-- A switch to the contrary can follow. -/
theorem Alternating.concat {switches : List Bool} (h : Alternating switches) {active : Bool}
    (hne : active ≠ switches.getLastD false) : Alternating (switches ++ [active]) := by
  rw [Alternating, ← List.cons_append, List.isChain_append]
  refine ⟨h, .singleton _, ?_⟩
  intro last hlast next hnext
  rw [List.getLast?_cons, ← List.getLastD_eq_getLast?, Option.mem_some_iff] at hlast
  rw [List.head?_cons, Option.mem_some_iff] at hnext
  rw [← hlast, ← hnext]
  exact hne.symm

namespace Tracks

variable {calls more : List Call} {sounding : Bool}

/-- Other calls do not matter. -/
theorem append (h : Tracks calls sounding) (hmore : ∀ call ∈ more, call.switch? = none) :
    Tracks (calls ++ more) sounding := by
  have heq : switches (calls ++ more) = switches calls := by
    rw [switches_append, switches_eq_nil hmore, List.append_nil]
  exact ⟨heq ▸ h.alternating, by rw [Host.playing, heq]; exact h.playing⟩

theorem switch (h : Tracks calls sounding) {active : Bool} (hne : active ≠ sounding)
    (hmore : switches more = [active]) : Tracks (calls ++ more) active := by
  have hlast : (switches calls).getLastD false = sounding := h.playing
  refine ⟨?_, ?_⟩
  · rw [switches_append, hmore]
    exact h.alternating.concat (by rw [hlast]; exact hne)
  · rw [Host.playing, switches_append, hmore, List.getLastD_concat]

end Tracks

/-! ## The buzzer -/

namespace Buzzer

variable {devices : Devices} {b : Buzzer}

theorem sounding_setActive (active : Bool) : (b.setActive devices active).1.sounding = active := by
  unfold setActive
  split
  · rename_i hsame
    exact hsame.symm
  · cases active with
    | true | false => rfl

/-- A buzzer switches the device if it is to do something else than it does. -/
theorem switches_setActive (active : Bool) :
    switches (b.setActive devices active).2 = if active = b.sounding then [] else [active] := by
  unfold setActive
  split
  · rfl
  · cases active with
    | true =>
      dsimp only
      split
      · split
        · rfl
        · rfl
      · contradiction
    | false => rfl

/-- What a buzzer notes stays what the device does. -/
theorem tracks_setActive {calls : List Call} (h : Tracks calls b.sounding) (active : Bool) :
    Tracks (calls ++ (b.setActive devices active).2) (b.setActive devices active).1.sounding := by
  have hswitches : switches (b.setActive devices active).2 = _ := switches_setActive active
  rw [sounding_setActive]
  split at hswitches
  · rename_i hsame
    rw [hsame] at hswitches ⊢
    exact h.append (List.filterMap_eq_nil_iff.1 hswitches)
  · rename_i hne
    exact h.switch hne hswitches

/-- Switches a buzzer as often as this list says, and tells the calls that it takes. -/
def setAll (devices : Devices) : Buzzer → List Bool → Buzzer × List Call
  | b, [] => (b, [])
  | b, active :: rest =>
    let (b, calls) := b.setActive devices active
    let (b, more) := b.setAll devices rest
    (b, calls ++ more)

theorem setAll_cons (active : Bool) (rest : List Bool) :
    b.setAll devices (active :: rest) =
      (((b.setActive devices active).1.setAll devices rest).1,
        (b.setActive devices active).2 ++
          ((b.setActive devices active).1.setAll devices rest).2) := rfl

theorem sounding_setAll (actives : List Bool) :
    (b.setAll devices actives).1.sounding = actives.getLastD b.sounding := by
  induction actives generalizing b with
  | nil => rfl
  | cons active rest ih => rw [setAll_cons, ih, sounding_setActive, List.getLastD_cons]

theorem tracks_setAll {calls : List Call} (h : Tracks calls b.sounding) (actives : List Bool) :
    Tracks (calls ++ (b.setAll devices actives).2) (b.setAll devices actives).1.sounding := by
  induction actives generalizing b calls with
  | nil =>
    rw [setAll, List.append_nil]
    exact h
  | cons active rest ih =>
    rw [setAll_cons, ← List.append_assoc]
    exact ih (tracks_setActive h active)

/-- How often the entries of a list change, from this one on. -/
def changes (start : Bool) (actives : List Bool) : Nat :=
  ((start :: actives).zip actives).countP fun (before, now) => before ≠ now

/-- The device is switched once for each change. -/
theorem length_switches_setAll (actives : List Bool) :
    (switches (b.setAll devices actives).2).length = changes b.sounding actives := by
  induction actives generalizing b with
  | nil => rfl
  | cons active rest ih =>
    rw [setAll_cons, switches_append, List.length_append, switches_setActive, ih,
      sounding_setActive, changes, changes, List.zip_cons_cons, List.countP_cons, Nat.add_comm]
    congr 1
    by_cases h : active = b.sounding
    · rw [if_pos h, if_neg (by simpa using h.symm)]
      rfl
    · rw [if_neg h, if_pos (by simpa using Ne.symm h)]
      rfl

end Buzzer

/-! ## The sound of a run -/

/-- Whether a sound sounds. -/
def Sound.sounding : Sound → Bool
  | .muted => false
  | .buzzer b => b.sounding

/-- A buzzer is opened in silence, at the beginning of its wave. -/
theorem Buzzer.create_eq {devices : Devices} {b : Buzzer}
    (h : (Buzzer.create devices).result = .ok b) :
    b = ⟨devices.rate.getD Tone.sampleRate, 0, false⟩ := by
  unfold Buzzer.create at h
  obtain ⟨-, -, h⟩ := Attempt.eq_of_bind h
  obtain ⟨-, -, h⟩ := Attempt.eq_of_bind h
  obtain ⟨-, -, h⟩ := Attempt.eq_of_bind h
  exact (Except.ok.inj h).symm

theorem Buzzer.sounding_create {devices : Devices} {b : Buzzer}
    (h : (Buzzer.create devices).result = .ok b) : b.sounding = false := by
  rw [Buzzer.create_eq h]

/-- A buzzer can be opened if neither sound nor its device fails. -/
theorem Buzzer.exists_create {devices : Devices} (haudio : devices.failing .audio = none)
    (hplayback : devices.failing .playback = none) :
    ∃ b, (Buzzer.create devices).result = .ok b := by
  unfold Buzzer.create Attempt.need
  rw [haudio, hplayback]
  exact ⟨_, rfl⟩

/-- A sound is a buzzer if one can be opened. -/
theorem Sound.result_create (devices : Devices) :
    (Sound.create devices).result =
      match (Buzzer.create devices).result with
      | .ok b => .ok (.buzzer b)
      | .error _ => .ok .muted := by
  unfold Sound.create
  rcases Buzzer.create devices with ⟨calls, reason | b⟩
  · rfl
  · rfl

theorem Sound.tracks_setActive {calls : List Call} {sound : Sound} (devices : Devices)
    (h : Tracks calls sound.sounding) (active : Bool) :
    Tracks (calls ++ (sound.setActive devices active).2)
      (sound.setActive devices active).1.sounding := by
  cases sound with
  | muted =>
    rw [Sound.setActive, List.append_nil]
    exact h
  | buzzer b => exact Buzzer.tracks_setActive h active

theorem Sound.sounding_setActive_false (devices : Devices) (sound : Sound) :
    (sound.setActive devices false).1.sounding = false := by
  cases sound with
  | muted => rfl
  | buzzer b => exact Buzzer.sounding_setActive false

/-- Throughout a run the sound device does what is noted. -/
theorem tracks_kept : Kept fun s calls => Tracks calls s.sound.sounding where
  poll h := h.append (List.forall_mem_singleton.2 rfl)
  handle event hm h := by
    obtain ⟨hsession, hcalls⟩ := Session.handle_frame hm event
    rw [hsession]
    refine h.append ?_
    intro call hcall
    rw [hcalls call hcall]
    rfl
  advance {s calls} _ h := by
    obtain ⟨notes, active, hnotes, hsession, hcalls⟩ := s.advance_frame
    -- A note comes before the switch and does not switch anything.
    have hnoted : Tracks (calls ++ notes) s.sound.sounding := by
      refine h.append fun call hcall => ?_
      obtain ⟨pc, fault, rfl⟩ := hnotes call hcall
      rfl
    rw [hsession, hcalls, ← List.append_assoc]
    exact Sound.tracks_setActive s.devices hnoted active
  refresh {s calls} h := by
    obtain ⟨pictures, hsession⟩ := s.refresh_frame
    rw [hsession]
    exact h.append (Session.forall_calls_refresh (p := fun call => call.switch? = none) rfl
      (fun _ => rfl) rfl s)

/-- A run keeps its buzzer. -/
theorem buzzer_kept : Kept fun s _ => ∃ b, s.sound = .buzzer b where
  poll h := h
  handle event hm h := by
    rw [(Session.handle_frame hm event).1]
    exact h
  advance {s calls} _ h := by
    obtain ⟨b, hb⟩ := h
    obtain ⟨notes, active, -, hsession, -⟩ := s.advance_frame
    rw [hsession, hb]
    exact ⟨_, rfl⟩
  refresh {s calls} h := by
    obtain ⟨pictures, hsession⟩ := s.refresh_frame
    rw [hsession]
    exact h

namespace Session

variable {s : Session}

/-- After the cycles of a frame a buzzer sounds if the sound timer runs. -/
theorem sounding_advance {b : Buzzer} (hb : s.sound = .buzzer b) (h : s.advance.ending = none) :
    s.advance.session.sound.sounding = (s.machine.after s.cyclesPerFrame.toNat).soundActive := by
  rw [ending_advance] at h
  unfold advance
  rw [hb]
  dsimp only
  cases hrun : (s.machine.run s.cyclesPerFrame.toNat).result with
  | ok done =>
    dsimp only
    rw [(run_of_ok hrun).2]
    exact Buzzer.sounding_setActive _
  | error fault =>
    rw [hrun] at h
    cases h

/-- After a fault nothing sounds. -/
theorem sounding_advance_of_fault {fault : Fault} (h : s.advance.ending = some (.fault fault)) :
    s.advance.session.sound.sounding = false := by
  rw [ending_advance] at h
  unfold advance
  dsimp only
  cases hrun : (s.machine.run s.cyclesPerFrame.toNat).result with
  | ok done =>
    rw [hrun] at h
    cases h
  | error fault => exact Sound.sounding_setActive_false _ _

end Session

/-! ## Runs -/

section

variable {arguments : Arguments} {rom : Except String Rom.Source} {devices : Devices}
  {supply : Random.Supply} {first : Session} {opening : List Call}

/-- Opening the devices does not switch the sound. -/
theorem switch?_start (arguments : Arguments) (devices : Devices) (m : Machine) :
    ∀ call ∈ (Session.start arguments devices m).calls, call.switch? = none :=
  forall_calls_start (p := fun call => call.switch? = none) (fun _ _ _ => rfl) rfl rfl rfl
    (fun _ => rfl) (fun _ => rfl) _ _ _

/-- A run begins without sound, or with a buzzer that has not sounded yet. -/
theorem sound_opened (h : opened arguments rom devices supply = some (first, opening)) :
    first.sound = .muted ∨
      first.sound = .buzzer ⟨devices.rate.getD Tone.sampleRate, 0, false⟩ := by
  obtain ⟨source, -, -, hstart, -⟩ := eq_of_opened h
  obtain ⟨sound, hsound, rfl⟩ := Session.start_eq hstart
  cases hmute : arguments.mute with
  | true =>
    rw [hmute] at hsound
    exact Or.inl (Except.ok.inj hsound).symm
  | false =>
    rw [hmute, if_neg Bool.false_ne_true, Sound.result_create] at hsound
    cases hcreate : (Buzzer.create devices).result with
    | ok b =>
      rw [hcreate] at hsound
      rw [← Buzzer.create_eq hcreate]
      exact Or.inr (Except.ok.inj hsound).symm
    | error reason =>
      rw [hcreate] at hsound
      exact Or.inl (Except.ok.inj hsound).symm

/-- A run begins in silence. -/
theorem tracks_opened (h : opened arguments rom devices supply = some (first, opening)) :
    Tracks opening first.sound.sounding := by
  have hsilent : first.sound.sounding = false := by
    rcases sound_opened h with hsound | hsound
    · rw [hsound]
      rfl
    · rw [hsound]
      rfl
  obtain ⟨source, -, -, -, rfl⟩ := eq_of_opened h
  rw [hsilent]
  exact tracks_nil.append (List.forall_mem_cons.2 ⟨rfl, switch?_start _ _ _⟩)

/-- It has a buzzer if it is to have sound and there is some. -/
theorem buzzer_opened (h : opened arguments rom devices supply = some (first, opening))
    (hmute : arguments.mute = false) (haudio : devices.failing .audio = none)
    (hplayback : devices.failing .playback = none) : ∃ b, first.sound = .buzzer b := by
  obtain ⟨source, -, -, hstart, -⟩ := eq_of_opened h
  obtain ⟨sound, hsound, rfl⟩ := Session.start_eq hstart
  obtain ⟨b, hcreate⟩ := Buzzer.exists_create haudio hplayback
  rw [hmute, if_neg Bool.false_ne_true, Sound.result_create, hcreate] at hsound
  exact ⟨b, (Except.ok.inj hsound).symm⟩

/-- The calls of a whole run switch the sound device as those of its frames do. -/
theorem tracks_run (h : opened arguments rom devices supply = some (first, opening))
    (script : List (List Event)) :
    Tracks (run arguments rom devices supply script).calls
      (first.play script).session.sound.sounding :=
  tracks_kept.run (fun _ _ hs => hs.append (List.forall_mem_singleton.2 rfl)) h (tracks_opened h)
    script

/-- A run that does not get to its first frame switches nothing. -/
theorem switches_run_of_not_opened (h : opened arguments rom devices supply = none)
    (script : List (List Event)) :
    switches (run arguments rom devices supply script).calls = [] :=
  switches_eq_nil (forall_calls_run_of_not_opened (p := fun call => call.switch? = none) rfl
    (switch?_start _ _) h script)

/-- Once the cycles of a frame have been carried out, the sound device plays exactly if the sound
timer runs. -/
theorem playing_after_cycles (h : opened arguments rom devices supply = some (first, opening))
    (hbuzzer : ∃ b, first.sound = .buzzer b) {t : Moment}
    (hadvance : (first.upTo t).session.advance.ending = none) :
    let s := (first.upTo t).session
    playing (opening ++ ((first.upTo t).calls ++ s.advance.calls)) = true ↔
      (s.machine.after s.cyclesPerFrame.toNat).guest.processor.sound ≠ 0 := by
  intro s
  have hm := reachable_opened h
  obtain ⟨hs, htracks⟩ := tracks_kept.upTo ⟨hm, tracks_opened h⟩ t
  have hkeeps : (first.upTo t).Gives [] _ := buzzer_kept.upTo ⟨hm, hbuzzer⟩ t
  obtain ⟨-, b, hb⟩ := hkeeps
  have hafter := (tracks_kept.advance hs htracks).playing
  rw [List.append_assoc, Session.sounding_advance hb hadvance] at hafter
  rw [hafter, soundActive, decide_eq_true_iff, UInt8.pos_iff_ne_zero]

/-- After a fault the sound device is silent. -/
theorem playing_of_fault {fault : Fault} {script : List (List Event)}
    (h : (run arguments rom devices supply script).result = .error (.fault fault)) :
    playing (run arguments rom devices supply script).calls = false := by
  cases hopen : opened arguments rom devices supply with
  | none =>
    rw [playing, switches_run_of_not_opened hopen]
    rfl
  | some begun =>
    obtain ⟨first, opening⟩ := begun
    have hm := reachable_opened hopen
    obtain ⟨t, hat⟩ := (result_run_iff hopen script (.fault fault)).1 h
    obtain ⟨hplay, hending⟩ := Session.play_of_faultsAt hm hat
    obtain ⟨later, -, hbefore, -⟩ := hat
    have hplaying := (tracks_run hopen script).playing
    rw [hplay, Turn.session_andThen ((Session.going_iff_undisturbed hm t).2 hbefore),
      Session.sounding_advance_of_fault hending] at hplaying
    exact hplaying

/-- The calls up to the end of the cycles come first among those of a whole run. -/
theorem calls_run_of_cycles (h : opened arguments rom devices supply = some (first, opening))
    {t : Moment} (hgoing : (first.upTo t).ending = none) {script later : List (List Event)}
    (hwithin : t.Within script [] later) :
    ∃ more, (run arguments rom devices supply script).calls =
      opening ++ ((first.upTo t).calls ++ (first.upTo t).session.advance.calls) ++ more := by
  obtain ⟨shown, hshown⟩ := Turn.calls_andThen (first.upTo t).session.advance Session.refresh
  obtain ⟨next, hnext⟩ := Turn.calls_andThen
    ((first.upTo t).session.advance.andThen Session.refresh) fun s => s.frames later
  obtain ⟨last, hlast⟩ := calls_report (first.play script)
  refine ⟨shown ++ (next ++ last), ?_⟩
  rw [run_calls_of_opened h, hlast, first.play_of_upTo hwithin, Turn.andThen_of_none hgoing,
    Session.goOn_nil]
  simp only [hnext, hshown, List.append_assoc]

/-- In every run the calls that start and stop the sound alternate, and the first is a start. If
there is to be sound and there is a sound device, the device plays after each completed round of
cycles exactly if the sound timer runs then. A run that ends with a fault leaves it silent. A
buzzer alone does the same, whatever it is told time after time: starts and stops alternate, it
plays exactly if it was last told to, and there is one call for each change. -/
theorem device_follows_sound_timer (arguments : Arguments) (rom : Except String Rom.Source)
    (devices : Devices) (supply : Random.Supply) :
    (∀ script, Alternating (switches (run arguments rom devices supply script).calls)) ∧
    (arguments.mute = false → devices.failing .audio = none →
      devices.failing .playback = none →
      ∀ first opening, opened arguments rom devices supply = some (first, opening) →
      ∀ t, (first.upTo t).ending = none →
        let s := (first.upTo t).session
        let calls := opening ++ ((first.upTo t).calls ++ s.advance.calls)
        s.advance.ending = none →
          (playing calls = true ↔
            (s.machine.after s.cyclesPerFrame.toNat).guest.processor.sound ≠ 0) ∧
          ∀ script later, t.Within script [] later →
            ∃ more, (run arguments rom devices supply script).calls = calls ++ more) ∧
    (∀ script fault,
      (run arguments rom devices supply script).result = .error (.fault fault) →
        playing (run arguments rom devices supply script).calls = false) ∧
    ∀ b, (Buzzer.create devices).result = .ok b → ∀ actives,
      let calls := (b.setAll devices actives).2
      Alternating (switches calls) ∧ playing calls = actives.getLastD false ∧
        (switches calls).length = Buzzer.changes false actives := by
  refine ⟨?_, ?_, fun script fault => playing_of_fault, ?_⟩
  · intro script
    cases hopen : opened arguments rom devices supply with
    | none =>
      rw [switches_run_of_not_opened hopen]
      exact tracks_nil.alternating
    | some begun => exact (tracks_run hopen script).alternating
  · intro hmute haudio hplayback first opening hopen t hgoing s calls hadvance
    refine ⟨playing_after_cycles hopen (buzzer_opened hopen hmute haudio hplayback) hadvance, ?_⟩
    intro script later hwithin
    exact calls_run_of_cycles hopen hgoing hwithin
  · intro b hcreate actives
    have hsilent := Buzzer.sounding_create hcreate
    have htracks : Tracks ([] ++ (b.setAll devices actives).2) _ :=
      Buzzer.tracks_setAll (hsilent.symm ▸ tracks_nil) actives
    rw [List.nil_append, Buzzer.sounding_setAll, hsilent] at htracks
    exact ⟨htracks.alternating, htracks.playing, by rw [Buzzer.length_switches_setAll, hsilent]⟩

end

/-- A program that starts the sound timer with two instructions, and has no third. -/
def ringingProgram : List UInt8 := [0x60, 0x05, 0xF0, 0x18]

/-- How a run of this program is started that has two cycles in a frame. -/
def ringingArguments : Arguments := { rom := "a.ch8", cyclesPerFrame := 2, seed := some 0 }

set_option maxRecDepth 100000 in
/-- The device plays after the first frame. The second ends the run with a fault, and then the
device is silent, though the timer still runs. -/
theorem device_follows_sound_timer_of_ringing :
    ∃ first opening, opened ringingArguments (.ok [.bytes ringingProgram]) quietDevices
        idleSupply = some (first, opening) ∧
      playing (opening ++ ((first.upTo ⟨[], []⟩).calls ++
        (first.upTo ⟨[], []⟩).session.advance.calls)) = true ∧
      (first.play [[], []]).session.machine.guest.processor.sound ≠ 0 ∧
      playing (run ringingArguments (.ok [.bytes ringingProgram]) quietDevices idleSupply
        [[], []]).calls = false ∧
      (switches ((⟨Tone.sampleRate, 0, false⟩ : Buzzer).setAll quietDevices
        [true, true, false]).2).length = 2 := by
  obtain ⟨⟨first, opening⟩, hopen⟩ := Option.isSome_iff_exists.1
    (show (opened ringingArguments (.ok [.bytes ringingProgram]) quietDevices
      idleSupply).isSome = true by decide +kernel)
  have hfacts : (opened ringingArguments (.ok [.bytes ringingProgram]) quietDevices
      idleSupply).map (fun (first, _) =>
        let s := (first.upTo ⟨[], []⟩).session
        (s.advance.ending.isNone,
          decide ((s.machine.after s.cyclesPerFrame.toNat).guest.processor.sound ≠ 0),
          decide ((first.play [[], []]).session.machine.guest.processor.sound ≠ 0))) =
      some (true, true, true) := by decide +kernel
  rw [hopen, Option.map_some, Option.some.injEq, Prod.mk.injEq, Prod.mk.injEq,
    Option.isNone_iff_eq_none, decide_eq_true_iff, decide_eq_true_iff] at hfacts
  obtain ⟨hadvance, hsound, hstill⟩ := hfacts
  obtain ⟨-, hframes, hfault, hbuzzer⟩ := device_follows_sound_timer ringingArguments
    (.ok [.bytes ringingProgram]) quietDevices idleSupply
  have hplaying := (hframes rfl rfl rfl first opening hopen ⟨[], []⟩ rfl hadvance).1.2 hsound
  have hends : (run ringingArguments (.ok [.bytes ringingProgram]) quietDevices idleSupply
      [[], []]).failure? = some (.fault (.unknownOpcode 0)) := by decide +kernel
  exact ⟨first, opening, hopen, hplaying, hstill,
    hfault _ _ (Report.failure?_eq_some_iff.1 hends),
    (hbuzzer ⟨Tone.sampleRate, 0, false⟩ rfl [true, true, false]).2.2⟩

end Chip8VM.Host
