import Chip8VM.Proofs.Moments

/-!
# What ends a run

Three things end a run: an event that closes it (`Event.quits`), a cycle that faults
(`Session.CyclesFault`), and a picture that fails (`Session.PictureFails`). Devices may fail at any
picture, and a session counts the pictures of its run (`pictures_kept`), so that each is shown by
the devices as they are then.

`Session.Undisturbed` says that none of these things has happened before a moment, of whole
scripts and without a look at how a run goes on. A run comes to a moment exactly if this is so
(`going_iff_undisturbed`): one event and one frame keep it (`undisturbed_hear_iff`,
`undisturbed_turn_iff`), and the rest is induction over the moments before. The last frame of a
run has an event that closes it, so something ends every run (`exists_ends`), and the run ends with
the first thing that does (`ending_play_iff`).
-/

namespace Chip8VM.Host

open Machine

/-! ## What does not change -/

/-- A run keeps its devices and the number of cycles in a frame. -/
theorem fittings_kept (devices : Devices) (cyclesPerFrame : UInt32) :
    Kept fun s _ => s.devices = devices ∧ s.cyclesPerFrame = cyclesPerFrame where
  poll h := h
  handle event hm h := by
    rw [(Session.handle_frame hm event).1]
    exact h
  advance {s calls} _ h := by
    obtain ⟨notes, active, -, hsession, -⟩ := s.advance_frame
    rw [hsession]
    exact h
  refresh {s calls} h := by
    obtain ⟨pictures, hsession⟩ := s.refresh_frame
    rw [hsession]
    exact h

theorem fittings_upTo {s : Session} (hm : Reachable s.machine) (t : Moment) :
    (s.upTo t).session.devices = s.devices ∧
      (s.upTo t).session.cyclesPerFrame = s.cyclesPerFrame := by
  have hupTo : (s.upTo t).Gives [] _ :=
    (fittings_kept s.devices s.cyclesPerFrame).upTo ⟨hm, rfl, rfl⟩ t
  exact hupTo.2

/-- Whether a call makes the texture of a picture. -/
def Call.isTexture : Call → Bool
  | .texture => true
  | _ => false

/-- Whether or not a picture fails, it begins with a texture, and makes only one. -/
theorem countP_isTexture_render (devices : Devices) (frame : Frame) :
    (Window.render devices frame).calls.countP Call.isTexture = 1 := by
  unfold Window.render
  simp only [bind, Attempt.andThen, Attempt.call, Attempt.need]
  cases devices.failing .texture with
  | some reason => rfl
  | none =>
    cases devices.failing .lock with
    | some reason => rfl
    | none =>
      cases devices.failing .copy with
      | some reason => rfl
      | none => rfl

/-- A session counts the pictures of its run. -/
theorem pictures_kept (before : Nat) :
    Kept fun s calls => s.pictures = before + calls.countP Call.isTexture where
  poll h := by
    rw [List.countP_append]
    exact h
  handle {s calls} event hm h := by
    obtain ⟨hsession, hcalls⟩ := Session.handle_frame hm event
    have hnone : (s.handle event).calls.countP Call.isTexture = 0 :=
      List.countP_eq_zero.2 fun call hcall => by rw [hcalls call hcall]; exact Bool.false_ne_true
    rw [hsession, List.countP_append, hnone]
    exact h
  advance {s calls} _ h := by
    obtain ⟨notes, active, -, hsession, -⟩ := s.advance_frame
    have hplain := Session.forall_calls_advance (p := fun call => call.isTexture = false)
      (fun _ _ => rfl) rfl (fun _ => rfl) rfl s
    have hnone : s.advance.calls.countP Call.isTexture = 0 :=
      List.countP_eq_zero.2 fun call hcall => Bool.eq_false_iff.1 (hplain call hcall)
    rw [hsession, List.countP_append, hnone]
    exact h
  refresh {s calls} h := by
    unfold Session.refresh
    split
    · rw [List.append_nil]
      exact h
    · rw [List.countP_append, countP_isTexture_render, ← Nat.add_assoc, ← h]

/-! ## Endings of steps -/

namespace Session

variable {s : Session}

theorem handle_of_quits (hm : Reachable s.machine) {event : Event} (h : event.quits = true) :
    s.handle event = { session := s, ending := some .quit } := by
  have hhandled := handled hm event
  generalize s.handle event = turn at hhandled ⊢
  cases hhandled with
  | quit => rfl
  | reset hnot | moved hnot | answered hnot | ignored hnot =>
    rw [h] at hnot
    cases hnot

/-- The cycles of a frame end a run with their first fault. -/
theorem ending_advance (s : Session) :
    s.advance.ending =
      match (s.machine.run s.cyclesPerFrame.toNat).result with
      | .ok () => none
      | .error fault => some (.fault fault) := by
  unfold advance
  dsimp only
  cases (s.machine.run s.cyclesPerFrame.toNat).result with
  | ok done => rfl
  | error fault => rfl

/-- A picture ends a run if it fails. -/
theorem ending_refresh (s : Session) :
    s.refresh.ending =
      match s.machine.takeFrame.1 with
      | none => none
      | some frame =>
        match (Window.render (s.devices.after s.pictures) frame).result with
        | .ok () => none
        | .error reason => some (.device reason) := by
  unfold refresh
  rcases s.machine.takeFrame with ⟨none | frame, m⟩
  · rfl
  · rfl

/-- What follows the last event of a frame. -/
theorem goOn_nil (s : Session) (later : List (List Event)) :
    s.goOn [] later = (s.advance.andThen refresh).andThen fun s => s.frames later := by
  rw [goOn, handleAll, Turn.andThen_of_none (rfl : ({ session := s } : Turn).ending = none)]
  simp only [List.nil_append]

/-! ## What ends a run -/

/-- Whether one of the cycles that start at a moment faults, and the first that does has this
fault. -/
def CyclesFault (s : Session) (t : Moment) (fault : Fault) : Prop :=
  ∃ k < s.cyclesPerFrame.toNat,
    (∀ j < k, ((s.upTo t).session.machine.after j).cycle.result = .ok ()) ∧
    ((s.upTo t).session.machine.after k).cycle.result = .error fault

/-- The pictures that were to be shown before a moment, each of which began with a texture. -/
def picturesBefore (s : Session) (t : Moment) : Nat :=
  s.pictures + (s.upTo t).calls.countP Call.isTexture

/-- Whether all cycles that start at a moment are carried out, and the picture that is due then
fails for this reason. -/
def PictureFails (s : Session) (t : Moment) (reason : String) : Prop :=
  (∀ j < s.cyclesPerFrame.toNat, ((s.upTo t).session.machine.after j).cycle.result = .ok ()) ∧
    ∃ frame,
      ((s.upTo t).session.machine.after s.cyclesPerFrame.toNat).takeFrame.1 = some frame ∧
      (Window.render (s.devices.after (s.picturesBefore t)) frame).result = .error reason

theorem pictures_upTo (hm : Reachable s.machine) (t : Moment) :
    (s.upTo t).session.pictures = s.picturesBefore t := by
  have hupTo : (s.upTo t).Gives [] _ := (pictures_kept s.pictures).upTo ⟨hm, rfl⟩ t
  exact hupTo.2

/-- What the cycles that start at a moment and the picture after them come to. -/
theorem ending_rest (hm : Reachable s.machine) (t : Moment) :
    ((s.upTo t).session.advance.andThen refresh).ending =
      match ((s.upTo t).session.machine.run s.cyclesPerFrame.toNat).result with
      | .error fault => some (.fault fault)
      | .ok () =>
        match ((s.upTo t).session.machine.run s.cyclesPerFrame.toNat).machine.takeFrame.1 with
        | none => none
        | some frame =>
          match (Window.render (s.devices.after (s.picturesBefore t)) frame).result with
          | .ok () => none
          | .error reason => some (.device reason) := by
  obtain ⟨hdevices, hcycles⟩ := fittings_upTo hm t
  obtain ⟨notes, active, -, hsession, -⟩ := (s.upTo t).session.advance_frame
  rw [Turn.ending_andThen, ending_advance, ending_refresh, hsession, hdevices, hcycles,
    pictures_upTo hm]
  cases ((s.upTo t).session.machine.run s.cyclesPerFrame.toNat).result with
  | error fault => rfl
  | ok done => rfl

theorem ending_rest_eq_fault_iff (hm : Reachable s.machine) {t : Moment} {fault : Fault} :
    ((s.upTo t).session.advance.andThen refresh).ending = some (.fault fault) ↔
      s.CyclesFault t fault := by
  rw [ending_rest hm, CyclesFault, ← result_run_error_iff]
  cases ((s.upTo t).session.machine.run s.cyclesPerFrame.toNat).result with
  | error fault' => simp
  | ok done =>
    refine iff_of_false ?_ nofun
    dsimp only
    split
    · nofun
    · split
      · nofun
      · nofun

theorem ending_rest_eq_device_iff (hm : Reachable s.machine) {t : Moment} {reason : String} :
    ((s.upTo t).session.advance.andThen refresh).ending = some (.device reason) ↔
      s.PictureFails t reason := by
  rw [ending_rest hm, PictureFails, ← result_run_ok_iff]
  cases hrun : ((s.upTo t).session.machine.run s.cyclesPerFrame.toNat).result with
  | error fault => exact iff_of_false nofun nofun
  | ok done =>
    rw [← (run_of_ok hrun).2, and_iff_right rfl]
    cases ((s.upTo t).session.machine.run s.cyclesPerFrame.toNat).machine.takeFrame.1 with
    | none => exact iff_of_false nofun nofun
    | some frame =>
      simp only [Option.some.injEq, exists_eq_left']
      cases (Window.render (s.devices.after (s.picturesBefore t)) frame).result with
      | ok done => exact iff_of_false nofun nofun
      | error reason' => simp

theorem ending_rest_ne_quit (hm : Reachable s.machine) (t : Moment) :
    ((s.upTo t).session.advance.andThen refresh).ending ≠ some .quit := by
  rw [ending_rest hm]
  split
  · nofun
  · split
    · nofun
    · split
      · nofun
      · nofun

/-- A frame goes by if no cycle faults and no picture fails. -/
theorem ending_rest_eq_none_iff (hm : Reachable s.machine) {t : Moment} :
    ((s.upTo t).session.advance.andThen refresh).ending = none ↔
      (∀ fault, ¬s.CyclesFault t fault) ∧ ∀ reason, ¬s.PictureFails t reason := by
  rw [Option.eq_none_iff_forall_ne_some]
  constructor
  · intro h
    exact ⟨fun fault hfault => h _ ((ending_rest_eq_fault_iff hm).2 hfault),
      fun reason hfails => h _ ((ending_rest_eq_device_iff hm).2 hfails)⟩
  · rintro ⟨hcycles, hpicture⟩ ending hending
    cases ending with
    | quit => exact ending_rest_ne_quit hm t hending
    | fault fault => exact hcycles fault ((ending_rest_eq_fault_iff hm).1 hending)
    | device reason => exact hpicture reason ((ending_rest_eq_device_iff hm).1 hending)

end Session

/-- Whether the cycles that start at one moment are over at another. -/
def Moment.Precedes (t' t : Moment) : Prop := ∃ later, t.past = t'.past ++ t'.handled :: later

theorem Moment.precedes_turn_iff {t' t : Moment} :
    t'.Precedes t.turn ↔ t'.Precedes t ∨ t' = t := by
  obtain ⟨past', handled'⟩ := t'
  obtain ⟨past, handled⟩ := t
  constructor
  · rintro ⟨later, hpast⟩
    rcases List.eq_nil_or_concat later with rfl | ⟨later, last, rfl⟩
    · obtain ⟨rfl, hhandled⟩ := List.append_inj' (hpast : past ++ [handled] = _) rfl
      obtain rfl := List.singleton_inj.1 hhandled
      exact Or.inr rfl
    · have hsplit : past ++ [handled] = (past' ++ handled' :: later) ++ [last] :=
        hpast.trans (by simp)
      exact Or.inl ⟨later, (List.append_inj' hsplit rfl).1⟩
  · rintro (⟨later, hpast⟩ | heq)
    · refine ⟨later ++ [handled], ?_⟩
      change past ++ [handled] = _
      rw [show past = past' ++ handled' :: later from hpast]
      simp
    · obtain ⟨rfl, rfl⟩ := Moment.mk.inj heq
      exact ⟨[], rfl⟩

/-- A moment comes after the one before the last event. -/
theorem Moment.Within.of_hear {t : Moment} {script : List (List Event)} {event : Event}
    {rest : List Event} {later : List (List Event)}
    (h : (t.hear event).Within script rest later) : t.Within script (event :: rest) later := by
  rw [Within, hear, List.append_assoc] at h
  exact h

/-- The first moment of a frame comes after the last one of the frame before. -/
theorem Moment.Within.of_turn {t : Moment} {script : List (List Event)} {rest : List Event}
    {later : List (List Event)} (h : t.turn.Within script rest later) :
    t.Within script [] (rest :: later) := by
  rw [Within, turn, List.append_assoc] at h
  rw [Within, List.append_nil]
  exact h

namespace Session

variable {s : Session}

/-- Whether nothing that ends a run has happened before a moment. -/
structure Undisturbed (s : Session) (t : Moment) : Prop where
  /-- No event has closed it. -/
  events : ∀ event ∈ t.events, event.quits = false
  /-- No cycle has faulted. -/
  cycles : ∀ t' fault, t'.Precedes t → ¬s.CyclesFault t' fault
  /-- No picture has failed. -/
  pictures : ∀ t' reason, t'.Precedes t → ¬s.PictureFails t' reason

theorem undisturbed_start (s : Session) : s.Undisturbed ⟨[], []⟩ := by
  have hfirst : ∀ {t : Moment}, ¬t.Precedes ⟨[], []⟩ := by
    rintro t ⟨later, hpast⟩
    exact absurd hpast.symm (by simp)
  exact ⟨nofun, fun _ _ ht => absurd ht hfirst, fun _ _ ht => absurd ht hfirst⟩

theorem undisturbed_hear_iff {t : Moment} {event : Event} :
    s.Undisturbed (t.hear event) ↔ s.Undisturbed t ∧ event.quits = false := by
  have hevents : (t.hear event).events = t.events ++ [event] := (List.append_assoc _ _ _).symm
  constructor
  · intro h
    have hall := List.forall_mem_append.1 (hevents ▸ h.events)
    exact ⟨⟨hall.1, h.cycles, h.pictures⟩, hall.2 event List.mem_cons_self⟩
  · rintro ⟨h, hquits⟩
    refine ⟨?_, h.cycles, h.pictures⟩
    rw [hevents]
    exact List.forall_mem_append.2 ⟨h.events, List.forall_mem_singleton.2 hquits⟩

theorem undisturbed_turn_iff {t : Moment} :
    s.Undisturbed t.turn ↔
      s.Undisturbed t ∧ (∀ fault, ¬s.CyclesFault t fault) ∧
        ∀ reason, ¬s.PictureFails t reason := by
  have hevents : t.turn.events = t.events := by simp [Moment.turn, Moment.events]
  have hlast : t.Precedes t.turn := Moment.precedes_turn_iff.2 (Or.inr rfl)
  have hbefore : ∀ {t' : Moment}, t'.Precedes t → t'.Precedes t.turn :=
    fun h => Moment.precedes_turn_iff.2 (Or.inl h)
  constructor
  · intro h
    exact ⟨⟨hevents ▸ h.events, fun t' fault ht => h.cycles t' fault (hbefore ht),
      fun t' reason ht => h.pictures t' reason (hbefore ht)⟩,
      fun fault => h.cycles t fault hlast, fun reason => h.pictures t reason hlast⟩
  · rintro ⟨h, hcycles, hpicture⟩
    refine ⟨hevents.symm ▸ h.events, fun t' fault ht => ?_, fun t' reason ht => ?_⟩
    · rcases Moment.precedes_turn_iff.1 ht with ht | rfl
      · exact h.cycles t' fault ht
      · exact hcycles fault
    · rcases Moment.precedes_turn_iff.1 ht with ht | rfl
      · exact h.pictures t' reason ht
      · exact hpicture reason

/-- A run comes to a moment exactly if nothing that ends it has happened before. -/
theorem going_iff_undisturbed (hm : Reachable s.machine) (t : Moment) :
    (s.upTo t).ending = none ↔ s.Undisturbed t := by
  have hall : ∀ {between : List Event} {t : Moment}, Moment.Passes ⟨[], []⟩ between t →
      ((s.upTo t).ending = none ↔ s.Undisturbed t) := by
    intro between t hpasses
    -- The induction is on what happens up to the moment, one event or one frame at a time.
    induction hpasses with
    | still => exact iff_of_true rfl s.undisturbed_start
    | @hear _ t _ event ih =>
      rw [upTo_hear, Turn.ending_andThen_eq_none_iff, ih, undisturbed_hear_iff,
        ending_handle (reachable_upTo hm t)]
      cases event.quits with
      | true => simp
      | false => simp
    | @turn _ t _ ih =>
      rw [upTo_turn, Turn.andThen_assoc (s.upTo t), Turn.ending_andThen_eq_none_iff,
        Turn.ending_andThen_eq_none_iff, ih, ending_rest_eq_none_iff hm, undisturbed_turn_iff,
        listen_nil, and_iff_left rfl]
  exact hall t.passes_events

/-! ## The first thing that ends a run -/

/-- Whether a run comes to an event that closes it, with no fault and no failure before: the event
that comes after this moment. -/
def ClosesAt (s : Session) (script : List (List Event)) (t : Moment) : Prop :=
  ∃ event rest later, t.Within script (event :: rest) later ∧ s.Undisturbed t ∧
    event.quits = true

/-- Whether a run comes to the cycles that start at this moment, and one of them faults, the first
of all. -/
def FaultsAt (s : Session) (script : List (List Event)) (t : Moment) (fault : Fault) : Prop :=
  ∃ later, t.Within script [] later ∧ s.Undisturbed t ∧ s.CyclesFault t fault

/-- Whether a run comes to the cycles that start at this moment, all of them are carried out, and
the picture that is due then fails for this reason. -/
def FailsAt (s : Session) (script : List (List Event)) (t : Moment) (reason : String) : Prop :=
  ∃ later, t.Within script [] later ∧ s.Undisturbed t ∧ s.PictureFails t reason

/-- Whether this is the first thing that ends a run. -/
def Ends (s : Session) (script : List (List Event)) : Ending → Prop
  | .quit => ∃ t, s.ClosesAt script t
  | .fault fault => ∃ t, s.FaultsAt script t fault
  | .device reason => ∃ t, s.FailsAt script t reason

/-- Something ends every run, at the latest the window that is closed in its last frame. -/
theorem exists_ends (s : Session) (script : List (List Event)) :
    ∃ ending, s.Ends script ending := by
  have hall : ∀ {between : List Event} {t : Moment}, Moment.Passes ⟨[], []⟩ between t →
      ∀ {rest later}, t.Within script rest later → ¬s.Undisturbed t →
        ∃ ending, s.Ends script ending := by
    intro between t hpasses
    induction hpasses with
    | still => exact fun _ hdisturbed => absurd s.undisturbed_start hdisturbed
    | @hear _ t _ event ih =>
      intro rest later hwithin hdisturbed
      by_cases hbefore : s.Undisturbed t
      · have hquits : event.quits = true := by
          by_contra hnot
          exact hdisturbed (undisturbed_hear_iff.2 ⟨hbefore, Bool.eq_false_iff.2 hnot⟩)
        exact ⟨.quit, t, event, rest, later, hwithin.of_hear, hbefore, hquits⟩
      · exact ih hwithin.of_hear hbefore
    | @turn _ t _ ih =>
      intro rest later hwithin hdisturbed
      by_cases hbefore : s.Undisturbed t
      · by_cases hcycles : ∃ fault, s.CyclesFault t fault
        · obtain ⟨fault, hfault⟩ := hcycles
          exact ⟨.fault fault, t, rest :: later, hwithin.of_turn, hbefore, hfault⟩
        · obtain ⟨reason, hfails⟩ : ∃ reason, s.PictureFails t reason := by
            by_contra hnone
            exact hdisturbed (undisturbed_turn_iff.2
              ⟨hbefore, not_exists.1 hcycles, not_exists.1 hnone⟩)
          exact ⟨.device reason, t, rest :: later, hwithin.of_turn, hbefore, hfails⟩
      · exact ih hwithin.of_turn hbefore
  have hlast : ¬s.Undisturbed ⟨script, [.quit]⟩ := by
    intro h
    cases h.events .quit (List.mem_append_right _ List.mem_cons_self)
  have hwithin : Moment.Within ⟨script, [.quit]⟩ script [] [] := rfl
  exact hall (Moment.passes_events _) hwithin hlast

/-- An event that closes the run is the last thing that a run does. -/
theorem play_of_closesAt (hm : Reachable s.machine) {t : Moment} {script : List (List Event)}
    (h : s.ClosesAt script t) : s.play script = { s.upTo t with ending := some .quit } := by
  obtain ⟨event, rest, later, hwithin, hbefore, hquits⟩ := h
  have hgoOn : (s.upTo t).session.goOn (event :: rest) later =
      { session := (s.upTo t).session, ending := some .quit } := by
    rw [goOn, handleAll, handle_of_quits (reachable_upTo hm t) hquits]
    rfl
  rw [play_of_upTo s hwithin, Turn.andThen_of_none ((going_iff_undisturbed hm t).2 hbefore), hgoOn]
  simp only [List.append_nil]

/-- The cycles that end a run, or the picture after them, are the last that a run does. -/
theorem play_of_ending_rest {t : Moment} {script later : List (List Event)}
    (hwithin : t.Within script [] later) {ending : Ending}
    (h : ((s.upTo t).session.advance.andThen refresh).ending = some ending) :
    s.play script = (s.upTo t).andThen fun s => s.advance.andThen refresh := by
  rw [play_of_upTo s hwithin]
  cases hgoing : (s.upTo t).ending with
  | some ending => rw [Turn.andThen_of_some hgoing, Turn.andThen_of_some hgoing]
  | none =>
    rw [Turn.andThen_of_none hgoing, Turn.andThen_of_none hgoing, goOn_nil,
      Turn.andThen_of_some h]

/-- A cycle that faults is the last that a run carries out. -/
theorem play_of_faultsAt (hm : Reachable s.machine) {t : Moment} {script : List (List Event)}
    {fault : Fault} (h : s.FaultsAt script t fault) :
    s.play script = (s.upTo t).andThen advance ∧
      (s.upTo t).session.advance.ending = some (.fault fault) := by
  obtain ⟨later, hwithin, hbefore, hfault⟩ := h
  obtain ⟨-, hcycles⟩ := fittings_upTo hm t
  have hending : (s.upTo t).session.advance.ending = some (.fault fault) := by
    rw [ending_advance, hcycles, result_run_error_iff.2 hfault]
  refine ⟨?_, hending⟩
  have hgoing := (going_iff_undisturbed hm t).2 hbefore
  rw [play_of_ending_rest hwithin ((ending_rest_eq_fault_iff hm).2 hfault),
    Turn.andThen_of_none hgoing, Turn.andThen_of_none hgoing, Turn.andThen_of_some hending]

/-- A picture that fails is the last thing that a run does. -/
theorem play_of_failsAt (hm : Reachable s.machine) {t : Moment} {script : List (List Event)}
    {reason : String} (h : s.FailsAt script t reason) :
    s.play script = ((s.upTo t).andThen advance).andThen refresh ∧
      ((s.upTo t).session.advance.andThen refresh).ending = some (.device reason) := by
  obtain ⟨later, hwithin, -, hfails⟩ := h
  have hending := (ending_rest_eq_device_iff hm).2 hfails
  exact ⟨(play_of_ending_rest hwithin hending).trans (Turn.andThen_assoc _ _ _).symm, hending⟩

/-- A run ends with the first thing that ends it. -/
theorem ending_play_of_ends (hm : Reachable s.machine) {script : List (List Event)}
    {ending : Ending} (h : s.Ends script ending) : (s.play script).ending = some ending := by
  cases ending with
  | quit =>
    obtain ⟨t, hcloses⟩ := h
    rw [play_of_closesAt hm hcloses]
  | fault fault =>
    obtain ⟨t, hfaults⟩ := h
    obtain ⟨hplay, hending⟩ := play_of_faultsAt hm hfaults
    obtain ⟨later, -, hbefore, -⟩ := hfaults
    rw [hplay, Turn.ending_andThen, (going_iff_undisturbed hm t).2 hbefore, Option.none_or,
      hending]
  | device reason =>
    obtain ⟨t, hfails⟩ := h
    obtain ⟨hplay, hending⟩ := play_of_failsAt hm hfails
    obtain ⟨later, -, hbefore, -⟩ := hfails
    rw [hplay, Turn.andThen_assoc, Turn.ending_andThen, (going_iff_undisturbed hm t).2 hbefore,
      Option.none_or, hending]

theorem ending_play_iff (hm : Reachable s.machine) {script : List (List Event)}
    {ending : Ending} : (s.play script).ending = some ending ↔ s.Ends script ending := by
  refine ⟨fun h => ?_, ending_play_of_ends hm⟩
  obtain ⟨first, hfirst⟩ := s.exists_ends script
  obtain rfl := Option.some.inj ((ending_play_of_ends hm hfirst).symm.trans h)
  exact hfirst

end Session

end Chip8VM.Host
