import Chip8VM.Proofs.Cycle
import Chip8VM.Proofs.Texture
import Chip8VM.Proofs.Turns

/-!
# What the window shows

The picture of a window is the texture copied to it last (`shown`), and a window without one
is black. At the end of a frame the window shows the frame of the machine, with one
exception: a reset blanks the frame without raising its flag, so the last picture stays
until the program draws again. `shown_eq_frame_iff` says that this is the only way in which
window and frame differ.

The invariant is `Shows`: after a reset without a new picture the frame is blank, and
otherwise the picture is the frame. Within a frame it may fail only while the flag is up
(`Pending`), and then `refresh` makes a new picture.
-/

namespace Chip8VM.Host

/-! ## Pictures -/

/-- The texture copied last. -/
def lastCopy (calls : List Call) : Option Texture :=
  calls.foldl (fun last call => match call with | .copy t => some t | _ => last) none

/-- The picture on the window after some calls, black before the first copy. -/
def shown (calls : List Call) (x : Fin 64) (y : Fin 32) : Colour :=
  match lastCopy calls with
  | some t => t.colour x y
  | none => .ofLit false

/-- Whether a reset came after the texture copied last. -/
def resetSinceCopy (calls : List Call) : Bool :=
  calls.foldl (fun since call =>
    match call with | .note .resetting => true | .copy _ => false | _ => since) false

/-- Whether a call has to do with pictures or resets. -/
def Call.isPlain : Call → Bool
  | .copy _ | .note .resetting => false
  | _ => true

/-- Whether a call copies a texture to the window. -/
def Call.isCopy : Call → Bool
  | .copy _ => true
  | _ => false

/-- A fold over calls that make no difference. -/
theorem foldl_of_forall {α : Type} {step : α → Call → α} {more : List Call}
    (h : ∀ call ∈ more, ∀ a, step a call = a) (a : α) : more.foldl step a = a := by
  induction more with
  | nil => rfl
  | cons call rest ih =>
    rw [List.foldl_cons, h call List.mem_cons_self]
    exact ih fun c hc => h c (List.mem_cons_of_mem _ hc)

theorem lastCopy_append (calls : List Call) {more : List Call}
    (h : ∀ call ∈ more, call.isCopy = false) : lastCopy (calls ++ more) = lastCopy calls := by
  unfold lastCopy
  rw [List.foldl_append]
  refine foldl_of_forall (fun call hc last => ?_) _
  cases call with
  | copy t => exact absurd (h _ hc) (Bool.noConfusion)
  | _ => rfl

/-- Plain calls change no picture. -/
theorem lastCopy_append_plain (calls : List Call) {more : List Call}
    (h : ∀ call ∈ more, call.isPlain = true) : lastCopy (calls ++ more) = lastCopy calls := by
  refine lastCopy_append calls fun call hc => ?_
  cases call with
  | copy t => exact absurd (h _ hc) (Bool.noConfusion)
  | _ => rfl

theorem resetSinceCopy_append_plain (calls : List Call) {more : List Call}
    (h : ∀ call ∈ more, call.isPlain = true) :
    resetSinceCopy (calls ++ more) = resetSinceCopy calls := by
  unfold resetSinceCopy
  rw [List.foldl_append]
  refine foldl_of_forall (fun call hc since => ?_) _
  have hplain := h call hc
  cases call with
  | note note => cases note <;> first | rfl | cases hplain
  | copy t => cases hplain
  | _ => rfl

/-! ## The invariant -/

/-- The window shows the frame, but for a reset that has not been shown. -/
def Shows (s : Session) (calls : List Call) : Prop :=
  if resetSinceCopy calls then s.machine.frame = .blank
  else ∀ x y, shown calls x y = .ofLit (s.machine.frame.lit x y)

/-- The window shows the frame, or will when the frame is refreshed. -/
def Pending (s : Session) (calls : List Call) : Prop :=
  s.machine.guest.screen.redraw = true ∨ Shows s calls

/-- Between two frames the flag is down. -/
def Settled (s : Session) (calls : List Call) : Prop :=
  s.machine.guest.screen.redraw = false ∧ Shows s calls

theorem Shows.append_plain {s s' : Session} {calls more : List Call} (h : Shows s calls)
    (hmore : ∀ call ∈ more, call.isPlain = true) (hframe : s'.machine.frame = s.machine.frame) :
    Shows s' (calls ++ more) := by
  unfold Shows shown at *
  rw [resetSinceCopy_append_plain calls hmore, lastCopy_append_plain calls hmore, hframe]
  exact h

/-- What changes no screen without raising its flag and makes plain calls leaves a picture
pending. -/
theorem Pending.append_plain {s s' : Session} {calls more : List Call} (h : Pending s calls)
    (hmore : ∀ call ∈ more, call.isPlain = true)
    (hscreen : s'.machine.guest.screen = s.machine.guest.screen ∨
      s'.machine.guest.screen.redraw = true) : Pending s' (calls ++ more) := by
  rcases hscreen with hsame | hraised
  · rcases h with hredraw | hshows
    · exact Or.inl (by rw [hsame]; exact hredraw)
    · exact Or.inr (hshows.append_plain hmore (congrArg Screen.frame hsame))
  · exact Or.inl hraised

/-! ## What changes the screen -/

section

variable {m : Machine}

/-- A reset blanks the frame, and lowers the flag too. -/
theorem reset_screen (h : m.reset.result = .ok ()) :
    m.reset.machine.guest.screen = .powerOn := by
  unfold Machine.reset at h ⊢
  split at h
  · cases h
  · rfl

theorem loadRom_screen {source : Rom.Source} (h : (m.loadRom source).result = .ok ()) :
    (m.loadRom source).machine.guest.screen = .powerOn := by
  unfold Machine.loadRom Machine.load at h ⊢
  split at h
  · cases h
  · split at h
    · cases h
    · rfl

end

/-! ## Frames -/

variable {s : Session} {calls : List Call}

theorem not_mem_nil_isPlain : ∀ call ∈ ([] : List Call), call.isPlain = true :=
  fun _ hc => absurd hc List.not_mem_nil

/-- A reply to which no calls belong leaves what holds of its machine. -/
theorem reply_leaves {P : Session → List Call → Prop} {more : List Call}
    {reply : Machine.Reply Unit}
    (h : reply.result = .ok () → P { s with machine := reply.machine } (calls ++ more)) :
    (s.reply more reply).Leaves calls P := by
  intro hending
  refine h ?_
  unfold Session.reply at hending
  dsimp only at hending
  split at hending
  · assumption
  · cases hending

theorem press_leaves (h : Pending s calls) (pad : UInt8) (held : Bool) :
    (s.press pad held).Leaves calls Pending := by
  refine Turn.Leaves.andThen (P := Pending) (reply_leaves fun _ => ?_) fun s calls h => ?_
  · exact h.append_plain not_mem_nil_isPlain (Or.inl (Machine.setKey_screen pad true))
  · split
    · exact reply_leaves fun _ =>
        h.append_plain not_mem_nil_isPlain (Or.inl (Machine.answerKey_screen pad))
    · exact Turn.leaves_still h

/-- A reset is noted down, and leaves a blank frame. -/
theorem reset_leaves :
    (s.reply [.note .resetting] s.machine.reset).Leaves calls Pending := by
  refine reply_leaves fun hok => Or.inr ?_
  have hreset : resetSinceCopy (calls ++ [.note .resetting]) = true := by
    rw [resetSinceCopy, List.foldl_append]
    rfl
  unfold Shows
  rw [if_pos hreset]
  exact congrArg Screen.frame (reset_screen hok)

theorem handle_leaves (h : Pending s calls) (event : Event) :
    (s.handle event).Leaves calls Pending := by
  cases event with
  | quit => exact Turn.leaves_of_ending rfl
  | keyDown key held =>
    cases key with
    | none => exact Turn.leaves_still h
    | some key =>
      simp only [Session.handle]
      split
      · exact Turn.leaves_of_ending rfl
      · split
        · split
          · exact Turn.leaves_still h
          · exact reset_leaves
        · split
          · exact press_leaves h _ held
          · exact Turn.leaves_still h
  | keyUp key =>
    cases key with
    | none => exact Turn.leaves_still h
    | some key =>
      simp only [Session.handle]
      split
      · exact reply_leaves fun _ =>
          h.append_plain not_mem_nil_isPlain (Or.inl (Machine.setKey_screen _ false))
      · exact Turn.leaves_still h
  | other => exact Turn.leaves_still h

theorem handleAll_leaves (h : Pending s calls) (events : List Event) :
    (s.handleAll events).Leaves calls Pending := by
  induction events generalizing s calls with
  | nil => exact Turn.leaves_still h
  | cons event rest ih => exact (handle_leaves h event).andThen fun s calls hs => ih hs

theorem listen_leaves (h : Pending s calls) (events : List Event) :
    (s.listen events).Leaves calls Pending := by
  refine Turn.Leaves.andThen (P := Pending) (fun _ => ?_) fun s calls hs =>
    handleAll_leaves hs events
  refine h.append_plain (fun call hc => ?_) (Or.inl rfl)
  rw [List.mem_singleton.1 hc]
  rfl

/-- The buzzer has nothing to do with pictures. -/
theorem isPlain_setActive (devices : Devices) (sound : Sound) (active : Bool) :
    ∀ call ∈ (sound.setActive devices active).2, call.isPlain = true :=
  forall_calls_setActive (p := fun call => call.isPlain = true) rfl (fun _ => rfl) rfl
    devices sound active

/-- The cycles of a frame may change the frame, but then the flag is up. -/
theorem advance_leaves (h : Pending s calls) : s.advance.Leaves calls Pending := by
  have hscreen := s.machine.run_screen s.cyclesPerFrame.toNat
  unfold Session.advance
  dsimp only
  split
  · intro _
    exact h.append_plain (isPlain_setActive _ _ _) hscreen
  · exact Turn.leaves_of_ending rfl

/-- A copied frame is what the window shows, and it is the newest picture. -/
theorem shows_copy {frame : Frame} {padding : Nat} (hframe : s.machine.frame = frame) :
    Shows s (calls ++ [.texture, .copy ((Texture.blank padding).fill frame), .present]) := by
  have hreset : resetSinceCopy
      (calls ++ [.texture, .copy ((Texture.blank padding).fill frame), .present]) = false := by
    rw [resetSinceCopy, List.foldl_append]
    rfl
  have hlast : lastCopy
      (calls ++ [.texture, .copy ((Texture.blank padding).fill frame), .present]) =
        some ((Texture.blank padding).fill frame) := by
    rw [lastCopy, List.foldl_append]
    rfl
  unfold Shows shown
  rw [hreset, hlast, hframe, if_neg Bool.false_ne_true]
  exact Texture.colour_fill_blank padding frame

/-- The calls of a picture that is shown without a failure. -/
theorem render_calls {devices : Devices} {frame : Frame}
    (h : (Window.render devices frame).result = .ok ()) :
    (Window.render devices frame).calls =
      [.texture, .copy ((Texture.blank devices.padding).fill frame), .present] := by
  unfold Window.render at h ⊢
  simp only [bind, Attempt.andThen, Attempt.call, Attempt.need] at h ⊢
  cases ht : devices.failing .texture with
  | some reason => simp [ht] at h
  | none =>
    cases hl : devices.failing .lock with
    | some reason => simp [ht, hl] at h
    | none =>
      cases hc : devices.failing .copy with
      | some reason => simp [ht, hl, hc] at h
      | none => rfl

/-- After the refresh the flag is down, and the window shows the frame. -/
theorem refresh_leaves (h : Pending s calls) : s.refresh.Leaves calls Settled := by
  unfold Session.refresh Machine.takeFrame Screen.takeFrame
  by_cases hredraw : s.machine.guest.screen.redraw = true
  · rw [if_pos hredraw]
    intro hending
    have hok : (Window.render (s.devices.after s.pictures)
        s.machine.guest.screen.frame).result = .ok () := by
      dsimp only at hending
      split at hending
      · assumption
      · cases hending
    refine ⟨rfl, ?_⟩
    dsimp only
    rw [render_calls hok]
    exact shows_copy rfl
  · rw [if_neg hredraw]
    have hdown := Bool.eq_false_iff.2 hredraw
    exact Turn.leaves_still ⟨hdown, h.resolve_left hredraw⟩

theorem frame_leaves (h : Settled s calls) (events : List Event) :
    (s.frame events).Leaves calls Settled :=
  ((listen_leaves (Or.inr h.2) events).andThen fun _ _ hs => advance_leaves hs).andThen
    fun _ _ hs => refresh_leaves hs

/-! ## Before the first frame -/

/-- Opening the window, the keyboard and the sound device copies no picture. -/
theorem isPlain_start (arguments : Arguments) (devices : Devices) (m : Machine) :
    ∀ call ∈ (Session.start arguments devices m).calls, call.isPlain = true :=
  forall_calls_start (p := fun call => call.isPlain = true) (fun _ _ _ => rfl) rfl rfl rfl
    (fun _ => rfl) (fun _ => rfl) arguments devices m

section

variable {arguments : Arguments} {rom : Except String Rom.Source} {devices : Devices}
  {supply : Random.Supply} {script : List (List Event)}

/-- Before the first frame the window and the frame are black. -/
theorem settled_opened (h : opened arguments rom devices supply = some (s, calls)) :
    Settled s calls := by
  obtain ⟨source, -, hload, hstart, rfl⟩ := eq_of_opened h
  have hscreen : s.machine.guest.screen = .powerOn := by
    obtain ⟨sound, -, rfl⟩ := Session.start_eq hstart
    exact loadRom_screen hload
  have hplain : ∀ call ∈ Call.note (.loaded arguments.rom) ::
      (Session.start arguments devices ((Machine.powerOn (Session.settings arguments)
        supply).loadRom source).machine).calls, call.isPlain = true :=
    List.forall_mem_cons.2 ⟨rfl, isPlain_start _ _ _⟩
  have hreset := resetSinceCopy_append_plain [] hplain
  have hlast := lastCopy_append_plain [] hplain
  rw [List.nil_append] at hreset hlast
  refine ⟨by rw [hscreen]; rfl, ?_⟩
  unfold Shows shown Machine.frame
  rw [hreset, hlast, hscreen]
  refine fun x y => congrArg Colour.ofLit ?_
  simp [Screen.powerOn, Frame.blank, Frame.lit, Frame.row]

/-! ## The end of a frame -/

/-- At the end of a frame the flag is down, and the window shows the frame but for a reset
that has not been shown. -/
theorem settled_afterFrames
    (h : afterFrames arguments rom devices supply script = some (s, calls)) :
    Settled s calls :=
  afterFrames_invariant (P := Settled) (fun _ _ => settled_opened)
    (fun _ _ events hs => frame_leaves hs events) h

/-- At the end of a frame, which no fault and no ending has cut short, the window shows the
frame of the machine, lit pixels white and the others black, unless there was a reset since
the last picture; then it does so only if it is black. The calls are the first of every run
that begins with these frames. -/
theorem shown_eq_frame_iff
    (h : afterFrames arguments rom devices supply script = some (s, calls)) :
    (∀ rest, ∃ more,
      (run arguments rom devices supply (script ++ rest)).calls = calls ++ more) ∧
    ((∀ x y, shown calls x y = .ofLit (s.machine.frame.lit x y)) ↔
      (resetSinceCopy calls = true → ∀ x y, shown calls x y = .ofLit false)) := by
  refine ⟨run_calls_of_afterFrames h, ?_⟩
  have hshows := (settled_afterFrames h).2
  unfold Shows at hshows
  cases hreset : resetSinceCopy calls with
  | false =>
    rw [hreset, if_neg Bool.false_ne_true] at hshows
    exact ⟨fun _ hfalse => (nomatch hfalse), fun _ => hshows⟩
  | true =>
    rw [hreset, if_pos rfl] at hshows
    have hblank : ∀ x y, s.machine.frame.lit x y = false := fun x y => by
      rw [hshows]
      simp [Frame.blank, Frame.lit, Frame.row]
    constructor
    · intro hall _ x y
      rw [hall, hblank]
    · intro hblack x y
      rw [hblack rfl, hblank]

end

/-! ## A reset that is not shown -/

/-- A run with one cycle a frame of a program that draws a row of pixels in its second
cycle. -/
def drawingRun (script : List (List Event)) : Option (Session × List Call) :=
  afterFrames { rom := "a.ch8", cyclesPerFrame := 1, seed := some 0, mute := true }
    (.ok [.bytes [0xA2, 0x02, 0xD0, 0x01]]) quietDevices
    ⟨fun _ => Vector.replicate 8 0, 0⟩ script

/-- A frame in which the key for a reset goes down. -/
def resetKey : List Event := [.keyDown (some .enter) false]

set_option maxRecDepth 100000 in
/-- The second frame of that run lights a pixel; a third with a reset copies no picture. -/
theorem drawingRun_two_frames :
    ((drawingRun [[], []]).map fun (s, calls) =>
      (resetSinceCopy calls, s.machine.frame.lit 0 0, (s.frame resetKey).ending.isNone,
        resetSinceCopy (calls ++ (s.frame resetKey).calls),
        (s.frame resetKey).calls.all fun call => !call.isCopy)) =
      some (false, true, true, true, true) := by
  decide +kernel

/-- The window still shows a pixel after the frame with the reset. -/
theorem white_after_reset :
    ∃ s calls, drawingRun [[], [], resetKey] = some (s, calls) ∧
      resetSinceCopy calls = true ∧ shown calls 0 0 = .ofLit true := by
  have hfacts := drawingRun_two_frames
  cases htwo : drawingRun [[], []] with
  | none =>
    rw [htwo] at hfacts
    cases hfacts
  | some before =>
    obtain ⟨s, calls⟩ := before
    rw [htwo] at hfacts
    simp only [Option.map_some, Option.some.injEq, Prod.mk.injEq] at hfacts
    obtain ⟨hcopied, hlit, hnone, hreset, hcalls⟩ := hfacts
    have hshows := (settled_afterFrames htwo).2
    unfold Shows at hshows
    rw [hcopied, if_neg Bool.false_ne_true] at hshows
    have hlast : lastCopy (calls ++ (s.frame resetKey).calls) = lastCopy calls :=
      lastCopy_append calls fun call hc => by simpa using List.all_eq_true.1 hcalls call hc
    refine ⟨_, _, afterFrames_append htwo (Option.isNone_iff_eq_none.1 hnone), hreset, ?_⟩
    rw [shown, hlast, ← hlit]
    exact hshows 0 0

/-- So the window does not show the frame then. -/
theorem shown_ne_frame_after_reset :
    ∃ s calls, drawingRun [[], [], resetKey] = some (s, calls) ∧
      ¬∀ x y, shown calls x y = .ofLit (s.machine.frame.lit x y) := by
  obtain ⟨s, calls, h, hreset, hwhite⟩ := white_after_reset
  refine ⟨s, calls, h, fun hall => ?_⟩
  have hblack := (shown_eq_frame_iff h).2.1 hall hreset 0 0
  rw [hwhite] at hblack
  exact absurd (Colour.ofLit_inj.1 hblack) (by decide)

end Chip8VM.Host
