import Chip8VM.Proofs.KeyWait

/-!
# When a frame is handed out

The redraw flag tells whether something was drawn since the frame was last handed out. It is
raised by a completed instruction that paints, one that darkens the screen or draws a sprite
with at least one row, and by nothing else (`Instruction.execute_redraw`). It is lowered when
the frame is handed out and at every power-on.

`sinceLowered` follows a history and keeps the cycles completed since the flag was last
lowered. `takeFrame_eq_some_iff` says that a frame is handed out exactly when one of them
paints, and that it is the frame as it is then.
-/

namespace Chip8VM

namespace Instruction

/-- Whether an instruction paints: it darkens the screen, or draws a sprite that has a row. -/
def paints : Instruction → Bool
  | clear => true
  | draw _ _ n => n != 0
  | _ => false

/-- An instruction without a fault raises the flag if it paints, and leaves it alone if not. -/
theorem execute_redraw {i : Instruction} {g : Guest} (hok : i.fault? g = none) :
    (i.execute g).2.screen.redraw = (g.screen.redraw || i.paints) := by
  have hsame : ∀ {screen : Screen}, screen = g.screen →
      screen.redraw = (g.screen.redraw || false) := by
    intro screen h
    rw [h, Bool.or_false]
  cases i
  case clear => exact (Bool.or_true _).symm
  case draw x y n =>
    have hfst := execute_fst (draw x y n) g
    rw [hok] at hfst
    simp only [execute] at hfst ⊢
    cases hslice : g.memory.slice g.processor.i.toUInt64 n.toUInt64 with
    | error fault =>
      rw [hslice] at hfst
      cases hfst
    | ok sprite =>
      have hlen := Memory.length_of_slice hslice
      rw [UInt8.toNat_toUInt64] at hlen
      have hempty : sprite.isEmpty = (n == 0) := by
        rw [Bool.eq_iff_iff, List.isEmpty_iff_length_eq_zero, hlen, beq_iff_eq,
          ← UInt8.toNat_inj, UInt8.toNat_zero]
      simp only [Guest.attempt_ok, Guest.drawSprite, redraw_drawSprite, hempty]
      rfl
  case ret | call | storeDecimal | storeRegisters | loadRegisters =>
    exact hsame (Guest.attempt_snd_frame Guest.screen fun _ => rfl)
  all_goals exact hsame rfl

end Instruction

namespace Machine

/-- Whether the instruction of a completed cycle paints. -/
def Completed.paints (c : Completed) : Bool := c.instruction.paints

/-- Whether a request lowers the flag: handing out the frame does, a reset, and a load that
succeeds. -/
def lowers (m : Machine) : Request → Bool
  | .takeFrame | .reset => true
  | request => m.startsOver request

/-- The cycles completed since the flag was last lowered, after a history that follows the
cycles in `done`. -/
def sinceLowered (m : Machine) (done : List Completed) : List Request → List Completed
  | [] => done
  | request :: rest =>
    (m.serve request).machine.sinceLowered
      (if m.lowers request then [] else done ++ m.completedBy request) rest

/-! ## Single requests -/

/-- A cycle raises the flag if it completes an instruction that paints. -/
theorem cycle_redraw (m : Machine) :
    m.cycle.machine.guest.screen.redraw =
      (m.guest.screen.redraw || m.completed.toList.any Completed.paints) := by
  rcases m.completed_cases with ⟨hnone, pc, hmachine⟩ | ⟨i, hi⟩
  · rw [hnone, hmachine]
    exact (Bool.or_false _).symm
  · rw [hi.guest, hi.completed, Option.toList_some, List.any_cons, List.any_nil, Bool.or_false]
    exact Instruction.execute_redraw hi.no_fault

/-- Whether the flag is up exactly if one of these cycles paints. -/
def Flagged (m : Machine) (done : List Completed) : Prop :=
  m.guest.screen.redraw = done.any Completed.paints

theorem Flagged.cycle {m : Machine} {done : List Completed} (h : m.Flagged done) :
    m.cycle.machine.Flagged (done ++ m.completed.toList) := by
  rw [Flagged, cycle_redraw, List.any_append, h]

/-- What lowers the flag lowers it. -/
theorem flagged_of_lowers {m : Machine} (hm : Reachable m) {request : Request}
    (h : m.lowers request = true) : (m.serve request).machine.Flagged [] := by
  have hover : m.startsOver request = true → (m.serve request).machine.Flagged [] := by
    intro hstart
    obtain ⟨before, program, memory, -, hmachine⟩ := (PoweredOn.startedOver hstart).eq_restart
    rw [hmachine]
    rfl
  cases request with
  | takeFrame =>
    simp only [serve, takeFrame, Screen.takeFrame, Flagged]
    split
    · rfl
    · rename_i hlow
      exact Bool.eq_false_iff.2 hlow
  | reset => exact hover hm.sound.startsOver_reset
  | load | loadRom => exact hover h
  | cycle | run | setKey | answerKey => cases h

/-- Every other request leaves the flag to the cycles that it runs. -/
theorem Flagged.serve {m : Machine} {done : List Completed} (h : m.Flagged done)
    {request : Request} (hnot : m.lowers request = false) :
    (m.serve request).machine.Flagged (done ++ m.completedBy request) := by
  -- Without cycles the screen is as it was.
  have hsame : (m.serve request).machine.guest.screen = m.guest.screen →
      m.completedBy request = [] →
      (m.serve request).machine.Flagged (done ++ m.completedBy request) := by
    intro hscreen hnone
    rw [hnone, List.append_nil, Flagged, hscreen]
    exact h
  cases request with
  | load program =>
    refine hsame ?_ rfl
    rw [Machine.serve, (m.starts_load program).machine_eq hnot]
  | loadRom source =>
    refine hsame ?_ rfl
    rw [Machine.serve, (m.starts_loadRom source).machine_eq hnot]
  | cycle => exact h.cycle
  | run n =>
    rw [completedBy, completedInRun_eq]
    exact run_moments (P := Flagged) (fun _ _ h => h.cycle) h n.toNat
  | setKey key pressed => exact hsame (setKey_screen key pressed) rfl
  | answerKey key => exact hsame (answerKey_screen key) rfl
  | reset | takeFrame => cases hnot

/-! ## Histories -/

/-- After a history the flag is up exactly if a cycle completed since it was last lowered
paints. -/
theorem Flagged.serveAll {m : Machine} (hm : Reachable m) {done : List Completed}
    (h : m.Flagged done) (history : List Request) :
    (m.serveAll history).Flagged (m.sinceLowered done history) := by
  induction history generalizing m done with
  | nil => exact h
  | cons request rest ih =>
    rw [serveAll_cons, sinceLowered]
    refine ih (hm.serve request) ?_
    split
    · rename_i hlowers
      exact flagged_of_lowers hm hlowers
    · rename_i hnot
      exact h.serve (Bool.eq_false_iff.2 hnot)

/-- After any history a frame is handed out exactly when, since the latest of power-on, reset,
load that succeeded and handing out the frame, a cycle was completed that darkened the screen
or drew a sprite with at least one row. It is the frame as it is then, and nothing changes
with it but the redraw flag, which is down. -/
theorem takeFrame_eq_some_iff (settings : Settings) (supply : Random.Supply)
    (history : List Request) :
    let m := (powerOn settings supply).serveAll history
    let since := (powerOn settings supply).sinceLowered [] history
    (∀ frame, m.takeFrame.1 = some frame ↔
      (∃ c ∈ since, c.instruction.paints = true) ∧ frame = m.frame) ∧
      m.takeFrame.2 = m.touched m.guest.processor.v m.guest.keypad false := by
  intro m since
  have hflag : m.guest.screen.redraw = since.any Completed.paints :=
    Flagged.serveAll (reachable_powerOn settings supply)
      (show (powerOn settings supply).Flagged [] from rfl) history
  have hany : since.any Completed.paints = true ↔ ∃ c ∈ since, c.instruction.paints = true :=
    List.any_eq_true
  rw [← hflag] at hany
  simp only [takeFrame, Screen.takeFrame]
  by_cases hup : m.guest.screen.redraw = true
  · rw [if_pos hup]
    refine ⟨?_, rfl⟩
    intro frame
    rw [and_iff_right (hany.1 hup)]
    constructor
    · intro hsome
      exact (Option.some.inj hsome).symm
    · rintro rfl
      rfl
  · rw [if_neg hup]
    constructor
    · intro frame
      constructor
      · intro hnone
        cases hnone
      · rintro ⟨hpaints, -⟩
        exact absurd (hany.2 hpaints) hup
    · have hlow : m.guest.screen.redraw = false := Bool.eq_false_iff.2 hup
      rw [touched, ← hlow]

end Machine

end Chip8VM
