import Chip8VM.Proofs.Pixels

/-!
# Strokes

A stroke is a byte drawn from some column of some row on. It hits the pixels that it has a set
bit over. However many strokes are drawn, a pixel is flipped once for each that hits it
(`Screen.lit_drawAll`). So the frame that strokes leave does not depend on their order
(`Screen.frame_drawAll_of_perm`), and two equal strokes may be left out, wherever they stand
(`Screen.frame_drawAll_of_pair`).

The same count tells whether a lit pixel goes dark on the way: one does if some pixel is hit that
was lit at the start, or is hit twice (`Screen.drawAll_snd_iff`).
-/

namespace Chip8VM

/-- A byte that is drawn from a column of a row on. -/
structure Stroke where
  /-- The column under the first bit. -/
  x : UInt64
  /-- The row. -/
  y : UInt64
  /-- The pixels to flip, the leftmost in the highest bit. -/
  byte : UInt8

/-- Whether a stroke has a set bit over a pixel. -/
def Stroke.hits (s : Stroke) (c : Fin 64) (r : Fin 32) : Bool :=
  decide (r.val = s.y.toNat % 32) && Frame.covers s.x s.byte c

/-- The row of a stroke wraps around the bottom edge. -/
theorem Stroke.hits_eq (s : Stroke) (c : Fin 64) (r : Fin 32) :
    s.hits c r = (decide (r = Fin.ofNat 32 s.y.toNat) && Frame.covers s.x s.byte c) := by
  have hrow : r = Fin.ofNat 32 s.y.toNat ↔ r.val = s.y.toNat % 32 := Fin.ext_iff
  rw [hits, decide_eq_decide.2 hrow]

/-- A stroke hits some pixel unless it has no set bit. -/
theorem Stroke.exists_hits_iff (s : Stroke) : (∃ c r, s.hits c r = true) ↔ s.byte ≠ 0 := by
  rw [← Frame.exists_covers_iff s.x]
  constructor
  · rintro ⟨c, r, h⟩
    exact ⟨c, (Bool.and_eq_true_iff.1 h).2⟩
  · rintro ⟨c, h⟩
    refine ⟨c, Fin.ofNat 32 s.y.toNat, ?_⟩
    rw [s.hits_eq]
    exact Bool.and_eq_true_iff.2 ⟨decide_eq_true rfl, h⟩

/-- One more than a number is odd when the number is not. -/
theorem decide_one_add_odd (k : Nat) : decide ((1 + k) % 2 = 1) = !decide (k % 2 = 1) := by
  rcases Nat.mod_two_eq_zero_or_one k with h | h
  · simp [Nat.add_mod, h]
  · simp [Nat.add_mod, h]

namespace Screen

/-- The screen after strokes, one after the other. Also tells whether a lit pixel went dark. -/
def drawAll (screen : Screen) : List Stroke → Screen × Bool
  | [] => (screen, false)
  | s :: rest =>
    let (drawn, erased) := screen.drawRow s.x s.y s.byte
    let (finished, erasedLater) := drawn.drawAll rest
    (finished, erased || erasedLater)

variable (screen : Screen)

/-! ## One stroke -/

/-- A stroke flips the pixels that it hits, and no other. -/
theorem lit_drawRow (s : Stroke) (c : Fin 64) (r : Fin 32) :
    (screen.drawRow s.x s.y s.byte).1.frame.lit c r = (screen.frame.lit c r ^^ s.hits c r) := by
  rw [s.hits_eq]
  exact screen.frame.lit_drawRow s.x s.y s.byte c r

/-- A stroke reports a lit pixel that it hits. -/
theorem drawRow_snd_iff (s : Stroke) :
    (screen.drawRow s.x s.y s.byte).2 = true ↔
      ∃ c r, screen.frame.lit c r = true ∧ s.hits c r = true := by
  refine (screen.frame.drawRow_snd_iff s.x s.y s.byte).trans ⟨?_, ?_⟩
  · rintro ⟨c, hlit, hcovers⟩
    refine ⟨c, _, hlit, ?_⟩
    rw [s.hits_eq, hcovers, decide_eq_true rfl]
    rfl
  · rintro ⟨c, r, hlit, hhits⟩
    rw [s.hits_eq] at hhits
    obtain ⟨hrow, hcovers⟩ := Bool.and_eq_true_iff.1 hhits
    exact ⟨c, of_decide_eq_true hrow ▸ hlit, hcovers⟩

/-! ## Many strokes -/

/-- Strokes flip a pixel once for each that hits it. -/
theorem lit_drawAll (strokes : List Stroke) (c : Fin 64) (r : Fin 32) :
    (screen.drawAll strokes).1.frame.lit c r =
      (screen.frame.lit c r ^^ decide (strokes.countP (·.hits c r) % 2 = 1)) := by
  induction strokes generalizing screen with
  | nil => exact (Bool.xor_false _).symm
  | cons s rest ih =>
    have hcount : decide ((s :: rest).countP (·.hits c r) % 2 = 1) =
        (s.hits c r ^^ decide (rest.countP (·.hits c r) % 2 = 1)) := by
      rw [List.countP_cons, Nat.add_comm]
      cases s.hits c r with
      | false => simp
      | true => rw [if_pos rfl, decide_one_add_odd, Bool.true_xor]
    simp only [drawAll]
    rw [ih, lit_drawRow, hcount, Bool.xor_assoc]

/-- Strokes report a lit pixel going dark if some pixel is hit, and was lit before or is hit
twice. -/
theorem drawAll_snd_iff (strokes : List Stroke) :
    (screen.drawAll strokes).2 = true ↔
      ∃ c r, 2 ≤ (screen.frame.lit c r).toNat + strokes.countP (·.hits c r) := by
  induction strokes generalizing screen with
  | nil =>
    refine ⟨fun h => (nomatch h), ?_⟩
    rintro ⟨c, r, hle⟩
    have hlit := Bool.toNat_le (screen.frame.lit c r)
    rw [List.countP_nil] at hle
    omega
  | cons s rest ih =>
    -- At each pixel: what the first stroke erases, and what the others do to what it leaves.
    have hpixel : ∀ c r, 2 ≤ (screen.frame.lit c r).toNat + (s :: rest).countP (·.hits c r) ↔
        (screen.frame.lit c r = true ∧ s.hits c r = true) ∨
          2 ≤ (screen.frame.lit c r ^^ s.hits c r).toNat + rest.countP (·.hits c r) := by
      intro c r
      simp only [List.countP_cons]
      generalize rest.countP (·.hits c r) = later
      cases screen.frame.lit c r <;> cases s.hits c r <;> simp <;> omega
    simp only [drawAll, Bool.or_eq_true, hpixel, exists_or]
    rw [ih, drawRow_snd_iff]
    simp only [lit_drawRow]

/-- The frame that strokes leave does not depend on their order. -/
theorem frame_drawAll_of_perm {strokes strokes' : List Stroke} (h : strokes.Perm strokes') :
    (screen.drawAll strokes).1.frame = (screen.drawAll strokes').1.frame := by
  ext c r
  rw [lit_drawAll, lit_drawAll, h.countP_eq]

/-- Two equal strokes undo each other, whatever is drawn before, between and after them. -/
theorem frame_drawAll_of_pair (s : Stroke) (before between after : List Stroke) :
    (screen.drawAll (before ++ s :: between ++ s :: after)).1.frame =
      (screen.drawAll (before ++ between ++ after)).1.frame := by
  ext c r
  have hcount : (before ++ s :: between ++ s :: after).countP (·.hits c r) % 2 =
      (before ++ between ++ after).countP (·.hits c r) % 2 := by
    simp only [List.countP_append, List.countP_cons]
    omega
  rw [lit_drawAll, lit_drawAll, hcount]

end Screen

end Chip8VM
