import Chip8VM.Proofs.Sprites
import Chip8VM.Proofs.StrictScreen

/-!
# The eight pixels of a row

A byte that is drawn from a column on lies over eight columns of one row, `Frame.columnOf` for each
place in the byte. They are eight different ones (`Frame.columnOf_injective`), so no bit meets what
another has written, and flipping the bits one after the other is flipping them at once.

Columns and rows are words of 64 bits and wrap around the edges of the frame. The number of a column
is a sum that may itself go past the largest word. It does no harm, since the width of the frame
divides the number of words: `Strict.drawRowAround` draws bit by bit with sums that wrap, and gives
what is drawn at the remainders of column and row (`Strict.drawRowAround_eq`).
`row_flips_eight_pixels` puts this together.
-/

namespace Chip8VM

/-! ## Eight columns -/

namespace Frame

/-- The column under a place in a byte that is drawn from column `x` on. -/
def columnOf (x : UInt64) (b : Fin 8) : Fin 64 :=
  ⟨(x.toNat % 64 + b.val) % 64, Nat.mod_lt _ (Nat.succ_pos 63)⟩

theorem val_columnOf (x : UInt64) (b : Fin 8) : (columnOf x b).val = (x.toNat + b.val) % 64 :=
  Nat.mod_add_mod x.toNat 64 b.val

/-- No two places of a byte lie over one column. -/
theorem columnOf_injective (x : UInt64) : Function.Injective (columnOf x) := by
  intro a b h
  have hval : (x.toNat + a.val) % 64 = (x.toNat + b.val) % 64 := by
    rw [← val_columnOf, ← val_columnOf, h]
  have ha := a.isLt
  have hb := b.isLt
  exact Fin.ext (by omega)

/-- A byte covers the columns under its set bits. -/
theorem covers_iff_exists_columnOf (x : UInt64) (byte : UInt8) (c : Fin 64) :
    covers x byte c = true ↔
      ∃ b : Fin 8, c = columnOf x b ∧ byte.toNat.testBit (7 - b.val) = true := by
  rw [covers_iff]
  constructor
  · rintro ⟨b, hb, hc, hset⟩
    exact ⟨⟨b, hb⟩, Fin.ext (hc.trans (val_columnOf x ⟨b, hb⟩).symm), hset⟩
  · rintro ⟨b, rfl, hset⟩
    exact ⟨b.val, b.isLt, val_columnOf x b, hset⟩

/-- Over the column under a place in the byte it is the bit at this place that counts. -/
theorem covers_columnOf (x : UInt64) (byte : UInt8) (b : Fin 8) :
    covers x byte (columnOf x b) = byte.toNat.testBit (7 - b.val) := by
  rw [Bool.eq_iff_iff, covers_iff_exists_columnOf]
  constructor
  · rintro ⟨a, hsame, hset⟩
    rwa [columnOf_injective x hsame]
  · intro hset
    exact ⟨b, rfl, hset⟩

/-- A byte is drawn at the remainders of its column and row. -/
theorem drawRow_mod (f : Frame) (x y : UInt64) (byte : UInt8) :
    f.drawRow (x % 64) (y % 32) byte = f.drawRow x y byte := by
  have hcolumn : (x % 64).toNat % 64 = x.toNat % 64 := Nat.mod_mod x.toNat 64
  have hrow : Fin.ofNat 32 (y % 32).toNat = Fin.ofNat 32 y.toNat :=
    Fin.ext (Nat.mod_mod y.toNat 32)
  simp only [drawRow, rowMask, hcolumn, hrow]

end Frame

/-! ## Sums that wrap -/

namespace Strict

/-- Draws one bit of a byte, as `drawBit` does, but with the column as a sum of words that may go
past the largest. -/
def drawBitAround (x : UInt64) (y : Nat) (byte : UInt8) (drawn : Levels × Bool) (bit : Nat) :
    Option (Levels × Bool) := do
  let column := ((x + UInt64.ofNat bit) % 64).toNat
  let shift ← less 7 bit
  let row ← drawn.1[y]?
  let before ← row[column]?
  let after := before ^^^ (byte >>> UInt8.ofNat shift &&& 1)
  let levels ← put drawn.1 y (← put row column after)
  return (levels, drawn.2 || (before == 1 && after == 0))

/-- Draws a byte bit by bit, at a column and a row of any size. -/
def drawRowAround (levels : Levels) (x y : UInt64) (byte : UInt8) : Option (Levels × Bool) :=
  (List.range 8).foldlM (drawBitAround x (y % 32).toNat byte) (levels, false)

/-- A sum of words has the same remainder as the sum of their remainders. -/
theorem toNat_add_mod_width (x : UInt64) {bit : Nat} (hbit : bit < 8) :
    ((x + UInt64.ofNat bit) % 64).toNat = ((x % 64).toNat + bit) % 64 := by
  have hmod : (x % 64).toNat = x.toNat % 64 := UInt64.toNat_mod x 64
  have hofNat : (UInt64.ofNat bit).toNat = bit :=
    UInt64.toNat_ofNat_of_lt' (Nat.lt_trans hbit (by decide))
  rw [UInt64.toNat_mod, UInt64.toNat_add, hofNat, hmod, show (64 : UInt64).toNat = 64 from rfl]
  omega

theorem drawBitAround_eq (x : UInt64) (y : Nat) (byte : UInt8) (drawn : Levels × Bool) {bit : Nat}
    (hbit : bit < 8) :
    drawBitAround x y byte drawn bit = drawBit (x % 64).toNat y byte drawn bit := by
  have hlt : (x % 64).toNat < 64 := Nat.mod_lt x.toNat (by decide)
  simp only [drawBitAround, drawBit, toNat_add_mod_width x hbit,
    fit_eq (show (x % 64).toNat + bit < 2 ^ 64 by omega), Option.bind_eq_bind, Option.bind_some]

/-- Folds agree whose steps agree on the elements of the list. -/
theorem foldlM_congr {σ α : Type} {step step' : σ → α → Option σ} {l : List α}
    (h : ∀ a ∈ l, ∀ s, step s a = step' s a) (s : σ) : l.foldlM step s = l.foldlM step' s := by
  induction l generalizing s with
  | nil => rfl
  | cons a rest ih =>
    obtain ⟨hfirst, hrest⟩ := List.forall_mem_cons.1 h
    rw [List.foldlM_cons, List.foldlM_cons, hfirst]
    exact congrArg _ (funext fun s' => ih hrest s')

/-- Drawing bit by bit draws the row, also where the number of a column goes past the largest
word. -/
theorem drawRowAround_eq (f : Frame) (x y : UInt64) (byte : UInt8) :
    drawRowAround f.levels x y byte =
      some ((f.drawRow x y byte).1.levels, (f.drawRow x y byte).2) := by
  have hx : (x % 64).toNat + 8 ≤ 2 ^ 64 := by
    have hlt : (x % 64).toNat < 64 := Nat.mod_lt x.toNat (by decide)
    omega
  have hrow : (y % 32).toNat % 32 = (y % 32).toNat := Nat.mod_mod y.toNat 32
  rw [← f.drawRow_mod, ← drawRow_eq f hx, drawRow, hrow]
  exact foldlM_congr (fun bit hbit drawn =>
    drawBitAround_eq x _ byte drawn (List.mem_range.1 hbit)) _

end Strict

/-! ## One row -/

namespace Screen

/-- Drawing a byte touches one row of the frame, and eight different columns in it, whatever words
the column and the row are. The pixel under each place of the byte is flipped if the bit at this
place is set, and all other pixels stay as they are. The screen is to be shown again, and a lit
pixel is reported if one lies under a set bit. The same is drawn at the remainders of column and
row, and the same bit by bit, where the columns are sums that may go past the largest word. -/
theorem row_flips_eight_pixels (screen : Screen) (x y : UInt64) (byte : UInt8) :
    let drawn := screen.drawRow x y byte
    let row : Fin 32 := Fin.ofNat 32 y.toNat
    let column : Fin 8 → Fin 64 := Frame.columnOf x
    let bit : Fin 8 → Bool := fun b => byte.toNat.testBit (7 - b.val)
    column.Injective ∧
      (∀ b, drawn.1.frame.lit (column b) row = (screen.frame.lit (column b) row ^^ bit b)) ∧
      (∀ c r, (r = row → ∀ b, c ≠ column b) →
        drawn.1.frame.lit c r = screen.frame.lit c r) ∧
      drawn.1.redraw = true ∧
      (drawn.2 = true ↔ ∃ b, screen.frame.lit (column b) row = true ∧ bit b = true) ∧
      screen.drawRow (x % 64) (y % 32) byte = drawn ∧
      Strict.drawRowAround screen.frame.levels x y byte = some (drawn.1.frame.levels, drawn.2) := by
  intro drawn row column bit
  have hlit : ∀ c r, drawn.1.frame.lit c r =
      (screen.frame.lit c r ^^ (decide (r = row) && Frame.covers x byte c)) :=
    fun c r => screen.frame.lit_drawRow x y byte c r
  refine ⟨Frame.columnOf_injective x, fun b => ?_, fun c r hout => ?_, rfl, ?_, ?_,
    Strict.drawRowAround_eq screen.frame x y byte⟩
  · rw [hlit, Frame.covers_columnOf, decide_eq_true rfl, Bool.true_and]
  · have huntouched : (decide (r = row) && Frame.covers x byte c) = false := by
      rw [Bool.eq_false_iff, ne_eq, Bool.and_eq_true_iff, decide_eq_true_iff,
        Frame.covers_iff_exists_columnOf]
      rintro ⟨hrow, b, hc, -⟩
      exact hout hrow b hc
    rw [hlit, huntouched, Bool.xor_false]
  · refine (screen.frame.drawRow_snd_iff x y byte).trans ?_
    simp only [Frame.covers_iff_exists_columnOf]
    constructor
    · rintro ⟨c, hlit, b, rfl, hset⟩
      exact ⟨b, hlit, hset⟩
    · rintro ⟨b, hlit, hset⟩
      exact ⟨column b, hlit, b, rfl, hset⟩
  · rw [drawRow, Frame.drawRow_mod]
    rfl

/-- Eight lit pixels around the right edge, the last five of which lie in columns whose number went
past the largest word. -/
theorem row_flips_eight_pixels_past_largest_word :
    let drawn := (powerOn.drawRow 0xFFFFFFFFFFFFFFFD 0xFFFFFFFFFFFFFFFF 0xFF).1.frame
    (∀ b, drawn.lit (Frame.columnOf 0xFFFFFFFFFFFFFFFD b) 31 = true) ∧
      Frame.columnOf 0xFFFFFFFFFFFFFFFD 2 = 63 ∧ Frame.columnOf 0xFFFFFFFFFFFFFFFD 7 = 4 ∧
      drawn.lit 5 31 = false := by
  obtain ⟨-, hflip, hout, -⟩ :=
    powerOn.row_flips_eight_pixels 0xFFFFFFFFFFFFFFFD 0xFFFFFFFFFFFFFFFF 0xFF
  refine ⟨fun b => (hflip b).trans ?_, by decide, by decide, (hout 5 31 fun _ => ?_).trans ?_⟩
  · revert b
    decide
  · decide
  · decide

end Screen

end Chip8VM
