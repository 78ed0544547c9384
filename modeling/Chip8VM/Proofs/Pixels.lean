import Chip8VM.Screen
import Mathlib

/-!
# Drawing, pixel by pixel

A byte drawn in column `x` lies over eight columns. `bitOver` is the place in the byte
that lies over a column, counted from the highest bit, and `covers` tells whether the byte
has a set bit there. Drawing a byte flips the pixels of one row that it covers and no
other (`lit_drawRow`), and reports whether one of them was lit (`drawRow_snd_iff`).
-/

namespace Chip8VM

namespace Frame

/-! ## Columns under a byte -/

/-- The place in a byte drawn in column `x` that lies over column `c`, from eight on when
none does. -/
def bitOver (x : UInt64) (c : Fin 64) : Nat := (c.val + (64 - x.toNat % 64)) % 64

/-- Whether a byte drawn in column `x` has a set bit over column `c`. -/
def covers (x : UInt64) (byte : UInt8) (c : Fin 64) : Bool := byte.toBitVec.getMsbD (bitOver x c)

/-- The places in a byte are counted from the highest bit. -/
theorem getMsbD_eq_testBit (byte : UInt8) {b : Nat} (hb : b < 8) :
    byte.toBitVec.getMsbD b = byte.toNat.testBit (7 - b) := by
  rw [BitVec.getMsbD, BitVec.getLsbD, decide_eq_true hb, Bool.true_and]
  rfl

/-- Place `b` of a byte lies over the column that is `b` to the right of the first, where
columns wrap around the edge. -/
theorem bitOver_eq_iff (x : UInt64) (c : Fin 64) {b : Nat} (hb : b < 64) :
    bitOver x c = b ↔ c.val = (x.toNat + b) % 64 := by
  have hc := c.isLt
  unfold bitOver
  omega

/-- The mask of a byte has exactly the columns that the byte covers. -/
theorem getMsbD_rowMask (x : UInt64) (byte : UInt8) (c : Fin 64) :
    (rowMask x byte).getMsbD c = covers x byte c := by
  have hc := c.isLt
  have hx : x.toNat % 64 < 64 := Nat.mod_lt _ (Nat.succ_pos _)
  -- Before it is turned, the mask has the byte in its first eight columns.
  have hstart : ∀ k < 64,
      (byte.toBitVec.setWidth 64 <<< 56).getMsbD k = byte.toBitVec.getMsbD k := by
    intro k hk
    simp [BitVec.getMsbD_shiftLeft, BitVec.getMsbD_setWidth]
  unfold rowMask covers bitOver
  rw [BitVec.getMsbD_rotateRight, Nat.mod_mod]
  by_cases hlt : c.val < x.toNat % 64
  · rw [if_pos hlt, hstart _ (Nat.mod_lt _ (Nat.succ_pos _))]
    simp [hc]
    congr 1
    omega
  · rw [if_neg hlt, hstart _ (by omega)]
    simp [hc]
    congr 1
    omega

/-- A word is not zero if it has a set bit. -/
theorem ne_zero_iff_exists_getMsbD {w : Nat} (v : BitVec w) :
    v ≠ 0#w ↔ ∃ k : Fin w, v.getMsbD k = true := by
  constructor
  · intro hv
    refine Classical.byContradiction fun hno => hv (BitVec.eq_of_getMsbD_eq fun k hk => ?_)
    have hk' : ¬v.getMsbD k = true := fun h => hno ⟨⟨k, hk⟩, h⟩
    simpa using hk'
  · rintro ⟨k, hk⟩ rfl
    simp at hk

/-- A byte covers some column unless it is zero. -/
theorem exists_covers_iff (x : UInt64) (byte : UInt8) :
    (∃ c, covers x byte c = true) ↔ byte ≠ 0 := by
  have hbyte : byte ≠ 0 ↔ byte.toBitVec ≠ 0#8 := not_congr (UInt8.toBitVec_inj (b := 0)).symm
  rw [hbyte, ne_zero_iff_exists_getMsbD]
  constructor
  · rintro ⟨c, hc⟩
    exact ⟨⟨bitOver x c, BitVec.lt_of_getMsbD hc⟩, hc⟩
  · rintro ⟨k, hk⟩
    refine ⟨Fin.ofNat 64 (x.toNat + k), ?_⟩
    rw [covers, (bitOver_eq_iff x _ (show k.val < 64 by omega)).2 rfl]
    exact hk

/-! ## One row -/

/-- Drawing a byte flips the pixels that it covers in its row, and no other. -/
theorem lit_drawRow (f : Frame) (x y : UInt64) (byte : UInt8) (c : Fin 64) (r : Fin 32) :
    (f.drawRow x y byte).1.lit c r =
      (f.lit c r ^^ (decide (r = Fin.ofNat 32 y.toNat) && covers x byte c)) := by
  unfold lit row drawRow
  by_cases hr : r = Fin.ofNat 32 y.toNat
  · subst hr
    simp [BitVec.getMsbD_xor, getMsbD_rowMask, row]
  · have hne : y.toNat % 32 ≠ r.val := fun h => hr (Fin.ext h.symm)
    rw [decide_eq_false hr, Bool.false_and, Bool.xor_false]
    simp [hne]

/-- Drawing a byte reports a pixel that was lit where the byte has a set bit. -/
theorem drawRow_snd_iff (f : Frame) (x y : UInt64) (byte : UInt8) :
    (f.drawRow x y byte).2 = true ↔
      ∃ c, f.lit c (Fin.ofNat 32 y.toNat) = true ∧ covers x byte c = true := by
  unfold drawRow
  simp only [bne_iff_ne]
  refine (ne_zero_iff_exists_getMsbD _).trans ?_
  simp only [BitVec.getMsbD_and, getMsbD_rowMask, Bool.and_eq_true]
  rfl

end Frame

/-! ## Frames as bytes -/

/-- A picture of one byte for each pixel, row by row. -/
abbrev Levels := Vector (Vector UInt8 64) 32

namespace Levels

/-- The bytes of pixels: one where a pixel is lit, and zero elsewhere. -/
def ofLit (lit : Fin 64 → Fin 32 → Bool) : Levels :=
  Vector.ofFn fun r => Vector.ofFn fun c => if lit c r then 1 else 0

@[simp] theorem getElem_ofLit (lit : Fin 64 → Fin 32 → Bool) {c r : Nat} (hc : c < 64)
    (hr : r < 32) : (ofLit lit)[r][c] = if lit ⟨c, hc⟩ ⟨r, hr⟩ then 1 else 0 := by
  simp [ofLit]

end Levels

namespace Frame

/-- The frame as bytes. -/
def levels (f : Frame) : Levels := .ofLit f.lit

/-- The frame that bytes are a picture of, if every one of them is zero or one. -/
def ofLevels? (levels : Levels) : Option Frame :=
  if ∀ (r : Fin 32) (c : Fin 64), (levels.get r).get c = 0 ∨ (levels.get r).get c = 1 then
    some ⟨levels.map fun line => (BitVec.ofBoolListBE (line.toList.map (· == 1))).setWidth 64⟩
  else none

/-- The bytes of a frame make it up again. -/
theorem ofLevels?_levels (f : Frame) : ofLevels? f.levels = some f := by
  unfold ofLevels? levels
  rw [if_pos fun r c => ?_]
  · refine congrArg some (Frame.ext fun c r => ?_)
    cases h : f.lit c r <;> simp_all [lit, row]
  · have hget : ((Levels.ofLit f.lit).get r).get c = if f.lit c r then 1 else 0 :=
      Levels.getElem_ofLit f.lit c.isLt r.isLt
    rw [hget]
    split
    · exact Or.inr rfl
    · exact Or.inl rfl

end Frame

end Chip8VM
