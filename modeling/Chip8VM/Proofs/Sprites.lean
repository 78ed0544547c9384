import Chip8VM.Guest.Execute
import Chip8VM.Proofs.Strokes

/-!
# Drawing sprites

The rows of a sprite are strokes, one below the other (`Stroke.ofSprite`), and a sprite is drawn
by drawing them. `Frame.strikes` counts those that have a set bit over a pixel: the pixel is
flipped once for each of them (`Screen.lit_drawSprite`), and a lit pixel goes dark if one is
struck that was lit, or is struck twice (`Screen.drawSprite_snd_iff`).

A row has no two bits over one pixel, so the rows that strike a pixel are as many as the set bits
over it (`Frame.strikes_eq_card`). A sprite of at most 32 rows does not come around to where it
began, so then one row at most lies over a pixel (`Frame.strikes_eq`).
-/

namespace Chip8VM

namespace Frame

/-- How many rows of a sprite, drawn from row `y` down, have a set bit over a pixel. -/
def strikes (x y : UInt64) (c : Fin 64) (r : Fin 32) : List UInt8 → Nat
  | [] => 0
  | byte :: rest =>
    (if r.val = y.toNat % 32 ∧ covers x byte c = true then 1 else 0)
      + strikes x (y + 1) c r rest

/-- A byte has a set bit over a column if one of its eight bits is set and lies there. -/
theorem covers_iff (x : UInt64) (byte : UInt8) (c : Fin 64) :
    covers x byte c = true ↔
      ∃ b < 8, c.val = (x.toNat + b) % 64 ∧ byte.toNat.testBit (7 - b) = true := by
  unfold covers
  constructor
  · intro h
    have hlt : bitOver x c < 8 := BitVec.lt_of_getMsbD h
    refine ⟨bitOver x c, hlt, ?_, ?_⟩
    · exact (bitOver_eq_iff x c (by omega)).1 rfl
    · rw [← getMsbD_eq_testBit byte hlt]
      exact h
  · rintro ⟨b, hb, hc, hset⟩
    rw [(bitOver_eq_iff x c (by omega)).2 hc, getMsbD_eq_testBit byte hb]
    exact hset

/-! ## Counting what lies over a pixel -/

/-- The row below wraps around the bottom edge, whether or not its number wraps. -/
theorem toNat_add_one_mod (y : UInt64) : (y + 1).toNat % 32 = (y.toNat + 1) % 32 := by
  rw [UInt64.toNat_add, show (1 : UInt64).toNat = 1 from rfl]
  omega

/-- A count of numbers that are all the same one is one or zero. -/
theorem sum_range_eq_ite {n : Nat} {P : Nat → Prop} [DecidablePred P]
    (hunique : ∀ a < n, ∀ b < n, P a → P b → a = b) :
    (∑ k ∈ Finset.range n, if P k then 1 else 0) = if ∃ k < n, P k then 1 else 0 := by
  by_cases h : ∃ k < n, P k
  · obtain ⟨a, ha, hpa⟩ := h
    have hother : ∀ b ∈ Finset.range n, b ≠ a → (if P b then 1 else 0) = 0 :=
      fun b hb hne => if_neg fun hpb => hne (hunique b (Finset.mem_range.1 hb) a ha hpb hpa)
    rw [if_pos ⟨a, ha, hpa⟩, Finset.sum_eq_single_of_mem a (Finset.mem_range.2 ha) hother,
      if_pos hpa]
  · rw [if_neg h]
    exact Finset.sum_eq_zero fun k hk => if_neg fun hp => h ⟨k, Finset.mem_range.1 hk, hp⟩

/-- The rows that strike a pixel, each with its place in the sprite. -/
theorem strikes_eq_sum (x y : UInt64) (c : Fin 64) (r : Fin 32) (sprite : List UInt8) :
    strikes x y c r sprite = ∑ k ∈ Finset.range sprite.length,
      if r.val = (y.toNat + k) % 32 ∧ covers x (sprite.getD k 0) c = true then 1 else 0 := by
  induction sprite generalizing y with
  | nil => rfl
  | cons byte rest ih =>
    have hnext := toNat_add_one_mod y
    have hbelow : ∀ k, ((y + 1).toNat + k) % 32 = (y.toNat + (k + 1)) % 32 := by
      intro k
      omega
    rw [strikes, ih, List.length_cons, Finset.sum_range_succ', Nat.add_comm]
    simp only [hbelow, List.getD_cons_succ, List.getD_cons_zero, Nat.add_zero]

/-- At most one row of a sprite that is no higher than the frame lies over a pixel. -/
theorem strikes_eq (x : UInt64) (c : Fin 64) (r : Fin 32) {sprite : List UInt8}
    (hlen : sprite.length ≤ 32) (y : UInt64) :
    strikes x y c r sprite =
      if ∃ k < sprite.length, r.val = (y.toNat + k) % 32 ∧
        covers x (sprite.getD k 0) c = true then 1 else 0 := by
  rw [strikes_eq_sum]
  refine sum_range_eq_ite fun a ha b hb hrow hrow' => ?_
  have hsame := hrow.1.symm.trans hrow'.1
  omega

/-- The set bits over a pixel of a sprite that is drawn at a column and a row, as pairs of a row
of the sprite and a place in it, counted from the highest bit. -/
def bitsOver (column row height : Nat) (bytes : Nat → UInt8) (c : Fin 64) (r : Fin 32) :
    Finset (Nat × Nat) :=
  (Finset.range height ×ˢ Finset.range 8).filter fun p =>
    (bytes p.1).toNat.testBit (7 - p.2) = true ∧ (column + p.2) % 64 = c.val ∧
      (row + p.1) % 32 = r.val

/-- A row strikes a pixel with one bit. -/
theorem sum_bits_eq_ite (x : UInt64) (row : Nat) (byte : UInt8) (c : Fin 64) (r : Fin 32) :
    (∑ b ∈ Finset.range 8, if byte.toNat.testBit (7 - b) = true ∧ (x.toNat + b) % 64 = c.val ∧
      row % 32 = r.val then 1 else 0) =
      if r.val = row % 32 ∧ covers x byte c = true then 1 else 0 := by
  rw [sum_range_eq_ite fun a ha b hb hbit hbit' => by omega]
  refine if_congr ?_ rfl rfl
  rw [covers_iff]
  constructor
  · rintro ⟨b, hb, hset, hcolumn, hrow⟩
    exact ⟨hrow.symm, b, hb, hcolumn.symm, hset⟩
  · rintro ⟨hrow, b, hb, hcolumn, hset⟩
    exact ⟨b, hb, hset, hcolumn.symm, hrow.symm⟩

/-- As many rows strike a pixel as there are set bits over it. -/
theorem strikes_eq_card (x y : UInt64) (c : Fin 64) (r : Fin 32) (sprite : List UInt8) :
    strikes x y c r sprite =
      (bitsOver x.toNat y.toNat sprite.length (sprite.getD · 0) c r).card := by
  rw [bitsOver, Finset.card_filter, Finset.sum_product, strikes_eq_sum]
  exact Finset.sum_congr rfl fun k _ => (sum_bits_eq_ite x _ _ c r).symm

end Frame

/-! ## Sprites as strokes -/

/-- The rows of a sprite, one below the other from row `y` on. -/
def Stroke.ofSprite (x y : UInt64) : List UInt8 → List Stroke
  | [] => []
  | byte :: rest => ⟨x, y, byte⟩ :: ofSprite x (y + 1) rest

theorem Stroke.countP_ofSprite (x y : UInt64) (c : Fin 64) (r : Fin 32) (sprite : List UInt8) :
    (ofSprite x y sprite).countP (·.hits c r) = Frame.strikes x y c r sprite := by
  induction sprite generalizing y with
  | nil => rfl
  | cons byte rest ih =>
    rw [ofSprite, List.countP_cons, ih, Frame.strikes, Nat.add_comm]
    refine congrArg (· + _) (if_congr ?_ rfl rfl)
    rw [hits, Bool.and_eq_true_iff, decide_eq_true_iff]

namespace Screen

variable (screen : Screen) (x y : UInt64) (sprite : List UInt8)

/-- A sprite is drawn by drawing its rows. -/
theorem drawSprite_eq_drawAll :
    screen.drawSprite x y sprite = screen.drawAll (Stroke.ofSprite x y sprite) := by
  induction sprite generalizing screen y with
  | nil => rfl
  | cons byte rest ih => simp only [drawSprite, Stroke.ofSprite, drawAll, ih]

/-- Drawing a sprite flips a pixel once for each row that has a set bit over it. -/
theorem lit_drawSprite (c : Fin 64) (r : Fin 32) :
    (screen.drawSprite x y sprite).1.frame.lit c r =
      (screen.frame.lit c r ^^ decide (Frame.strikes x y c r sprite % 2 = 1)) := by
  rw [drawSprite_eq_drawAll, lit_drawAll, Stroke.countP_ofSprite]

/-- Drawing a sprite reports a lit pixel going dark if some pixel is struck, and was lit before
or is struck twice. -/
theorem drawSprite_snd_iff :
    (screen.drawSprite x y sprite).2 = true ↔
      ∃ c r, 2 ≤ (screen.frame.lit c r).toNat + Frame.strikes x y c r sprite := by
  simp only [drawSprite_eq_drawAll, drawAll_snd_iff, Stroke.countP_ofSprite]

end Screen

end Chip8VM
