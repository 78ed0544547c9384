import Chip8VM.Proofs.Execution
import Chip8VM.Proofs.Registers
import Chip8VM.Proofs.Sprites

/-!
# What a draw instruction does

The instruction `draw` reads the rows of a sprite at the index register, and the column and the
row for it from two registers. `Guest.spriteBits` are the set bits of that sprite over a pixel,
read off memory and the registers. Their number says all (`draw_flips_and_collides`): a pixel is
flipped if it is odd, and the flag tells whether some pixel was lit and has one over it, or has
two. A sprite that is no higher than the frame has at most one bit over a pixel, so then the flag
tells whether it meets a lit pixel.

Drawing is an exclusive or, so it commutes and cancels: `drawing_commutes_and_cancels` says this
of rows, in lists of any length, and of the instruction when it is executed twice. The instruction
has to read its coordinates from other registers than the flag, which it writes.
-/

namespace Chip8VM

/-! ## The sprite at the index register -/

theorem Memory.getD_window (m : Memory) (start : Nat) {count k : Nat} (h : k < count) :
    (m.window start count).getD k 0 = m.byteAt (start + k) := by
  rw [List.getD_eq_getElem?_getD, getElem?_window m start h, Option.getD_some]

/-- The bits over a pixel are those of the rows that are drawn. -/
theorem Frame.bitsOver_congr {column row height : Nat} {bytes bytes' : Nat → UInt8} {c : Fin 64}
    {r : Fin 32} (h : ∀ k < height, bytes k = bytes' k) :
    bitsOver column row height bytes c r = bitsOver column row height bytes' c r := by
  refine Finset.filter_congr fun p hp => ?_
  rw [h p.1 (Finset.mem_range.1 (Finset.mem_product.1 hp).1)]

namespace Guest

variable (g : Guest) (x y : UInt64) (n : UInt8)

/-- The rows that an instruction `draw` of this height draws. -/
def sprite : List UInt8 := g.memory.window g.processor.i.toNat n.toNat

/-- The set bits over a pixel that an instruction `draw` draws to column `Vx` of row `Vy`, as
pairs of a row of the sprite and a place in it. -/
def spriteBits (c : Fin 64) (r : Fin 32) : Finset (Nat × Nat) :=
  Frame.bitsOver (g.register x).toNat (g.register y).toNat n.toNat
    (fun k => g.memory.byteAt (g.processor.i.toNat + k)) c r

theorem strikes_sprite (c : Fin 64) (r : Fin 32) :
    Frame.strikes (g.register x).toUInt64 (g.register y).toUInt64 c r (g.sprite n) =
      (g.spriteBits x y n c r).card := by
  rw [Frame.strikes_eq_card, sprite, Memory.length_window, UInt8.toNat_toUInt64,
    UInt8.toNat_toUInt64]
  exact congrArg Finset.card (Frame.bitsOver_congr fun k hk => g.memory.getD_window _ hk)

/-- A sprite that is no higher than the frame has at most one bit over a pixel. -/
theorem card_spriteBits_le_one {n : UInt8} (hn : n.toNat ≤ 32) (c : Fin 64) (r : Fin 32) :
    (g.spriteBits x y n c r).card ≤ 1 := by
  have hlen : (g.sprite n).length ≤ 32 := by rwa [sprite, Memory.length_window]
  rw [← strikes_sprite, Frame.strikes_eq _ _ _ hlen]
  split <;> omega

/-- What makes the sprite of an instruction `draw` collide: a lit pixel under one of its bits, or
a pixel under two of them. -/
def Collides (x y : UInt64) (n : UInt8) : Prop :=
  ∃ c r, 2 ≤ (g.screen.frame.lit c r).toNat + (g.spriteBits x y n c r).card

instance : Decidable (g.Collides x y n) := inferInstanceAs (Decidable (∃ _ _, _))

/-- A sprite that is no higher than the frame collides with lit pixels only. -/
theorem collides_iff {n : UInt8} (hn : n.toNat ≤ 32) :
    g.Collides x y n ↔
      ∃ c r, g.screen.frame.lit c r = true ∧ (g.spriteBits x y n c r).Nonempty := by
  refine exists_congr fun c => exists_congr fun r => ?_
  have hle := g.card_spriteBits_le_one x y hn c r
  rw [← Finset.card_pos]
  generalize (g.spriteBits x y n c r).card = k at hle ⊢
  cases g.screen.frame.lit c r <;> simp <;> omega

/-- Drawing the sprite writes the flag register and no other. -/
theorem get_drawSprite (r : Register) :
    (g.drawSprite x y (g.sprite n)).processor.v.get r =
      if r = .flag then (if g.Collides x y n then 1 else 0) else g.processor.v.get r := by
  refine (g.processor.get_setFlag r _).trans (if_congr Iff.rfl (if_congr ?_ rfl rfl) rfl)
  simp only [Screen.drawSprite_snd_iff, strikes_sprite]
  exact Iff.rfl

end Guest

namespace Instruction

/-- An instruction whose sprite lies in memory draws it. -/
theorem execute_draw {g : Guest} {n : UInt8} (h : g.processor.i.toNat + n.toNat ≤ 4096)
    (x y : UInt64) : (draw x y n).execute g = (.ok (), g.drawSprite x y (g.sprite n)) := by
  have hslice : g.memory.slice g.processor.i.toUInt64 n.toUInt64 = .ok (g.sprite n) := by
    rw [Memory.slice_eq, UInt16.toNat_toUInt64, UInt8.toNat_toUInt64, if_pos h]
    rfl
  simp only [execute, hslice, Guest.attempt_ok]

/-- An instruction whose sprite ends behind memory changes nothing. -/
theorem execute_draw_of_out {g : Guest} {n : UInt8} (h : ¬g.processor.i.toNat + n.toNat ≤ 4096)
    (x y : UInt64) : ((draw x y n).execute g).2 = g := by
  have hfault : ((draw x y n).execute g).1 =
      .error (.memoryOutOfBounds (max g.processor.i.toUInt64 4096)) := by
    rw [execute_fst, fault?, readFault?_eq_some_iff.2 ⟨Nat.not_le.1 h, rfl⟩]
    rfl
  exact execute_snd_of_error hfault

/-! ## Flips and collisions -/

/-- An instruction `draw` whose sprite lies in memory succeeds. It flips a pixel once for each set
bit of the sprite over it, and sets the flag if a lit pixel went dark on the way: one that was lit
and has a bit over it, or one that has two bits over it. The latter needs a sprite that comes
around to where it began, which one of at most 32 rows does not. Nothing else changes. -/
theorem draw_flips_and_collides (g : Guest) (x y : UInt64) (n : UInt8)
    (hrange : g.processor.i.toNat + n.toNat ≤ 4096) :
    let drawn := ((draw x y n).execute g).2
    let flips := fun c r => (g.spriteBits x y n c r).card
    ((draw x y n).execute g).1 = .ok () ∧
      (∀ c r, drawn.screen.frame.lit c r =
        (g.screen.frame.lit c r ^^ decide (flips c r % 2 = 1))) ∧
      drawn.processor.v.get Register.flag =
        (if ∃ c r, 2 ≤ (g.screen.frame.lit c r).toNat + flips c r then 1 else 0) ∧
      (n.toNat ≤ 32 → (drawn.processor.v.get Register.flag = 1 ↔
        ∃ c r, g.screen.frame.lit c r = true ∧ (g.spriteBits x y n c r).Nonempty)) ∧
      (∀ r : Register, r ≠ .flag → drawn.processor.v.get r = g.processor.v.get r) ∧
      drawn = { g with
        processor := { g.processor with v := drawn.processor.v }
        screen := drawn.screen } := by
  intro drawn flips
  have hexec := execute_draw hrange x y
  have hdrawn : drawn = g.drawSprite x y (g.sprite n) := congrArg Prod.snd hexec
  have hflag : drawn.processor.v.get Register.flag = if g.Collides x y n then 1 else 0 := by
    rw [hdrawn, g.get_drawSprite, if_pos rfl]
  refine ⟨congrArg Prod.fst hexec, fun c r => ?_, hflag, fun hn => ?_, fun r hr => ?_, ?_⟩
  · rw [hdrawn]
    refine (g.screen.lit_drawSprite _ _ _ c r).trans ?_
    rw [g.strikes_sprite]
  · rw [hflag, ← g.collides_iff x y hn]
    split
    · exact iff_of_true rfl ‹_›
    · exact iff_of_false (by decide) ‹_›
  · rw [hdrawn, g.get_drawSprite, if_neg hr]
  · rw [hdrawn]
    rfl

/-- A guest whose flag register holds a place from which sprites wrap around both edges. -/
def cornered : Guest := (Guest.powerOn (.start (Vector.replicate 8 0))).setRegister 0xF 62

/-- A sprite of 33 rows whose last row lies over its first and erases it. -/
theorem draw_flips_and_collides_of_tall_sprite :
    cornered.processor.i.toNat + 33 ≤ 4096 ∧
      cornered.spriteBits 0xF 0xF 33 62 30 = {(0, 0), (32, 0)} ∧
      let drawn := ((draw 0xF 0xF 33).execute cornered).2
      drawn.screen.frame.lit 62 30 = false ∧ drawn.processor.v.get Register.flag = 1 := by
  have hrange : cornered.processor.i.toNat + 33 ≤ 4096 := by decide
  have hdark : cornered.screen.frame.lit 62 30 = false := by decide
  have hbits : cornered.spriteBits 0xF 0xF 33 62 30 = {(0, 0), (32, 0)} := by decide +kernel
  obtain ⟨-, hlit, hflag, -⟩ := draw_flips_and_collides cornered 0xF 0xF 33 hrange
  have hcount : (cornered.spriteBits 0xF 0xF 33 62 30).card = 2 := by
    rw [hbits]
    rfl
  refine ⟨hrange, hbits, (hlit 62 30).trans ?_, hflag.trans (if_pos ⟨62, 30, ?_⟩)⟩
  · simp only [hdark, hcount]
    rfl
  · simp only [hdark, hcount]
    decide

end Instruction

/-! ## Order and repetition -/

namespace Screen

variable (screen : Screen)

/-- A sprite that is drawn twice undoes itself. -/
theorem frame_drawSprite_twice (x y : UInt64) (sprite : List UInt8) :
    ((screen.drawSprite x y sprite).1.drawSprite x y sprite).1.frame = screen.frame := by
  ext c r
  rw [lit_drawSprite, lit_drawSprite, Bool.xor_assoc, Bool.xor_self, Bool.xor_false]

/-- A stroke reports the set bits that land on lit pixels. -/
theorem drawRow_snd_iff_exists_bit (s : Stroke) :
    (screen.drawRow s.x s.y s.byte).2 = true ↔
      ∃ b < 8, s.byte.toNat.testBit (7 - b) = true ∧
        screen.frame.pixel (s.x + UInt64.ofNat b) s.y = true := by
  have hcolumn : ∀ b < 8, (s.x + UInt64.ofNat b).toNat % 64 = (s.x.toNat + b) % 64 := by
    intro b hb
    rw [UInt64.toNat_add, UInt64.toNat_ofNat_of_lt' (Nat.lt_trans hb (by decide))]
    omega
  have hpixel : ∀ b < 8, screen.frame.pixel (s.x + UInt64.ofNat b) s.y =
      screen.frame.lit (Fin.ofNat 64 (s.x.toNat + b)) (Fin.ofNat 32 s.y.toNat) :=
    fun b hb => congrArg (screen.frame.lit · _) (Fin.ext (hcolumn b hb))
  refine (screen.frame.drawRow_snd_iff s.x s.y s.byte).trans ?_
  simp only [Frame.covers_iff]
  constructor
  · rintro ⟨c, hlit, b, hb, hc, hset⟩
    obtain rfl : c = Fin.ofNat 64 (s.x.toNat + b) := Fin.ext hc
    exact ⟨b, hb, hset, (hpixel b hb).trans hlit⟩
  · rintro ⟨b, hb, hset, hlit⟩
    exact ⟨Fin.ofNat 64 (s.x.toNat + b), (hpixel b hb).symm.trans hlit, b, hb, rfl, hset⟩

/-- Of two equal strokes one erases a pixel, unless they have no set bit. -/
theorem erases_twice_iff (s : Stroke) :
    let first := screen.drawRow s.x s.y s.byte
    first.2 = true ∨ (first.1.drawRow s.x s.y s.byte).2 = true ↔ s.byte ≠ 0 := by
  intro first
  have hboth : (screen.drawAll [s, s]).2 = true ↔
      first.2 = true ∨ (first.1.drawRow s.x s.y s.byte).2 = true := by
    simp only [drawAll, Bool.or_eq_true, Bool.false_eq_true, or_false]
    exact Iff.rfl
  have hpixel : ∀ c r, 2 ≤ (screen.frame.lit c r).toNat + [s, s].countP (·.hits c r) ↔
      s.hits c r = true := by
    intro c r
    have hlit := Bool.toNat_le (screen.frame.lit c r)
    simp only [List.countP_cons, List.countP_nil]
    split <;> simp [*]
  rw [← hboth, drawAll_snd_iff]
  simp only [hpixel, s.exists_hits_iff]

end Screen

namespace Instruction

/-- An instruction `draw` that is executed twice restores the frame, if neither coordinate is in
the flag register. -/
theorem frame_draw_twice {x y : UInt64} (hx : Register.ofOperand x ≠ .flag)
    (hy : Register.ofOperand y ≠ .flag) (n : UInt8) (g : Guest) :
    ((draw x y n).execute ((draw x y n).execute g).2).2.screen.frame = g.screen.frame := by
  by_cases h : g.processor.i.toNat + n.toNat ≤ 4096
  · rw [execute_draw h]
    -- The second time the sprite is the same, and so are its coordinates.
    have hcolumn : (g.drawSprite x y (g.sprite n)).register x = g.register x :=
      (g.get_drawSprite x y n _).trans (if_neg hx)
    have hrow : (g.drawSprite x y (g.sprite n)).register y = g.register y :=
      (g.get_drawSprite x y n _).trans (if_neg hy)
    rw [execute_draw (g := g.drawSprite x y (g.sprite n)) h, Guest.drawSprite, hcolumn, hrow]
    exact g.screen.frame_drawSprite_twice _ _ _
  · rw [execute_draw_of_out h, execute_draw_of_out h]

/-- Drawing commutes and cancels. Rows that are drawn leave the same frame in every order, and the
same without two that are equal. A row that is drawn twice in succession restores the frame; the
second time reports the pixels that the first time lit, or left lit, and one of both reports some
unless the row is blank. An instruction `draw` that is executed twice restores the frame, if
neither coordinate is in the flag register. -/
theorem drawing_commutes_and_cancels :
    (∀ (screen : Screen) (strokes strokes' : List Stroke), strokes.Perm strokes' →
      (screen.drawAll strokes).1.frame = (screen.drawAll strokes').1.frame) ∧
    (∀ (screen : Screen) (s : Stroke) (before between after : List Stroke),
      (screen.drawAll (before ++ s :: between ++ s :: after)).1.frame =
        (screen.drawAll (before ++ between ++ after)).1.frame) ∧
    (∀ (screen : Screen) (s : Stroke),
      let first := screen.drawRow s.x s.y s.byte
      let second := first.1.drawRow s.x s.y s.byte
      second.1.frame = screen.frame ∧
      (second.2 = true ↔ ∃ b < 8, s.byte.toNat.testBit (7 - b) = true ∧
        first.1.frame.pixel (s.x + UInt64.ofNat b) s.y = true) ∧
      (first.2 = true ∨ second.2 = true ↔ s.byte ≠ 0)) ∧
    ∀ (g : Guest) (x y : UInt64) (n : UInt8),
      Register.ofOperand x ≠ .flag → Register.ofOperand y ≠ .flag →
      ((draw x y n).execute ((draw x y n).execute g).2).2.screen.frame = g.screen.frame := by
  refine ⟨fun screen _ _ h => screen.frame_drawAll_of_perm h,
    fun screen s before between after => screen.frame_drawAll_of_pair s before between after,
    fun screen s => ⟨?_, ?_, ?_⟩, fun g x y n hx hy => frame_draw_twice hx hy n g⟩
  · exact screen.frame_drawAll_of_pair s [] [] []
  · exact (screen.drawRow s.x s.y s.byte).1.drawRow_snd_iff_exists_bit s
  · exact screen.erases_twice_iff s

/-- Rows that overlap around a corner, in two orders, and a glyph that is drawn twice there. -/
theorem drawing_commutes_and_cancels_around_corner :
    let s : Stroke := ⟨62, 31, 0xF3⟩
    let t : Stroke := ⟨0xFFFFFFFFFFFFFFFF, 63, 0x3C⟩
    (Screen.powerOn.drawAll [s, t, t]).1.frame = (Screen.powerOn.drawAll [t, s, t]).1.frame ∧
      let g := cornered.setRegister 0 62
      ((draw 0 0 5).execute ((draw 0 0 5).execute g).2).2.screen.frame = g.screen.frame := by
  intro s t
  exact ⟨drawing_commutes_and_cancels.1 _ _ _ (List.Perm.swap t s [t]),
    drawing_commutes_and_cancels.2.2.2 _ 0 0 5 (by decide) (by decide)⟩

end Instruction

end Chip8VM
