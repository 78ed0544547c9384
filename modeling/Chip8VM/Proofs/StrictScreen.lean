import Chip8VM.Proofs.Strict

/-!
# Strict drawing

Drawing pixel by pixel, with every index and every sum checked, gives the frame that
drawing by rows gives. After `k` bits of a byte the bytes of the picture are those of the
pixels with the first `k` covered columns flipped (`litAfter`), and a pixel went dark if
one of the first `k` bits met a lit one (`erasedAfter`); `drawBit_eq` is the step from one
bit to the next and `drawRow_eq` the whole byte.
-/

namespace Chip8VM.Strict

/-- A fold that goes from each stage to the next ends at the last stage. -/
theorem foldlM_range_eq {σ : Type} {step : σ → Nat → Option σ} (stage : Nat → σ) {n : Nat}
    (h : ∀ k < n, step (stage k) k = some (stage (k + 1))) :
    (List.range n).foldlM step (stage 0) = some (stage n) := by
  induction n with
  | zero => rfl
  | succ n ih =>
    rw [List.range_succ, List.foldlM_append, ih fun k hk => h k (Nat.lt_succ_of_lt hk)]
    show ([n].foldlM step (stage n)) = _
    rw [List.foldlM_cons, h n (Nat.lt_succ_self n)]
    rfl

/-- A bit of a byte, as the lowest of the byte shifted. -/
theorem shiftRight_and_one (byte : UInt8) {k : Nat} (hk : k < 8) :
    byte >>> UInt8.ofNat (7 - k) &&& 1 = if byte.toBitVec.getMsbD k then 1 else 0 := by
  apply UInt8.toNat_inj.1
  have hs : (UInt8.ofNat (7 - k)).toNat = 7 - k := UInt8.toNat_ofNat_of_lt' (by
    rw [UInt8.size]; omega)
  rw [UInt8.toNat_and, UInt8.toNat_shiftRight, hs, Nat.mod_eq_of_lt (by omega),
    show (1 : UInt8).toNat = 1 from rfl, Nat.and_one_is_mod,
    Frame.getMsbD_eq_testBit byte hk, Nat.testBit_eq_decide_div_mod_eq, Nat.shiftRight_eq_div_pow]
  rcases Nat.mod_two_eq_zero_or_one (byte.toNat / 2 ^ (7 - k)) with h | h
  · simp [h]
  · simp [h]

section

variable (f : Frame) (x : UInt64) (y : Fin 32) (byte : UInt8)

/-- The pixels after the first `k` bits of a byte. -/
def litAfter (k : Nat) (c : Fin 64) (r : Fin 32) : Bool :=
  f.lit c r ^^ (decide (r = y) && (decide (Frame.bitOver x c < k) && Frame.covers x byte c))

/-- Whether a lit pixel went dark in the first `k` bits of a byte. -/
def erasedAfter (k : Nat) : Bool :=
  (List.range k).any fun b =>
    byte.toBitVec.getMsbD b && (f.row y).getMsbD ((x.toNat + b) % 64)

/-- The bit that lies over the column `k` to the right of the first is bit `k`. -/
theorem bitOver_ofNat {k : Nat} (hk : k < 8) :
    Frame.bitOver x (Fin.ofNat 64 (x.toNat + k)) = k :=
  (Frame.bitOver_eq_iff x _ (by omega)).2 rfl

theorem litAfter_succ {k : Nat} (hk : k < 8) (c : Fin 64) (r : Fin 32) :
    litAfter f x y byte (k + 1) c r =
      if r = y ∧ c = Fin.ofNat 64 (x.toNat + k) then
        f.lit c r ^^ byte.toBitVec.getMsbD k
      else litAfter f x y byte k c r := by
  have hb : Frame.bitOver x c = k ↔ c = Fin.ofNat 64 (x.toNat + k) := by
    rw [Frame.bitOver_eq_iff x c (by omega), Fin.ext_iff]
    rfl
  unfold litAfter
  by_cases hr : r = y
  · by_cases hc : c = Fin.ofNat 64 (x.toNat + k)
    · rw [if_pos ⟨hr, hc⟩, Frame.covers, hb.2 hc]
      simp [hr]
    · have hne : Frame.bitOver x c ≠ k := fun h => hc (hb.1 h)
      have hiff : Frame.bitOver x c < k + 1 ↔ Frame.bitOver x c < k := by omega
      rw [if_neg fun h => hc h.2]
      simp [hiff]
  · rw [if_neg fun h => hr h.1]
    simp [hr]

/-- The next bit flips its own pixel. -/
theorem put_litAfter {k : Nat} (hk : k < 8) :
    put (Levels.ofLit (litAfter f x y byte k)) y.val
      ((Levels.ofLit (litAfter f x y byte k))[y].set ((x.toNat + k) % 64)
        (if f.lit (Fin.ofNat 64 (x.toNat + k)) y ^^ byte.toBitVec.getMsbD k then 1 else 0)
        (Nat.mod_lt _ (Nat.succ_pos _))) =
      some (Levels.ofLit (litAfter f x y byte (k + 1))) := by
  rw [put_eq _ y.isLt]
  refine congrArg some (Vector.ext fun r hr => Vector.ext fun c hc => ?_)
  have hsucc := litAfter_succ f x y byte hk ⟨c, hc⟩ ⟨r, hr⟩
  rw [Levels.getElem_ofLit, Vector.getElem_set]
  by_cases hry : y.val = r
  · obtain rfl : y = ⟨r, hr⟩ := Fin.ext hry
    rw [if_pos rfl, Vector.getElem_set]
    by_cases hcx : (x.toNat + k) % 64 = c
    · have hc' : (⟨c, hc⟩ : Fin 64) = Fin.ofNat 64 (x.toNat + k) := Fin.ext hcx.symm
      rw [if_pos ⟨rfl, hc'⟩] at hsucc
      rw [if_pos hcx, hsucc, hc']
    · rw [if_neg fun h => hcx (Fin.ext_iff.1 h.2).symm] at hsucc
      rw [if_neg hcx, hsucc]
      exact Levels.getElem_ofLit _ hc hr
  · rw [if_neg fun h => hry (Fin.ext_iff.1 h.1).symm] at hsucc
    rw [if_neg hry, hsucc, Levels.getElem_ofLit]

/-- One bit goes from a stage to the next. -/
theorem drawBit_eq {k : Nat} (hk : k < 8) (hx : x.toNat + k < 2 ^ 64) :
    drawBit x.toNat y.val byte (.ofLit (litAfter f x y byte k), erasedAfter f x y byte k) k =
      some (.ofLit (litAfter f x y byte (k + 1)), erasedAfter f x y byte (k + 1)) := by
  have hcol : (x.toNat + k) % 64 < 64 := Nat.mod_lt _ (Nat.succ_pos _)
  have hcur : litAfter f x y byte k (Fin.ofNat 64 (x.toNat + k)) y =
      f.lit (Fin.ofNat 64 (x.toNat + k)) y := by
    rw [litAfter, bitOver_ofNat x hk]
    simp
  have hbefore : (Levels.ofLit (litAfter f x y byte k))[y][(x.toNat + k) % 64]? =
      some (if f.lit (Fin.ofNat 64 (x.toNat + k)) y then 1 else 0) := by
    rw [Vector.getElem?_eq_getElem hcol, ← hcur]
    exact congrArg some (Levels.getElem_ofLit _ hcol y.isLt)
  have hafter : ∀ before bit : Bool,
      ((if before then 1 else 0) ^^^ (if bit then 1 else 0) : UInt8) =
        if before ^^ bit then 1 else 0 := by decide
  have herased : ∀ before bit : Bool,
      ((if before then (1 : UInt8) else 0) == 1 &&
        (if before ^^ bit then (1 : UInt8) else 0) == 0) = (bit && before) := by decide
  have hline : (Levels.ofLit (litAfter f x y byte k))[y.val]? =
      some (Levels.ofLit (litAfter f x y byte k))[y] := Vector.getElem?_eq_getElem y.isLt
  have hput := put_litAfter f x y byte hk
  simp only [drawBit, fit_eq hx, less_eq (Nat.le_of_lt_succ hk), hline, hbefore,
    shiftRight_and_one byte hk, hafter, herased, put_eq _ hcol, hput, Option.bind_eq_bind,
    Option.bind_some, Option.pure_def, erasedAfter, List.range_succ, List.any_append,
    List.any_cons, List.any_nil, Bool.or_false]
  rfl

end

/-! ## Rows -/

/-- All eight bits give the pixels that drawing the row gives. -/
theorem litAfter_eight (f : Frame) (x y : UInt64) (byte : UInt8) :
    litAfter f x (Fin.ofNat 32 y.toNat) byte 8 = (f.drawRow x y byte).1.lit := by
  funext c r
  rw [Frame.lit_drawRow, litAfter]
  have hcovers : (decide (Frame.bitOver x c < 8) && Frame.covers x byte c) =
      Frame.covers x byte c := by
    by_cases hb : Frame.bitOver x c < 8
    · simp [hb]
    · rw [Frame.covers, BitVec.getMsbD_of_ge _ _ (Nat.not_lt.1 hb), Bool.and_false]
  rw [hcovers]

theorem erasedAfter_eight (f : Frame) (x y : UInt64) (byte : UInt8) :
    erasedAfter f x (Fin.ofNat 32 y.toNat) byte 8 = (f.drawRow x y byte).2 := by
  rw [Bool.eq_iff_iff, Frame.drawRow_snd_iff, erasedAfter, List.any_eq_true]
  constructor
  · rintro ⟨b, hb, hand⟩
    obtain ⟨hbit, hlit⟩ := Bool.and_eq_true_iff.1 hand
    refine ⟨Fin.ofNat 64 (x.toNat + b), hlit, ?_⟩
    rw [Frame.covers, bitOver_ofNat x (List.mem_range.1 hb)]
    exact hbit
  · rintro ⟨c, hlit, hcovers⟩
    have hb : Frame.bitOver x c < 8 := Classical.byContradiction fun hge => by
      rw [Frame.covers, BitVec.getMsbD_of_ge _ _ (Nat.not_lt.1 hge)] at hcovers
      cases hcovers
    have hc := (Frame.bitOver_eq_iff x c (by omega)).1 rfl
    refine ⟨Frame.bitOver x c, List.mem_range.2 hb, ?_⟩
    rw [← hc]
    exact Bool.and_eq_true_iff.2 ⟨hcovers, hlit⟩

/-- Drawing a byte bit by bit draws the row. -/
theorem drawRow_eq (f : Frame) {x : UInt64} (hx : x.toNat + 8 ≤ 2 ^ 64) (y : UInt64)
    (byte : UInt8) :
    drawRow f.levels x.toNat y.toNat byte =
      some ((f.drawRow x y byte).1.levels, (f.drawRow x y byte).2) := by
  have hstart : f.levels = .ofLit (litAfter f x (Fin.ofNat 32 y.toNat) byte 0) := by
    unfold Frame.levels
    congr 1
    funext c r
    simp [litAfter]
  have hfold := foldlM_range_eq (n := 8)
    (fun k => (Levels.ofLit (litAfter f x (Fin.ofNat 32 y.toNat) byte k),
      erasedAfter f x (Fin.ofNat 32 y.toNat) byte k))
    fun k hk => drawBit_eq f x (Fin.ofNat 32 y.toNat) byte hk (by omega)
  rw [litAfter_eight, erasedAfter_eight, ← hstart] at hfold
  exact hfold

/-- Drawing the rows of a sprite one by one draws the sprite. -/
theorem drawRows_eq (screen : Screen) {x : UInt64} (hx : x.toNat + 8 ≤ 2 ^ 64)
    (start r : Nat) {y : UInt64} (hy : y.toNat = start + r) (sprite : List UInt8)
    (hlen : start + r + sprite.length < 2 ^ 64) (erased : Bool) :
    drawRows x.toNat start r sprite (screen.frame.levels, erased) =
      some ((screen.drawSprite x y sprite).1.frame.levels,
        erased || (screen.drawSprite x y sprite).2) := by
  induction sprite generalizing screen r y erased with
  | nil => simp [drawRows, Screen.drawSprite]
  | cons byte rest ih =>
    rw [List.length_cons] at hlen
    have hnext : (y + 1).toNat = start + (r + 1) := by
      rw [UInt64.toNat_add, show (1 : UInt64).toNat = 1 from rfl]
      omega
    have hrest := ih (screen.drawRow x y byte).1 (r + 1) hnext (by omega)
      (erased || (screen.drawRow x y byte).2)
    have hrow := drawRow_eq screen.frame hx y byte
    rw [hy] at hrow
    simp only [drawRows, fit_eq (show start + r < 2 ^ 64 by omega), hrow, Option.bind_eq_bind,
      Option.bind_some]
    rw [Bool.or_assoc] at hrest
    exact hrest

end Chip8VM.Strict
