import Chip8VM.Host.Texture
import Mathlib

/-!
# What a filled texture shows

Filling a texture with a frame leaves, in the 192 bytes from the start of row `y`, the
bytes of row `y` of the frame (`getElem?_fill`), provided that the texture is as large as
its rows need. So every pixel of it has the colour that the frame gives it
(`colour_fill`). What lies between two rows or behind the last is kept
(`getElem?_foldl_writeRow_of_out`).
-/

namespace Chip8VM.Host

/-- The three bytes of a pixel, red first. -/
abbrev Colour := List UInt8

namespace Colour

/-- The colour of a pixel that is lit or not: white or black. -/
def ofLit (lit : Bool) : Colour := List.replicate 3 (Texture.intensity lit)

theorem ofLit_inj {lit lit' : Bool} : ofLit lit = ofLit lit' ↔ lit = lit' := by
  cases lit <;> cases lit' <;> decide

end Colour

namespace Texture

/-! ## Writing rows -/

/-- Bytes written into others stand where they were written, and nowhere else. -/
theorem getElem?_overwrite (bytes : Array UInt8) (start : Nat) (new : List UInt8) {k : Nat}
    (hk : k < bytes.size) :
    (overwrite bytes start new)[k]? =
      if start ≤ k ∧ k < start + new.length then new[k - start]? else bytes[k]? := by
  induction new generalizing bytes start with
  | nil => rw [overwrite, if_neg (by rw [List.length_nil]; omega)]
  | cons byte rest ih =>
    rw [overwrite, ih _ _ (by rw [Array.size_setIfInBounds]; exact hk), List.length_cons]
    rcases Nat.lt_trichotomy k start with hlt | rfl | hgt
    · rw [if_neg (by omega), if_neg (by omega), Array.getElem?_setIfInBounds_ne (by omega)]
    · rw [if_neg (by omega), if_pos (by omega), Array.getElem?_setIfInBounds_self_of_lt hk,
        Nat.sub_self, List.getElem?_cons_zero]
    · obtain ⟨d, rfl⟩ := Nat.exists_eq_add_of_lt hgt
      have hd : start + d + 1 - (start + 1) = d := by omega
      have hd' : start + d + 1 - start = d + 1 := by omega
      rw [hd, hd', List.getElem?_cons_succ, Array.getElem?_setIfInBounds_ne (by omega)]
      by_cases hin : d < rest.length
      · rw [if_pos (by omega), if_pos (by omega)]
      · rw [if_neg (by omega), if_neg (by omega)]

/-- One row written at its place. -/
def writeRow (t : Texture) (frame : Frame) (bytes : Array UInt8) (y : Fin 32) : Array UInt8 :=
  overwrite bytes (y.val * t.pitch) (rowBytes (frame.row y))

theorem bytes_fill (t : Texture) (frame : Frame) :
    (t.fill frame).bytes = (List.finRange 32).foldl (t.writeRow frame) t.bytes := by
  have hrow : (fun bytes y => overwrite bytes (y.val * t.pitch) (rowBytes (frame.row y))) =
      t.writeRow frame := rfl
  rw [fill, hrow]

theorem pitch_fill (t : Texture) (frame : Frame) : (t.fill frame).pitch = t.pitch := by
  rw [fill]

/-- Rows do not overlap. -/
theorem row_unique {pitch y z j : Nat} (hpitch : rowSize ≤ pitch) (hj : j < rowSize)
    (hlow : z * pitch ≤ y * pitch + j) (hhigh : y * pitch + j < z * pitch + rowSize) :
    z = y := by
  rcases Nat.lt_trichotomy z y with hlt | heq | hgt
  · have h := Nat.mul_le_mul_right pitch (Nat.succ_le_of_lt hlt)
    rw [Nat.succ_mul] at h
    omega
  · exact heq
  · have h := Nat.mul_le_mul_right pitch (Nat.succ_le_of_lt hgt)
    rw [Nat.succ_mul] at h
    omega

/-- Writing some rows leaves their bytes at the places of these rows, and the other rows as
they were. -/
theorem getElem?_foldl_writeRow {t : Texture} (hpitch : rowSize ≤ t.pitch) (frame : Frame)
    (rows : List (Fin 32)) (bytes : Array UInt8) (y : Fin 32) {j : Nat} (hj : j < rowSize)
    (hsize : y.val * t.pitch + j < bytes.size) :
    (rows.foldl (t.writeRow frame) bytes)[y.val * t.pitch + j]? =
      if y ∈ rows then (rowBytes (frame.row y))[j]? else bytes[y.val * t.pitch + j]? := by
  induction rows generalizing bytes with
  | nil => rw [List.foldl_nil, if_neg List.not_mem_nil]
  | cons z rest ih =>
    rw [List.foldl_cons, ih _ (by rw [writeRow, size_overwrite]; exact hsize), writeRow,
      getElem?_overwrite _ _ _ hsize, length_rowBytes]
    by_cases hrest : y ∈ rest
    · rw [if_pos hrest, if_pos (List.mem_cons_of_mem z hrest)]
    · rw [if_neg hrest]
      by_cases hyz : y = z
      · obtain rfl := hyz
        rw [if_pos ⟨Nat.le_add_right _ _, Nat.add_lt_add_left hj _⟩, Nat.add_sub_cancel_left,
          if_pos List.mem_cons_self]
      · rw [if_neg fun h => hyz (Fin.ext (row_unique hpitch hj h.1 h.2).symm),
          if_neg fun h => (List.mem_cons.1 h).elim hyz hrest]

/-- A place that is in none of the rows that are written keeps its byte. -/
theorem getElem?_foldl_writeRow_of_out {t : Texture} (frame : Frame) {rows : List (Fin 32)}
    {bytes : Array UInt8} {k : Nat} (hk : k < bytes.size)
    (hout : ∀ y ∈ rows, ¬(y.val * t.pitch ≤ k ∧ k < y.val * t.pitch + rowSize)) :
    (rows.foldl (t.writeRow frame) bytes)[k]? = bytes[k]? := by
  induction rows generalizing bytes with
  | nil => rfl
  | cons z rest ih =>
    obtain ⟨hfirst, hrest⟩ := List.forall_mem_cons.1 hout
    rw [List.foldl_cons, ih (by rw [writeRow, size_overwrite]; exact hk) hrest, writeRow,
      getElem?_overwrite _ _ _ hk, length_rowBytes, if_neg hfirst]

/-- The bytes of a frame row in a filled texture, which may end right behind the last row. -/
theorem getElem?_fill {t : Texture} (hpitch : rowSize ≤ t.pitch)
    (hsize : 31 * t.pitch + rowSize ≤ t.bytes.size) (frame : Frame) (y : Fin 32) {j : Nat}
    (hj : j < rowSize) :
    (t.fill frame).bytes[y.val * t.pitch + j]? = (rowBytes (frame.row y))[j]? := by
  have hy : y.val * t.pitch ≤ 31 * t.pitch := Nat.mul_le_mul_right _ (Nat.le_of_lt_succ y.isLt)
  rw [bytes_fill, getElem?_foldl_writeRow hpitch frame _ t.bytes y hj (by omega),
    if_pos (List.mem_finRange y)]

/-! ## Colours -/

/-- In a list of repeated values, each group of repetitions is one value. -/
theorem getElem?_flatMap_replicate {α β : Type} (f : α → β) (l : List α) (n k : Nat) {c : Nat}
    (hc : c < n) : (l.flatMap fun a => List.replicate n (f a))[n * k + c]? = l[k]?.map f := by
  induction l generalizing k with
  | nil => rfl
  | cons a rest ih =>
    rw [List.flatMap_cons]
    cases k with
    | zero =>
      rw [Nat.mul_zero, Nat.zero_add, List.getElem?_append_left (by simpa using hc),
        List.getElem?_replicate_of_lt hc]
      rfl
    | succ k =>
      have hlen : (List.replicate n (f a)).length = n := List.length_replicate
      rw [List.getElem?_append_right (by rw [hlen, Nat.mul_succ]; omega), hlen,
        show n * (k + 1) + c - n = n * k + c by rw [Nat.mul_succ]; omega, ih,
        List.getElem?_cons_succ]

/-- The colour of the pixel in column `x` of row `y`. -/
def colour (t : Texture) (x : Fin 64) (y : Fin 32) : Colour :=
  (List.range 3).map fun c => t.bytes[y.val * t.pitch + (3 * x.val + c)]?.getD 0

/-- Each of the three bytes of a pixel in a filled texture. -/
theorem getElem?_fill_pixel {t : Texture} (hpitch : rowSize ≤ t.pitch)
    (hsize : 31 * t.pitch + rowSize ≤ t.bytes.size) (frame : Frame) (x : Fin 64) (y : Fin 32)
    {c : Nat} (hc : c < 3) :
    (t.fill frame).bytes[y.val * t.pitch + (3 * x.val + c)]? =
      some (intensity (frame.lit x y)) := by
  have hx := x.isLt
  rw [getElem?_fill hpitch hsize frame y (by unfold rowSize; omega), rowBytes,
    getElem?_flatMap_replicate _ _ 3 x.val hc, List.getElem?_range hx]
  rfl

/-- A texture filled with a frame has the colours of the frame. -/
theorem colour_fill {t : Texture} (hpitch : rowSize ≤ t.pitch)
    (hsize : 31 * t.pitch + rowSize ≤ t.bytes.size) (frame : Frame) (x : Fin 64) (y : Fin 32) :
    (t.fill frame).colour x y = .ofLit (frame.lit x y) := by
  have hall : ∀ c ∈ List.range 3,
      (t.fill frame).bytes[y.val * t.pitch + (3 * x.val + c)]?.getD 0 =
        intensity (frame.lit x y) := fun c hc => by
    rw [getElem?_fill_pixel hpitch hsize frame x y (List.mem_range.1 hc), Option.getD_some]
  unfold colour
  rw [pitch_fill, List.map_congr_left hall, List.map_const', List.length_range]
  rfl

/-- A new texture is large enough for its rows. -/
theorem colour_fill_blank (padding : Nat) (frame : Frame) (x : Fin 64) (y : Fin 32) :
    ((blank padding).fill frame).colour x y = .ofLit (frame.lit x y) := by
  have hpitch : rowSize ≤ (blank padding).pitch := Nat.le_add_right rowSize padding
  have hsize : (blank padding).bytes.size = 32 * (blank padding).pitch := Array.size_replicate
  exact colour_fill hpitch (by omega) frame x y

end Texture

end Chip8VM.Host
