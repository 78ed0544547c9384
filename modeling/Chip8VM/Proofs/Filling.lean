import Chip8VM.Proofs.Strict
import Chip8VM.Proofs.Texture

/-!
# Filling a texture, byte by byte

A texture is filled from the frame as bytes. Each of them is multiplied by 255 and written three
times, row after row without a gap, and what comes out is cut into pieces of 192 bytes that are
copied to the places where the rows of the texture begin. `Strict.fill` does this with every product
and every place checked. On a frame nothing is too large, and the pieces are its rows
(`Strict.pixelBytes_frame`), so they go where `Texture.fill` puts them (`Strict.fill_eq`).

This needs a texture whose rows are no shorter than their pixels. It may be padded, and it may end
right behind the last row. `fill_writes_pixels_only` says what each of its bytes is afterwards.
-/

namespace Chip8VM.Host

/-! ## Rows as bytes -/

/-- The pixels of a frame, row after row. -/
def Texture.pixels (frame : Frame) : List Bool :=
  (List.finRange 32).flatMap fun y => (List.finRange 64).map fun x => frame.lit x y

/-- The bytes of all pixels are those of the rows, one after the other. -/
theorem Texture.flatMap_pixels (frame : Frame) :
    ((pixels frame).flatMap fun lit => List.replicate 3 (intensity lit)) =
      (List.finRange 32).flatMap fun y => rowBytes (frame.row y) := by
  have hrow : ∀ y, (((List.finRange 64).map fun x => frame.lit x y).flatMap
      fun lit => List.replicate 3 (intensity lit)) = rowBytes (frame.row y) := by
    intro y
    rw [rowBytes, ← List.map_coe_finRange_eq_range, List.flatMap_map, List.flatMap_map]
    rfl
  rw [pixels, List.flatMap_assoc]
  simp only [hrow]

end Chip8VM.Host

namespace Chip8VM.Strict

open Host (Texture)
open Host.Texture (rowSize rowBytes intensity)

/-! ## Filling with checks -/

/-- The bytes of pixels in a texture: each level times 255, for all three colours. -/
def pixelBytes : List UInt8 → Option (List UInt8)
  | [] => some []
  | level :: rest => do
    let product ← fit 8 (level.toNat * 255)
    return List.replicate 3 (UInt8.ofNat product) ++ (← pixelBytes rest)

variable {n : Nat}

/-- Copies bytes to a buffer in pieces of 192, the first to where row `y` begins. -/
def copyRows (pitch y : Nat) (bytes : List UInt8) (buffer : Vector UInt8 n) :
    Option (Vector UInt8 n) :=
  if bytes = [] then some buffer
  else do
    let piece := bytes.take 192
    let start ← fit 64 (y * pitch)
    let stop ← fit 64 (start + piece.length)
    copyRows pitch (y + 1) (bytes.drop 192) (← putBetween buffer start stop piece)
termination_by bytes.length
decreasing_by
  have hpos := List.length_pos_of_ne_nil ‹bytes ≠ []›
  rw [List.length_drop]
  omega

/-- Fills a buffer from a picture. -/
def fill (levels : Levels) (pitch : Nat) (buffer : Vector UInt8 n) : Option (Vector UInt8 n) := do
  copyRows pitch 0 (← pixelBytes (levels.toList.flatMap Vector.toList)) buffer

/-! ## Pixels -/

/-- A pixel is zero or one, so its intensity is a byte. -/
theorem fit_level_mul (lit : Bool) :
    fit 8 ((if lit then 1 else 0 : UInt8).toNat * 255) = some (intensity lit).toNat := by
  cases lit <;> decide

theorem pixelBytes_map (pixels : List Bool) :
    pixelBytes (pixels.map fun lit => if lit then 1 else 0) =
      some (pixels.flatMap fun lit => List.replicate 3 (intensity lit)) := by
  induction pixels with
  | nil => rfl
  | cons lit rest ih =>
    simp only [List.map_cons, pixelBytes, fit_level_mul, ih, UInt8.ofNat_toNat,
      Option.bind_eq_bind, Option.bind_some, Option.pure_def, List.flatMap_cons]

/-- The bytes of the pixels of a frame are those of its rows. -/
theorem pixelBytes_frame (frame : Frame) :
    pixelBytes (frame.levels.toList.flatMap Vector.toList) =
      some ((List.finRange 32).flatMap fun y => rowBytes (frame.row y)) := by
  have hlevels : frame.levels.toList.flatMap Vector.toList =
      (Texture.pixels frame).map fun lit => if lit then 1 else 0 := by
    simp only [Frame.levels, Levels.ofLit, Texture.pixels, Vector.toList_ofFn, List.ofFn_eq_map,
      List.flatMap_map, List.map_flatMap, List.map_map]
    rfl
  rw [hlevels, pixelBytes_map, Texture.flatMap_pixels]

/-! ## Rows -/

/-- Bytes that end inside a buffer are written over what is there. -/
theorem exists_putBetween_overwrite (buffer : Vector UInt8 n) {start : Nat} {new : List UInt8}
    (h : start + new.length ≤ n) :
    ∃ written, putBetween buffer start (start + new.length) new = some written ∧
      written.toArray = Texture.overwrite buffer.toArray start new := by
  obtain ⟨written, hput, hget⟩ := exists_putBetween buffer h
  refine ⟨written, hput, Array.ext_getElem? fun k => ?_⟩
  have hsize : (Texture.overwrite buffer.toArray start new).size = n := by
    rw [Texture.size_overwrite, buffer.size_toArray]
  by_cases hk : k < n
  · rw [Texture.getElem?_overwrite _ _ _ (by rwa [buffer.size_toArray]), Vector.getElem?_toArray,
      Vector.getElem?_toArray, hget k hk]
  · rw [Array.getElem?_eq_none (by simpa using hk), Array.getElem?_eq_none (by omega)]

/-- Rows that follow each other are copied to their places, if the last of all fits. -/
theorem copyRows_eq (t : Texture) (frame : Frame) (hn : n < 2 ^ 64)
    (hfits : 31 * t.pitch + rowSize ≤ n) {rows : List (Fin 32)} {y : Nat}
    (hrows : rows.map Fin.val = List.range' y rows.length) (buffer : Vector UInt8 n) :
    ∃ filled : Vector UInt8 n,
      copyRows t.pitch y (rows.flatMap fun r => rowBytes (frame.row r)) buffer = some filled ∧
        filled.toArray = rows.foldl (t.writeRow frame) buffer.toArray := by
  induction rows generalizing y buffer with
  | nil =>
    refine ⟨buffer, ?_, rfl⟩
    rw [copyRows]
    rfl
  | cons r rest ih =>
    rw [List.map_cons, List.length_cons, List.range'_succ, List.cons.injEq] at hrows
    obtain ⟨rfl, hrest⟩ := hrows
    have hlen : (rowBytes (frame.row r)).length = 192 := Texture.length_rowBytes _
    have hsize : rowSize = 192 := rfl
    have hend : r.val * t.pitch + (rowBytes (frame.row r)).length ≤ n := by
      have hle : r.val * t.pitch ≤ 31 * t.pitch :=
        Nat.mul_le_mul_right _ (Nat.le_of_lt_succ r.isLt)
      omega
    obtain ⟨written, hput, hwritten⟩ := exists_putBetween_overwrite buffer hend
    obtain ⟨filled, hcopy, hfilled⟩ := ih hrest written
    refine ⟨filled, ?_, ?_⟩
    · have hne : rowBytes (frame.row r) ++ (rest.flatMap fun r => rowBytes (frame.row r)) ≠ [] :=
        fun h => by rw [(List.append_eq_nil_iff.1 h).1] at hlen; cases hlen
      rw [List.flatMap_cons, copyRows, if_neg hne, List.take_left' hlen, List.drop_left' hlen]
      simp only [fit_eq (show r.val * t.pitch < 2 ^ 64 by omega),
        fit_eq (show r.val * t.pitch + (rowBytes (frame.row r)).length < 2 ^ 64 by omega), hput,
        hcopy, Option.bind_eq_bind, Option.bind_some]
    · rw [hfilled, hwritten, List.foldl_cons, Texture.writeRow]

/-- Filling with checks meets no obstacle, and gives what filling gives. -/
theorem fill_eq (frame : Frame) {pitch : Nat} (hn : n < 2 ^ 64)
    (hfits : 31 * pitch + rowSize ≤ n) (buffer : Vector UInt8 n) :
    ∃ filled : Vector UInt8 n, fill frame.levels pitch buffer = some filled ∧
      filled.toArray = (Texture.fill ⟨pitch, buffer.toArray⟩ frame).bytes := by
  have hrows : (List.finRange 32).map Fin.val = List.range' 0 (List.finRange 32).length := by
    rw [List.map_coe_finRange_eq_range, List.length_finRange, List.range_eq_range']
  obtain ⟨filled, hcopy, hfilled⟩ :=
    copyRows_eq ⟨pitch, buffer.toArray⟩ frame hn hfits hrows buffer
  refine ⟨filled, ?_, ?_⟩
  · rw [fill, pixelBytes_frame, Option.bind_eq_bind, Option.bind_some, hcopy]
  · rw [hfilled, Texture.bytes_fill]

end Chip8VM.Strict

namespace Chip8VM.Host.Texture

/-! ## Every byte -/

/-- A buffer whose rows are no shorter than their pixels, and which ends behind the last row or
later, is filled without an index that it does not have or a product that is no byte. Afterwards
each of the three bytes of a pixel is 255 times the pixel, and every other byte, between two rows or
behind the last, is what it was. -/
theorem fill_writes_pixels_only (frame : Frame) (pitch size : UInt64)
    (buffer : Vector UInt8 size.toNat) (hpitch : 192 ≤ pitch.toNat)
    (hsize : 31 * pitch.toNat + 192 ≤ size.toNat) :
    ∃ filled : Vector UInt8 size.toNat,
      Strict.fill frame.levels pitch.toNat buffer = some filled ∧
      filled.toArray = (fill ⟨pitch.toNat, buffer.toArray⟩ frame).bytes ∧
      (∀ (x : Fin 64) (y : Fin 32), ∀ c < 3, ∃ byte,
        filled[y.val * pitch.toNat + (3 * x.val + c)]? = some byte ∧
          byte.toNat = 255 * ((frame.levels.get y).get x).toNat) ∧
      ∀ k, (∀ (x : Fin 64) (y : Fin 32), ∀ c < 3, k ≠ y.val * pitch.toNat + (3 * x.val + c)) →
        filled[k]? = buffer[k]? := by
  obtain ⟨filled, hstrict, hbytes⟩ := Strict.fill_eq frame size.toNat_lt hsize buffer
  refine ⟨filled, hstrict, hbytes, fun x y c hc => ?_, fun k hout => ?_⟩
  · refine ⟨intensity (frame.lit x y), ?_, ?_⟩
    · rw [← Vector.getElem?_toArray, hbytes]
      exact getElem?_fill_pixel (t := ⟨pitch.toNat, buffer.toArray⟩) hpitch
        (by rwa [buffer.size_toArray]) frame x y hc
    · have hlevel : (frame.levels.get y).get x = if frame.lit x y then 1 else 0 :=
        Levels.getElem_ofLit frame.lit x.isLt y.isLt
      rw [hlevel]
      cases frame.lit x y <;> rfl
  · by_cases hk : k < size.toNat
    · rw [← Vector.getElem?_toArray, ← Vector.getElem?_toArray, hbytes, bytes_fill]
      refine getElem?_foldl_writeRow_of_out frame (by rwa [buffer.size_toArray]) fun y _ hin => ?_
      -- A place in a row belongs to a pixel.
      obtain ⟨d, rfl⟩ := Nat.exists_eq_add_of_le hin.1
      have hd : d < 192 := Nat.lt_of_add_lt_add_left hin.2
      refine hout ⟨d / 3, by omega⟩ y (d % 3) (Nat.mod_lt _ (by decide)) ?_
      rw [Nat.div_add_mod]
    · rw [Vector.getElem?_eq_none (Nat.not_lt.1 hk), Vector.getElem?_eq_none (Nat.not_lt.1 hk)]

/-- A frame with its last pixel lit. -/
def cornerFrame : Frame := (Frame.blank.drawRow 63 31 0x80).1

/-- A padded buffer that ends right behind the last pixel. The pixel is white, and the padding
before its row keeps its bytes. -/
theorem fill_writes_pixels_only_up_to_end :
    192 ≤ (200 : UInt64).toNat ∧ 31 * (200 : UInt64).toNat + 192 ≤ (6392 : UInt64).toNat ∧
      ∃ filled : Vector UInt8 (6392 : UInt64).toNat,
        Strict.fill cornerFrame.levels 200 (Vector.replicate _ 7) = some filled ∧
          filled[6391]? = some 255 ∧ filled[6195]? = some 7 := by
  have hpitch : 192 ≤ (200 : UInt64).toNat := by decide
  have hsize : 31 * (200 : UInt64).toNat + 192 ≤ (6392 : UInt64).toNat := by decide
  obtain ⟨filled, hfill, -, hpixel, hkept⟩ :=
    fill_writes_pixels_only cornerFrame 200 6392 (Vector.replicate _ 7) hpitch hsize
  refine ⟨hpitch, hsize, filled, hfill, ?_, ?_⟩
  · obtain ⟨byte, hbyte, hvalue⟩ := hpixel 63 31 2 (by decide)
    have hlevel : ((cornerFrame.levels.get 31).get 63).toNat = 1 := by decide +kernel
    rw [hlevel] at hvalue
    exact hbyte.trans (congrArg some (UInt8.toNat_inj.1 hvalue))
  · refine (hkept 6195 fun x y c hc => ?_).trans (Vector.getElem?_replicate_of_lt (by decide))
    have hx := x.isLt
    rw [show (200 : UInt64).toNat = 200 from rfl]
    rcases Nat.lt_or_ge y.val 31 with hy | hy <;> omega

end Chip8VM.Host.Texture
