import Chip8VM.Proofs.Faults
import Chip8VM.Proofs.Safety

/-!
# All ways to memory

Memory is read by ranges, by single bytes and by words, and it is written by ranges and by single
bytes. The checks are not made in one place: a byte is looked up on its own, a word byte by byte,
and a range by where it ends. They agree all the same. A byte is a range of one (`slice_one`), a
word is the number that a range of two writes (`readWord_eq_slice`), and writing a byte is filling
a range of one (`byteAt_after_write`), with the same values, the same refusals and the same
addresses in them.

The address of a fault is always the first that is to blame: the first place from the address on
that has no byte (`isLeast_missing`), or the first byte of the range that belongs to the font
(`isLeast_font`). `accesses_agree` puts this together for every address and length, also those whose
sum is no word.
-/

namespace Chip8VM.Memory

variable (m : Memory) (address length : UInt64)

/-! ## The place to blame -/

theorem toNat_max_size : (max address 4096).toNat = max address.toNat 4096 := by
  have hmax : max address 4096 = if address ≤ 4096 then 4096 else address := rfl
  have hle : address ≤ 4096 ↔ address.toNat ≤ 4096 := UInt64.le_iff_toNat_le
  rw [hmax]
  split
  · rename_i h
    exact (Nat.max_eq_right (hle.1 h)).symm
  · rename_i h
    exact (Nat.max_eq_left (by rw [hle] at h; omega)).symm

/-- The first place from an address on that has no byte is the address, or 4096 if that is
larger. -/
theorem isLeast_missing :
    IsLeast {place : Nat | address.toNat ≤ place ∧ m.bytes[place]? = none}
      (max address 4096).toNat := by
  rw [toNat_max_size]
  constructor
  · exact ⟨Nat.le_max_left _ _, Vector.getElem?_eq_none (Nat.le_max_right _ _)⟩
  · rintro place ⟨hfrom, hnone⟩
    exact Nat.max_le.2 ⟨hfrom, by simpa using hnone⟩

/-- A range that has a byte and starts in the font touches the font first where it starts. -/
theorem isLeast_font (hlength : length ≠ 0) (hfont : address.toNat < 80) :
    IsLeast {place : Nat | address.toNat ≤ place ∧ place < address.toNat + length.toNat ∧
      place < 80} address.toNat := by
  have hpos : length.toNat ≠ 0 := fun h => hlength (UInt64.toNat_inj.1 h)
  exact ⟨⟨Nat.le_refl _, by omega, hfont⟩, fun place h => h.1⟩

/-! ## Reading -/

/-- The number that bytes write, the first one high. -/
def bigEndian (bytes : List UInt8) : Nat :=
  bytes.foldl (fun number byte => 256 * number + byte.toNat) 0

/-- A range of one is the byte. -/
theorem slice_one : m.slice address 1 = (m.read address).map fun byte => [byte] := by
  have hone : (1 : UInt64).toNat = 1 := rfl
  rw [slice_eq, read_eq, hone]
  by_cases h : address.toNat < 4096
  · rw [if_pos h, if_pos (Nat.succ_le_of_lt h)]
    rfl
  · have hmax : max address 4096 = address := UInt64.toNat_inj.1 (by rw [toNat_max_size]; omega)
    rw [if_neg h, if_neg (by omega), hmax]
    rfl

/-- The number of a word is the one that its bytes write. -/
theorem toNat_wordAt (place : Nat) : (m.wordAt place).toNat = bigEndian (m.window place 2) := by
  have hhigh := (m.byteAt place).toNat_lt
  have hlow := (m.byteAt (place + 1)).toNat_lt
  have hwindow : bigEndian (m.window place 2) =
      256 * (256 * 0 + (m.byteAt place).toNat) + (m.byteAt (place + 1)).toNat := rfl
  rw [hwindow, wordAt, UInt16.toNat_ofNat']
  omega

/-- A word is the number that a range of two writes. -/
theorem readWord_eq_slice :
    (m.readWord address).map UInt16.toNat = (m.slice address 2).map bigEndian := by
  have htwo : (2 : UInt64).toNat = 2 := rfl
  rw [readWord_eq, slice_eq, htwo]
  by_cases h : address.toNat + 2 ≤ 4096
  · rw [if_pos h, if_pos (by omega), Except.map, Except.map, toNat_wordAt]
  · rw [if_neg h, if_neg (by omega), Except.map, Except.map]

/-! ## Writing -/

/-- The memory after a write, which is the one before it if the write was refused. -/
def after : Except Fault Memory → Memory
  | .ok m' => m'
  | .error _ => m

/-- A write is refused when its range may not be written, and for no other reason. -/
theorem map_store (bytes : List UInt8) :
    (m.store address bytes).map (fun _ => ()) =
      writable address (UInt64.ofNatClamp bytes.length) := by
  rw [store]
  cases writable address (UInt64.ofNatClamp bytes.length) with
  | error fault => rfl
  | ok fits => rfl

/-- A write that is let through changes the bytes of its range and no other. -/
theorem byteAt_after_store {bytes : List UInt8} (hlen : bytes.length = length.toNat)
    (place : Nat) :
    (m.after (m.store address bytes)).byteAt place =
      if writable address length = .ok () ∧ address.toNat ≤ place ∧
          place < address.toNat + length.toNat then
        bytes.getD (place - address.toNat) 0
      else m.byteAt place := by
  have hclamp : UInt64.ofNatClamp bytes.length = length := by
    rw [hlen, ← UInt64.toNat_inj, UInt64.toNat_ofNatClamp_of_lt length.toNat_lt]
  have hstore : m.store address bytes =
      (writable address length).map fun _ => m.overwrite address.toNat bytes := by
    rw [store, hclamp]
    cases writable address length <;> rfl
  have hwritable := writable_eq address length
  rw [hstore]
  cases hok : writable address length with
  | error fault => simp [after, Except.map]
  | ok fits =>
    have hend : address.toNat + length.toNat ≤ 4096 := Nat.not_lt.1 fun hlong => by
      rw [hok, if_pos hlong] at hwritable
      cases hwritable
    simp only [Except.map, after, true_and]
    by_cases hplace : place < 4096
    · rw [byteAt_overwrite _ _ _ hplace, hlen]
    · rw [if_neg (by omega)]
      simp [byteAt, hplace]

/-- A byte is written to its place and to no other, and if this is refused to none. -/
theorem byteAt_after_write (byte : UInt8) (place : Nat) :
    (m.after (m.write address byte)).byteAt place =
      if writable address 1 = .ok () ∧ place = address.toNat then byte else m.byteAt place := by
  have hone : (1 : UInt64).toNat = 1 := rfl
  have hplace : (address.toNat ≤ place ∧ place < address.toNat + 1) ↔ place = address.toNat := by
    omega
  have hlen : [byte].length = (1 : UInt64).toNat := rfl
  rw [write, m.byteAt_after_store address 1 hlen, hone]
  refine if_ctx_congr (and_congr_right' hplace) (fun h => ?_) fun _ => rfl
  rw [h.2, Nat.sub_self, List.getD_cons_zero]

/-! ## Agreement -/

/-- What the accesses at an address do, for ranges of some length. -/
structure Accesses : Prop where
  /-- A range can be read if it ends in memory. -/
  slice : m.slice address length =
    if address.toNat + length.toNat ≤ 4096 then .ok (m.window address.toNat length.toNat)
    else .error (.memoryOutOfBounds (max address 4096))
  /-- A range can be written if moreover it is empty or starts behind the font. -/
  writable : writable address length =
    if 4096 < address.toNat + length.toNat then .error (.memoryOutOfBounds (max address 4096))
    else if length ≠ 0 ∧ address.toNat < 80 then .error (.readOnlyMemory address)
    else .ok ()
  /-- A fault of bounds names the first place that has no byte. -/
  missing : IsLeast {place : Nat | address.toNat ≤ place ∧ m.bytes[place]? = none}
    (max address 4096).toNat
  /-- A fault of the font names the first of its bytes that the range has. -/
  font : length = 0 ∨ 80 ≤ address.toNat ∨
    IsLeast {place : Nat | address.toNat ≤ place ∧ place < address.toNat + length.toNat ∧
      place < 80} address.toNat
  /-- Bytes are written to the places of their range and to no other, and if refused to none. -/
  store (bytes : Vector UInt8 length.toNat) (place : Nat) :
    (m.store address bytes.toList).map (fun _ => ()) = Memory.writable address length ∧
    (m.after (m.store address bytes.toList)).byteAt place =
      if Memory.writable address length = .ok () ∧ address.toNat ≤ place ∧
          place < address.toNat + length.toNat then
        bytes.toList.getD (place - address.toNat) 0
      else m.byteAt place
  /-- A byte is read as a range of one. -/
  read : (m.read address).map (fun byte => [byte]) = m.slice address 1
  /-- A word is read as a range of two, and both addresses are words of 64 bits. -/
  word : (m.readWord address).map UInt16.toNat = (m.slice address 2).map bigEndian ∧
    Strict.readWord m address = some (m.readWord address)
  /-- A byte is written as a range of one. -/
  write (byte : UInt8) (place : Nat) :
    (m.write address byte).map (fun _ => ()) = Memory.writable address 1 ∧
    (m.after (m.write address byte)).byteAt place =
      if Memory.writable address 1 = .ok () ∧ place = address.toNat then byte
      else m.byteAt place

/-- At every address and for every length, also where their sum is no word, ranges are read and
written exactly as far as memory goes and, to be written, as the font leaves them. Every fault names
the first place to blame, a range that does not end in memory is refused for that first, and bytes
and words agree with ranges of one and two. -/
theorem accesses_agree : m.Accesses address length := by
  have hclamp : UInt64.ofNatClamp length.toNat = length := by
    rw [← UInt64.toNat_inj, UInt64.toNat_ofNatClamp_of_lt length.toNat_lt]
  refine {
    slice := m.slice_eq address length
    writable := writable_eq address length
    missing := m.isLeast_missing address
    font := ?_
    store := fun bytes place => ⟨?_, m.byteAt_after_store address length bytes.length_toList place⟩
    read := (m.slice_one address).symm
    word := ⟨m.readWord_eq_slice address, Strict.readWord_eq m address⟩
    write := fun byte place =>
      ⟨m.map_store address [byte], m.byteAt_after_write address byte place⟩ }
  · by_cases hempty : length = 0
    · exact Or.inl hempty
    · by_cases hbehind : 80 ≤ address.toNat
      · exact Or.inr (Or.inl hbehind)
      · exact Or.inr (Or.inr (isLeast_font address length hempty (Nat.not_le.1 hbehind)))
  · rw [map_store, Vector.length_toList, hclamp]

end Chip8VM.Memory
