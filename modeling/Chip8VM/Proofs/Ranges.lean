import Chip8VM.Memory
import Mathlib

/-!
# Ranges of memory

The checks that memory makes are on words of 64 bits, whose sums wrap; here they are said
of unbounded numbers. A range is in bounds exactly when it ends at or before 4096
(`within_eq`), and the fault names the address, or 4096 if that is larger. A range may be
written when moreover it is empty or starts behind the font (`writable_eq`). `slice_eq`,
`store_eq` and `readWord_eq` are the same laws for the accesses themselves.
-/

namespace Chip8VM.Memory

/-! ## Bounds -/

/-- A sum of words is no smaller than its first part exactly when it does not wrap. -/
theorem le_add_iff (a b : UInt64) : a ≤ a + b ↔ a.toNat + b.toNat < 2 ^ 64 := by
  have ha := a.toNat_lt
  have hb := b.toNat_lt
  rw [UInt64.le_iff_toNat_le, UInt64.toNat_add]
  omega

/-- A range is in bounds exactly when it ends at or before 4096. -/
theorem within_eq (address length : UInt64) :
    within address length =
      if address.toNat + length.toNat ≤ 4096 then .ok ()
      else .error (.memoryOutOfBounds (max address 4096)) := by
  have ha := address.toNat_lt
  have hl := length.toNat_lt
  unfold within
  have hs : size.toNat = 4096 := rfl
  refine if_congr ?_ rfl rfl
  rw [le_add_iff, UInt64.le_iff_toNat_le, UInt64.toNat_add, hs]
  omega

/-- A range may be written when it is in bounds, and is empty or starts behind the font. -/
theorem writable_eq (address length : UInt64) :
    writable address length =
      if 4096 < address.toNat + length.toNat then
        .error (.memoryOutOfBounds (max address 4096))
      else if length ≠ 0 ∧ address.toNat < 80 then .error (.readOnlyMemory address)
      else .ok () := by
  have hfont : address < fontEnd ↔ address.toNat < 80 := by
    rw [UInt64.lt_iff_toNat_lt]
    rfl
  rw [writable, within_eq]
  by_cases hb : address.toNat + length.toNat ≤ 4096
  · rw [if_pos hb, if_neg (Nat.not_lt.2 hb)]
    exact if_congr (and_congr_right' hfont) rfl rfl
  · rw [if_neg hb, if_pos (Nat.not_le.1 hb)]

/-! ## Reading -/

theorem slice_eq (m : Memory) (address length : UInt64) :
    m.slice address length =
      if address.toNat + length.toNat ≤ 4096 then
        .ok (m.window address.toNat length.toNat)
      else .error (.memoryOutOfBounds (max address 4096)) := by
  rw [slice, within_eq]
  by_cases h : address.toNat + length.toNat ≤ 4096
  · rw [if_pos h, if_pos h]
  · rw [if_neg h, if_neg h]

theorem length_window (m : Memory) (start count : Nat) :
    (m.window start count).length = count := by
  rw [window, List.length_map, List.length_range]

theorem getElem?_window (m : Memory) (start : Nat) {count k : Nat} (h : k < count) :
    (m.window start count)[k]? = some (m.byteAt (start + k)) := by
  rw [window, List.getElem?_map, List.getElem?_range h]
  rfl

/-- A range that was read has as many bytes as were asked for. -/
theorem length_of_slice {m : Memory} {address length : UInt64} {bytes : List UInt8}
    (h : m.slice address length = .ok bytes) : bytes.length = length.toNat := by
  rw [slice_eq] at h
  split at h
  · obtain rfl := Except.ok.inj h
    exact length_window _ _ _
  · cases h

theorem read_eq (m : Memory) (address : UInt64) :
    m.read address =
      if address.toNat < 4096 then .ok (m.byteAt address.toNat)
      else .error (.memoryOutOfBounds address) := by
  unfold read byteAt
  by_cases h : address.toNat < 4096
  · rw [if_pos h, Vector.getElem?_eq_getElem h]
    rfl
  · rw [if_neg h, Vector.getElem?_eq_none (by omega)]

/-- The word that two neighbouring bytes make, the first one high. -/
def wordAt (m : Memory) (place : Nat) : UInt16 :=
  UInt16.ofNat (256 * (m.byteAt place).toNat + (m.byteAt (place + 1)).toNat)

theorem shift_or_eq (high low : UInt8) :
    high.toUInt16 <<< 8 ||| low.toUInt16 = UInt16.ofNat (256 * high.toNat + low.toNat) := by
  have hh := high.toNat_lt
  have hl := low.toNat_lt
  apply UInt16.toNat_inj.1
  have hs : high.toNat <<< 8 = 256 * high.toNat := by rw [Nat.shiftLeft_eq]; omega
  rw [UInt16.toNat_or, UInt16.toNat_shiftLeft, UInt8.toNat_toUInt16, UInt8.toNat_toUInt16,
    UInt16.toNat_ofNat_of_lt' (by rw [UInt16.size]; omega),
    show (8 : UInt16).toNat % 16 = 8 from rfl, Nat.mod_eq_of_lt (by omega),
    ← Nat.shiftLeft_add_eq_or_of_lt hl, hs]

/-- A word can be read unless one of its bytes is missing, and the fault names the first
that is. -/
theorem readWord_eq (m : Memory) (address : UInt64) :
    m.readWord address =
      if address.toNat + 1 ≤ 4095 then .ok (m.wordAt address.toNat)
      else .error (.memoryOutOfBounds (max address 4096)) := by
  have hlt := address.toNat_lt
  have hmax : max address 4096 = if address ≤ 4096 then 4096 else address := rfl
  have hle : address ≤ 4096 ↔ address.toNat ≤ 4096 := UInt64.le_iff_toNat_le
  rw [readWord, read_eq]
  by_cases h : address.toNat < 4096
  · have hnext : (address + 1).toNat = address.toNat + 1 := by
      rw [UInt64.toNat_add, show (1 : UInt64).toNat = 1 from rfl]
      omega
    rw [if_pos h]
    simp only [read_eq, hnext]
    by_cases h' : address.toNat + 1 < 4096
    · rw [if_pos h', if_pos (by omega)]
      simp only [shift_or_eq, wordAt]
    · have haddr : address + 1 = 4096 := by
        apply UInt64.toNat_inj.1
        rw [hnext, show (4096 : UInt64).toNat = 4096 from rfl]
        omega
      rw [if_neg h', if_neg (by omega), hmax, if_pos (hle.2 (by omega)), haddr]
  · rw [if_neg h, if_neg (by omega), hmax]
    by_cases h4 : address = 4096
    · rw [if_pos (hle.2 (by rw [h4]; decide)), h4]
    · have : address.toNat ≠ 4096 := fun he =>
        h4 (UInt64.toNat_inj.1 (by rw [he]; rfl))
      rw [if_neg (by rw [hle]; omega)]

/-! ## Writing -/

theorem store_eq (m : Memory) (address : UInt64) (bytes : List UInt8)
    (hlen : bytes.length < 2 ^ 64) :
    m.store address bytes =
      if 4096 < address.toNat + bytes.length then
        .error (.memoryOutOfBounds (max address 4096))
      else if bytes ≠ [] ∧ address.toNat < 80 then .error (.readOnlyMemory address)
      else .ok (m.overwrite address.toNat bytes) := by
  have hn : (UInt64.ofNatClamp bytes.length).toNat = bytes.length :=
    UInt64.toNat_ofNatClamp_of_lt hlen
  have hz : UInt64.ofNatClamp bytes.length ≠ 0 ↔ bytes ≠ [] := by
    rw [ne_eq, ← UInt64.toNat_inj, hn, UInt64.toNat_zero, List.length_eq_zero_iff]
  rw [store, writable_eq, hn]
  by_cases hb : 4096 < address.toNat + bytes.length
  · rw [if_pos hb, if_pos hb]
  · rw [if_neg hb, if_neg hb]
    by_cases hf : bytes ≠ [] ∧ address.toNat < 80
    · rw [if_pos hf, if_pos ⟨hz.2 hf.1, hf.2⟩]
    · rw [if_neg hf, if_neg fun h => hf ⟨hz.1 h.1, h.2⟩]

/-- A program image is loaded exactly when it has at most 3584 bytes. -/
theorem loadProgram_eq (m : Memory) (program : List UInt8) :
    m.loadProgram program =
      if maxProgramSize < program.length then .error (.programTooLarge program.length)
      else .ok (m.overwrite 0x200 program) := by
  unfold loadProgram
  by_cases h : maxProgramSize < program.length
  · rw [if_pos h, if_pos h]
  · rw [if_neg h, if_neg h]
    unfold maxProgramSize at h
    have hp : programStart.toNat = 0x200 := rfl
    rw [store_eq _ _ _ (by omega), hp, if_neg (by omega), if_neg (by omega)]

end Chip8VM.Memory
