import Chip8VM.Fault
import Chip8VM.Font

/-!
# Memory

4096 bytes. The font lies at the bottom, programs are loaded at `0x200`, and every byte
from the end of the font on can be written.

Every access names its bytes by an address and a length of 64 bits. A range is `within`
memory when it ends at or before the last byte; the sum is checked for going past the
largest word, so no huge address or length slips through. A range is `writable` when
moreover it touches no byte of the font. `byteAt` is the view of memory that the other
operations are described by: what `overwrite` leaves at each place is `byteAt_overwrite`.
-/

namespace Chip8VM

/-- The memory of the machine. -/
structure Memory where
  /-- The bytes, by address. -/
  bytes : Vector UInt8 4096

namespace Memory

/-! ## Layout -/

/-- The number of bytes. -/
def size : UInt64 := 4096

/-- Where the font ends. -/
def fontEnd : UInt64 := 80

/-- Where programs are loaded and start. -/
def programStart : UInt64 := 0x200

/-! ## Bytes -/

/-- The byte at a place, and zero past the end. -/
def byteAt (m : Memory) (place : Nat) : UInt8 := m.bytes[place]?.getD 0

@[ext] theorem ext {m m' : Memory} (h : ∀ place < 4096, m.byteAt place = m'.byteAt place) :
    m = m' := by
  cases m with | mk b =>
  cases m' with | mk b' =>
  congr 1
  apply Vector.ext
  intro i hi
  simpa [byteAt, hi] using h i hi

/-- The bytes from a place on, `count` of them. -/
def window (m : Memory) (start count : Nat) : List UInt8 :=
  (List.range count).map fun k => m.byteAt (start + k)

/-- Memory with the given bytes from a place on; bytes past the end are dropped. -/
def overwrite (m : Memory) : Nat → List UInt8 → Memory
  | _, [] => m
  | start, byte :: rest => overwrite ⟨m.bytes.setIfInBounds start byte⟩ (start + 1) rest

theorem byteAt_set (m : Memory) (start place : Nat) (byte : UInt8) (h : place < 4096) :
    (Memory.mk (m.bytes.setIfInBounds start byte)).byteAt place =
      if place = start then byte else m.byteAt place := by
  by_cases hp : place = start
  · subst hp; simp [byteAt, h]
  · simp [byteAt, h, hp, Ne.symm hp]

/-- Overwriting changes the places of the new bytes, and no other. -/
theorem byteAt_overwrite (m : Memory) (start : Nat) (bytes : List UInt8) {place : Nat}
    (h : place < 4096) :
    (m.overwrite start bytes).byteAt place =
      if start ≤ place ∧ place < start + bytes.length then bytes.getD (place - start) 0
      else m.byteAt place := by
  induction bytes generalizing m start with
  | nil =>
    rw [overwrite, if_neg]
    rw [List.length_nil]
    omega
  | cons byte rest ih =>
    rw [overwrite, ih, byteAt_set _ _ _ _ h, List.length_cons]
    rcases Nat.lt_trichotomy place start with hlt | rfl | hgt
    · rw [if_neg (by omega), if_neg (by omega), if_neg (by omega)]
    · rw [if_neg (by omega), if_pos rfl, if_pos (by omega), Nat.sub_self,
        List.getD_cons_zero]
    · obtain ⟨d, rfl⟩ := Nat.exists_eq_add_of_lt hgt
      have hd : start + d + 1 - (start + 1) = d := by omega
      have hd' : start + d + 1 - start = d + 1 := by omega
      rw [hd, hd', List.getD_cons_succ, if_neg (by omega : ¬ start + d + 1 = start)]
      by_cases hin : start + d + 1 < start + 1 + rest.length
      · rw [if_pos (by omega), if_pos (by omega)]
      · rw [if_neg (by omega), if_neg (by omega)]

/-! ## Ranges -/

/-- Whether a range lies in memory. The fault names the first address from `address` on
that has no byte. -/
def within (address length : UInt64) : Except Fault Unit :=
  let stop := address + length
  if address ≤ stop ∧ stop ≤ size then .ok ()
  else .error (.memoryOutOfBounds (max address size))

/-- Whether a range may be written. An empty range touches no font byte, and a range
that is out of bounds is refused for that first. -/
def writable (address length : UInt64) : Except Fault Unit :=
  match within address length with
  | .error fault => .error fault
  | .ok () =>
    if length ≠ 0 ∧ address < fontEnd then .error (.readOnlyMemory address) else .ok ()

/-! ## Reading -/

/-- The byte at an address. -/
def read (m : Memory) (address : UInt64) : Except Fault UInt8 :=
  match m.bytes[address.toNat]? with
  | some byte => .ok byte
  | none => .error (.memoryOutOfBounds address)

/-- The word at an address, high byte first. -/
def readWord (m : Memory) (address : UInt64) : Except Fault UInt16 :=
  match m.read address with
  | .error fault => .error fault
  | .ok high =>
    match m.read (address + 1) with
    | .error fault => .error fault
    | .ok low => .ok (high.toUInt16 <<< 8 ||| low.toUInt16)

/-- The bytes of a range. -/
def slice (m : Memory) (address length : UInt64) : Except Fault (List UInt8) :=
  match within address length with
  | .error fault => .error fault
  | .ok () => .ok (m.window address.toNat length.toNat)

/-! ## Writing -/

/-- Writes bytes from an address on, all of them or none. -/
def store (m : Memory) (address : UInt64) (bytes : List UInt8) : Except Fault Memory :=
  match writable address (UInt64.ofNatClamp bytes.length) with
  | .error fault => .error fault
  | .ok () => .ok (m.overwrite address.toNat bytes)

/-- Writes one byte. -/
def write (m : Memory) (address : UInt64) (byte : UInt8) : Except Fault Memory :=
  m.store address [byte]

/-- Writes one byte to every place of a range. -/
def fill (m : Memory) (address length : UInt64) (byte : UInt8) : Except Fault Memory :=
  match writable address length with
  | .error fault => .error fault
  | .ok () => .ok (m.overwrite address.toNat (List.replicate length.toNat byte))

/-- Writes the font where it belongs. -/
def loadFont (m : Memory) : Memory := m.overwrite 0 Font.sheet

/-- Memory with the font and nothing else. -/
def powerOn : Memory := loadFont ⟨Vector.replicate 4096 0⟩

/-- Writes a program image where programs start. -/
def loadProgram (m : Memory) (program : List UInt8) : Except Fault Memory :=
  if maxProgramSize < program.length then .error (.programTooLarge program.length)
  else m.store programStart program

end Memory

end Chip8VM
