import Chip8VM.Proofs.Decoding
import Mathlib

/-!
# The table of opcodes

`Instruction.patterns` is the instruction set as one writes it down: 34 patterns of four digits, in
which a small letter stands for any digit. The instructions that decoding gives are exactly those
whose operands fit the digits of their pattern (`exists_decode_iff`), and the words it refuses are
exactly those that match no pattern (`decode_eq_error_iff_not_matches`). Encoding an instruction
that was decoded gives its word back, but for the one digit that means nothing, the `y` of the two
shifts (`Spells.encode_eq`), and this is all that two words of one instruction can differ in.

`decode_exact` puts this together. Nothing is checked word by word: a pattern fixes some digits of
a word, and decoding looks at the same digits.
-/

namespace Chip8VM

namespace Opcode

/-! ## Digits -/

theorem kk_eq (w : UInt16) : kk w = 16 * y w + n w := by
  unfold kk y n
  omega

theorem nnn_eq (w : UInt16) : nnn w = 256 * x w + 16 * y w + n w := by
  unfold nnn x y n
  omega

/-- A word is told by the number that its digits make. -/
theorem ofDigits_eq {w : UInt16} {f x y n : Nat}
    (h : ((f * 16 + x) * 16 + y) * 16 + n = w.toNat) : ofDigits f x y n = w := by
  rw [ofDigits, h, UInt16.ofNat_toNat]

/-! ## Patterns -/

/-- Whether a word has the digits that a pattern fixes; a small letter stands for any digit. -/
def Matches (pattern : String) (w : UInt16) : Prop :=
  List.Forall₂ (fun c d => c.isLower = true ∨ d = Hex.digitValue c) pattern.toList
    [family w, x w, y w, n w]

instance (pattern : String) (w : UInt16) : Decidable (Matches pattern w) :=
  inferInstanceAs (Decidable (List.Forall₂ _ _ _))

/-- The word with the third digit zero. -/
def withoutY (w : UInt16) : UInt16 := ofDigits (family w) (x w) 0 (n w)

end Opcode

namespace Instruction

open Opcode

/-- The pattern of an instruction. -/
def pattern : Instruction → String
  | clear => "00E0"
  | ret => "00EE"
  | jump _ => "1nnn"
  | call _ => "2nnn"
  | skipEqByte _ _ => "3xkk"
  | skipNeByte _ _ => "4xkk"
  | skipEq _ _ => "5xy0"
  | loadByte _ _ => "6xkk"
  | addByte _ _ => "7xkk"
  | copy _ _ => "8xy0"
  | or _ _ => "8xy1"
  | and _ _ => "8xy2"
  | xor _ _ => "8xy3"
  | add _ _ => "8xy4"
  | sub _ _ => "8xy5"
  | shiftRight _ => "8xy6"
  | subFrom _ _ => "8xy7"
  | shiftLeft _ => "8xyE"
  | skipNe _ _ => "9xy0"
  | setIndex _ => "Annn"
  | jumpBy _ => "Bnnn"
  | random _ _ => "Cxkk"
  | draw _ _ _ => "Dxyn"
  | skipPressed _ => "Ex9E"
  | skipReleased _ => "ExA1"
  | readDelay _ => "Fx07"
  | awaitKey _ => "Fx0A"
  | setDelay _ => "Fx15"
  | setSound _ => "Fx18"
  | addIndex _ => "Fx1E"
  | pointGlyph _ => "Fx29"
  | storeDecimal _ => "Fx33"
  | storeRegisters _ => "Fx55"
  | loadRegisters _ => "Fx65"

/-- The patterns of all instructions. -/
def patterns : List String :=
  ["00E0", "00EE", "1nnn", "2nnn", "3xkk", "4xkk", "5xy0", "6xkk", "7xkk", "8xy0", "8xy1", "8xy2",
    "8xy3", "8xy4", "8xy5", "8xy6", "8xy7", "8xyE", "9xy0", "Annn", "Bnnn", "Cxkk", "Dxyn", "Ex9E",
    "ExA1", "Fx07", "Fx0A", "Fx15", "Fx18", "Fx1E", "Fx29", "Fx33", "Fx55", "Fx65"]

example : patterns.length = 34 := rfl

theorem pattern_mem (i : Instruction) : i.pattern ∈ patterns := by
  cases i <;> simp [pattern, patterns]

/-- A word that spells an instruction matches its pattern. -/
theorem Spells.matches {i : Instruction} {w : UInt16} (h : i.Spells w) : Matches i.pattern w := by
  have hkk := kk_eq w
  have hn := n_lt w
  cases i
  case clear => rw [show w = 0x00E0 from h]; decide
  case ret => rw [show w = 0x00EE from h]; decide
  all_goals
    simp only [Spells] at h
    simp [Matches, pattern, Hex.digitValue]
    omega

/-- A word that matches a pattern is decoded. -/
theorem decode?_isSome_of_matches (w : UInt16) :
    ∀ p ∈ patterns, Matches p w → (decode? w).isSome = true := by
  simp only [patterns, List.forall_mem_cons, List.not_mem_nil, false_implies, implies_true,
    and_true]
  -- One case for each pattern: its digits are those that decoding looks at.
  and_intros
  all_goals
    intro h
    simp [Matches, Hex.digitValue] at h
    simp [decode?, kk_eq, nnn_eq, h]

/-- The words that match no pattern are refused, each with its own number. -/
theorem decode_eq_error_iff_not_matches (w : UInt16) :
    decode w = .error (.unknownOpcode w) ↔ ∀ p ∈ patterns, ¬Matches p w := by
  rw [decode_eq_error_iff, and_iff_left rfl]
  constructor
  · intro hno p hp hmatches
    obtain ⟨i, hi⟩ := Option.isSome_iff_exists.1 (decode?_isSome_of_matches w p hp hmatches)
    exact hno i (spells_of_decode? hi)
  · intro hno i hi
    exact hno _ i.pattern_mem hi.matches

/-! ## Encoding -/

/-- The shifts, whose pattern has a digit that means nothing. -/
def shifts : Instruction → Bool
  | shiftRight _ | shiftLeft _ => true
  | _ => false

/-- A word that spells an instruction is its encoding, but for the third digit of a shift. -/
theorem Spells.encode_eq {i : Instruction} {w : UInt16} (h : i.Spells w) :
    i.encode = if i.shifts then withoutY w else w := by
  have hw := toNat_eq w
  have hlt := w.toNat_lt
  have hkk := kk_eq w
  have hnnn := nnn_eq w
  cases i
  case clear | ret => exact h.symm
  case shiftRight | shiftLeft =>
    simp only [Spells] at h
    simp [encode, shifts, withoutY, h]
  case jump | call | setIndex | jumpBy =>
    simp only [Spells] at h
    refine UInt16.toNat_inj.1 ((UInt16.toNat_add _ _).trans ?_)
    simp only [shifts, Bool.false_eq_true, if_false, UInt16.reduceToNat]
    omega
  all_goals
    simp only [Spells] at h
    exact ofDigits_eq (w := w) (by omega)

/-- An instruction whose operands fit is spelled by its encoding. -/
theorem spells_encode {i : Instruction} (h : i.Encodable) : i.Spells i.encode := by
  have hx : ∀ x : UInt64, x < 16 ↔ x.toNat < 16 := fun x => UInt64.lt_iff_toNat_lt
  cases i
  case clear | ret => rfl
  case jump address | call address | setIndex address | jumpBy address =>
    have hlt : address.toNat < 0x1000 := UInt16.lt_iff_toNat_lt.1 h
    simp only [Spells, encode, family, nnn, UInt16.toNat_add, UInt16.reduceToNat]
    omega
  case draw x y height =>
    have hlt : height.toNat < 16 := UInt8.lt_iff_toNat_lt.1 h.2.2
    simp only [Encodable, hx] at h
    simp only [Spells, encode, ofDigits, family, Opcode.x, Opcode.y, n, UInt16.toNat_ofNat']
    omega
  case skipEqByte x kk | skipNeByte x kk | loadByte x kk | addByte x kk | random x kk =>
    have hlt := kk.toNat_lt
    simp only [Encodable, registers, List.forall_mem_singleton, hx] at h
    simp only [Spells, encode, ofDigits, family, Opcode.x, Opcode.kk, UInt16.toNat_ofNat']
    omega
  all_goals
    simp only [Encodable, registers, List.forall_mem_cons, hx] at h
    simp only [Spells, encode, ofDigits, family, Opcode.x, Opcode.y, Opcode.kk, n,
      UInt16.toNat_ofNat']
    omega

/-- Decoding gives exactly the instructions whose operands fit their digits. -/
theorem exists_decode_iff {i : Instruction} : (∃ w, decode w = .ok i) ↔ i.Encodable := by
  constructor
  · rintro ⟨w, h⟩
    exact (decode_eq_ok_iff.1 h).encodable
  · intro h
    exact ⟨i.encode, decode_eq_ok_iff.2 (spells_encode h)⟩

/-! ## Words of one instruction -/

/-- Whether two words are the same shift of the same register. -/
def SameShift (v w : UInt16) : Prop :=
  x v = x w ∧ (Matches "8xy6" v ∧ Matches "8xy6" w ∨ Matches "8xyE" v ∧ Matches "8xyE" w)

theorem spells_shiftRight_iff {r : UInt64} {w : UInt16} :
    (shiftRight r).Spells w ↔ Matches "8xy6" w ∧ x w = r.toNat := by
  simp [Spells, Matches, Hex.digitValue, and_assoc]

theorem spells_shiftLeft_iff {r : UInt64} {w : UInt16} :
    (shiftLeft r).Spells w ↔ Matches "8xyE" w ∧ x w = r.toNat := by
  simp [Spells, Matches, Hex.digitValue, and_assoc]

/-- Two words spell one instruction only if they are one word, or the same shift of the same
register. -/
theorem Spells.eq_iff {i j : Instruction} {v w : UInt16} (hi : i.Spells v) (hj : j.Spells w) :
    i = j ↔ v = w ∨ SameShift v w := by
  constructor
  · rintro rfl
    cases hshift : i.shifts with
    | false =>
      have hv := hi.encode_eq
      have hw := hj.encode_eq
      rw [hshift, if_neg Bool.false_ne_true] at hv hw
      exact Or.inl (hv.symm.trans hw)
    | true =>
      right
      cases i
      case shiftRight r =>
        rw [spells_shiftRight_iff] at hi hj
        exact ⟨hi.2.trans hj.2.symm, Or.inl ⟨hi.1, hj.1⟩⟩
      case shiftLeft r =>
        rw [spells_shiftLeft_iff] at hi hj
        exact ⟨hi.2.trans hj.2.symm, Or.inr ⟨hi.1, hj.1⟩⟩
      all_goals cases hshift
  · rintro (rfl | ⟨hx, ⟨hv, hw⟩ | ⟨hv, hw⟩⟩)
    · exact hi.unique hj
    · rw [hi.unique (spells_shiftRight_iff.2 ⟨hv, (toNat_x v).symm⟩),
        hj.unique (spells_shiftRight_iff.2 ⟨hw, (toNat_x w).symm⟩), hx]
    · rw [hi.unique (spells_shiftLeft_iff.2 ⟨hv, (toNat_x v).symm⟩),
        hj.unique (spells_shiftLeft_iff.2 ⟨hw, (toNat_x w).symm⟩), hx]

/-- Decoding is exact. It gives the instructions whose operands fit the digits of their patterns and
no others. Words of different instructions differ, and words of one instruction are equal but for
the digit of a shift that means nothing. The instruction of a word is one whose pattern the word
matches, and encoding it gives the word back but for that digit. A word is refused, with its own
number, exactly when it matches none of the patterns. -/
theorem decode_exact :
    (∀ i : Instruction, (∃ w, decode w = .ok i) ↔ i.Encodable) ∧
    (∀ (v w : UInt16) (i j : Instruction), decode v = .ok i → decode w = .ok j →
      (i = j ↔ v = w ∨ SameShift v w)) ∧
    (∀ (w : UInt16) (i : Instruction), decode w = .ok i →
      Matches i.pattern w ∧ i.encode = if i.shifts then withoutY w else w) ∧
    ∀ (w : UInt16) (fault : Fault),
      decode w = .error fault ↔ fault = .unknownOpcode w ∧ ∀ p ∈ patterns, ¬Matches p w := by
  refine ⟨fun i => exists_decode_iff, fun v w i j hv hw => ?_, fun w i hw => ?_,
    fun w fault => ⟨fun h => ?_, fun h => ?_⟩⟩
  · exact (decode_eq_ok_iff.1 hv).eq_iff (decode_eq_ok_iff.1 hw)
  · have hspells := decode_eq_ok_iff.1 hw
    exact ⟨hspells.matches, hspells.encode_eq⟩
  · obtain rfl := (decode_eq_error_iff.1 h).2
    exact ⟨rfl, (decode_eq_error_iff_not_matches w).1 h⟩
  · rw [h.1]
    exact (decode_eq_error_iff_not_matches w).2 h.2

/-- Two words of one shift: they differ in the digit that means nothing, and encoding drops it. -/
theorem decode_exact_of_shift :
    decode 0x8AB6 = .ok (shiftRight 0xA) ∧ decode 0x8AC6 = .ok (shiftRight 0xA) ∧
      SameShift 0x8AB6 0x8AC6 ∧ (shiftRight 0xA).encode = withoutY 0x8AB6 := by
  have hv : decode 0x8AB6 = .ok (shiftRight 0xA) := rfl
  have hw : decode 0x8AC6 = .ok (shiftRight 0xA) := rfl
  obtain ⟨-, hsame, hencode, -⟩ := decode_exact
  exact ⟨hv, hw, ((hsame _ _ _ _ hv hw).1 rfl).resolve_left (by decide), (hencode _ _ hv).2⟩

end Instruction

end Chip8VM
