import Chip8VM.Instruction

/-!
# Words and instructions

An instruction is one word of four hexadecimal digits. The first digit is its family;
the others carry operands or select within the family. `decode?` finds the instruction
that a word stands for, if there is one, and `encode` is the word of an instruction by
the patterns given with its constructors. Two patterns have a digit that means nothing,
the `y` of both shifts; `encode` writes it as zero.
-/

namespace Chip8VM

/-! ## Digits of a word -/

namespace Opcode

/-- The first digit. -/
def family (word : UInt16) : Nat := word.toNat / 0x1000

/-- The second digit, which names a register. -/
def x (word : UInt16) : Nat := word.toNat / 0x100 % 0x10

/-- The third digit, which names a register. -/
def y (word : UInt16) : Nat := word.toNat / 0x10 % 0x10

/-- The last digit. -/
def n (word : UInt16) : Nat := word.toNat % 0x10

/-- The last two digits, a byte. -/
def kk (word : UInt16) : Nat := word.toNat % 0x100

/-- The last three digits, an address. -/
def nnn (word : UInt16) : Nat := word.toNat % 0x1000

/-- The word of four digits. -/
def ofDigits (f x y n : Nat) : UInt16 := UInt16.ofNat (((f * 16 + x) * 16 + y) * 16 + n)

/-- A word is the number that its digits make. -/
theorem toNat_eq (word : UInt16) :
    word.toNat = ((family word * 16 + x word) * 16 + y word) * 16 + n word := by
  have hlt := word.toNat_lt
  unfold family x y n
  omega

end Opcode

namespace Instruction

open Opcode in
/-- The instruction that a word stands for. -/
def decode? (word : UInt16) : Option Instruction :=
  let x : UInt64 := UInt64.ofNat (x word)
  let y : UInt64 := UInt64.ofNat (y word)
  let byte : UInt8 := UInt8.ofNat (kk word)
  let address : UInt16 := UInt16.ofNat (nnn word)
  match family word with
  | 0x0 =>
    match nnn word with
    | 0x0E0 => some clear
    | 0x0EE => some ret
    | _ => none
  | 0x1 => some (jump address)
  | 0x2 => some (call address)
  | 0x3 => some (skipEqByte x byte)
  | 0x4 => some (skipNeByte x byte)
  | 0x5 =>
    match n word with
    | 0x0 => some (skipEq x y)
    | _ => none
  | 0x6 => some (loadByte x byte)
  | 0x7 => some (addByte x byte)
  | 0x8 =>
    match n word with
    | 0x0 => some (copy x y)
    | 0x1 => some (or x y)
    | 0x2 => some (and x y)
    | 0x3 => some (xor x y)
    | 0x4 => some (add x y)
    | 0x5 => some (sub x y)
    | 0x6 => some (shiftRight x)
    | 0x7 => some (subFrom x y)
    | 0xE => some (shiftLeft x)
    | _ => none
  | 0x9 =>
    match n word with
    | 0x0 => some (skipNe x y)
    | _ => none
  | 0xA => some (setIndex address)
  | 0xB => some (jumpBy address)
  | 0xC => some (random x byte)
  | 0xD => some (draw x y (UInt8.ofNat (n word)))
  | 0xE =>
    match kk word with
    | 0x9E => some (skipPressed x)
    | 0xA1 => some (skipReleased x)
    | _ => none
  | 0xF =>
    match kk word with
    | 0x07 => some (readDelay x)
    | 0x0A => some (awaitKey x)
    | 0x15 => some (setDelay x)
    | 0x18 => some (setSound x)
    | 0x1E => some (addIndex x)
    | 0x29 => some (pointGlyph x)
    | 0x33 => some (storeDecimal x)
    | 0x55 => some (storeRegisters x)
    | 0x65 => some (loadRegisters x)
    | _ => none
  | _ => none

/-- The instruction that a word stands for; any other word is a fault. -/
def decode (word : UInt16) : Except Fault Instruction :=
  match decode? word with
  | some instruction => .ok instruction
  | none => .error (.unknownOpcode word)

open Opcode in
/-- The word of an instruction whose operands fit their digits. -/
def encode : Instruction → UInt16
  | clear => 0x00E0
  | ret => 0x00EE
  | jump address => 0x1000 + address
  | call address => 0x2000 + address
  | skipEqByte x kk => ofDigits 0x3 x.toNat 0 kk.toNat
  | skipNeByte x kk => ofDigits 0x4 x.toNat 0 kk.toNat
  | skipEq x y => ofDigits 0x5 x.toNat y.toNat 0x0
  | loadByte x kk => ofDigits 0x6 x.toNat 0 kk.toNat
  | addByte x kk => ofDigits 0x7 x.toNat 0 kk.toNat
  | copy x y => ofDigits 0x8 x.toNat y.toNat 0x0
  | or x y => ofDigits 0x8 x.toNat y.toNat 0x1
  | and x y => ofDigits 0x8 x.toNat y.toNat 0x2
  | xor x y => ofDigits 0x8 x.toNat y.toNat 0x3
  | add x y => ofDigits 0x8 x.toNat y.toNat 0x4
  | sub x y => ofDigits 0x8 x.toNat y.toNat 0x5
  | shiftRight x => ofDigits 0x8 x.toNat 0x0 0x6
  | subFrom x y => ofDigits 0x8 x.toNat y.toNat 0x7
  | shiftLeft x => ofDigits 0x8 x.toNat 0x0 0xE
  | skipNe x y => ofDigits 0x9 x.toNat y.toNat 0x0
  | setIndex address => 0xA000 + address
  | jumpBy address => 0xB000 + address
  | random x kk => ofDigits 0xC x.toNat 0 kk.toNat
  | draw x y n => ofDigits 0xD x.toNat y.toNat n.toNat
  | skipPressed x => ofDigits 0xE x.toNat 0x9 0xE
  | skipReleased x => ofDigits 0xE x.toNat 0xA 0x1
  | readDelay x => ofDigits 0xF x.toNat 0x0 0x7
  | awaitKey x => ofDigits 0xF x.toNat 0x0 0xA
  | setDelay x => ofDigits 0xF x.toNat 0x1 0x5
  | setSound x => ofDigits 0xF x.toNat 0x1 0x8
  | addIndex x => ofDigits 0xF x.toNat 0x1 0xE
  | pointGlyph x => ofDigits 0xF x.toNat 0x2 0x9
  | storeDecimal x => ofDigits 0xF x.toNat 0x3 0x3
  | storeRegisters x => ofDigits 0xF x.toNat 0x5 0x5
  | loadRegisters x => ofDigits 0xF x.toNat 0x6 0x5

/-! ## Operands that fit -/

/-- Whether every operand fits the digits that the instruction's pattern has for it. -/
def Encodable : Instruction → Prop
  | jump address | call address | setIndex address | jumpBy address => address < 0x1000
  | draw x y n => x < 16 ∧ y < 16 ∧ n < 16
  | i => ∀ x ∈ i.registers, x < 16

end Instruction

end Chip8VM
