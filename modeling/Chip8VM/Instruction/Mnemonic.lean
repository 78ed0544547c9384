import Chip8VM.Instruction

/-!
# Assembler text

The conventional way to write an instruction: a keyword, then its operands parted by
commas, as in `LD V1, 0x22`. Registers are written as they were given. The kinds of
operands never look alike: a register starts with `V`, a number with `0x`, and the
timers, the keypad and the forms of the index register have names of their own.
-/

namespace Chip8VM

/-- What stands after the keyword of an instruction. -/
inductive Operand where
  /-- A register. -/
  | register (x : UInt64)
  /-- A byte, in at least two digits. -/
  | byte (kk : UInt8)
  /-- An address, in at least three digits. -/
  | address (nnn : UInt16)
  /-- A height, in as many digits as it needs. -/
  | height (n : UInt8)
  /-- The delay timer. -/
  | delay
  /-- The sound timer. -/
  | sound
  /-- The next key. -/
  | key
  /-- The font. -/
  | font
  /-- Decimal digits. -/
  | decimal
  /-- The index register. -/
  | index
  /-- Memory from the index register on. -/
  | atIndex

/-- How an operand is written. -/
def Operand.text : Operand → String
  | register x => "V" ++ Hex.text 1 x.toNat
  | byte kk => Hex.literal 2 kk.toNat
  | address nnn => Hex.literal 3 nnn.toNat
  | height n => Hex.literal 1 n.toNat
  | delay => "DT"
  | sound => "ST"
  | key => "K"
  | font => "F"
  | decimal => "B"
  | index => "I"
  | atIndex => "[I]"

namespace Instruction

/-- The word that an instruction starts with. -/
def keyword : Instruction → String
  | clear => "CLS"
  | ret => "RET"
  | jump _ | jumpBy _ => "JP"
  | call _ => "CALL"
  | skipEqByte _ _ | skipEq _ _ => "SE"
  | skipNeByte _ _ | skipNe _ _ => "SNE"
  | loadByte _ _ | copy _ _ | setIndex _ | readDelay _ | awaitKey _ | setDelay _ | setSound _
  | pointGlyph _ | storeDecimal _ | storeRegisters _ | loadRegisters _ => "LD"
  | addByte _ _ | add _ _ | addIndex _ => "ADD"
  | or _ _ => "OR"
  | and _ _ => "AND"
  | xor _ _ => "XOR"
  | sub _ _ => "SUB"
  | shiftRight _ => "SHR"
  | subFrom _ _ => "SUBN"
  | shiftLeft _ => "SHL"
  | random _ _ => "RND"
  | draw _ _ _ => "DRW"
  | skipPressed _ => "SKP"
  | skipReleased _ => "SKNP"

/-- The operands of an instruction, in the order in which they are written. -/
def operands : Instruction → List Operand
  | clear | ret => []
  | jump address | call address => [.address address]
  | jumpBy address => [.register 0, .address address]
  | setIndex address => [.index, .address address]
  | skipEqByte x kk | skipNeByte x kk | loadByte x kk | addByte x kk | random x kk =>
    [.register x, .byte kk]
  | skipEq x y | skipNe x y | copy x y | or x y | and x y | xor x y | add x y | sub x y
  | subFrom x y => [.register x, .register y]
  | draw x y n => [.register x, .register y, .height n]
  | shiftRight x | shiftLeft x | skipPressed x | skipReleased x => [.register x]
  | readDelay x => [.register x, .delay]
  | awaitKey x => [.register x, .key]
  | setDelay x => [.delay, .register x]
  | setSound x => [.sound, .register x]
  | addIndex x => [.index, .register x]
  | pointGlyph x => [.font, .register x]
  | storeDecimal x => [.decimal, .register x]
  | storeRegisters x => [.atIndex, .register x]
  | loadRegisters x => [.register x, .atIndex]

/-- The assembler text of an instruction. -/
def mnemonic (i : Instruction) : String :=
  match i.operands with
  | [] => i.keyword
  | first :: rest =>
    i.keyword ++ " " ++ first.text ++ String.join (rest.map fun operand => ", " ++ operand.text)

end Instruction

end Chip8VM
