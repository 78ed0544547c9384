import Chip8VM.Instruction

/-!
# Instructions as named records

A second way to write an instruction, for tools that build one by hand: its name, then
its operands by name and in decimal, as in `SkipEqImm { x: 1, kk: 34 }`. An operand
that is an address stands alone in round brackets. `ofName?` reads a name back together
with a value for each operand.
-/

namespace Chip8VM.Instruction

/-- The name of an instruction. -/
def name : Instruction → String
  | clear => "Cls"
  | ret => "Ret"
  | jump _ => "Jump"
  | call _ => "Call"
  | skipEqByte _ _ => "SkipEqImm"
  | skipNeByte _ _ => "SkipNeqImm"
  | skipEq _ _ => "SkipEqReg"
  | loadByte _ _ => "LoadImm"
  | addByte _ _ => "AddImm"
  | copy _ _ => "LoadReg"
  | or _ _ => "Or"
  | and _ _ => "And"
  | xor _ _ => "Xor"
  | add _ _ => "AddReg"
  | sub _ _ => "Sub"
  | shiftRight _ => "Shr"
  | subFrom _ _ => "Subn"
  | shiftLeft _ => "Shl"
  | skipNe _ _ => "SkipNeqReg"
  | setIndex _ => "LoadIndex"
  | jumpBy _ => "JumpOffset"
  | random _ _ => "Rand"
  | draw _ _ _ => "Draw"
  | skipPressed _ => "SkipKeyPressed"
  | skipReleased _ => "SkipKeyNotPressed"
  | readDelay _ => "LoadDelay"
  | awaitKey _ => "WaitKey"
  | setDelay _ => "SetDelay"
  | setSound _ => "SetSound"
  | addIndex _ => "AddIndex"
  | pointGlyph _ => "LoadFont"
  | storeDecimal _ => "StoreBcd"
  | storeRegisters _ => "StoreRegs"
  | loadRegisters _ => "LoadRegs"

/-- The instruction of a name, each operand taken from the values given. -/
def ofName? (name : String) (x y : UInt64) (kk n : UInt8) (address : UInt16) :
    Option Instruction :=
  match name with
  | "Cls" => some clear
  | "Ret" => some ret
  | "Jump" => some (jump address)
  | "Call" => some (call address)
  | "SkipEqImm" => some (skipEqByte x kk)
  | "SkipNeqImm" => some (skipNeByte x kk)
  | "SkipEqReg" => some (skipEq x y)
  | "LoadImm" => some (loadByte x kk)
  | "AddImm" => some (addByte x kk)
  | "LoadReg" => some (copy x y)
  | "Or" => some (or x y)
  | "And" => some (and x y)
  | "Xor" => some (xor x y)
  | "AddReg" => some (add x y)
  | "Sub" => some (sub x y)
  | "Shr" => some (shiftRight x)
  | "Subn" => some (subFrom x y)
  | "Shl" => some (shiftLeft x)
  | "SkipNeqReg" => some (skipNe x y)
  | "LoadIndex" => some (setIndex address)
  | "JumpOffset" => some (jumpBy address)
  | "Rand" => some (random x kk)
  | "Draw" => some (draw x y n)
  | "SkipKeyPressed" => some (skipPressed x)
  | "SkipKeyNotPressed" => some (skipReleased x)
  | "LoadDelay" => some (readDelay x)
  | "WaitKey" => some (awaitKey x)
  | "SetDelay" => some (setDelay x)
  | "SetSound" => some (setSound x)
  | "AddIndex" => some (addIndex x)
  | "LoadFont" => some (pointGlyph x)
  | "StoreBcd" => some (storeDecimal x)
  | "StoreRegs" => some (storeRegisters x)
  | "LoadRegs" => some (loadRegisters x)
  | _ => none

/-- What stands after the name: nothing, an address, or operands by name. -/
def arguments : Instruction → String
  | clear | ret => ""
  | jump address | call address | setIndex address | jumpBy address =>
    "(" ++ toString address.toNat ++ ")"
  | skipEqByte x kk | skipNeByte x kk | loadByte x kk | addByte x kk | random x kk =>
    " \x7b x: " ++ toString x.toNat ++ ", kk: " ++ toString kk.toNat ++ " \x7d"
  | skipEq x y | copy x y | or x y | and x y | xor x y | add x y | sub x y | subFrom x y
  | skipNe x y => " \x7b x: " ++ toString x.toNat ++ ", y: " ++ toString y.toNat ++ " \x7d"
  | draw x y n =>
    " \x7b x: " ++ toString x.toNat ++ ", y: " ++ toString y.toNat ++ ", n: "
      ++ toString n.toNat ++ " \x7d"
  | shiftRight x | shiftLeft x | skipPressed x | skipReleased x | readDelay x | awaitKey x
  | setDelay x | setSound x | addIndex x | pointGlyph x | storeDecimal x
  | storeRegisters x | loadRegisters x => " \x7b x: " ++ toString x.toNat ++ " \x7d"

/-- An instruction as a record: its name and its operands. -/
def recordText (i : Instruction) : String := i.name ++ i.arguments

end Chip8VM.Instruction
