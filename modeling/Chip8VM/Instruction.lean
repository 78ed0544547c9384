import Chip8VM.Fault

/-!
# Instructions

The 34 instructions with their operands. A register operand is kept as it was given, of
any size; only execution reduces it to one of the sixteen registers. `registers` lists
the register operands of an instruction and `mapRegisters` changes them, which is how an
instruction is compared with the one that names its registers by their last digit
(`reduced`).
-/

namespace Chip8VM

/-- An instruction. In the patterns, `x` and `y` stand for registers, `kk` for a byte,
`n` for a height and `nnn` for an address. -/
inductive Instruction where
  /-- Pattern `00E0`: darken the screen. -/
  | clear
  /-- Pattern `00EE`: return from a call. -/
  | ret
  /-- Pattern `1nnn`: continue at an address. -/
  | jump (address : UInt16)
  /-- Pattern `2nnn`: call the code at an address. -/
  | call (address : UInt16)
  /-- Pattern `3xkk`: skip if `Vx` is the byte. -/
  | skipEqByte (x : UInt64) (kk : UInt8)
  /-- Pattern `4xkk`: skip if `Vx` is not the byte. -/
  | skipNeByte (x : UInt64) (kk : UInt8)
  /-- Pattern `5xy0`: skip if `Vx` and `Vy` are equal. -/
  | skipEq (x y : UInt64)
  /-- Pattern `6xkk`: put the byte into `Vx`. -/
  | loadByte (x : UInt64) (kk : UInt8)
  /-- Pattern `7xkk`: add the byte to `Vx`, leaving the flag alone. -/
  | addByte (x : UInt64) (kk : UInt8)
  /-- Pattern `8xy0`: copy `Vy` to `Vx`. -/
  | copy (x y : UInt64)
  /-- Pattern `8xy1`: or `Vy` into `Vx`. -/
  | or (x y : UInt64)
  /-- Pattern `8xy2`: and `Vy` into `Vx`. -/
  | and (x y : UInt64)
  /-- Pattern `8xy3`: exclusive-or `Vy` into `Vx`. -/
  | xor (x y : UInt64)
  /-- Pattern `8xy4`: add `Vy` to `Vx`, the carry to the flag. -/
  | add (x y : UInt64)
  /-- Pattern `8xy5`: subtract `Vy` from `Vx`, whether `Vx` was larger to the flag. -/
  | sub (x y : UInt64)
  /-- Pattern `8xy6`: shift `Vx` right, the bit shifted out to the flag. -/
  | shiftRight (x : UInt64)
  /-- Pattern `8xy7`: put `Vy` less `Vx` into `Vx`, whether `Vy` was larger to the flag. -/
  | subFrom (x y : UInt64)
  /-- Pattern `8xyE`: shift `Vx` left, the bit shifted out to the flag. -/
  | shiftLeft (x : UInt64)
  /-- Pattern `9xy0`: skip if `Vx` and `Vy` differ. -/
  | skipNe (x y : UInt64)
  /-- Pattern `Annn`: put an address into `I`. -/
  | setIndex (address : UInt16)
  /-- Pattern `Bnnn`: continue at an address plus `V0`. -/
  | jumpBy (address : UInt16)
  /-- Pattern `Cxkk`: put a random byte, masked by the byte, into `Vx`. -/
  | random (x : UInt64) (kk : UInt8)
  /-- Pattern `Dxyn`: draw the sprite of `n` rows at `I` to column `Vx` of row `Vy`. -/
  | draw (x y : UInt64) (n : UInt8)
  /-- Pattern `Ex9E`: skip if the key `Vx` is down. -/
  | skipPressed (x : UInt64)
  /-- Pattern `ExA1`: skip if the key `Vx` is up. -/
  | skipReleased (x : UInt64)
  /-- Pattern `Fx07`: copy the delay timer to `Vx`. -/
  | readDelay (x : UInt64)
  /-- Pattern `Fx0A`: wait for a key to put into `Vx`. -/
  | awaitKey (x : UInt64)
  /-- Pattern `Fx15`: set the delay timer to `Vx`. -/
  | setDelay (x : UInt64)
  /-- Pattern `Fx18`: set the sound timer to `Vx`. -/
  | setSound (x : UInt64)
  /-- Pattern `Fx1E`: add `Vx` to `I`. -/
  | addIndex (x : UInt64)
  /-- Pattern `Fx29`: point `I` at the sprite of the last digit of `Vx`. -/
  | pointGlyph (x : UInt64)
  /-- Pattern `Fx33`: write the three decimal digits of `Vx` at `I`. -/
  | storeDecimal (x : UInt64)
  /-- Pattern `Fx55`: write `V0` to `Vx` at `I`. -/
  | storeRegisters (x : UInt64)
  /-- Pattern `Fx65`: read `V0` to `Vx` at `I`. -/
  | loadRegisters (x : UInt64)
  deriving DecidableEq

namespace Instruction

/-- The register operands, in order. -/
def registers : Instruction → List UInt64
  | clear | ret | jump _ | call _ | setIndex _ | jumpBy _ => []
  | skipEqByte x _ | skipNeByte x _ | loadByte x _ | addByte x _ | random x _
  | shiftRight x | shiftLeft x | skipPressed x | skipReleased x | readDelay x | awaitKey x
  | setDelay x | setSound x | addIndex x | pointGlyph x | storeDecimal x
  | storeRegisters x | loadRegisters x => [x]
  | skipEq x y | copy x y | or x y | and x y | xor x y | add x y | sub x y | subFrom x y
  | skipNe x y | draw x y _ => [x, y]

/-- The instruction with every register operand changed by `f`. -/
def mapRegisters (f : UInt64 → UInt64) : Instruction → Instruction
  | clear => clear
  | ret => ret
  | jump address => jump address
  | call address => call address
  | skipEqByte x kk => skipEqByte (f x) kk
  | skipNeByte x kk => skipNeByte (f x) kk
  | skipEq x y => skipEq (f x) (f y)
  | loadByte x kk => loadByte (f x) kk
  | addByte x kk => addByte (f x) kk
  | copy x y => copy (f x) (f y)
  | or x y => or (f x) (f y)
  | and x y => and (f x) (f y)
  | xor x y => xor (f x) (f y)
  | add x y => add (f x) (f y)
  | sub x y => sub (f x) (f y)
  | shiftRight x => shiftRight (f x)
  | subFrom x y => subFrom (f x) (f y)
  | shiftLeft x => shiftLeft (f x)
  | skipNe x y => skipNe (f x) (f y)
  | setIndex address => setIndex address
  | jumpBy address => jumpBy address
  | random x kk => random (f x) kk
  | draw x y n => draw (f x) (f y) n
  | skipPressed x => skipPressed (f x)
  | skipReleased x => skipReleased (f x)
  | readDelay x => readDelay (f x)
  | awaitKey x => awaitKey (f x)
  | setDelay x => setDelay (f x)
  | setSound x => setSound (f x)
  | addIndex x => addIndex (f x)
  | pointGlyph x => pointGlyph (f x)
  | storeDecimal x => storeDecimal (f x)
  | storeRegisters x => storeRegisters (f x)
  | loadRegisters x => loadRegisters (f x)

/-- The instruction with every register named by the last digit of its operand. -/
def reduced : Instruction → Instruction := mapRegisters (· % 16)

theorem registers_mapRegisters (f : UInt64 → UInt64) (i : Instruction) :
    (i.mapRegisters f).registers = i.registers.map f := by
  cases i <;> rfl

end Instruction

end Chip8VM
