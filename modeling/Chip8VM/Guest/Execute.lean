import Chip8VM.Guest
import Chip8VM.Instruction

/-!
# What instructions do

`Instruction.execute` is the effect of one instruction on a guest whose program counter
is already past it. The outcome is a result and the guest afterwards. Memory and stack
are checked before anything is written, so that a fault leaves the guest as it was.

Where an instruction leaves a flag, its operands are read first, then the flag is set
and then the result, in this order; it shows when an operand is the flag register.
-/

namespace Chip8VM

namespace Guest

/-! ## Steps that can fail -/

/-- A result and the guest afterwards. -/
abbrev Outcome := Except Fault Unit × Guest

/-- Goes on with a checked value, or leaves the guest alone. -/
def attempt (g : Guest) (checked : Except Fault α) (next : α → Guest) : Outcome :=
  match checked with
  | .ok a => (.ok (), next a)
  | .error fault => (.error fault, g)

/-! ## Drawing -/

/-- Draws a sprite to column `Vx` of row `Vy`. The flag tells whether a lit pixel went
dark. Both coordinates are read before the flag is touched. -/
def drawSprite (g : Guest) (x y : UInt64) (sprite : List UInt8) : Guest :=
  let column := (g.register x).toUInt64
  let row := (g.register y).toUInt64
  let (screen, erased) := g.screen.drawSprite column row sprite
  { g with processor := g.processor.setFlag erased, screen := screen }

/-! ## Decimal digits -/

/-- The three decimal digits of a byte, hundreds first. -/
def decimal (byte : UInt8) : List UInt8 := [byte / 100, byte / 10 % 10, byte % 10]

/-- The digits make up the byte. -/
theorem decimal_eq : ∀ byte : UInt8, ∃ h t o : UInt8, decimal byte = [h, t, o] ∧
    h.toNat ≤ 9 ∧ t.toNat ≤ 9 ∧ o.toNat ≤ 9 ∧
    100 * h.toNat + 10 * t.toNat + o.toNat = byte.toNat := by
  intro byte
  have hlt := byte.toNat_lt
  refine ⟨_, _, _, rfl, ?_, ?_, ?_, ?_⟩ <;>
    simp only [UInt8.toNat_div, UInt8.toNat_mod, UInt8.reduceToNat] <;> omega

end Guest

/-! ## Execution -/

open Guest in
/-- The effect of an instruction. -/
def Instruction.execute (i : Instruction) (g : Guest) : Outcome :=
  let p := g.processor
  match i with
  | clear => (.ok (), { g with screen := g.screen.clear })
  | ret => g.attempt p.ret fun p => { g with processor := p }
  | jump address => (.ok (), { g with processor := { p with pc := address } })
  | call address => g.attempt (p.call address) fun p => { g with processor := p }
  | skipEqByte x kk => (.ok (), g.skipIf (g.register x == kk))
  | skipNeByte x kk => (.ok (), g.skipIf (g.register x != kk))
  | skipEq x y => (.ok (), g.skipIf (g.register x == g.register y))
  | loadByte x kk => (.ok (), g.setRegister x kk)
  | addByte x kk => (.ok (), g.setRegister x (g.register x + kk))
  | copy x y => (.ok (), g.setRegister x (g.register y))
  | or x y => (.ok (), g.setRegister x (g.register x ||| g.register y))
  | and x y => (.ok (), g.setRegister x (g.register x &&& g.register y))
  | xor x y => (.ok (), g.setRegister x (g.register x ^^^ g.register y))
  | add x y =>
    let sum := (g.register x).toUInt16 + (g.register y).toUInt16
    (.ok (), g.setWithFlag x sum.toUInt8 (0xFF < sum))
  | sub x y =>
    let (vx, vy) := (g.register x, g.register y)
    (.ok (), g.setWithFlag x (vx - vy) (vy < vx))
  | shiftRight x =>
    let vx := g.register x
    (.ok (), g.setWithFlag x (vx >>> 1) (vx &&& 0x01 == 0x01))
  | subFrom x y =>
    let (vx, vy) := (g.register x, g.register y)
    (.ok (), g.setWithFlag x (vy - vx) (vx < vy))
  | shiftLeft x =>
    let vx := g.register x
    (.ok (), g.setWithFlag x (vx <<< 1) (vx &&& 0x80 == 0x80))
  | skipNe x y => (.ok (), g.skipIf (g.register x != g.register y))
  | setIndex address => (.ok (), { g with processor := { p with i := address } })
  | jumpBy address =>
    (.ok (), { g with processor := { p with pc := address + (g.register 0).toUInt16 } })
  | random x kk =>
    (.ok (), { g.setRegister x (g.random.byte &&& kk) with random := g.random.rest })
  | draw x y n => g.attempt (g.memory.slice p.i.toUInt64 n.toUInt64) (g.drawSprite x y)
  | skipPressed x => (.ok (), g.skipIf (g.keypad.isPressed (g.register x)))
  | skipReleased x => (.ok (), g.skipIf (!g.keypad.isPressed (g.register x)))
  | readDelay x => (.ok (), g.setRegister x p.delay)
  | awaitKey x => (.ok (), { g with keypad := g.keypad.await (x &&& 0xF) })
  | setDelay x => (.ok (), { g with processor := { p with delay := g.register x } })
  | setSound x => (.ok (), { g with processor := { p with sound := g.register x } })
  | addIndex x =>
    (.ok (), { g with processor := { p with i := p.i + (g.register x).toUInt16 } })
  | pointGlyph x =>
    (.ok (), { g with processor := { p with i := Font.address (g.register x &&& 0x0F) } })
  | storeDecimal x =>
    g.attempt (g.memory.store p.i.toUInt64 (decimal (g.register x))) fun memory =>
      { g with memory := memory }
  | storeRegisters x =>
    g.attempt (g.memory.store p.i.toUInt64 (p.upTo (.ofOperand x))) fun memory =>
      { g with memory := memory }
  | loadRegisters x =>
    g.attempt (g.memory.slice p.i.toUInt64 ((x &&& 0xF) + 1)) fun bytes =>
      { g with processor := p.setFirst bytes }

end Chip8VM
