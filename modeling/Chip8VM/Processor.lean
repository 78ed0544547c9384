import Chip8VM.Fault

/-!
# The processor

Sixteen registers of one byte, an index register, a program counter, a stack of sixteen
return addresses and two timers. The last register is the flag: arithmetic leaves
carries and borrows in it, drawing leaves collisions.

The program counter is already past an instruction while it executes, so a skip adds
two, and a stack fault names the address two before it.
-/

namespace Chip8VM

/-- The number of a register. -/
abbrev Register := Fin 16

namespace Register

/-- The register that holds carries, borrows and collisions. -/
def flag : Register := 15

/-- The register that an operand names: only its last hexadecimal digit counts. -/
def ofOperand (operand : UInt64) : Register := Fin.ofNat 16 operand.toNat

end Register

/-- The processor's state. -/
structure Processor where
  /-- The registers `V0` to `VF`. -/
  v : Vector UInt8 16
  /-- The index register `I`. -/
  i : UInt16
  /-- The address of the next instruction. -/
  pc : UInt16
  /-- The number of return addresses on the stack. -/
  sp : UInt8
  /-- Return addresses, the oldest first; those from `sp` on are stale. -/
  stack : Vector UInt16 16
  /-- The delay timer. -/
  delay : UInt8
  /-- The sound timer. -/
  sound : UInt8
  deriving DecidableEq

namespace Processor

/-- The number of return addresses that fit on the stack. -/
def stackDepth : Nat := 16

/-- All zero, about to execute the first instruction of a program. -/
def powerOn : Processor where
  v := Vector.replicate 16 0
  i := 0
  pc := 0x200
  sp := 0
  stack := Vector.replicate 16 0
  delay := 0
  sound := 0

/-! ## Registers -/

/-- Writes a register. -/
def set (p : Processor) (r : Register) (byte : UInt8) : Processor :=
  { p with v := p.v.set r byte }

/-- Writes one or zero to the flag. -/
def setFlag (p : Processor) (flag : Bool) : Processor :=
  p.set Register.flag (if flag then 1 else 0)

/-- The registers `V0` to `Vr`. -/
def upTo (p : Processor) (r : Register) : List UInt8 := p.v.toList.take (r.val + 1)

/-- Writes registers from `V0` on. -/
def setFirst (p : Processor) (bytes : List UInt8) : Processor :=
  { p with v := Vector.ofFn fun r : Register => bytes[r.val]?.getD p.v[r] }

/-! ## Flow of control -/

/-- Passes over the next instruction. -/
def skip (p : Processor) : Processor := { p with pc := p.pc + 2 }

/-- Passes over the next instruction if the condition holds. -/
def skipIf (p : Processor) (condition : Bool) : Processor :=
  if condition then p.skip else p

/-- Continues at an address, to return here later. -/
def call (p : Processor) (address : UInt16) : Except Fault Processor :=
  if h : p.sp.toNat < 16 then
    .ok { p with stack := p.stack.set p.sp.toNat p.pc, sp := p.sp + 1, pc := address }
  else .error (.stackOverflow (p.pc - 2))

/-- Continues after the latest call that has not returned. -/
def ret (p : Processor) : Except Fault Processor :=
  if p.sp = 0 then .error (.stackUnderflow (p.pc - 2))
  else .ok { p with sp := p.sp - 1, pc := p.stack[(p.sp - 1).toNat]?.getD 0 }

/-! ## Timers -/

/-- One less, and zero stays. -/
def countDown (timer : UInt8) : UInt8 := if timer = 0 then 0 else timer - 1

/-- Counts both timers down by one. -/
def tick (p : Processor) : Processor :=
  { p with delay := countDown p.delay, sound := countDown p.sound }

theorem toNat_countDown (timer : UInt8) : (countDown timer).toNat = timer.toNat - 1 := by
  unfold countDown
  split
  · simp_all
  · rename_i h
    have : 1 ≤ timer := by
      rw [UInt8.le_iff_toNat_le]
      have : timer.toNat ≠ 0 := fun h0 => h (UInt8.toNat_inj.1 (by simpa using h0))
      simp; omega
    rw [UInt8.toNat_sub_of_le _ _ this]
    rfl

end Processor

end Chip8VM
