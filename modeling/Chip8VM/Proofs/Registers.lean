import Chip8VM.Guest.Execute
import Mathlib

/-!
# What arithmetic leaves in the registers

A write is said here of every register on its own: the register that was named holds the new
byte, and the others hold what they held (`Processor.get_set`, `Processor.get_setFlag`,
`Processor.get_setFirst`).

Five instructions compute a byte from registers and leave a flag with it, a carry, a comparison
or a bit that was shifted out. `Guest.Computes` says what comes of such an instruction in numbers:
operands are read before anything is written, and the result is written after the flag, so that
the flag is lost where the result goes into the flag register. `arithmetic_leaves` gives result
and flag of all five, whatever registers the operands name.
-/

namespace Chip8VM

/-! ## Writes, register by register -/

namespace Processor

variable (p : Processor) (q : Register)

/-- Writing a register leaves the others alone. -/
theorem get_set (r : Register) (byte : UInt8) :
    (p.set r byte).v.get q = if q = r then byte else p.v.get q := by
  have hval : (r.val = q.val) ↔ q = r := ⟨fun h => Fin.ext h.symm, fun h => h ▸ rfl⟩
  simp only [set, Vector.get_eq_getElem, Vector.getElem_set, hval]

/-- Setting the flag leaves the other registers alone. -/
theorem get_setFlag (flag : Bool) :
    (p.setFlag flag).v.get q = if q = Register.flag then (if flag then 1 else 0) else p.v.get q :=
  p.get_set q Register.flag _

/-- Writing registers from `V0` on leaves those alone that there is no byte for. -/
theorem get_setFirst (bytes : List UInt8) :
    (p.setFirst bytes).v.get q = bytes[q.val]?.getD (p.v.get q) := by
  simp [setFirst, Vector.get_eq_getElem]

end Processor

namespace Guest

variable (g : Guest) (x : UInt64) (r : Register)

theorem get_setRegister (byte : UInt8) :
    (g.setRegister x byte).processor.v.get r =
      if r = .ofOperand x then byte else g.processor.v.get r :=
  g.processor.get_set r _ byte

/-- The result is written after the flag, so it stays where both go to one register. -/
theorem get_setWithFlag (byte : UInt8) (flag : Bool) :
    (g.setWithFlag x byte flag).processor.v.get r =
      if r = .ofOperand x then byte
      else if r = Register.flag then (if flag then 1 else 0) else g.processor.v.get r := by
  rw [setWithFlag, Processor.get_set, Processor.get_setFlag]

/-! ## Results and flags -/

/-- Whether an instruction puts a result into the register of an operand and a flag into the flag
register, and does nothing else. The result stays where both are one register. -/
structure Computes (result flag : Nat) (outcome : Outcome) : Prop where
  ok : outcome.1 = .ok ()
  register (r : Register) : (outcome.2.processor.v.get r).toNat =
    if r = .ofOperand x then result else if r = .flag then flag else (g.processor.v.get r).toNat
  rest : outcome.2 = { g with processor := { g.processor with v := outcome.2.processor.v } }

theorem computes_setWithFlag {byte : UInt8} {flag : Bool} {result carry : Nat}
    (hresult : byte.toNat = result) (hflag : flag.toNat = carry) :
    g.Computes x result carry (.ok (), g.setWithFlag x byte flag) := by
  refine ⟨rfl, fun r => ?_, rfl⟩
  rw [get_setWithFlag]
  split
  · exact hresult
  · split
    · rw [← hflag]
      cases flag <;> rfl
    · rfl

end Guest

namespace Instruction

/-- Two bytes are added without a carry out of the sum. -/
theorem toNat_sum (a b : UInt8) : (a.toUInt16 + b.toUInt16).toNat = a.toNat + b.toNat := by
  have ha := a.toNat_lt
  have hb := b.toNat_lt
  rw [UInt16.toNat_add, UInt8.toNat_toUInt16, UInt8.toNat_toUInt16]
  omega

/-- A comparison of words as a number. -/
theorem toNat_decide_of_iff {P Q : Prop} [Decidable P] [Decidable Q] (h : P ↔ Q) :
    (decide P).toNat = if Q then 1 else 0 := by
  rw [Bool.toNat, decide_eq_decide.2 h, Bool.cond_decide]

/-- A mask of one bit tells whether the bit is set. -/
theorem toNat_and_beq {mask : UInt8} {k : Nat} (hmask : mask.toNat = 2 ^ k) (byte : UInt8) :
    (byte &&& mask == mask).toNat = byte.toNat / 2 ^ k % 2 := by
  have hbit : (byte &&& mask == mask) = byte.toNat.testBit k := by
    rw [Bool.eq_iff_iff, beq_iff_eq, ← UInt8.toNat_inj, UInt8.toNat_and, hmask, Nat.and_two_pow]
    have hpos : 0 < 2 ^ k := Nat.two_pow_pos k
    cases byte.toNat.testBit k <;> simp
    omega
  rw [hbit, Nat.toNat_testBit]

/-- The instructions of arithmetic leave a result in the register of their first operand and a
flag in the flag register: a sum and its carry, a difference and whether it was taken from the
larger byte, a byte shifted by one place and the bit that was shifted out. -/
theorem arithmetic_leaves (g : Guest) (x y : UInt64) :
    let a := (g.register x).toNat
    let b := (g.register y).toNat
    g.Computes x ((a + b) % 256) (if 255 < a + b then 1 else 0) ((add x y).execute g) ∧
    g.Computes x ((256 + a - b) % 256) (if b < a then 1 else 0) ((sub x y).execute g) ∧
    g.Computes x ((256 + b - a) % 256) (if a < b then 1 else 0) ((subFrom x y).execute g) ∧
    g.Computes x (a / 2) (a % 2) ((shiftRight x).execute g) ∧
    g.Computes x (2 * a % 256) (a / 128) ((shiftLeft x).execute g) := by
  intro a b
  have ha : a < 256 := (g.register x).toNat_lt
  have hb : b < 256 := (g.register y).toNat_lt
  have hsum : ((g.register x).toUInt16 + (g.register y).toUInt16).toNat = a + b := toNat_sum _ _
  refine ⟨g.computes_setWithFlag x ?_ ?_, g.computes_setWithFlag x ?_ ?_,
    g.computes_setWithFlag x ?_ ?_, g.computes_setWithFlag x ?_ ?_,
    g.computes_setWithFlag x ?_ ?_⟩
  · rw [UInt16.toNat_toUInt8, hsum]
  · refine toNat_decide_of_iff ?_
    rw [UInt16.lt_iff_toNat_lt, hsum]
    rfl
  · rw [UInt8.toNat_sub]
    omega
  · exact toNat_decide_of_iff UInt8.lt_iff_toNat_lt
  · rw [UInt8.toNat_sub]
    omega
  · exact toNat_decide_of_iff UInt8.lt_iff_toNat_lt
  · rw [UInt8.toNat_shiftRight]
    exact Nat.shiftRight_eq_div_pow a 1
  · rw [toNat_and_beq (k := 0) rfl, Nat.pow_zero, Nat.div_one]
  · rw [UInt8.toNat_shiftLeft, Nat.mul_comm]
    exact congrArg (· % 256) (Nat.shiftLeft_eq a 1)
  · rw [toNat_and_beq (k := 7) rfl]
    omega

end Instruction

end Chip8VM
