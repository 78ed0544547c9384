import Chip8VM.Proofs.Safety
import Chip8VM.Proofs.Transfers

/-!
# Register operands

A register operand may be any word of 64 bits, and only its last hexadecimal digit counts.
`execute_mapRegisters` says so of all instructions at once: operands may be exchanged for others
with the same last digits, and the outcome is the same, guest and random bytes included.

`Literal.execute` takes operands as they stand: an operand is an index into the array of
registers, and one that the array does not have gives no value, and neither does an index past
the stack. Where no operand is used as an index, an operation of the machine stands there as it
is. Once the operands are reduced there always is a value, and it is that of the instruction as
it was given (`last_digits_decide`). So no operand reaches past the last register, blocks of
registers are as long as the last digit says (`loads_loadRegisters`, `stores_storeRegisters`),
and the register that waits for a key exists.
-/

namespace Chip8VM

/-! ## Operands with the same last digit -/

/-- Operands with the same last digit name one register. -/
theorem Register.ofOperand_congr {x y : UInt64} (h : x.toNat % 16 = y.toNat % 16) :
    ofOperand x = ofOperand y :=
  Fin.ext h

namespace Instruction

theorem and_digit_congr {x y : UInt64} (h : x.toNat % 16 = y.toNat % 16) :
    x &&& 0xF = y &&& 0xF :=
  UInt64.toNat_inj.1 (by rw [toNat_and_digit, toNat_and_digit, h])

/-- An instruction does not tell operands with the same last digit from each other. -/
theorem execute_mapRegisters {f : UInt64 → UInt64} (hf : ∀ x, (f x).toNat % 16 = x.toNat % 16)
    (i : Instruction) (g : Guest) : (i.mapRegisters f).execute g = i.execute g := by
  have hname : ∀ x, Register.ofOperand (f x) = Register.ofOperand x :=
    fun x => Register.ofOperand_congr (hf x)
  have hdigit : ∀ x, f x &&& 0xF = x &&& 0xF := fun x => and_digit_congr (hf x)
  have hread : ∀ x, g.register (f x) = g.register x :=
    fun x => congrArg g.processor.v.get (hname x)
  have hdraw : ∀ x y, g.drawSprite (f x) (f y) = g.drawSprite x y := fun x y => by
    funext sprite
    rw [Guest.drawSprite, Guest.drawSprite, hread, hread]
  cases i <;>
    simp only [mapRegisters, execute, hread, hdraw, hdigit, Guest.setRegister, Guest.setWithFlag,
      hname]

theorem toNat_mod_sixteen (x : UInt64) : (x % 16).toNat = x.toNat % 16 := UInt64.toNat_mod x 16

/-- In particular every operand may be replaced by its last digit. -/
theorem execute_reduced (i : Instruction) (g : Guest) : i.reduced.execute g = i.execute g :=
  execute_mapRegisters (fun x => by rw [toNat_mod_sixteen, Nat.mod_mod]) i g

/-- Reduced operands name registers by their numbers. -/
theorem toNat_lt_of_mem_reduced {i : Instruction} {x : UInt64} (hx : x ∈ i.reduced.registers) :
    x.toNat < 16 := by
  rw [reduced, registers_mapRegisters] at hx
  obtain ⟨y, -, rfl⟩ := List.mem_map.1 hx
  rw [toNat_mod_sixteen]
  exact digit_lt y

end Instruction

/-! ## Operands as they stand -/

namespace Literal

open Strict (put between putBetween fit put_eq between_eq putBetween_eq fit_eq)

/-- Reads the register of an operand. -/
def register (p : Processor) (x : UInt64) : Option UInt8 := p.v[x.toNat]?

/-- Writes the register of an operand. -/
def setRegister (p : Processor) (x : UInt64) (byte : UInt8) : Option Processor := do
  return { p with v := ← put p.v x.toNat byte }

/-- Sets the flag, then writes a register. -/
def setWithFlag (p : Processor) (x : UInt64) (byte : UInt8) (flag : Bool) : Option Processor :=
  setRegister (p.setFlag flag) x byte

/-- Continues after the latest call that has not returned. -/
def ret (p : Processor) : Option (Except Fault Processor) :=
  if p.sp = 0 then some (.error (.stackUnderflow (p.pc - 2)))
  else do return .ok { p with sp := p.sp - 1, pc := ← p.stack[(p.sp - 1).toNat]? }

/-- Draws a sprite to column `Vx` of row `Vy`. -/
def drawSprite (g : Guest) (x y : UInt64) (sprite : List UInt8) : Option Guest := do
  let column ← register g.processor x
  let row ← register g.processor y
  let (screen, erased) := g.screen.drawSprite column.toUInt64 row.toUInt64 sprite
  return { g with processor := g.processor.setFlag erased, screen := screen }

/-- Writes the registers `V0` to that of an operand at the index register. Memory is looked at
first. -/
def storeRegisters (g : Guest) (x : UInt64) : Option Guest.Outcome := do
  let p := g.processor
  let count ← fit 64 (x.toNat + 1)
  match Memory.writable p.i.toUInt64 (UInt64.ofNat count) with
  | .error fault => return (.error fault, g)
  | .ok () =>
    let bytes ← between p.v 0 count
    return (.ok (), { g with memory := g.memory.overwrite p.i.toNat bytes })

/-- Reads the registers `V0` to that of an operand at the index register. Memory is looked at
first. -/
def loadRegisters (g : Guest) (x : UInt64) : Option Guest.Outcome := do
  let p := g.processor
  let count ← fit 64 (x.toNat + 1)
  match g.memory.slice p.i.toUInt64 (UInt64.ofNat count) with
  | .error fault => return (.error fault, g)
  | .ok bytes =>
    return (.ok (), { g with processor := { p with v := ← putBetween p.v 0 count bytes } })

/-- The effect of an instruction. -/
def execute (i : Instruction) (g : Guest) : Option Guest.Outcome := do
  let p := g.processor
  let done (p : Processor) : Guest.Outcome := (.ok (), { g with processor := p })
  match i with
  | .clear | .jump _ | .call _ | .setIndex _ | .jumpBy _ => return i.execute g
  | .ret => return g.attempt (← ret p) fun p => { g with processor := p }
  | .skipEqByte x kk => return done (p.skipIf ((← register p x) == kk))
  | .skipNeByte x kk => return done (p.skipIf ((← register p x) != kk))
  | .skipEq x y => return done (p.skipIf ((← register p x) == (← register p y)))
  | .loadByte x kk => return done (← setRegister p x kk)
  | .addByte x kk => return done (← setRegister p x ((← register p x) + kk))
  | .copy x y => return done (← setRegister p x (← register p y))
  | .or x y => return done (← setRegister p x ((← register p x) ||| (← register p y)))
  | .and x y => return done (← setRegister p x ((← register p x) &&& (← register p y)))
  | .xor x y => return done (← setRegister p x ((← register p x) ^^^ (← register p y)))
  | .add x y =>
    let sum := (← register p x).toUInt16 + (← register p y).toUInt16
    return done (← setWithFlag p x sum.toUInt8 (0xFF < sum))
  | .sub x y =>
    let vx ← register p x
    let vy ← register p y
    return done (← setWithFlag p x (vx - vy) (vy < vx))
  | .shiftRight x =>
    let vx ← register p x
    return done (← setWithFlag p x (vx >>> 1) (vx &&& 0x01 == 0x01))
  | .subFrom x y =>
    let vx ← register p x
    let vy ← register p y
    return done (← setWithFlag p x (vy - vx) (vx < vy))
  | .shiftLeft x =>
    let vx ← register p x
    return done (← setWithFlag p x (vx <<< 1) (vx &&& 0x80 == 0x80))
  | .skipNe x y => return done (p.skipIf ((← register p x) != (← register p y)))
  | .random x kk =>
    let p ← setRegister p x (g.random.byte &&& kk)
    return (.ok (), { g with processor := p, random := g.random.rest })
  | .draw x y n =>
    match g.memory.slice p.i.toUInt64 n.toUInt64 with
    | .error fault => return (.error fault, g)
    | .ok sprite => return (.ok (), ← drawSprite g x y sprite)
  | .skipPressed x => return done (p.skipIf (g.keypad.isPressed (← register p x)))
  | .skipReleased x => return done (p.skipIf (!g.keypad.isPressed (← register p x)))
  | .readDelay x => return done (← setRegister p x p.delay)
  | .awaitKey x => return (.ok (), { g with keypad := g.keypad.await x })
  | .setDelay x => return done { p with delay := ← register p x }
  | .setSound x => return done { p with sound := ← register p x }
  | .addIndex x => return done { p with i := p.i + (← register p x).toUInt16 }
  | .pointGlyph x => return done { p with i := Font.address ((← register p x) &&& 0x0F) }
  | .storeDecimal x =>
    let digits := Guest.decimal (← register p x)
    return g.attempt (g.memory.store p.i.toUInt64 digits) fun memory => { g with memory := memory }
  | .storeRegisters x => storeRegisters g x
  | .loadRegisters x => loadRegisters g x

/-! ## Operands that name a register by its number -/

section

variable {g : Guest} {p : Processor} {x y : UInt64}

/-- The register of an operand that is the number of one. -/
theorem ofOperand_eq (hx : x.toNat < 16) : Register.ofOperand x = ⟨x.toNat, hx⟩ :=
  Fin.ext (Nat.mod_eq_of_lt hx)

theorem and_digit_eq (hx : x.toNat < 16) : x &&& 0xF = x :=
  UInt64.toNat_inj.1 (by rw [Instruction.toNat_and_digit, Nat.mod_eq_of_lt hx])

theorem register_eq (hx : x.toNat < 16) : register g.processor x = some (g.register x) := by
  rw [register, Vector.getElem?_eq_getElem hx, Guest.register]
  simp only [ofOperand_eq hx]
  rfl

theorem setRegister_eq (hx : x.toNat < 16) (byte : UInt8) :
    setRegister p x byte = some (p.set (.ofOperand x) byte) := by
  rw [setRegister, put_eq _ hx, ofOperand_eq hx]
  rfl

theorem setWithFlag_eq (hx : x.toNat < 16) (byte : UInt8) (flag : Bool) :
    setWithFlag p x byte flag = some ((p.setFlag flag).set (.ofOperand x) byte) :=
  setRegister_eq hx byte

/-- A stack pointer within the stack has a return address below it. -/
theorem ret_eq (hsp : p.sp.toNat ≤ 16) : ret p = some p.ret := by
  unfold ret Processor.ret
  by_cases hzero : p.sp = 0
  · rw [if_pos hzero, if_pos hzero]
  · have hlast := Processor.toNat_sp_sub_one hzero
    have hpos := Processor.toNat_sp_pos hzero
    have hlt : (p.sp - 1).toNat < 16 := by omega
    rw [if_neg hzero, if_neg hzero, Vector.getElem?_eq_getElem hlt]
    rfl

/-- Above the stack there is none. -/
example : ret { Processor.powerOn with sp := 17 } = none := rfl

theorem drawSprite_eq (hx : x.toNat < 16) (hy : y.toNat < 16) (sprite : List UInt8) :
    drawSprite g x y sprite = some (g.drawSprite x y sprite) := by
  simp only [drawSprite, register_eq hx, register_eq hy, Option.bind_eq_bind, Option.bind_some]
  rfl

/-- The number of the registers up to an operand's fits a word. -/
theorem fit_count (hx : x.toNat < 16) : fit 64 (x.toNat + 1) = some (x.toNat + 1) :=
  fit_eq (by omega)

theorem storeRegisters_eq (hx : x.toNat < 16) :
    storeRegisters g x = some ((Instruction.storeRegisters x).execute g) := by
  have hlen := Instruction.length_upTo g.processor x
  have hword : x.toNat + 1 < UInt64.size := Nat.lt_of_le_of_lt hx (by decide)
  have hcount : UInt64.ofNatClamp (g.processor.upTo (.ofOperand x)).length =
      UInt64.ofNat (x.toNat + 1) := by
    rw [hlen, Nat.mod_eq_of_lt hx, ← UInt64.toNat_inj, UInt64.toNat_ofNatClamp_of_lt hword,
      UInt64.toNat_ofNat_of_lt' hword]
  have hregisters : between g.processor.v 0 (x.toNat + 1) =
      some (g.processor.upTo (.ofOperand x)) := by
    rw [between_eq _ (Nat.zero_le _) hx, ofOperand_eq hx]
    rfl
  simp only [storeRegisters, Instruction.execute, Memory.store, fit_count hx, hcount,
    hregisters, Option.bind_eq_bind, Option.bind_some]
  cases Memory.writable g.processor.i.toUInt64 (UInt64.ofNat (x.toNat + 1)) with
  | error fault => rfl
  | ok fits => rfl

theorem loadRegisters_eq (hx : x.toNat < 16) :
    loadRegisters g x = some ((Instruction.loadRegisters x).execute g) := by
  have hcount : UInt64.ofNat (x.toNat + 1) = (x &&& 0xF) + 1 := by
    rw [and_digit_eq hx, UInt64.ofNat_add, UInt64.ofNat_toNat]
    rfl
  simp only [loadRegisters, Instruction.execute, fit_count hx, hcount, Option.bind_eq_bind,
    Option.bind_some]
  cases hs : g.memory.slice g.processor.i.toUInt64 ((x &&& 0xF) + 1) with
  | error fault => rfl
  | ok bytes =>
    have hlen := Memory.length_of_slice hs
    rw [Instruction.toNat_and_digit_succ, Nat.mod_eq_of_lt hx] at hlen
    have hput := putBetween_eq g.processor.v (Nat.zero_le _) hx hlen
    simp only [hput, Option.bind_some]
    rfl

/-- Operands that name registers by their numbers can be taken as they stand. -/
theorem execute_eq {i : Instruction} (h : ∀ x ∈ i.registers, x.toNat < 16)
    (hsp : g.processor.sp.toNat ≤ 16) : execute i g = some (i.execute g) := by
  cases i
  case clear | jump | call | setIndex | jumpBy => rfl
  case ret =>
    simp only [execute, ret_eq hsp, Option.bind_eq_bind, Option.bind_some]
    rfl
  case storeRegisters x => exact storeRegisters_eq (h x List.mem_cons_self)
  case loadRegisters x => exact loadRegisters_eq (h x List.mem_cons_self)
  case awaitKey x =>
    rw [execute, Instruction.execute, and_digit_eq (h x List.mem_cons_self)]
    rfl
  case draw x y n =>
    obtain ⟨hx, hrest⟩ := List.forall_mem_cons.1 h
    have hy := List.forall_mem_singleton.1 hrest
    simp only [execute, Instruction.execute]
    cases g.memory.slice g.processor.i.toUInt64 n.toUInt64 with
    | error fault => rfl
    | ok sprite =>
      simp only [drawSprite_eq hx hy, Option.bind_eq_bind, Option.bind_some]
      rfl
  case skipEq | copy | or | and | xor | add | sub | subFrom | skipNe =>
    obtain ⟨hx, hrest⟩ := List.forall_mem_cons.1 h
    have hy := List.forall_mem_singleton.1 hrest
    simp only [execute, register_eq hx, register_eq hy, setRegister_eq hx, setWithFlag_eq hx,
      Option.bind_eq_bind, Option.bind_some]
    rfl
  all_goals
    have hx := List.forall_mem_singleton.1 h
    simp only [execute, register_eq hx, setRegister_eq hx, setWithFlag_eq hx,
      Option.bind_eq_bind, Option.bind_some]
    rfl

/-- An operand past the last register has no value, though its last digit names one. -/
example : execute (.loadByte 0x11 0x22) (.powerOn (.start (.replicate 8 0))) = none := rfl

end

end Literal

/-! ## Blocks of registers -/

namespace Guest

/-- Whether an outcome is that of reading so many registers, from `V0` on, at the index register:
a fault if memory ends before they do, and else the bytes in the registers, with nothing else
changed. -/
structure Loads (g : Guest) (count : Nat) (outcome : Outcome) : Prop where
  result : outcome.1 = Instruction.resultOf (Instruction.readFault? g.processor.i count)
  register (hok : outcome.1 = .ok ()) (r : Register) : outcome.2.processor.v.get r =
    if r.val < count then g.memory.byteAt (g.processor.i.toNat + r.val) else g.processor.v.get r
  rest : outcome.2 = { g with processor := { g.processor with v := outcome.2.processor.v } }

/-- Whether an outcome is that of writing so many registers, from `V0` on, at the index register:
a fault if memory may not be written there, and else the registers in memory, with nothing else
changed. -/
structure Stores (g : Guest) (count : Nat) (outcome : Outcome) : Prop where
  result : outcome.1 = Instruction.resultOf (Instruction.writeFault? g.processor.i count)
  byte (hok : outcome.1 = .ok ()) (r : Register) (hr : r.val < count) :
    outcome.2.memory.byteAt (g.processor.i.toNat + r.val) = g.processor.v.get r
  other (place : Nat)
    (hout : ¬(g.processor.i.toNat ≤ place ∧ place < g.processor.i.toNat + count)) :
    outcome.2.memory.byteAt place = g.memory.byteAt place
  rest : outcome.2 = { g with memory := outcome.2.memory }

end Guest

namespace Instruction

variable (g : Guest) (x : UInt64)

/-- Loading takes one register more than the last digit of its operand says. -/
theorem loads_loadRegisters : g.Loads (x.toNat % 16 + 1) ((loadRegisters x).execute g) := by
  have hresult := execute_fst (loadRegisters x) g
  refine ⟨hresult, fun hok r => ?_, ?_⟩
  · have hend := readFault?_eq_none_iff.1 (resultOf_eq_ok_iff.1 (hresult.symm.trans hok))
    rw [execute_loadRegisters hend]
    dsimp only
    rw [Processor.get_setFirst_window]
    exact if_congr Nat.lt_succ_iff.symm rfl rfl
  · simp only [execute]
    cases g.memory.slice g.processor.i.toUInt64 ((x &&& 0xF) + 1) with
    | error fault => rfl
    | ok bytes => rfl

/-- So does storing. -/
theorem stores_storeRegisters : g.Stores (x.toNat % 16 + 1) ((storeRegisters x).execute g) := by
  have hresult := execute_fst (storeRegisters x) g
  refine ⟨hresult, fun hok r hr => ?_, fun place hout => execute_byteAt ?_, ?_⟩
  · obtain ⟨hend, hlow⟩ :=
      writeFault?_eq_none_iff.1 (resultOf_eq_ok_iff.1 (hresult.symm.trans hok))
    rw [execute_storeRegisters hlow hend]
    exact Memory.holds_overwrite hend r (Nat.le_of_lt_succ hr)
  · simp only [stores, Bool.and_eq_false_iff, decide_eq_false_iff_not]
    omega
  · simp only [execute]
    cases g.memory.store g.processor.i.toUInt64 (g.processor.upTo (.ofOperand x)) with
    | error fault => rfl
    | ok memory => rfl

/-! ## The last digit decides -/

/-- With a stack pointer that the stack has, an instruction does what it does with every register
operand replaced by its last digit: result, guest and random bytes are the same, and no index
leaves its array. Blocks of registers are as long as the last digit says, and the register that
is to wait for a key exists. -/
theorem last_digits_decide (i : Instruction) (g : Guest) (hsp : g.processor.sp.toNat ≤ 16) :
    i.execute g = i.reduced.execute g ∧
    Literal.execute i.reduced g = some (i.execute g) ∧
    (∀ x, g.Loads (x.toNat % 16 + 1) ((loadRegisters x).execute g)) ∧
    (∀ x, g.Stores (x.toNat % 16 + 1) ((storeRegisters x).execute g)) ∧
    ∀ x, ∃ register : UInt64, register.toNat = x.toNat % 16 ∧ register.toNat < 16 ∧
      (awaitKey x).execute g = (.ok (), { g with keypad := g.keypad.await register }) := by
  have hsame := execute_reduced i g
  refine ⟨hsame.symm, ?_, loads_loadRegisters g, stores_storeRegisters g, fun x => ?_⟩
  · rw [Literal.execute_eq (fun x => toNat_lt_of_mem_reduced) hsp, hsame]
  · have hdigit := toNat_and_digit x
    exact ⟨x &&& 0xF, hdigit, hdigit ▸ digit_lt x, rfl⟩

/-- A guest whose stack is full, with a seven in the last register and the last sixteen bytes of
memory as its block. -/
def fullAtEnd : Guest :=
  { markedAtEnd with processor := { markedAtEnd.processor with sp := 16 } }

/-- The largest operand stands for the last register: taken as it stands it does not even count
the registers, reduced it stores all sixteen. -/
theorem last_digits_decide_of_largest_operand :
    fullAtEnd.processor.sp.toNat ≤ 16 ∧
    Literal.execute (storeRegisters 0xFFFFFFFFFFFFFFFF) fullAtEnd = none ∧
    Literal.execute (storeRegisters 0xF) fullAtEnd =
      some ((storeRegisters 0xFFFFFFFFFFFFFFFF).execute fullAtEnd) ∧
    ((storeRegisters 0xFFFFFFFFFFFFFFFF).execute fullAtEnd).2.memory.byteAt 4095 = 7 ∧
    Literal.execute ret fullAtEnd = some (ret.execute fullAtEnd) := by
  have hsp : fullAtEnd.processor.sp.toNat ≤ 16 := by decide
  obtain ⟨-, hliteral, -, hstores, -⟩ :=
    last_digits_decide (storeRegisters 0xFFFFFFFFFFFFFFFF) fullAtEnd hsp
  have hstored := hstores 0xFFFFFFFFFFFFFFFF
  refine ⟨hsp, rfl, hliteral, ?_, (last_digits_decide ret fullAtEnd hsp).2.1⟩
  exact (hstored.byte (hstored.result.trans (by decide)) 15 (by decide)).trans (by decide)

end Instruction

end Chip8VM
