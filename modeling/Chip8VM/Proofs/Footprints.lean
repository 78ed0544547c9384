import Chip8VM.Proofs.FontTable
import Chip8VM.Proofs.FreshFrames
import Chip8VM.Proofs.Log
import Chip8VM.Proofs.RandomBytes
import Chip8VM.Proofs.Registers
import Chip8VM.Proofs.Timers

/-!
# Footprints

An instruction changes only what is its own. `Instruction.writes` is the table of the registers
that it may write, `Instruction.stores` that of the places in memory, and there is a predicate
for every other part of a guest: whether an instruction sets the index register, steers or skips,
uses the stack, sets a timer, paints, waits for a key or takes a random byte. An instruction
confines what it does if all else is as it was (`Instruction.Confines`), and every instruction
does, whatever its operands and whether or not it fails (`execute_confines`).

The flag register is one of the registers that programs use. It outlives every instruction that
neither leaves a flag nor names it.
-/

namespace Chip8VM

/-! ## Tables -/

namespace Instruction

/-- Whether an instruction leaves a flag: what arithmetic carries, compares or shifts out, or
whether a sprite met a lit pixel. -/
def flags : Instruction → Bool
  | add .. | sub .. | shiftRight _ | subFrom .. | shiftLeft _ | draw .. => true
  | _ => false

/-- Whether an instruction may write a register. -/
def writes : Instruction → Register → Bool
  | loadByte x _, r | addByte x _, r | copy x _, r | or x _, r | and x _, r | xor x _, r
  | random x _, r | readDelay x, r => r == .ofOperand x
  | add x _, r | sub x _, r | shiftRight x, r | subFrom x _, r | shiftLeft x, r =>
    r == .ofOperand x || r == .flag
  | draw .., r => r == .flag
  | loadRegisters x, r => r ≤ .ofOperand x
  | _, _ => false

/-- Whether an instruction continues at some other address. -/
def steers : Instruction → Bool
  | jump _ | jumpBy _ | call _ | ret => true
  | _ => false

/-- Whether an instruction passes over the next one on a condition. -/
def skips : Instruction → Bool
  | skipEqByte .. | skipNeByte .. | skipEq .. | skipNe .. | skipPressed _ | skipReleased _ => true
  | _ => false

/-- Whether an instruction may write a place in memory, when the index register holds this
address. -/
def stores : Instruction → UInt16 → Nat → Bool
  | storeDecimal _, i, place => i.toNat ≤ place && place < i.toNat + 3
  | storeRegisters x, i, place => i.toNat ≤ place && place ≤ i.toNat + x.toNat % 16
  | _, _, _ => false

/-- Whether one guest is another but for what an instruction may change. -/
structure Confines (i : Instruction) (g g' : Guest) : Prop where
  register (r : Register) : i.writes r = false → g'.processor.v.get r = g.processor.v.get r
  index : i.setsIndex = false → g'.processor.i = g.processor.i
  counter : i.steers = false → g'.processor.pc = g.processor.pc ∨
    i.skips = true ∧ g'.processor.pc = g.processor.pc + 2
  stack : i.usesStack = false →
    g'.processor.sp = g.processor.sp ∧ g'.processor.stack = g.processor.stack
  timer (t : Timer) : t.setBy i = false → t.value g'.processor = t.value g.processor
  memory (place : Nat) : i.stores g.processor.i place = false →
    g'.memory.byteAt place = g.memory.byteAt place
  screen : i.paints = false → g'.screen = g.screen
  waiting : i.awaits = false → g'.keypad.waiting = g.keypad.waiting
  pressed : g'.keypad.pressed = g.keypad.pressed
  random : i.rolls = false → g'.random = g.random

end Instruction

/-! ## Memory -/

/-- A write that is let through leaves every place alone that it does not reach. -/
theorem Memory.byteAt_of_store {m m' : Memory} {address : UInt64} {bytes : List UInt8}
    (hlen : bytes.length < 2 ^ 64) (hok : m.store address bytes = .ok m') {place : Nat}
    (hout : ¬(address.toNat ≤ place ∧ place < address.toNat + bytes.length)) :
    m'.byteAt place = m.byteAt place := by
  rw [store_eq _ _ _ hlen] at hok
  split at hok
  · cases hok
  · split at hok
    · cases hok
    · obtain rfl := Except.ok.inj hok
      by_cases hplace : place < 4096
      · rw [byteAt_overwrite _ _ _ hplace, if_neg hout]
      · simp [byteAt, hplace]

namespace Instruction

/-- An instruction leaves every place in memory alone that it may not write. -/
theorem execute_byteAt {i : Instruction} {g : Guest} {place : Nat}
    (h : i.stores g.processor.i place = false) :
    (i.execute g).2.memory.byteAt place = g.memory.byteAt place := by
  have hstore : ∀ {bytes : List UInt8}, bytes.length < 2 ^ 64 →
      ¬(g.processor.i.toNat ≤ place ∧ place < g.processor.i.toNat + bytes.length) →
      (g.attempt (g.memory.store g.processor.i.toUInt64 bytes) fun memory =>
        { g with memory := memory }).2.memory.byteAt place = g.memory.byteAt place := by
    intro bytes hlen hout
    rw [← UInt16.toNat_toUInt64] at hout
    refine Guest.attempt_snd_frame_of_ok (fun g => g.memory.byteAt place) fun memory hok => ?_
    exact Memory.byteAt_of_store hlen hok hout
  by_cases hi : i.writesMemory = false
  · rw [execute_memory hi]
  · cases i
    case storeDecimal x =>
      simp only [stores, Bool.and_eq_false_iff, decide_eq_false_iff_not] at h
      refine hstore (by simp [Guest.decimal]) ?_
      rw [show (Guest.decimal (g.register x)).length = 3 from rfl]
      omega
    case storeRegisters x =>
      have hlt := digit_lt x
      simp only [stores, Bool.and_eq_false_iff, decide_eq_false_iff_not] at h
      refine hstore ?_ ?_ <;> rw [length_upTo] <;> omega
    all_goals exact absurd rfl hi

/-! ## Registers -/

/-- An instruction leaves every register alone that it may not write. -/
theorem execute_register {i : Instruction} {r : Register} (h : i.writes r = false) (g : Guest) :
    (i.execute g).2.processor.v.get r = g.processor.v.get r := by
  have hskip : ∀ c : Bool, (g.skipIf c).processor.v.get r = g.processor.v.get r := by
    intro c
    cases c <;> rfl
  cases i
  case loadByte | addByte | copy | or | and | xor | random | readDelay =>
    exact (g.get_setRegister _ r _).trans (if_neg (by simpa [writes] using h))
  case add | sub | shiftRight | subFrom | shiftLeft =>
    obtain ⟨hresult, hflag⟩ := Bool.or_eq_false_iff.1 h
    refine (g.get_setWithFlag _ r _ _).trans ?_
    rw [if_neg (ne_of_beq_false hresult), if_neg (ne_of_beq_false hflag)]
  case draw x y n =>
    refine Guest.attempt_snd_frame (fun g => g.processor.v.get r) fun sprite => ?_
    exact (g.processor.get_setFlag r _).trans (if_neg (ne_of_beq_false h))
  case loadRegisters x =>
    refine Guest.attempt_snd_frame_of_ok (fun g => g.processor.v.get r) fun bytes hok => ?_
    -- There are bytes for the registers up to the operand's, and this one comes after it.
    have hlen := Memory.length_of_slice hok
    have hlast : (Register.ofOperand x).val = x.toNat % 16 := rfl
    have hafter : (Register.ofOperand x).val < r.val := Fin.lt_def.1 (by simpa [writes] using h)
    rw [toNat_and_digit_succ] at hlen
    exact (g.processor.get_setFirst r bytes).trans
      (by rw [List.getElem?_eq_none (by omega), Option.getD_none])
  case ret =>
    by_cases hsp : g.processor.sp = 0
    · rw [execute_ret_of_empty hsp]
    · rw [execute_ret hsp]
  case call =>
    by_cases hsp : g.processor.sp.toNat < 16
    · rw [execute_call hsp]
    · rw [execute_call_of_full hsp]
  case storeDecimal | storeRegisters =>
    exact Guest.attempt_snd_frame (fun g => g.processor.v.get r) fun _ => rfl
  case skipEqByte | skipNeByte | skipEq | skipNe | skipPressed | skipReleased => exact hskip _
  all_goals rfl

/-- An instruction that leaves no flag and does not name the flag register may not write it. -/
theorem writes_flag {i : Instruction} (hi : i.flags = false)
    (hnamed : ∀ x ∈ i.registers, Register.ofOperand x ≠ .flag) : i.writes .flag = false := by
  have hlast : ∀ r : Register, r ≠ .flag → decide (Register.flag ≤ r) = false := by decide
  cases i
  case add | sub | shiftRight | subFrom | shiftLeft | draw => cases hi
  case loadByte | addByte | copy | or | and | xor | random | readDelay =>
    exact beq_false_of_ne (Ne.symm (hnamed _ List.mem_cons_self))
  case loadRegisters => exact hlast _ (hnamed _ List.mem_cons_self)
  all_goals rfl

/-! ## The program counter -/

/-- An instruction that does not steer leaves the program counter alone, or skips. -/
theorem execute_counter {i : Instruction} (hi : i.steers = false) (g : Guest) :
    (i.execute g).2.processor.pc = g.processor.pc ∨
      i.skips = true ∧ (i.execute g).2.processor.pc = g.processor.pc + 2 := by
  have hskip : ∀ c : Bool, (g.skipIf c).processor.pc = g.processor.pc ∨
      (g.skipIf c).processor.pc = g.processor.pc + 2 := by
    intro c
    cases c with
    | false => exact Or.inl rfl
    | true => exact Or.inr rfl
  cases i
  case jump | jumpBy | call | ret => cases hi
  case skipEqByte | skipNeByte | skipEq | skipNe | skipPressed | skipReleased =>
    exact (hskip _).imp_right fun h => ⟨rfl, h⟩
  case draw | storeDecimal | storeRegisters =>
    exact Or.inl (Guest.attempt_snd_frame (fun g => g.processor.pc) fun _ => rfl)
  case loadRegisters =>
    refine Or.inl (Guest.attempt_snd_frame (fun g => g.processor.pc) fun bytes => ?_)
    rw [Processor.setFirst]
  all_goals exact Or.inl rfl

/-! ## The screen and the keypad -/

/-- An instruction that does not paint leaves the screen and its flag alone. -/
theorem execute_screen_of_not_paints {i : Instruction} (hi : i.paints = false) (g : Guest) :
    (i.execute g).2.screen = g.screen := by
  cases i
  case clear => cases hi
  case draw x y n =>
    refine Guest.attempt_snd_frame_of_ok Guest.screen fun sprite hok => ?_
    have hlen := Memory.length_of_slice hok
    obtain rfl : n = 0 := by simpa [paints] using hi
    rw [List.length_eq_zero_iff.1 hlen]
    rfl
  case ret | call | storeDecimal | storeRegisters | loadRegisters =>
    exact Guest.attempt_snd_frame Guest.screen fun _ => rfl
  all_goals rfl

/-- An instruction that does not wait for a key leaves the keypad alone. -/
theorem execute_waiting {i : Instruction} (hi : i.awaits = false) (g : Guest) :
    (i.execute g).2.keypad.waiting = g.keypad.waiting := by
  rcases i.execute_keypad g with ⟨x, rfl, -⟩ | hsame
  · cases hi
  · rw [hsame]

theorem execute_pressed (i : Instruction) (g : Guest) :
    (i.execute g).2.keypad.pressed = g.keypad.pressed := by
  rcases i.execute_keypad g with ⟨x, -, hexec⟩ | hsame
  · rw [hexec]
  · rw [hsame]

/-! ## All parts of a guest -/

/-- Every instruction changes only what is its own. In particular the flag register keeps its
value, unless an instruction leaves a flag or names the register. -/
theorem execute_confines (i : Instruction) (g : Guest) :
    i.Confines g (i.execute g).2 ∧
      (i.flags = false → (∀ x ∈ i.registers, Register.ofOperand x ≠ .flag) →
        (i.execute g).2.processor.v.get Register.flag = g.processor.v.get Register.flag) := by
  refine ⟨?_, fun hflags hnamed => execute_register (writes_flag hflags hnamed) g⟩
  exact {
    register := fun r h => execute_register h g
    index := fun h => execute_index h g
    counter := fun h => execute_counter h g
    stack := fun h => execute_stack h g
    timer := fun t h => t.value_execute h g
    memory := fun place h => execute_byteAt h
    screen := fun h => execute_screen_of_not_paints h g
    waiting := fun h => execute_waiting h g
    pressed := execute_pressed i g
    random := fun h => execute_stream h g }

/-- A guest whose flag register holds a byte that no glyph has. -/
def marked : Guest := (Guest.powerOn (.start (Vector.replicate 8 0))).setRegister 0xF 7

/-- Loading all registers but the last takes the font, and stops before the flag register. -/
theorem execute_confines_loadRegisters :
    ((loadRegisters 0x1E).execute marked).2.processor.v.get 14 = 0xF0 ∧
      ((loadRegisters 0x1E).execute marked).2.processor.v.get Register.flag = 7 := by
  have hlast : ∀ x ∈ (loadRegisters 0x1E).registers, Register.ofOperand x ≠ .flag :=
    List.forall_mem_singleton.2 (by decide)
  exact ⟨by decide +kernel, (execute_confines (loadRegisters 0x1E) marked).2 rfl hlast⟩

end Instruction

end Chip8VM
