import Chip8VM.Proofs.Registers
import Chip8VM.Proofs.Soundness
import Chip8VM.Proofs.StrictScreen

/-!
# No step stops

Strict evaluation has a value wherever the machine is sound, and it is the value that the
machine gives: no index is out of range, no sum or difference leaves its word, and the
program counter does not wrap. The operations come first, each under what it needs
(`call_eq` a program counter of at least two, `ret_eq` a sound stack, `drawSprite_eq` a
sprite of less than 256 rows); `execute_eq` and `serve_eq` put them together, and
`session_eq` follows by the invariant of `Machine.Sound`.
-/

namespace Chip8VM.Strict

/-! ## The processor -/

section

variable (p : Processor) (x : UInt64)

theorem register_eq : register p x = some (p.v.get (Register.ofOperand x)) := by
  have hlt := Instruction.digit_lt x
  rw [register, Instruction.toNat_and_digit, Vector.getElem?_eq_getElem hlt]
  rfl

theorem register_guest (g : Guest) : register g.processor x = some (g.register x) :=
  register_eq g.processor x

theorem setRegister_eq (byte : UInt8) :
    setRegister p x byte = some (p.set (.ofOperand x) byte) := by
  have hput : put p.v (x &&& 0xF).toNat byte = some (p.set (.ofOperand x) byte).v := by
    rw [Instruction.toNat_and_digit]
    exact put_eq _ (Instruction.digit_lt x) byte
  rw [setRegister, hput]
  rfl

theorem setFlag_eq (flag : Bool) : setFlag p flag = some (p.setFlag flag) := by
  rw [setFlag, put_eq _ (by decide)]
  rfl

theorem setWithFlag_eq (byte : UInt8) (flag : Bool) :
    setWithFlag p x byte flag = some ((p.setFlag flag).set (.ofOperand x) byte) := by
  rw [setWithFlag, setFlag_eq]
  exact setRegister_eq _ x byte

/-- The number of registers that an operand names fits a word, and there are so many. -/
theorem fit_count : fit 64 ((x &&& 0xF).toNat + 1) = some (x.toNat % 16 + 1) := by
  rw [Instruction.toNat_and_digit]
  exact fit_eq (by omega)

theorem upTo_eq : upTo p x = some (p.upTo (.ofOperand x)) := by
  rw [upTo, fit_count]
  exact between_eq p.v (Nat.zero_le _) (Nat.succ_le_of_lt (Instruction.digit_lt x))

theorem setFirst_eq {bytes : List UInt8} (hlen : bytes.length = x.toNat % 16 + 1) :
    setFirst p x bytes = some (p.setFirst bytes) := by
  have hput := putBetween_eq p.v (Nat.zero_le (x.toNat % 16 + 1))
    (Nat.succ_le_of_lt (Instruction.digit_lt x)) hlen
  rw [setFirst, fit_count]
  simp only [Option.bind_eq_bind, Option.bind_some, hput]
  rfl

variable {p}

theorem skip_eq (h : p.pc.toNat ≤ 0x10FE) : skip p = some p.skip := by
  have hpc : UInt16.ofNat (p.pc.toNat + 2) = p.pc + 2 := by
    rw [← Processor.toNat_pc_add_two h, UInt16.ofNat_toNat]
  rw [skip, fit_eq (by omega)]
  simp only [Option.bind_eq_bind, Option.bind_some, hpc]
  rfl

/-- Near the end of its range the program counter would wrap, and the evaluation stops. -/
example : skip { Processor.powerOn with pc := 0xFFFE } = none := rfl

theorem skipIf_eq (h : p.pc.toNat ≤ 0x10FE) (condition : Bool) :
    skipIf p condition = some (p.skipIf condition) := by
  cases condition with
  | false => rfl
  | true => exact skip_eq h

/-- Two before the program counter is the address that a stack fault names. -/
theorem ofNat_pc_sub_two (h : 2 ≤ p.pc.toNat) : UInt16.ofNat (p.pc.toNat - 2) = p.pc - 2 := by
  have hle : (2 : UInt16) ≤ p.pc := UInt16.le_iff_toNat_le.2 h
  rw [← UInt16.ofNat_toNat (x := p.pc - 2), UInt16.toNat_sub_of_le _ _ hle]
  rfl

theorem call_eq (h : 2 ≤ p.pc.toNat) (address : UInt16) :
    call p address = some (p.call address) := by
  unfold call Processor.call
  by_cases hlt : p.sp.toNat < 16
  · have hsp : UInt8.ofNat (p.sp.toNat + 1) = p.sp + 1 := by
      rw [UInt8.ofNat_add, UInt8.ofNat_toNat]
      rfl
    rw [if_neg (Nat.not_le.2 hlt), dif_pos hlt, put_eq _ hlt, fit_eq (by omega)]
    simp only [Option.bind_eq_bind, Option.bind_some, hsp]
    rfl
  · rw [if_pos (Nat.not_lt.1 hlt), dif_neg hlt, less_eq h]
    simp only [Option.bind_eq_bind, Option.bind_some, ofNat_pc_sub_two h]
    rfl

theorem ret_eq (hp : p.Sound) (h : 2 ≤ p.pc.toNat) : ret p = some p.ret := by
  have hle := hp.sp_le
  unfold ret Processor.ret
  by_cases hzero : p.sp = 0
  · rw [if_pos hzero, if_pos hzero, less_eq h]
    simp only [Option.bind_eq_bind, Option.bind_some, ofNat_pc_sub_two h]
    rfl
  · have hpos : p.sp.toNat ≠ 0 := fun h0 => hzero (UInt8.toNat_inj.1 h0)
    have hsp := Processor.toNat_sp_sub_one hzero
    have hlt : p.sp.toNat - 1 < 16 := by omega
    have hback : UInt8.ofNat (p.sp.toNat - 1) = p.sp - 1 := by rw [← hsp, UInt8.ofNat_toNat]
    rw [if_neg hzero, if_neg hzero, less_eq (Nat.pos_of_ne_zero hpos), hsp,
      Vector.getElem?_eq_getElem hlt]
    simp only [Option.bind_eq_bind, Option.bind_some, hback, Vector.getElem?_eq_getElem hlt]
    rfl

/-- A stack pointer past the stack is not sound, and there is nothing to return to. -/
example : ret { Processor.powerOn with sp := 18 } = none := rfl

end

/-! ## Memory -/

section

variable (m : Memory)

/-- Putting bytes into a range that memory has is overwriting it. -/
theorem putBetween_overwrite (start : Nat) (bytes : List UInt8)
    (h : start + bytes.length ≤ 4096) :
    putBetween m.bytes start (start + bytes.length) bytes =
      some (m.overwrite start bytes).bytes := by
  obtain ⟨written, hput, hget⟩ := exists_putBetween m.bytes h
  have hmem : Memory.mk written = m.overwrite start bytes := by
    refine Memory.ext fun place hplace => ?_
    rw [Memory.byteAt_overwrite m start bytes hplace, Memory.byteAt, hget place hplace]
    split
    · rw [List.getD_eq_getElem?_getD]
    · rfl
  rw [hput, ← hmem]

theorem between_window {start count : Nat} (h : start + count ≤ 4096) :
    between m.bytes start (start + count) = some (m.window start count) := by
  rw [between_eq _ (Nat.le_add_right _ _) h, Nat.add_sub_cancel_left]
  refine congrArg some (List.ext_getElem? fun k => ?_)
  by_cases hk : k < count
  · have hlt : start + k < 4096 := by omega
    rw [Memory.getElem?_window m start hk, List.getElem?_take_of_lt hk, List.getElem?_drop,
      Vector.getElem?_toList, Memory.byteAt, Vector.getElem?_eq_getElem hlt]
    rfl
  · have hlen := Memory.length_window m start count
    rw [List.getElem?_eq_none (l := m.window start count) (by omega), List.getElem?_eq_none]
    exact Nat.le_trans (List.length_take_le _ _) (Nat.not_lt.1 hk)

theorem slice_eq (address length : UInt64) :
    slice m address length = some (m.slice address length) := by
  rw [slice, Memory.slice, Memory.within_eq]
  by_cases h : address.toNat + length.toNat ≤ 4096
  · have hsum : (address + length).toNat = address.toNat + length.toNat := by
      rw [UInt64.toNat_add]
      omega
    rw [if_pos h]
    simp only [hsum, between_window m h, Option.bind_eq_bind, Option.bind_some]
    rfl
  · rw [if_neg h]

theorem store_eq (address : UInt64) (bytes : List UInt8) (hlen : bytes.length < 2 ^ 64) :
    store m address bytes = some (m.store address bytes) := by
  have hn : (UInt64.ofNatClamp bytes.length).toNat = bytes.length :=
    UInt64.toNat_ofNatClamp_of_lt hlen
  have hw := Memory.writable_eq address (UInt64.ofNatClamp bytes.length)
  rw [hn] at hw
  unfold store Memory.store
  cases hok : Memory.writable address (UInt64.ofNatClamp bytes.length) with
  | error fault => simp only [hok]
  | ok fits =>
    have h : address.toNat + bytes.length ≤ 4096 := by
      refine Nat.not_lt.1 fun hlong => ?_
      rw [hok, if_pos hlong] at hw
      cases hw
    have hsum : (address + UInt64.ofNatClamp bytes.length).toNat =
        address.toNat + bytes.length := by
      rw [UInt64.toNat_add, hn]
      omega
    simp only [hok, hsum, putBetween_overwrite m _ _ h, Option.bind_eq_bind, Option.bind_some]
    rfl

/-- The byte after one that was read has an address. -/
theorem readWord_eq (address : UInt64) : readWord m address = some (m.readWord address) := by
  unfold readWord Memory.readWord
  cases hread : m.read address with
  | error fault => rfl
  | ok high =>
    have hlt : address.toNat < 4096 := Classical.byContradiction fun hge => by
      rw [Memory.read_eq, if_neg hge] at hread
      cases hread
    have hnext : UInt64.ofNat (address.toNat + 1) = address + 1 := by
      rw [UInt64.ofNat_add, UInt64.ofNat_toNat]
      rfl
    simp only [fit_eq (show address.toNat + 1 < 2 ^ 64 by omega), hnext, Option.bind_eq_bind,
      Option.bind_some]
    cases m.read (address + 1) with
    | error fault => rfl
    | ok low => rfl

theorem loadProgram_eq (program : List UInt8) :
    loadProgram m program = some (m.loadProgram program) := by
  unfold loadProgram Memory.loadProgram
  by_cases hlong : maxProgramSize < program.length
  · rw [if_pos hlong, if_pos hlong]
  · rw [if_neg hlong, if_neg hlong]
    unfold maxProgramSize at hlong
    exact store_eq m _ program (by omega)

theorem freshMemory_eq : freshMemory = some Memory.powerOn := by
  have hput := putBetween_overwrite ⟨Vector.replicate 4096 0⟩ 0 Font.sheet
    (by rw [Font.length_sheet]; decide)
  rw [Font.length_sheet] at hput
  rw [freshMemory, show (80 : Nat) = 0 + 80 from rfl, hput]
  rfl

end

/-! ## Instructions -/

section

variable {g : Guest}

/-- Drawing a sprite does not stop if it has less than 256 rows. -/
theorem drawSprite_eq (x y : UInt64) (sprite : List UInt8) (hlen : sprite.length < 256) :
    drawSprite g x y sprite = some (g.drawSprite x y sprite) := by
  have hcolumn := (g.register x).toNat_lt
  have hrow := (g.register y).toNat_lt
  have hrows := drawRows_eq g.screen (x := (g.register x).toUInt64)
    (by rw [UInt8.toNat_toUInt64]; omega) (g.register y).toNat 0
    (UInt8.toNat_toUInt64 (g.register y)) sprite (by omega) false
  rw [UInt8.toNat_toUInt64] at hrows
  have hflag : ∀ (p : Processor) (flag : Bool), (p.setFlag false).setFlag flag = p.setFlag flag :=
    fun p flag => by simp [Processor.setFlag, Processor.set]
  have hredraw := Instruction.redraw_drawSprite g.screen (g.register x).toUInt64
    (g.register y).toUInt64 sprite
  simp only [drawSprite, register_guest, setFlag_eq, Option.bind_eq_bind, Option.bind_some, hrows,
    Frame.ofLevels?_levels, hflag, ← hredraw, Bool.false_or]
  rfl

/-- The sum of two registers, and whether it is more than a register holds. -/
theorem add_eq (a b : UInt8) :
    UInt8.ofNat ((a.toNat + b.toNat) % 256) = (a.toUInt16 + b.toUInt16).toUInt8 ∧
      decide (0xFF < a.toNat + b.toNat) = decide (0xFF < a.toUInt16 + b.toUInt16) := by
  have hsum := Instruction.toNat_sum a b
  constructor
  · apply UInt8.toNat_inj.1
    rw [UInt8.toNat_ofNat', UInt16.toNat_toUInt8, hsum, Nat.mod_mod]
  · refine decide_eq_decide.2 ?_
    rw [UInt16.lt_iff_toNat_lt, hsum]
    rfl

/-- A jump by a register stays within a word if its address has three digits. -/
theorem jump_eq {address : UInt16} (h : address.toNat < 0x1000) (byte : UInt8) :
    fit 16 (address.toNat + byte.toNat) = some (address.toNat + byte.toNat) ∧
      UInt16.ofNat (address.toNat + byte.toNat) = address + byte.toUInt16 := by
  have hb := byte.toNat_lt
  refine ⟨fit_eq (by omega), UInt16.toNat_inj.1 ?_⟩
  rw [UInt16.toNat_ofNat', UInt16.toNat_add, UInt8.toNat_toUInt16]

/-- The sprite of a digit starts within the font. -/
theorem glyph_eq (byte : UInt8) :
    fit 16 ((byte &&& 0x0F).toNat * 5) = some ((byte &&& 0x0F).toNat * 5) ∧
      fit 16 (0 + (byte &&& 0x0F).toNat * 5) = some ((byte &&& 0x0F).toNat * 5) ∧
      UInt16.ofNat ((byte &&& 0x0F).toNat * 5) = Font.address (byte &&& 0x0F) := by
  have hb := (byte &&& 0x0F).toNat_lt
  refine ⟨fit_eq (by omega), ?_, UInt16.toNat_inj.1 ?_⟩
  · rw [Nat.zero_add]
    exact fit_eq (by omega)
  · rw [Font.address, UInt16.toNat_ofNat', UInt16.toNat_mul, UInt8.toNat_toUInt16]
    rfl

/-- A fetched instruction does not stop on a sound guest. -/
theorem execute_eq {i : Instruction} (hi : i.Encodable) (hlow : 2 ≤ g.processor.pc.toNat)
    (h : g.Sound) : execute i g = some (i.execute g) := by
  have hpc := h.processor.pc_le
  cases i
  case draw x y n =>
    simp only [execute, Instruction.execute, slice_eq, Option.bind_eq_bind, Option.bind_some]
    cases hs : g.memory.slice g.processor.i.toUInt64 n.toUInt64 with
    | error fault => rfl
    | ok sprite =>
      have hlen := Memory.length_of_slice hs
      rw [UInt8.toNat_toUInt64] at hlen
      have hn := n.toNat_lt
      simp only [drawSprite_eq x y sprite (by omega), Option.bind_some]
      rfl
  case add x y =>
    have ha := (g.register x).toNat_lt
    have hb := (g.register y).toNat_lt
    obtain ⟨hsum, hover⟩ := add_eq (g.register x) (g.register y)
    simp only [execute, Instruction.execute, register_guest, Option.bind_eq_bind, Option.bind_some,
      fit_eq (show (g.register x).toNat + (g.register y).toNat < 2 ^ 16 by omega), hsum, hover,
      setWithFlag_eq]
    rfl
  case jumpBy address =>
    obtain ⟨hfit, hsum⟩ := jump_eq (UInt16.lt_iff_toNat_lt.1 hi) (g.register 0)
    simp only [execute, Instruction.execute, register_guest, Option.bind_eq_bind,
      Option.bind_some, hfit, hsum]
    rfl
  case pointGlyph x =>
    obtain ⟨hfit, hfit', hsum⟩ := glyph_eq (g.register x)
    simp only [execute, Instruction.execute, register_guest, Option.bind_eq_bind,
      Option.bind_some, hfit, hfit', hsum]
    rfl
  case storeDecimal x =>
    have hlen : (Guest.decimal (g.register x)).length < 2 ^ 64 := by simp [Guest.decimal]
    simp only [execute, Instruction.execute, register_guest, Option.bind_eq_bind, Option.bind_some,
      store_eq g.memory g.processor.i.toUInt64 _ hlen]
    rfl
  case storeRegisters x =>
    have hlen := Instruction.length_upTo g.processor x
    simp only [execute, Instruction.execute, upTo_eq, Option.bind_eq_bind, Option.bind_some,
      store_eq g.memory g.processor.i.toUInt64 (g.processor.upTo (.ofOperand x)) (by omega)]
    rfl
  case loadRegisters x =>
    have hcount : UInt64.ofNat (x.toNat % 16 + 1) = (x &&& 0xF) + 1 := by
      rw [← Instruction.toNat_and_digit_succ, UInt64.ofNat_toNat]
    simp only [execute, Instruction.execute, fit_count, hcount, slice_eq, Option.bind_eq_bind,
      Option.bind_some]
    cases hs : g.memory.slice g.processor.i.toUInt64 ((x &&& 0xF) + 1) with
    | error fault => rfl
    | ok bytes =>
      have hlen := Memory.length_of_slice hs
      rw [Instruction.toNat_and_digit_succ] at hlen
      simp only [setFirst_eq g.processor x hlen, Option.bind_some]
      rfl
  case ret =>
    simp only [execute, Instruction.execute, ret_eq h.processor hlow, Option.bind_eq_bind,
      Option.bind_some]
    rfl
  case call address =>
    simp only [execute, Instruction.execute, call_eq hlow, Option.bind_eq_bind, Option.bind_some]
    rfl
  all_goals
    simp only [execute, register_guest, setRegister_eq, setWithFlag_eq, skipIf_eq hpc,
      Option.bind_eq_bind, Option.bind_some]
    rfl

end

/-! ## Machines -/

section

variable {m : Machine}

/-- The cycle counter stays below the period, so that one more fits its word. -/
theorem countCycle_eq (h : m.counter < m.settings.timerPeriod) :
    countCycle m = some m.countCycle := by
  have hlt := UInt32.lt_iff_toNat_lt.1 h
  have hperiod := m.settings.timerPeriod.toNat_lt
  have hnext : UInt32.ofNat (m.counter.toNat + 1) = m.counter + 1 := by
    rw [UInt32.ofNat_add, UInt32.ofNat_toNat]
    rfl
  have hcount : (m.counter + 1).toNat = m.counter.toNat + 1 := by
    rw [UInt32.toNat_add, show (1 : UInt32).toNat = 1 from rfl]
    omega
  unfold countCycle Machine.countCycle
  simp only [fit_eq (show m.counter.toNat + 1 < 2 ^ 32 by omega), Option.bind_eq_bind,
    Option.bind_some, hnext, UInt32.le_iff_toNat_le, hcount]
  split
  · rfl
  · rfl

theorem perform_eq (h : m.Sound) (hlow : 2 ≤ m.guest.processor.pc.toNat) {i : Instruction}
    (hi : i.Encodable) (pc word : UInt16) : perform m pc word i = some (m.perform pc word i) := by
  unfold perform Machine.perform
  simp only [execute_eq hi hlow h.guest, Option.bind_eq_bind, Option.bind_some]
  rcases i.execute m.guest with ⟨result, guest⟩
  cases result with
  | error fault => rfl
  | ok done =>
    have hcount : countCycle { m with guest := guest } =
        some (Machine.countCycle { m with guest := guest }) := countCycle_eq h.counter_lt
    simp only [hcount, Option.bind_some]
    rfl

/-- A cycle of a sound machine does not stop. -/
theorem cycle_eq (h : m.Sound) : cycle m = some m.cycle := by
  unfold cycle Machine.cycle
  by_cases hwait : m.isWaiting = true
  · rw [if_pos hwait, if_pos hwait]
    rfl
  · rw [if_neg hwait, if_neg hwait]
    simp only [readWord_eq, Option.bind_eq_bind, Option.bind_some]
    have hread := m.guest.memory.readWord_eq m.guest.processor.pc.toUInt64
    rw [UInt16.toNat_toUInt64] at hread
    cases hword : m.guest.memory.readWord m.guest.processor.pc.toUInt64 with
    | error fault => rfl
    | ok word =>
      have hpc : m.guest.processor.pc.toNat + 1 ≤ 4095 := Classical.byContradiction fun hgt => by
        rw [hword, if_neg hgt] at hread
        cases hread
      have hahead := Machine.toNat_ahead_pc hpc
      simp only [skip_eq h.guest.processor.pc_le, Option.bind_some]
      cases hd : Instruction.decode word with
      | error fault => rfl
      | ok i =>
        have hi := (Instruction.decode_eq_ok_iff.1 hd).encodable
        exact perform_eq (m := m.passInstruction) (h.withGuest (h.ahead hpc))
          (Nat.le_trans (Nat.le_add_left 2 _) (Nat.le_of_eq hahead.symm)) hi _ _

theorem run_eq (h : m.Sound) (n : Nat) : run m n = some (m.run n) := by
  induction n generalizing m with
  | zero => rfl
  | succ n ih =>
    have hnext := h.cycle
    rw [run, cycle_eq h, m.run_succ]
    simp only [Option.bind_eq_bind, Option.bind_some]
    rcases hc : m.cycle with ⟨result, m', log⟩
    rw [hc] at hnext
    cases result with
    | error fault => rfl
    | ok done =>
      simp only [ih hnext, Option.bind_some]
      rfl

theorem load_eq (program : List UInt8) :
    start m m program (.loaded program.length) = some (m.load program) := by
  unfold start Machine.load
  simp only [freshMemory_eq, loadProgram_eq, Option.bind_eq_bind, Option.bind_some]
  cases Memory.powerOn.loadProgram program with
  | error fault => rfl
  | ok memory => rfl

theorem emptied_eq : emptied m = some m.emptied := by
  rw [emptied, freshMemory_eq]
  rfl

theorem reset_eq : start m m.emptied m.program .reset = some m.reset := by
  unfold start Machine.reset
  simp only [freshMemory_eq, loadProgram_eq, Option.bind_eq_bind, Option.bind_some]
  cases Memory.powerOn.loadProgram m.program with
  | error fault => rfl
  | ok memory => rfl

/-- The register that waits for a key exists. -/
theorem answerKey_eq (h : m.Sound) (key : UInt8) : answerKey m key = some (m.answerKey key) := by
  unfold answerKey Machine.answerKey Keypad.answer
  by_cases hk : key < 16
  · rw [if_pos hk]
    cases hw : m.guest.keypad.waiting with
    | none => rfl
    | some register =>
      have hlt := h.guest.waiting_lt register hw
      have hfin : Register.ofOperand register = ⟨register.toNat, hlt⟩ :=
        Fin.ext (Nat.mod_eq_of_lt hlt)
      simp only [put_eq _ hlt, Option.bind_eq_bind, Option.bind_some, Guest.setRegister,
        Processor.set, hfin]
      rfl
  · rw [if_neg hk]
    rfl

theorem serve_eq (h : m.Sound) (request : Machine.Request) :
    serve m request = some (m.serve request) := by
  cases request with
  | load program =>
    rw [serve, load_eq]
    rfl
  | loadRom source =>
    simp only [serve, Machine.serve, Machine.loadRom]
    cases Rom.gather source with
    | error reason => rfl
    | ok program =>
      simp only [load_eq]
      rfl
  | reset =>
    simp only [serve, emptied_eq, Option.bind_eq_bind, Option.bind_some, reset_eq]
    rfl
  | cycle =>
    rw [serve, cycle_eq h]
    rfl
  | run n =>
    rw [serve, run_eq h]
    rfl
  | setKey key pressed => rfl
  | answerKey key =>
    rw [serve, answerKey_eq h]
    rfl
  | takeFrame => rfl

theorem replies_eq (h : m.Sound) (history : List Machine.Request) :
    replies m history = some (m.replies history) := by
  induction history generalizing m with
  | nil => rfl
  | cons request rest ih =>
    rw [replies, serve_eq h]
    simp only [Option.bind_eq_bind, Option.bind_some, ih (h.serve request)]
    rfl

end

/-- From power-on every history leads to sound machines with the same settings, and strict
evaluation gives all the replies to it: no index leaves its array, nothing overflows, and
the program counter does not wrap. A machine that is made with a program is one whose
history starts with a load. -/
theorem sound_and_session_eq (settings : Settings) (supply : Random.Supply)
    (history : List Machine.Request) :
    ((Machine.powerOn settings supply).serveAll history).Sound ∧
      ((Machine.powerOn settings supply).serveAll history).settings = settings ∧
      session settings supply history =
        some ((Machine.powerOn settings supply).replies history) := by
  refine ⟨((Machine.reachable_powerOn settings supply).serveAll history).sound,
    Machine.serveAll_settings _ history, ?_⟩
  have hstart : powerOn settings supply = some (Machine.powerOn settings supply) := by
    rw [powerOn, freshMemory_eq]
    rfl
  rw [session, hstart]
  exact replies_eq (Machine.sound_powerOn settings supply) history

end Chip8VM.Strict
