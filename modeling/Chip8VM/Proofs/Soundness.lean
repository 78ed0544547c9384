import Chip8VM.Machine.Request
import Chip8VM.Proofs.Cycle
import Chip8VM.Proofs.Pixels

/-!
# The invariant of a machine

`Machine.Sound` is what holds of a machine whatever was asked of it. The stack pointer
stays within the stack, the return addresses below it are behind an instruction that was
fetched, the program counter is at most `0x10FE`, the register that waits for a key
exists, pixels are zero or one, the cycle counter stays below the period of the timers,
and the program that was loaded last fits into memory.

An instruction keeps this when it was fetched (`Instruction.execute_sound`): the program
counter is then between 2 and `0x1000`, and addresses in the instruction are below
`0x1000`. A cycle keeps it by its five ways, a run by its cycles, and `Reachable.sound`
is the induction over histories.
-/

namespace Chip8VM

/-! ## The invariant -/

/-- What holds of a processor at all times. -/
structure Processor.Sound (p : Processor) : Prop where
  sp_le : p.sp.toNat ≤ 16
  pc_le : p.pc.toNat ≤ 0x10FE
  saved : ∀ (k : Nat) (hk : k < 16), k < p.sp.toNat →
    2 ≤ p.stack[k].toNat ∧ p.stack[k].toNat ≤ 0x1000

/-- What holds of a guest at all times. -/
structure Guest.Sound (g : Guest) : Prop where
  processor : g.processor.Sound
  waiting_lt : ∀ register, g.keypad.waiting = some register → register.toNat < 16
  pixel : ∀ (y x : Nat) (hy : y < 32) (hx : x < 64),
    g.screen.frame.levels[y][x] = 0 ∨ g.screen.frame.levels[y][x] = 1

/-- What holds of a machine at all times. -/
structure Machine.Sound (m : Machine) : Prop where
  guest : m.guest.Sound
  counter_lt : m.counter < m.settings.timerPeriod
  program_le : m.program.length ≤ 3584

/-! ## The processor -/

namespace Processor

variable {p q : Processor}

/-- A sound processor stays so when only its program counter moves, and not too far. -/
theorem Sound.of_same_stack (h : p.Sound) (hsp : q.sp = p.sp) (hstack : q.stack = p.stack)
    (hpc : q.pc.toNat ≤ 0x10FE) : q.Sound where
  sp_le := by rw [hsp]; exact h.sp_le
  pc_le := hpc
  saved k hk hlt := by
    rw [hsp] at hlt
    simp only [hstack]
    exact h.saved k hk hlt

theorem sound_powerOn : powerOn.Sound where
  sp_le := Nat.zero_le 16
  pc_le := by decide
  saved k _ hlt := absurd hlt (Nat.not_lt_zero k)

/-- Two behind the program counter is still far from wrapping. -/
theorem toNat_pc_add_two (h : p.pc.toNat ≤ 0x10FE) : (p.pc + 2).toNat = p.pc.toNat + 2 := by
  rw [UInt16.toNat_add, show (2 : UInt16).toNat = 2 from rfl]
  omega

theorem Sound.skipIf (h : p.Sound) (hpc : p.pc.toNat ≤ 0x1000) (condition : Bool) :
    (p.skipIf condition).Sound := by
  unfold Processor.skipIf
  split
  · refine h.of_same_stack rfl rfl ?_
    rw [skip, toNat_pc_add_two h.pc_le]
    omega
  · exact h

theorem toNat_sp_add_one (h : p.sp.toNat < 16) : (p.sp + 1).toNat = p.sp.toNat + 1 := by
  rw [UInt8.toNat_add, show (1 : UInt8).toNat = 1 from rfl]
  omega

/-- A call saves the program counter, which has to be behind a fetched instruction. -/
theorem Sound.call (h : p.Sound) (hlow : 2 ≤ p.pc.toNat) (hhigh : p.pc.toNat ≤ 0x1000)
    {address : UInt16} (haddress : address.toNat ≤ 0x10FE) (hq : p.call address = .ok q) :
    q.Sound := by
  unfold Processor.call at hq
  split at hq
  · rename_i hlt
    have hsp := toNat_sp_add_one hlt
    obtain rfl := Except.ok.inj hq
    refine ⟨?_, haddress, fun k hk hbelow => ?_⟩
    · rw [hsp]; omega
    · rw [hsp] at hbelow
      rw [Vector.getElem_set]
      by_cases he : p.sp.toNat = k
      · rw [if_pos he]
        exact ⟨hlow, hhigh⟩
      · rw [if_neg he]
        exact h.saved k hk (by omega)
  · cases hq

theorem toNat_sp_pos (h : ¬p.sp = 0) : 0 < p.sp.toNat :=
  Nat.pos_of_ne_zero fun h0 => h (UInt8.toNat_inj.1 h0)

theorem toNat_sp_sub_one (h : ¬p.sp = 0) : (p.sp - 1).toNat = p.sp.toNat - 1 := by
  have hle : (1 : UInt8) ≤ p.sp := UInt8.le_iff_toNat_le.2 (toNat_sp_pos h)
  rw [UInt8.toNat_sub_of_le _ _ hle]
  rfl

/-- A return goes to an address that a call saved. -/
theorem Sound.ret (h : p.Sound) (hq : p.ret = .ok q) : q.Sound := by
  unfold Processor.ret at hq
  split at hq
  · cases hq
  · rename_i hne
    have hsp := toNat_sp_sub_one hne
    have hpos := toNat_sp_pos hne
    have hle := h.sp_le
    obtain rfl := Except.ok.inj hq
    refine ⟨?_, ?_, fun k hk hbelow => h.saved k hk (by rw [hsp] at hbelow; omega)⟩
    · rw [hsp]; omega
    · have hlt : (p.sp - 1).toNat < 16 := by omega
      rw [Vector.getElem?_eq_getElem hlt, Option.getD_some]
      exact Nat.le_trans (h.saved _ hlt (by omega)).2 (by decide)

end Processor

/-! ## Guests -/

/-- The level of a pixel is zero or one. -/
theorem Frame.levels_eq (frame : Frame) (y x : Nat) (hy : y < 32) (hx : x < 64) :
    frame.levels[y][x] = 0 ∨ frame.levels[y][x] = 1 := by
  unfold Frame.levels
  rw [Levels.getElem_ofLit]
  split
  · exact Or.inr rfl
  · exact Or.inl rfl

namespace Guest

theorem sound_powerOn (random : Random.Stream) (memory : Memory) :
    Sound { powerOn random with memory := memory } :=
  ⟨Processor.sound_powerOn, fun _ hr => (nomatch hr), Frame.levels_eq _⟩

variable {g : Guest}

theorem Sound.withProcessor (h : g.Sound) {p : Processor} (hp : p.Sound) :
    Sound { g with processor := p } :=
  ⟨hp, h.waiting_lt, h.pixel⟩

/-- Nothing that happens to registers, timers or the index register matters. -/
theorem Sound.withFree (h : g.Sound) {p : Processor} (hsp : p.sp = g.processor.sp)
    (hstack : p.stack = g.processor.stack) (hpc : p.pc = g.processor.pc) :
    Sound { g with processor := p } :=
  h.withProcessor (h.processor.of_same_stack hsp hstack (hpc ▸ h.processor.pc_le))

theorem Sound.attempt (h : g.Sound) {α : Type} {checked : Except Fault α} {next : α → Guest}
    (hnext : ∀ a, checked = .ok a → (next a).Sound) : (g.attempt checked next).2.Sound := by
  cases checked with
  | error fault => exact h
  | ok a => exact hnext a rfl

end Guest

/-! ## Instructions -/

/-- A fetched instruction keeps a guest sound. -/
theorem Instruction.execute_sound {i : Instruction} {g : Guest} (hi : i.Encodable)
    (hlow : 2 ≤ g.processor.pc.toNat) (hhigh : g.processor.pc.toNat ≤ 0x1000)
    (h : g.Sound) : (i.execute g).2.Sound := by
  have hp := h.processor
  have address_le : ∀ {a : UInt16}, a < 0x1000 → a.toNat < 0x1000 := UInt16.lt_iff_toNat_lt.1
  cases i
  case clear => exact ⟨hp, h.waiting_lt, Frame.levels_eq _⟩
  case ret => exact h.attempt fun q hq => h.withProcessor (hp.ret hq)
  case jump address =>
    have ha := address_le hi
    exact h.withProcessor (hp.of_same_stack rfl rfl (by dsimp only; omega))
  case call address =>
    have ha := address_le hi
    exact h.attempt fun q hq => h.withProcessor (hp.call hlow hhigh (by omega) hq)
  case jumpBy address =>
    have ha := address_le hi
    have hv := (g.register 0).toNat_lt
    have hsum : (address + (g.register 0).toUInt16).toNat ≤ 0x10FE := by
      rw [UInt16.toNat_add, UInt8.toNat_toUInt16]
      omega
    exact h.withProcessor (hp.of_same_stack rfl rfl hsum)
  case draw x y n =>
    refine h.attempt fun sprite _ => ?_
    exact ⟨hp.of_same_stack rfl rfl hp.pc_le, h.waiting_lt, Frame.levels_eq _⟩
  case awaitKey x =>
    refine ⟨hp, fun register hr => ?_, h.pixel⟩
    obtain rfl : x &&& 0xF = register := Option.some.inj hr
    rw [toNat_and_digit]
    exact digit_lt x
  case random x kk =>
    exact ⟨hp.of_same_stack rfl rfl hp.pc_le, h.waiting_lt, h.pixel⟩
  case storeDecimal | storeRegisters =>
    exact h.attempt fun memory _ => ⟨hp, h.waiting_lt, h.pixel⟩
  case loadRegisters =>
    refine h.attempt fun bytes _ => ?_
    unfold Processor.setFirst
    exact h.withFree rfl rfl rfl
  case skipEqByte | skipNeByte | skipEq | skipNe | skipPressed | skipReleased =>
    exact h.withProcessor (hp.skipIf hhigh _)
  all_goals exact h.withFree rfl rfl rfl

/-! ## Machines -/

/-- The period of the timers is at least one cycle. -/
theorem Settings.timerPeriod_pos (settings : Settings) : 0 < settings.timerPeriod := by
  unfold timerPeriod
  rw [UInt32.lt_iff_toNat_lt]
  show 0 < (if settings.cyclesPerTick ≤ 1 then 1 else settings.cyclesPerTick).toNat
  split
  · exact Nat.one_pos
  · rename_i h
    exact Nat.lt_of_le_of_lt (Nat.zero_le _) (UInt32.lt_iff_toNat_lt.1 (UInt32.not_le.1 h))

namespace Machine

variable {m : Machine}

theorem Sound.withGuest (h : m.Sound) {g : Guest} (hg : g.Sound) : Sound { m with guest := g } :=
  ⟨hg, h.counter_lt, h.program_le⟩

theorem sound_powerOn (settings : Settings) (supply : Random.Supply) :
    (powerOn settings supply).Sound :=
  ⟨Guest.sound_powerOn _ _, settings.timerPeriod_pos, Nat.zero_le _⟩

/-- A machine started again is sound, since its program was found to fit. -/
theorem sound_restart (m : Machine) {program : List UInt8} {fresh memory : Memory}
    (hload : fresh.loadProgram program = .ok memory) : (m.restart program memory).Sound := by
  refine ⟨Guest.sound_powerOn _ _, m.settings.timerPeriod_pos, ?_⟩
  rw [Memory.loadProgram_eq] at hload
  split at hload
  · cases hload
  · rename_i hfits
    exact Nat.not_lt.1 hfits

theorem Sound.countCycle (h : m.Sound) : m.countCycle.Sound := by
  unfold Machine.countCycle
  split
  · exact ⟨h.guest.withFree rfl rfl rfl, m.settings.timerPeriod_pos, h.program_le⟩
  · rename_i hnot
    exact ⟨h.guest, UInt32.not_le.1 hnot, h.program_le⟩

/-- Behind an instruction that was fetched the program counter lies in `2` to `0x1000`. -/
theorem toNat_ahead_pc (hpc : m.guest.processor.pc.toNat + 1 ≤ 4095) :
    m.ahead.processor.pc.toNat = m.guest.processor.pc.toNat + 2 :=
  Processor.toNat_pc_add_two (by omega)

theorem Sound.ahead (h : m.Sound) (hpc : m.guest.processor.pc.toNat + 1 ≤ 4095) :
    m.ahead.Sound := by
  have hbound : m.guest.processor.pc.toNat + 2 ≤ 0x10FE := by omega
  refine h.guest.withProcessor (h.guest.processor.of_same_stack rfl rfl ?_)
  exact Nat.le_trans (Nat.le_of_eq (toNat_ahead_pc hpc)) hbound

theorem Sound.complete (h : m.Sound) (hpc : m.guest.processor.pc.toNat + 1 ≤ 4095)
    {i : Instruction} (hi : i.Spells m.word) : (m.complete i).Sound := by
  have hahead := toNat_ahead_pc hpc
  have hexec := Instruction.execute_sound hi.encodable (by omega) (by omega) (h.ahead hpc)
  exact (h.withGuest hexec).countCycle

theorem Sound.cycle (h : m.Sound) : m.cycle.machine.Sound := by
  have hcycled := m.cycled
  generalize m.cycle = reply at hcycled ⊢
  cases hcycled with
  | waiting => exact h
  | fetchFailed => exact h
  | decodeFailed hwait hpc => exact h.withGuest (h.ahead hpc)
  | executeFailed hwait hpc => exact h.withGuest (h.ahead hpc)
  | completed hwait hpc hi => exact h.complete hpc hi

theorem Sound.load (h : m.Sound) (program : List UInt8) : (m.load program).machine.Sound := by
  unfold Machine.load
  split
  · exact h
  · rename_i hload
    exact m.sound_restart hload

theorem Sound.reset (h : m.Sound) : m.reset.machine.Sound := by
  unfold Machine.reset
  split
  · exact h.withGuest (Guest.sound_powerOn _ _)
  · rename_i hload
    exact m.sound_restart hload

theorem Sound.setKey (h : m.Sound) (key : UInt8) (pressed : Bool) :
    (m.setKey key pressed).machine.Sound := by
  unfold Machine.setKey Keypad.set
  split
  · exact h
  · rename_i keypad hset
    split at hset
    · obtain rfl := Except.ok.inj hset
      exact h.withGuest ⟨h.guest.processor, h.guest.waiting_lt, h.guest.pixel⟩
    · cases hset

/-- After an answer no register waits, so only the registers are left to look at. -/
theorem Sound.answerKey (h : m.Sound) (key : UInt8) : (m.answerKey key).machine.Sound := by
  have hdone : ∀ (p : Processor) (keypad : Keypad), p.Sound → keypad.waiting = none →
      Machine.Sound { m with guest := { m.guest with processor := p, keypad := keypad } } :=
    fun p keypad hp hnone =>
      h.withGuest ⟨hp, fun register hr => (by rw [hnone] at hr; cases hr), h.guest.pixel⟩
  have hp := h.guest.processor
  unfold Machine.answerKey Keypad.answer
  by_cases hk : key < 16
  · rw [if_pos hk]
    cases m.guest.keypad.waiting with
    | none => exact hdone _ _ hp rfl
    | some register => exact hdone _ _ (hp.of_same_stack rfl rfl hp.pc_le) rfl
  · rw [if_neg hk]
    exact h

theorem Sound.serve (h : m.Sound) (request : Request) : (m.serve request).machine.Sound := by
  cases request with
  | load program => exact h.load program
  | loadRom source =>
    simp only [Machine.serve, loadRom]
    cases Rom.gather source with
    | error reason => exact h
    | ok program => exact h.load program
  | reset => exact h.reset
  | cycle => exact h.cycle
  | run n => exact run_invariant (fun _ h => Sound.cycle h) h n.toNat
  | setKey key pressed => exact h.setKey key pressed
  | answerKey key => exact h.answerKey key
  | takeFrame =>
    exact h.withGuest ⟨h.guest.processor, h.guest.waiting_lt, Frame.levels_eq _⟩

/-! ## Histories -/

theorem cycle_settings (m : Machine) : m.cycle.machine.settings = m.settings := by
  obtain ⟨guest, counter, hmachine⟩ := m.exists_cycle_eq
  rw [hmachine]

/-- Nothing that is asked of a machine changes its settings. -/
theorem serve_settings (m : Machine) (request : Request) :
    (m.serve request).machine.settings = m.settings := by
  have hload : ∀ program, (m.load program).machine.settings = m.settings := fun program => by
    unfold Machine.load
    split
    · rfl
    · rfl
  cases request with
  | load program => exact hload program
  | loadRom source =>
    simp only [Machine.serve, loadRom]
    cases Rom.gather source with
    | error reason => rfl
    | ok program => exact hload program
  | reset =>
    simp only [Machine.serve, Machine.reset]
    cases Memory.powerOn.loadProgram m.program with
    | error fault => rfl
    | ok memory => rfl
  | cycle => exact m.cycle_settings
  | run n =>
    exact run_invariant (P := fun m' => m'.settings = m.settings)
      (fun m' h => m'.cycle_settings.trans h) rfl n.toNat
  | setKey key pressed =>
    simp only [Machine.serve, Machine.setKey]
    cases m.guest.keypad.set key pressed with
    | error fault => rfl
    | ok keypad => rfl
  | answerKey key =>
    simp only [Machine.serve, Machine.answerKey, Keypad.answer]
    by_cases hk : key < 16
    · rw [if_pos hk]
      cases m.guest.keypad.waiting with
      | none => rfl
      | some register => rfl
    · rw [if_neg hk]
      rfl
  | takeFrame => rfl

theorem serveAll_settings (m : Machine) (history : List Request) :
    (m.serveAll history).settings = m.settings := by
  induction history generalizing m with
  | nil => rfl
  | cons request rest ih => exact (ih _).trans (m.serve_settings request)

/-- The invariant holds of every machine that some history leads to. -/
theorem Reachable.sound (h : Reachable m) : m.Sound :=
  h.induction sound_powerOn fun _ request hm => hm.serve request

end Machine

end Chip8VM
