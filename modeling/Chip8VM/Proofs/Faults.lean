import Chip8VM.Proofs.Soundness

/-!
# Faults of a cycle

`CycleFault` lists the faults that a cycle may have and when it has them, by the digits of
the word at the program counter, the index register and the stack pointer. A cycle of a
reachable machine has exactly these faults (`cycle_error_iff`).

A fault of an instruction leaves the guest as it was. A fault of a cycle leaves the machine
as it was, but for the program counter, which is past the word if that could be read; and a
run stops at its first fault (`fault_frame`).
-/

namespace Chip8VM.Machine

/-! ## Results -/

/-- Whether two results are the same can be decided. -/
instance : DecidableEq (Except Fault Unit)
  | .ok _, .ok _ => isTrue rfl
  | .error fault, .error fault' => decidable_of_iff (fault = fault') (by simp)
  | .ok _, .error _ => isFalse nofun
  | .error _, .ok _ => isFalse nofun

/-- A machine whose program is a call of itself. -/
def calling : Machine :=
  (powerOn {} ⟨fun _ => Vector.replicate 8 0, 0⟩).serveAll [.load [0x22, 0x00]]

/-- That machine with sixteen calls on its stack. -/
def fullStack : Machine := calling.serveAll [.run 16]

/-! ## What a fault leaves behind -/

/-- The word at the program counter, if it can be read. -/
def fetch (m : Machine) : Except Fault UInt16 :=
  m.guest.memory.readWord m.guest.processor.pc.toUInt64

theorem fetch_eq (m : Machine) :
    m.fetch =
      if m.guest.processor.pc.toNat + 1 ≤ 4095 then .ok m.word
      else .error (.memoryOutOfBounds (max m.guest.processor.pc.toUInt64 4096)) := by
  rw [fetch, Memory.readWord_eq, UInt16.toNat_toUInt64]
  rfl

/-- The machine with its program counter elsewhere. -/
def withPc (m : Machine) (pc : UInt16) : Machine :=
  { m with guest := { m.guest with processor := { m.guest.processor with pc := pc } } }

/-- Passing the word at the program counter moves it two further when the word is there. -/
theorem passInstruction_eq_withPc {m : Machine} (hpc : m.guest.processor.pc.toNat + 1 ≤ 4095) :
    ∃ pc : UInt16, pc.toNat = m.guest.processor.pc.toNat + 2 ∧
      m.passInstruction = m.withPc pc :=
  ⟨m.guest.processor.pc + 2, toNat_ahead_pc hpc, rfl⟩

/-- A cycle with a fault changes nothing if its word cannot be read, and passes the word
and does nothing else if it can. -/
theorem cycle_of_error {m : Machine} {fault : Fault} (h : m.cycle.result = .error fault) :
    (m.fetch = .error fault ∧ m.cycle.machine = m) ∨
      (m.fetch = .ok m.word ∧ m.guest.processor.pc.toNat + 1 ≤ 4095 ∧
        m.cycle.machine = m.passInstruction) := by
  have hfetch := m.fetch_eq
  have hcycled := m.cycled
  generalize m.cycle = reply at hcycled h ⊢
  cases hcycled with
  | waiting => cases h
  | fetchFailed hwait hpc hfault =>
    obtain rfl := Except.error.inj h
    rw [if_neg (Nat.not_le.2 hpc), ← hfault] at hfetch
    exact Or.inl ⟨hfetch, rfl⟩
  | decodeFailed hwait hpc =>
    rw [if_pos hpc] at hfetch
    exact Or.inr ⟨hfetch, hpc, rfl⟩
  | executeFailed hwait hpc =>
    rw [if_pos hpc] at hfetch
    exact Or.inr ⟨hfetch, hpc, rfl⟩
  | completed => cases h

/-- A run with a fault ends with its first cycle that has one. -/
theorem run_of_error {m : Machine} {n : Nat} {fault : Fault}
    (h : (m.run n).result = .error fault) :
    ∃ k < n, (∀ j < k, (m.after j).cycle.result = .ok ()) ∧
      (m.after k).cycle.result = .error fault ∧
      (m.run n).machine = (m.after k).cycle.machine := by
  rcases m.run_cases n with ⟨k, first, hk, hall, hfirst, heq⟩ | ⟨-, heq⟩
  · rw [heq] at h ⊢
    obtain rfl := Except.error.inj h
    exact ⟨k, hk, hall, hfirst, after_succ m k⟩
  · rw [heq] at h
    cases h

/-- The first fault of its cycles is the fault of a run. -/
theorem result_run_of_first_fault {m : Machine} {n k : Nat} {fault : Fault} (hk : k < n)
    (hbefore : ∀ j < k, (m.after j).cycle.result = .ok ())
    (hfault : (m.after k).cycle.result = .error fault) : (m.run n).result = .error fault := by
  rcases m.run_cases n with ⟨k', first, -, hall, hfirst, heq⟩ | ⟨hall, -⟩
  · obtain rfl : k' = k := by
      rcases Nat.lt_trichotomy k' k with hlt | heq | hgt
      · rw [hbefore k' hlt] at hfirst
        cases hfirst
      · exact heq
      · rw [hall k hgt] at hfault
        cases hfault
    rw [heq, ← hfirst, hfault]
  · rw [hall k hk] at hfault
    cases hfault

/-- A run without a fault goes through all its cycles, and none of them has one. -/
theorem run_of_ok {m : Machine} {n : Nat} (h : (m.run n).result = .ok ()) :
    (∀ j < n, (m.after j).cycle.result = .ok ()) ∧ (m.run n).machine = m.after n := by
  rcases m.run_cases n with ⟨k, fault, -, -, -, heq⟩ | ⟨hall, heq⟩
  · rw [heq] at h
    cases h
  · exact ⟨hall, congrArg Reply.machine heq⟩

theorem result_run_error_iff {m : Machine} {n : Nat} {fault : Fault} :
    (m.run n).result = .error fault ↔
      ∃ k < n, (∀ j < k, (m.after j).cycle.result = .ok ()) ∧
        (m.after k).cycle.result = .error fault := by
  constructor
  · intro h
    obtain ⟨k, hk, hbefore, hfault, -⟩ := run_of_error h
    exact ⟨k, hk, hbefore, hfault⟩
  · rintro ⟨k, hk, hbefore, hfault⟩
    exact result_run_of_first_fault hk hbefore hfault

theorem result_run_ok_iff {m : Machine} {n : Nat} :
    (m.run n).result = .ok () ↔ ∀ j < n, (m.after j).cycle.result = .ok () := by
  refine ⟨fun h => (run_of_ok h).1, fun hall => ?_⟩
  cases hresult : (m.run n).result with
  | ok done => rfl
  | error fault =>
    obtain ⟨k, hk, -, hfault⟩ := result_run_error_iff.1 hresult
    rw [hall k hk] at hfault
    cases hfault

/-- Faults change nothing but the program counter. An instruction with a fault leaves the
guest and its random bytes as they were. A cycle with a fault leaves the whole machine as it
was if its word cannot be read, and otherwise only the program counter is different, two
further on. A run with a fault ends with the first cycle that has one, on the machine that
this cycle leaves. -/
theorem fault_frame :
    (∀ (i : Instruction) (g : Guest) (fault : Fault),
      (i.execute g).1 = .error fault → (i.execute g).2 = g) ∧
    (∀ (m : Machine) (fault : Fault), m.cycle.result = .error fault →
      (m.fetch = .error fault ∧ m.cycle.machine = m) ∨
      (∃ word pc, m.fetch = .ok word ∧ pc.toNat = m.guest.processor.pc.toNat + 2 ∧
        m.cycle.machine = m.withPc pc)) ∧
    (∀ (m : Machine) (n : Nat) (fault : Fault), (m.run n).result = .error fault →
      ∃ k < n, (∀ j < k, (m.after j).cycle.result = .ok ()) ∧
        (m.after k).cycle.result = .error fault ∧
        (m.run n).machine = (m.after k).cycle.machine) := by
  refine ⟨fun i g fault h => Instruction.execute_snd_of_error h, fun m fault h => ?_,
    fun m n fault h => run_of_error h⟩
  rcases cycle_of_error h with hfetch | ⟨hok, hpc, hmachine⟩
  · exact Or.inl hfetch
  · obtain ⟨pc, hnext, hsame⟩ := passInstruction_eq_withPc hpc
    exact Or.inr ⟨m.word, pc, hok, hnext, hmachine.trans hsame⟩

set_option maxRecDepth 100000 in
/-- The seventeenth call of a program that calls itself is the first that fails. -/
theorem fault_frame_of_seventeen_calls :
    (Instruction.ret.execute calling.guest).2 = calling.guest ∧
    ((fullStack.fetch = .error (.stackOverflow 0x200) ∧ fullStack.cycle.machine = fullStack) ∨
      (∃ word pc, fullStack.fetch = .ok word ∧
        pc.toNat = fullStack.guest.processor.pc.toNat + 2 ∧
        fullStack.cycle.machine = fullStack.withPc pc)) ∧
    ∃ k < 20, (∀ j < k, (calling.after j).cycle.result = .ok ()) ∧
      (calling.after k).cycle.result = .error (.stackOverflow 0x200) ∧
      (calling.run 20).machine = (calling.after k).cycle.machine := by
  have hresults : fullStack.cycle.result = .error (.stackOverflow 0x200) ∧
      (calling.run 20).result = .error (.stackOverflow 0x200) := by decide +kernel
  exact ⟨fault_frame.1 .ret _ (.stackUnderflow 0x1FE) rfl, fault_frame.2.1 _ _ hresults.1,
    fault_frame.2.2 _ _ _ hresults.2⟩

/-! ## Which faults a cycle has -/

/-- When a cycle of a machine that does not wait for a key has a fault, and which. -/
inductive CycleFault (m : Machine) : Fault → Prop where
  /-- The second byte of the word lies behind memory. -/
  | fetch (hpc : 4095 < m.guest.processor.pc.toNat + 1) :
      CycleFault m (.memoryOutOfBounds (max m.guest.processor.pc.toUInt64 4096))
  /-- The word is no instruction. -/
  | decode (hpc : m.guest.processor.pc.toNat + 1 ≤ 4095)
      (hno : ∀ i : Instruction, ¬i.Spells m.word) : CycleFault m (.unknownOpcode m.word)
  /-- A call `2nnn` on a full stack. -/
  | overflow (hpc : m.guest.processor.pc.toNat + 1 ≤ 4095) (hop : Opcode.family m.word = 0x2)
      (hsp : m.guest.processor.sp = 16) : CycleFault m (.stackOverflow m.guest.processor.pc)
  /-- A return `00EE` on an empty stack. -/
  | underflow (hpc : m.guest.processor.pc.toNat + 1 ≤ 4095) (hop : m.word = 0x00EE)
      (hsp : m.guest.processor.sp = 0) : CycleFault m (.stackUnderflow m.guest.processor.pc)
  /-- A range from the index register that ends behind memory, of `Dxyn`, `Fx65`, `Fx55` or
  `Fx33`. -/
  | range (hpc : m.guest.processor.pc.toNat + 1 ≤ 4095)
      (hop : (Opcode.family m.word = 0xD ∧
          4096 < m.guest.processor.i.toNat + Opcode.n m.word) ∨
        (Opcode.family m.word = 0xF ∧ (Opcode.kk m.word = 0x65 ∨ Opcode.kk m.word = 0x55) ∧
          4096 < m.guest.processor.i.toNat + Opcode.x m.word + 1) ∨
        (Opcode.family m.word = 0xF ∧ Opcode.kk m.word = 0x33 ∧
          4096 < m.guest.processor.i.toNat + 3)) :
      CycleFault m (.memoryOutOfBounds (max m.guest.processor.i.toUInt64 4096))
  /-- A range of `Fx55` or `Fx33` within memory that starts in the font. -/
  | font (hpc : m.guest.processor.pc.toNat + 1 ≤ 4095)
      (hop : (Opcode.family m.word = 0xF ∧ Opcode.kk m.word = 0x55 ∧
          m.guest.processor.i.toNat + Opcode.x m.word + 1 ≤ 4096) ∨
        (Opcode.family m.word = 0xF ∧ Opcode.kk m.word = 0x33 ∧
          m.guest.processor.i.toNat + 3 ≤ 4096))
      (hi : m.guest.processor.i.toNat < 0x50) :
      CycleFault m (.readOnlyMemory m.guest.processor.i.toUInt64)

/-- What comes of a cycle whose word is an instruction. -/
theorem cycle_result_of_spells {m : Machine} (hwait : m.isWaiting = false)
    (hpc : m.guest.processor.pc.toNat + 1 ≤ 4095) {i : Instruction} (hi : i.Spells m.word) :
    m.cycle.result = Instruction.resultOf (i.fault? m.ahead) := by
  have hcycled := m.cycled
  generalize m.cycle = reply at hcycled ⊢
  cases hcycled with
  | waiting hwait' =>
    rw [hwait] at hwait'
    cases hwait'
  | fetchFailed hwait hpc' => exact absurd hpc (Nat.not_le.2 hpc')
  | decodeFailed hwait hpc hno => exact absurd hi (hno i)
  | executeFailed hwait hpc hi' hfault =>
    obtain rfl := hi.unique hi'
    rw [hfault]
    rfl
  | completed hwait hpc hi' hnone =>
    obtain rfl := hi.unique hi'
    rw [hnone]
    rfl

/-- Past the instruction, a stack fault still names the instruction. -/
theorem ahead_pc_sub_two (m : Machine) : m.ahead.processor.pc - 2 = m.guest.processor.pc :=
  UInt16.add_sub_cancel _ _

/-- The operand of a word names as many registers as its digit says. -/
theorem count_x (word : UInt16) :
    (UInt64.ofNat (Opcode.x word)).toNat % 16 + 1 = Opcode.x word + 1 := by
  rw [Opcode.toNat_x, Nat.mod_eq_of_lt (Opcode.x_lt word)]

/-- A cycle has the faults in the list. -/
theorem cycle_error_of_cycleFault {m : Machine} (hwait : m.isWaiting = false) {fault : Fault}
    (h : CycleFault m fault) : m.cycle.result = .error fault := by
  -- The word spells one instruction, and the fault of that is in `Instruction.fault?`.
  have spelled : ∀ {i : Instruction}, m.guest.processor.pc.toNat + 1 ≤ 4095 →
      i.Spells m.word → i.fault? m.ahead = some fault → m.cycle.result = .error fault :=
    fun hpc hi hfault => by rw [cycle_result_of_spells hwait hpc hi, hfault]; rfl
  have hx := (Opcode.toNat_x m.word).symm
  cases h with
  | fetch hpc =>
    have hfetch := m.fetch_eq
    rw [if_neg (Nat.not_le.2 hpc), fetch] at hfetch
    simp only [cycle, hwait, Bool.false_eq_true, if_false, hfetch]
  | decode hpc hno =>
    have hfetch := m.fetch_eq
    have hdecode := Instruction.decode_eq_error_iff.2 ⟨hno, rfl⟩
    rw [if_pos hpc, fetch] at hfetch
    simp only [cycle, hwait, Bool.false_eq_true, if_false, hfetch, hdecode]
  | overflow hpc hop hsp =>
    refine spelled (i := .call _) hpc ⟨hop, (Opcode.toNat_nnn m.word).symm⟩ ?_
    have hfull : 16 ≤ m.ahead.processor.sp.toNat := by
      show 16 ≤ m.guest.processor.sp.toNat
      rw [hsp]
      decide
    simp only [Instruction.fault?, if_pos hfull, ahead_pc_sub_two]
  | underflow hpc hop hsp =>
    refine spelled (i := .ret) hpc hop ?_
    have hempty : m.ahead.processor.sp = 0 := hsp
    simp only [Instruction.fault?, if_pos hempty, ahead_pc_sub_two]
  | range hpc hop =>
    rcases hop with ⟨hf, hend⟩ | ⟨hf, hkk | hkk, hend⟩ | ⟨hf, hkk, hend⟩
    · refine spelled (i := .draw _ _ _) hpc
        ⟨hf, hx, (Opcode.toNat_y m.word).symm, (Opcode.toNat_n m.word).symm⟩ ?_
      simp only [Instruction.fault?, Opcode.toNat_n]
      exact Instruction.readFault?_eq_some_iff.2 ⟨hend, rfl⟩
    · refine spelled (i := .loadRegisters _) hpc ⟨hf, hkk, hx⟩ ?_
      simp only [Instruction.fault?, count_x]
      exact Instruction.readFault?_eq_some_iff.2 ⟨hend, rfl⟩
    · refine spelled (i := .storeRegisters _) hpc ⟨hf, hkk, hx⟩ ?_
      simp only [Instruction.fault?, count_x]
      exact Instruction.writeFault?_eq_some_iff.2 (Or.inl ⟨hend, rfl⟩)
    · refine spelled (i := .storeDecimal _) hpc ⟨hf, hkk, hx⟩ ?_
      exact Instruction.writeFault?_eq_some_iff.2 (Or.inl ⟨hend, rfl⟩)
  | font hpc hop hfont =>
    rcases hop with ⟨hf, hkk, hend⟩ | ⟨hf, hkk, hend⟩
    · refine spelled (i := .storeRegisters _) hpc ⟨hf, hkk, hx⟩ ?_
      simp only [Instruction.fault?, count_x]
      exact Instruction.writeFault?_eq_some_iff.2 (Or.inr ⟨hend, hfont, rfl⟩)
    · refine spelled (i := .storeDecimal _) hpc ⟨hf, hkk, hx⟩ ?_
      exact Instruction.writeFault?_eq_some_iff.2 (Or.inr ⟨hend, hfont, rfl⟩)

/-- The fault of an instruction that was fetched is in the list. -/
theorem cycleFault_of_fault? {m : Machine} (hsound : m.Sound)
    (hpc : m.guest.processor.pc.toNat + 1 ≤ 4095) {i : Instruction} (hi : i.Spells m.word)
    {fault : Fault} (h : i.fault? m.ahead = some fault) : CycleFault m fault := by
  have hahead : m.ahead.processor.i = m.guest.processor.i := rfl
  have hsp : m.ahead.processor.sp = m.guest.processor.sp := rfl
  have hdigit : ∀ {x : UInt64}, Opcode.x m.word = x.toNat → x.toNat % 16 = Opcode.x m.word :=
    fun he => by rw [← he, Nat.mod_eq_of_lt (Opcode.x_lt m.word)]
  cases i
  case ret =>
    simp only [Instruction.fault?, hsp, ahead_pc_sub_two] at h
    split at h
    · rename_i hempty
      obtain rfl := Option.some.inj h
      exact .underflow hpc hi hempty
    · cases h
  case call address =>
    simp only [Instruction.fault?, hsp, ahead_pc_sub_two] at h
    split at h
    · rename_i hfull
      obtain rfl := Option.some.inj h
      have hle := hsound.guest.processor.sp_le
      exact .overflow hpc hi.1 (UInt8.toNat_inj.1 (Nat.le_antisymm hle hfull))
    · cases h
  case draw x y n =>
    obtain ⟨hf, -, -, hn⟩ := hi
    simp only [Instruction.fault?, hahead, ← hn] at h
    obtain ⟨hend, rfl⟩ := Instruction.readFault?_eq_some_iff.1 h
    exact .range hpc (Or.inl ⟨hf, hend⟩)
  case loadRegisters x =>
    obtain ⟨hf, hkk, hx⟩ := hi
    simp only [Instruction.fault?, hahead, hdigit hx] at h
    obtain ⟨hend, rfl⟩ := Instruction.readFault?_eq_some_iff.1 h
    exact .range hpc (Or.inr (Or.inl ⟨hf, Or.inl hkk, hend⟩))
  case storeRegisters x =>
    obtain ⟨hf, hkk, hx⟩ := hi
    simp only [Instruction.fault?, hahead, hdigit hx] at h
    rcases Instruction.writeFault?_eq_some_iff.1 h with ⟨hend, rfl⟩ | ⟨hend, hfont, rfl⟩
    · exact .range hpc (Or.inr (Or.inl ⟨hf, Or.inr hkk, hend⟩))
    · exact .font hpc (Or.inl ⟨hf, hkk, hend⟩) hfont
  case storeDecimal x =>
    obtain ⟨hf, hkk, -⟩ := hi
    simp only [Instruction.fault?, hahead] at h
    rcases Instruction.writeFault?_eq_some_iff.1 h with ⟨hend, rfl⟩ | ⟨hend, hfont, rfl⟩
    · exact .range hpc (Or.inr (Or.inr ⟨hf, hkk, hend⟩))
    · exact .font hpc (Or.inr ⟨hf, hkk, hend⟩) hfont
  all_goals cases h

/-- A cycle has no fault that is not in the list. -/
theorem cycleFault_of_cycle_error {m : Machine} (hsound : m.Sound) {fault : Fault}
    (h : m.cycle.result = .error fault) : CycleFault m fault := by
  have hcycled := m.cycled
  generalize m.cycle = reply at hcycled h ⊢
  cases hcycled with
  | waiting => cases h
  | fetchFailed hwait hpc hfault =>
    obtain rfl := Except.error.inj h
    exact hfault ▸ .fetch hpc
  | decodeFailed hwait hpc hno hfault =>
    obtain rfl := Except.error.inj h
    exact hfault ▸ .decode hpc hno
  | executeFailed hwait hpc hi hfault =>
    obtain rfl := Except.error.inj h
    exact cycleFault_of_fault? hsound hpc hi hfault
  | completed => cases h

/-- A cycle of a machine that some history leads to has exactly the faults in the list,
unless the machine waits for a key; then it has none. No cycle complains about a key, about
the size of a program or about its source. -/
theorem cycle_error_iff {m : Machine} (hm : Reachable m) :
    (m.isWaiting = false →
      ∀ fault, m.cycle.result = .error fault ↔ CycleFault m fault) ∧
    (m.isWaiting = true → m.cycle.result = .ok ()) ∧
    ∀ fault, m.cycle.result = .error fault →
      (∀ key, fault ≠ .invalidKey key) ∧ (∀ size, fault ≠ .programTooLarge size) ∧
        ∀ reason, fault ≠ .unreadableProgram reason := by
  refine ⟨fun hwait fault => ⟨cycleFault_of_cycle_error hm.sound,
    cycle_error_of_cycleFault hwait⟩, fun hwait => by rw [cycle_of_isWaiting hwait],
    fun fault h => ?_⟩
  cases cycleFault_of_cycle_error hm.sound h with
  | fetch | decode | overflow | underflow | range | font =>
    exact ⟨fun _ => Fault.noConfusion, fun _ => Fault.noConfusion, fun _ => Fault.noConfusion⟩

set_option maxRecDepth 100000 in
/-- A call on a full stack, at the address of the call. -/
theorem cycle_error_iff_at_full_stack :
    Reachable fullStack ∧ fullStack.isWaiting = false ∧
      fullStack.cycle.result = .error (.stackOverflow 0x200) := by
  have hreach : Reachable fullStack :=
    ((reachable_powerOn _ _).serveAll [.load [0x22, 0x00]]).serveAll [.run 16]
  obtain ⟨hwait, hpc, hop, hsp⟩ : fullStack.isWaiting = false ∧
      fullStack.guest.processor.pc = 0x200 ∧ Opcode.family fullStack.word = 0x2 ∧
      fullStack.guest.processor.sp = 16 := by decide +kernel
  have hfault : CycleFault fullStack (.stackOverflow fullStack.guest.processor.pc) :=
    .overflow (by rw [hpc]; decide) hop hsp
  have h := ((cycle_error_iff hreach).1 hwait _).2 hfault
  rw [hpc] at h
  exact ⟨hreach, hwait, h⟩

end Chip8VM.Machine
