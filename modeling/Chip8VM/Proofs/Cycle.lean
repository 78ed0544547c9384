import Chip8VM.Machine
import Chip8VM.Proofs.Decoding
import Chip8VM.Proofs.Execution

/-!
# What a cycle does

A cycle has five ways to go, and `Cycled` lists them with everything that each of them
leaves behind: the machine waits for a key, its program counter points outside memory,
the word there is no instruction, the instruction has a fault, or it is carried out and
counted. `cycled` says that there is no sixth. What holds of all cycles is read off this
list, and what cycles keep, runs keep too (`run_invariant`).

`run_cases` cuts a run into its cycles: it stops with the first fault that one of them
has, and with the machine and the log that they leave one after the other.
-/

namespace Chip8VM.Machine

/-! ## Single cycles -/

/-- The word at the program counter. -/
def word (m : Machine) : UInt16 := m.guest.memory.wordAt m.guest.processor.pc.toNat

/-- The record of an instruction about to execute. -/
def trace (m : Machine) (i : Instruction) : Record :=
  .executing m.guest.processor.pc m.word i m.guest.processor.v m.guest.processor.i

/-- The guest for the instruction at the program counter, which is past it already. -/
def ahead (m : Machine) : Guest := m.passInstruction.guest

/-- The machine after an instruction without a fault. -/
def complete (m : Machine) (i : Instruction) : Machine :=
  { m with guest := (i.execute m.ahead).2 }.countCycle

/-- What a cycle of the machine may give. -/
inductive Cycled (m : Machine) : Reply Unit → Prop where
  /-- The program waits for a key. -/
  | waiting (hwait : m.isWaiting = true) : Cycled m ⟨.ok (), m, []⟩
  /-- Part of the word at the program counter lies outside memory. -/
  | fetchFailed {fault : Fault} (hwait : m.isWaiting = false)
      (hpc : 4095 < m.guest.processor.pc.toNat + 1)
      (hfault : fault = .memoryOutOfBounds (max m.guest.processor.pc.toUInt64 4096)) :
      Cycled m ⟨.error fault, m, [.fetchFailed m.guest.processor.pc fault]⟩
  /-- The word at the program counter is no instruction. -/
  | decodeFailed {fault : Fault} (hwait : m.isWaiting = false)
      (hpc : m.guest.processor.pc.toNat + 1 ≤ 4095)
      (hno : ∀ i : Instruction, ¬i.Spells m.word) (hfault : fault = .unknownOpcode m.word) :
      Cycled m ⟨.error fault, m.passInstruction, [.decodeFailed m.guest.processor.pc fault]⟩
  /-- The instruction has a fault. -/
  | executeFailed {i : Instruction} {fault : Fault} (hwait : m.isWaiting = false)
      (hpc : m.guest.processor.pc.toNat + 1 ≤ 4095) (hi : i.Spells m.word)
      (hfault : i.fault? m.ahead = some fault) :
      Cycled m ⟨.error fault, m.passInstruction,
        [m.trace i, .executeFailed m.guest.processor.pc i fault]⟩
  /-- The instruction is carried out. -/
  | completed {i : Instruction} (hwait : m.isWaiting = false)
      (hpc : m.guest.processor.pc.toNat + 1 ≤ 4095) (hi : i.Spells m.word)
      (hnone : i.fault? m.ahead = none) :
      Cycled m ⟨.ok (), m.complete i,
        if (i.execute m.ahead).2.keypad.isWaiting then [m.trace i, .awaitingKey]
        else [m.trace i]⟩

/-- An instruction with a fault leaves the machine just past it. -/
theorem perform_of_fault {m : Machine} {i : Instruction} {fault : Fault}
    (h : i.fault? m.ahead = some fault) :
    m.passInstruction.perform m.guest.processor.pc m.word i =
      ⟨.error fault, m.passInstruction,
        [m.trace i, .executeFailed m.guest.processor.pc i fault]⟩ := by
  have hfst : (i.execute m.ahead).1 = .error fault := by rw [Instruction.execute_fst, h]; rfl
  have hexec : i.execute m.ahead = (.error fault, m.ahead) :=
    Prod.ext hfst (Instruction.execute_snd_of_error hfst)
  unfold perform
  rw [show m.passInstruction.guest = m.ahead from rfl, hexec]
  rfl

/-- An instruction without a fault is carried out and counted. -/
theorem perform_of_no_fault {m : Machine} {i : Instruction} (h : i.fault? m.ahead = none) :
    m.passInstruction.perform m.guest.processor.pc m.word i =
      ⟨.ok (), m.complete i,
        if (i.execute m.ahead).2.keypad.isWaiting then [m.trace i, .awaitingKey]
        else [m.trace i]⟩ := by
  have hfst : (i.execute m.ahead).1 = .ok () := by rw [Instruction.execute_fst, h]; rfl
  have hexec : i.execute m.ahead = (.ok (), (i.execute m.ahead).2) := Prod.ext hfst rfl
  unfold perform
  rw [show m.passInstruction.guest = m.ahead from rfl, hexec]
  rfl

/-- Every cycle goes one of the five ways. -/
theorem cycled (m : Machine) : Cycled m m.cycle := by
  unfold cycle
  by_cases hwait : m.isWaiting = true
  · rw [if_pos hwait]
    exact .waiting hwait
  · rw [if_neg hwait]
    have hwait : m.isWaiting = false := Bool.eq_false_iff.2 hwait
    have hread := m.guest.memory.readWord_eq m.guest.processor.pc.toUInt64
    rw [UInt16.toNat_toUInt64] at hread
    by_cases hpc : m.guest.processor.pc.toNat + 1 ≤ 4095
    · rw [if_pos hpc] at hread
      simp only [hread]
      cases hd : Instruction.decode (m.guest.memory.wordAt m.guest.processor.pc.toNat) with
      | error fault =>
        obtain ⟨hno, hfault⟩ := Instruction.decode_eq_error_iff.1 hd
        exact .decodeFailed hwait hpc hno hfault
      | ok i =>
        have hi : i.Spells m.word := Instruction.decode_eq_ok_iff.1 hd
        cases hf : i.fault? m.ahead with
        | some fault =>
          rw [show m.guest.memory.wordAt _ = m.word from rfl]
          simp only [perform_of_fault hf]
          exact .executeFailed hwait hpc hi hf
        | none =>
          rw [show m.guest.memory.wordAt _ = m.word from rfl]
          simp only [perform_of_no_fault hf]
          exact .completed hwait hpc hi hf
    · rw [if_neg hpc] at hread
      simp only [hread]
      exact .fetchFailed hwait (Nat.not_le.1 hpc) rfl

/-- A cycle changes nothing but the guest and the counter. -/
theorem exists_cycle_eq (m : Machine) :
    ∃ guest counter, m.cycle.machine = { m with guest := guest, counter := counter } := by
  have hcycled := m.cycled
  generalize m.cycle = reply at hcycled ⊢
  cases hcycled with
  | waiting | fetchFailed | decodeFailed | executeFailed => exact ⟨_, _, rfl⟩
  | completed =>
    unfold complete countCycle
    split
    · exact ⟨_, _, rfl⟩
    · exact ⟨_, _, rfl⟩

/-! ## Runs -/

/-- The machine after so many cycles, whether or not they fault. -/
def after (m : Machine) : Nat → Machine
  | 0 => m
  | k + 1 => m.cycle.machine.after k

/-- What so many cycles note down. -/
def logOf (m : Machine) (count : Nat) : List Record :=
  (List.range count).flatMap fun k => (m.after k).cycle.log

theorem after_succ (m : Machine) (k : Nat) : m.after (k + 1) = (m.after k).cycle.machine := by
  induction k generalizing m with
  | zero => rfl
  | succ k ih => exact ih m.cycle.machine

theorem logOf_succ (m : Machine) (count : Nat) :
    m.logOf (count + 1) = m.cycle.log ++ m.cycle.machine.logOf count := by
  unfold logOf
  rw [List.range_succ_eq_map, List.flatMap_cons, List.flatMap_map]
  rfl

/-- A run goes through its cycles up to the first that faults. -/
theorem run_cases (m : Machine) (n : Nat) :
    (∃ k fault, k < n ∧ (∀ j < k, (m.after j).cycle.result = .ok ()) ∧
      (m.after k).cycle.result = .error fault ∧
      m.run n = ⟨.error fault, m.after (k + 1), m.logOf (k + 1)⟩) ∨
    ((∀ j < n, (m.after j).cycle.result = .ok ()) ∧
      m.run n = ⟨.ok (), m.after n, m.logOf n⟩) := by
  induction n generalizing m with
  | zero => exact Or.inr ⟨fun j hj => absurd hj (Nat.not_lt_zero j), rfl⟩
  | succ n ih =>
    have hrun := m.run_succ n
    have hlog := m.logOf_succ
    rcases hc : m.cycle with ⟨result, m', log⟩
    have hm' : ∀ j, m.after (j + 1) = m'.after j := fun j => by rw [after, hc]
    have h0 : (m.after 0).cycle.result = result := by rw [after, hc]
    simp only [hc] at hrun hlog
    cases result with
    | error fault =>
      refine Or.inl ⟨0, fault, Nat.succ_pos n, fun j hj => absurd hj (Nat.not_lt_zero j), h0, ?_⟩
      rw [hrun, hm', hlog]
      exact congrArg (Reply.mk _ m') (List.append_nil log).symm
    | ok done =>
      have hrun : m.run (n + 1) =
          ⟨(m'.run n).result, (m'.run n).machine, log ++ (m'.run n).log⟩ := hrun
      have below : ∀ {k}, (∀ j < k, (m'.after j).cycle.result = .ok ()) →
          ∀ j < k + 1, (m.after j).cycle.result = .ok () := fun hall j hj => by
        cases j with
        | zero => exact h0
        | succ j => rw [hm']; exact hall j (Nat.lt_of_succ_lt_succ hj)
      rcases ih m' with ⟨k, fault, hk, hall, hfault, heq⟩ | ⟨hall, heq⟩
      · refine Or.inl ⟨k + 1, fault, Nat.succ_lt_succ hk, below hall, ?_, ?_⟩
        · rw [hm']; exact hfault
        · rw [hrun, hm', hlog, heq]
      · refine Or.inr ⟨below hall, ?_⟩
        rw [hrun, hm', hlog, heq]

/-- What every cycle keeps, every run keeps. -/
theorem run_invariant {P : Machine → Prop} (step : ∀ m : Machine, P m → P m.cycle.machine)
    {m : Machine} (h : P m) (n : Nat) : P (m.run n).machine := by
  have hafter : ∀ k, P (m.after k) := fun k => by
    induction k with
    | zero => exact h
    | succ k ih => rw [after_succ]; exact step _ ih
  rcases m.run_cases n with ⟨k, fault, -, -, -, heq⟩ | ⟨-, heq⟩
  · rw [heq]; exact hafter (k + 1)
  · rw [heq]; exact hafter n

/-! ## The screen -/

theorem countCycle_screen (m : Machine) : m.countCycle.guest.screen = m.guest.screen := by
  unfold countCycle
  split <;> rfl

theorem setKey_screen {m : Machine} (key : UInt8) (pressed : Bool) :
    (m.setKey key pressed).machine.guest.screen = m.guest.screen := by
  unfold setKey
  split
  · rfl
  · rfl

theorem answerKey_screen {m : Machine} (key : UInt8) :
    (m.answerKey key).machine.guest.screen = m.guest.screen := by
  unfold answerKey
  split
  · rfl
  · rfl
  · rfl

/-- A cycle that leaves the screen changed leaves its flag raised. -/
theorem cycle_screen (m : Machine) :
    m.cycle.machine.guest.screen = m.guest.screen ∨
      m.cycle.machine.guest.screen.redraw = true := by
  have h := m.cycled
  generalize m.cycle = reply at h ⊢
  cases h with
  | waiting | fetchFailed | decodeFailed | executeFailed => exact Or.inl rfl
  | completed hwait hpc hi hnone =>
    rw [complete, countCycle_screen]
    exact Instruction.execute_screen _ m.ahead

/-- A run that leaves the screen changed leaves its flag raised. -/
theorem run_screen (m : Machine) (n : Nat) :
    (m.run n).machine.guest.screen = m.guest.screen ∨
      (m.run n).machine.guest.screen.redraw = true := by
  refine run_invariant (P := fun m' => m'.guest.screen = m.guest.screen ∨
    m'.guest.screen.redraw = true) (fun m' h => ?_) (Or.inl rfl) n
  rcases m'.cycle_screen with hsame | hraised
  · rw [hsame]; exact h
  · exact Or.inr hraised

end Chip8VM.Machine
