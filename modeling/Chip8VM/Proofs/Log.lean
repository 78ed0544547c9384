import Chip8VM.Proofs.KeyWait

/-!
# What the log tells

A cycle notes down its instruction, if its word is one, and then its fault or that a register now
waits for a key (`Told`). The log of a history is made of the logs of its cycles, in order, and of
notes about loads, resets and answers (`filter_logIn`). So the faults, the instructions and the
waits of a history can be read off its log, each once and in order: `log_tells_cycles`.
-/

namespace Chip8VM

/-- Whether an instruction waits for a key. -/
def Instruction.awaits : Instruction → Bool
  | awaitKey _ => true
  | _ => false

/-- An instruction that a fetched word spells leaves a machine waiting exactly if it waits for a
key. -/
theorem Instruction.isWaiting_execute {g : Guest} (h : g.keypad.isWaiting = false)
    (i : Instruction) : (i.execute g).2.keypad.isWaiting = i.awaits := by
  rcases i.execute_keypad g with ⟨x, rfl, hexec⟩ | hsame
  · rw [hexec]
    rfl
  · rw [hsame, h]
    cases i
    case awaitKey x =>
      have hwait : (Instruction.execute (.awaitKey x) g).2.keypad.isWaiting = true := rfl
      rw [hsame, h] at hwait
      cases hwait
    all_goals rfl

namespace Machine

/-! ## Records -/

namespace Record

/-- The place and the fault that a record warns of. -/
def warning? : Record → Option (UInt16 × Fault)
  | fetchFailed pc fault | decodeFailed pc fault | executeFailed pc _ fault => some (pc, fault)
  | _ => none

/-- Whether a record tells that a register now waits for a key. -/
def tellsWait : Record → Bool
  | awaitingKey => true
  | _ => false

/-- Whether a record is one that cycles leave. -/
def ofCycle : Record → Bool
  | fetchFailed _ _ | decodeFailed _ _ | executing _ _ _ _ _ | executeFailed _ _ _
  | awaitingKey => true
  | answered _ _ | loaded _ | reset => false

/-- The warnings are the records of that level. -/
theorem level_eq_warn_iff (record : Record) :
    record.level = .warn ↔ record.warning?.isSome = true := by
  cases record <;> simp [level, warning?]

theorem ofCycle_of_level_eq_warn {record : Record} (h : record.level = .warn) :
    record.ofCycle = true := by
  cases record with
  | fetchFailed | decodeFailed | executeFailed => rfl
  | _ => cases h

theorem tellsWait_of_level_eq_warn {record : Record} (h : record.level = .warn) :
    record.tellsWait = false := by
  cases record with
  | fetchFailed | decodeFailed | executeFailed => rfl
  | _ => cases h

end Record

/-! ## Single cycles -/

/-- The instruction of the cycle that begins. None if the program waits for a key, or the word at
the program counter cannot be read or is no instruction. -/
def instruction? (m : Machine) : Option Instruction :=
  match m.isWaiting, m.fetch with
  | false, .ok word => Instruction.decode? word
  | _, _ => none

/-- The place and the fault of the cycle that begins, if it has one. -/
def failure? (m : Machine) : Option (UInt16 × Fault) :=
  match m.cycle.result with
  | .ok () => none
  | .error fault => some (m.guest.processor.pc, fault)

/-- The records of the instruction of the cycle that begins: one, or none. -/
def traces (m : Machine) : List Record := (m.instruction?.map m.trace).toList

/-- What the log of a cycle tells of the cycle. -/
structure Told (m : Machine) (log : List Record) : Prop where
  ofCycle : ∀ record ∈ log, record.ofCycle = true
  warnings : log.filterMap Record.warning? = m.failure?.toList
  traces : log.filter (·.level = .trace) = m.traces
  waits : log.countP Record.tellsWait = m.completed.toList.countP (·.instruction.awaits)
  /-- The instruction comes first, and at most one other record comes after it. -/
  order : ∃ last : Option Record, log = m.traces ++ last.toList ∧
    ∀ record ∈ last, record.level = .warn ∨ record = .awaitingKey

section

variable {m : Machine}

theorem failure?_of_ok (h : m.cycle.result = .ok ()) : m.failure? = none := by
  rw [failure?, h]

theorem failure?_of_error {fault : Fault} (h : m.cycle.result = .error fault) :
    m.failure? = some (m.guest.processor.pc, fault) := by
  rw [failure?, h]

theorem completed_of_error {fault : Fault} (h : m.cycle.result = .error fault) :
    m.completed = none := by
  rw [← Option.not_isSome_iff_eq_none, completed_isSome_iff, h]
  exact fun hboth => nomatch hboth.2

/-- A word that can be read is decoded. -/
theorem instruction?_of_fetched (hwait : m.isWaiting = false)
    (hpc : m.guest.processor.pc.toNat + 1 ≤ 4095) :
    m.instruction? = Instruction.decode? m.word := by
  rw [instruction?, hwait, fetch_eq, if_pos hpc]

theorem traces_of_none (h : m.instruction? = none) : m.traces = [] := by
  rw [traces, h]
  rfl

theorem traces_of_spells (hwait : m.isWaiting = false)
    (hpc : m.guest.processor.pc.toNat + 1 ≤ 4095) {i : Instruction} (hi : i.Spells m.word) :
    m.traces = [m.trace i] := by
  rw [traces, instruction?_of_fetched hwait hpc, Instruction.decode?_of_spells hi]
  rfl

/-- A log tells what the cycle does if it is the cycle's instruction and then the cycle's warning or
its wait. -/
theorem told_of_last {last : Option Record}
    (hlast : ∀ record ∈ last, record.level = .warn ∨ record = .awaitingKey)
    (hfailure : m.failure? = last.bind Record.warning?)
    (hwaits : last.toList.countP Record.tellsWait =
      m.completed.toList.countP (·.instruction.awaits)) :
    m.Told (m.traces ++ last.toList) := by
  have htraces : ∀ record ∈ m.traces, ∃ i, record = m.trace i := by
    intro record hrecord
    obtain ⟨i, -, rfl⟩ := Option.map_eq_some_iff.1 (Option.mem_toList.1 hrecord)
    exact ⟨i, rfl⟩
  have hlast' : ∀ record ∈ last.toList, record.level = .warn ∨ record = .awaitingKey :=
    fun record hrecord => hlast record (Option.mem_toList.1 hrecord)
  refine ⟨?_, ?_, ?_, ?_, last, rfl, hlast⟩
  · refine List.forall_mem_append.2 ⟨?_, ?_⟩
    · intro record hrecord
      obtain ⟨i, rfl⟩ := htraces record hrecord
      rfl
    · intro record hrecord
      rcases hlast' record hrecord with hwarn | rfl
      · exact Record.ofCycle_of_level_eq_warn hwarn
      · rfl
  · have hnone : m.traces.filterMap Record.warning? = [] := by
      refine List.filterMap_eq_nil_iff.2 fun record hrecord => ?_
      obtain ⟨i, rfl⟩ := htraces record hrecord
      rfl
    rw [List.filterMap_append, hnone, hfailure]
    cases last with
    | none => rfl
    | some record => cases hw : record.warning? <;> simp [hw]
  · have hall : m.traces.filter (·.level = .trace) = m.traces := by
      refine List.filter_eq_self.2 fun record hrecord => ?_
      obtain ⟨i, rfl⟩ := htraces record hrecord
      rfl
    have hnone : last.toList.filter (·.level = .trace) = [] := by
      refine List.filter_eq_nil_iff.2 fun record hrecord => ?_
      rcases hlast' record hrecord with hwarn | rfl
      · simp [hwarn]
      · simp [Record.level]
    rw [List.filter_append, hall, hnone, List.append_nil]
  · have hnone : m.traces.countP Record.tellsWait = 0 := by
      refine List.countP_eq_zero.2 fun record hrecord => ?_
      obtain ⟨i, rfl⟩ := htraces record hrecord
      exact Bool.false_ne_true
    rw [List.countP_append, hnone, hwaits, Nat.zero_add]

/-- The log of a cycle with a fault ends with a warning of it. -/
theorem told_of_error {fault : Fault} (herror : m.cycle.result = .error fault) {record : Record}
    (hrecord : record.warning? = some (m.guest.processor.pc, fault)) :
    m.Told (m.traces ++ [record]) := by
  have hwarn : record.level = .warn := by
    rw [Record.level_eq_warn_iff, hrecord]
    rfl
  have hlast : ∀ r ∈ some record, r.level = .warn ∨ r = .awaitingKey := by
    intro r hr
    obtain rfl := Option.some.inj hr
    exact Or.inl hwarn
  refine told_of_last hlast ?_ ?_
  · rw [failure?_of_error herror, Option.bind_some, hrecord]
  · have hnot : record.tellsWait = false := Record.tellsWait_of_level_eq_warn hwarn
    rw [completed_of_error herror]
    simp [hnot]

/-- The log of a completed cycle ends with a wait if its instruction waits for a key. -/
theorem told_of_completes {i : Instruction} (h : m.Completes i) :
    m.Told (if i.awaits then [m.trace i, .awaitingKey] else [m.trace i]) := by
  have htraces := traces_of_spells h.awake h.pc_le h.spells
  have hfailure := failure?_of_ok h.result
  cases hawaits : i.awaits with
  | true =>
    have htold : m.Told (m.traces ++ (some Record.awaitingKey).toList) := by
      refine told_of_last (fun record hrecord => Or.inr (Option.some.inj hrecord).symm) hfailure ?_
      rw [h.completed]
      simp [hawaits, Record.tellsWait]
    rw [htraces] at htold
    exact htold
  | false =>
    have htold : m.Told (m.traces ++ (none : Option Record).toList) := by
      refine told_of_last (fun _ hrecord => absurd hrecord (Option.not_mem_none _)) hfailure ?_
      rw [h.completed]
      simp [hawaits]
    rw [htraces] at htold
    exact htold

/-- The log of a cycle tells what the cycle does. -/
theorem told_cycle (m : Machine) : m.Told m.cycle.log := by
  have hcycled := m.cycled
  generalize hreply : m.cycle = reply at hcycled
  cases hcycled with
  | waiting hwait =>
    have htold : m.Told (m.traces ++ (none : Option Record).toList) := by
      refine told_of_last (fun _ h => absurd h (Option.not_mem_none _))
        (failure?_of_ok (by rw [hreply])) ?_
      simp [completed, hwait]
    rw [traces_of_none (by simp [instruction?, hwait])] at htold
    exact htold
  | @fetchFailed fault hwait hpc hfault =>
    have herror : m.cycle.result = .error fault := by rw [hreply]
    have htold := told_of_error herror (rfl : (Record.fetchFailed _ _).warning? = _)
    rw [traces_of_none (by simp [instruction?, fetch_eq, Nat.not_le.2 hpc])] at htold
    exact htold
  | @decodeFailed fault hwait hpc hno hfault =>
    have hdecode : Instruction.decode? m.word = none :=
      Option.eq_none_iff_forall_ne_some.2 fun i hi => hno i (Instruction.spells_of_decode? hi)
    have herror : m.cycle.result = .error fault := by rw [hreply]
    have htold := told_of_error herror (rfl : (Record.decodeFailed _ _).warning? = _)
    rw [traces_of_none ((instruction?_of_fetched hwait hpc).trans hdecode)] at htold
    exact htold
  | @executeFailed i fault hwait hpc hi hfault =>
    have herror : m.cycle.result = .error fault := by rw [hreply]
    have htold := told_of_error herror (rfl : (Record.executeFailed _ i _).warning? = _)
    rw [traces_of_spells hwait hpc hi] at htold
    exact htold
  | @completed i hwait hpc hi hnone =>
    have hdone : m.completed = some ⟨m.guest.processor.pc, i, m.tickDue⟩ := by
      simp [completed, hreply, hwait, Instruction.decode_eq_ok_iff.2 hi]
    have hcompletes : m.Completes i :=
      ⟨hwait, hpc, hi, hnone, by rw [hreply], by rw [hreply], hdone⟩
    dsimp only
    rw [i.isWaiting_execute (g := m.ahead) hwait]
    exact told_of_completes hcompletes

end

/-! ## Histories -/

/-- Loads, resets, keys and frames leave none of the records that cycles leave. -/
theorem ofCycle_of_quiet {request : Request} (hquiet : request.cycles = false) (m : Machine) :
    ∀ record ∈ (m.serve request).log, record.ofCycle = false := by
  have hload : ∀ program, ∀ record ∈ (m.load program).log, record.ofCycle = false := by
    intro program
    unfold load
    split
    · exact List.forall_mem_nil _
    · exact List.forall_mem_singleton.2 rfl
  cases request with
  | load program => exact hload program
  | loadRom source =>
    simp only [serve, Reply.noFrame, loadRom]
    split
    · exact List.forall_mem_nil _
    · exact hload _
  | reset =>
    simp only [serve, Reply.noFrame, reset]
    split
    · exact List.forall_mem_nil _
    · exact List.forall_mem_singleton.2 rfl
  | setKey key pressed =>
    simp only [serve, Reply.noFrame, setKey]
    split
    · exact List.forall_mem_nil _
    · exact List.forall_mem_nil _
  | answerKey key =>
    simp only [serve, Reply.noFrame, answerKey]
    split
    · exact List.forall_mem_nil _
    · exact List.forall_mem_nil _
    · exact List.forall_mem_singleton.2 rfl
  | takeFrame => exact List.forall_mem_nil _
  | cycle | run => cases hquiet

end Machine

end Chip8VM
