import Chip8VM.Proofs.StaleStack

/-!
# The timers tick once a period

The machine counts the cycles that it completes and ticks both timers when as many are
complete as a period has. The cycles counted since the last tick and the ticks since a
power-on together always make up the completed cycles (`Clocked`), whatever was asked in
between. So the counter is their remainder by the period and the ticks are their quotient.

A tick follows the instruction of its cycle (`Completes.guest`), so a timer that no
instruction sets falls by the number of ticks and stops at zero (`Counted`).
`timers_tick_once_a_period` puts this together.
-/

namespace Chip8VM

/-- The period of the timers is the chosen one, and one cycle if none was chosen. -/
theorem Settings.toNat_timerPeriod (settings : Settings) :
    settings.timerPeriod.toNat = max 1 settings.cyclesPerTick.toNat := by
  unfold timerPeriod
  show (if settings.cyclesPerTick ≤ 1 then 1 else settings.cyclesPerTick).toNat = _
  split
  · rename_i h
    have hle : settings.cyclesPerTick.toNat ≤ 1 := UInt32.le_iff_toNat_le.1 h
    rw [max_eq_left hle]
    rfl
  · rename_i h
    have hlt : 1 < settings.cyclesPerTick.toNat := UInt32.lt_iff_toNat_lt.1 (UInt32.not_le.1 h)
    rw [max_eq_right (Nat.le_of_lt hlt)]

/-! ## The two timers -/

/-- One of the timers. -/
inductive Timer where
  /-- The timer that programs read. -/
  | delay
  /-- The timer that sounds the tone. -/
  | sound

namespace Timer

/-- What a timer shows. -/
def value : Timer → Processor → UInt8
  | delay, p => p.delay
  | sound, p => p.sound

/-- Whether an instruction sets a timer. -/
def setBy : Timer → Instruction → Bool
  | delay, .setDelay _ | sound, .setSound _ => true
  | _, _ => false

theorem value_tick (t : Timer) (p : Processor) :
    (t.value p.tick).toNat = (t.value p).toNat - 1 := by
  cases t with
  | delay => exact Processor.toNat_countDown p.delay
  | sound => exact Processor.toNat_countDown p.sound

/-- An instruction that does not set a timer leaves it alone. -/
theorem value_execute {t : Timer} {i : Instruction} (h : t.setBy i = false) (g : Guest) :
    t.value (i.execute g).2.processor = t.value g.processor := by
  have hskip : ∀ c : Bool, t.value (g.skipIf c).processor = t.value g.processor := by
    intro c
    cases c <;> cases t <;> rfl
  have hattempt : ∀ {α : Type} {checked : Except Fault α} {next : α → Guest},
      (∀ a, t.value (next a).processor = t.value g.processor) →
        t.value (g.attempt checked next).2.processor = t.value g.processor :=
    Guest.attempt_snd_frame fun g => t.value g.processor
  cases i
  case call address =>
    by_cases hsp : g.processor.sp.toNat < 16
    · rw [Instruction.execute_call hsp]
      cases t <;> rfl
    · rw [Instruction.execute_call_of_full hsp]
  case ret =>
    by_cases hsp : g.processor.sp = 0
    · rw [Instruction.execute_ret_of_empty hsp]
    · rw [Instruction.execute_ret hsp]
      cases t <;> rfl
  case draw x y n =>
    refine hattempt fun sprite => ?_
    cases t <;> rfl
  case storeDecimal | storeRegisters =>
    refine hattempt fun _ => ?_
    cases t <;> rfl
  case loadRegisters =>
    refine hattempt fun bytes => ?_
    cases t <;> simp only [Timer.value, Processor.setFirst]
  case skipEqByte | skipNeByte | skipEq | skipNe | skipPressed | skipReleased => exact hskip _
  case setDelay =>
    cases t with
    | delay => cases h
    | sound => rfl
  case setSound =>
    cases t with
    | delay => rfl
    | sound => cases h
  all_goals cases t <;> rfl

end Timer

namespace Machine

/-! ## A completed cycle -/

/-- The counter is far from wrapping. -/
theorem toNat_counter_add_one {m : Machine} (h : m.counter < m.settings.timerPeriod) :
    (m.counter + 1).toNat = m.counter.toNat + 1 := by
  have hlt := UInt32.lt_iff_toNat_lt.1 h
  have hmax := m.settings.timerPeriod.toNat_lt
  rw [UInt32.toNat_add, show (1 : UInt32).toNat = 1 from rfl]
  omega

/-- The timers tick after a cycle if it is the last of its period. -/
theorem tickDue_iff {m : Machine} (h : m.counter < m.settings.timerPeriod) :
    m.tickDue = true ↔ m.counter.toNat + 1 = m.settings.timerPeriod.toNat := by
  have hlt := UInt32.lt_iff_toNat_lt.1 h
  rw [tickDue, decide_eq_true_iff, UInt32.le_iff_toNat_le, toNat_counter_add_one h]
  omega

/-- After the last cycle of a period the counter starts again, and it goes up after every
other. -/
theorem Completes.counter {m : Machine} {i : Instruction} (h : m.Completes i) :
    m.cycle.machine.counter = if m.tickDue then 0 else m.counter + 1 := by
  rw [h.machine, complete, countCycle, tickDue]
  simp only [decide_eq_true_iff]
  split
  · rfl
  · rfl

/-! ## Counting -/

/-- What holds of the counter over a stretch that began at `start` and in which these cycles
were completed. -/
structure Clocked (start m : Machine) (done : List Completed) : Prop where
  settings : m.settings = start.settings
  counter_lt : m.counter < m.settings.timerPeriod
  count : m.counter.toNat + start.settings.timerPeriod.toNat * done.countP Completed.ticked =
    start.counter.toNat + done.length

theorem Clocked.cycle {start m : Machine} {done : List Completed} (h : start.Clocked m done) :
    start.Clocked m.cycle.machine (done ++ m.completed.toList) := by
  have hsettings := m.cycle_settings.trans h.settings
  rcases m.completed_cases with ⟨hnone, pc, hmachine⟩ | ⟨i, hi⟩
  · rw [hnone, hmachine, Option.toList_none, List.append_nil]
    exact ⟨h.settings, h.counter_lt, h.count⟩
  · have hlt := UInt32.lt_iff_toNat_lt.1 h.counter_lt
    have hcount := h.count
    have hdue := tickDue_iff h.counter_lt
    rw [h.settings] at hlt hdue
    rw [hi.completed, Option.toList_some]
    by_cases htick : m.tickDue = true
    · refine ⟨hsettings, ?_, ?_⟩
      · rw [hi.counter, if_pos htick]
        exact Settings.timerPeriod_pos _
      · have hlast := hdue.1 htick
        rw [hi.counter, if_pos htick]
        simp [htick, Nat.mul_add]
        omega
    · have hmore : m.counter.toNat + 1 ≠ start.settings.timerPeriod.toNat := mt hdue.2 htick
      have hnext := toNat_counter_add_one h.counter_lt
      refine ⟨hsettings, ?_, ?_⟩
      · rw [hi.counter, if_neg htick, hsettings, UInt32.lt_iff_toNat_lt, hnext]
        omega
      · rw [hi.counter, if_neg htick, hnext]
        simp [htick]
        omega

/-- Over a stretch the counter and the ticks make up the completed cycles. -/
theorem Sound.clocked {start : Machine} (h : start.Sound) {stretch : List Request}
    (hstretch : start.Uninterrupted stretch) :
    start.Clocked (start.serveAll stretch) (start.completedIn stretch) :=
  stretch_invariant (P := start.Clocked) (fun _ _ h => h.cycle)
    (fun _ _ _ _ _ h => ⟨h.settings, h.counter_lt, h.count⟩) h hstretch
    (⟨rfl, h.counter_lt, by simp⟩ : start.Clocked start [])

/-- The counter is the remainder of the cycles by the period, and the ticks are the quotient. -/
theorem Clocked.div_mod {start m : Machine} {done : List Completed} (h : start.Clocked m done) :
    done.countP Completed.ticked =
        (start.counter.toNat + done.length) / max 1 start.settings.cyclesPerTick.toNat ∧
      m.counter.toNat =
        (start.counter.toNat + done.length) % max 1 start.settings.cyclesPerTick.toNat := by
  have hlt := UInt32.lt_iff_toNat_lt.1 h.counter_lt
  have hcount := h.count
  rw [h.settings, Settings.toNat_timerPeriod] at hlt
  rw [Settings.toNat_timerPeriod] at hcount
  obtain ⟨hdiv, hmod⟩ := (Nat.div_mod_unique (by omega)).2 ⟨hcount, hlt⟩
  exact ⟨hdiv.symm, hmod.symm⟩

/-! ## Counting down -/

/-- What holds of a timer over a stretch that began at `start` and in which these cycles were
completed: it has lost one at each tick, unless an instruction set it. -/
def Counted (t : Timer) (start m : Machine) (done : List Completed) : Prop :=
  (∀ c ∈ done, t.setBy c.instruction = false) →
    (t.value m.guest.processor).toNat =
      (t.value start.guest.processor).toNat - done.countP Completed.ticked

/-- A timer that the instruction of a cycle does not set is one lower after a tick. -/
theorem Completes.value {m : Machine} {i : Instruction} (h : m.Completes i) {t : Timer}
    (ht : t.setBy i = false) :
    (t.value m.cycle.machine.guest.processor).toNat =
      (t.value m.guest.processor).toNat - if m.tickDue then 1 else 0 := by
  have hexec : t.value (i.execute m.ahead).2.processor = t.value m.guest.processor := by
    rw [Timer.value_execute ht]
    cases t <;> rfl
  rw [h.guest]
  by_cases htick : m.tickDue = true
  · rw [if_pos htick, if_pos htick, Timer.value_tick, hexec]
  · rw [if_neg htick, if_neg htick, hexec, Nat.sub_zero]

theorem Counted.cycle {t : Timer} {start m : Machine} {done : List Completed}
    (h : Counted t start m done) :
    Counted t start m.cycle.machine (done ++ m.completed.toList) := by
  intro hfree
  rcases m.completed_cases with ⟨hnone, pc, hmachine⟩ | ⟨i, hi⟩
  · rw [hnone, Option.toList_none, List.append_nil] at hfree ⊢
    rw [← h hfree, hmachine]
    cases t <;> rfl
  · rw [hi.completed, Option.toList_some] at hfree ⊢
    have hbefore := h fun c hc => hfree c (List.mem_append_left _ hc)
    have hlast : t.setBy i = false := hfree _ (List.mem_append_right _ List.mem_cons_self)
    rw [hi.value hlast, hbefore, List.countP_append, List.countP_singleton, Nat.sub_sub]

/-- Over a stretch a timer that is not set loses one at each tick. -/
theorem Sound.counted {start : Machine} (h : start.Sound) (t : Timer) {stretch : List Request}
    (hstretch : start.Uninterrupted stretch) :
    Counted t start (start.serveAll stretch) (start.completedIn stretch) := by
  refine stretch_invariant (P := Counted t start) (fun _ _ h => h.cycle) ?_ h hstretch
    (show Counted t start start [] from fun _ => rfl)
  intro m done v keypad redraw hbefore hfree
  rw [← hbefore hfree]
  cases t <;> rfl

/-- A cycle counts as completed if the machine does not wait as it begins and it has no fault.
Since a power-on the counter is the number of completed cycles modulo the period, which is one
cycle at least, and the timers have ticked as often as the period fits into this number. A
tick lowers both timers by one, down to zero, after the instruction of its cycle, and this is
all that a completed cycle does besides its instruction. A cycle that is not completed moves
the program counter at most. And in a stretch from any machine on, a timer that no instruction
sets falls by the number of periods that are over, down to zero. -/
theorem timers_tick_once_a_period :
    (∀ m : Machine,
      m.completed.isSome = true ↔ m.isWaiting = false ∧ m.cycle.result = .ok ()) ∧
    (∀ (m : Machine) (stretch : List Request), m.PoweredOn → m.Uninterrupted stretch →
      let period := max 1 m.settings.cyclesPerTick.toNat
      let done := m.completedIn stretch
      (m.serveAll stretch).counter.toNat = done.length % period ∧
        done.countP Completed.ticked = done.length / period) ∧
    (∀ (m : Machine) (c : Completed), m.completed = some c →
      let executed := (c.instruction.execute m.ahead).2
      ∃ delay sound : UInt8,
        m.cycle.machine.guest =
          { executed with
            processor := { executed.processor with delay := delay, sound := sound } } ∧
        delay.toNat = executed.processor.delay.toNat - (if c.ticked then 1 else 0) ∧
        sound.toNat = executed.processor.sound.toNat - (if c.ticked then 1 else 0)) ∧
    (∀ m : Machine, m.completed = none → ∃ pc, m.cycle.machine = m.withPc pc) ∧
    ∀ (m : Machine) (stretch : List Request) (t : Timer), Reachable m →
      m.Uninterrupted stretch → (∀ c ∈ m.completedIn stretch, t.setBy c.instruction = false) →
      (t.value (m.serveAll stretch).guest.processor).toNat =
        (t.value m.guest.processor).toNat -
          (m.counter.toNat + (m.completedIn stretch).length) /
            max 1 m.settings.cyclesPerTick.toNat := by
  refine ⟨completed_isSome_iff, ?_, ?_, ?_, ?_⟩
  · intro m stretch hm hstretch
    obtain ⟨hticks, hcounter⟩ := (hm.sound.clocked hstretch).div_mod
    obtain ⟨before, program, memory, -, rfl⟩ := hm.eq_restart
    have hzero : (restart before program memory).counter.toNat = 0 := rfl
    rw [hzero, Nat.zero_add] at hticks hcounter
    exact ⟨hcounter, hticks⟩
  · intro m c hc
    obtain ⟨i, hi, rfl⟩ := completes_of_completed hc
    rw [hi.guest]
    by_cases htick : m.tickDue = true
    · simp only [if_pos htick]
      exact ⟨_, _, rfl, Processor.toNat_countDown _, Processor.toNat_countDown _⟩
    · simp only [if_neg htick]
      exact ⟨_, _, rfl, rfl, rfl⟩
  · intro m hnone
    rcases m.completed_cases with ⟨-, hmachine⟩ | ⟨i, hi⟩
    · exact hmachine
    · rw [hi.completed] at hnone
      cases hnone
  · intro m stretch t hm hstretch hfree
    rw [hm.sound.counted t hstretch hfree, ((hm.sound.clocked hstretch).div_mod).1]

/-- A program that sets the delay timer to two, waits for a key and then goes in a circle. -/
def delayProgram : List UInt8 := [0x60, 0x02, 0xF0, 0x15, 0xF1, 0x0A, 0x12, 0x06]

/-- A machine with this program and a period of two cycles. -/
def delaying : Machine := ((powerOn ⟨2, none⟩ idleSupply).serve (.load delayProgram)).machine

set_option maxRecDepth 100000 in
/-- Of ten cycles this machine completes the three up to the wait. With the key it goes on, and
after two more ticks the timer, which had one left, is at zero. -/
theorem timers_tick_once_a_period_of_two :
    (delaying.serveAll [.run 10]).counter.toNat = 1 ∧
      (delaying.completedIn [.run 10]).countP Completed.ticked = 1 ∧
      (delaying.serveAll [.run 2]).guest.processor.delay = 1 ∧
      ((delaying.serveAll [.run 2]).serveAll
        [.run 2, .answerKey 7, .run 3]).guest.processor.delay.toNat = 0 := by
  obtain ⟨-, hcounts, -, -, htimers⟩ := timers_tick_once_a_period
  obtain ⟨hstart, hthree, hdelay, hcounter, hfree, hfour⟩ :
      (powerOn ⟨2, none⟩ idleSupply).startsOver (.load delayProgram) = true ∧
        (delaying.completedIn [.run 10]).length = 3 ∧
        (delaying.serveAll [.run 2]).guest.processor.delay = 1 ∧
        (delaying.serveAll [.run 2]).counter = 0 ∧
        (∀ c ∈ (delaying.serveAll [.run 2]).completedIn [.run 2, .answerKey 7, .run 3],
          Timer.delay.setBy c.instruction = false) ∧
        ((delaying.serveAll [.run 2]).completedIn [.run 2, .answerKey 7, .run 3]).length = 4 := by
    decide +kernel
  have hreach : Reachable (delaying.serveAll [.run 2]) :=
    ((reachable_powerOn ⟨2, none⟩ idleSupply).serve (.load delayProgram)).serveAll [.run 2]
  have hsettings : delaying.settings = ⟨2, none⟩ := serve_settings _ _
  obtain ⟨hcount, hticks⟩ := hcounts delaying [.run 10] (.startedOver hstart) ⟨rfl, trivial⟩
  have hend := htimers _ [.run 2, .answerKey 7, .run 3] .delay hreach ⟨rfl, rfl, rfl, trivial⟩ hfree
  rw [hthree, hsettings] at hcount hticks
  rw [hfour, hcounter, serveAll_settings, hsettings] at hend
  simp only [Timer.value, hdelay] at hend
  exact ⟨hcount, hticks, hdelay, hend⟩

end Machine

end Chip8VM
