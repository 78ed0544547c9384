import Chip8VM.Proofs.Timers
import Chip8VM.Proofs.Endings

/-!
# The timers tick at the frame rate

A run takes the cycles of a frame and the period of its timers from one number, and keeps both
(`settings_upTo`). The counter stays below the period, and a frame completes no more cycles than a
period has. So the ticks of a frame, which are the quotient of both together by the period, are one
or none, wherever waits and resets have left the counter. `timers_tick_once_a_frame` puts this
together. Events and pictures do not tick.
-/

namespace Chip8VM

namespace Machine

/-! ## The cycles of a frame -/

theorem length_completedInRun_le (m : Machine) (n : Nat) : (m.completedInRun n).length ≤ n := by
  induction n generalizing m with
  | zero => exact Nat.le_refl 0
  | succ n ih =>
    rw [completedInRun, List.length_append, Nat.add_comm n 1]
    refine Nat.add_le_add Option.length_toList_le ?_
    split
    · exact ih _
    · exact Nat.zero_le n

/-- A machine that waits as a run begins completes no cycle of it. -/
theorem completedInRun_of_isWaiting {m : Machine} (h : m.isWaiting = true) (n : Nat) :
    m.completedInRun n = [] := by
  have hnone : m.completed = none := by simp [completed, h]
  induction n with
  | zero => rfl
  | succ n ih =>
    rw [completedInRun, hnone, cycle_of_isWaiting h]
    exact ih

theorem completedIn_run (m : Machine) (n : UInt32) :
    m.completedIn [.run n] = m.completedInRun n.toNat :=
  List.append_nil _

/-- A run of as many cycles as a period has ticks once if all of them are completed, and at most
once in any case. -/
theorem Sound.ticks_of_period {m : Machine} (hm : m.Sound) {n : UInt32} (hn : 0 < n)
    (hperiod : m.settings.cyclesPerTick = n) :
    let done := m.completedInRun n.toNat
    let ticks := done.countP Completed.ticked
    ticks = (m.counter.toNat + done.length) / n.toNat ∧
      (m.run n.toNat).machine.counter.toNat = (m.counter.toNat + done.length) % n.toNat ∧
      ticks ≤ 1 ∧ (done.length = n.toNat → ticks = 1) := by
  intro done ticks
  have hone : max 1 n.toNat = n.toNat := max_eq_right (UInt32.lt_iff_toNat_lt.1 hn)
  have hstretch : m.Uninterrupted [.run n] := ⟨rfl, trivial⟩
  have hdone : m.completedIn [.run n] = done := m.completedIn_run n
  obtain ⟨hticks, hcounter⟩ := (hm.clocked hstretch).div_mod
  rw [hdone, hperiod, hone] at hticks hcounter
  have hlt := UInt32.lt_iff_toNat_lt.1 hm.counter_lt
  rw [Settings.toNat_timerPeriod, hperiod, hone] at hlt
  have hlength : done.length ≤ n.toNat := length_completedInRun_le m n.toNat
  have hless : m.counter.toNat + done.length < n.toNat * 2 := by omega
  refine ⟨hticks, hcounter, ?_, ?_⟩
  · rw [show ticks = _ from hticks]
    exact Nat.le_of_lt_succ (Nat.div_lt_of_lt_mul hless)
  · intro hall
    rw [show ticks = _ from hticks]
    exact Nat.div_eq_of_lt_le (by omega) (by omega)

/-- Over a run a timer that no instruction sets loses one at each tick. -/
theorem Sound.value_run {m : Machine} (hm : m.Sound) {n : UInt32} {t : Timer}
    (hfree : ∀ c ∈ m.completedInRun n.toNat, t.setBy c.instruction = false) :
    (t.value (m.run n.toNat).machine.guest.processor).toNat =
      (t.value m.guest.processor).toNat -
        (m.completedInRun n.toNat).countP Completed.ticked := by
  have hstretch : m.Uninterrupted [.run n] := ⟨rfl, trivial⟩
  have hcounted := hm.counted t hstretch
  rw [completedIn_run] at hcounted
  exact hcounted hfree

/-- A tick lowers a timer by one after the instruction of its cycle. -/
theorem value_cycle_of_completed {m : Machine} {c : Completed} (h : m.completed = some c)
    (t : Timer) :
    (t.value m.cycle.machine.guest.processor).toNat =
      (t.value (c.instruction.execute m.ahead).2.processor).toNat -
        (if c.ticked then 1 else 0) := by
  obtain ⟨i, hi, rfl⟩ := completes_of_completed h
  rw [hi.guest]
  by_cases htick : m.tickDue = true
  · rw [if_pos htick, if_pos htick, Timer.value_tick]
  · rw [if_neg htick, if_neg htick, Nat.sub_zero]

theorem value_cycle_of_not_completed {m : Machine} (h : m.completed = none) (t : Timer) :
    t.value m.cycle.machine.guest.processor = t.value m.guest.processor := by
  rcases m.completed_cases with ⟨-, pc, hmachine⟩ | ⟨i, hi⟩
  · rw [hmachine]
    cases t <;> rfl
  · rw [hi.completed] at h
    cases h

end Machine

namespace Host

open Machine

/-! ## One number for both -/

/-- A run keeps the settings of its machine. -/
theorem settings_kept (settings : Settings) :
    Kept fun s _ => s.machine.settings = settings where
  poll h := h
  handle {s calls} event hm h := by
    have hhandled := Session.handled hm event
    generalize s.handle event = turn at hhandled ⊢
    cases hhandled with
    | reset => exact (s.machine.serve_settings .reset).trans h
    | quit | moved | answered | ignored => exact h
  advance {s calls} _ h := by
    rw [s.machine_advance]
    exact (s.machine.serve_settings (.run s.cyclesPerFrame)).trans h
  refresh {s calls} h := by
    rw [s.machine_refresh]
    exact (s.machine.serve_settings .takeFrame).trans h

namespace Session

variable {s : Session}

theorem settings_upTo (hm : Reachable s.machine) (t : Moment) :
    (s.upTo t).session.machine.settings = s.machine.settings := by
  have hupTo : (s.upTo t).Gives [] _ := (settings_kept s.machine.settings).upTo ⟨hm, rfl⟩ t
  exact hupTo.2

/-- Events do not tick: they leave both timers alone, but for a reset, which stops them. -/
theorem value_handle (hm : Reachable s.machine) (event : Event) (timer : Timer) :
    timer.value (s.handle event).session.machine.guest.processor =
      if event.resets then 0 else timer.value s.machine.guest.processor := by
  have hhandled := handled hm event
  generalize s.handle event = turn at hhandled ⊢
  cases hhandled with
  | quit hquits => rw [(Event.eq_of_quits hquits).1, if_neg Bool.false_ne_true]
  | reset _ hresets =>
    obtain ⟨memory, -, hreset⟩ := hm.sound.reset_eq
    rw [if_pos hresets, hreset]
    cases timer <;> rfl
  | moved _ hresets =>
    rw [hresets, if_neg Bool.false_ne_true]
    rfl
  | ignored _ hresets => rw [hresets, if_neg Bool.false_ne_true]
  | answered _ hresets =>
    rw [hresets, if_neg Bool.false_ne_true]
    cases timer <;> rfl

end Session

/-! ## Runs -/

section

variable {arguments : Arguments} {rom : Except String Rom.Source} {devices : Devices}
  {supply : Random.Supply} {first : Session} {opening : List Call}

/-- The period of the timers is the number of cycles in a frame. -/
theorem settings_opened (h : opened arguments rom devices supply = some (first, opening)) :
    first.machine.settings = Session.settings arguments := by
  obtain ⟨source, -, -, hstart, -⟩ := eq_of_opened h
  obtain ⟨sound, -, rfl⟩ := Session.start_eq hstart
  exact serve_settings _ (.loadRom source)

/-- Of a run with at least one cycle in a frame: It goes through its moments, and at each of them
at which a frame has handled its events, it carries out the frame's cycles. If so many of these are
completed, the ticks in them are the quotient, and the counter after them the remainder, of the
counter before them and their number together by the cycles in a frame. So a frame ticks once at
most. It ticks once if all its cycles are completed, wherever the counter stood, and not at all if
the program waits for a key as they begin. A timer that no instruction of the frame sets falls by
the ticks, and each tick lowers it after the instruction of its cycle. Nothing else ticks: a cycle
that is not completed, an event and a picture leave both timers alone, but for a reset, which stops
them. -/
theorem timers_tick_once_a_frame
    (hopen : opened arguments rom devices supply = some (first, opening))
    (hpositive : 0 < arguments.cyclesPerFrame) :
    (∃ loaded, ∀ (t : Moment) (script later : List (List Event)), t.Within script [] later →
      run arguments rom devices supply script =
        ((first.upTo t).andThen fun s =>
          (s.advance.andThen Session.refresh).andThen fun s => s.frames later).report.after
            opening loaded) ∧
    (∀ (m : Machine) (timer : Timer),
      (∀ c, m.completed = some c →
        (timer.value m.cycle.machine.guest.processor).toNat =
          (timer.value (c.instruction.execute m.ahead).2.processor).toNat -
            (if c.ticked then 1 else 0)) ∧
      (m.completed = none →
        timer.value m.cycle.machine.guest.processor = timer.value m.guest.processor)) ∧
    ∀ t : Moment,
      let s := (first.upTo t).session
      let cycles := arguments.cyclesPerFrame.toNat
      let done := s.machine.completedInRun cycles
      let ticks := done.countP Completed.ticked
      let after := s.advance.session.machine
      after = (s.machine.run cycles).machine ∧
      done.length ≤ cycles ∧
      ticks = (s.machine.counter.toNat + done.length) / cycles ∧
      after.counter.toNat = (s.machine.counter.toNat + done.length) % cycles ∧
      ticks ≤ 1 ∧
      (done.length = cycles → ticks = 1) ∧
      (s.machine.isWaiting = true → ticks = 0) ∧
      ∀ timer : Timer,
        (∀ event, timer.value (s.handle event).session.machine.guest.processor =
          if event.resets then 0 else timer.value s.machine.guest.processor) ∧
        ((∀ c ∈ done, timer.setBy c.instruction = false) →
          (timer.value after.guest.processor).toNat =
            (timer.value s.machine.guest.processor).toNat - ticks) ∧
        timer.value s.advance.session.refresh.session.machine.guest.processor =
          timer.value after.guest.processor := by
  have hm := reachable_opened hopen
  obtain ⟨loaded, hrun⟩ := run_of_upTo hopen
  obtain ⟨-, -, hcycles, -⟩ := fittings_opened hopen
  refine ⟨⟨loaded, fun t script later hwithin => ?_⟩, fun m timer =>
    ⟨fun c hc => value_cycle_of_completed hc timer,
      fun hnone => value_cycle_of_not_completed hnone timer⟩, ?_⟩
  · rw [hrun t script [] later hwithin]
    simp only [Session.goOn_nil]
  · intro t s cycles done ticks after
    have hs : Reachable s.machine := reachable_upTo hm t
    have hframe : s.cyclesPerFrame = arguments.cyclesPerFrame :=
      (fittings_upTo hm t).2.trans hcycles
    have hafter : after = (s.machine.run cycles).machine :=
      s.machine_advance.trans (by rw [hframe])
    have hperiod : s.machine.settings.cyclesPerTick = arguments.cyclesPerFrame := by
      rw [Session.settings_upTo hm t, settings_opened hopen]
      rfl
    obtain ⟨hticks, hcounter, hone, hall⟩ := hs.sound.ticks_of_period hpositive hperiod
    refine ⟨hafter, length_completedInRun_le _ _, hticks, ?_, hone, hall, ?_, ?_⟩
    · rw [hafter]
      exact hcounter
    · intro hwait
      have hnone : done = [] := completedInRun_of_isWaiting hwait _
      exact congrArg (List.countP Completed.ticked) hnone
    · intro timer
      refine ⟨fun event => Session.value_handle hs event timer, ?_, ?_⟩
      · rw [hafter]
        exact hs.sound.value_run
      · rw [Session.machine_refresh]
        rfl

/-- How a run of a program that waits for a key is started that has two cycles in a frame. -/
def delayingArguments : Arguments := { rom := "a.ch8", cyclesPerFrame := 2, mute := true }

/-- A frame that begins while this program waits. -/
def waitingFrame : Moment := ⟨[[], []], []⟩

/-- A later frame, in which a key ends the wait. -/
def answeredFrame : Moment := ⟨[[], [], []], [.keyDown (some ⟨"Q"⟩) false]⟩

set_option maxRecDepth 100000 in
/-- The first frame ticks once and the frame in the wait not at all. The frame after it ticks once
again, though the counter is not at zero when it begins. -/
theorem timers_tick_once_a_frame_around_wait :
    ∃ first opening, opened delayingArguments (.ok [.bytes delayProgram])
        quietDevices idleSupply = some (first, opening) ∧
      let ticks := fun t : Moment =>
        ((first.upTo t).session.machine.completedInRun 2).countP Completed.ticked
      ticks ⟨[], []⟩ = 1 ∧ ticks waitingFrame = 0 ∧ ticks answeredFrame = 1 ∧
        (first.upTo answeredFrame).session.machine.counter = 1 ∧
        (first.upTo answeredFrame).session.advance.session.machine.guest.processor.delay = 0 := by
  obtain ⟨⟨first, opening⟩, hopen⟩ := Option.isSome_iff_exists.1
    (show (opened delayingArguments (.ok [.bytes delayProgram])
      quietDevices idleSupply).isSome = true by decide +kernel)
  have hfacts : (opened delayingArguments (.ok [.bytes delayProgram])
      quietDevices idleSupply).map (fun (first, _) =>
        let machine := fun t : Moment => (first.upTo t).session.machine
        ((machine ⟨[], []⟩).completedInRun 2).length = 2 ∧
          (machine waitingFrame).isWaiting = true ∧
          ((machine answeredFrame).completedInRun 2).length = 2 ∧
          (machine answeredFrame).counter = 1 ∧
          (machine answeredFrame).guest.processor.delay = 1 ∧
          ∀ c ∈ (machine answeredFrame).completedInRun 2,
            Timer.delay.setBy c.instruction = false : _ → Bool) = some true := by
    decide +kernel
  rw [hopen, Option.map_some, Option.some.injEq, decide_eq_true_iff] at hfacts
  obtain ⟨hfirst, hwait, hlater, hcounter, hdelay, hfree⟩ := hfacts
  obtain ⟨-, -, hframes⟩ := timers_tick_once_a_frame hopen (by decide)
  obtain ⟨-, -, -, -, -, honce, -⟩ := hframes ⟨[], []⟩
  obtain ⟨-, -, -, -, -, -, hnone, -⟩ := hframes waitingFrame
  obtain ⟨-, -, -, -, -, hagain, -, htimers⟩ := hframes answeredFrame
  have hend := (htimers .delay).2.1 hfree
  rw [hagain hlater] at hend
  refine ⟨first, opening, hopen, honce hfirst, hnone hwait, hagain hlater, hcounter, ?_⟩
  apply UInt8.toNat_inj.1
  refine hend.trans ?_
  rw [Timer.value, hdelay]
  rfl

end

end Host

end Chip8VM
