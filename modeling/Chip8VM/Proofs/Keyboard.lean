import Chip8VM.Proofs.Moments

/-!
# The keyboard and the pad

At every moment of a run, and so when the cycles of a frame start, the keys of the pad that are
down are those that the keyboard moved down last, since the last reset (`isPressed_upTo`). Cycles
leave them alone (`run_pressed`).

A register that waits for a key waits through everything but a press and a reset, however many
frames go by (`frozen_upTo`). The first press goes into it (`answers_handleAll`), so between two
batches of cycles there is at most one answer. `pad_follows_keyboard` puts this together.
-/

namespace Chip8VM

/-! ## Which keys are down -/

namespace Machine

/-- The key and the register of an answer. -/
def Record.answer? : Record → Option (UInt8 × UInt64)
  | answered key register => some (key, register)
  | _ => none

variable {m : Machine}

theorem isPressed_withKey {pad : UInt8} (h : pad < 16) (down : Bool) (key : UInt8) :
    (m.withKey pad down).guest.keypad.isPressed key =
      if pad = key then down else m.guest.keypad.isPressed key := by
  have hlt : pad.toNat < 16 := UInt8.lt_iff_toNat_lt.1 h
  simp only [withKey, withKeypad, Keypad.isPressed, Vector.getElem?_setIfInBounds, hlt, if_true,
    UInt8.toNat_inj]
  split
  · rfl
  · rfl

theorem isPressed_powerOn (key : UInt8) : Keypad.powerOn.isPressed key = false := by
  simp only [Keypad.isPressed, Keypad.powerOn, Vector.getElem?_replicate]
  split
  · rfl
  · rfl

/-- No cycle moves a key. -/
theorem cycle_pressed (m : Machine) :
    m.cycle.machine.guest.keypad.pressed = m.guest.keypad.pressed := by
  rcases m.completed_cases with ⟨-, pc, hmachine⟩ | ⟨i, hi⟩
  · rw [hmachine]
    rfl
  · rw [hi.guest]
    rcases i.execute_keypad m.ahead with ⟨x, -, hexec⟩ | hsame
    · rw [hexec]
      rfl
    · exact congrArg Keypad.pressed hsame

theorem run_pressed (m : Machine) (n : Nat) :
    (m.run n).machine.guest.keypad.pressed = m.guest.keypad.pressed :=
  run_invariant (P := fun m' => m'.guest.keypad.pressed = m.guest.keypad.pressed)
    (fun m' h => m'.cycle_pressed.trans h) rfl n

end Machine

namespace Host

open Machine

/-- What becomes of a key of the pad in an event: it goes down, it goes up, or nothing. -/
def Event.moves? (event : Event) (pad : UInt8) : Option Bool :=
  event.move?.bind fun (key, down) => if key = pad then some down else none

theorem Event.moves?_of_move? {event : Event} {pad : UInt8} {down : Bool}
    (h : event.move? = some (pad, down)) (key : UInt8) :
    event.moves? key = if pad = key then some down else none := by
  rw [moves?, h]
  rfl

/-- The events after the last one that starts the program again. -/
def sinceReset (events : List Event) : List Event :=
  (events.reverse.takeWhile fun event => !event.resets).reverse

/-- What became of a key of the pad last: it went down, it went up, or nothing at all. -/
def lastMove (pad : UInt8) (events : List Event) : Option Bool :=
  (events.filterMap fun event => event.moves? pad).getLast?

theorem sinceReset_append_singleton (events : List Event) (event : Event) :
    sinceReset (events ++ [event]) =
      if event.resets then [] else sinceReset events ++ [event] := by
  unfold sinceReset
  rw [List.reverse_append, List.reverse_singleton, List.singleton_append, List.takeWhile_cons]
  cases event.resets with
  | true => rfl
  | false => exact List.reverse_cons

theorem lastMove_append_singleton (pad : UInt8) (events : List Event) (event : Event) :
    lastMove pad (events ++ [event]) = (event.moves? pad).or (lastMove pad events) := by
  unfold lastMove
  rw [List.filterMap_append, List.getLast?_append]
  cases hmove : event.moves? pad with
  | none => simp [hmove]
  | some down => simp [hmove]

/-- Whether the keys that are down are those that went down last in some events. -/
def Mirrors (s : Session) (events : List Event) : Prop :=
  ∀ pad, s.machine.guest.keypad.isPressed pad = (lastMove pad (sinceReset events)).getD false

theorem Mirrors.of_pressed {s s' : Session} {events : List Event} (h : Mirrors s events)
    (hpressed : s'.machine.guest.keypad.pressed = s.machine.guest.keypad.pressed) :
    Mirrors s' events := by
  intro pad
  rw [← h pad, Keypad.isPressed, Keypad.isPressed, hpressed]

/-- A key that moves is afterwards as it moved, and the others are as before. -/
theorem Mirrors.move {s s' : Session} {events : List Event} (h : Mirrors s events)
    {event : Event} (hresets : event.resets = false) {pad : UInt8} {down : Bool}
    (hmove : event.move? = some (pad, down))
    (hpressed : s'.machine.guest.keypad.pressed =
      (s.machine.withKey pad down).guest.keypad.pressed) : Mirrors s' (events ++ [event]) := by
  intro key
  have hkey := isPressed_withKey (m := s.machine) (Event.lt_of_move? hmove) down key
  rw [Keypad.isPressed, ← hpressed, ← Keypad.isPressed] at hkey
  rw [hkey, sinceReset_append_singleton, hresets, if_neg Bool.false_ne_true,
    lastMove_append_singleton, Event.moves?_of_move? hmove]
  by_cases hpad : pad = key
  · rw [if_pos hpad, if_pos hpad]
    rfl
  · rw [if_neg hpad, if_neg hpad]
    exact h key

theorem Mirrors.handle {s : Session} {events : List Event} (h : Mirrors s events)
    (hm : Reachable s.machine) {event : Event} (hending : (s.handle event).ending = none) :
    Mirrors (s.handle event).session (events ++ [event]) := by
  have hhandled := Session.handled hm event
  generalize s.handle event = turn at hhandled hending ⊢
  cases hhandled with
  | quit => cases hending
  | reset _ hresets =>
    intro key
    obtain ⟨memory, -, hreset⟩ := hm.sound.reset_eq
    rw [sinceReset_append_singleton, hresets, if_pos rfl, hreset]
    exact isPressed_powerOn key
  | moved _ hresets hmove => exact h.move hresets hmove rfl
  | answered _ hresets hpress => exact h.move hresets (Event.move?_of_press? hpress) rfl
  | ignored _ hresets hmove =>
    intro key
    rw [sinceReset_append_singleton, hresets, if_neg Bool.false_ne_true,
      lastMove_append_singleton, Event.moves?, hmove]
    exact h key

/-- At every moment the keys that are down are those that went down last. -/
theorem mirrors_upTo {first : Session} (hm : Reachable first.machine)
    (hfirst : first.machine.guest.keypad = .powerOn) {t : Moment}
    (hgoing : (first.upTo t).ending = none) : Mirrors (first.upTo t).session t.events := by
  refine passes_invariant hm (P := Mirrors) ?_ ?_ t.passes_events hgoing ?_
  · intro s seen event hs h hending
    exact h.handle hs hending
  · intro s seen h _
    refine h.of_pressed ?_
    rw [Session.machine_refresh, ← run_pressed s.machine s.cyclesPerFrame.toNat,
      ← Session.machine_advance]
    rfl
  · intro key
    rw [← isPressed_powerOn key, ← hfirst]
    rfl

/-! ## Waits -/

/-- Whether an event leaves a wait for a key alone: it presses no key of the pad, and it does
not start the program again. -/
def Event.waits (event : Event) : Bool := event.press?.isNone && !event.resets

/-- The first press among some events, before the run is to close or the program to start
again. -/
def firstPress : List Event → Option UInt8
  | [] => none
  | event :: rest =>
    if event.quits || event.resets then none else event.press?.or (firstPress rest)

/-- The answers to a wait, if there is one: the first press, for the register that waits. -/
def answers (waiting : Option UInt64) (events : List Event) : List (UInt8 × UInt64) :=
  (waiting.bind fun x => (firstPress events).map fun pad => (pad, x)).toList

theorem answers_none (events : List Event) : answers none events = [] := rfl

theorem answers_of_firstPress {events : List Event} (h : firstPress events = none)
    (waiting : Option UInt64) : answers waiting events = [] := by
  rw [answers, h]
  cases waiting with
  | none => rfl
  | some x => rfl

theorem length_answers_le (waiting : Option UInt64) (events : List Event) :
    (answers waiting events).length ≤ 1 :=
  Option.length_toList_le

theorem firstPress_of_quits {event : Event} (h : event.quits = true) (rest : List Event) :
    firstPress (event :: rest) = none := by
  rw [firstPress, h, Bool.true_or, if_pos rfl]

theorem firstPress_of_resets {event : Event} (h : event.resets = true) (rest : List Event) :
    firstPress (event :: rest) = none := by
  rw [firstPress, h, Bool.or_true, if_pos rfl]

theorem firstPress_cons {event : Event} (hquits : event.quits = false)
    (hresets : event.resets = false) (rest : List Event) :
    firstPress (event :: rest) = event.press?.or (firstPress rest) := by
  rw [firstPress, hquits, hresets, Bool.or_false, if_neg Bool.false_ne_true]

/-- An event that leaves a wait alone leaves the machine alone, but for the keys that are down. -/
theorem frozen_handle {s : Session} (hm : Reachable s.machine) {event : Event}
    (hwaits : event.waits = true) : s.machine.Frozen (s.handle event).session.machine := by
  rw [Event.waits, Bool.and_eq_true, Bool.not_eq_true'] at hwaits
  obtain ⟨hpress, hresets⟩ := hwaits
  have hhandled := Session.handled hm event
  generalize s.handle event = turn at hhandled ⊢
  cases hhandled with
  | quit | ignored => exact .refl _
  | moved => exact frozen_withKey _ _ _
  | reset _ h =>
    rw [hresets] at h
    cases h
  | answered _ _ h =>
    rw [h] at hpress
    cases hpress

/-- A machine that waits stands still in the cycles of a frame. -/
theorem frozen_frame {s : Session} (hwait : s.machine.isWaiting = true) :
    s.machine.Frozen s.advance.session.refresh.session.machine := by
  rw [Session.machine_refresh, Session.machine_advance, run_of_isWaiting hwait]
  exact frozen_takeFrame _

/-- A register waits through all events but presses and resets, for any number of frames. -/
theorem frozen_upTo {first : Session} (hm : Reachable first.machine) {t t' : Moment}
    {between : List Event} (h : t.Passes between t') (hgoing : (first.upTo t').ending = none)
    {x : UInt64} (hwait : (first.upTo t).session.machine.guest.keypad.waiting = some x)
    (hwaits : ∀ event ∈ between, event.waits = true) :
    (first.upTo t).session.machine.Frozen (first.upTo t').session.machine := by
  refine passes_invariant (P := fun s seen => (∀ event ∈ seen, event.waits = true) →
    (first.upTo t).session.machine.Frozen s.machine) hm ?_ ?_ h hgoing ?_ hwaits
  · intro s seen event hs ih _ hseen
    obtain ⟨hbefore, hevent⟩ := List.forall_mem_append.1 hseen
    exact (ih hbefore).trans (frozen_handle hs (hevent event List.mem_cons_self))
  · intro s seen ih _ hseen
    have hfrozen := ih hseen
    exact hfrozen.trans
      (frozen_frame (isWaiting_of_waiting (hfrozen.waiting.trans hwait)))
  · intro _
    exact .refl _

/-- A press goes into the register that waits. -/
theorem handle_of_press {s : Session} (hm : Reachable s.machine) {x : UInt64}
    (hwait : s.machine.guest.keypad.waiting = some x) {event : Event} {pad : UInt8}
    (hpress : event.press? = some pad) :
    s.handle event =
      ⟨{ s with machine := s.machine.withAnswer pad (.ofOperand x) }, [], [.answered pad x],
        none⟩ := by
  have hmove := Event.move?_of_press? hpress
  have hhandled := Session.handled hm event
  generalize s.handle event = turn at hhandled ⊢
  cases hhandled with
  | quit hquits =>
    rw [(Event.eq_of_quits hquits).2] at hmove
    cases hmove
  | reset _ _ hnone | ignored _ _ hnone =>
    rw [hmove] at hnone
    cases hnone
  | moved _ _ _ hquiet =>
    rw [hwait, hpress] at hquiet
    rcases hquiet with h | h
    · cases h
    · cases h
  | answered _ _ hpress' hwait' =>
    rw [hpress] at hpress'
    rw [hwait] at hwait'
    obtain rfl := Option.some.inj hpress'
    obtain rfl := Option.some.inj hwait'
    rfl

/-- A reset ends a wait. -/
theorem handle_of_resets {s : Session} (hm : Reachable s.machine) {event : Event}
    (hresets : event.resets = true) :
    s.handle event =
        ⟨{ s with machine := s.machine.reset.machine }, [.note .resetting], [.reset], none⟩ ∧
      s.machine.reset.machine.guest.keypad = .powerOn := by
  obtain ⟨memory, -, hreset⟩ := hm.sound.reset_eq
  refine ⟨?_, by rw [hreset]; rfl⟩
  have hhandled := Session.handled hm event
  generalize s.handle event = turn at hhandled ⊢
  cases hhandled with
  | reset => rfl
  | quit hquits =>
    rw [(Event.eq_of_quits hquits).1] at hresets
    cases hresets
  | moved _ h | answered _ h | ignored _ h =>
    rw [hresets] at h
    cases h

/-- While events are handled, the register that waits gets the first press, and nothing else
is answered. -/
theorem answers_handleAll {s : Session} (hm : Reachable s.machine) (events : List Event) :
    (s.handleAll events).log.filterMap Record.answer? =
      answers s.machine.guest.keypad.waiting events := by
  -- An event may end the wait, so the induction is about all sessions.
  induction events generalizing s with
  | nil => exact (answers_of_firstPress rfl _).symm
  | cons event rest ih =>
    have hhandled := Session.handled hm event
    have hafter := ih (Session.reachable_handle hm event)
    rw [Session.handleAll]
    generalize s.handle event = turn at hhandled hafter ⊢
    cases hhandled with
    | quit hquits =>
      rw [Turn.andThen_of_some rfl, answers_of_firstPress (firstPress_of_quits hquits rest)]
      rfl
    | reset _ hresets =>
      obtain ⟨memory, -, hreset⟩ := hm.sound.reset_eq
      rw [hreset] at hafter ⊢
      rw [Turn.andThen_of_none rfl, answers_of_firstPress (firstPress_of_resets hresets rest)]
      exact hafter
    | moved hquits hresets hmove hquiet =>
      rw [Turn.andThen_of_none rfl]
      refine hafter.trans ?_
      rw [waiting_withKey]
      rcases hquiet with hnone | hpress
      · rw [hnone, answers_none, answers_none]
      · rw [answers, answers, firstPress_cons hquits hresets, hpress, Option.none_or]
    | answered hquits hresets hpress hwait =>
      rw [Turn.andThen_of_none rfl, answers, firstPress_cons hquits hresets, hpress, hwait]
      exact congrArg (List.cons _) hafter
    | ignored hquits hresets hmove =>
      rw [Turn.andThen_of_none rfl, answers, firstPress_cons hquits hresets,
        Event.press?_of_move? hmove]
      exact hafter

section

variable {arguments : Arguments} {rom : Except String Rom.Source} {devices : Devices}
  {supply : Random.Supply} {first : Session} {opening : List Call} {t : Moment}

/-- Of a moment of a run, such as the one when the cycles of a frame start: Every run whose
script begins so comes to it. A key of the pad is down exactly if, among the events since the
last reset, there is one that moves it and the last such event moves it down; and no cycles
change that. Of the events of the frame that are still to come, whichever they are, the register
that waits gets the first press, and nothing else is answered, so that there is at most one
answer. And if a register waits, then at every later moment before a press or a reset its
machine is as it was, but for the keys that are down and the redraw flag; the next press goes into
this register and changes nothing else, and a reset ends the wait. -/
theorem pad_follows_keyboard
    (hopen : opened arguments rom devices supply = some (first, opening))
    (hgoing : (first.upTo t).ending = none) :
    let s := (first.upTo t).session
    (∃ loaded, ∀ script rest later, t.Within script rest later →
      run arguments rom devices supply script =
        ((first.upTo t).andThen fun s => s.goOn rest later).report.after opening loaded) ∧
    (∀ key, s.machine.guest.keypad.isPressed key = true ↔
      lastMove key (sinceReset t.events) = some true) ∧
    (∀ n, (s.machine.run n).machine.guest.keypad.pressed = s.machine.guest.keypad.pressed) ∧
    (∀ rest, (s.handleAll rest).log.filterMap Record.answer? =
        answers s.machine.guest.keypad.waiting rest ∧
      (answers s.machine.guest.keypad.waiting rest).length ≤ 1) ∧
    ∀ x, s.machine.guest.keypad.waiting = some x →
      ∀ between t', t.Passes between t' → (∀ event ∈ between, event.waits = true) →
        (first.upTo t').ending = none →
        let s' := (first.upTo t').session
        s.machine.Frozen s'.machine ∧
        (∃ r : Register, r.val = x.toNat ∧ ∀ event pad, event.press? = some pad →
          s'.handle event =
            ⟨{ s' with machine := s'.machine.withAnswer pad r }, [], [.answered pad x], none⟩) ∧
        ∀ event, event.resets = true →
          s'.handle event =
            ⟨{ s' with machine := s'.machine.reset.machine }, [.note .resetting], [.reset], none⟩ ∧
          s'.machine.reset.machine.isWaiting = false := by
  intro s
  have hfirst := reachable_opened hopen
  have hm : Reachable s.machine := reachable_upTo hfirst t
  obtain ⟨loaded, hrun⟩ := run_of_upTo hopen
  refine ⟨⟨loaded, hrun t⟩, ?_, run_pressed s.machine, ?_, ?_⟩
  · intro key
    rw [mirrors_upTo hfirst (keypad_opened hopen) hgoing key]
    cases lastMove key (sinceReset t.events) with
    | none => simp
    | some down => simp
  · intro rest
    exact ⟨answers_handleAll hm rest, length_answers_le _ rest⟩
  · intro x hwait between t' hpasses hwaits hgoing' s'
    have hm' : Reachable s'.machine := reachable_upTo hfirst t'
    have hfrozen : s.machine.Frozen s'.machine := frozen_upTo hfirst hpasses hgoing' hwait hwaits
    have hwait' : s'.machine.guest.keypad.waiting = some x := hfrozen.waiting.trans hwait
    refine ⟨hfrozen, ⟨.ofOperand x, ?_, ?_⟩, ?_⟩
    · exact Register.val_ofOperand (hm'.sound.guest.waiting_lt x hwait')
    · intro event pad hpress
      exact handle_of_press hm' hwait' hpress
    · intro event hresets
      obtain ⟨hhandle, hkeypad⟩ := handle_of_resets hm' hresets
      refine ⟨hhandle, ?_⟩
      rw [isWaiting, hkeypad]
      rfl

end

/-! ## A wait over several frames -/

/-- A run with two cycles a frame of a program that waits for a key in its second instruction. -/
def askingRun : Option (Session × List Call) :=
  opened { rom := "a.ch8", cyclesPerFrame := 2, seed := some 0, mute := true }
    (.ok [.bytes askingProgram]) quietDevices idleSupply

/-- The moment after a frame in which a key goes down, and the program then waits for one. -/
def waitBegins : Moment := ⟨[[.keyDown (some ⟨"Q"⟩) false]], []⟩

/-- A frame later, in which this key is held and another goes up. -/
def waitGoesOn : Moment :=
  ((waitBegins.hear (.keyDown (some ⟨"Q"⟩) true)).hear (.keyUp (some ⟨"W"⟩))).turn

set_option maxRecDepth 100000 in
/-- The key that is down when the wait begins does not end it, and neither does its being held;
the next press does. -/
theorem pad_follows_keyboard_of_held_key :
    ∃ first opening, askingRun = some (first, opening) ∧
      let s := (first.upTo waitBegins).session
      let s' := (first.upTo waitGoesOn).session
      s.machine.guest.keypad.isPressed 4 = true ∧ s.machine.guest.keypad.waiting = some 5 ∧
        s.machine.Frozen s'.machine ∧
        (s'.handle (.keyDown (some ⟨"W"⟩) false)).session.machine.guest.processor.v[5] = 5 := by
  obtain ⟨⟨first, opening⟩, hopen⟩ :=
    Option.isSome_iff_exists.1 (show askingRun.isSome = true by decide +kernel)
  have hfacts : askingRun.map (fun (first, _) =>
      ((first.upTo waitBegins).ending.isNone, (first.upTo waitGoesOn).ending.isNone,
        (first.upTo waitBegins).session.machine.guest.keypad.waiting)) =
      some (true, true, some 5) := by decide +kernel
  rw [hopen, Option.map_some, Option.some.injEq, Prod.mk.injEq, Prod.mk.injEq,
    Option.isNone_iff_eq_none, Option.isNone_iff_eq_none] at hfacts
  obtain ⟨hgoing, hgoing', hwait⟩ := hfacts
  obtain ⟨-, hpressed, -, -, hwaits⟩ := pad_follows_keyboard hopen hgoing
  have hpasses : waitBegins.Passes _ waitGoesOn :=
    ((Moment.Passes.still.hear (.keyDown (some ⟨"Q"⟩) true)).hear (.keyUp (some ⟨"W"⟩))).turn
  obtain ⟨hfrozen, ⟨r, hr, hpress⟩, -⟩ := hwaits 5 hwait _ _ hpasses (by decide) hgoing'
  obtain rfl : r = 5 := Fin.ext hr
  refine ⟨first, opening, hopen, (hpressed 4).2 (by decide), hwait, hfrozen, ?_⟩
  rw [hpress (.keyDown (some ⟨"W"⟩) false) 5 (by decide)]
  exact Vector.getElem_set_self _

end Host

end Chip8VM
