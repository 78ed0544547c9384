import Chip8VM.Host.Session
import Chip8VM.Proofs.KeyWait

/-!
# What becomes of an event

An event closes the run (`Event.quits`), starts the program again (`Event.resets`), moves a key
of the pad (`Event.move?`), or does nothing. A key that goes down and is not held is a press
(`Event.press?`), and only a press answers a wait for a key.

`Handled` lists what an event does to a session, and `handled` says that nothing else happens
as long as the machine is one that some history leads to. Then no request that an event makes
of the machine has a fault: the pad has every key that the layout names, a machine that waits
takes every key of the pad, and the kept program still fits into memory.
-/

namespace Chip8VM

/-! ## Keys of the pad -/

namespace Machine

/-- The machine with a key of the pad down or up. -/
def withKey (m : Machine) (pad : UInt8) (down : Bool) : Machine :=
  m.withKeypad
    { m.guest.keypad with pressed := m.guest.keypad.pressed.setIfInBounds pad.toNat down }

/-- The machine after a key went down and into a register that waited for it. -/
def withAnswer (m : Machine) (pad : UInt8) (r : Register) : Machine :=
  m.touched (m.guest.processor.set r pad).v
    ⟨m.guest.keypad.pressed.setIfInBounds pad.toNat true, none⟩ m.guest.screen.redraw

variable {m : Machine} {pad : UInt8}

/-- The pad takes note of each of its keys. -/
theorem setKey_eq (m : Machine) (h : pad < 16) (down : Bool) :
    m.setKey pad down = ⟨.ok (), m.withKey pad down, []⟩ := by
  have hlt : pad.toNat < 16 := UInt8.lt_iff_toNat_lt.1 h
  rw [setKey, Keypad.set, dif_pos hlt]
  simp only [withKey, Vector.setIfInBounds, Vector.set, Array.setIfInBounds, Vector.size_toArray,
    hlt, dif_pos]

theorem waiting_withKey (m : Machine) (pad : UInt8) (down : Bool) :
    (m.withKey pad down).guest.keypad.waiting = m.guest.keypad.waiting := rfl

theorem frozen_withKey (m : Machine) (pad : UInt8) (down : Bool) : m.Frozen (m.withKey pad down) :=
  ⟨_, m.guest.screen.redraw, rfl⟩

/-- A key that goes down while a register waits goes into that register. -/
theorem answerKey_withKey {x : UInt64} (hwait : m.guest.keypad.waiting = some x) (h : pad < 16) :
    (m.withKey pad true).answerKey pad =
      ⟨.ok (), m.withAnswer pad (.ofOperand x), [.answered pad x]⟩ := by
  rw [answerKey_of_waiting (m := m.withKey pad true) hwait h]
  rfl

end Machine

namespace Host

/-! ## Kinds of events -/

/-- The layout names keys of the pad only. -/
theorem Key.lt_of_pad? {key : Key} {pad : UInt8} (h : key.pad? = some pad) : pad < 16 := by
  have hlayout : ∀ entry ∈ layout, entry.2 < 16 := by decide
  obtain ⟨before, after, heq, -⟩ := List.lookup_eq_some_iff.1 h
  exact hlayout (key, pad) (heq ▸ List.mem_append_cons_self)

namespace Event

/-- Whether an event closes the run: the window is to be closed, or the key for it goes down. -/
def quits : Event → Bool
  | quit => true
  | keyDown (some key) _ => key = .escape
  | _ => false

/-- Whether an event starts the program again: the key for it goes down and is not held. -/
def resets : Event → Bool
  | keyDown (some key) held => key = .enter && !held
  | _ => false

/-- The key of the pad that an event moves, and whether it goes down. -/
def move? : Event → Option (UInt8 × Bool)
  | keyDown (some key) _ => key.pad?.map fun pad => (pad, true)
  | keyUp (some key) => key.pad?.map fun pad => (pad, false)
  | _ => none

/-- The key of the pad that an event presses: it goes down and is not held. -/
def press? : Event → Option UInt8
  | keyDown (some key) false => key.pad?
  | _ => none

/-- A press is a key that goes down. -/
theorem move?_of_press? {event : Event} {pad : UInt8} (h : event.press? = some pad) :
    event.move? = some (pad, true) := by
  cases event with
  | keyDown key held =>
    cases key with
    | none => cases h
    | some key =>
      cases held with
      | true => cases h
      | false =>
        have hpad : key.pad? = some pad := h
        simp only [move?, hpad, Option.map_some]
  | quit | keyUp | other => cases h

theorem press?_of_move? {event : Event} (h : event.move? = none) : event.press? = none := by
  cases hpress : event.press? with
  | none => rfl
  | some pad =>
    rw [move?_of_press? hpress] at h
    cases h

/-- An event that closes the run does nothing else. -/
theorem eq_of_quits {event : Event} (h : event.quits = true) :
    event.resets = false ∧ event.move? = none := by
  cases event with
  | quit => exact ⟨rfl, rfl⟩
  | keyDown key held =>
    cases key with
    | none => cases h
    | some key =>
      obtain rfl : key = .escape := of_decide_eq_true h
      exact ⟨rfl, rfl⟩
  | keyUp | other => cases h

theorem lt_of_move? {event : Event} {pad : UInt8} {down : Bool}
    (h : event.move? = some (pad, down)) : pad < 16 := by
  cases event with
  | keyDown key held | keyUp key =>
    cases key with
    | none => cases h
    | some key =>
      obtain ⟨pad', hpad, heq⟩ := Option.map_eq_some_iff.1 h
      obtain ⟨rfl, -⟩ := Prod.mk.inj heq
      exact Key.lt_of_pad? hpad
  | quit | other => cases h

end Event

/-! ## What an event does -/

/-- What an event may do to a session. -/
inductive Handled (s : Session) (event : Event) : Turn → Prop where
  /-- The run is over. -/
  | quit (hquits : event.quits = true) : Handled s event { session := s, ending := some .quit }
  /-- The program starts again, and the user is told so. -/
  | reset (hquits : event.quits = false) (hresets : event.resets = true)
      (hmove : event.move? = none) :
      Handled s event
        ⟨{ s with machine := s.machine.reset.machine }, [.note .resetting], [.reset], none⟩
  /-- A key of the pad moves that no register waits for. -/
  | moved {pad : UInt8} {down : Bool} (hquits : event.quits = false)
      (hresets : event.resets = false) (hmove : event.move? = some (pad, down))
      (hquiet : s.machine.guest.keypad.waiting = none ∨ event.press? = none) :
      Handled s event { session := { s with machine := s.machine.withKey pad down } }
  /-- A press goes into the register that waits for it. -/
  | answered {pad : UInt8} {x : UInt64} (hquits : event.quits = false)
      (hresets : event.resets = false) (hpress : event.press? = some pad)
      (hwait : s.machine.guest.keypad.waiting = some x) :
      Handled s event
        ⟨{ s with machine := s.machine.withAnswer pad (.ofOperand x) }, [], [.answered pad x],
          none⟩
  /-- Nothing happens. -/
  | ignored (hquits : event.quits = false) (hresets : event.resets = false)
      (hmove : event.move? = none) : Handled s event { session := s }

namespace Session

open Machine

variable {s : Session}

theorem reply_setKey {pad : UInt8} (h : pad < 16) (down : Bool) :
    s.reply [] (s.machine.setKey pad down) =
      { session := { s with machine := s.machine.withKey pad down } } := by
  rw [s.machine.setKey_eq h]
  rfl

theorem press_of_held {pad : UInt8} (h : pad < 16) :
    s.press pad true = { session := { s with machine := s.machine.withKey pad true } } := by
  rw [press, reply_setKey h]
  rfl

theorem press_of_not_waiting {pad : UInt8} (h : pad < 16) (held : Bool)
    (hnone : s.machine.guest.keypad.waiting = none) :
    s.press pad held = { session := { s with machine := s.machine.withKey pad true } } := by
  have hnot : (s.machine.withKey pad true).isWaiting = false := by
    rw [isWaiting, Keypad.isWaiting, waiting_withKey, hnone]
    rfl
  rw [press, reply_setKey h]
  simp only [Turn.andThen, hnot, Bool.and_false, Bool.false_eq_true, if_false, List.append_nil]

theorem press_of_waiting {pad : UInt8} (h : pad < 16) {x : UInt64}
    (hwait : s.machine.guest.keypad.waiting = some x) :
    s.press pad false =
      ⟨{ s with machine := s.machine.withAnswer pad (.ofOperand x) }, [], [.answered pad x],
        none⟩ := by
  have hstill : (s.machine.withKey pad true).isWaiting = true := isWaiting_of_waiting hwait
  rw [press, reply_setKey h]
  simp only [Turn.andThen, hstill, Bool.not_false, Bool.and_true, if_true,
    answerKey_withKey hwait h]
  rfl

/-- What becomes of a key that goes down. -/
theorem handled_keyDown (hm : Reachable s.machine) (key : Key) (held : Bool) :
    Handled s (.keyDown (some key) held) (s.handle (.keyDown (some key) held)) := by
  by_cases hescape : key = .escape
  · subst hescape
    exact .quit rfl
  have hquits : (Event.keyDown (some key) held).quits = false := decide_eq_false hescape
  by_cases henter : key = .enter
  · subst henter
    cases held with
    | true => exact .ignored hquits rfl rfl
    | false =>
      obtain ⟨memory, -, hreset⟩ := hm.sound.reset_eq
      have hhandle : s.handle (.keyDown (some .enter) false) =
          ⟨{ s with machine := s.machine.reset.machine }, [.note .resetting], [.reset], none⟩ := by
        rw [handle, if_neg hescape, if_pos rfl, if_neg Bool.false_ne_true, hreset]
        rfl
      rw [hhandle]
      exact .reset hquits rfl rfl
  have hresets : (Event.keyDown (some key) held).resets = false := by
    simp only [Event.resets, decide_eq_false henter, Bool.false_and]
  rw [handle, if_neg hescape, if_neg henter]
  cases hpad : key.pad? with
  | none =>
    refine .ignored hquits hresets ?_
    rw [Event.move?, hpad]
    rfl
  | some pad =>
    have hlt := Key.lt_of_pad? hpad
    have hmove : (Event.keyDown (some key) held).move? = some (pad, true) := by
      rw [Event.move?, hpad]
      rfl
    dsimp only
    cases held with
    | true =>
      rw [press_of_held hlt]
      exact .moved hquits hresets hmove (Or.inr rfl)
    | false =>
      cases hwait : s.machine.guest.keypad.waiting with
      | none =>
        rw [press_of_not_waiting hlt false hwait]
        exact .moved hquits hresets hmove (Or.inl hwait)
      | some x =>
        rw [press_of_waiting hlt hwait]
        exact .answered hquits hresets hpad hwait

/-- An event does one of these. -/
theorem handled (hm : Reachable s.machine) (event : Event) : Handled s event (s.handle event) := by
  cases event with
  | quit => exact .quit rfl
  | other => exact .ignored rfl rfl rfl
  | keyDown key held =>
    cases key with
    | none => exact .ignored rfl rfl rfl
    | some key => exact handled_keyDown hm key held
  | keyUp key =>
    cases key with
    | none => exact .ignored rfl rfl rfl
    | some key =>
      rw [handle]
      cases hpad : key.pad? with
      | none =>
        refine .ignored rfl rfl ?_
        rw [Event.move?, hpad]
        rfl
      | some pad =>
        dsimp only
        rw [reply_setKey (Key.lt_of_pad? hpad)]
        refine .moved rfl rfl ?_ (Or.inr rfl)
        rw [Event.move?, hpad]
        rfl

/-- The machine after an event is one that some history leads to. -/
theorem reachable_handle (hm : Reachable s.machine) (event : Event) :
    Reachable (s.handle event).session.machine := by
  have hhandled := handled hm event
  generalize s.handle event = turn at hhandled ⊢
  have hkey : ∀ {pad}, pad < 16 → ∀ down, Reachable (s.machine.withKey pad down) := by
    intro pad hpad down
    have hserve := hm.serve (.setKey pad down)
    rw [Machine.serve, s.machine.setKey_eq hpad] at hserve
    exact hserve
  cases hhandled with
  | quit | ignored => exact hm
  | reset => exact hm.serve .reset
  | moved _ _ hmove => exact hkey (Event.lt_of_move? hmove) _
  | @answered pad x _ _ hpress hwait =>
    have hpad := Event.lt_of_move? (Event.move?_of_press? hpress)
    have hserve := (hkey hpad true).serve (.answerKey pad)
    rw [Machine.serve, answerKey_withKey hwait hpad] at hserve
    exact hserve

/-- An event ends the run only if it is to. -/
theorem ending_handle (hm : Reachable s.machine) (event : Event) :
    (s.handle event).ending = if event.quits then some .quit else none := by
  have hhandled := handled hm event
  generalize s.handle event = turn at hhandled ⊢
  cases hhandled with
  | quit hquits => rw [if_pos hquits]
  | reset hquits | moved hquits | answered hquits | ignored hquits =>
    rw [hquits, if_neg Bool.false_ne_true]

/-- An event changes nothing of a session but its machine, and the user is told at most that the
program starts again. -/
theorem handle_frame (hm : Reachable s.machine) (event : Event) :
    (s.handle event).session = { s with machine := (s.handle event).session.machine } ∧
      ∀ call ∈ (s.handle event).calls, call = .note .resetting := by
  have hhandled := handled hm event
  generalize s.handle event = turn at hhandled ⊢
  cases hhandled with
  | reset => exact ⟨rfl, List.forall_mem_singleton.2 rfl⟩
  | quit | moved | answered | ignored => exact ⟨rfl, nofun⟩

end Session

end Host

end Chip8VM
