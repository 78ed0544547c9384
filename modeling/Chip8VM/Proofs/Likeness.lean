import Chip8VM.Proofs.Cycle
import Chip8VM.Machine.Request

/-!
# Machines that run alike

A machine itself never looks at the stack of its guest or at the redraw flag: it leaves the
one to calls and returns and the other to the host. So two guests may differ there and still
be run alike. A relation of such guests is a `Guest.Likeness` when instructions keep it and
have the same faults in both, and when it does not mind what a machine changes of its guest by
itself.

`Machine.Alike` lifts the relation to machines. Machines that are alike give the same results
to all requests but those for a frame, note down the same and stay alike
(`Guest.Likeness.serve`). Handing out a frame reads the flag, so what becomes of it there has to be
shown for each likeness.

A reply can be gone on from, unless it is a fault (`Reply.andThen`). A run is its first cycle
and then the others in this sense (`run_succ_eq`).
-/

namespace Chip8VM

/-! ## Guests -/

namespace Guest

/-- The guest with another stack and another redraw flag. -/
def withHidden (g : Guest) (stack : Vector UInt16 16) (redraw : Bool) : Guest :=
  { g with
    processor := { g.processor with stack := stack }
    screen := { g.screen with redraw := redraw } }

/-- The guest with other values of all that a machine changes by itself. -/
def adjusted (g : Guest) (v : Vector UInt8 16) (pc : UInt16) (delay sound : UInt8)
    (keypad : Keypad) : Guest :=
  { g with
    processor := { g.processor with v := v, pc := pc, delay := delay, sound := sound }
    keypad := keypad }

/-- A relation of guests that a machine runs alike. -/
structure Likeness (R : Guest → Guest → Prop) : Prop where
  /-- A guest is like itself. -/
  refl (g : Guest) : R g g
  /-- Guests that are alike differ only where a machine does not look. -/
  hidden {g g' : Guest} (h : R g g') : ∃ stack redraw, g' = g.withHidden stack redraw
  /-- An instruction does alike to both. -/
  execute {g g' : Guest} (h : R g g') (i : Instruction) :
    (i.execute g).1 = (i.execute g').1 ∧ R (i.execute g).2 (i.execute g').2
  /-- A machine may put the same values into both. -/
  adjust {g g' : Guest} (h : R g g') (v : Vector UInt8 16) (pc : UInt16) (delay sound : UInt8)
    (keypad : Keypad) : R (g.adjusted v pc delay sound keypad) (g'.adjusted v pc delay sound keypad)

end Guest

namespace Machine

/-! ## One reply after another -/

namespace Reply

variable {α β : Type}

/-- Goes on with the machine of a reply, unless the reply is a fault. -/
def andThen (reply : Reply α) (next : Machine → Reply β) : Reply β :=
  match reply.result with
  | .error fault => ⟨.error fault, reply.machine, reply.log⟩
  | .ok _ =>
    { next reply.machine with log := reply.log ++ (next reply.machine).log }

theorem andThen_ok (a : α) (m : Machine) (log : List Record) (next : Machine → Reply β) :
    (⟨.ok a, m, log⟩ : Reply α).andThen next =
      ⟨(next m).result, (next m).machine, log ++ (next m).log⟩ := rfl

theorem andThen_assoc {γ : Type} (reply : Reply α) (next : Machine → Reply β)
    (last : Machine → Reply γ) :
    (reply.andThen next).andThen last = reply.andThen fun m => (next m).andThen last := by
  obtain ⟨fault | a, m, log⟩ := reply
  · rfl
  · rw [andThen_ok, andThen_ok]
    rcases next m with ⟨fault | b, m', log'⟩
    · rfl
    · rw [andThen_ok, andThen_ok, List.append_assoc]

theorem noFrame_andThen (reply : Reply Unit) (next : Machine → Reply β) :
    reply.noFrame.andThen next = reply.andThen next := by
  obtain ⟨fault | done, m, log⟩ := reply
  · rfl
  · rfl

/-- Two replies that say the same, of machines in some relation. -/
structure Like (M : Machine → Machine → Prop) (reply reply' : Reply α) : Prop where
  result : reply.result = reply'.result
  log : reply.log = reply'.log
  machine : M reply.machine reply'.machine

variable {M : Machine → Machine → Prop}

theorem Like.noFrame {reply reply' : Reply Unit} (h : reply.Like M reply') :
    reply.noFrame.Like M reply'.noFrame :=
  ⟨congrArg (Except.map _) h.result, h.log, h.machine⟩

theorem Like.andThen {reply reply' : Reply α} (h : reply.Like M reply')
    {next next' : Machine → Reply β}
    (hnext : ∀ {m m' : Machine}, M m m' → (next m).Like M (next' m')) :
    (reply.andThen next).Like M (reply'.andThen next') := by
  obtain ⟨result, m, log⟩ := reply
  obtain ⟨result', m', log'⟩ := reply'
  obtain ⟨rfl, rfl, hmachine⟩ := h
  cases result with
  | error fault => exact ⟨rfl, rfl, hmachine⟩
  | ok a =>
    obtain ⟨hresult, hlog, hafter⟩ := hnext hmachine
    exact ⟨hresult, congrArg (log ++ ·) hlog, hafter⟩

end Reply

/-- A run is its first cycle and then the others. -/
theorem run_succ_eq (m : Machine) (n : Nat) : m.run (n + 1) = m.cycle.andThen (·.run n) := by
  rw [run_succ]
  rcases m.cycle with ⟨fault | done, m', log⟩
  · rfl
  · rfl

/-! ## Machines -/

/-- Whether two machines run guests that are alike, and run them alike. Keys for later power-ons
may differ if there is a seed, since they are never used then. -/
structure Alike (R : Guest → Guest → Prop) (m m' : Machine) : Prop where
  settings : m'.settings = m.settings
  guest : R m.guest m'.guest
  program : m'.program = m.program
  counter : m'.counter = m.counter
  supply : m.settings.seed = none → m'.supply = m.supply

theorem Alike.withGuest {R : Guest → Guest → Prop} {m m' : Machine} (h : m.Alike R m')
    {g g' : Guest} (hg : R g g') : Alike R { m with guest := g } { m' with guest := g' } :=
  ⟨h.settings, hg, h.program, h.counter, h.supply⟩

end Machine

namespace Guest.Likeness

open Machine

variable {R : Guest → Guest → Prop} (hR : Likeness R) {m m' : Machine}

include hR

theorem keypad_eq {g g' : Guest} (h : R g g') : g'.keypad = g.keypad := by
  obtain ⟨stack, redraw, rfl⟩ := hR.hidden h
  rfl

theorem tick {g g' : Guest} (h : R g g') :
    R { g with processor := g.processor.tick } { g' with processor := g'.processor.tick } := by
  have hadjusted := hR.adjust h g.processor.v g.processor.pc g.processor.tick.delay
    g.processor.tick.sound g.keypad
  obtain ⟨stack, redraw, rfl⟩ := hR.hidden h
  exact hadjusted

theorem skip {g g' : Guest} (h : R g g') :
    R { g with processor := g.processor.skip } { g' with processor := g'.processor.skip } := by
  have hadjusted := hR.adjust h g.processor.v g.processor.skip.pc g.processor.delay
    g.processor.sound g.keypad
  obtain ⟨stack, redraw, rfl⟩ := hR.hidden h
  exact hadjusted

theorem withKeypad {g g' : Guest} (h : R g g') (keypad : Keypad) :
    R { g with keypad := keypad } { g' with keypad := keypad } := by
  have hadjusted := hR.adjust h g.processor.v g.processor.pc g.processor.delay
    g.processor.sound keypad
  obtain ⟨stack, redraw, rfl⟩ := hR.hidden h
  exact hadjusted

theorem setRegister {g g' : Guest} (h : R g g') (operand : UInt64) (byte : UInt8) :
    R (g.setRegister operand byte) (g'.setRegister operand byte) := by
  have hadjusted := hR.adjust h (g.setRegister operand byte).processor.v g.processor.pc
    g.processor.delay g.processor.sound g.keypad
  obtain ⟨stack, redraw, rfl⟩ := hR.hidden h
  exact hadjusted

/-! ## Cycles -/

theorem countCycle (h : m.Alike R m') : m.countCycle.Alike R m'.countCycle := by
  unfold Machine.countCycle
  rw [h.settings, h.counter]
  split
  · exact ⟨rfl, hR.tick h.guest, h.program, rfl, h.supply⟩
  · exact ⟨rfl, h.guest, h.program, rfl, h.supply⟩

theorem perform (h : m.Alike R m') (pc word : UInt16) (i : Instruction) :
    (m.perform pc word i).Like (Alike R) (m'.perform pc word i) := by
  obtain ⟨hresult, hnext⟩ := hR.execute h.guest i
  have hkeypad := hR.keypad_eq hnext
  obtain ⟨stack, redraw, hguest⟩ := hR.hidden h.guest
  have hv : m'.guest.processor.v = m.guest.processor.v := by rw [hguest]; rfl
  have hindex : m'.guest.processor.i = m.guest.processor.i := by rw [hguest]; rfl
  unfold Machine.perform
  rw [hv, hindex]
  rcases hexec : i.execute m.guest with ⟨result, g⟩
  rcases hexec' : i.execute m'.guest with ⟨result', g'⟩
  rw [hexec, hexec'] at hresult hnext hkeypad
  dsimp only at hresult hkeypad
  subst hresult
  cases result with
  | error fault => exact ⟨rfl, rfl, h.withGuest hnext⟩
  | ok done =>
    refine ⟨rfl, ?_, hR.countCycle (h.withGuest hnext)⟩
    simp only [hkeypad]

theorem cycle (h : m.Alike R m') : m.cycle.Like (Alike R) m'.cycle := by
  obtain ⟨stack, redraw, hguest⟩ := hR.hidden h.guest
  have hpc : m'.guest.processor.pc = m.guest.processor.pc := by rw [hguest]; rfl
  have hmemory : m'.guest.memory = m.guest.memory := by rw [hguest]; rfl
  have hpass : m.passInstruction.Alike R m'.passInstruction := h.withGuest (hR.skip h.guest)
  unfold Machine.cycle
  rw [isWaiting, isWaiting, hR.keypad_eq h.guest, hpc, hmemory]
  split
  · exact ⟨rfl, rfl, h⟩
  · dsimp only
    split
    · exact ⟨rfl, rfl, h⟩
    · split
      · exact ⟨rfl, rfl, hpass⟩
      · exact hR.perform hpass _ _ _

theorem run (h : m.Alike R m') (n : Nat) : (m.run n).Like (Alike R) (m'.run n) := by
  induction n generalizing m m' with
  | zero => exact ⟨rfl, rfl, h⟩
  | succ n ih =>
    rw [run_succ_eq, run_succ_eq]
    exact (hR.cycle h).andThen ih

/-! ## Programs -/

/-- Both machines are started over with the same random bytes: those of the seed, or of the
same key. -/
theorem restart (h : m.Alike R m') (program : List UInt8) (memory : Memory) :
    (m.restart program memory).Alike R (m'.restart program memory) := by
  have hstream : nextStream m'.settings m'.supply = nextStream m.settings m.supply := by
    rw [h.settings, nextStream, nextStream]
    cases hseed : m.settings.seed with
    | none => rw [h.supply hseed]
    | some seed => rfl
  refine ⟨h.settings, ?_, rfl, rfl, ?_⟩
  · simp only [Machine.restart, hstream]
    exact hR.refl _
  · intro hseed
    simp only [Machine.restart, powerOn, h.settings, h.supply hseed]

theorem load (h : m.Alike R m') (program : List UInt8) :
    (m.load program).Like (Alike R) (m'.load program) := by
  unfold Machine.load
  split
  · exact ⟨rfl, rfl, h⟩
  · exact ⟨rfl, rfl, hR.restart h _ _⟩

theorem loadRom (h : m.Alike R m') (source : Rom.Source) :
    (m.loadRom source).Like (Alike R) (m'.loadRom source) := by
  unfold Machine.loadRom
  split
  · exact ⟨rfl, rfl, h⟩
  · exact hR.load h _

theorem emptied (h : m.Alike R m') : m.emptied.Alike R m'.emptied := by
  obtain ⟨stack, redraw, hguest⟩ := hR.hidden h.guest
  have hrandom : m'.guest.random = m.guest.random := by rw [hguest]; rfl
  unfold Machine.emptied
  rw [hrandom]
  exact h.withGuest (hR.refl _)

theorem reset (h : m.Alike R m') : m.reset.Like (Alike R) m'.reset := by
  unfold Machine.reset
  rw [h.program]
  split
  · exact ⟨rfl, rfl, hR.emptied h⟩
  · exact ⟨rfl, rfl, hR.restart h _ _⟩

/-! ## Keys -/

theorem setKey (h : m.Alike R m') (key : UInt8) (pressed : Bool) :
    (m.setKey key pressed).Like (Alike R) (m'.setKey key pressed) := by
  unfold Machine.setKey
  rw [hR.keypad_eq h.guest]
  split
  · exact ⟨rfl, rfl, h⟩
  · exact ⟨rfl, rfl, h.withGuest (hR.withKeypad h.guest _)⟩

theorem answerKey (h : m.Alike R m') (key : UInt8) :
    (m.answerKey key).Like (Alike R) (m'.answerKey key) := by
  unfold Machine.answerKey
  rw [hR.keypad_eq h.guest]
  split
  · exact ⟨rfl, rfl, h⟩
  · exact ⟨rfl, rfl, h.withGuest (hR.withKeypad h.guest _)⟩
  · exact ⟨rfl, rfl, h.withGuest (hR.setRegister (hR.withKeypad h.guest _) _ _)⟩

/-! ## Requests -/

/-- Machines that are alike answer every request alike, but those for a frame, and stay alike. -/
theorem serve (h : m.Alike R m') {request : Request} (hframe : request ≠ .takeFrame) :
    (m.serve request).Like (Alike R) (m'.serve request) := by
  cases request with
  | load program => exact (hR.load h program).noFrame
  | loadRom source => exact (hR.loadRom h source).noFrame
  | reset => exact (hR.reset h).noFrame
  | cycle => exact (hR.cycle h).noFrame
  | run n => exact (hR.run h n.toNat).noFrame
  | setKey key pressed => exact (hR.setKey h key pressed).noFrame
  | answerKey key => exact (hR.answerKey h key).noFrame
  | takeFrame => exact absurd rfl hframe

end Guest.Likeness

end Chip8VM
