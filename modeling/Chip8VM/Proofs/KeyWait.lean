import Chip8VM.Proofs.PowerOn

/-!
# Waiting for a key

A machine whose program waits for a key stands still. Cycles, keys that go down and up, frames
that are handed out and answers that are no keys leave it as it is, but for the keys that are
down and the redraw flag (`Frozen`), and they do so in any number and order
(`frozen_serveAll`).

The wait was begun by an instruction `awaitKey`, and nothing else happened since
(`Reachable.asked`). A key goes into the register that this instruction names, and the program
goes on behind it. Apart from keys only power-ons end a wait (`frozen_serve`,
`isWaiting_serve`). `key_wait_freezes` puts this together.
-/

namespace Chip8VM

/-- Only one instruction changes the keypad, and nothing but the keypad. -/
theorem Instruction.execute_keypad (i : Instruction) (g : Guest) :
    (∃ x, i = .awaitKey x ∧
      (i.execute g).2 = { g with keypad := { g.keypad with waiting := some (x &&& 0xF) } }) ∨
        (i.execute g).2.keypad = g.keypad := by
  cases i
  case awaitKey x => exact Or.inl ⟨x, rfl, rfl⟩
  case ret | call | draw | storeDecimal | storeRegisters | loadRegisters =>
    exact Or.inr (Guest.attempt_snd_frame Guest.keypad fun _ => rfl)
  all_goals exact Or.inr rfl

/-- The register of an operand that a word can spell is that operand. -/
theorem Register.val_ofOperand {x : UInt64} (h : x.toNat < 16) :
    (Register.ofOperand x).val = x.toNat :=
  Nat.mod_eq_of_lt h

namespace Machine

/-- Where the instruction stands that a record of a cycle is about. -/
def Record.address? : Record → Option UInt16
  | fetchFailed pc _ | decodeFailed pc _ | executing pc _ _ _ _ | executeFailed pc _ _ => some pc
  | _ => none

/-- The first thing that a cycle notes down is what it does at the program counter. -/
theorem cycle_log_address? {m : Machine} (h : m.isWaiting = false) :
    m.cycle.log.head?.bind Record.address? = some m.guest.processor.pc := by
  have hcycled := m.cycled
  generalize m.cycle = reply at hcycled ⊢
  cases hcycled with
  | waiting hwait =>
    rw [h] at hwait
    cases hwait
  | fetchFailed | decodeFailed | executeFailed => rfl
  | completed =>
    split
    · rfl
    · rfl

/-! ## Standing still -/

/-- Whether a machine is another one but for the keys that are down and the redraw flag. -/
def Frozen (m m' : Machine) : Prop :=
  ∃ pressed redraw,
    m' = m.touched m.guest.processor.v { m.guest.keypad with pressed := pressed } redraw

/-- Whether a request never ends a wait: cycles and runs, keys that go down or up, frames, and
answers that are no keys. -/
def Request.idles : Request → Bool
  | .cycle | .run _ | .setKey _ _ | .takeFrame => true
  | .answerKey key => 16 ≤ key
  | _ => false

/-- Whether a request ends a wait: a key does, a reset, and a load that succeeds. -/
def endsWait (m : Machine) : Request → Bool
  | .answerKey key => key < 16
  | .reset => true
  | request => m.startsOver request

theorem Frozen.refl (m : Machine) : m.Frozen m :=
  ⟨m.guest.keypad.pressed, m.guest.screen.redraw, rfl⟩

theorem Frozen.trans {m m' m'' : Machine} (h : m.Frozen m') (h' : m'.Frozen m'') :
    m.Frozen m'' := by
  obtain ⟨_, _, rfl⟩ := h
  obtain ⟨pressed, redraw, rfl⟩ := h'
  exact ⟨pressed, redraw, rfl⟩

theorem Frozen.waiting {m m' : Machine} (h : m.Frozen m') :
    m'.guest.keypad.waiting = m.guest.keypad.waiting := by
  obtain ⟨pressed, redraw, rfl⟩ := h
  rfl

theorem Frozen.processor {m m' : Machine} (h : m.Frozen m') :
    m'.guest.processor = m.guest.processor := by
  obtain ⟨pressed, redraw, rfl⟩ := h
  rfl

theorem Frozen.isWaiting_eq {m m' : Machine} (h : m.Frozen m') :
    m'.isWaiting = m.isWaiting := by
  obtain ⟨pressed, redraw, rfl⟩ := h
  rfl

theorem isWaiting_of_waiting {m : Machine} {x : UInt64} (h : m.guest.keypad.waiting = some x) :
    m.isWaiting = true := by
  rw [isWaiting, Keypad.isWaiting, h]
  rfl

theorem waiting_eq_none {m : Machine} (h : m.isWaiting = false) :
    m.guest.keypad.waiting = none :=
  Option.isNone_iff_eq_none.1 (Option.isSome_eq_false_iff.1 h)

theorem endsWait_of_idles {request : Request} (h : request.idles = true) (m : Machine) :
    m.endsWait request = false := by
  cases request with
  | answerKey key => exact decide_eq_false (UInt8.not_lt.2 (of_decide_eq_true h))
  | cycle | run | setKey | takeFrame => rfl
  | load | loadRom | reset => cases h

/-- What a load or a reset leaves when it fails. -/
theorem Starts.machine_eq {m left : Machine} {program : List UInt8} {reply : Reply Unit}
    (h : m.Starts left program reply) (hfails : reply.noFrame.result.isOk = false) :
    reply.noFrame.machine = left := by
  rcases h with ⟨fault, rfl⟩ | ⟨memory, log, -, rfl⟩
  · rfl
  · cases hfails

/-- The pad may change, and nothing else, when a key goes down or up. -/
theorem frozen_setKey (m : Machine) (key : UInt8) (pressed : Bool) :
    m.Frozen (m.setKey key pressed).machine := by
  unfold setKey Keypad.set
  by_cases hkey : key.toNat < 16
  · rw [dif_pos hkey]
    exact ⟨_, m.guest.screen.redraw, rfl⟩
  · rw [dif_neg hkey]
    exact .refl m

theorem frozen_takeFrame (m : Machine) : m.Frozen m.takeFrame.2 := by
  refine ⟨m.guest.keypad.pressed, m.takeFrame.2.guest.screen.redraw, ?_⟩
  simp only [takeFrame, Screen.takeFrame]
  split
  · rfl
  · rfl

/-- An answer that is no key is a fault. -/
theorem answerKey_of_not_lt {key : UInt8} (h : ¬key < 16) (m : Machine) :
    m.answerKey key = ⟨.error (.invalidKey key), m, []⟩ := by
  rw [answerKey, Keypad.answer, if_neg h]

/-- Cycles of a machine that waits do nothing. -/
theorem serve_of_cycles {m : Machine} (hwait : m.isWaiting = true) {request : Request}
    (h : request.cycles = true) : m.serve request = ⟨.ok none, m, []⟩ := by
  cases request with
  | cycle =>
    rw [serve, cycle_of_isWaiting hwait]
    rfl
  | run n =>
    rw [serve, run_of_isWaiting hwait]
    rfl
  | load | loadRom | reset | setKey | answerKey | takeFrame => cases h

/-- What does not end a wait leaves the machine as it is, if it runs no cycles or the machine
waits. -/
theorem frozen_serve {m : Machine} {request : Request} (h : m.endsWait request = false)
    (hwait : request.cycles = true → m.isWaiting = true) :
    m.Frozen (m.serve request).machine := by
  cases request with
  | load program =>
    rw [serve, (m.starts_load program).machine_eq h]
    exact .refl m
  | loadRom source =>
    rw [serve, (m.starts_loadRom source).machine_eq h]
    exact .refl m
  | reset => cases h
  | cycle | run =>
    rw [serve_of_cycles (hwait rfl) rfl]
    exact .refl m
  | setKey key pressed => exact m.frozen_setKey key pressed
  | answerKey key =>
    rw [serve, answerKey_of_not_lt (of_decide_eq_false h)]
    exact .refl m
  | takeFrame => exact m.frozen_takeFrame

/-- However much of this is asked, the machine stays as it is. -/
theorem frozen_serveAll {m : Machine} (hwait : m.isWaiting = true) {history : List Request}
    (h : ∀ request ∈ history, request.idles = true) : m.Frozen (m.serveAll history) := by
  induction history generalizing m with
  | nil => exact .refl m
  | cons request rest ih =>
    have hidles := h request List.mem_cons_self
    have hfirst := frozen_serve (endsWait_of_idles hidles m) fun _ => hwait
    refine hfirst.trans (ih (hfirst.isWaiting_eq.trans hwait) ?_)
    intro later hlater
    exact h later (List.mem_cons_of_mem request hlater)

/-! ## The end of a wait -/

/-- A key ends a wait and goes into the register that waited. -/
theorem answerKey_of_waiting {m : Machine} {x : UInt64} (h : m.guest.keypad.waiting = some x)
    {key : UInt8} (hkey : key < 16) :
    m.answerKey key =
      ⟨.ok (), m.touched
        (m.guest.processor.v.set (Register.ofOperand x) key (Register.ofOperand x).isLt)
        { m.guest.keypad with waiting := none } m.guest.screen.redraw, [.answered key x]⟩ := by
  rw [answerKey, Keypad.answer, if_pos hkey, h]
  rfl

/-- A key for which nothing waits changes nothing. -/
theorem answerKey_of_not_waiting {m : Machine} (h : m.isWaiting = false) {key : UInt8}
    (hkey : key < 16) : m.answerKey key = ⟨.ok (), m, []⟩ := by
  have hnone := waiting_eq_none h
  have hsame : ({ m.guest.keypad with waiting := none } : Keypad) = m.guest.keypad := by
    rw [← hnone]
  rw [answerKey, Keypad.answer, if_pos hkey, hnone]
  dsimp only
  rw [hsame]
  rfl

/-- After a key, a reset or a load that succeeds nothing waits. -/
theorem isWaiting_serve {m : Machine} (hm : Reachable m) {request : Request}
    (h : m.endsWait request = true) : (m.serve request).machine.isWaiting = false := by
  have hover : m.startsOver request = true → (m.serve request).machine.isWaiting = false := by
    intro hstart
    obtain ⟨before, program, memory, -, hmachine⟩ := (PoweredOn.startedOver hstart).eq_restart
    rw [hmachine]
    rfl
  cases request with
  | answerKey key =>
    have hkey : key < 16 := of_decide_eq_true h
    cases hwait : m.guest.keypad.waiting with
    | some x =>
      rw [serve, answerKey_of_waiting hwait hkey]
      rfl
    | none =>
      have hnot : m.isWaiting = false := by
        rw [isWaiting, Keypad.isWaiting, hwait]
        rfl
      rw [serve, answerKey_of_not_waiting hnot hkey]
      exact hnot
  | reset =>
    obtain ⟨memory, -, hreset⟩ := hm.sound.reset_eq
    rw [serve, hreset]
    rfl
  | load | loadRom => exact hover h
  | cycle | run | setKey | takeFrame => cases h

/-! ## The beginning of a wait -/

/-- Whether a machine has just completed an instruction `awaitKey x` and stood still since. -/
def Asked (m : Machine) (x : UInt64) : Prop :=
  ∃ before address, Reachable before ∧
    before.completed = some ⟨address, .awaitKey x, before.tickDue⟩ ∧
    m.guest.processor.pc.toNat = address.toNat + 2 ∧ before.cycle.machine.Frozen m

theorem Asked.of_frozen {m m' : Machine} {x : UInt64} (h : m.Asked x) (hfrozen : m.Frozen m') :
    m'.Asked x := by
  obtain ⟨before, address, hbefore, hcompleted, hpc, hsince⟩ := h
  refine ⟨before, address, hbefore, hcompleted, ?_, hsince.trans hfrozen⟩
  rw [hfrozen.processor]
  exact hpc

/-- If a register waits after a cycle, then the cycle did nothing or it was this cycle that
made the register wait. -/
theorem asked_cycle {m : Machine} (hm : Reachable m) (h : m.isWaiting = false) {x : UInt64}
    (hx : m.cycle.machine.guest.keypad.waiting = some x) : m.cycle.machine.Asked x := by
  rcases m.completed_cases with ⟨-, pc, hmachine⟩ | ⟨i, hi⟩
  · rw [hmachine, withPc, waiting_eq_none h] at hx
    cases hx
  · obtain ⟨delay, sound, hguest⟩ := hi.exists_timers
    rcases i.execute_keypad m.ahead with ⟨y, rfl, hexec⟩ | hsame
    · rw [hexec] at hguest
      rw [hguest] at hx
      have hlt : y.toNat < 16 := hi.spells.2.2 ▸ Opcode.x_lt m.word
      have hy : (y &&& 0xF) = y := by
        apply UInt64.toNat_inj.1
        rw [Instruction.toNat_and_digit]
        exact Nat.mod_eq_of_lt hlt
      obtain rfl : y = x := hy ▸ Option.some.inj hx
      refine ⟨m, m.guest.processor.pc, hm, hi.completed, ?_, .refl _⟩
      rw [hguest]
      exact toNat_ahead_pc hi.pc_le
    · rw [hguest, hsame, show m.ahead.keypad = m.guest.keypad from rfl, waiting_eq_none h] at hx
      cases hx

/-- Whether the machine is reachable, and if it waits it was asked to. -/
def Explained (m : Machine) : Prop :=
  Reachable m ∧ ∀ x, m.guest.keypad.waiting = some x → m.Asked x

theorem Explained.cycle {m : Machine} (h : m.Explained) : m.cycle.machine.Explained := by
  refine ⟨h.1.serve .cycle, ?_⟩
  intro x hx
  by_cases hwait : m.isWaiting = true
  · rw [cycle_of_isWaiting hwait] at hx ⊢
    exact h.2 x hx
  · exact asked_cycle h.1 (Bool.eq_false_iff.2 hwait) hx

theorem Explained.serve {m : Machine} (h : m.Explained) (request : Request) :
    (m.serve request).machine.Explained := by
  by_cases hcycles : request.cycles = true
  · cases request with
    | cycle => exact h.cycle
    | run n => exact run_invariant (fun _ h => h.cycle) h n.toNat
    | load | loadRom | reset | setKey | answerKey | takeFrame => cases hcycles
  · refine ⟨h.1.serve request, ?_⟩
    intro x hx
    cases hends : m.endsWait request with
    | true =>
      have hwait := isWaiting_of_waiting hx
      rw [isWaiting_serve h.1 hends] at hwait
      cases hwait
    | false =>
      have hfrozen := frozen_serve hends fun hruns => absurd hruns hcycles
      rw [hfrozen.waiting] at hx
      exact (h.2 x hx).of_frozen hfrozen

/-- A wait of a reachable machine was begun by an instruction, and the machine stood still
since. -/
theorem Reachable.asked {m : Machine} (hm : Reachable m) {x : UInt64}
    (hx : m.guest.keypad.waiting = some x) : m.Asked x := by
  have hexplained : m.Explained := by
    refine hm.induction ?_ fun _ request h => h.serve request
    intro settings supply
    exact ⟨reachable_powerOn settings supply, nofun⟩
  exact hexplained.2 x hx

/-- Of a reachable machine that waits for a key: However many cycles are asked for, keys go
down and up, frames are handed out and answers are given that are no keys, the machine stays
as it is, but for the keys that are down and the redraw flag; cycles succeed and note nothing
down. What ends a wait ends this one, and every other request leaves the machine as it is. It
was begun by an instruction at some address that was completed, and nothing else has happened
since. A key goes into the register that this instruction names, changes nothing else, and the
next cycle is at the address behind it. And a key for which no machine waits changes nothing. -/
theorem key_wait_freezes :
    (∀ (m : Machine) (x : UInt64), Reachable m → m.guest.keypad.waiting = some x →
      (∀ history : List Request, (∀ request ∈ history, request.idles = true) →
        let now := m.serveAll history
        m.Frozen now ∧
          ∀ request, request.cycles = true → now.serve request = ⟨.ok none, now, []⟩) ∧
      (∀ request, m.endsWait request = true → (m.serve request).machine.isWaiting = false) ∧
      (∀ request, m.endsWait request = false → m.Frozen (m.serve request).machine) ∧
      ∃ (before : Machine) (address next : UInt16) (r : Register),
        Reachable before ∧
        before.completed = some ⟨address, .awaitKey x, before.tickDue⟩ ∧
        before.cycle.machine.Frozen m ∧
        next.toNat = address.toNat + 2 ∧ r.val = x.toNat ∧
        ∀ key < 16,
          m.answerKey key = ⟨.ok (), m.touched (m.guest.processor.v.set r key r.isLt)
            { m.guest.keypad with waiting := none } m.guest.screen.redraw,
            [.answered key x]⟩ ∧
          (m.answerKey key).machine.guest.processor.pc = next ∧
          (m.answerKey key).machine.cycle.log.head?.bind Record.address? = some next) ∧
    ∀ (m : Machine) (key : UInt8), m.isWaiting = false → key < 16 →
      m.answerKey key = ⟨.ok (), m, []⟩ := by
  constructor
  · intro m x hm hx
    have hwait := isWaiting_of_waiting hx
    refine ⟨?_, ?_, ?_, ?_⟩
    · intro history hidles
      have hfrozen := frozen_serveAll hwait hidles
      refine ⟨hfrozen, ?_⟩
      intro request hcycles
      exact serve_of_cycles (hfrozen.isWaiting_eq.trans hwait) hcycles
    · intro request hends
      exact isWaiting_serve hm hends
    · intro request hends
      exact frozen_serve hends fun _ => hwait
    · obtain ⟨before, address, hbefore, hcompleted, hpc, hsince⟩ := hm.asked hx
      refine ⟨before, address, m.guest.processor.pc, .ofOperand x, hbefore, hcompleted, hsince,
        hpc, Register.val_ofOperand (hm.sound.guest.waiting_lt x hx), ?_⟩
      intro key hkey
      have hanswer := answerKey_of_waiting hx hkey
      have hpc : (m.answerKey key).machine.guest.processor.pc = m.guest.processor.pc := by
        rw [hanswer]
        rfl
      have hends : m.endsWait (.answerKey key) = true := decide_eq_true hkey
      have hawake : (m.answerKey key).machine.isWaiting = false := isWaiting_serve hm hends
      refine ⟨hanswer, hpc, ?_⟩
      rw [cycle_log_address? hawake, hpc]
  · intro m key hnot hkey
    exact answerKey_of_not_waiting hnot hkey

/-- A machine whose program waits for a key in the fifth register. -/
def asking : Machine := (powerOn ⟨1, some 8⟩ idleSupply).serveAll [.load askingProgram, .run 2]

/-- Some requests that do not end a wait. -/
def impatience : List Request :=
  [.run 3, .setKey 7 true, .setKey 16 true, .takeFrame, .answerKey 16, .cycle]

set_option maxRecDepth 100000 in
/-- That machine stays as it is until a key comes, goes on behind the instruction then, and
takes no other key. -/
theorem key_wait_freezes_in_fifth_register :
    Reachable asking ∧ asking.guest.keypad.waiting = some 5 ∧
      asking.Frozen (asking.serveAll impatience) ∧
      (asking.answerKey 7).log.length = 1 ∧
      (asking.answerKey 7).machine.cycle.log.head?.bind Record.address? = some 0x204 ∧
      (asking.answerKey 7).machine.answerKey 3 = ⟨.ok (), (asking.answerKey 7).machine, []⟩ := by
  obtain ⟨hwaits, hothers⟩ := key_wait_freezes
  have hreach : Reachable asking := (reachable_powerOn _ _).serveAll _
  obtain ⟨hwaiting, hidles, hpc, hawake⟩ : asking.guest.keypad.waiting = some 5 ∧
      (∀ request ∈ impatience, request.idles = true) ∧
      (asking.answerKey 7).machine.guest.processor.pc = 0x204 ∧
      (asking.answerKey 7).machine.isWaiting = false := by decide +kernel
  obtain ⟨hfrozen, -, -, before, address, next, r, -, -, -, -, -, hkey⟩ :=
    hwaits _ 5 hreach hwaiting
  obtain ⟨hanswer, hnext, haddress⟩ := hkey 7 (by decide)
  rw [hpc] at hnext
  obtain rfl := hnext
  refine ⟨hreach, hwaiting, (hfrozen _ hidles).1, ?_, haddress, hothers _ 3 hawake (by decide)⟩
  rw [hanswer]
  rfl

end Machine

end Chip8VM
