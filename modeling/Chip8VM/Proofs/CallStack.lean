import Chip8VM.Proofs.StaleStack

/-!
# The stack holds the open calls

A call is open until it is matched by a return. Over a stretch, the addresses of the open
calls are a list that a call extends at its end and a return shortens there (`openCalls`).
They are all that is left when calls and returns that match are struck out: what was
completed before, between and after them is balanced (`LeavesOpen`).

The stack, read up to its pointer, is this list with each address moved behind the call
(`Tallied`), so a return continues behind the call that it matches, the one since which
calls and returns are balanced (`OpenCall`). `stack_is_open_calls` says this, and that
entries above the stack pointer never matter.
-/

namespace Chip8VM

/-! ## The stack as a list -/

namespace Processor

/-- The return addresses on the stack, the oldest first. -/
def returns (p : Processor) : List Nat := (p.stack.toList.take p.sp.toNat).map UInt16.toNat

/-- A call puts an address at the end. -/
theorem returns_push {p : Processor} (h : p.sp.toNat < 16) (back : UInt16) :
    returns { p with stack := p.stack.set p.sp.toNat back, sp := p.sp + 1 } =
      p.returns ++ [back.toNat] := by
  have hsp := toNat_sp_add_one h
  have hlt : p.sp.toNat < (p.stack.toList.set p.sp.toNat back).length := by simp [h]
  simp only [returns, hsp, Vector.toList_set, List.take_succ_eq_append_getElem hlt,
    List.getElem_set_self, List.take_set_of_le (Nat.le_refl _), List.map_append, List.map_cons,
    List.map_nil]

/-- A return takes the address at the end. -/
theorem returns_pop {p : Processor} (hne : ¬p.sp = 0) (hle : p.sp.toNat ≤ 16) :
    p.returns =
      returns { p with sp := p.sp - 1 } ++ [(p.stack[(p.sp - 1).toNat]?.getD 0).toNat] := by
  have hpos := toNat_sp_pos hne
  have hsp := toNat_sp_sub_one hne
  have hlt : p.sp.toNat - 1 < p.stack.toList.length := by simp; omega
  have hlast : p.sp.toNat = p.sp.toNat - 1 + 1 := by omega
  rw [returns, hlast, List.take_succ_eq_append_getElem hlt]
  simp only [returns, hsp, List.map_append, List.map_cons, List.map_nil]
  rw [Vector.getElem?_eq_getElem (by omega)]
  simp

end Processor

namespace Machine

/-! ## Calls and returns that match -/

namespace Completed

/-- Whether a call was completed. -/
def isCall (c : Completed) : Bool :=
  match c.instruction with
  | .call _ => true
  | _ => false

/-- Whether a return was completed. -/
def isReturn (c : Completed) : Bool :=
  match c.instruction with
  | .ret => true
  | _ => false

end Completed

/-- The open calls after one more completed cycle. -/
def follow (calls : List UInt16) (c : Completed) : List UInt16 :=
  if c.isCall then calls ++ [c.address] else if c.isReturn then calls.dropLast else calls

/-- The addresses of the calls that were not yet matched by a return, the oldest first. -/
def openCalls (done : List Completed) : List UInt16 := done.foldl follow []

/-- Whether every call has its return and every return its call. -/
inductive Balanced : List Completed → Prop where
  | nil : Balanced []
  | plain {c : Completed} {rest : List Completed} (hcall : c.isCall = false)
      (hreturn : c.isReturn = false) (hrest : Balanced rest) : Balanced (c :: rest)
  | nest {call back : Completed} {body rest : List Completed} (hcall : call.isCall = true)
      (hbody : Balanced body) (hreturn : back.isReturn = true) (hrest : Balanced rest) :
      Balanced (call :: (body ++ back :: rest))

/-- Whether a call is the one that the next return matches: what was completed since is
balanced. -/
def OpenCall (done : List Completed) (call : Completed) : Prop :=
  ∃ before body, done = before ++ call :: body ∧ call.isCall = true ∧ Balanced body

/-- Whether these are the addresses of all calls without a return: what was completed before
the first of them, between two of them and after the last is balanced. -/
inductive LeavesOpen : List Completed → List UInt16 → Prop where
  | none {body : List Completed} (hbody : Balanced body) : LeavesOpen body []
  | call {before body : List Completed} {calls : List UInt16} {call : Completed}
      (hbefore : LeavesOpen before calls) (hcall : call.isCall = true) (hbody : Balanced body) :
      LeavesOpen (before ++ call :: body) (calls ++ [call.address])

/-- An instruction that leaves the stack alone is neither a call nor a return. -/
theorem Completed.plain_of_usesStack {c : Completed} (h : c.instruction.usesStack = false) :
    c.isCall = false ∧ c.isReturn = false := by
  rcases c with ⟨address, i, ticked⟩
  cases i
  case call | ret => cases h
  all_goals exact ⟨rfl, rfl⟩

theorem Completed.isCall_eq_false {c : Completed} (h : c.isReturn = true) : c.isCall = false := by
  unfold isReturn at h
  split at h
  · rename_i hret
    rw [isCall, hret]
  · cases h

theorem openCalls_append_call {c : Completed} (h : c.isCall = true) (done : List Completed) :
    openCalls (done ++ [c]) = openCalls done ++ [c.address] := by
  simp [openCalls, follow, h]

theorem openCalls_append_return {c : Completed} (h : c.isReturn = true) {done : List Completed}
    {calls : List UInt16} {address : UInt16} (hopen : openCalls done = calls ++ [address]) :
    openCalls (done ++ [c]) = calls := by
  have hfollow : openCalls (done ++ [c]) = follow (openCalls done) c := by simp [openCalls]
  simp [hfollow, hopen, follow, Completed.isCall_eq_false h, h]

theorem openCalls_append_plain {c : Completed} (hcall : c.isCall = false)
    (hreturn : c.isReturn = false) (done : List Completed) :
    openCalls (done ++ [c]) = openCalls done := by
  simp [openCalls, follow, hcall, hreturn]

theorem Balanced.append {first rest : List Completed} (hfirst : Balanced first)
    (hrest : Balanced rest) : Balanced (first ++ rest) := by
  induction hfirst with
  | nil => exact hrest
  | plain hcall hreturn _ ih => exact .plain hcall hreturn ih
  | nest hcall hbody hreturn _ _ ih =>
    rw [List.cons_append, List.append_assoc, List.cons_append]
    exact .nest hcall hbody hreturn ih

/-- What is balanced leaves the open calls as they were. -/
theorem Balanced.foldl_follow {body : List Completed} (h : Balanced body)
    (calls : List UInt16) : body.foldl follow calls = calls := by
  induction h generalizing calls with
  | nil => rfl
  | plain hcall hreturn _ ih => simp [follow, hcall, hreturn, ih]
  | nest hcall _ hreturn _ ihbody ihrest =>
    simp [follow, hcall, ihbody, hreturn, Completed.isCall_eq_false hreturn, ihrest]

theorem openCalls_of_openCall {before body : List Completed} {call : Completed}
    (hcall : call.isCall = true) (hbody : Balanced body) :
    openCalls (before ++ call :: body) = openCalls before ++ [call.address] := by
  rw [openCalls, List.foldl_append, List.foldl_cons, hbody.foldl_follow, follow, if_pos hcall]
  rfl

theorem LeavesOpen.append {done rest : List Completed} {calls : List UInt16}
    (h : LeavesOpen done calls) (hrest : Balanced rest) : LeavesOpen (done ++ rest) calls := by
  cases h with
  | none hbody => exact .none (hbody.append hrest)
  | call hbefore hcall hbody =>
    rw [List.append_assoc, List.cons_append]
    exact .call hbefore hcall (hbody.append hrest)

/-- The last call without a return is the one that the next return matches. -/
theorem LeavesOpen.last {done : List Completed} {calls : List UInt16} {address : UInt16}
    (h : LeavesOpen done (calls ++ [address])) :
    ∃ before call body, done = before ++ call :: body ∧ call.isCall = true ∧ Balanced body ∧
      LeavesOpen before calls := by
  generalize hall : calls ++ [address] = all at h
  cases h with
  | none => exact absurd hall (by simp)
  | call hbefore hcall hbody =>
    obtain ⟨rfl, -⟩ := List.append_inj' hall rfl
    exact ⟨_, _, _, rfl, hcall, hbody, hbefore⟩

/-- A return closes the last open call. -/
theorem LeavesOpen.close {done : List Completed} {calls : List UInt16} {address : UInt16}
    (h : LeavesOpen done (calls ++ [address])) {back : Completed} (hback : back.isReturn = true) :
    LeavesOpen (done ++ [back]) calls := by
  obtain ⟨before, call, body, rfl, hcall, hbody, hbefore⟩ := h.last
  rw [List.append_assoc, List.cons_append]
  exact hbefore.append (.nest hcall hbody hback .nil)

/-! ## The stack follows the calls -/

/-- What holds of the stack over a stretch in which these cycles were completed. -/
structure Tallied (m : Machine) (done : List Completed) : Prop where
  sp_le : m.guest.processor.sp.toNat ≤ 16
  leaves : LeavesOpen done (openCalls done)
  returns : m.guest.processor.returns = (openCalls done).map (·.toNat + 2)
  count : m.guest.processor.sp.toNat + done.countP Completed.isReturn =
    done.countP Completed.isCall

theorem PoweredOn.tallied {m : Machine} (h : m.PoweredOn) : m.Tallied [] := by
  obtain ⟨before, program, memory, -, rfl⟩ := h.eq_restart
  exact ⟨Nat.zero_le 16, .none .nil, rfl, rfl⟩

/-- A completed call leaves the address behind it on the stack. -/
theorem Completes.call {m : Machine} {address : UInt16} (h : m.Completes (.call address)) :
    m.cycle.machine.guest.processor.returns =
        m.guest.processor.returns ++ [m.guest.processor.pc.toNat + 2] ∧
      m.cycle.machine.guest.processor.sp.toNat = m.guest.processor.sp.toNat + 1 ∧
      m.guest.processor.sp.toNat < 16 := by
  have hsp : m.ahead.processor.sp.toNat < 16 := by
    have hfault := h.no_fault
    simp only [Instruction.fault?] at hfault
    split at hfault
    · cases hfault
    · rename_i hlt
      exact Nat.not_le.1 hlt
  obtain ⟨delay, sound, hguest⟩ := h.exists_timers
  rw [hguest, Instruction.execute_call hsp]
  refine ⟨?_, ?_, hsp⟩
  · rw [← toNat_ahead_pc h.pc_le]
    exact Processor.returns_push hsp _
  · exact Processor.toNat_sp_add_one hsp

/-- A completed return takes an address off the stack and continues there. -/
theorem Completes.ret {m : Machine} (h : m.Completes .ret)
    (hle : m.guest.processor.sp.toNat ≤ 16) :
    m.guest.processor.returns = m.cycle.machine.guest.processor.returns ++
        [m.cycle.machine.guest.processor.pc.toNat] ∧
      m.guest.processor.sp.toNat = m.cycle.machine.guest.processor.sp.toNat + 1 := by
  have hsp : ¬m.ahead.processor.sp = 0 := by
    have hfault := h.no_fault
    simp only [Instruction.fault?] at hfault
    split at hfault
    · cases hfault
    · assumption
  obtain ⟨delay, sound, hguest⟩ := h.exists_timers
  rw [hguest, Instruction.execute_ret hsp]
  refine ⟨Processor.returns_pop hsp hle, ?_⟩
  have hlast := Processor.toNat_sp_sub_one hsp
  have hpos := Processor.toNat_sp_pos hsp
  show m.ahead.processor.sp.toNat = (m.ahead.processor.sp - 1).toNat + 1
  omega

/-- Every other instruction leaves the stack alone. -/
theorem Completes.other {m : Machine} {i : Instruction} (h : m.Completes i)
    (hi : i.usesStack = false) :
    m.cycle.machine.guest.processor.returns = m.guest.processor.returns ∧
      m.cycle.machine.guest.processor.sp = m.guest.processor.sp := by
  obtain ⟨delay, sound, hguest⟩ := h.exists_timers
  obtain ⟨hsp, hstack⟩ := Instruction.execute_stack hi m.ahead
  rw [hguest, Processor.returns, hsp, hstack]
  exact ⟨rfl, rfl⟩

/-- If the stack is not empty there is an open call, and its address is on top. -/
theorem Tallied.of_returns {m : Machine} {done : List Completed} (h : m.Tallied done)
    {rest : List Nat} {top : Nat} (hreturns : m.guest.processor.returns = rest ++ [top]) :
    ∃ calls address, openCalls done = calls ++ [address] ∧ rest = calls.map (·.toNat + 2) ∧
      top = address.toNat + 2 := by
  rw [h.returns] at hreturns
  rcases List.eq_nil_or_concat' (openCalls done) with hnil | ⟨calls, address, hopen⟩
  · rw [hnil] at hreturns
    exact absurd hreturns.symm (by simp)
  · rw [hopen, List.map_append, List.map_singleton] at hreturns
    obtain ⟨hrest, htop⟩ := List.append_inj' hreturns rfl
    exact ⟨calls, address, hopen, hrest.symm, (List.singleton_inj.1 htop).symm⟩

/-- A cycle keeps the stack and the open calls together. -/
theorem Tallied.cycle {m : Machine} {done : List Completed} (h : m.Tallied done) :
    m.cycle.machine.Tallied (done ++ m.completed.toList) := by
  rcases m.completed_cases with ⟨hnone, pc, hmachine⟩ | ⟨i, hi⟩
  · rw [hnone, hmachine, Option.toList_none, List.append_nil]
    exact ⟨h.sp_le, h.leaves, h.returns, h.count⟩
  · have hcount := h.count
    rw [hi.completed, Option.toList_some]
    by_cases huses : i.usesStack = false
    · obtain ⟨hreturns, hsp⟩ := hi.other huses
      obtain ⟨hcall, hreturn⟩ :=
        Completed.plain_of_usesStack (c := ⟨m.guest.processor.pc, i, m.tickDue⟩) huses
      have hopen := openCalls_append_plain hcall hreturn done
      constructor
      · rw [hsp]
        exact h.sp_le
      · rw [hopen]
        exact h.leaves.append (.plain hcall hreturn .nil)
      · rw [hreturns, h.returns, hopen]
      · simp [hsp, hcall, hreturn, hcount]
    · cases i
      case call address =>
        obtain ⟨hreturns, hsp, hlt⟩ := hi.call
        have hcall : Completed.isCall ⟨m.guest.processor.pc, .call address, m.tickDue⟩ = true := rfl
        have hopen := openCalls_append_call hcall done
        constructor
        · omega
        · rw [hopen]
          exact h.leaves.call hcall .nil
        · rw [hreturns, h.returns, hopen, List.map_append, List.map_singleton]
        · simp [hsp, Completed.isCall, Completed.isReturn, ← hcount]
          omega
      case ret =>
        obtain ⟨hreturns, hsp⟩ := hi.ret h.sp_le
        have hle := h.sp_le
        have hreturn : Completed.isReturn ⟨m.guest.processor.pc, .ret, m.tickDue⟩ = true := rfl
        obtain ⟨calls, address, hcalls, hrest, -⟩ := h.of_returns hreturns
        have hopen := openCalls_append_return hreturn hcalls
        constructor
        · omega
        · rw [hopen]
          exact (hcalls ▸ h.leaves).close hreturn
        · rw [hopen, hrest]
        · simp [Completed.isCall, Completed.isReturn, ← hcount, hsp]
          omega
      all_goals exact absurd rfl huses

/-- Over a stretch the stack holds the open calls. -/
theorem PoweredOn.tallied_serveAll {m : Machine} (h : m.PoweredOn) {stretch : List Request}
    (hstretch : m.Uninterrupted stretch) :
    (m.serveAll stretch).Tallied (m.completedIn stretch) :=
  stretch_invariant (P := Tallied) (fun _ _ h => h.cycle)
    (fun _ _ _ _ _ h => ⟨h.sp_le, h.leaves, h.returns, h.count⟩) h.sound hstretch
    h.tallied

/-- A completed return matches a call, and continues behind any call that it matches. -/
theorem Tallied.ret {m : Machine} {done : List Completed} (h : m.Tallied done)
    {c : Completed} (hc : m.completed = some c) (hreturn : c.isReturn = true) :
    (∃ call, OpenCall done call) ∧
      ∀ call, OpenCall done call →
        m.cycle.machine.guest.processor.pc.toNat = call.address.toNat + 2 := by
  have hret : m.Completes .ret := by
    obtain ⟨i, hi, rfl⟩ := completes_of_completed hc
    cases i
    case ret => exact hi
    all_goals cases hreturn
  obtain ⟨hreturns, -⟩ := hret.ret h.sp_le
  obtain ⟨calls, address, hopen, -, htop⟩ := h.of_returns hreturns
  constructor
  · obtain ⟨before, call, body, hdone, hcall, hbody, -⟩ := (hopen ▸ h.leaves).last
    exact ⟨call, before, body, hdone, hcall, hbody⟩
  · rintro call ⟨before, body, rfl, hcall, hbody⟩
    rw [openCalls_of_openCall hcall hbody] at hopen
    obtain ⟨-, hlast⟩ := List.append_inj' hopen rfl
    rw [htop, List.singleton_inj.1 hlast]

/-- Since its last power-on a machine has as many return addresses on its stack as it has
completed more calls than returns, sixteen at most. They are the addresses of the open
calls, in order, each two further on, and what was completed before, between and after the
open calls is balanced. Whenever a return is completed there is a call that it
matches, and the machine goes on behind this call. And what the stack holds from its pointer
on makes no difference: machines that differ in nothing else answer every history alike, and
differ in nothing else after it. -/
theorem stack_is_open_calls :
    (∀ (m : Machine) (stretch : List Request), m.PoweredOn → m.Uninterrupted stretch →
      let now := m.serveAll stretch
      let done := m.completedIn stretch
      now.guest.processor.sp.toNat + done.countP Completed.isReturn =
          done.countP Completed.isCall ∧
        now.guest.processor.sp.toNat ≤ 16 ∧
        now.guest.processor.returns = (openCalls done).map (·.toNat + 2) ∧
        LeavesOpen done (openCalls done) ∧
        ∀ c, now.completed = some c → c.isReturn = true →
          (∃ call, OpenCall done call) ∧ ∀ call, OpenCall done call →
            now.cycle.machine.guest.processor.pc.toNat = call.address.toNat + 2) ∧
    ∀ (m m' : Machine) (history : List Request), m.Twin m' →
      List.Forall₂ Reply.Twin (m.replies history) (m'.replies history) ∧
        (m.serveAll history).Twin (m'.serveAll history) := by
  constructor
  · intro m stretch hm hstretch
    have h := hm.tallied_serveAll hstretch
    refine ⟨h.count, h.sp_le, h.returns, h.leaves, ?_⟩
    intro c hc hreturn
    exact h.ret hc hreturn
  · intro m m' history h
    exact h.serveAll history

/-- A machine that has just loaded a program which calls its last instruction, a return. -/
def aboutToCall : Machine :=
  ((powerOn ⟨1, none⟩ idleSupply).serve
    (.load [0x22, 0x06, 0x61, 0x01, 0x12, 0x04, 0x00, 0xEE])).machine

/-- The same machine after the return, but with zeros on its stack. -/
def wiped : Machine :=
  { aboutToCall.serveAll [.run 2] with
    guest := (aboutToCall.serveAll [.run 2]).guest.withStack 0 (Vector.replicate 16 0) }

set_option maxRecDepth 100000 in
/-- The call leaves its address and two more on the stack, the return goes there, and nobody
sees whether the address is still there afterwards. -/
theorem stack_is_open_calls_of_return :
    (aboutToCall.serveAll [.cycle]).guest.processor.returns = [0x202] ∧
      (aboutToCall.serveAll [.cycle]).cycle.machine.guest.processor.pc.toNat = 0x202 ∧
      wiped.guest.processor.stack ≠ (aboutToCall.serveAll [.run 2]).guest.processor.stack ∧
      ((aboutToCall.serveAll [.run 2]).serveAll [.run 2, .takeFrame]).Twin
        (wiped.serveAll [.run 2, .takeFrame]) := by
  obtain ⟨hstretch, htwins⟩ := stack_is_open_calls
  obtain ⟨hstart, hdone, hreturn, hopen, hstale, hsp⟩ :
      (powerOn ⟨1, none⟩ idleSupply).startsOver
          (.load [0x22, 0x06, 0x61, 0x01, 0x12, 0x04, 0x00, 0xEE]) = true ∧
        aboutToCall.completedIn [.cycle] = [⟨0x200, .call 0x206, true⟩] ∧
        (aboutToCall.serveAll [.cycle]).completed = some ⟨0x206, .ret, true⟩ ∧
        openCalls [⟨0x200, .call 0x206, true⟩] = [0x200] ∧
        wiped.guest.processor.stack ≠ (aboutToCall.serveAll [.run 2]).guest.processor.stack ∧
        (aboutToCall.serveAll [.run 2]).guest.processor.sp = 0 := by decide +kernel
  obtain ⟨-, -, hreturns, -, hmatched⟩ :=
    hstretch aboutToCall [.cycle] (.startedOver hstart) ⟨rfl, trivial⟩
  obtain ⟨-, hback⟩ := hmatched _ hreturn rfl
  rw [hdone, hopen] at hreturns
  rw [hdone] at hback
  have htwin : (aboutToCall.serveAll [.run 2]).Twin wiped := by
    refine ⟨rfl, ⟨Vector.replicate 16 0, ?_, ?_⟩, rfl, rfl, fun _ => rfl⟩
    · rw [hsp]
      rfl
    · intro k hk
      rw [hsp] at hk
      exact absurd hk (Nat.not_lt_zero k)
  exact ⟨hreturns, hback _ ⟨[], [], rfl, rfl, .nil⟩, hstale, (htwins _ _ _ htwin).2⟩

end Machine

end Chip8VM
