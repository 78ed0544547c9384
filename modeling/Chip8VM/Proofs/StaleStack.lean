import Chip8VM.Proofs.Likeness
import Chip8VM.Proofs.PowerOn

/-!
# Stale stack entries

Entries of the stack at or above the stack pointer are never read. Two machines are twins if
they differ in nothing but such entries (`Machine.Twin`); keys for later power-ons may differ
too if there is a seed, since they are never used then. Twins answer every request alike and
stay twins (`Machine.Twin.serve`), so they do in every history (`Machine.Twin.serveAll`).

Only a call and a return look at the stack and its pointer. Every other instruction does the
same whatever they are, and hands them on (`Instruction.execute_withStack`). So guests that
differ in stale entries are run alike (`Guest.likeness_twin`), and only a request for the frame
is left to look at.
-/

namespace Chip8VM

/-! ## Guests -/

namespace Guest

/-- The guest with another stack. -/
def withStack (g : Guest) (sp : UInt8) (stack : Vector UInt16 16) : Guest :=
  { g with processor := { g.processor with sp := sp, stack := stack } }

/-- Whether two guests differ in stale stack entries at most. -/
def Twin (g g' : Guest) : Prop :=
  ∃ stack, g' = g.withStack g.processor.sp stack ∧
    ∀ k < g.processor.sp.toNat, stack[k]? = g.processor.stack[k]?

theorem Twin.refl (g : Guest) : g.Twin g := ⟨g.processor.stack, rfl, fun _ _ => rfl⟩

end Guest

namespace Instruction

/-- Whether an instruction is a call or a return. -/
def usesStack : Instruction → Bool
  | call _ | ret => true
  | _ => false

/-- An instruction that is no call and no return does the same with another stack. -/
theorem execute_withStack {i : Instruction} (hi : i.usesStack = false) (g : Guest) (sp : UInt8)
    (stack : Vector UInt16 16) :
    i.execute (g.withStack sp stack) =
      ((i.execute g).1, (i.execute g).2.withStack sp stack) := by
  have hskip : ∀ c : Bool,
      (g.withStack sp stack).skipIf c = (g.skipIf c).withStack sp stack := by
    intro c
    cases c <;> rfl
  cases i
  case call => cases hi
  case ret => cases hi
  case draw | storeDecimal | storeRegisters | loadRegisters =>
    exact Guest.attempt_change (·.withStack sp stack) g _ fun _ => rfl
  case skipEqByte | skipNeByte | skipEq | skipNe | skipPressed | skipReleased =>
    exact congrArg (Prod.mk _) (hskip _)
  all_goals rfl

/-- An instruction that is no call and no return leaves the stack alone. -/
theorem execute_stack {i : Instruction} (hi : i.usesStack = false) (g : Guest) :
    (i.execute g).2.processor.sp = g.processor.sp ∧
      (i.execute g).2.processor.stack = g.processor.stack := by
  have h := congrArg Prod.snd (execute_withStack hi g g.processor.sp g.processor.stack)
  rw [show g.withStack g.processor.sp g.processor.stack = g from rfl] at h
  rw [h]
  exact ⟨rfl, rfl⟩

theorem execute_call {g : Guest} (h : g.processor.sp.toNat < 16) (address : UInt16) :
    (call address).execute g = (.ok (), { g with processor := { g.processor with
      stack := g.processor.stack.set g.processor.sp.toNat g.processor.pc
      sp := g.processor.sp + 1
      pc := address } }) := by
  simp only [execute, Processor.call, dif_pos h]
  rfl

theorem execute_call_of_full {g : Guest} (h : ¬g.processor.sp.toNat < 16) (address : UInt16) :
    (call address).execute g = (.error (.stackOverflow (g.processor.pc - 2)), g) := by
  simp only [execute, Processor.call, dif_neg h]
  rfl

theorem execute_ret {g : Guest} (h : ¬g.processor.sp = 0) :
    ret.execute g = (.ok (), { g with processor := { g.processor with
      sp := g.processor.sp - 1
      pc := g.processor.stack[(g.processor.sp - 1).toNat]?.getD 0 } }) := by
  simp only [execute, Processor.ret, if_neg h]
  rfl

theorem execute_ret_of_empty {g : Guest} (h : g.processor.sp = 0) :
    ret.execute g = (.error (.stackUnderflow (g.processor.pc - 2)), g) := by
  simp only [execute, Processor.ret, if_pos h]
  rfl

/-- A call pushes the program counter and a return takes it from below the stack pointer, so
twins stay twins. -/
theorem execute_twin (i : Instruction) {g g' : Guest} (h : g.Twin g') :
    (i.execute g).1 = (i.execute g').1 ∧ (i.execute g).2.Twin (i.execute g').2 := by
  obtain ⟨stack, rfl, hbelow⟩ := h
  have hsame : (g.withStack g.processor.sp stack).processor.sp = g.processor.sp := rfl
  by_cases hi : i.usesStack = false
  · have hstack := execute_stack hi g
    rw [execute_withStack hi]
    refine ⟨rfl, stack, ?_, ?_⟩
    · rw [hstack.1]
    · rw [hstack.1, hstack.2]
      exact hbelow
  · cases i
    case call address =>
      by_cases hsp : g.processor.sp.toNat < 16
      · rw [execute_call hsp, execute_call (hsame ▸ hsp)]
        refine ⟨rfl, _, rfl, ?_⟩
        intro k hk
        have hle : k ≤ g.processor.sp.toNat := by
          rw [Processor.toNat_sp_add_one hsp] at hk
          omega
        simp only [Vector.getElem?_set, hsame]
        split
        · rfl
        · exact hbelow k (by omega)
      · rw [execute_call_of_full hsp, execute_call_of_full (hsame ▸ hsp)]
        exact ⟨rfl, stack, rfl, hbelow⟩
    case ret =>
      by_cases hsp : g.processor.sp = 0
      · rw [execute_ret_of_empty hsp, execute_ret_of_empty (hsame ▸ hsp)]
        exact ⟨rfl, stack, rfl, hbelow⟩
      · have hlast := Processor.toNat_sp_sub_one hsp
        have hpos := Processor.toNat_sp_pos hsp
        have htop := hbelow (g.processor.sp - 1).toNat (by omega)
        rw [execute_ret hsp, execute_ret (hsame ▸ hsp)]
        refine ⟨rfl, stack, ?_, ?_⟩
        · simp only [Guest.withStack, htop]
        · intro k hk
          dsimp only at hk
          exact hbelow k (by omega)
    all_goals exact absurd rfl hi

end Instruction

namespace Guest

/-- Twins are run alike. -/
theorem likeness_twin : Likeness Twin where
  refl := .refl
  hidden h := by
    obtain ⟨stack, rfl, -⟩ := h
    exact ⟨stack, _, rfl⟩
  execute h i := i.execute_twin h
  adjust h _ _ _ _ _ := by
    obtain ⟨stack, rfl, hbelow⟩ := h
    exact ⟨stack, rfl, hbelow⟩

end Guest

/-! ## Machines -/

namespace Machine

/-- Whether two machines differ at most in stale stack entries, and in keys that are never
used. -/
structure Twin (m m' : Machine) : Prop where
  settings : m'.settings = m.settings
  guest : m.guest.Twin m'.guest
  program : m'.program = m.program
  counter : m'.counter = m.counter
  supply : m.settings.seed = none → m'.supply = m.supply

/-- Whether two replies say the same, of machines that are twins. -/
structure Reply.Twin {α : Type} (reply reply' : Reply α) : Prop where
  result : reply.result = reply'.result
  log : reply.log = reply'.log
  machine : reply.machine.Twin reply'.machine

namespace Twin

variable {m m' : Machine}

theorem alike (h : m.Twin m') : m.Alike Guest.Twin m' :=
  ⟨h.settings, h.guest, h.program, h.counter, h.supply⟩

theorem of_alike (h : m.Alike Guest.Twin m') : m.Twin m' :=
  ⟨h.settings, h.guest, h.program, h.counter, h.supply⟩

theorem takeFrame (h : m.Twin m') :
    m.takeFrame.1 = m'.takeFrame.1 ∧ m.takeFrame.2.Twin m'.takeFrame.2 := by
  obtain ⟨stack, hguest, hbelow⟩ := h.guest
  unfold Machine.takeFrame
  rw [show m'.guest.screen = m.guest.screen by rw [hguest]; rfl]
  refine ⟨rfl, of_alike (h.alike.withGuest ⟨stack, ?_, hbelow⟩)⟩
  rw [hguest]
  rfl

/-- Twins answer every request alike and stay twins. -/
theorem serve (h : m.Twin m') (request : Request) : (m.serve request).Twin (m'.serve request) := by
  by_cases hframe : request = .takeFrame
  · subst hframe
    exact ⟨congrArg Except.ok h.takeFrame.1, rfl, h.takeFrame.2⟩
  · obtain ⟨hresult, hlog, hmachine⟩ := Guest.likeness_twin.serve h.alike hframe
    exact ⟨hresult, hlog, of_alike hmachine⟩

/-- Twins answer every history alike and are twins after it. -/
theorem serveAll (h : m.Twin m') (history : List Request) :
    List.Forall₂ Reply.Twin (m.replies history) (m'.replies history) ∧
      (m.serveAll history).Twin (m'.serveAll history) := by
  induction history generalizing m m' with
  | nil => exact ⟨.nil, h⟩
  | cons request rest ih =>
    obtain ⟨hreplies, hend⟩ := ih (h.serve request).machine
    exact ⟨.cons (h.serve request) hreplies, hend⟩

end Twin

end Machine

end Chip8VM
