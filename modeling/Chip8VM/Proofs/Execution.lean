import Chip8VM.Guest.Execute
import Chip8VM.Proofs.Ranges

/-!
# What an instruction may do

`Instruction.fault?` is the fault of an instruction in a guest, read off the stack pointer,
the index register and the operands alone. `execute_fst` says that the outcome of an
instruction is exactly this fault, and `execute_snd_of_error` that a fault changes nothing.
An instruction that changes the screen raises its flag (`execute_screen`).
-/

namespace Chip8VM

namespace Guest

theorem attempt_ok {α : Type} (g : Guest) (a : α) (next : α → Guest) :
    g.attempt (.ok a) next = (.ok (), next a) := rfl

/-- A failed attempt leaves the guest alone. -/
theorem attempt_snd_of_error {α : Type} {g : Guest} {checked : Except Fault α}
    {next : α → Guest} {fault : Fault} (h : (g.attempt checked next).1 = .error fault) :
    (g.attempt checked next).2 = g := by
  cases checked with
  | error other => rfl
  | ok a => cases h

/-- A part of the guest that an attempt leaves alone when it succeeds is left alone. -/
theorem attempt_snd_frame_of_ok {α β : Type} {g : Guest} {checked : Except Fault α}
    {next : α → Guest} (part : Guest → β) (h : ∀ a, checked = .ok a → part (next a) = part g) :
    part (g.attempt checked next).2 = part g := by
  cases checked with
  | error fault => rfl
  | ok a => exact h a rfl

/-- A part of the guest that stays as it is whatever an attempt goes on with. -/
theorem attempt_snd_frame {α β : Type} {g : Guest} {checked : Except Fault α}
    {next : α → Guest} (part : Guest → β) (h : ∀ a, part (next a) = part g) :
    part (g.attempt checked next).2 = part g :=
  attempt_snd_frame_of_ok part fun a _ => h a

/-- An attempt on a changed guest that would go on to the same change of what came out before. -/
theorem attempt_change {α : Type} (change : Guest → Guest) (g : Guest)
    (checked : Except Fault α) {next next' : α → Guest} (h : ∀ a, next' a = change (next a)) :
    (change g).attempt checked next' =
      ((g.attempt checked next).1, change (g.attempt checked next).2) := by
  cases checked with
  | error fault => rfl
  | ok a => simp only [attempt, h]

end Guest

namespace Instruction

/-! ## Faults -/

/-- Why bytes from an address on cannot be read, if they cannot. -/
def readFault? (address : UInt16) (length : Nat) : Option Fault :=
  if 4096 < address.toNat + length then some (.memoryOutOfBounds (max address.toUInt64 4096))
  else none

/-- Why bytes from an address on cannot be written, if they cannot. -/
def writeFault? (address : UInt16) (length : Nat) : Option Fault :=
  if 4096 < address.toNat + length then some (.memoryOutOfBounds (max address.toUInt64 4096))
  else if address.toNat < 80 then some (.readOnlyMemory address.toUInt64)
  else none

theorem readFault?_eq_some_iff {address : UInt16} {length : Nat} {fault : Fault} :
    readFault? address length = some fault ↔
      4096 < address.toNat + length ∧
        fault = .memoryOutOfBounds (max address.toUInt64 4096) := by
  unfold readFault?
  by_cases h : 4096 < address.toNat + length
  · rw [if_pos h, Option.some.injEq, eq_comm, and_iff_right h]
  · rw [if_neg h]
    exact ⟨fun hnone => (nomatch hnone), fun hboth => absurd hboth.1 h⟩

/-- A range that ends behind memory is refused for that first. -/
theorem writeFault?_eq_some_iff {address : UInt16} {length : Nat} {fault : Fault} :
    writeFault? address length = some fault ↔
      (4096 < address.toNat + length ∧
        fault = .memoryOutOfBounds (max address.toUInt64 4096)) ∨
      (address.toNat + length ≤ 4096 ∧ address.toNat < 80 ∧
        fault = .readOnlyMemory address.toUInt64) := by
  unfold writeFault?
  by_cases h : 4096 < address.toNat + length
  · rw [if_pos h, Option.some.injEq, eq_comm, and_iff_right h]
    exact ⟨Or.inl, fun hor => hor.resolve_right fun hand => absurd h (Nat.not_lt.2 hand.1)⟩
  · rw [if_neg h, and_iff_right (Nat.not_lt.1 h)]
    by_cases hfont : address.toNat < 80
    · rw [if_pos hfont, Option.some.injEq, eq_comm, and_iff_right hfont]
      exact ⟨Or.inr, fun hor => hor.resolve_left fun hand => absurd hand.1 h⟩
    · rw [if_neg hfont]
      refine ⟨fun hnone => (nomatch hnone), ?_⟩
      rintro (⟨hend, -⟩ | ⟨hlow, -⟩)
      · exact absurd hend h
      · exact absurd hlow hfont

theorem readFault?_eq_none_iff {address : UInt16} {length : Nat} :
    readFault? address length = none ↔ address.toNat + length ≤ 4096 := by
  rw [readFault?, ite_eq_right_iff, ← Nat.not_lt]
  exact forall_congr' fun _ => iff_of_false nofun id

theorem writeFault?_eq_none_iff {address : UInt16} {length : Nat} :
    writeFault? address length = none ↔ address.toNat + length ≤ 4096 ∧ 80 ≤ address.toNat := by
  unfold writeFault?
  by_cases hend : 4096 < address.toNat + length
  · rw [if_pos hend]
    exact iff_of_false nofun fun hboth => absurd hboth.1 (Nat.not_le.2 hend)
  · rw [if_neg hend, and_iff_right (Nat.not_lt.1 hend)]
    by_cases hfont : address.toNat < 80
    · rw [if_pos hfont]
      exact iff_of_false nofun (Nat.not_le.2 hfont)
    · rw [if_neg hfont]
      exact iff_of_true rfl (Nat.not_lt.1 hfont)

/-- The fault of an instruction, if it has one. -/
def fault? (i : Instruction) (g : Guest) : Option Fault :=
  let p := g.processor
  match i with
  | ret => if p.sp = 0 then some (.stackUnderflow (p.pc - 2)) else none
  | call _ => if 16 ≤ p.sp.toNat then some (.stackOverflow (p.pc - 2)) else none
  | draw _ _ n => readFault? p.i n.toNat
  | storeDecimal _ => writeFault? p.i 3
  | storeRegisters x => writeFault? p.i (x.toNat % 16 + 1)
  | loadRegisters x => readFault? p.i (x.toNat % 16 + 1)
  | _ => none

/-- What came of an instruction with or without this fault. -/
def resultOf : Option Fault → Except Fault Unit
  | some fault => .error fault
  | none => .ok ()

theorem resultOf_eq_ok_iff {fault? : Option Fault} : resultOf fault? = .ok () ↔ fault? = none := by
  cases fault? with
  | none => exact iff_of_true rfl rfl
  | some fault => exact iff_of_false nofun nofun

theorem attempt_slice_fst (g : Guest) (address : UInt16) (length : UInt64)
    (next : List UInt8 → Guest) :
    (g.attempt (g.memory.slice address.toUInt64 length) next).1 =
      resultOf (readFault? address length.toNat) := by
  rw [Memory.slice_eq, readFault?, UInt16.toNat_toUInt64]
  by_cases h : address.toNat + length.toNat ≤ 4096
  · rw [if_pos h, if_neg (Nat.not_lt.2 h)]
    rfl
  · rw [if_neg h, if_pos (Nat.not_le.1 h)]
    rfl

theorem attempt_store_fst (g : Guest) (address : UInt16) {bytes : List UInt8}
    (hne : bytes ≠ []) (hlen : bytes.length < 2 ^ 64) (next : Memory → Guest) :
    (g.attempt (g.memory.store address.toUInt64 bytes) next).1 =
      resultOf (writeFault? address bytes.length) := by
  rw [Memory.store_eq _ _ _ hlen, writeFault?, UInt16.toNat_toUInt64]
  by_cases h : 4096 < address.toNat + bytes.length
  · rw [if_pos h, if_pos h]
    rfl
  · rw [if_neg h, if_neg h]
    by_cases hfont : address.toNat < 80
    · rw [if_pos ⟨hne, hfont⟩, if_pos hfont]
      rfl
    · rw [if_neg fun hboth => hfont hboth.2, if_neg hfont]
      rfl

/-- Only the last digit of a register operand counts. -/
theorem toNat_and_digit (x : UInt64) : (x &&& 0xF).toNat = x.toNat % 16 := by
  rw [UInt64.toNat_and, show (0xF : UInt64).toNat = 2 ^ 4 - 1 from rfl,
    Nat.and_two_pow_sub_one_eq_mod]

theorem digit_lt (x : UInt64) : x.toNat % 16 < 16 := Nat.mod_lt _ (Nat.succ_pos _)

theorem toNat_and_digit_succ (x : UInt64) : ((x &&& 0xF) + 1).toNat = x.toNat % 16 + 1 := by
  rw [UInt64.toNat_add, toNat_and_digit, show (1 : UInt64).toNat = 1 from rfl]
  omega

theorem length_upTo (p : Processor) (x : UInt64) :
    (p.upTo (.ofOperand x)).length = x.toNat % 16 + 1 := by
  have hlt := digit_lt x
  have hr : (Register.ofOperand x).val = x.toNat % 16 := rfl
  rw [Processor.upTo, List.length_take, Vector.length_toList, hr]
  omega

/-- An instruction succeeds unless it has a fault, and then that is its outcome. -/
theorem execute_fst (i : Instruction) (g : Guest) : (i.execute g).1 = resultOf (i.fault? g) := by
  cases i
  case ret =>
    simp only [execute, fault?, Processor.ret]
    by_cases h : g.processor.sp = 0
    · rw [if_pos h, if_pos h]; rfl
    · rw [if_neg h, if_neg h]; rfl
  case call address =>
    simp only [execute, fault?, Processor.call]
    by_cases h : g.processor.sp.toNat < 16
    · rw [dif_pos h, if_neg (Nat.not_le.2 h)]; rfl
    · rw [dif_neg h, if_pos (Nat.not_lt.1 h)]; rfl
  case draw x y n =>
    exact attempt_slice_fst g _ _ _
  case storeDecimal x =>
    exact attempt_store_fst g _ (by simp [Guest.decimal]) (by simp [Guest.decimal]) _
  case storeRegisters x =>
    have hlen := length_upTo g.processor x
    have hlt := digit_lt x
    have hne : g.processor.upTo (.ofOperand x) ≠ [] := fun h => by
      rw [h, List.length_nil] at hlen
      omega
    simp only [execute, fault?]
    rw [attempt_store_fst g _ hne (by omega), hlen]
  case loadRegisters x =>
    simp only [execute, fault?]
    rw [attempt_slice_fst, toNat_and_digit_succ]
  all_goals rfl

/-- A fault leaves the whole guest as it was. -/
theorem execute_snd_of_error {i : Instruction} {g : Guest} {fault : Fault}
    (h : (i.execute g).1 = .error fault) : (i.execute g).2 = g := by
  cases i
  case ret => exact Guest.attempt_snd_of_error h
  case call => exact Guest.attempt_snd_of_error h
  case draw => exact Guest.attempt_snd_of_error h
  case storeDecimal => exact Guest.attempt_snd_of_error h
  case storeRegisters => exact Guest.attempt_snd_of_error h
  case loadRegisters => exact Guest.attempt_snd_of_error h
  all_goals cases h

/-! ## The screen -/

/-- Drawing a sprite raises the flag unless the sprite has no rows. -/
theorem redraw_drawSprite (screen : Screen) (x y : UInt64) (sprite : List UInt8) :
    (screen.drawSprite x y sprite).1.redraw = (screen.redraw || !sprite.isEmpty) := by
  induction sprite generalizing screen y with
  | nil => exact (Bool.or_false _).symm
  | cons byte rest ih => simp [Screen.drawSprite, ih, Screen.drawRow]

/-- An instruction that leaves the screen changed leaves its flag raised. -/
theorem execute_screen (i : Instruction) (g : Guest) :
    (i.execute g).2.screen = g.screen ∨ (i.execute g).2.screen.redraw = true := by
  cases i
  case clear => exact Or.inr rfl
  case draw x y n =>
    simp only [execute]
    cases g.memory.slice g.processor.i.toUInt64 n.toUInt64 with
    | error fault => exact Or.inl rfl
    | ok sprite =>
      cases sprite with
      | nil => exact Or.inl rfl
      | cons byte rest =>
        refine Or.inr ?_
        simp only [Guest.attempt_ok, Guest.drawSprite]
        rw [redraw_drawSprite]
        exact Bool.or_true _
  case ret => exact Or.inl (Guest.attempt_snd_frame Guest.screen fun _ => rfl)
  case call => exact Or.inl (Guest.attempt_snd_frame Guest.screen fun _ => rfl)
  case storeDecimal => exact Or.inl (Guest.attempt_snd_frame Guest.screen fun _ => rfl)
  case storeRegisters => exact Or.inl (Guest.attempt_snd_frame Guest.screen fun _ => rfl)
  case loadRegisters => exact Or.inl (Guest.attempt_snd_frame Guest.screen fun _ => rfl)
  all_goals exact Or.inl rfl

end Instruction

end Chip8VM
