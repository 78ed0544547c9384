import Chip8VM.Instruction.Opcode

/-!
# Which words are instructions

`Spells` is the table of opcodes, said of an instruction and a word: the digits that the
instruction's pattern fixes, and the digits in which its operands stand. `decode_eq_ok_iff`
says that decoding reads exactly this table, and `decode_eq_error_iff` that it refuses
exactly the words that spell nothing, each with its own number. Operands that come from a
word fit the digits of their pattern (`Spells.encodable`).
-/

namespace Chip8VM

namespace Opcode

theorem x_lt (w : UInt16) : x w < 16 := Nat.mod_lt _ (Nat.succ_pos _)

theorem y_lt (w : UInt16) : y w < 16 := Nat.mod_lt _ (Nat.succ_pos _)

theorem n_lt (w : UInt16) : n w < 16 := Nat.mod_lt _ (Nat.succ_pos _)

theorem kk_lt (w : UInt16) : kk w < 256 := Nat.mod_lt _ (Nat.succ_pos _)

theorem nnn_lt (w : UInt16) : nnn w < 4096 := Nat.mod_lt _ (Nat.succ_pos _)

theorem toNat_x (w : UInt16) : (UInt64.ofNat (x w)).toNat = x w :=
  UInt64.toNat_ofNat_of_lt' (Nat.lt_trans (x_lt w) (by decide))

theorem toNat_y (w : UInt16) : (UInt64.ofNat (y w)).toNat = y w :=
  UInt64.toNat_ofNat_of_lt' (Nat.lt_trans (y_lt w) (by decide))

theorem toNat_n (w : UInt16) : (UInt8.ofNat (n w)).toNat = n w :=
  UInt8.toNat_ofNat_of_lt' (Nat.lt_trans (n_lt w) (by decide))

theorem toNat_kk (w : UInt16) : (UInt8.ofNat (kk w)).toNat = kk w :=
  UInt8.toNat_ofNat_of_lt' (kk_lt w)

theorem toNat_nnn (w : UInt16) : (UInt16.ofNat (nnn w)).toNat = nnn w :=
  UInt16.toNat_ofNat_of_lt' (Nat.lt_trans (nnn_lt w) (by decide))

/-- In the first family a word is its last three digits. -/
theorem eq_of_family_zero {w : UInt16} {k : Nat} (h0 : family w = 0) (hk : nnn w = k) :
    w = UInt16.ofNat k := by
  have hlt := w.toNat_lt
  apply UInt16.toNat_inj.1
  rw [UInt16.toNat_ofNat']
  unfold family at h0
  unfold nnn at hk
  omega

end Opcode

namespace Instruction

/-! ## The table -/

open Opcode in
/-- Whether a word stands for an instruction, by the pattern of the instruction. -/
def Spells : Instruction → UInt16 → Prop
  | clear, w => w = 0x00E0
  | ret, w => w = 0x00EE
  | jump address, w => family w = 0x1 ∧ nnn w = address.toNat
  | call address, w => family w = 0x2 ∧ nnn w = address.toNat
  | skipEqByte x kk, w => family w = 0x3 ∧ Opcode.x w = x.toNat ∧ Opcode.kk w = kk.toNat
  | skipNeByte x kk, w => family w = 0x4 ∧ Opcode.x w = x.toNat ∧ Opcode.kk w = kk.toNat
  | skipEq x y, w =>
    family w = 0x5 ∧ n w = 0x0 ∧ Opcode.x w = x.toNat ∧ Opcode.y w = y.toNat
  | loadByte x kk, w => family w = 0x6 ∧ Opcode.x w = x.toNat ∧ Opcode.kk w = kk.toNat
  | addByte x kk, w => family w = 0x7 ∧ Opcode.x w = x.toNat ∧ Opcode.kk w = kk.toNat
  | copy x y, w => family w = 0x8 ∧ n w = 0x0 ∧ Opcode.x w = x.toNat ∧ Opcode.y w = y.toNat
  | or x y, w => family w = 0x8 ∧ n w = 0x1 ∧ Opcode.x w = x.toNat ∧ Opcode.y w = y.toNat
  | and x y, w => family w = 0x8 ∧ n w = 0x2 ∧ Opcode.x w = x.toNat ∧ Opcode.y w = y.toNat
  | xor x y, w => family w = 0x8 ∧ n w = 0x3 ∧ Opcode.x w = x.toNat ∧ Opcode.y w = y.toNat
  | add x y, w => family w = 0x8 ∧ n w = 0x4 ∧ Opcode.x w = x.toNat ∧ Opcode.y w = y.toNat
  | sub x y, w => family w = 0x8 ∧ n w = 0x5 ∧ Opcode.x w = x.toNat ∧ Opcode.y w = y.toNat
  | shiftRight x, w => family w = 0x8 ∧ n w = 0x6 ∧ Opcode.x w = x.toNat
  | subFrom x y, w =>
    family w = 0x8 ∧ n w = 0x7 ∧ Opcode.x w = x.toNat ∧ Opcode.y w = y.toNat
  | shiftLeft x, w => family w = 0x8 ∧ n w = 0xE ∧ Opcode.x w = x.toNat
  | skipNe x y, w =>
    family w = 0x9 ∧ n w = 0x0 ∧ Opcode.x w = x.toNat ∧ Opcode.y w = y.toNat
  | setIndex address, w => family w = 0xA ∧ nnn w = address.toNat
  | jumpBy address, w => family w = 0xB ∧ nnn w = address.toNat
  | random x kk, w => family w = 0xC ∧ Opcode.x w = x.toNat ∧ Opcode.kk w = kk.toNat
  | draw x y height, w =>
    family w = 0xD ∧ Opcode.x w = x.toNat ∧ Opcode.y w = y.toNat ∧ n w = height.toNat
  | skipPressed x, w => family w = 0xE ∧ kk w = 0x9E ∧ Opcode.x w = x.toNat
  | skipReleased x, w => family w = 0xE ∧ kk w = 0xA1 ∧ Opcode.x w = x.toNat
  | readDelay x, w => family w = 0xF ∧ kk w = 0x07 ∧ Opcode.x w = x.toNat
  | awaitKey x, w => family w = 0xF ∧ kk w = 0x0A ∧ Opcode.x w = x.toNat
  | setDelay x, w => family w = 0xF ∧ kk w = 0x15 ∧ Opcode.x w = x.toNat
  | setSound x, w => family w = 0xF ∧ kk w = 0x18 ∧ Opcode.x w = x.toNat
  | addIndex x, w => family w = 0xF ∧ kk w = 0x1E ∧ Opcode.x w = x.toNat
  | pointGlyph x, w => family w = 0xF ∧ kk w = 0x29 ∧ Opcode.x w = x.toNat
  | storeDecimal x, w => family w = 0xF ∧ kk w = 0x33 ∧ Opcode.x w = x.toNat
  | storeRegisters x, w => family w = 0xF ∧ kk w = 0x55 ∧ Opcode.x w = x.toNat
  | loadRegisters x, w => family w = 0xF ∧ kk w = 0x65 ∧ Opcode.x w = x.toNat

/-! ## Decoding reads the table -/

theorem spells_of_decode? {w : UInt16} {i : Instruction} (h : decode? w = some i) :
    i.Spells w := by
  -- One case for each row of the table: the family, then the digits that select in it.
  unfold decode? at h
  dsimp only at h
  split at h
  all_goals try split at h
  all_goals cases h
  all_goals simp only [Spells, Opcode.toNat_x, Opcode.toNat_y, Opcode.toNat_n, Opcode.toNat_kk,
    Opcode.toNat_nnn, and_self, and_true]
  any_goals assumption
  · exact Opcode.eq_of_family_zero ‹_› ‹_›
  · exact Opcode.eq_of_family_zero ‹_› ‹_›
  all_goals exact ⟨‹_›, ‹_›⟩

theorem decode?_of_spells {w : UInt16} {i : Instruction} (h : i.Spells w) :
    decode? w = some i := by
  cases i
  case clear => rw [show w = 0x00E0 from h]; decide
  case ret => rw [show w = 0x00EE from h]; decide
  all_goals
    simp only [Spells] at h
    simp only [decode?, h, UInt64.ofNat_toNat, UInt16.ofNat_toNat, UInt8.ofNat_toNat]

/-- Decoding a word gives the instruction that it spells. -/
theorem decode_eq_ok_iff {w : UInt16} {i : Instruction} : decode w = .ok i ↔ i.Spells w := by
  unfold decode
  constructor
  · intro h
    cases hd : decode? w with
    | none => rw [hd] at h; cases h
    | some j =>
      rw [hd] at h
      cases h
      exact spells_of_decode? hd
  · intro h
    rw [decode?_of_spells h]

/-- A word spells at most one instruction. -/
theorem Spells.unique {w : UInt16} {i j : Instruction} (hi : i.Spells w) (hj : j.Spells w) :
    i = j := by
  have h := (decode_eq_ok_iff.2 hi).symm.trans (decode_eq_ok_iff.2 hj)
  exact Except.ok.inj h

/-- Decoding fails on the words that spell nothing, and names the word. -/
theorem decode_eq_error_iff {w : UInt16} {fault : Fault} :
    decode w = .error fault ↔ (∀ i : Instruction, ¬i.Spells w) ∧ fault = .unknownOpcode w := by
  constructor
  · intro h
    refine ⟨fun i hi => ?_, ?_⟩
    · rw [decode_eq_ok_iff.2 hi] at h
      cases h
    · unfold decode at h
      cases hd : decode? w with
      | none => rw [hd] at h; cases h; rfl
      | some j => rw [hd] at h; cases h
  · rintro ⟨hno, rfl⟩
    unfold decode
    cases hd : decode? w with
    | none => rfl
    | some j => exact absurd (spells_of_decode? hd) (hno j)

/-! ## Operands -/

/-- The address that an instruction names lies below `0x1000` when a word spells it. -/
theorem Spells.encodable {w : UInt16} {i : Instruction} (h : i.Spells w) : i.Encodable := by
  have hx : ∀ x : UInt64, Opcode.x w = x.toNat → x < 16 := fun x he =>
    UInt64.lt_iff_toNat_lt.2 (he ▸ Opcode.x_lt w)
  have hy : ∀ y : UInt64, Opcode.y w = y.toNat → y < 16 := fun y he =>
    UInt64.lt_iff_toNat_lt.2 (he ▸ Opcode.y_lt w)
  have hn : ∀ k : UInt8, Opcode.n w = k.toNat → k < 16 := fun k he =>
    UInt8.lt_iff_toNat_lt.2 (he ▸ Opcode.n_lt w)
  have ha : ∀ a : UInt16, Opcode.nnn w = a.toNat → a < 0x1000 := fun a he =>
    UInt16.lt_iff_toNat_lt.2 (he ▸ Opcode.nnn_lt w)
  cases i <;> simp_all [Spells, Encodable, registers]

end Instruction

end Chip8VM
