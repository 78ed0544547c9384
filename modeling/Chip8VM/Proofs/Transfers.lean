import Chip8VM.Proofs.Footprints

/-!
# Registers in memory

Two instructions move registers as a block between the processor and memory, the registers from
`V0` up to the one that the operand names, from the address in the index register on.
`Memory.Holds` says that a block of memory has the bytes of registers. Storing makes memory hold
the registers (`Memory.holds_overwrite`), loading takes the bytes of the block whatever was in the
registers before (`Processor.get_setFirst_window`), and memory that holds the registers already is
not changed by storing them (`Memory.overwrite_of_holds`).

`registers_round_trip` puts this together for both orders of the two instructions. The block may
lie anywhere behind the font, up to the last byte of memory.
-/

namespace Chip8VM

/-! ## Blocks of registers -/

/-- The registers up to one of them, as a list. -/
theorem Processor.getElem?_upTo (p : Processor) (last r : Register) :
    (p.upTo last)[r.val]? = if r ≤ last then some (p.v.get r) else none := by
  have hget : p.v.toList[r.val]? = some (p.v.get r) := by
    rw [Vector.getElem?_toList, Vector.getElem?_eq_getElem r.isLt]
    rfl
  rw [upTo, List.getElem?_take, hget]
  exact if_congr Nat.lt_succ_iff rfl rfl

/-- Registers that are loaded from a block of memory are the bytes of the block, and the registers
behind the block keep what they held. -/
theorem Processor.get_setFirst_window (p : Processor) (m : Memory) (place : Nat)
    (last r : Register) :
    (p.setFirst (m.window place (last.val + 1))).v.get r =
      if r ≤ last then m.byteAt (place + r.val) else p.v.get r := by
  rw [get_setFirst]
  split
  · rename_i hle
    rw [Memory.getElem?_window _ _ (Nat.lt_succ_of_le hle), Option.getD_some]
  · rename_i hgt
    have hlen := Memory.length_window m place (last.val + 1)
    rw [List.getElem?_eq_none (by simpa [hlen] using hgt), Option.getD_none]

namespace Memory

/-- Whether the bytes from a place on are the registers up to the last one. -/
def Holds (m : Memory) (place : Nat) (v : Vector UInt8 16) (last : Register) : Prop :=
  ∀ r ≤ last, m.byteAt (place + r.val) = v.get r

variable {m : Memory} {place : Nat} {p : Processor} {x : UInt64}

/-- A place in a block of registers, and the byte that is written to it. -/
theorem byteAt_overwrite_upTo {k : Nat} (hk : k < 4096) :
    (m.overwrite place (p.upTo (.ofOperand x))).byteAt k =
      if place ≤ k ∧ k ≤ place + (Register.ofOperand x).val then
        (p.upTo (.ofOperand x)).getD (k - place) 0
      else m.byteAt k := by
  rw [byteAt_overwrite _ _ _ hk, Instruction.length_upTo]
  exact if_congr (and_congr_right' Nat.lt_succ_iff) rfl rfl

/-- Memory holds the registers that were written to it. -/
theorem holds_overwrite (hend : place + (Register.ofOperand x).val + 1 ≤ 4096) :
    (m.overwrite place (p.upTo (.ofOperand x))).Holds place p.v (.ofOperand x) := by
  intro r hr
  have hle : r.val ≤ (Register.ofOperand x).val := hr
  rw [byteAt_overwrite_upTo (by omega), if_pos (by omega), Nat.add_sub_cancel_left,
    List.getD_eq_getElem?_getD, p.getElem?_upTo, if_pos hr, Option.getD_some]

/-- Memory that holds registers stays as it is when they are written to it. -/
theorem overwrite_of_holds (h : m.Holds place p.v (.ofOperand x)) :
    m.overwrite place (p.upTo (.ofOperand x)) = m := by
  ext k hk
  rw [byteAt_overwrite_upTo hk]
  split
  · rename_i hin
    have hlast := (Register.ofOperand x).isLt
    obtain ⟨d, rfl⟩ := Nat.exists_eq_add_of_le hin.1
    let r : Register := ⟨d, by omega⟩
    have hr : r ≤ .ofOperand x := Nat.le_of_add_le_add_left hin.2
    rw [Nat.add_sub_cancel_left, List.getD_eq_getElem?_getD, p.getElem?_upTo _ r, if_pos hr,
      Option.getD_some, h r hr]
  · rfl

end Memory

/-! ## The two instructions -/

namespace Instruction

variable {g : Guest} {x : UInt64}

/-- Registers are stored if the block ends in memory and starts behind the font. -/
theorem execute_storeRegisters (hlow : 80 ≤ g.processor.i.toNat)
    (hend : g.processor.i.toNat + (Register.ofOperand x).val + 1 ≤ 4096) :
    (storeRegisters x).execute g = (.ok (), { g with
      memory := g.memory.overwrite g.processor.i.toNat (g.processor.upTo (.ofOperand x)) }) := by
  have hlast : (Register.ofOperand x).val = x.toNat % 16 := rfl
  have hlen := length_upTo g.processor x
  have haddress : g.processor.i.toUInt64.toNat = g.processor.i.toNat := UInt16.toNat_toUInt64 _
  rw [execute, Memory.store_eq _ _ _ (by omega), haddress, if_neg (by omega), if_neg (by omega)]
  rfl

/-- Registers are loaded if the block ends in memory. -/
theorem execute_loadRegisters
    (hend : g.processor.i.toNat + (Register.ofOperand x).val + 1 ≤ 4096) :
    (loadRegisters x).execute g = (.ok (), { g with
      processor := g.processor.setFirst
        (g.memory.window g.processor.i.toNat ((Register.ofOperand x).val + 1)) }) := by
  have hlast : (Register.ofOperand x).val = x.toNat % 16 := rfl
  have haddress : g.processor.i.toUInt64.toNat = g.processor.i.toNat := UInt16.toNat_toUInt64 _
  rw [execute, Memory.slice_eq, haddress, toNat_and_digit_succ, if_pos (by omega)]
  rfl

/-- A guest whose memory holds its registers stays as it is when they are stored. -/
theorem execute_storeRegisters_of_holds (hlow : 80 ≤ g.processor.i.toNat)
    (hend : g.processor.i.toNat + (Register.ofOperand x).val + 1 ≤ 4096)
    (h : g.memory.Holds g.processor.i.toNat g.processor.v (.ofOperand x)) :
    (storeRegisters x).execute g = (.ok (), g) := by
  rw [execute_storeRegisters hlow hend, Memory.overwrite_of_holds h]

/-! ## Round trips -/

/-- Storing writes the registers up to the operand's to the bytes from the index register on and
changes nothing else. Wherever these bytes are still the same and the index register is, loading
puts the stored values back into the same registers and changes nothing else. The other way round,
storing what was loaded before changes nothing. -/
theorem registers_round_trip (g : Guest) (x : UInt64) (hlow : 80 ≤ g.processor.i.toNat)
    (hend : g.processor.i.toNat + (Register.ofOperand x).val + 1 ≤ 4096) :
    let start := g.processor.i.toNat
    let last := Register.ofOperand x
    (∃ stored : Memory, (storeRegisters x).execute g = (.ok (), { g with memory := stored }) ∧
      (∀ r ≤ last, stored.byteAt (start + r.val) = g.processor.v.get r) ∧
      (∀ place, place < start ∨ start + last.val < place →
        stored.byteAt place = g.memory.byteAt place) ∧
      ∀ h : Guest, h.processor.i = g.processor.i →
        (∀ r ≤ last, h.memory.byteAt (start + r.val) = stored.byteAt (start + r.val)) →
        ∃ v, (loadRegisters x).execute h =
            (.ok (), { h with processor := { h.processor with v := v } }) ∧
          ∀ r, v.get r = if r ≤ last then g.processor.v.get r else h.processor.v.get r) ∧
    ∃ loaded : Guest, (loadRegisters x).execute g = (.ok (), loaded) ∧
      loaded.processor.i = g.processor.i ∧ loaded.memory = g.memory ∧
      (storeRegisters x).execute loaded = (.ok (), loaded) := by
  intro start last
  constructor
  · have hholds := Memory.holds_overwrite (m := g.memory) (p := g.processor) hend
    refine ⟨_, execute_storeRegisters hlow hend, hholds, fun place hout => ?_, ?_⟩
    · have hframe : (storeRegisters x).stores g.processor.i place = false := by
        have hlast : last.val = x.toNat % 16 := rfl
        simp only [stores, Bool.and_eq_false_iff, decide_eq_false_iff_not]
        omega
      have hkept := execute_byteAt hframe
      rwa [execute_storeRegisters hlow hend] at hkept
    · intro h hindex hagree
      rw [← hindex] at hend
      refine ⟨(h.processor.setFirst (h.memory.window h.processor.i.toNat (last.val + 1))).v,
        execute_loadRegisters hend, fun r => ?_⟩
      rw [Processor.get_setFirst_window, hindex]
      exact if_ctx_congr Iff.rfl (fun hr => (hagree r hr).trans (hholds r hr)) fun _ => rfl
  · refine ⟨_, execute_loadRegisters hend, Processor.setFirst_i _ _, rfl, ?_⟩
    refine execute_storeRegisters_of_holds (by rwa [Processor.setFirst_i])
      (by rwa [Processor.setFirst_i]) fun r hr => ?_
    rw [Processor.get_setFirst_window, if_pos hr, Processor.setFirst_i]

/-- A guest with a seven in the last register and the last sixteen bytes of memory as its block. -/
def markedAtEnd : Guest := ((setIndex 0xFF0).execute marked).2

/-- All registers fit behind each other at the very end of memory. -/
theorem registers_round_trip_at_end :
    80 ≤ markedAtEnd.processor.i.toNat ∧
      markedAtEnd.processor.i.toNat + (Register.ofOperand 0x2F).val + 1 ≤ 4096 ∧
      (∃ stored : Memory,
        (storeRegisters 0x2F).execute markedAtEnd =
          (.ok (), { markedAtEnd with memory := stored }) ∧
        stored.byteAt 4095 = 7 ∧ stored.byteAt 0xFEF = 0) ∧
      ∃ loaded : Guest, (loadRegisters 0x2F).execute markedAtEnd = (.ok (), loaded) ∧
        (storeRegisters 0x2F).execute loaded = (.ok (), loaded) := by
  have hlow : 80 ≤ markedAtEnd.processor.i.toNat := by decide
  have hend : markedAtEnd.processor.i.toNat + (Register.ofOperand 0x2F).val + 1 ≤ 4096 := by decide
  obtain ⟨⟨stored, hstore, hholds, hframe, -⟩, loaded, hload, -, -, hkeep⟩ :=
    registers_round_trip markedAtEnd 0x2F hlow hend
  refine ⟨hlow, hend, ⟨stored, hstore, ?_, ?_⟩, loaded, hload, hkeep⟩
  · exact (hholds 15 (by decide)).trans (by decide)
  · exact (hframe 0xFEF (Or.inl (by decide))).trans (by decide +kernel)

end Instruction

end Chip8VM
