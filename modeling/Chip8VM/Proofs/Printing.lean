import Chip8VM.Proofs.Transfers

/-!
# Printing a byte in decimal

A program prints a byte in four steps: `storeDecimal` writes its three decimal digits to memory,
`loadRegisters` takes them into the first three registers, `pointGlyph` points the index register at
the glyph of one of them, and `draw` draws it. Digits are below sixteen, so they all have a glyph,
and the font is at the bottom of memory at all times.

`Guest.Prints` says of a guest that the last two steps work. They do as long as the register still
holds its digit (`Guest.prints_of_register`), so the digits may be printed in any order, and a
program may do other things in between. `prints_decimal` puts the four steps together.
-/

namespace Chip8VM

/-! ## Digits in memory -/

/-- Bytes that were written and end in memory can be read back. -/
theorem Memory.window_overwrite (m : Memory) {start : Nat} {bytes : List UInt8}
    (h : start + bytes.length ≤ 4096) :
    (m.overwrite start bytes).window start bytes.length = bytes := by
  apply List.ext_getElem?
  intro k
  by_cases hk : k < bytes.length
  · rw [getElem?_window _ _ hk, byteAt_overwrite _ _ _ (by omega), if_pos (by omega),
      Nat.add_sub_cancel_left, List.getD_eq_getElem?_getD, List.getElem?_eq_getElem hk,
      Option.getD_some]
  · have hlen := length_window (m.overwrite start bytes) start bytes.length
    rw [List.getElem?_eq_none (by omega), List.getElem?_eq_none (by omega)]

namespace Instruction

variable {g : Guest}

/-- Digits are stored if they end in memory and start behind the font. -/
theorem execute_storeDecimal (hlow : 80 ≤ g.processor.i.toNat)
    (hend : g.processor.i.toNat + 3 ≤ 4096) (x : UInt64) :
    (storeDecimal x).execute g = (.ok (), { g with
      memory := g.memory.overwrite g.processor.i.toNat (Guest.decimal (g.register x)) }) := by
  have hlen : (Guest.decimal (g.register x)).length = 3 := rfl
  have haddress : g.processor.i.toUInt64.toNat = g.processor.i.toNat := UInt16.toNat_toUInt64 _
  rw [execute, Memory.store_eq _ _ _ (by omega), haddress, if_neg (by omega), if_neg (by omega)]
  rfl

/-- Three bytes are loaded into the first three registers. -/
theorem execute_loadRegisters_two {bytes : List UInt8}
    (hend : g.processor.i.toNat + 3 ≤ 4096) (h : g.memory.window g.processor.i.toNat 3 = bytes) :
    (loadRegisters 2).execute g =
      (.ok (), { g with processor := g.processor.setFirst bytes }) := by
  have hlast : (Register.ofOperand 2).val + 1 = 3 := rfl
  rw [execute_loadRegisters (by omega), hlast, h]

end Instruction

/-! ## Digits on the screen -/

namespace Guest

/-- Whether a command may write a register. -/
def Command.writes : Command → Register → Bool
  | .word fetched, r =>
    match Instruction.decode fetched with
    | .ok i => i.writes r
    | .error _ => false
  | .instruction i, r => i.writes r

/-- A register keeps its byte over commands that may not write it. -/
theorem register_obeyAll {commands : List Command} {r : Register}
    (h : ∀ command ∈ commands, command.writes r = false) (g : Guest) :
    (g.obeyAll commands).processor.v.get r = g.processor.v.get r := by
  induction commands generalizing g with
  | nil => rfl
  | cons command rest ih =>
    obtain ⟨hfirst, hrest⟩ := List.forall_mem_cons.1 h
    refine (ih hrest _).trans ?_
    cases command with
    | instruction i => exact Instruction.execute_register (i := i) hfirst g
    | word fetched =>
      simp only [Command.writes] at hfirst
      simp only [obey]
      cases hdecode : Instruction.decode fetched with
      | error fault => rfl
      | ok i =>
        rw [hdecode] at hfirst
        exact Instruction.execute_register hfirst _

/-- Whether a digit is printed from the register of an operand: pointing at its glyph succeeds and
makes the glyph readable, and drawing five rows then succeeds and flips the glyph, at whatever
column and row the program has in registers. -/
def Prints (g : Guest) (x : UInt64) (digit : UInt8) : Prop :=
  let pointed := (Instruction.pointGlyph x).execute g
  pointed.1 = .ok () ∧
    pointed.2.memory.slice pointed.2.processor.i.toUInt64 5 = .ok (Font.glyph digit.toNat) ∧
    ∀ a b : UInt64,
      let drawn := (Instruction.draw a b 5).execute pointed.2
      drawn.1 = .ok () ∧
        Font.Flips digit (g.register a) (g.register b) g.screen.frame drawn.2.screen.frame

/-- A digit is printed from a register that holds it. -/
theorem prints_of_register {g : Guest} (hfont : g.memory.HasFont) {x : UInt64} {digit : UInt8}
    (hdigit : digit.toNat < 16) (hx : g.register x = digit) : g.Prints x digit := by
  have hlast : digit &&& 0x0F = digit := by
    apply UInt8.toNat_inj.1
    rw [UInt8.toNat_and, show (0x0F : UInt8).toNat = 2 ^ 4 - 1 from rfl,
      Nat.and_two_pow_sub_one_eq_mod, Nat.mod_eq_of_lt hdigit]
  have hindex : ((Instruction.pointGlyph x).execute g).2.processor.i = Font.address digit := by
    rw [← hlast, ← hx]
    rfl
  refine ⟨rfl, hindex ▸ hfont.slice_glyph hdigit, fun a b => ?_⟩
  exact Instruction.execute_draw_glyph (g := ((Instruction.pointGlyph x).execute g).2) hfont hdigit
    hindex a b

end Guest

/-! ## The four steps -/

namespace Instruction

/-- A byte is printed in decimal. Its three digits, each at most nine, are written from the index
register on, which has to point behind the font and to three bytes of memory, and nothing else
changes. They are loaded into the first three registers, and again nothing else changes. From then
on each of them is printed as long as its register is not written, whatever the program does in
between, and whether or not it fails. -/
theorem prints_decimal (g : Guest) (x : UInt64) (hfont : g.memory.HasFont)
    (hlow : 80 ≤ g.processor.i.toNat) (hend : g.processor.i.toNat + 3 ≤ 4096) :
    let start := g.processor.i.toNat
    ∃ h t o : UInt8, (h.toNat ≤ 9 ∧ t.toNat ≤ 9 ∧ o.toNat ≤ 9) ∧
      100 * h.toNat + 10 * t.toNat + o.toNat = (g.register x).toNat ∧
      ∃ stored : Guest, (storeDecimal x).execute g = (.ok (), stored) ∧
        stored = { g with memory := stored.memory } ∧
        stored.memory.window start 3 = [h, t, o] ∧
        (∀ place, place < start ∨ start + 3 ≤ place →
          stored.memory.byteAt place = g.memory.byteAt place) ∧
        ∃ loaded : Guest, (loadRegisters 2).execute stored = (.ok (), loaded) ∧
          loaded = { stored with processor := { stored.processor with v := loaded.processor.v } } ∧
          (loaded.register 0 = h ∧ loaded.register 1 = t ∧ loaded.register 2 = o) ∧
          (∀ r : Register, 2 < r → loaded.processor.v.get r = g.processor.v.get r) ∧
          ∀ printed ∈ [((0 : UInt64), h), (1, t), (2, o)], ∀ between : List Guest.Command,
            (∀ command ∈ between, command.writes (.ofOperand printed.1) = false) →
            (loaded.obeyAll between).Prints printed.1 printed.2 := by
  intro start
  obtain ⟨h, t, o, hdigits, hh, ht, ho, hsum⟩ := Guest.decimal_eq (g.register x)
  have hlen : (Guest.decimal (g.register x)).length = 3 := rfl
  have hstored : (g.memory.overwrite start (Guest.decimal (g.register x))).window start 3 =
      [h, t, o] := by
    rw [← hdigits]
    exact g.memory.window_overwrite (by omega)
  have hget : ∀ r : Register, (g.processor.setFirst [h, t, o]).v.get r =
      [h, t, o][r.val]?.getD (g.processor.v.get r) := fun r => g.processor.get_setFirst r _
  refine ⟨h, t, o, ⟨hh, ht, ho⟩, hsum, _, execute_storeDecimal hlow hend x, rfl, hstored,
    fun place hout => ?_, _, execute_loadRegisters_two hend hstored, ?_,
    ⟨hget 0, hget 1, hget 2⟩, fun r hr => ?_, fun printed hprinted between hfree => ?_⟩
  · have hframe : (storeDecimal x).stores g.processor.i place = false := by
      simp only [stores, Bool.and_eq_false_iff, decide_eq_false_iff_not]
      omega
    have hkept := execute_byteAt hframe
    rwa [execute_storeDecimal hlow hend] at hkept
  · rw [Processor.setFirst]
  · refine (hget r).trans ?_
    rw [List.getElem?_eq_none (Nat.succ_le_of_lt hr), Option.getD_none]
  · have hholds : printed.2.toNat < 16 ∧
        [h, t, o][(Register.ofOperand printed.1).val]? = some printed.2 := by
      simp only [List.mem_cons, List.not_mem_nil, or_false] at hprinted
      rcases hprinted with rfl | rfl | rfl
      · exact ⟨Nat.lt_of_le_of_lt hh (by decide), rfl⟩
      · exact ⟨Nat.lt_of_le_of_lt ht (by decide), rfl⟩
      · exact ⟨Nat.lt_of_le_of_lt ho (by decide), rfl⟩
    refine Guest.prints_of_register (Guest.hasFont_obeyAll ?_ between) hholds.1 ?_
    · exact hfont.overwrite hlow _
    · refine (Guest.register_obeyAll hfree _).trans ((hget _).trans ?_)
      rw [hholds.2, Option.getD_some]

/-- A guest with a byte to print, whose index register points right behind the font. -/
def counting : Guest :=
  ((setIndex 0x50).execute ((Guest.powerOn (.start (Vector.replicate 8 0))).setRegister 3 207)).2

/-- The last digit of 207 is printed after the first was, and after the column moved on. -/
theorem prints_decimal_of_207 :
    counting.memory.HasFont ∧ 80 ≤ counting.processor.i.toNat ∧
      counting.processor.i.toNat + 3 ≤ 4096 ∧
      ∃ stored loaded : Guest,
        (storeDecimal 3).execute counting = (.ok (), stored) ∧
        stored.memory.window 80 3 = [2, 0, 7] ∧
        (loadRegisters 2).execute stored = (.ok (), loaded) ∧
        (loaded.obeyAll [.instruction (pointGlyph 0), .instruction (draw 3 4 5),
          .word 0x7305]).Prints 2 7 := by
  have hfont : counting.memory.HasFont := Memory.hasFont_powerOn
  have hlow : 80 ≤ counting.processor.i.toNat := by decide
  have hend : counting.processor.i.toNat + 3 ≤ 4096 := by decide
  have hvalue : (counting.register 3).toNat = 207 := by decide
  obtain ⟨h, t, o, ⟨hh, ht, ho⟩, hsum, stored, hstore, -, hwindow, -, loaded, hload, -, -, -,
    hprints⟩ := prints_decimal counting 3 hfont hlow hend
  rw [hvalue] at hsum
  obtain rfl : h = 2 := UInt8.toNat_inj.1 (show h.toNat = 2 by omega)
  obtain rfl : t = 0 := UInt8.toNat_inj.1 (show t.toNat = 0 by omega)
  obtain rfl : o = 7 := UInt8.toNat_inj.1 (show o.toNat = 7 by omega)
  refine ⟨hfont, hlow, hend, stored, loaded, hstore, hwindow, hload, ?_⟩
  exact hprints (2, 7) (by decide) _ (by decide)

end Instruction

end Chip8VM
