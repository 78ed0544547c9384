import Chip8VM.Proofs.StaleStack
import Chip8VM.Proofs.Sprites

/-!
# The font stays readable

The bottom of memory holds the font at power-on, and no write that is let through starts
there. So an instruction keeps it (`Instruction.execute_hasFont`), and with that every guest
and every machine does, whatever they are given to do (`Guest.hasFont_obeyAll`,
`Machine.Reachable.hasFont`).

Behind an instruction `pointGlyph` the index register therefore points at the rows of a
digit's glyph until an instruction moves it, and a sprite of five rows that is drawn
meanwhile is this glyph. `font_stays_readable` puts this together.
-/

namespace Chip8VM

namespace Memory

/-! ## The bottom of memory -/

theorem drop_window (m : Memory) (start count k : Nat) :
    (m.window start count).drop k = m.window (start + k) (count - k) := by
  apply List.ext_getElem
  · simp [length_window]
  · intro j _ _
    simp [window, Nat.add_assoc]

theorem take_window (m : Memory) (start count : Nat) {k : Nat} (h : k ≤ count) :
    (m.window start count).take k = m.window start k := by
  apply List.ext_getElem
  · simp [length_window, h]
  · intro j _ _
    simp [window]

/-- Whether the bottom of memory holds the font. -/
def HasFont (m : Memory) : Prop := m.window 0 80 = Font.sheet

theorem hasFont_iff {m : Memory} :
    m.HasFont ↔ ∀ place < 80, m.byteAt place = Font.sheet.getD place 0 := by
  unfold HasFont
  constructor
  · intro h place hplace
    have hget := getElem?_window m 0 hplace
    rw [h, Nat.zero_add] at hget
    rw [List.getD_eq_getElem?_getD, hget, Option.getD_some]
  · intro h
    apply List.ext_getElem (length_window m 0 80)
    intro place hplace hsheet
    rw [length_window] at hplace
    have hbyte := h place hplace
    rw [List.getD_eq_getElem?_getD, List.getElem?_eq_getElem hsheet, Option.getD_some] at hbyte
    simp [window, hbyte]

/-- Bytes written behind the font leave it alone. -/
theorem HasFont.overwrite {m : Memory} (h : m.HasFont) {start : Nat} (hstart : 80 ≤ start)
    (bytes : List UInt8) : (m.overwrite start bytes).HasFont := by
  rw [hasFont_iff] at h ⊢
  intro place hplace
  rw [byteAt_overwrite _ _ _ (by omega), if_neg (by omega)]
  exact h place hplace

/-- A write that is let through leaves the font alone. -/
theorem HasFont.store {m m' : Memory} (h : m.HasFont) {address : UInt64} {bytes : List UInt8}
    (hlen : bytes.length < 2 ^ 64) (hok : m.store address bytes = .ok m') : m'.HasFont := by
  rw [store_eq _ _ _ hlen] at hok
  split at hok
  · cases hok
  · split at hok
    · cases hok
    · rename_i hfont
      obtain rfl := Except.ok.inj hok
      by_cases hnil : bytes = []
      · rw [hnil]
        exact h
      · exact h.overwrite (Nat.not_lt.1 fun hlow => hfont ⟨hnil, hlow⟩) bytes

theorem hasFont_powerOn : powerOn.HasFont := by
  rw [hasFont_iff]
  intro place hplace
  rw [byteAt_powerOn (by omega), if_pos hplace]

theorem hasFont_of_loadProgram {program : List UInt8} {memory : Memory}
    (hload : powerOn.loadProgram program = .ok memory) : memory.HasFont := by
  rw [loadProgram_eq] at hload
  split at hload
  · cases hload
  · obtain rfl := Except.ok.inj hload
    exact hasFont_powerOn.overwrite (by decide) program

/-- The rows of a digit's glyph can be read where the font has them. -/
theorem HasFont.slice_glyph {m : Memory} (h : m.HasFont) {digit : UInt8}
    (hdigit : digit.toNat < 16) :
    m.slice (Font.address digit).toUInt64 5 = .ok (Font.glyph digit.toNat) := by
  have haddress : (Font.address digit).toUInt64.toNat = 5 * digit.toNat := by
    rw [UInt16.toNat_toUInt64, Font.address, UInt16.toNat_mul, UInt8.toNat_toUInt16,
      show (5 : UInt16).toNat = 5 from rfl]
    omega
  have hglyph : m.window (5 * digit.toNat) 5 = Font.glyph digit.toNat := by
    have hsheet : m.window 0 80 = Font.sheet := h
    have hheight : Font.glyphHeight = 5 := rfl
    rw [Font.glyph, ← hsheet, drop_window, Nat.zero_add, hheight, take_window _ _ _ (by omega)]
  rw [slice_eq, haddress, show (5 : UInt64).toNat = 5 from rfl, if_pos (by omega), hglyph]

end Memory

/-! ## Guests -/

theorem Processor.setFirst_i (p : Processor) (bytes : List UInt8) : (p.setFirst bytes).i = p.i := by
  rw [setFirst]

namespace Instruction

/-- Whether an instruction writes memory. -/
def writesMemory : Instruction → Bool
  | storeDecimal _ | storeRegisters _ => true
  | _ => false

/-- Every other instruction leaves memory alone. -/
theorem execute_memory {i : Instruction} (hi : i.writesMemory = false) (g : Guest) :
    (i.execute g).2.memory = g.memory := by
  cases i
  case storeDecimal | storeRegisters => cases hi
  case ret | call | draw | loadRegisters =>
    exact Guest.attempt_snd_frame Guest.memory fun _ => rfl
  all_goals rfl

/-- An instruction keeps the font. -/
theorem execute_hasFont {g : Guest} (h : g.memory.HasFont) (i : Instruction) :
    (i.execute g).2.memory.HasFont := by
  have hstore : ∀ {address : UInt64} {bytes : List UInt8}, bytes.length < 2 ^ 64 →
      (g.attempt (g.memory.store address bytes) fun memory =>
        { g with memory := memory }).2.memory.HasFont := by
    intro address bytes hlen
    cases hok : g.memory.store address bytes with
    | error fault => exact h
    | ok memory => exact h.store hlen hok
  by_cases hi : i.writesMemory = false
  · rw [execute_memory hi]
    exact h
  · cases i
    case storeDecimal x => exact hstore (by simp [Guest.decimal])
    case storeRegisters x =>
      have hlt := digit_lt x
      exact hstore (by rw [length_upTo]; omega)
    all_goals exact absurd rfl hi

/-- Whether an instruction moves the index register. -/
def setsIndex : Instruction → Bool
  | setIndex _ | addIndex _ | pointGlyph _ => true
  | _ => false

/-- Every other instruction leaves the index register alone. -/
theorem execute_index {i : Instruction} (hi : i.setsIndex = false) (g : Guest) :
    (i.execute g).2.processor.i = g.processor.i := by
  have hskip : ∀ c : Bool, (g.skipIf c).processor.i = g.processor.i := by
    intro c
    cases c <;> rfl
  cases i
  case setIndex | addIndex | pointGlyph => cases hi
  case ret =>
    by_cases hsp : g.processor.sp = 0
    · rw [execute_ret_of_empty hsp]
    · rw [execute_ret hsp]
  case call =>
    by_cases hsp : g.processor.sp.toNat < 16
    · rw [execute_call hsp]
    · rw [execute_call_of_full hsp]
  case draw | storeDecimal | storeRegisters =>
    exact Guest.attempt_snd_frame (fun g => g.processor.i) fun _ => rfl
  case loadRegisters =>
    -- With `rfl` alone all sixteen registers would be unfolded first.
    exact Guest.attempt_snd_frame (fun g => g.processor.i) fun _ => Processor.setFirst_i _ _
  case skipEqByte | skipNeByte | skipEq | skipNe | skipPressed | skipReleased => exact hskip _
  all_goals rfl

end Instruction

namespace Guest

/-- What a guest can be given to do. -/
inductive Command where
  /-- A word that was fetched, which is decoded and executed. -/
  | word (word : UInt16)
  /-- An instruction, whether or not a word spells it. -/
  | instruction (i : Instruction)

/-- What comes of a command. The program counter moves past a word before it is decoded. -/
def obey (g : Guest) : Command → Outcome
  | .word word =>
    let ahead := { g with processor := g.processor.skip }
    match Instruction.decode word with
    | .error fault => (.error fault, ahead)
    | .ok i => i.execute ahead
  | .instruction i => i.execute g

/-- The guest after commands, whether or not they fail. -/
def obeyAll (g : Guest) (commands : List Command) : Guest :=
  commands.foldl (fun g command => (g.obey command).2) g

theorem hasFont_obey {g : Guest} (h : g.memory.HasFont) (command : Command) :
    (g.obey command).2.memory.HasFont := by
  cases command with
  | word word =>
    simp only [obey]
    split
    · exact h
    · exact Instruction.execute_hasFont (g := { g with processor := g.processor.skip }) h _
  | instruction i => exact Instruction.execute_hasFont h i

theorem hasFont_obeyAll {g : Guest} (h : g.memory.HasFont) (commands : List Command) :
    (g.obeyAll commands).memory.HasFont := by
  induction commands generalizing g with
  | nil => exact h
  | cons command rest ih => exact ih (hasFont_obey h command)

end Guest

/-! ## Glyphs on the screen -/

namespace Font

/-- Whether the glyph of a digit, drawn to column `x` of row `y`, has a set bit over a pixel. -/
def Inks (digit x y : UInt8) (c : Fin 64) (r : Fin 32) : Prop :=
  ∃ k < 5, ∃ b < 8, r.val = (y.toNat + k) % 32 ∧ c.val = (x.toNat + b) % 64 ∧
    ((glyph digit.toNat).getD k 0).toNat.testBit (7 - b) = true

instance (digit x y : UInt8) (c : Fin 64) (r : Fin 32) : Decidable (Inks digit x y c r) :=
  inferInstanceAs (Decidable (∃ k < 5, ∃ b < 8, _ ∧ _ ∧ _))

/-- Whether a frame is another one with the glyph of a digit flipped at column `x` of row `y`. -/
def Flips (digit x y : UInt8) (before after : Frame) : Prop :=
  ∀ c r, after.lit c r = (before.lit c r ^^ decide (Inks digit x y c r))

theorem strikes_glyph {digit : UInt8} (hdigit : digit.toNat < 16) (x y : UInt8) (c : Fin 64)
    (r : Fin 32) :
    Frame.strikes x.toUInt64 y.toUInt64 c r (glyph digit.toNat) =
      if Inks digit x y c r then 1 else 0 := by
  have hlen : (glyph digit.toNat).length = 5 := length_glyph _ hdigit
  rw [Frame.strikes_eq _ _ _ (by omega), hlen]
  refine if_congr ?_ rfl rfl
  simp only [Frame.covers_iff, UInt8.toNat_toUInt64]
  constructor
  · rintro ⟨k, hk, hrow, b, hb, hcolumn, hset⟩
    exact ⟨k, hk, b, hb, hrow, hcolumn, hset⟩
  · rintro ⟨k, hk, b, hb, hrow, hcolumn, hset⟩
    exact ⟨k, hk, hrow, b, hb, hcolumn, hset⟩

end Font

/-- Where the index register points at a glyph, drawing five rows flips this glyph. -/
theorem Instruction.execute_draw_glyph {g : Guest} (h : g.memory.HasFont) {digit : UInt8}
    (hdigit : digit.toNat < 16) (hindex : g.processor.i = Font.address digit) (a b : UInt64) :
    ((draw a b 5).execute g).1 = .ok () ∧
      Font.Flips digit (g.register a) (g.register b) g.screen.frame
        ((draw a b 5).execute g).2.screen.frame := by
  have hexec : (draw a b 5).execute g = (.ok (), g.drawSprite a b (Font.glyph digit.toNat)) := by
    rw [execute, hindex, show (5 : UInt8).toUInt64 = 5 from rfl, h.slice_glyph hdigit]
    rfl
  rw [hexec]
  refine ⟨rfl, ?_⟩
  intro c r
  have hlit := g.screen.lit_drawSprite (g.register a).toUInt64 (g.register b).toUInt64
    (Font.glyph digit.toNat) c r
  rw [Font.strikes_glyph hdigit] at hlit
  refine hlit.trans (congrArg _ ?_)
  split
  · rename_i hinks
    rw [decide_eq_true hinks]
    rfl
  · rename_i hinks
    rw [decide_eq_false hinks]
    rfl

/-! ## Machines -/

namespace Machine

theorem cycle_hasFont {m : Machine} (h : m.guest.memory.HasFont) :
    m.cycle.machine.guest.memory.HasFont := by
  rcases m.completed_cases with ⟨-, pc, hmachine⟩ | ⟨i, hi⟩
  · rw [hmachine]
    exact h
  · rw [hi.guest]
    exact Instruction.execute_hasFont (g := m.ahead) h i

theorem serve_hasFont {m : Machine} (h : m.guest.memory.HasFont) (request : Request) :
    (m.serve request).machine.guest.memory.HasFont := by
  cases m.served request with
  | startedOver _ _ hload hmachine =>
    rw [hmachine]
    exact Memory.hasFont_of_loadProgram hload
  | emptied _ hmachine =>
    rw [hmachine]
    exact Memory.hasFont_powerOn
  | touched _ _ _ _ _ hmachine =>
    rw [hmachine]
    exact h
  | cycle => exact cycle_hasFont h
  | run n =>
    exact run_invariant (P := fun m => m.guest.memory.HasFont) (fun _ h => cycle_hasFont h) h
      n.toNat

/-- The font is at the bottom of memory at all times. -/
theorem Reachable.hasFont {m : Machine} (h : Reachable m) : m.guest.memory.HasFont := by
  refine h.induction (P := fun m => m.guest.memory.HasFont) ?_ ?_
  · intro settings supply
    exact Memory.hasFont_powerOn
  · intro m request hm
    exact serve_hasFont hm request

/-- A machine completes the instruction at its program counter if it has no fault. -/
theorem completes_of_spells {m : Machine} (hwait : m.isWaiting = false)
    (hpc : m.guest.processor.pc.toNat + 1 ≤ 4095) {i : Instruction} (hi : i.Spells m.word)
    (hok : i.fault? m.ahead = none) : m.Completes i := by
  have hresult := cycle_result_of_spells hwait hpc hi
  rw [hok] at hresult
  obtain ⟨c, hc⟩ := Option.isSome_iff_exists.1 (m.completed_isSome_iff.2 ⟨hwait, hresult⟩)
  obtain ⟨j, hj, -⟩ := completes_of_completed hc
  exact hi.unique hj.spells ▸ hj

/-- Whether the index register is where it was at `start`, unless one of the cycles completed
since moved it. -/
def IndexKept (start m : Machine) (done : List Completed) : Prop :=
  (∀ c ∈ done, c.instruction.setsIndex = false) →
    m.guest.processor.i = start.guest.processor.i

theorem IndexKept.cycle {start m : Machine} {done : List Completed} (h : start.IndexKept m done) :
    start.IndexKept m.cycle.machine (done ++ m.completed.toList) := by
  intro hfree
  rcases m.completed_cases with ⟨hnone, pc, hmachine⟩ | ⟨i, hi⟩
  · rw [hnone, Option.toList_none, List.append_nil] at hfree
    rw [hmachine]
    exact h hfree
  · rw [hi.completed, Option.toList_some] at hfree
    have hbefore := h fun c hc => hfree c (List.mem_append_left _ hc)
    have hlast : i.setsIndex = false := hfree _ (List.mem_append_right _ List.mem_cons_self)
    obtain ⟨delay, sound, hguest⟩ := hi.exists_timers
    rw [hguest]
    exact (Instruction.execute_index hlast m.ahead).trans hbefore

/-- Over a stretch the index register stays where it is until an instruction moves it. -/
theorem Sound.indexKept {start : Machine} (h : start.Sound) {stretch : List Request}
    (hstretch : start.Uninterrupted stretch) :
    start.IndexKept (start.serveAll stretch) (start.completedIn stretch) :=
  stretch_invariant (P := start.IndexKept) (fun _ _ h => h.cycle) (fun _ _ _ _ _ h => h) h hstretch
    (show start.IndexKept start [] from fun _ => rfl)

/-- After an instruction `pointGlyph` the index register points at the glyph of a digit. -/
theorem index_of_pointGlyph {m : Machine} {address : UInt16} {x : UInt64} {ticked : Bool}
    (h : m.completed = some ⟨address, .pointGlyph x, ticked⟩) :
    m.cycle.machine.guest.processor.i = Font.address (m.guest.register x &&& 0x0F) := by
  obtain ⟨i, hi, heq⟩ := completes_of_completed h
  obtain rfl : Instruction.pointGlyph x = i := congrArg Completed.instruction heq
  obtain ⟨delay, sound, hguest⟩ := hi.exists_timers
  rw [hguest]
  rfl

/-- The font is at the bottom of memory at all times, whatever is asked of a machine and
whatever instructions a guest is given. An instruction `pointGlyph` therefore makes the five
bytes at the index register the glyph of the last digit of its register. They stay so until
an instruction moves the index register or the machine is started over, and in this time an
instruction that draws five rows does not fail and flips exactly this glyph, on its own as
well as when it is the next that the machine comes to. -/
theorem font_stays_readable :
    (∀ m : Machine, Reachable m → m.guest.memory.HasFont) ∧
    (∀ (random : Random.Stream) (commands : List Guest.Command),
      ((Guest.powerOn random).obeyAll commands).memory.HasFont) ∧
    ∀ (m : Machine) (address : UInt16) (x : UInt64) (ticked : Bool) (stretch : List Request),
      Reachable m → m.completed = some ⟨address, .pointGlyph x, ticked⟩ →
      m.cycle.machine.Uninterrupted stretch →
      (∀ c ∈ m.cycle.machine.completedIn stretch, c.instruction.setsIndex = false) →
      let digit := m.guest.register x &&& 0x0F
      let now := m.cycle.machine.serveAll stretch
      now.guest.memory.slice now.guest.processor.i.toUInt64 5 = .ok (Font.glyph digit.toNat) ∧
        ∀ a b : UInt64,
          let drawn := (Instruction.draw a b 5).execute now.guest
          let column := now.guest.register a
          let row := now.guest.register b
          drawn.1 = .ok () ∧ Font.Flips digit column row now.frame drawn.2.screen.frame ∧
            (now.isWaiting = false → now.guest.processor.pc.toNat + 1 ≤ 4095 →
              (Instruction.draw a b 5).Spells now.word →
              now.cycle.result = .ok () ∧
                Font.Flips digit column row now.frame now.cycle.machine.frame) := by
  refine ⟨fun m hm => hm.hasFont, fun random commands => ?_, ?_⟩
  · exact Guest.hasFont_obeyAll (g := .powerOn random) Memory.hasFont_powerOn commands
  · intro m address x ticked stretch hm hpoint hstretch hfree digit now
    have hfont : now.guest.memory.HasFont := ((hm.serve .cycle).serveAll stretch).hasFont
    have hdigit : digit.toNat < 16 := by
      rw [UInt8.toNat_and, show (0x0F : UInt8).toNat = 2 ^ 4 - 1 from rfl,
        Nat.and_two_pow_sub_one_eq_mod]
      exact Nat.mod_lt _ (by decide)
    have hindex : now.guest.processor.i = Font.address digit :=
      (hm.sound.cycle.indexKept hstretch hfree).trans (index_of_pointGlyph hpoint)
    refine ⟨hindex ▸ hfont.slice_glyph hdigit, ?_⟩
    intro a b
    obtain ⟨hok, hflips⟩ := Instruction.execute_draw_glyph hfont hdigit hindex a b
    refine ⟨hok, hflips, ?_⟩
    intro hwait hpc hspells
    -- The cycle executes the instruction on a guest that differs in the program counter only.
    obtain ⟨hok, hflips⟩ := Instruction.execute_draw_glyph (g := now.ahead) hfont hdigit hindex a b
    have hnone : (Instruction.draw a b 5).fault? now.ahead = none := by
      rw [Instruction.execute_fst] at hok
      cases hfault : (Instruction.draw a b 5).fault? now.ahead with
      | none => rfl
      | some fault =>
        rw [hfault] at hok
        cases hok
    have hcompletes := completes_of_spells hwait hpc hspells hnone
    refine ⟨hcompletes.result, ?_⟩
    rw [frame, frame, hcompletes.guest]
    exact hflips

/-- A program that points at the glyph of the last digit of `5B` and draws it, after it failed
to write over the font. -/
def printingProgram : List UInt8 := [0xF0, 0x33, 0x60, 0x5B, 0xF0, 0x29, 0x61, 0x3E, 0xD1, 0x15]

/-- A machine with this program that points at the glyph next. -/
def printing : Machine :=
  (powerOn ⟨1, some 8⟩ idleSupply).serveAll [.load printingProgram, .cycle, .cycle]

set_option maxRecDepth 100000 in
/-- The machine points at the rows of the digit `B` and draws them around the right edge. -/
theorem font_stays_readable_of_eleven :
    Reachable printing ∧
      (printing.cycle.machine.serveAll [.run 1, .takeFrame]).guest.memory.slice 55 5 =
        .ok [0xE0, 0x90, 0xE0, 0x90, 0xE0] ∧
      let now := printing.cycle.machine.serveAll [.run 1, .takeFrame]
      now.cycle.result = .ok () ∧ Font.Flips 0xB 62 62 now.frame now.cycle.machine.frame := by
  have hreach : Reachable printing := (reachable_powerOn _ _).serveAll _
  obtain ⟨hpoint, hfree, hregister, hindex, hplace, hwait, hpc, hword⟩ :
      printing.completed = some ⟨0x204, .pointGlyph 0, true⟩ ∧
        (∀ c ∈ printing.cycle.machine.completedIn [.run 1, .takeFrame],
          c.instruction.setsIndex = false) ∧
        printing.guest.register 0 &&& 0x0F = 0xB ∧
        (printing.cycle.machine.serveAll [.run 1, .takeFrame]).guest.processor.i = 55 ∧
        (printing.cycle.machine.serveAll [.run 1, .takeFrame]).guest.register 1 = 62 ∧
        (printing.cycle.machine.serveAll [.run 1, .takeFrame]).isWaiting = false ∧
        (printing.cycle.machine.serveAll [.run 1, .takeFrame]).guest.processor.pc = 0x208 ∧
        (printing.cycle.machine.serveAll [.run 1, .takeFrame]).word = 0xD115 := by decide +kernel
  obtain ⟨-, -, hglyph⟩ := font_stays_readable
  obtain ⟨hslice, hdraws⟩ := hglyph printing 0x204 0 true [.run 1, .takeFrame] hreach hpoint
    ⟨rfl, rfl, trivial⟩ hfree
  obtain ⟨-, -, hcycle⟩ := hdraws 1 1
  rw [hindex, hregister] at hslice
  rw [hregister, hplace, hpc, hword] at hcycle
  exact ⟨hreach, hslice, hcycle hwait (by decide) ⟨rfl, rfl, rfl, rfl⟩⟩

end Machine

end Chip8VM
