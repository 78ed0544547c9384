import Chip8VM.Machine.Record
import Chip8VM.Processor
import Mathlib

/-!
# Reading assembler text

The text of an instruction tells the instruction. It falls into words at blanks and commas
(`words`), which are the keyword and the operands (`words_mnemonic`). A word tells the operand that
was written, except whether a number was a byte, an address or a height (`Operand.ofWord_text`);
that follows from the keyword and the place of the number. So a reader for one line of text gives
every instruction back (`ofWords?_mnemonic`), and no two instructions share their text.

In the log the text stands between other columns and is filled up with blanks. These add no words,
so a trace tells its instruction as well. `mnemonic_unambiguous` puts this together.
-/

namespace Chip8VM

namespace Hex

/-- A padded number has no characters but digits. -/
theorem forall_mem_padded {P : Char → Prop} (h : ∀ d < 16, P (digit d)) (width n : Nat) :
    ∀ c ∈ padded width n, P c := by
  have hdigits : ∀ c ∈ digits n, P c := by
    fun_induction digits n with
    | case1 n hlt => simpa using h n hlt
    | case2 n hge ih =>
      intro c hc
      rcases List.mem_append.1 hc with hc | hc
      · exact ih c hc
      · exact List.mem_singleton.1 hc ▸ h _ (Nat.mod_lt _ (by decide))
  intro c hc
  rcases List.mem_append.1 hc with hc | hc
  · exact (List.mem_replicate.1 hc).2 ▸ h 0 (by decide)
  · exact hdigits c hc

theorem padded_ne_nil (width n : Nat) : padded width n ≠ [] := by
  have hdigits : digits n ≠ [] := by
    rw [digits]
    split <;> simp
  simp [padded, hdigits]

end Hex

namespace Instruction

/-! ## Words -/

/-- Whether a character stands between words. -/
def parts (c : Char) : Bool := c == ' ' || c == ','

/-- The words of a text. -/
def words (text : List Char) : List (List Char) :=
  (text.splitOnP parts).filter (· ≠ [])

theorem words_nil : words [] = [] := rfl

/-- A character between words parts the words before it from those behind it. -/
theorem words_append_cons {c : Char} (hc : parts c = true) (before after : List Char) :
    words (before ++ c :: after) = words before ++ words after := by
  rw [words, List.splitOnP_append_cons _ _ hc, List.filter_append, words, words]

theorem words_cons {c : Char} (hc : parts c = true) (after : List Char) :
    words (c :: after) = words after := words_append_cons hc [] after

/-- Whether a text is one word, and one without the small letter that a trace has before the
registers. -/
def IsWord (text : List Char) : Prop := text ≠ [] ∧ ∀ c ∈ text, c ≠ ' ' ∧ c ≠ ',' ∧ c ≠ 'v'

theorem IsWord.words_eq {text : List Char} (h : IsWord text) : words text = [text] := by
  have hparts : ∀ c ∈ text, parts c = false := fun c hc => by simp [parts, h.2 c hc]
  rw [words, List.splitOnP_eq_singleton hparts]
  simp [h.1]

theorem IsWord.marker_notMem {text : List Char} (h : IsWord text) : 'v' ∉ text :=
  fun hmem => (h.2 _ hmem).2.2 rfl

/-- A number is a word. -/
theorem isWord_hex (width n : Nat) : IsWord (Hex.text width n).toList := by
  rw [Hex.text, String.toList_ofList]
  exact ⟨Hex.padded_ne_nil width n, Hex.forall_mem_padded (by decide) width n⟩

/-- Words that are parted by commas and blanks. -/
theorem words_commas {first : List Char} {rest : List (List Char)}
    (h : ∀ word ∈ first :: rest, IsWord word) :
    words (first ++ rest.flatMap fun word => ',' :: ' ' :: word) = first :: rest := by
  induction rest generalizing first with
  | nil => simpa using (h first List.mem_cons_self).words_eq
  | cons second rest ih =>
    obtain ⟨hfirst, hrest⟩ := List.forall_mem_cons.1 h
    rw [List.flatMap_cons, List.cons_append, List.cons_append, words_append_cons rfl,
      hfirst.words_eq, words_cons rfl, ih hrest, List.singleton_append]

end Instruction

/-! ## Operands -/

/-- What is read off the text of an operand. -/
inductive Reading where
  /-- A register. -/
  | register (x : UInt64)
  /-- A number of any kind. -/
  | number (n : Nat)
  /-- Anything that has a name of its own. -/
  | name (text : String)

/-- What a word says. -/
def Reading.ofWord : List Char → Reading
  | 'V' :: digits => .register (UInt64.ofNat (Hex.value digits))
  | '0' :: 'x' :: digits => .number (Hex.value digits)
  | word => .name (String.ofList word)

namespace Operand

/-- What the text of an operand says. -/
def reading : Operand → Reading
  | register x => .register x
  | byte kk => .number kk.toNat
  | address nnn => .number nnn.toNat
  | height n => .number n.toNat
  | delay => .name "DT"
  | sound => .name "ST"
  | key => .name "K"
  | font => .name "F"
  | decimal => .name "B"
  | index => .name "I"
  | atIndex => .name "[I]"

theorem isWord_text (o : Operand) : Instruction.IsWord o.text.toList := by
  cases o
  case register | byte | address | height =>
    simpa [Instruction.IsWord, text, Hex.literal] using (Instruction.isWord_hex _ _).2
  all_goals simp [Instruction.IsWord, text]

theorem ofWord_text (o : Operand) : Reading.ofWord o.text.toList = o.reading := by
  cases o <;> simp [text, Hex.literal, Hex.text, Reading.ofWord, Hex.value_padded, reading]

end Operand

namespace Instruction

/-! ## Instructions -/

/-- The instruction that a keyword and operands make, if they make one. -/
def ofReadings? (keyword : String) : List Reading → Option Instruction
  | [] =>
    match keyword with
    | "CLS" => some clear
    | "RET" => some ret
    | _ => none
  | [.number a] =>
    match keyword with
    | "JP" => some (jump (.ofNat a))
    | "CALL" => some (call (.ofNat a))
    | _ => none
  | [.register x] =>
    match keyword with
    | "SHR" => some (shiftRight x)
    | "SHL" => some (shiftLeft x)
    | "SKP" => some (skipPressed x)
    | "SKNP" => some (skipReleased x)
    | _ => none
  | [.register x, .number n] =>
    match keyword with
    | "SE" => some (skipEqByte x (.ofNat n))
    | "SNE" => some (skipNeByte x (.ofNat n))
    | "LD" => some (loadByte x (.ofNat n))
    | "ADD" => some (addByte x (.ofNat n))
    | "RND" => some (random x (.ofNat n))
    | "JP" => some (jumpBy (.ofNat n))
    | _ => none
  | [.register x, .register y] =>
    match keyword with
    | "SE" => some (skipEq x y)
    | "SNE" => some (skipNe x y)
    | "LD" => some (copy x y)
    | "OR" => some (or x y)
    | "AND" => some (and x y)
    | "XOR" => some (xor x y)
    | "ADD" => some (add x y)
    | "SUB" => some (sub x y)
    | "SUBN" => some (subFrom x y)
    | _ => none
  | [.register x, .register y, .number n] =>
    match keyword with
    | "DRW" => some (draw x y (.ofNat n))
    | _ => none
  | [.name "I", .number a] =>
    match keyword with
    | "LD" => some (setIndex (.ofNat a))
    | _ => none
  | [.register x, .name source] =>
    match keyword, source with
    | "LD", "DT" => some (readDelay x)
    | "LD", "K" => some (awaitKey x)
    | "LD", "[I]" => some (loadRegisters x)
    | _, _ => none
  | [.name target, .register x] =>
    match keyword, target with
    | "LD", "DT" => some (setDelay x)
    | "LD", "ST" => some (setSound x)
    | "LD", "F" => some (pointGlyph x)
    | "LD", "B" => some (storeDecimal x)
    | "LD", "[I]" => some (storeRegisters x)
    | "ADD", "I" => some (addIndex x)
    | _, _ => none
  | _ => none

theorem ofReadings?_operands (i : Instruction) :
    ofReadings? i.keyword (i.operands.map Operand.reading) = some i := by
  cases i <;> simp [keyword, operands, Operand.reading, ofReadings?]

/-- The instruction that the words of a line make, if they make one. -/
def ofWords? : List (List Char) → Option Instruction
  | [] => none
  | keyword :: operands => ofReadings? (String.ofList keyword) (operands.map Reading.ofWord)

theorem isWord_keyword (i : Instruction) : IsWord i.keyword.toList := by
  cases i <;> simp [IsWord, keyword]

theorem toList_mnemonic {i : Instruction} {first : Operand} {rest : List Operand}
    (h : i.operands = first :: rest) :
    i.mnemonic.toList = i.keyword.toList ++ ' ' :: (first.text.toList ++
      (rest.map fun o => o.text.toList).flatMap fun word => ',' :: ' ' :: word) := by
  rw [mnemonic, h]
  simp [String.toList_join, List.flatMap_map]

/-- The words of an instruction are its keyword and its operands. -/
theorem words_mnemonic (i : Instruction) :
    words i.mnemonic.toList = i.keyword.toList :: i.operands.map fun o => o.text.toList := by
  have hkeyword := i.isWord_keyword
  have hoperands : ∀ word ∈ i.operands.map fun o => o.text.toList, IsWord word := by
    simpa using fun o _ => o.isWord_text
  cases hlist : i.operands with
  | nil =>
    rw [mnemonic, hlist]
    exact hkeyword.words_eq
  | cons first rest =>
    rw [hlist, List.map_cons] at hoperands
    rw [toList_mnemonic hlist, words_append_cons rfl, hkeyword.words_eq, words_commas hoperands,
      List.singleton_append, List.map_cons]

/-- The text of an instruction reads back as the instruction. -/
theorem ofWords?_mnemonic (i : Instruction) : ofWords? (words i.mnemonic.toList) = some i := by
  have hreadings : (i.operands.map fun o => o.text.toList).map Reading.ofWord =
      i.operands.map Operand.reading := by
    simp [Operand.ofWord_text]
  rw [words_mnemonic, ofWords?, String.ofList_toList, hreadings, ofReadings?_operands]

/-! ## Traces -/

theorem words_blanks (k : Nat) : words (List.replicate k ' ') = [] := by
  induction k with
  | zero => rfl
  | succ k ih => rw [List.replicate_succ, words_cons rfl, ih]

/-- Filling up a text with blanks adds no words. -/
theorem words_padRight (width : Nat) (text : String) :
    words (Machine.Record.padRight width text).toList = words text.toList := by
  rw [Machine.Record.padRight, String.toList_append, String.toList_ofList]
  cases width - text.length with
  | zero => simp
  | succ k => rw [List.replicate_succ, words_append_cons rfl, words_blanks, List.append_nil]

theorem marker_notMem_mnemonic (i : Instruction) : 'v' ∉ i.mnemonic.toList := by
  have hkeyword := i.isWord_keyword.marker_notMem
  have hoperand : ∀ o : Operand, 'v' ∉ o.text.toList := fun o => o.isWord_text.marker_notMem
  cases hlist : i.operands with
  | nil =>
    rw [mnemonic, hlist]
    exact hkeyword
  | cons first rest =>
    rw [toList_mnemonic hlist]
    simp [hkeyword, hoperand]

/-- What a trace has before the registers: address and word, and the text of the instruction. -/
def traceFront (pc word : UInt16) (i : Instruction) : List Char :=
  (Hex.text 4 pc.toNat ++ ":").toList ++ ' ' :: ((Hex.text 4 word.toNat).toList ++
    ' ' :: ((Machine.Record.padRight 16 i.mnemonic).toList ++ [' ']))

variable (pc word : UInt16) (i : Instruction)

theorem toList_executing (v : Vector UInt8 16) (index : UInt16) :
    (Machine.Record.executing pc word i v index).text.toList = traceFront pc word i ++
      'v' :: (Machine.Record.registersText v ++ " i" ++ Hex.text 4 index.toNat).toList := by
  simp [Machine.Record.text, traceFront]

theorem words_traceFront : words (traceFront pc word i) =
    [(Hex.text 4 pc.toNat ++ ":").toList, (Hex.text 4 word.toNat).toList] ++
      words i.mnemonic.toList := by
  have haddress : IsWord (Hex.text 4 pc.toNat ++ ":").toList := by
    have hhex := isWord_hex 4 pc.toNat
    simpa [IsWord, or_imp, forall_and] using hhex.2
  rw [traceFront, words_append_cons rfl, haddress.words_eq, words_append_cons rfl,
    (isWord_hex 4 word.toNat).words_eq, words_append_cons rfl, words_padRight, words_nil,
    List.append_nil, ← List.append_assoc, List.singleton_append]

theorem marker_notMem_traceFront : 'v' ∉ traceFront pc word i := by
  have hhex := fun n => (isWord_hex 4 n).marker_notMem
  have hmnemonic := i.marker_notMem_mnemonic
  simp [traceFront, Machine.Record.padRight, hhex, hmnemonic]

/-- The instruction of a trace: its words stand before the registers, behind two others. -/
def ofTrace? (line : List Char) : Option Instruction :=
  ofWords? ((words (line.takeWhile (· ≠ 'v'))).drop 2)

/-- A trace reads back as its instruction. -/
theorem ofTrace?_executing (v : Vector UInt8 16) (index : UInt16) :
    ofTrace? (Machine.Record.executing pc word i v index).text.toList = some i := by
  have hfront : ∀ c ∈ traceFront pc word i, decide (c ≠ 'v') = true := fun c hc =>
    decide_eq_true fun heq => marker_notMem_traceFront pc word i (heq ▸ hc)
  rw [ofTrace?, toList_executing, List.takeWhile_append_of_pos hfront,
    List.takeWhile_cons_of_neg (by decide), List.append_nil, words_traceFront]
  exact i.ofWords?_mnemonic

/-- The text of an instruction tells the instruction, whatever its operands. It does so also where
it is filled up with blanks in the column of a trace, and a whole trace tells its instruction. -/
theorem mnemonic_unambiguous (i j : Instruction) :
    (i.mnemonic = j.mnemonic ↔ i = j) ∧
    (Machine.Record.padRight 16 i.mnemonic = Machine.Record.padRight 16 j.mnemonic ↔ i = j) ∧
    ∀ (pc pc' word word' : UInt16) (v v' : Vector UInt8 16) (index index' : UInt16), i ≠ j →
      (Machine.Record.executing pc word i v index).text ≠
        (Machine.Record.executing pc' word' j v' index').text := by
  have hcolumn : Machine.Record.padRight 16 i.mnemonic = Machine.Record.padRight 16 j.mnemonic →
      i = j := fun h => by
    have hwords := congrArg (fun text => ofWords? (words text.toList)) h
    simpa [words_padRight, ofWords?_mnemonic] using hwords
  refine ⟨⟨fun h => hcolumn (by rw [h]), fun h => by rw [h]⟩, ⟨hcolumn, fun h => by rw [h]⟩, ?_⟩
  intro pc pc' word word' v v' index index' hne htext
  have hline := congrArg (fun text => ofTrace? text.toList) htext
  simp only [ofTrace?_executing, Option.some.injEq] at hline
  exact hne hline

/-- Decimal digits are written to `B`, and copies to the register `VB`. -/
theorem mnemonic_unambiguous_of_decimal :
    storeDecimal 0 ≠ copy 0xB 0 ∧
      (Machine.Record.executing 0x200 0xF033 (storeDecimal 0) Processor.powerOn.v 0x300).text ≠
        (Machine.Record.executing 0x200 0x8B00 (copy 0xB 0) Processor.powerOn.v 0x300).text := by
  have hne : storeDecimal 0 ≠ copy 0xB 0 := nofun
  exact ⟨hne, (mnemonic_unambiguous _ _).2.2 _ _ _ _ _ _ _ _ hne⟩

end Instruction

end Chip8VM
