import Mathlib.Data.List.TakeWhile
import Chip8VM.Host.CommandLine

/-!
# The words of a command line

An option is written by words (`Choice.words`), and so is a path among options (`Layout`). Read from
left to right, words that are laid out like this are one item for each option and one for the path
(`Layout.items_eq`). The other way around, words that are read without a faulty item are laid out
like this, unless they name no path (`exists_layout`).

What a single word is read as is settled by its first characters. `Word.reads_ofString` goes through
them once, and tells for a path and for an option from which word it can be read.
-/

namespace Chip8VM.Host.CommandLine

/-! ## Single words -/

/-- A text that starts with no dash, or is nothing but one. -/
def IsPlain (text : String) : Prop := text.toList.head? = some '-' → text = "-"

/-- An option as a word: its name, and the value that is written to the name, if any. -/
def named (name : String) : Option String → String
  | none => "--" ++ name
  | some value => "--" ++ name ++ "=" ++ value

theorem toList_named_none (name : String) :
    (named name none).toList = '-' :: '-' :: name.toList := by
  rw [named, String.toList_append]
  rfl

theorem toList_named_some (name value : String) :
    (named name (some value)).toList = '-' :: '-' :: (name.toList ++ '=' :: value.toList) := by
  rw [named, String.toList_append, String.toList_append, String.toList_append, List.append_assoc]
  rfl

/-- What comes before an equals sign and what comes after it are a name and a value. -/
theorem toList_named_takeWhile (cs : List Char) :
    (named (String.ofList (cs.takeWhile (· ≠ '='))) (valueAfterEquals cs)).toList =
      '-' :: '-' :: cs := by
  have hsplit := List.takeWhile_append_dropWhile (p := (· ≠ '=')) (l := cs)
  have hhead := List.head?_dropWhile_not (· ≠ '=') cs
  rw [valueAfterEquals]
  split
  case h_1 hrest =>
    rw [hrest, List.append_nil] at hsplit
    rw [toList_named_none, String.toList_ofList, hsplit]
  case h_2 c value hrest =>
    rw [hrest] at hsplit hhead
    obtain rfl : c = '=' := by simpa using hhead
    rw [toList_named_some, String.toList_ofList, String.toList_ofList, hsplit]

namespace Word

/-- From which words a path and the options are read. -/
inductive Reads : String → Word → Prop where
  | plain {text : String} (h : IsPlain text) : Reads text (.plain text)
  | stop : Reads "--" .stop
  | mute (value : Option String) : Reads (named "mute" value) (.mute value)
  | setting (setting : Setting) (value : Option String) :
    Reads (named setting.name value) (.setting setting value)
  | help (text : String) (value : Option String) : Reads text (.help value)
  | unknown (text : String) : Reads text .unknown

theorem reads_ofName (name : String) (value : Option String) :
    Reads (named name value) (ofName name value) := by
  rw [ofName]
  split_ifs with hhelp hmute
  · exact .help _ value
  · rw [hmute]
    exact .mute value
  · split
    case h_1 setting hfound =>
      obtain rfl : setting.name = name := by simpa using List.find?_some hfound
      exact .setting setting value
    case h_2 => exact .unknown _

/-- What is read as `word` is written as `Reads` says. -/
theorem reads_ofString {text : String} {word : Word} (h : ofString text = word) :
    Reads text word := by
  rw [← h, ofString]
  split
  case h_1 hstop =>
    obtain rfl : text = "--" := String.toList_injective hstop
    exact .stop
  case h_2 cs _ hnamed =>
    have hreads := reads_ofName (String.ofList (cs.takeWhile (· ≠ '='))) (valueAfterEquals cs)
    rwa [String.toList_injective ((toList_named_takeWhile cs).trans hnamed.symm)] at hreads
  case h_3 => exact .help text none
  case h_4 => exact .unknown text
  case h_5 hdash =>
    refine .plain fun hhead => ?_
    obtain ⟨cs, hcs⟩ := List.head?_eq_some_iff.1 hhead
    cases cs with
    | nil => exact String.toList_injective hcs
    | cons c cs => exact (hdash c cs hcs).elim

theorem ofString_of_isPlain {text : String} (h : IsPlain text) : ofString text = .plain text := by
  rw [ofString]
  split
  case h_5 => rfl
  all_goals
    rename_i htext
    rw [h (by rw [htext]; rfl)] at htext
    cases htext

theorem ofString_of_toList {text : String} {cs : List Char} (h : text.toList = '-' :: '-' :: cs)
    (hne : cs ≠ []) :
    ofString text = .ofName (String.ofList (cs.takeWhile (· ≠ '='))) (valueAfterEquals cs) := by
  obtain ⟨c, cs, rfl⟩ := List.exists_cons_of_ne_nil hne
  rw [ofString, h]
  rfl

theorem ofString_named {name : String} (hne : name ≠ "") (hname : '=' ∉ name.toList)
    (value : Option String) : ofString (named name value) = .ofName name value := by
  have hall : ∀ c ∈ name.toList, decide (c ≠ '=') = true := fun c hc =>
    decide_eq_true fun h => hname (h ▸ hc)
  have hcs : name.toList ≠ [] := fun h => hne (String.toList_eq_nil_iff.1 h)
  cases value with
  | none =>
    rw [ofString_of_toList (toList_named_none name) hcs, List.takeWhile_eq_self_iff.2 hall,
      String.ofList_toList, valueAfterEquals, List.dropWhile_eq_nil_iff.2 hall]
  | some value =>
    rw [ofString_of_toList (toList_named_some name value) (List.append_ne_nil_of_left_ne_nil hcs _),
      List.takeWhile_append_of_pos hall, valueAfterEquals, List.dropWhile_append_of_pos hall]
    simp

theorem ofString_setting (setting : Setting) (value : Option String) :
    ofString (named setting.name value) = .setting setting value := by
  have hname : setting.name ≠ "" ∧ '=' ∉ setting.name.toList := by cases setting <;> decide
  have hfound : ofName setting.name value = .setting setting value := by cases setting <;> rfl
  rw [ofString_named hname.1 hname.2, hfound]

theorem ofString_mute : ofString "--mute" = .mute none :=
  ofString_named (by decide : "mute" ≠ "") (by decide) none

end Word

/-! ## Options and a path -/

/-- An option as it is written on a command line. -/
inductive Choice where
  /-- An option that takes a number, with a text that is `joined` to its name by an equals sign or
  is the word after it. -/
  | number (setting : Setting) (text : String) (joined : Bool)
  /-- The option for silence. -/
  | mute

namespace Choice

/-- The words of an option. -/
def words : Choice → List String
  | number setting text true => [named setting.name (some text)]
  | number setting text false => [named setting.name none, text]
  | mute => ["--mute"]

/-- What an option says. -/
def item : Choice → Item
  | number setting text true => .joined setting text
  | number setting text false => .apart setting (some text)
  | mute => .mute

/-- A text that is a word of its own is no option. -/
def Separable : Choice → Prop
  | number _ text false => IsPlain text
  | number _ _ true | mute => True

theorem items_words_append {choice : Choice} (h : choice.Separable) (taken : Bool)
    (rest : List String) :
    items taken (choice.words ++ rest) = choice.item :: items taken rest := by
  match choice, h with
  | number setting text true, _ =>
    rw [words, List.singleton_append, items, Word.ofString_setting]
    rfl
  | number setting text false, h =>
    rw [words, List.cons_append, List.singleton_append, items, Word.ofString_setting]
    simp only [Word.ofString_of_isPlain h]
    rfl
  | mute, _ =>
    rw [words, List.singleton_append, items, Word.ofString_mute]
    rfl

theorem items_flatMap_append {choices : List Choice} (h : ∀ choice ∈ choices, choice.Separable)
    (taken : Bool) (rest : List String) :
    items taken (choices.flatMap words ++ rest) = choices.map item ++ items taken rest := by
  induction choices with
  | nil => rfl
  | cons choice choices ih =>
    obtain ⟨hchoice, hchoices⟩ := List.forall_mem_cons.1 h
    rw [List.flatMap_cons, List.append_assoc, items_words_append hchoice, ih hchoices]
    rfl

end Choice

/-- The words write a path with options `before` and `after` it. A path that may look like an option
comes last, after a lone `--`. Where there is nothing after it, a lone `--` says nothing. -/
inductive Layout (path : String) (before after : List Choice) : List String → Prop where
  | among (h : IsPlain path) :
    Layout path before after (before.flatMap Choice.words ++ path :: after.flatMap Choice.words)
  | closed (h : IsPlain path) :
    Layout path before after
      (before.flatMap Choice.words ++ path :: (after.flatMap Choice.words ++ ["--"]))
  | last (h : after = []) :
    Layout path before after (before.flatMap Choice.words ++ ["--", path])

theorem items_stop (taken : Bool) (paths : List String) :
    items taken ("--" :: paths) = pathItems taken paths := by
  rw [items, show Word.ofString "--" = .stop from rfl]

theorem items_path {path : String} (h : IsPlain path) (taken : Bool) (rest : List String) :
    items taken (path :: rest) = .ofPath taken path :: items true rest := by
  rw [items, Word.ofString_of_isPlain h]

/-- Words that are laid out say the options and the path, in their order. -/
theorem Layout.items_eq {path : String} {before after : List Choice} {words : List String}
    (h : Layout path before after words) (hbefore : ∀ choice ∈ before, choice.Separable)
    (hafter : ∀ choice ∈ after, choice.Separable) :
    items false words = before.map Choice.item ++ .rom path :: after.map Choice.item := by
  cases h with
  | among h =>
    have hrest := Choice.items_flatMap_append hafter true []
    rw [List.append_nil] at hrest
    rw [Choice.items_flatMap_append hbefore, items_path h, hrest]
    simp [items, Item.ofPath]
  | closed h =>
    rw [Choice.items_flatMap_append hbefore, items_path h, Choice.items_flatMap_append hafter,
      items_stop]
    simp [pathItems, Item.ofPath]
  | last h =>
    rw [Choice.items_flatMap_append hbefore, items_stop, h]
    rfl

/-! ## Items without a fault -/

/-- Whether an item is refused, whatever came before it. -/
def Item.isFaulty : Item → Bool
  | .apart _ none | .help | .misfit _ => true
  | .rom _ | .joined _ _ | .apart _ (some _) | .mute => false

/-- Words without a faulty item start with options. After these comes nothing, or the end of the
options, or a path. -/
theorem exists_choices {taken : Bool} {words : List String}
    (h : ∀ item ∈ items taken words, item.isFaulty = false) :
    ∃ (choices : List Choice) (tail : List String),
      words = choices.flatMap Choice.words ++ tail ∧
      (∀ choice ∈ choices, choice.Separable) ∧
      (tail = [] ∨ (∃ paths, tail = "--" :: paths) ∨
        ∃ path rest, IsPlain path ∧ tail = path :: rest) := by
  fun_induction items taken words with
  | case1 => exact ⟨[], [], rfl, nofun, .inl rfl⟩
  | case2 taken word rest path hword =>
    cases Word.reads_ofString hword with
    | plain hplain => exact ⟨[], _, rfl, nofun, .inr (.inr ⟨_, rest, hplain, rfl⟩)⟩
  | case3 taken word rest hword =>
    cases Word.reads_ofString hword
    exact ⟨[], _, rfl, nofun, .inr (.inl ⟨rest, rfl⟩)⟩
  | case5 taken word rest hword ih =>
    cases Word.reads_ofString hword
    obtain ⟨choices, tail, rfl, hchoices, htail⟩ := ih (List.forall_mem_cons.1 h).2
    exact ⟨.mute :: choices, tail, rfl, List.forall_mem_cons.2 ⟨trivial, hchoices⟩, htail⟩
  | case9 taken word rest setting text hword ih =>
    cases Word.reads_ofString hword
    obtain ⟨choices, tail, rfl, hchoices, htail⟩ := ih (List.forall_mem_cons.1 h).2
    exact ⟨.number setting text true :: choices, tail, rfl,
      List.forall_mem_cons.2 ⟨trivial, hchoices⟩, htail⟩
  | case11 taken word setting hword next rest text hnext ih =>
    cases Word.reads_ofString hword
    cases Word.reads_ofString hnext with
    | plain hplain =>
      obtain ⟨choices, tail, rfl, hchoices, htail⟩ := ih (List.forall_mem_cons.1 h).2
      exact ⟨.number setting next false :: choices, tail, rfl,
        List.forall_mem_cons.2 ⟨hplain, hchoices⟩, htail⟩
  | case4 | case6 | case7 | case8 | case10 | case12 =>
    cases h _ List.mem_cons_self

/-- Words without a faulty item are laid out as a path and options, or there is no path in them. -/
theorem exists_layout {words : List String}
    (h : ∀ item ∈ items false words, item.isFaulty = false) :
    (∃ path before after, Layout path before after words ∧
      (∀ choice ∈ before, choice.Separable) ∧ ∀ choice ∈ after, choice.Separable) ∨
    ∃ choices : List Choice, items false words = choices.map Choice.item := by
  obtain ⟨before, tail, rfl, hbefore, htail⟩ := exists_choices h
  rw [Choice.items_flatMap_append hbefore] at h ⊢
  obtain ⟨-, hfaultless⟩ := List.forall_mem_append.1 h
  rcases htail with rfl | ⟨paths, rfl⟩ | ⟨path, rest, hpath, rfl⟩
  · exact .inr ⟨before, List.append_nil _⟩
  · rw [items_stop] at hfaultless ⊢
    match paths with
    | [] => exact .inr ⟨before, List.append_nil _⟩
    | [path] => exact .inl ⟨path, before, [], .last rfl, hbefore, nofun⟩
    | _ :: second :: _ => cases hfaultless (.misfit .unknown) (by simp [pathItems, Item.ofPath])
  · rw [items_path hpath] at hfaultless
    obtain ⟨after, ending, rfl, hafter, hending⟩ :=
      exists_choices (List.forall_mem_cons.1 hfaultless).2
    rw [Choice.items_flatMap_append hafter] at hfaultless
    have hlast := (List.forall_mem_append.1 (List.forall_mem_cons.1 hfaultless).2).2
    refine .inl ⟨path, before, after, ?_, hbefore, hafter⟩
    -- A second path has no place, after a lone dash pair or without it.
    rcases hending with rfl | ⟨paths, rfl⟩ | ⟨second, rest, hsecond, rfl⟩
    · rw [List.append_nil]
      exact .among hpath
    · rw [items_stop] at hlast
      cases paths with
      | nil => exact .closed hpath
      | cons => cases hlast _ List.mem_cons_self
    · rw [items_path hsecond] at hlast
      cases hlast _ List.mem_cons_self

end Chip8VM.Host.CommandLine
