import Mathlib.Data.List.Nodup
import Chip8VM.Proofs.Numerals
import Chip8VM.Proofs.Words

/-!
# What a draft holds

A draft takes the items of a command line one after the other. What it holds then is told by the
options among them (`Draft.Holds`): each was there once, its number is that of its text, and options
that were not there have none. Taking one option more keeps this (`Draft.Holds.add`), and an option
is taken if it is not the second of its kind and its text writes a number in range
(`Draft.Holds.exists_add`). Both go by induction through all options of a command line.
-/

namespace Chip8VM.Host.CommandLine

/-! ## Options that were taken -/

/-- The option that is given, where `none` is the one for silence. -/
def Choice.setting? : Choice → Option Setting
  | number setting _ _ => some setting
  | mute => none

theorem Choice.some_mem_setting? {choices : List Choice} {setting : Setting} :
    some setting ∈ choices.map setting? ↔ ∃ text joined, number setting text joined ∈ choices := by
  rw [List.mem_map]
  constructor
  · rintro ⟨choice, hmem, hsetting⟩
    cases choice with
    | number _ text joined =>
      obtain rfl := Option.some.inj hsetting
      exact ⟨text, joined, hmem⟩
    | mute => cases hsetting
  · rintro ⟨text, joined, hmem⟩
    exact ⟨_, hmem, rfl⟩

theorem Choice.none_mem_setting? {choices : List Choice} :
    none ∈ choices.map setting? ↔ mute ∈ choices := by
  rw [List.mem_map]
  constructor
  · rintro ⟨choice, hmem, hsetting⟩
    cases choice with
    | number => cases hsetting
    | mute => exact hmem
  · exact fun hmem => ⟨_, hmem, rfl⟩

/-- The number of a text is one that the text writes, within the range of the option. -/
theorem Setting.value?_eq_some_iff {setting : Setting} {text : String} {n : Nat} :
    setting.value? text = some n ↔ Writes text n ∧ setting.least ≤ n ∧ n ≤ setting.most := by
  rw [value?, Option.filter_eq_some_iff, number?_eq_some_iff, Bool.and_eq_true, decide_eq_true_iff,
    decide_eq_true_iff]

/-- The text of an option writes a number in its range. -/
def Choice.IsValid : Choice → Prop
  | number setting text _ => ∃ n, setting.value? text = some n
  | mute => True

/-! ## Taking items -/

namespace Draft

theorem addAll_cons_eq_ok_iff {draft d : Draft} {item : Item} {rest : List Item} :
    draft.addAll (item :: rest) = .ok d ↔
      ∃ next, draft.add item = .ok next ∧ next.addAll rest = .ok d := by
  -- An item without a place is not passed over itself, so it makes any items before it fail.
  have hmisfit : ∀ problem rest (draft : Draft),
      draft.addAll (.misfit problem :: rest) = .error problem := fun _ _ _ => rfl
  rw [addAll]
  split
  case isTrue hskip =>
    obtain ⟨-, hnext⟩ := Bool.and_eq_true_iff.1 hskip
    match rest, hnext with
    | .misfit problem :: rest, _ => simp [hmisfit]
  case isFalse =>
    cases draft.add item with
    | error => simp
    | ok next => simp

theorem addAll_append_eq_ok_iff {draft d : Draft} {items rest : List Item} :
    draft.addAll (items ++ rest) = .ok d ↔
      ∃ next, draft.addAll items = .ok next ∧ next.addAll rest = .ok d := by
  induction items generalizing draft with
  | nil => simp [addAll]
  | cons item items ih =>
    simp only [List.cons_append, addAll_cons_eq_ok_iff, ih]
    constructor
    · rintro ⟨next, hitem, later, hitems, hrest⟩
      exact ⟨later, ⟨next, hitem, hitems⟩, hrest⟩
    · rintro ⟨later, ⟨next, hitem, hitems⟩, hrest⟩
      exact ⟨next, hitem, later, hitems, hrest⟩

/-- What is taken has no faulty item in it. -/
theorem isFaulty_of_addAll {draft d : Draft} {items : List Item} (h : draft.addAll items = .ok d) :
    ∀ item ∈ items, item.isFaulty = false := by
  induction items generalizing draft with
  | nil => nofun
  | cons item items ih =>
    obtain ⟨next, hitem, hitems⟩ := addAll_cons_eq_ok_iff.1 h
    refine List.forall_mem_cons.2 ⟨?_, ih hitems⟩
    cases item with
    | rom | joined | mute => rfl
    | apart setting text =>
      cases text with
      | some => rfl
      | none => cases hitem
    | help | misfit => cases hitem

theorem addRom_eq_ok_iff {draft d : Draft} {path : String} :
    draft.addRom path = .ok d ↔ path ≠ "" ∧ { draft with rom := some path } = d := by
  rw [addRom]
  split <;> simp_all

theorem addMute_eq_ok_iff {draft d : Draft} :
    draft.addMute = .ok d ↔ draft.mute = false ∧ { draft with mute := true } = d := by
  rw [addMute]
  split <;> simp_all

theorem addValue_eq_ok_iff {draft d : Draft} {setting : Setting} {text : String} :
    draft.addValue setting text = .ok d ↔ draft.value? setting = none ∧
      ∃ n, setting.value? text = some n ∧
        { draft with values := (setting, n) :: draft.values } = d := by
  rw [addValue, value?]
  split
  case isTrue hgiven => simp [Option.ne_none_iff_isSome.2 hgiven]
  case isFalse hgiven =>
    rw [Option.not_isSome_iff_eq_none] at hgiven
    split
    case h_1 hnone => simp [hnone]
    case h_2 n hn =>
      simp only [hn, hgiven, Except.ok.injEq, Option.some.injEq, exists_eq_left', true_and]

theorem value?_addValue (draft : Draft) (setting other : Setting) (n : Nat) :
    ({ draft with values := (setting, n) :: draft.values } : Draft).value? other =
      if other = setting then some n else draft.value? other := by
  rw [value?, List.lookup_cons, value?]
  split <;> simp_all

theorem add_number (draft : Draft) (setting : Setting) (text : String) (joined : Bool) :
    draft.add (Choice.number setting text joined).item = draft.addValue setting text := by
  cases joined <;> rfl

/-! ## What a draft holds -/

/-- A draft holds these options: each is there once, its number is the one that its text writes, and
an option that is not there has none. -/
structure Holds (draft : Draft) (choices : List Choice) : Prop where
  once : (choices.map Choice.setting?).Nodup
  given : ∀ setting text joined, .number setting text joined ∈ choices →
    ∃ n, setting.value? text = some n ∧ draft.value? setting = some n
  omitted : ∀ setting, some setting ∉ choices.map Choice.setting? → draft.value? setting = none
  mute_iff : draft.mute = true ↔ .mute ∈ choices

theorem holds_empty : empty.Holds [] :=
  ⟨List.nodup_nil, nofun, fun _ _ => rfl, by simp [empty]⟩

namespace Holds

variable {draft d : Draft} {choices : List Choice}

/-- An option has no number yet if it is not among those that were taken. -/
theorem value?_eq_none_iff (h : draft.Holds choices) {setting : Setting} :
    draft.value? setting = none ↔ some setting ∉ choices.map Choice.setting? := by
  refine ⟨fun hnone hmem => ?_, h.omitted setting⟩
  obtain ⟨text, joined, hgiven⟩ := Choice.some_mem_setting?.1 hmem
  obtain ⟨n, -, hvalue⟩ := h.given _ _ _ hgiven
  rw [hnone] at hvalue
  cases hvalue

theorem once_concat (h : draft.Holds choices) {choice : Choice} :
    ((choices ++ [choice]).map Choice.setting?).Nodup ↔
      choice.setting? ∉ choices.map Choice.setting? := by
  rw [List.map_append, List.map_singleton, List.nodup_append]
  constructor
  · rintro ⟨-, -, hne⟩ hmem
    exact hne _ hmem _ (List.mem_singleton_self _) rfl
  · intro hfresh
    refine ⟨h.once, List.nodup_singleton _, fun old hold new hnew heq => hfresh ?_⟩
    rw [← List.mem_singleton.1 hnew, ← heq]
    exact hold

/-- A draft holds the option that it has just taken beside the others. -/
theorem add (h : draft.Holds choices) {choice : Choice} (hadd : draft.add choice.item = .ok d) :
    d.Holds (choices ++ [choice]) ∧ d.rom = draft.rom := by
  cases choice with
  | number setting text joined =>
    rw [add_number, addValue_eq_ok_iff] at hadd
    obtain ⟨hnone, n, hn, rfl⟩ := hadd
    have hfresh := h.value?_eq_none_iff.1 hnone
    refine ⟨⟨h.once_concat.2 hfresh, ?_, ?_, ?_⟩, rfl⟩
    · intro other text' joined' hmem
      rw [value?_addValue]
      rcases List.mem_append.1 hmem with hold | hnew
      · have hne : other ≠ setting := by
          rintro rfl
          exact hfresh (Choice.some_mem_setting?.2 ⟨_, _, hold⟩)
        rw [if_neg hne]
        exact h.given other text' joined' hold
      · cases List.mem_singleton.1 hnew
        exact ⟨n, hn, if_pos rfl⟩
    · intro other hother
      rw [List.map_append, List.mem_append, not_or] at hother
      rw [value?_addValue, if_neg]
      · exact h.omitted other hother.1
      · rintro rfl
        exact hother.2 (List.mem_singleton_self _)
    · rw [List.mem_append, ← h.mute_iff]
      simp
  | mute =>
    obtain ⟨hmute, rfl⟩ := addMute_eq_ok_iff.1 hadd
    have hfresh : .mute ∉ choices := fun hmem => by
      rw [h.mute_iff.2 hmem] at hmute
      cases hmute
    have honce : ((choices ++ [Choice.mute]).map Choice.setting?).Nodup :=
      h.once_concat.2 fun hmem => hfresh (Choice.none_mem_setting?.1 hmem)
    refine ⟨⟨honce, ?_, ?_, ?_⟩, rfl⟩
    · intro setting text joined hmem
      exact h.given setting text joined (by simpa using hmem)
    · intro setting hsetting
      rw [List.map_append, List.mem_append, not_or] at hsetting
      exact h.omitted setting hsetting.1
    · simp

/-- An option is taken if it was not taken before and its text writes a number in range. -/
theorem exists_add (h : draft.Holds choices) (choice : Choice)
    (honce : ((choices ++ [choice]).map Choice.setting?).Nodup) (hvalid : choice.IsValid) :
    ∃ d, draft.add choice.item = .ok d := by
  have hfresh := h.once_concat.1 honce
  cases choice with
  | number setting text joined =>
    obtain ⟨n, hn⟩ := hvalid
    rw [add_number]
    exact ⟨_, addValue_eq_ok_iff.2 ⟨h.value?_eq_none_iff.2 hfresh, n, hn, rfl⟩⟩
  | mute =>
    have hmute : draft.mute = false :=
      Bool.eq_false_iff.2 fun hmute => hfresh (Choice.none_mem_setting?.2 (h.mute_iff.1 hmute))
    exact ⟨_, addMute_eq_ok_iff.2 ⟨hmute, rfl⟩⟩

/-- A draft holds the options that it takes one after the other. -/
theorem addAll (h : draft.Holds choices) {more : List Choice}
    (hadd : draft.addAll (more.map Choice.item) = .ok d) :
    d.Holds (choices ++ more) ∧ d.rom = draft.rom := by
  induction more generalizing draft choices with
  | nil =>
    obtain rfl := Except.ok.inj hadd
    rw [List.append_nil]
    exact ⟨h, rfl⟩
  | cons choice more ih =>
    obtain ⟨next, hchoice, hmore⟩ := addAll_cons_eq_ok_iff.1 hadd
    obtain ⟨hnext, hrom⟩ := h.add hchoice
    rw [List.append_cons, ← hrom]
    exact ih hnext hmore

/-- Options are taken one after the other if none comes twice and all numbers are in range. -/
theorem exists_addAll (h : draft.Holds choices) (more : List Choice)
    (honce : ((choices ++ more).map Choice.setting?).Nodup)
    (hvalid : ∀ choice ∈ more, choice.IsValid) :
    ∃ d, draft.addAll (more.map Choice.item) = .ok d := by
  induction more generalizing draft choices with
  | nil => exact ⟨draft, rfl⟩
  | cons choice more ih =>
    rw [List.append_cons] at honce
    obtain ⟨hchoice, hmore⟩ := List.forall_mem_cons.1 hvalid
    obtain ⟨next, hnext⟩ :=
      h.exists_add choice (honce.sublist ((List.sublist_append_left _ _).map _)) hchoice
    obtain ⟨d, hd⟩ := ih (h.add hnext).1 honce hmore
    exact ⟨d, addAll_cons_eq_ok_iff.2 ⟨next, hnext, hd⟩⟩

theorem withRom (h : draft.Holds choices) (path : Option String) :
    Holds { draft with rom := path } choices :=
  ⟨h.once, h.given, h.omitted, h.mute_iff⟩

theorem in_range (h : draft.Holds choices) {setting : Setting} {n : Nat}
    (hn : draft.value? setting = some n) : setting.least ≤ n ∧ n ≤ setting.most := by
  by_cases hgiven : some setting ∈ choices.map Choice.setting?
  · obtain ⟨text, joined, hmem⟩ := Choice.some_mem_setting?.1 hgiven
    obtain ⟨m, hm, hvalue⟩ := h.given _ _ _ hmem
    obtain rfl := Option.some.inj (hvalue.symm.trans hn)
    exact (Setting.value?_eq_some_iff.1 hm).2
  · rw [h.omitted setting hgiven] at hn
    cases hn

end Holds

/-! ## A path among options -/

/-- What is taken with a path among options: the path is not empty, and the draft holds it and the
options. -/
theorem holds_of_addAll_path {path : String} {before after : List Choice} {d : Draft}
    (h : empty.addAll (before.map Choice.item ++ .rom path :: after.map Choice.item) =
      .ok d) :
    path ≠ "" ∧ d.Holds (before ++ after) ∧ d.rom = some path := by
  obtain ⟨first, hbefore, h⟩ := addAll_append_eq_ok_iff.1 h
  obtain ⟨second, hpath, hafter⟩ := addAll_cons_eq_ok_iff.1 h
  obtain ⟨hne, rfl⟩ := addRom_eq_ok_iff.1 hpath
  have hfirst := (holds_empty.addAll hbefore).1
  exact ⟨hne, (hfirst.withRom (some path)).addAll hafter⟩

/-- A path is taken among options if it is not empty, no option is given twice and all numbers are
in range. -/
theorem exists_addAll_path {path : String} {before after : List Choice} (hpath : path ≠ "")
    (honce : ((before ++ after).map Choice.setting?).Nodup)
    (hvalid : ∀ choice ∈ before ++ after, choice.IsValid) :
    ∃ d, empty.addAll (before.map Choice.item ++ .rom path :: after.map Choice.item) =
      .ok d := by
  obtain ⟨hbefore, hafter⟩ := List.forall_mem_append.1 hvalid
  obtain ⟨first, hfirst⟩ := holds_empty.exists_addAll before
    (honce.sublist ((List.sublist_append_left _ _).map _)) hbefore
  have hholds := (holds_empty.addAll hfirst).1.withRom (some path)
  obtain ⟨d, hd⟩ := hholds.exists_addAll after honce hafter
  exact ⟨d, addAll_append_eq_ok_iff.2 ⟨first, hfirst,
    addAll_cons_eq_ok_iff.2 ⟨_, addRom_eq_ok_iff.2 ⟨hpath, rfl⟩, hd⟩⟩⟩

end Draft

end Chip8VM.Host.CommandLine
