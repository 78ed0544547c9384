import Chip8VM.Host.Session
import Chip8VM.Proofs.Drafts
import Chip8VM.Proofs.Timers

/-!
# What a command line is accepted for

A command line writes what a run is started with (`Arguments.WrittenAs`): a path, and options before
and after it, each of them once at most, that give a number or leave it at its default. It is
accepted for what it writes if that is in range, and for nothing else
(`accepted_iff_written_in_range`). Both ways lead over the draft that holds the options: if it is
finished, its options give what it is finished with (`Draft.Holds.givenBy`), and it is finished with
whatever its options give (`Draft.Holds.number?_of_givenBy`).

The ranges keep the arithmetic of a run safe: there is a frame rate to divide a second by, no window
is larger than its width and height can tell, and the timers have a period of at least one cycle.
-/

namespace Chip8VM.Host

open CommandLine

/-! ## What a command line writes -/

/-- The number of an option, if it has any. -/
def Arguments.number? (a : Arguments) : Setting → Option Nat
  | .cyclesPerFrame => some a.cyclesPerFrame.toNat
  | .frameRate => some a.frameRate.toNat
  | .scale => some a.scale.toNat
  | .seed => a.seed.map UInt64.toNat

/-- The number that an option has if it is not given. -/
def CommandLine.Setting.default? : Setting → Option Nat
  | .cyclesPerFrame | .scale => some 10
  | .frameRate => some 60
  | .seed => none

namespace Arguments

/-- What a run can be started with. -/
structure InRange (a : Arguments) : Prop where
  rom_ne : a.rom ≠ ""
  one_le_cyclesPerFrame : 1 ≤ a.cyclesPerFrame
  one_le_frameRate : 1 ≤ a.frameRate
  frameRate_le : a.frameRate ≤ 1000
  one_le_scale : 1 ≤ a.scale
  scale_le : a.scale ≤ 64

/-- The options give these numbers, and silence or not. -/
structure GivenBy (a : Arguments) (choices : List Choice) : Prop where
  /-- No option is given twice. -/
  once : (choices.map Choice.setting?).Nodup
  /-- An option that is given has the number that its text writes. -/
  given : ∀ setting text joined, .number setting text joined ∈ choices →
    ∃ n, Writes text n ∧ a.number? setting = some n
  /-- An option that is not given has its default. -/
  omitted : ∀ setting, some setting ∉ choices.map Choice.setting? →
    a.number? setting = setting.default?
  mute_iff : a.mute = true ↔ .mute ∈ choices

/-- The words give the path, and the options before and after it the rest. -/
def WrittenAs (a : Arguments) (words : List String) : Prop :=
  ∃ before after, a.GivenBy (before ++ after) ∧ Layout a.rom before after words

/-- The options that give every number that there is, in plain decimal, and silence or not. -/
def allChoices (a : Arguments) : List Choice :=
  (Setting.all.filterMap fun setting =>
    (a.number? setting).map fun n => .number setting (toString n) true) ++
  if a.mute then [.mute] else []

theorem mem_allChoices {a : Arguments} {setting : Setting} {text : String} {joined : Bool} :
    .number setting text joined ∈ a.allChoices ↔
      ∃ n, a.number? setting = some n ∧ text = toString n ∧ joined = true := by
  have hall : setting ∈ Setting.all := by cases setting <;> decide
  cases hmute : a.mute <;> simp [allChoices, hmute, hall, eq_comm]

theorem givenBy_allChoices (a : Arguments) : a.GivenBy a.allChoices where
  once := by
    rw [allChoices, Setting.all]
    cases hseed : a.seed <;> cases hmute : a.mute <;>
      simp [number?, hseed, Choice.setting?]
  given setting text joined hmem := by
    obtain ⟨n, hn, rfl, -⟩ := mem_allChoices.1 hmem
    exact ⟨n, writes_toString n, hn⟩
  omitted setting hsetting := by
    cases hnumber : a.number? setting with
    | none =>
      cases setting with
      | seed => rfl
      | cyclesPerFrame | frameRate | scale => cases hnumber
    | some n =>
      have hmem := mem_allChoices.2 ⟨n, hnumber, rfl, rfl⟩
      exact absurd (Choice.some_mem_setting?.2 ⟨_, _, hmem⟩) hsetting
  mute_iff := by
    cases hmute : a.mute <;> simp [allChoices, hmute]

/-- Whatever a run can be started with can be written. -/
theorem writtenAs_allChoices (a : Arguments) :
    a.WrittenAs (a.allChoices.flatMap Choice.words ++ ["--", a.rom]) := by
  refine ⟨a.allChoices, [], ?_, .last rfl⟩
  rw [List.append_nil]
  exact a.givenBy_allChoices

/-- The path, the numbers and silence are all there is. -/
theorem ext_number? {a b : Arguments} (hrom : a.rom = b.rom)
    (hnumber : ∀ setting, a.number? setting = b.number? setting) (hmute : a.mute = b.mute) :
    a = b := by
  have hcycles := Option.some.inj (hnumber .cyclesPerFrame)
  have hrate := Option.some.inj (hnumber .frameRate)
  have hscale := Option.some.inj (hnumber .scale)
  have hseed := Option.map_injective (fun _ _ => UInt64.toNat_inj.1) (hnumber .seed)
  cases a
  cases b
  simp_all [UInt32.toNat_inj]

/-- Arguments are in range if their numbers are in the ranges of their options. -/
theorem inRange_iff {a : Arguments} :
    a.InRange ↔ a.rom ≠ "" ∧
      ∀ setting n, a.number? setting = some n → setting.least ≤ n ∧ n ≤ setting.most := by
  constructor
  · rintro ⟨hrom, hcycles, hrate, hrate', hscale, hscale'⟩
    refine ⟨hrom, fun setting n h => ?_⟩
    cases setting with
    | cyclesPerFrame =>
      obtain rfl := Option.some.inj h
      exact ⟨UInt32.le_iff_toNat_le.1 hcycles, Nat.le_of_lt_succ a.cyclesPerFrame.toNat_lt⟩
    | frameRate =>
      obtain rfl := Option.some.inj h
      exact ⟨UInt32.le_iff_toNat_le.1 hrate, UInt32.le_iff_toNat_le.1 hrate'⟩
    | scale =>
      obtain rfl := Option.some.inj h
      exact ⟨UInt32.le_iff_toNat_le.1 hscale, UInt32.le_iff_toNat_le.1 hscale'⟩
    | seed =>
      obtain ⟨seed, -, rfl⟩ := Option.map_eq_some_iff.1 h
      exact ⟨Nat.zero_le _, Nat.le_of_lt_succ seed.toNat_lt⟩
  · rintro ⟨hrom, h⟩
    obtain ⟨hrate, hrate'⟩ := h .frameRate _ rfl
    obtain ⟨hscale, hscale'⟩ := h .scale _ rfl
    exact ⟨hrom, UInt32.le_iff_toNat_le.2 (h .cyclesPerFrame _ rfl).1,
      UInt32.le_iff_toNat_le.2 hrate, UInt32.le_iff_toNat_le.2 hrate',
      UInt32.le_iff_toNat_le.2 hscale, UInt32.le_iff_toNat_le.2 hscale'⟩

namespace GivenBy

variable {a : Arguments} {choices : List Choice}

/-- A text that writes a number does not look like an option. -/
theorem separable (h : a.GivenBy choices) : ∀ choice ∈ choices, choice.Separable := by
  intro choice hmem
  match choice, hmem with
  | .number setting text false, hmem =>
    obtain ⟨n, hwrites, -⟩ := h.given setting text false hmem
    exact fun hdash => absurd hdash hwrites.head_ne_dash
  | .number _ _ true, _ | .mute, _ => trivial

theorem isValid (h : a.GivenBy choices) (hrange : a.InRange) :
    ∀ choice ∈ choices, choice.IsValid := by
  intro choice hmem
  match choice, hmem with
  | .number setting text joined, hmem =>
    obtain ⟨n, hwrites, hnumber⟩ := h.given setting text joined hmem
    have hin := (inRange_iff.1 hrange).2 setting n hnumber
    exact ⟨n, Setting.value?_eq_some_iff.2 ⟨hwrites, hin⟩⟩
  | .mute, _ => trivial

end GivenBy

namespace InRange

variable {a : Arguments}

theorem frameRate_ne_zero (h : a.InRange) : a.frameRate ≠ 0 := fun hzero =>
  absurd (hzero ▸ h.one_le_frameRate) (by decide)

/-- As many pixels as there are in a row fit into a number of 32 bits. -/
theorem toNat_mul_scale (h : a.InRange) {pixels : UInt32} (hpixels : pixels.toNat ≤ 64) :
    (pixels * a.scale).toNat = pixels.toNat * a.scale.toNat := by
  have hscale : a.scale.toNat ≤ 64 := UInt32.le_iff_toNat_le.1 h.scale_le
  have hsize : pixels.toNat * a.scale.toNat ≤ 64 * 64 := Nat.mul_le_mul hpixels hscale
  rw [UInt32.toNat_mul]
  exact Nat.mod_eq_of_lt (hsize.trans_lt (by decide))

theorem toNat_width (h : a.InRange) : (Window.width a.scale).toNat = 64 * a.scale.toNat :=
  h.toNat_mul_scale (Nat.le_refl 64)

theorem toNat_height (h : a.InRange) : (Window.height a.scale).toNat = 32 * a.scale.toNat :=
  h.toNat_mul_scale (by decide : 32 ≤ 64)

theorem timerPeriod_eq (h : a.InRange) :
    (Session.settings a).timerPeriod = a.cyclesPerFrame := by
  apply UInt32.toNat_inj.1
  rw [Settings.toNat_timerPeriod]
  exact max_eq_right (UInt32.le_iff_toNat_le.1 h.one_le_cyclesPerFrame)

end InRange

end Arguments

namespace CommandLine

/-! ## Finishing -/

namespace Draft.Holds

variable {draft : Draft} {choices : List Choice}

/-- A draft with a path is finished with this path and with what it holds of numbers and silence. -/
theorem exists_finish (h : draft.Holds choices) {path : String} (hrom : draft.rom = some path) :
    ∃ a, draft.finish = .ok a ∧ a.rom = path ∧
      (∀ setting, a.number? setting = (draft.value? setting).or setting.default?) ∧
      a.mute = draft.mute := by
  have htoNat : ∀ (setting : Setting) (default : UInt32), setting.most < 2 ^ 32 →
      some (((draft.value? setting).map UInt32.ofNat).getD default).toNat =
        (draft.value? setting).or (some default.toNat) := by
    intro setting default hmost
    cases hvalue : draft.value? setting with
    | none => rfl
    | some n =>
      exact congrArg some (UInt32.toNat_ofNat_of_lt ((h.in_range hvalue).2.trans_lt hmost))
  have hseed : ((draft.value? .seed).map UInt64.ofNat).map UInt64.toNat =
      (draft.value? .seed).or none := by
    cases hvalue : draft.value? .seed with
    | none => rfl
    | some n =>
      exact congrArg some
        (UInt64.toNat_ofNat_of_lt ((h.in_range hvalue).2.trans_lt (by decide)))
  rw [finish, hrom]
  refine ⟨_, rfl, rfl, fun setting => ?_, rfl⟩
  cases setting with
  | cyclesPerFrame => exact htoNat .cyclesPerFrame 10 (by decide)
  | frameRate => exact htoNat .frameRate 60 (by decide)
  | scale => exact htoNat .scale 10 (by decide)
  | seed => exact hseed

/-- What the options of a draft give has the numbers of the draft. -/
theorem number?_of_givenBy (h : draft.Holds choices) {a : Arguments} (ha : a.GivenBy choices)
    (setting : Setting) : a.number? setting = (draft.value? setting).or setting.default? := by
  by_cases hgiven : some setting ∈ choices.map Choice.setting?
  · obtain ⟨text, joined, hmem⟩ := Choice.some_mem_setting?.1 hgiven
    obtain ⟨n, hwrites, hnumber⟩ := ha.given _ _ _ hmem
    obtain ⟨m, hm, hvalue⟩ := h.given _ _ _ hmem
    have hread := number?_eq_some_iff.2 (Setting.value?_eq_some_iff.1 hm).1
    rw [number?_eq_some_iff.2 hwrites] at hread
    rw [hnumber, hvalue, hread]
    rfl
  · rw [ha.omitted setting hgiven, h.omitted setting hgiven]
    rfl

/-- The options of a draft give what has its numbers, and silence or not like it. -/
theorem givenBy (h : draft.Holds choices) {a : Arguments}
    (hnumber : ∀ setting, a.number? setting = (draft.value? setting).or setting.default?)
    (hmute : a.mute = draft.mute) : a.GivenBy choices where
  once := h.once
  given setting text joined hmem := by
    obtain ⟨n, hn, hvalue⟩ := h.given setting text joined hmem
    refine ⟨n, (Setting.value?_eq_some_iff.1 hn).1, ?_⟩
    rw [hnumber, hvalue]
    rfl
  omitted setting hsetting := by
    rw [hnumber, h.omitted setting hsetting]
    rfl
  mute_iff := by rw [hmute, h.mute_iff]

end Draft.Holds

/-! ## Whole command lines -/

/-- A default is in the range of its option. -/
theorem Setting.default?_in_range {setting : Setting} {n : Nat} (h : setting.default? = some n) :
    setting.least ≤ n ∧ n ≤ setting.most := by
  cases setting <;> cases h <;> decide

theorem parse_eq_ok_iff {words : List String} {a : Arguments} :
    parse words = .ok a ↔
      ∃ d, Draft.empty.addAll (items false words) = .ok d ∧ d.finish = .ok a := by
  rw [parse]
  cases Draft.empty.addAll (items false words) with
  | error => simp
  | ok d => simp

/-- What a command line is accepted for is in range and written by it. -/
theorem inRange_writtenAs_of_parse {words : List String} {a : Arguments}
    (h : parse words = .ok a) : a.InRange ∧ a.WrittenAs words := by
  obtain ⟨d, hd, hfinish⟩ := parse_eq_ok_iff.1 h
  rcases exists_layout (Draft.isFaulty_of_addAll hd) with
    ⟨path, before, after, hlayout, hbefore, hafter⟩ | ⟨choices, hchoices⟩
  · rw [hlayout.items_eq hbefore hafter] at hd
    obtain ⟨hpath, hholds, hrom⟩ := Draft.holds_of_addAll_path hd
    obtain ⟨b, hb, rfl, hnumber, hmute⟩ := hholds.exists_finish hrom
    obtain rfl := Except.ok.inj (hfinish.symm.trans hb)
    refine ⟨Arguments.inRange_iff.2 ⟨hpath, fun setting n hn => ?_⟩, before, after,
      hholds.givenBy hnumber hmute, hlayout⟩
    rw [hnumber, Option.or_eq_some_iff] at hn
    rcases hn with hvalue | ⟨-, hdefault⟩
    · exact hholds.in_range hvalue
    · exact Setting.default?_in_range hdefault
  · rw [hchoices] at hd
    have hrom := (Draft.holds_empty.addAll hd).2
    rw [Draft.finish, hrom] at hfinish
    cases hfinish

/-- What is in range is read from every command line that writes it. -/
theorem parse_of_writtenAs {words : List String} {a : Arguments} (hrange : a.InRange)
    (h : a.WrittenAs words) : parse words = .ok a := by
  obtain ⟨before, after, hgiven, hlayout⟩ := h
  obtain ⟨hbefore, hafter⟩ := List.forall_mem_append.1 hgiven.separable
  obtain ⟨d, hd⟩ := Draft.exists_addAll_path hrange.rom_ne hgiven.once (hgiven.isValid hrange)
  obtain ⟨-, hholds, hrom⟩ := Draft.holds_of_addAll_path hd
  obtain ⟨b, hb, hbrom, hnumber, hmute⟩ := hholds.exists_finish hrom
  have hab : a = b := by
    refine Arguments.ext_number? hbrom.symm (fun setting => ?_) ?_
    · rw [hnumber, hholds.number?_of_givenBy hgiven]
    · rw [hmute, Bool.eq_iff_iff, hgiven.mute_iff, hholds.mute_iff]
  rw [← hlayout.items_eq hbefore hafter] at hd
  exact parse_eq_ok_iff.2 ⟨d, hd, hab ▸ hb⟩

/-- A command line is accepted exactly for what it writes and what is in range, and everything can
be written. What a command line is accepted for has a frame rate that a second can be divided by, a
window whose width and height are 64 and 32 times its scale also as numbers of 32 bits, and as many
cycles in a frame as in the period of the timers. -/
theorem accepted_iff_written_in_range (words : List String) (a : Arguments) :
    (parse words = .ok a ↔ a.InRange ∧ a.WrittenAs words) ∧
    (∃ written, a.WrittenAs written) ∧
    (parse words = .ok a →
      a.frameRate ≠ 0 ∧
      (Window.width a.scale).toNat = 64 * a.scale.toNat ∧
      (Window.height a.scale).toNat = 32 * a.scale.toNat ∧
      (Session.settings a).timerPeriod = a.cyclesPerFrame) := by
  refine ⟨⟨inRange_writtenAs_of_parse, fun h => parse_of_writtenAs h.1 h.2⟩,
    ⟨_, a.writtenAs_allChoices⟩, fun h => ?_⟩
  have hrange := (inRange_writtenAs_of_parse h).1
  exact ⟨hrange.frameRate_ne_zero, hrange.toNat_width, hrange.toNat_height, hrange.timerPeriod_eq⟩

/-- What this command line writes: a frame rate before the path, the greatest seed and silence after
it, and the rest by default. -/
def bothSidesArguments : Arguments :=
  { rom := "a.ch8", frameRate := 90, seed := some 18446744073709551615, mute := true }

theorem accepted_iff_written_in_range_on_both_sides :
    parse ["--frame-rate", "+090", "a.ch8", "--seed=18446744073709551615", "--mute"] =
        .ok bothSidesArguments ∧
      (Window.width bothSidesArguments.scale).toNat = 640 := by
  obtain ⟨hiff, -, hfacts⟩ := accepted_iff_written_in_range
    ["--frame-rate", "+090", "a.ch8", "--seed=18446744073709551615", "--mute"] bothSidesArguments
  have hgiven : bothSidesArguments.GivenBy ([.number .frameRate "+090" false] ++
      [.number .seed "18446744073709551615" true, .mute]) := by
    refine ⟨by decide, ?_, ?_, by simp [bothSidesArguments]⟩
    · intro setting text joined hmem
      simp only [List.cons_append, List.nil_append, List.mem_cons, Choice.number.injEq] at hmem
      rcases hmem with ⟨rfl, rfl, -⟩ | ⟨rfl, rfl, -⟩ | hmem | hmem
      · exact ⟨90, ⟨['+'], 1, .inr rfl, by decide⟩, rfl⟩
      · exact ⟨18446744073709551615, ⟨[], 0, .inl rfl, by decide⟩, rfl⟩
      · cases hmem
      · cases hmem
    · intro setting hsetting
      cases setting with
      | cyclesPerFrame | scale => rfl
      | frameRate | seed => exact absurd hsetting (by decide)
  have haccepted := hiff.2 ⟨⟨by decide, by decide, by decide, by decide, by decide, by decide⟩,
    _, _, hgiven, .among fun hdash => absurd hdash (by decide)⟩
  exact ⟨haccepted, (hfacts haccepted).2.1⟩

end CommandLine

end Chip8VM.Host
