import Mathlib.Data.List.Induction
import Chip8VM.Host.CommandLine

/-!
# Decimal numbers on a command line

A text writes a number by its decimal digits, as `toString` does. Zeros may stand before the digits,
and a plus sign before all of them (`Writes`). These texts are read as the number they write, and no
others are read as a number (`number?_eq_some_iff`): digits are never anything but zeros and then
the digits of the number that they amount to.
-/

namespace Chip8VM.Host.CommandLine

/-- The text is the number in decimal, after as many zeros as one likes and a plus sign or none. -/
def Writes (text : String) (n : Nat) : Prop :=
  ∃ sign zeros, (sign = [] ∨ sign = ['+']) ∧
    text.toList = sign ++ (List.replicate zeros '0' ++ Nat.toDigits 10 n)

theorem writes_toString (n : Nat) : Writes (toString n) n :=
  ⟨[], 0, .inl rfl, Nat.toList_repr⟩

/-! ## Digits -/

theorem decimalValue_eq (digits : List Char) :
    decimalValue digits = Nat.ofDigitChars 10 digits 0 := by
  simp only [decimalValue, Nat.ofDigitChars, Nat.mul_comm 10]

theorem decimalValue_concat (digits : List Char) (c : Char) :
    decimalValue (digits ++ [c]) = 10 * decimalValue digits + (c.toNat - '0'.toNat) := by
  rw [decimalValue_eq, Nat.ofDigitChars_append, Nat.ofDigitChars_cons, decimalValue_eq]
  rfl

theorem decimalValue_zeros_toDigits (zeros n : Nat) :
    decimalValue (List.replicate zeros '0' ++ Nat.toDigits 10 n) = n := by
  rw [decimalValue_eq, Nat.ofDigitChars_append, Nat.ofDigitChars_replicate_zero, Nat.mul_zero,
    Nat.ofDigitChars_toDigits (by decide) (by decide)]

theorem isDigit_of_mem_zeros_toDigits {zeros n : Nat} {c : Char}
    (h : c ∈ List.replicate zeros '0' ++ Nat.toDigits 10 n) : c.isDigit = true := by
  rcases List.mem_append.1 h with hzero | hdigit
  · rw [List.eq_of_mem_replicate hzero]
    rfl
  · exact Nat.isDigit_of_mem_toDigits (by decide) (by decide) hdigit

/-- One digit is the number that it amounts to. -/
theorem toDigits_of_isDigit {c : Char} (h : c.isDigit = true) :
    c.toNat - '0'.toNat < 10 ∧ Nat.toDigits 10 (c.toNat - '0'.toNat) = [c] := by
  obtain ⟨hleast, hmost⟩ : 48 ≤ c.toNat ∧ c.toNat ≤ 57 := Char.isDigit_iff_toNat.1 h
  have hlt : c.toNat - '0'.toNat < 10 := by
    change c.toNat - 48 < 10
    omega
  refine ⟨hlt, ?_⟩
  rw [Nat.toDigits_of_lt_base hlt]
  refine congrArg (fun c => [c]) (Char.toNat_inj.1 ?_)
  rw [Nat.toNat_digitChar_of_lt_ten hlt]
  exact Nat.add_sub_cancel' hleast

/-- Digits are zeros and then the digits of what they amount to. By induction from the right: a
digit more goes to the digits of a positive number, and zero is a zero more before it. -/
theorem exists_zeros_toDigits {digits : List Char} (hne : digits ≠ [])
    (h : ∀ c ∈ digits, c.isDigit = true) :
    ∃ zeros, digits = List.replicate zeros '0' ++ Nat.toDigits 10 (decimalValue digits) := by
  induction digits using List.reverseRecOn with
  | nil => exact absurd rfl hne
  | append_singleton digits c ih =>
    obtain ⟨hlt, hc⟩ := toDigits_of_isDigit (h c List.mem_concat_self)
    rw [decimalValue_concat]
    rcases eq_or_ne digits [] with rfl | hdigits
    · refine ⟨0, ?_⟩
      rw [show decimalValue [] = 0 from rfl, Nat.mul_zero, Nat.zero_add, hc]
      rfl
    · obtain ⟨zeros, hread⟩ :=
        ih hdigits fun c hc => h c (List.mem_append_left _ hc)
      rcases Nat.eq_zero_or_pos (decimalValue digits) with hzero | hpos
      · rw [hzero, Nat.mul_zero, Nat.zero_add, hc]
        refine ⟨zeros + 1, congrArg (· ++ [c]) ?_⟩
        rw [hzero] at hread
        exact hread.trans List.replicate_succ'.symm
      · refine ⟨zeros, ?_⟩
        rw [← Nat.toDigits_append_toDigits (by decide) hpos hlt, hc, ← List.append_assoc, ← hread]

/-! ## Texts -/

theorem unsigned_of_isDigit {digits : List Char} (h : ∀ c ∈ digits, c.isDigit = true) :
    unsigned digits = digits := by
  unfold unsigned
  split
  · exact absurd (h '+' List.mem_cons_self) (by decide)
  · rfl

/-- A sign or none stands before what is left without it. -/
theorem exists_sign (cs : List Char) :
    ∃ sign, (sign = [] ∨ sign = ['+']) ∧ cs = sign ++ unsigned cs := by
  unfold unsigned
  split
  · exact ⟨['+'], .inr rfl, rfl⟩
  · exact ⟨[], .inl rfl, rfl⟩

/-- A text is read as the number that it writes, if it writes any. -/
theorem number?_eq_some_iff {text : String} {n : Nat} :
    number? text = some n ↔ Writes text n := by
  rw [number?]
  constructor
  · intro h
    split at h
    case isTrue hdigits =>
      obtain ⟨hne, hall⟩ := hdigits
      obtain ⟨sign, hsign, htext⟩ := exists_sign text.toList
      obtain ⟨zeros, hread⟩ := exists_zeros_toDigits hne (List.all_eq_true.1 hall)
      refine ⟨sign, zeros, hsign, ?_⟩
      rw [← Option.some.inj h, ← hread]
      exact htext
    case isFalse => cases h
  · rintro ⟨sign, zeros, hsign, htext⟩
    have hdigits : unsigned text.toList = List.replicate zeros '0' ++ Nat.toDigits 10 n := by
      rcases hsign with rfl | rfl
      · rw [htext]
        exact unsigned_of_isDigit fun c => isDigit_of_mem_zeros_toDigits
      · rw [htext]
        rfl
    rw [hdigits, if_pos, decimalValue_zeros_toDigits]
    exact ⟨List.append_ne_nil_of_right_ne_nil _ Nat.toDigits_ne_nil,
      List.all_eq_true.2 fun c => isDigit_of_mem_zeros_toDigits⟩

/-- A number does not start with a dash. -/
theorem Writes.head_ne_dash {text : String} {n : Nat} (h : Writes text n) :
    text.toList.head? ≠ some '-' := by
  obtain ⟨sign, zeros, rfl | rfl, htext⟩ := h
  · intro hdash
    rw [htext] at hdash
    exact absurd (isDigit_of_mem_zeros_toDigits (List.mem_of_head? hdash)) (by decide)
  · rw [htext]
    exact fun hdash => absurd (Option.some.inj hdash) (by decide)

end Chip8VM.Host.CommandLine
