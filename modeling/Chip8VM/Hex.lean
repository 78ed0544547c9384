/-!
# Hexadecimal text

Numbers are written in upper-case hexadecimal, the most significant digit first, with
no leading zero beyond the width that is asked for (`padded`). `value` reads digits
back, and a padded number reads back as itself whatever the width (`value_padded`), so
two numbers never share their text at one width.
-/

namespace Chip8VM.Hex

/-! ## Digits -/

/-- The digit of a value below sixteen. -/
def digit (d : Nat) : Char := if d < 10 then Char.ofNat (48 + d) else Char.ofNat (55 + d)

/-- The value of a digit that `digit` writes. -/
def digitValue (c : Char) : Nat := if c.toNat < 58 then c.toNat - 48 else c.toNat - 55

/-- The digits of a number, with no leading zero unless the number is zero. -/
def digits (n : Nat) : List Char :=
  if n < 16 then [digit n] else digits (n / 16) ++ [digit (n % 16)]

/-- The digits of a number, filled up with zeros to at least `width` of them. -/
def padded (width n : Nat) : List Char :=
  List.replicate (width - (digits n).length) '0' ++ digits n

/-- The number that a list of digits writes. -/
def value (cs : List Char) : Nat := cs.foldl (fun acc c => acc * 16 + digitValue c) 0

/-! ## Text -/

/-- A number in at least `width` digits. -/
def text (width n : Nat) : String := String.ofList (padded width n)

/-- A number in at least `width` digits, marked as hexadecimal by `0x`. -/
def literal (width n : Nat) : String := "0x" ++ text width n

/-! ## Reading back -/

theorem digitValue_digit : ∀ d < 16, digitValue (digit d) = d := by decide

theorem value_append (cs : List Char) (c : Char) :
    value (cs ++ [c]) = value cs * 16 + digitValue c := by
  simp [value, List.foldl_append]

theorem value_digits (n : Nat) : value (digits n) = n := by
  fun_induction digits n with
  | case1 n h => simpa [value] using digitValue_digit n h
  | case2 n h ih =>
    rw [value_append, ih, digitValue_digit _ (Nat.mod_lt _ (by decide))]
    omega

theorem value_replicate_append (k : Nat) (cs : List Char) :
    value (List.replicate k '0' ++ cs) = value cs := by
  induction k with
  | zero => rfl
  | succ k ih =>
    rw [List.replicate_succ, List.cons_append, ← ih]
    rfl

/-- A padded number reads back as itself, whatever the width. -/
theorem value_padded (width n : Nat) : value (padded width n) = n := by
  rw [padded, value_replicate_append, value_digits]

end Chip8VM.Hex
