import LoxLex.Number.Shortest
import LoxLex.Proofs.Numbers
import Mathlib.Data.List.DropRight

namespace LoxLex

/-- Digits with no zero at either end. -/
structure IsSignificant (digits : Text) : Prop where
  isDigits : IsDigits digits
  first : digits.head? ≠ some '0'
  last : digits.getLast? ≠ some '0'

/-- Digits without the zeros at either end. -/
def trimZeros (digits : Text) : Text := (digits.dropWhile (· = '0')).rdropWhile (· = '0')

theorem ten_zpow_add (e : ℤ) (m : Nat) : (10 : ℚ) ^ (e + m) = 10 ^ e * (10 ^ m : Nat) := by
  rw [zpow_add₀ (by decide), zpow_natCast, Nat.cast_pow, Nat.cast_ofNat]

theorem ten_zpow_sub (e : ℤ) (m : Nat) : (10 : ℚ) ^ (e - m) = 10 ^ e / 10 ^ m := by
  rw [zpow_sub₀ (by decide), zpow_natCast]

section Zeros

open Double (zeros stripZeros)

variable {digits text : Text}

theorem mem_zeros {n : Nat} {c : Char} (member : c ∈ zeros n) : c = '0' :=
  List.eq_of_mem_replicate member

theorem isDigits_zeros (n : Nat) : ∀ c ∈ zeros n, c.isDigit = true := by
  intro c member
  rw [mem_zeros member]
  rfl

theorem zeros_reverse (n : Nat) : (zeros n).reverse = zeros n := List.reverse_replicate

theorem zeros_append (n m : Nat) : zeros n ++ zeros m = zeros (n + m) :=
  List.replicate_append_replicate

theorem dropWhile_zeros (n : Nat) (first : digits.head? ≠ some '0') :
    (zeros n ++ digits).dropWhile (· = '0') = digits := by
  rw [List.dropWhile_append_of_pos fun c member => decide_eq_true (mem_zeros member)]
  cases digits with
  | nil => rfl
  | cons d rest =>
      have nonzero : d ≠ '0' := by simpa using first
      exact List.dropWhile_cons_of_neg (by simpa using nonzero)

theorem rdropWhile_zeros (n : Nat) (last : digits.getLast? ≠ some '0') :
    (digits ++ zeros n).rdropWhile (· = '0') = digits := by
  have first : digits.reverse.head? ≠ some '0' := by rwa [List.head?_reverse]
  rw [List.rdropWhile, List.reverse_append, zeros_reverse, dropWhile_zeros n first,
    List.reverse_reverse]

theorem IsSignificant.trim (significant : IsSignificant digits) (n m : Nat) :
    trimZeros (zeros n ++ digits ++ zeros m) = digits := by
  obtain ⟨d, rest, written⟩ := List.exists_cons_of_ne_nil significant.isDigits.1
  have first : (digits ++ zeros m).head? ≠ some '0' := by
    have first := significant.first
    rw [written] at first ⊢
    exact first
  rw [trimZeros, List.append_assoc, dropWhile_zeros n first]
  exact rdropWhile_zeros m significant.last

theorem zeros_append_dropWhile (digits : Text) :
    ∃ n, digits = zeros n ++ digits.dropWhile (· = '0') := by
  have parts : digits.takeWhile (· = '0') ++ digits.dropWhile (· = '0') = digits :=
    List.takeWhile_append_dropWhile
  have zero : ∀ c ∈ digits.takeWhile (· = '0'), c = '0' := by
    intro c member
    simpa using List.mem_takeWhile_imp member
  rw [List.eq_replicate_of_mem zero] at parts
  exact ⟨_, parts.symm⟩

theorem stripZeros_append (digits : Text) : ∃ n, digits = stripZeros digits ++ zeros n := by
  have parts : digits.rdropWhile (· = '0') ++ digits.rtakeWhile (· = '0') = digits :=
    List.rdropWhile_append_rtakeWhile
  have zero : ∀ c ∈ digits.rtakeWhile (· = '0'), c = '0' := by
    intro c member
    simpa using List.mem_rtakeWhile_imp member
  rw [List.eq_replicate_of_mem zero] at parts
  exact ⟨_, parts.symm⟩

theorem stripZeros_zeros (digits : Text) (n : Nat) :
    stripZeros (digits ++ zeros n) = stripZeros digits := by
  rw [stripZeros, List.reverse_append, zeros_reverse,
    List.dropWhile_append_of_pos fun c member => decide_eq_true (mem_zeros member)]
  rfl

end Zeros

section Value

open Double (zeros stripZeros)

variable {digits text : Text} {n m : Nat}

theorem digitValue_lt {c : Char} (digit : c.isDigit = true) : Text.digitValue c < 10 := by
  have bounds : 48 ≤ c.toNat ∧ c.toNat ≤ 57 := Char.isDigit_iff_toNat.mp digit
  change c.toNat - 48 < 10
  omega

theorem wholeValue_lt (digits : ∀ c ∈ text, c.isDigit = true) :
    Text.wholeValue text < 10 ^ text.length := by
  induction text with
  | nil => exact Nat.one_pos
  | cons c rest ih =>
      have first := digitValue_lt (digits c List.mem_cons_self)
      have others := ih fun d member => digits d (List.mem_cons_of_mem c member)
      have most : Text.digitValue c * 10 ^ rest.length ≤ 9 * 10 ^ rest.length :=
        Nat.mul_le_mul_right _ (by omega)
      rw [Text.wholeValue, List.length_cons, pow_succ]
      omega

theorem pow_le_wholeValue (significant : IsSignificant text) :
    10 ^ (text.length - 1) ≤ Text.wholeValue text := by
  obtain ⟨d, rest, rfl⟩ := List.exists_cons_of_ne_nil significant.isDigits.1
  have first : d ≠ '0' := by simpa using significant.first
  have bounds : 48 ≤ d.toNat ∧ d.toNat ≤ 57 :=
    Char.isDigit_iff_toNat.mp (significant.isDigits.2 d List.mem_cons_self)
  have differs : d.toNat ≠ 48 := fun same => first (Char.toNat_inj.mp same)
  have counts : 1 ≤ Text.digitValue d := by
    change 1 ≤ d.toNat - 48
    omega
  have least := Nat.mul_le_mul_right (10 ^ rest.length) counts
  rw [Text.wholeValue, List.length_cons, Nat.add_sub_cancel]
  omega

theorem wholeValue_zeros (n : Nat) : Text.wholeValue (zeros n) = 0 := by
  rw [← Text.ofDigitChars_eq_wholeValue, zeros, Nat.ofDigitChars_replicate_zero, Nat.mul_zero]

theorem wholeValue_zeros_append (n : Nat) (text : Text) :
    Text.wholeValue (zeros n ++ text) = Text.wholeValue text := by
  rw [Text.wholeValue_append, wholeValue_zeros, Nat.zero_mul, Nat.zero_add]

theorem wholeValue_append_zeros (text : Text) (n : Nat) :
    Text.wholeValue (text ++ zeros n) = Text.wholeValue text * 10 ^ n := by
  rw [Text.wholeValue_append, wholeValue_zeros, Nat.add_zero, zeros, List.length_replicate]

theorem wholeValue_toDigits (n : Nat) : Text.wholeValue (Nat.toDigits 10 n) = n := by
  rw [← Text.ofDigitChars_eq_wholeValue]
  exact Nat.ofDigitChars_ten_toDigits

theorem isDigits_toDigits (n : Nat) : IsDigits (Nat.toDigits 10 n) :=
  ⟨Nat.toDigits_ne_nil, fun _ member => Nat.isDigit_of_mem_toDigits (by decide) (by decide) member⟩

theorem toDigits_first (positive : 0 < n) : (Nat.toDigits 10 n).head? ≠ some '0' := by
  intro zero
  obtain ⟨rest, written⟩ := List.head?_eq_some_iff.mp zero
  have value := wholeValue_toDigits n
  have digits := isDigits_toDigits n
  rw [written] at value digits
  have small : n < 10 ^ rest.length := by
    rw [← value]
    exact wholeValue_zeros_append 1 rest ▸ wholeValue_lt fun c member =>
      digits.2 c (List.mem_cons_of_mem _ member)
  rcases Nat.eq_zero_or_pos rest.length with empty | more
  · rw [empty] at small
    omega
  · have short := (Nat.length_toDigits_le_iff (by decide) more).mpr small
    rw [written, List.length_cons] at short
    omega

theorem le_of_toDigits (positive : 0 < n) : 10 ^ ((Nat.toDigits 10 n).length - 1) ≤ n := by
  by_contra small
  rcases Nat.eq_zero_or_pos ((Nat.toDigits 10 n).length - 1) with empty | more
  · rw [empty] at small
    omega
  · have short := (Nat.length_toDigits_le_iff (by decide) more).mpr (Nat.not_le.mp small)
    omega

theorem lt_of_toDigits (n : Nat) : n < 10 ^ (Nat.toDigits 10 n).length :=
  (Nat.length_toDigits_le_iff (by decide) Nat.length_toDigits_pos).mp (Nat.le_refl _)

theorem isSignificant_stripZeros (positive : 0 < n) :
    IsSignificant (stripZeros (Nat.toDigits 10 n)) := by
  have first := toDigits_first positive
  have digits := isDigits_toDigits n
  obtain ⟨m, parts⟩ := stripZeros_append (Nat.toDigits 10 n)
  have nonempty : stripZeros (Nat.toDigits 10 n) ≠ [] := by
    intro empty
    rw [empty, List.nil_append] at parts
    have value := wholeValue_toDigits n
    rw [parts, wholeValue_zeros] at value
    omega
  refine ⟨⟨nonempty, fun c member => digits.2 c ?_⟩, ?_, ?_⟩
  · rw [parts]
    exact List.mem_append_left _ member
  · obtain ⟨d, rest, written⟩ := List.exists_cons_of_ne_nil nonempty
    rw [parts, written] at first
    rw [written]
    exact first
  · rw [List.getLast?_eq_some_getLast nonempty]
    intro zero
    apply List.rdropWhile_last_not (· = '0') (Nat.toDigits 10 n) nonempty
    exact decide_eq_true (Option.some.inj zero)

theorem toDigits_mul_pow (positive : 0 < n) (m : Nat) :
    Nat.toDigits 10 (n * 10 ^ m) = Nat.toDigits 10 n ++ zeros m := by
  induction m with
  | zero => simp [zeros]
  | succ m ih =>
      have ten : n * 10 ^ (m + 1) = 10 * (n * 10 ^ m) + 0 := by ring
      have scaled : 0 < n * 10 ^ m := Nat.mul_pos positive (Nat.pow_pos (by decide))
      rw [ten, ← Nat.toDigits_append_toDigits (by decide) scaled (by decide), ih,
        Nat.toDigits_zero, List.append_assoc]
      exact congrArg (Nat.toDigits 10 n ++ ·) (zeros_append m 1)

theorem length_stripZeros_le (bound : n ≤ 10 ^ m) (positive : 0 < m) :
    (stripZeros (Nat.toDigits 10 n)).length ≤ m := by
  rcases Nat.lt_or_eq_of_le bound with below | rfl
  · have shorter : (stripZeros (Nat.toDigits 10 n)).length ≤ (Nat.toDigits 10 n).length :=
      (List.rdropWhile_prefix (· = '0') (Nat.toDigits 10 n)).length_le
    exact shorter.trans ((Nat.length_toDigits_le_iff (by decide) positive).mpr below)
  · rw [← Nat.one_mul (10 ^ m), toDigits_mul_pow Nat.one_pos, stripZeros_zeros]
    exact positive

/-- Digits count less than ten to the number of the significant ones, but for the power of ten
that the zeros behind them make. -/
theorem exists_significant (digits : ∀ c ∈ text, c.isDigit = true) :
    ∃ k j, Text.wholeValue text = k * 10 ^ j ∧ k < 10 ^ (trimZeros text).length := by
  obtain ⟨n, parts⟩ := zeros_append_dropWhile text
  obtain ⟨j, rest⟩ := stripZeros_append (text.dropWhile (· = '0'))
  have counts : Text.wholeValue text = Text.wholeValue (trimZeros text) * 10 ^ j := by
    calc Text.wholeValue text = Text.wholeValue (zeros n ++ text.dropWhile (· = '0')) :=
          congrArg Text.wholeValue parts
      _ = Text.wholeValue (text.dropWhile (· = '0')) := wholeValue_zeros_append n _
      _ = Text.wholeValue (trimZeros text ++ zeros j) := congrArg Text.wholeValue rest
      _ = Text.wholeValue (trimZeros text) * 10 ^ j := wholeValue_append_zeros _ j
  refine ⟨_, j, counts, wholeValue_lt fun c member => digits c ?_⟩
  rw [parts, rest]
  exact List.mem_append_right _ (List.mem_append_left _ member)

end Value

end LoxLex
