import LoxLex.Proofs.Meaning
import LoxLex.Proofs.Rounding
import Mathlib.Tactic.FieldSimp

namespace LoxLex

namespace Text

def digitValue (c : Char) : Nat := c.toNat - '0'.toNat

/-- What digits count in front of a point. -/
def wholeValue : Text → Nat
  | [] => 0
  | d :: rest => digitValue d * 10 ^ rest.length + wholeValue rest

/-- What digits count behind a point. -/
def fractionValue : Text → ℚ
  | [] => 0
  | d :: rest => (digitValue d + fractionValue rest) / 10

theorem ofDigitChars_eq_wholeValue (digits : Text) :
    Nat.ofDigitChars 10 digits 0 = wholeValue digits := by
  induction digits with
  | nil => exact Nat.ofDigitChars_nil
  | cons d rest ih =>
      rw [Nat.ofDigitChars_cons, Nat.ofDigitChars_eq_ofDigitChars_zero, ih, wholeValue,
        Nat.mul_zero, Nat.zero_add, Nat.mul_comm]
      rfl

theorem wholeValue_append (front back : Text) :
    wholeValue (front ++ back) = wholeValue front * 10 ^ back.length + wholeValue back := by
  induction front with
  | nil => simp [wholeValue]
  | cons d rest ih =>
      rw [List.cons_append, wholeValue, wholeValue, ih, List.length_append, pow_add]
      ring

theorem fractionValue_eq (digits : Text) :
    fractionValue digits = wholeValue digits / 10 ^ digits.length := by
  induction digits with
  | nil => simp [fractionValue, wholeValue]
  | cons d rest ih =>
      rw [fractionValue, wholeValue, ih, List.length_cons, pow_succ]
      push_cast
      field_simp

end Text

namespace Numeral

/-- The rational that digits denote, with or without a point among them. -/
def value (numeral : Text) : ℚ :=
  Text.wholeValue (numeral.takeWhile (· ≠ '.')) +
    Text.fractionValue (numeral.dropWhile (· ≠ '.')).tail

theorem value_nonneg (numeral : Text) : 0 ≤ value numeral := by
  rw [value, Text.fractionValue_eq]
  positivity

theorem value_eq (numeral : Text) :
    value numeral = (Decimal.ofNumeral numeral).digits /
      (Nat.pow 10 (Decimal.ofNumeral numeral).places : Nat) := by
  simp only [value, Decimal.ofNumeral, Text.fractionValue_eq, Text.ofDigitChars_eq_wholeValue,
    Text.wholeValue_append, Nat.pow_eq]
  push_cast
  field_simp

theorem roundsTo_toDouble (numeral : Text) :
    Double.RoundsTo (value numeral) (Decimal.ofNumeral numeral).toDouble := by
  rw [value_eq]
  exact Double.roundsTo_nearest _ _ (Nat.pow_pos (by decide))

end Numeral

section Token

variable {text : Text} {token : Token} {x : Double}

theorem number_of_mem_tokens (member : token ∈ tokens text) (number : token.kind = .number) :
    IsNumeral token.lexeme ∧
      token.literal = some (.number (Decimal.ofNumeral token.lexeme).toDouble) := by
  rcases spelled_of_mem_tokens member with ended | spelled
  · rw [ended] at number
    contradiction
  · rw [number] at spelled
    generalize token.lexeme = lexeme, token.literal = literal at *
    cases spelled with
    | number numeral => exact ⟨numeral, rfl⟩

theorem kind_of_number (member : token ∈ tokens text) (valued : token.literal = some (.number x)) :
    token.kind = .number := by
  rcases spelled_of_mem_tokens member with ended | spelled
  · rw [ended] at valued
    contradiction
  · rw [valued] at spelled
    generalize token.lexeme = lexeme, token.kind = kind at *
    cases spelled with
    | number numeral => rfl

theorem roundsTo_of_number (member : token ∈ tokens text)
    (valued : token.literal = some (.number x)) :
    Double.RoundsTo (Numeral.value token.lexeme) x := by
  obtain ⟨_, value⟩ := number_of_mem_tokens member (kind_of_number member valued)
  rw [valued] at value
  cases value
  exact Numeral.roundsTo_toDouble token.lexeme

end Token

/-- The value of a number is the double that its lexeme, as an exact rational, is rounded to:
infinity from halfway above the largest double on, and zero up to half of the smallest.  It is
no NaN and has no sign, and it grows with the rational. -/
theorem number_values :
    (∀ text, ∀ token ∈ tokens text, token.kind = .number →
      IsNumeral token.lexeme ∧ ∃ x : Double, token.literal = some (.number x) ∧
        x.isNegative = false ∧ x.isNaN = false ∧
        (∀ y, Double.RoundsTo (Numeral.value token.lexeme) y ↔ y = x) ∧
        (x.bits = 0x7ff0000000000000 ↔ 2 ^ 1024 - 2 ^ 970 ≤ Numeral.value token.lexeme) ∧
        (x.bits = 0 ↔ Numeral.value token.lexeme ≤ 1 / 2 ^ 1075)) ∧
    (∀ first second token other x y, token ∈ tokens first → other ∈ tokens second →
      token.literal = some (.number x) → other.literal = some (.number y) →
      Numeral.value token.lexeme ≤ Numeral.value other.lexeme → Double.AtMost x y) := by
  constructor
  · intro text token member number
    obtain ⟨numeral, valued⟩ := number_of_mem_tokens member number
    have nonneg := Numeral.value_nonneg token.lexeme
    have rounds := Numeral.roundsTo_toDouble token.lexeme
    have large := rounds.infinity_iff
    have small := rounds.zero_iff nonneg
    generalize (Decimal.ofNumeral token.lexeme).toDouble = x at *
    refine ⟨numeral, x, valued, rounds.unsigned nonneg, rounds.number nonneg, ?_, ?_, ?_⟩
    · intro y
      constructor
      · intro other
        exact other.unique rounds
      · rintro rfl
        exact rounds
    · rw [← Double.overflow, ← large, Double.eq_iff_bits]
      rfl
    · rw [← small, Double.eq_iff_bits]
      rfl
  · intro first second token other x y member otherMember valued otherValued le
    exact (roundsTo_of_number member valued).atMost (roundsTo_of_number otherMember otherValued)
      (Numeral.value_nonneg token.lexeme) le

/-- A numeral halfway between two doubles, beside the even one of them. -/
theorem number_values_halfway :
    let token (lexeme : Text) : Token := ⟨.number, lexeme, some (.number ⟨0x4340000000000000⟩), 1⟩
    let halfway : Text := "9007199254740993".toList
    let even : Text := "9007199254740992.0".toList
    token halfway ∈ tokens halfway ∧ token even ∈ tokens even ∧
      Double.RoundsTo (Numeral.value halfway) ⟨0x4340000000000000⟩ ∧
      Numeral.value even ≤ Numeral.value halfway ∧
      Double.AtMost ⟨0x4340000000000000⟩ ⟨0x4340000000000000⟩ := by
  intro token halfway even
  have found : token halfway ∈ tokens halfway := by decide +kernel
  have other : token even ∈ tokens even := by decide +kernel
  have le : Numeral.value even ≤ Numeral.value halfway := by
    rw [Numeral.value_eq, Numeral.value_eq]
    decide +kernel
  obtain ⟨_, x, valued, _, _, rounded, _⟩ := number_values.1 halfway _ found rfl
  cases valued
  exact ⟨found, other, (rounded _).mpr rfl, le,
    number_values.2 even halfway _ _ _ _ other found rfl rfl le⟩

end LoxLex
