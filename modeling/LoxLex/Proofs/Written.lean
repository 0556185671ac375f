import LoxLex.Proofs.Shortest

namespace LoxLex

/-- The exponent that is written behind its mark. -/
def exponentValue : Text → ℤ
  | '-' :: digits => -Text.wholeValue digits
  | '+' :: digits => Text.wholeValue digits
  | digits => Text.wholeValue digits

/-- The rational that is written with or without an exponent. -/
def writtenValue (text : Text) : ℚ :=
  Numeral.value (text.takeWhile (· ≠ 'e')) * 10 ^ exponentValue (text.dropWhile (· ≠ 'e')).tail

/-- The digits in front of an exponent, without the zeros at either end. -/
def significantDigits (text : Text) : Text :=
  trimZeros ((text.takeWhile (· ≠ 'e')).filter Char.isDigit)

/-- A decimal as it is written: a numeral, or one in front of an exponent with a sign. -/
inductive IsWritten : Text → Prop
  | positional {text : Text} (numeral : IsNumeral text) : IsWritten text
  | scientific {mantissa exponent : Text} {sign : Char} (numeral : IsNumeral mantissa)
      (signed : sign = '+' ∨ sign = '-') (digits : IsDigits exponent) :
      IsWritten (mantissa ++ 'e' :: sign :: exponent)

section Written

variable {text whole fraction : Text}

theorem IsNumeral.unmarked (numeral : IsNumeral text) : ∀ c ∈ text, decide (c ≠ 'e') = true := by
  apply Text.all_ne_of_not_mem
  intro member
  rcases numeral.digit_or_point 'e' member with digit | point <;> contradiction

theorem writtenValue_numeral (numeral : IsNumeral text) :
    writtenValue text = Numeral.value text := by
  have none : text.dropWhile (· ≠ 'e') = [] := List.dropWhile_eq_nil_iff.mpr numeral.unmarked
  rw [writtenValue, List.takeWhile_eq_self_iff.mpr numeral.unmarked, none]
  exact mul_one _

theorem writtenValue_scientific (numeral : IsNumeral text) (exponent : Text) :
    writtenValue (text ++ 'e' :: exponent) = Numeral.value text * 10 ^ exponentValue exponent := by
  rw [writtenValue, List.takeWhile_append_of_pos numeral.unmarked,
    List.dropWhile_append_of_pos numeral.unmarked, List.takeWhile_cons_of_neg (by decide),
    List.dropWhile_cons_of_neg (by decide), List.append_nil, List.tail_cons]

theorem significantDigits_numeral (numeral : IsNumeral text) :
    significantDigits text = trimZeros (text.filter Char.isDigit) := by
  rw [significantDigits, List.takeWhile_eq_self_iff.mpr numeral.unmarked]

theorem significantDigits_scientific (numeral : IsNumeral text) (exponent : Text) :
    significantDigits (text ++ 'e' :: exponent) = trimZeros (text.filter Char.isDigit) := by
  rw [significantDigits, List.takeWhile_append_of_pos numeral.unmarked,
    List.takeWhile_cons_of_neg (by decide), List.append_nil]

theorem IsDigits.unpointed (digits : IsDigits whole) : ∀ c ∈ whole, decide (c ≠ '.') = true := by
  apply Text.all_ne_of_not_mem
  intro member
  have digit := digits.2 '.' member
  contradiction

theorem value_whole (digits : IsDigits whole) : Numeral.value whole = Text.wholeValue whole := by
  have none : whole.dropWhile (· ≠ '.') = [] := List.dropWhile_eq_nil_iff.mpr digits.unpointed
  rw [Numeral.value, List.takeWhile_eq_self_iff.mpr digits.unpointed, none]
  exact add_zero _

theorem value_fraction (digits : IsDigits whole) (fraction : Text) :
    Numeral.value (whole ++ '.' :: fraction) =
      Text.wholeValue (whole ++ fraction) / 10 ^ fraction.length := by
  rw [Numeral.value, List.takeWhile_append_of_pos digits.unpointed,
    List.dropWhile_append_of_pos digits.unpointed, List.takeWhile_cons_of_neg (by decide),
    List.dropWhile_cons_of_neg (by decide), List.append_nil, List.tail_cons, Text.fractionValue_eq,
    Text.wholeValue_append]
  push_cast
  field_simp

theorem filter_whole (digits : IsDigits whole) : whole.filter Char.isDigit = whole :=
  List.filter_eq_self.mpr digits.2

theorem filter_fraction (digits : IsDigits whole) (places : IsDigits fraction) :
    (whole ++ '.' :: fraction).filter Char.isDigit = whole ++ fraction := by
  rw [List.filter_append, List.filter_cons_of_neg (by decide), filter_whole digits,
    filter_whole places]

theorem IsNumeral.exists_value (numeral : IsNumeral text) :
    ∃ places : Nat,
      Numeral.value text = Text.wholeValue (text.filter Char.isDigit) / 10 ^ places := by
  cases numeral with
  | whole digits =>
      refine ⟨0, ?_⟩
      rw [value_whole digits, filter_whole digits, pow_zero, div_one]
  | @fraction whole fraction digits places =>
      refine ⟨fraction.length, ?_⟩
      rw [value_fraction digits, filter_fraction digits places]

theorem IsNumeral.exists_significant (numeral : IsNumeral text) :
    ∃ (k : Nat) (e : ℤ), Numeral.value text = k * 10 ^ e ∧
      k < 10 ^ (trimZeros (text.filter Char.isDigit)).length := by
  obtain ⟨places, value⟩ := numeral.exists_value
  have digits : ∀ c ∈ text.filter Char.isDigit, c.isDigit = true := fun c member =>
    (List.mem_filter.mp member).2
  obtain ⟨k, j, counts, few⟩ := LoxLex.exists_significant digits
  refine ⟨k, j - places, ?_, few⟩
  rw [value, counts, ten_zpow_sub, zpow_natCast]
  push_cast
  ring

/-- What is written is less than ten to the number of its significant digits, but for a power of
ten. -/
theorem IsWritten.exists_significant (written : IsWritten text) :
    ∃ (k : Nat) (e : ℤ), writtenValue text = k * 10 ^ e ∧
      k < 10 ^ (significantDigits text).length := by
  cases written with
  | positional numeral =>
      rw [writtenValue_numeral numeral, significantDigits_numeral numeral]
      exact numeral.exists_significant
  | @scientific mantissa exponent sign numeral signed digits =>
      obtain ⟨k, e, value, few⟩ := numeral.exists_significant
      rw [writtenValue_scientific numeral, significantDigits_scientific numeral]
      refine ⟨k, e + exponentValue (sign :: exponent), ?_, few⟩
      rw [value, zpow_add₀ (by decide), mul_assoc]

end Written

namespace Double.Significant

variable {s : Significant}

/-- The shortest digits, with zeros at either end, around a point. -/
theorem positional_eq (digits : IsDigits s.digits) :
    ∃ (whole fraction : Text) (n m : Nat), s.positional = whole ++ '.' :: fraction ∧
      whole ≠ [] ∧ fraction ≠ [] ∧ whole ++ fraction = zeros n ++ s.digits ++ zeros m ∧
      (fraction.length : ℤ) = m + s.digits.length - s.exponent - 1 := by
  have some := List.length_pos_iff.mpr digits.1
  unfold positional
  split
  · generalize places : (-s.exponent - 1).toNat = n
    refine ⟨['0'], zeros n ++ s.digits, 1 + n, 0, rfl, List.cons_ne_nil _ _, ?_, ?_, ?_⟩
    · exact List.append_ne_nil_of_right_ne_nil _ digits.1
    · rw [← zeros_append]
      simp [zeros]
    · rw [List.length_append, zeros, List.length_replicate]
      omega
  · dsimp only
    split
    · generalize places : s.exponent.toNat + 1 - s.digits.length = m
      refine ⟨s.digits ++ zeros m, ['0'], 0, m + 1, by simp, ?_, List.cons_ne_nil _ _, ?_, ?_⟩
      · exact List.append_ne_nil_of_left_ne_nil digits.1 _
      · rw [← zeros_append]
        simp [zeros]
      · rw [List.length_singleton]
        omega
    · refine ⟨_, _, 0, 0, rfl, ?_, ?_, ?_, ?_⟩
      · rw [← List.length_pos_iff, List.length_take]
        omega
      · rw [← List.length_pos_iff, List.length_drop]
        omega
      · simp [zeros]
      · rw [List.length_drop]
        omega

/-- What a text with or without an exponent has to be, to stand for the digits. -/
structure Writes (text : Text) (s : Significant) : Prop where
  written : IsWritten text
  value : writtenValue text = s.value
  digits : significantDigits text = s.digits

theorem positional_digits (digits : IsDigits s.digits) :
    ∃ (whole fraction : Text) (n m : Nat), s.positional = whole ++ '.' :: fraction ∧
      IsDigits whole ∧ IsDigits fraction ∧ whole ++ fraction = zeros n ++ s.digits ++ zeros m ∧
      (fraction.length : ℤ) = m + s.digits.length - s.exponent - 1 := by
  obtain ⟨whole, fraction, n, m, form, before, behind, parts, places⟩ := positional_eq digits
  have all : ∀ c ∈ whole ++ fraction, c.isDigit = true := by
    intro c member
    rw [parts] at member
    rcases List.mem_append.mp member with front | back
    · rcases List.mem_append.mp front with zero | digit
      · exact isDigits_zeros n c zero
      · exact digits.2 c digit
    · exact isDigits_zeros m c back
  exact ⟨whole, fraction, n, m, form,
    ⟨before, fun c member => all c (List.mem_append_left _ member)⟩,
    ⟨behind, fun c member => all c (List.mem_append_right _ member)⟩, parts, places⟩

theorem isNumeral_positional (digits : IsDigits s.digits) : IsNumeral s.positional := by
  obtain ⟨whole, fraction, _, _, form, before, behind, _⟩ := positional_digits digits
  rw [form]
  exact .fraction before behind

theorem writes_positional (significant : IsSignificant s.digits) : Writes s.positional s := by
  have numeral := isNumeral_positional significant.isDigits
  obtain ⟨whole, fraction, n, m, form, before, behind, parts, places⟩ :=
    positional_digits significant.isDigits
  refine ⟨.positional numeral, ?_, ?_⟩
  · rw [writtenValue_numeral numeral, form, value_fraction before, parts, List.append_assoc,
      wholeValue_zeros_append, wholeValue_append_zeros, value,
      show s.exponent - s.digits.length + 1 = m - fraction.length by omega, ten_zpow_sub,
      zpow_natCast, mul_div_assoc']
    push_cast
    rfl
  · rw [significantDigits_numeral numeral, form, filter_fraction before behind, parts]
    exact significant.trim n m

theorem exponentValue_exponentText (e : ℤ) : exponentValue (exponentText e) = e := by
  have digits : Text.wholeValue ((Text.ofNat e.natAbs).leftpad 2 '0') = e.natAbs :=
    (wholeValue_zeros_append _ _).trans (wholeValue_toDigits _)
  unfold exponentText
  split
  · rw [exponentValue, digits]
    omega
  · rw [exponentValue, digits]
    omega

theorem scientific_eq (digits : IsDigits s.digits) :
    ∃ mantissa, s.scientific = mantissa ++ 'e' :: exponentText s.exponent ∧ IsNumeral mantissa ∧
      mantissa.filter Char.isDigit = s.digits ∧
      Numeral.value mantissa = Text.wholeValue s.digits / 10 ^ (s.digits.length - 1) := by
  obtain ⟨d, rest, form⟩ := List.exists_cons_of_ne_nil digits.1
  refine ⟨_, rfl, ?_⟩
  rw [form] at digits ⊢
  have first : IsDigits [d] := ⟨List.cons_ne_nil _ _, fun c member =>
    digits.2 c (List.mem_cons.mpr (.inl (List.mem_singleton.mp member)))⟩
  rw [List.take_succ_cons, List.take_zero, List.drop_succ_cons, List.drop_zero, List.length_cons,
    Nat.add_sub_cancel]
  split
  · rename_i alone
    rw [alone, List.append_nil, filter_whole first, value_whole first]
    exact ⟨.whole first, rfl, (div_one _).symm⟩
  · rename_i more
    have others : IsDigits rest :=
      ⟨more, fun c member => digits.2 c (List.mem_cons_of_mem _ member)⟩
    rw [filter_fraction first others, value_fraction first]
    exact ⟨.fraction first others, rfl, rfl⟩

theorem exponentText_eq (e : ℤ) : ∃ sign digits, exponentText e = sign :: digits ∧
    (sign = '+' ∨ sign = '-') ∧ IsDigits digits := by
  obtain ⟨nonempty, digits⟩ := isDigits_toDigits e.natAbs
  refine ⟨_, _, rfl, ?_, List.append_ne_nil_of_right_ne_nil _ nonempty, fun c member => ?_⟩
  · split
    · exact .inr rfl
    · exact .inl rfl
  · rcases List.mem_append.mp member with zero | digit
    · exact isDigits_zeros _ c zero
    · exact digits c digit

theorem writes_scientific (significant : IsSignificant s.digits) : Writes s.scientific s := by
  obtain ⟨mantissa, form, numeral, filtered, counts⟩ := scientific_eq significant.isDigits
  obtain ⟨sign, exponent, exponentForm, signed, digits⟩ := exponentText_eq s.exponent
  have some := List.length_pos_iff.mpr significant.isDigits.1
  refine ⟨?_, ?_, ?_⟩
  · rw [form, exponentForm]
    exact .scientific numeral signed digits
  · rw [form, writtenValue_scientific numeral, counts, exponentValue_exponentText, value,
      show s.exponent - s.digits.length + 1 = s.exponent - (s.digits.length - 1 : Nat) by omega,
      ten_zpow_sub]
    ring
  · rw [form, significantDigits_scientific numeral, filtered]
    have trimmed := significant.trim 0 0
    rwa [zeros, List.replicate_zero, List.nil_append, List.append_nil] at trimmed

theorem not_isNumeral_scientific : ¬ IsNumeral s.scientific := by
  intro numeral
  have marked : 'e' ∈ s.scientific :=
    List.mem_append_right _ List.mem_cons_self
  rcases numeral.digit_or_point 'e' marked with digit | point <;> contradiction

theorem writes_text (significant : IsSignificant s.digits) : Writes s.text s := by
  unfold text
  split
  · exact writes_positional significant
  · exact writes_scientific significant

theorem isNumeral_text_iff (digits : IsDigits s.digits) :
    IsNumeral s.text ↔ isPositional s.exponent = true := by
  unfold text
  split
  · rename_i positional
    exact iff_of_true (isNumeral_positional digits) positional
  · rename_i scientific
    exact iff_of_false not_isNumeral_scientific scientific

end Double.Significant

namespace Double

variable {x : Double}

theorem text_zero (unsigned : x.isNegative = false) (zero : x.magnitude = 0) :
    x.text = "0.0".toList := by
  rw [eq_ofMagnitude unsigned, zero]
  rfl

theorem text_eq (positive : IsPositive x) : x.text = x.shortest.text := by
  have bound := magnitude_lt_of_isFinite positive.finite
  have number : x.isNaN = false := decide_eq_false (by omega)
  have below : x.isInfinite = false := decide_eq_false (by omega)
  have counted : x.isZero = false := decide_eq_false positive.nonzero
  simp only [text, magnitudeText, number, positive.unsigned, below, counted, Bool.false_eq_true,
    if_false]

/-- What a finite double is written as, and that it is read back from there. -/
theorem text_reads_back (finite : x.isFinite = true) (unsigned : x.isNegative = false) :
    IsWritten x.text ∧ RoundsTo (writtenValue x.text) x ∧
      (IsNumeral x.text ↔ x.toRat = 0 ∨ 1 / 10 ^ 4 ≤ x.toRat ∧ x.toRat < 10 ^ 16) := by
  have zero := toRat_eq_zero_iff unsigned
  rcases eq_or_ne x.magnitude 0 with none | nonzero
  · have digit : IsDigits ['0'] := isDigits_toDigits 0
    have numeral : IsNumeral ['0', '.', '0'] := .fraction digit digit
    have counts : writtenValue ['0', '.', '0'] = x.toRat := by
      rw [zero.mpr none, writtenValue_numeral numeral]
      refine (value_fraction digit ['0']).trans ?_
      rw [show Text.wholeValue (['0'] ++ ['0']) = 0 from rfl, Nat.cast_zero, zero_div]
    rw [text_zero unsigned none]
    refine ⟨.positional numeral, ?_, iff_of_true numeral (.inl (zero.mpr none))⟩
    exact counts ▸ roundsTo_toRat finite unsigned
  · have positive : IsPositive x := ⟨finite, unsigned, nonzero⟩
    have shortest := isShortest_shortest positive
    have writes := Significant.writes_text shortest.significant
    rw [text_eq positive]
    refine ⟨writes.written, writes.value ▸ shortest.roundsTo, ?_⟩
    rw [Significant.isNumeral_text_iff shortest.significant.isDigits, shortest.isPositional_iff,
      zero, or_iff_right nonzero]

theorem text_fewest (finite : x.isFinite = true) (unsigned : x.isNegative = false)
    (nonzero : x.toRat ≠ 0) {other : Text} (written : IsWritten other)
    (rounds : RoundsTo (writtenValue other) x) :
    (significantDigits x.text).length ≤ (significantDigits other).length := by
  rw [Ne, toRat_eq_zero_iff unsigned] at nonzero
  have positive : IsPositive x := ⟨finite, unsigned, nonzero⟩
  have shortest := isShortest_shortest positive
  obtain ⟨k, e, value, few⟩ := written.exists_significant
  rw [value] at rounds
  rw [text_eq positive, (Significant.writes_text shortest.significant).digits]
  exact shortest.fewest k _ e rounds few

end Double

theorem IsNumeral.lineBreaks (numeral : IsNumeral text) : Text.lineBreaks text = 0 := by
  apply List.count_eq_zero.mpr
  intro member
  rcases numeral.digit_or_point '\n' member with digit | point <;> contradiction

/-- A numeral is read as one number by itself. -/
theorem IsNumeral.alone {x : Double} (numeral : IsNumeral text)
    (rounds : Double.RoundsTo (Numeral.value text) x) :
    diagnostics text = [] ∧
      tokens text = [⟨.number, text, some (.number x), 1⟩, .endOfInput 1] := by
  have value : numeralValue text = .number x :=
    congrArg Literal.number ((Numeral.roundsTo_toDouble text).unique rounds)
  rw [diagnostics, reports, tokens, (Spells.number numeral).events_alone, numeral.lineBreaks, value]
  exact ⟨rfl, rfl⟩

/-- A number is listed with its value, and that is read back from what is written for it: it is
the double that the written rational is rounded to.  No decimal with fewer significant digits is
rounded to it, and where no exponent is written, the scanner reads it as the same number. -/
theorem printed_number_reads_back :
    ∀ text, ∀ token ∈ tokens text, ∀ x : Double, token.literal = some (.number x) →
      x.isFinite = true →
      token.listing = Kind.number.name ++ ' ' :: token.lexeme ++ ' ' :: x.text ∧
      IsWritten x.text ∧ Double.RoundsTo (writtenValue x.text) x ∧
      (x.toRat ≠ 0 → ∀ other, IsWritten other → Double.RoundsTo (writtenValue other) x →
        (significantDigits x.text).length ≤ (significantDigits other).length) ∧
      (IsNumeral x.text ↔ x.toRat = 0 ∨ 1 / 10 ^ 4 ≤ x.toRat ∧ x.toRat < 10 ^ 16) ∧
      (IsNumeral x.text → diagnostics x.text = [] ∧
        tokens x.text = [⟨.number, x.text, some (.number x), 1⟩, .endOfInput 1]) := by
  intro text token member x valued finite
  have unsigned := (roundsTo_of_number member valued).unsigned (Numeral.value_nonneg token.lexeme)
  obtain ⟨written, rounds, form⟩ := Double.text_reads_back finite unsigned
  refine ⟨?_, written, rounds, fun nonzero other otherWritten otherRounds =>
    Double.text_fewest finite unsigned nonzero otherWritten otherRounds, form, fun numeral => ?_⟩
  · rw [Token.listing, valued, kind_of_number member valued]
    rfl
  · rw [writtenValue_numeral numeral] at rounds
    exact numeral.alone rounds

/-- A sum of tenths that is written with all of its seventeen digits. -/
theorem printed_number_reads_back_seventeen :
    let lexeme : Text := "0.30000000000000004441".toList
    let written : Text := "0.30000000000000004".toList
    let x : Double := ⟨0x3fd3333333333334⟩
    ⟨.number, lexeme, some (.number x), 1⟩ ∈ tokens lexeme ∧ x.isFinite = true ∧ x.toRat ≠ 0 ∧
      IsWritten lexeme ∧ Double.RoundsTo (writtenValue lexeme) x ∧ x.text = written ∧
      Double.RoundsTo (writtenValue written) x ∧
      (significantDigits written).length ≤ (significantDigits lexeme).length ∧
      IsNumeral written ∧ diagnostics written = [] ∧
      tokens written = [⟨.number, written, some (.number x), 1⟩, .endOfInput 1] := by
  intro lexeme written x
  have member : ⟨.number, lexeme, some (.number x), 1⟩ ∈ tokens lexeme := by decide +kernel
  have nonzero : x.toRat ≠ 0 := by
    rw [Ne, Double.toRat_eq_zero_iff rfl]
    decide +kernel
  have numeral := (number_of_mem_tokens member rfl).1
  have rounds : Double.RoundsTo (writtenValue lexeme) x := by
    rw [writtenValue_numeral numeral]
    exact roundsTo_of_number member rfl
  have form : x.text = written := by decide +kernel
  have places : IsDigits "30000000000000004".toList :=
    ⟨List.cons_ne_nil _ _, List.all_eq_true.mp rfl⟩
  have fraction : IsNumeral written := .fraction (isDigits_toDigits 0) places
  obtain ⟨_, _, same, fewest, _, alone⟩ :=
    printed_number_reads_back lexeme _ member x rfl rfl
  rw [form] at same fewest alone
  exact ⟨member, rfl, nonzero, .positional numeral, rounds, form, same,
    fewest nonzero lexeme (.positional numeral) rounds, fraction, alone fraction⟩

end LoxLex
