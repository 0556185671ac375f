import LoxLex.Proofs.Written

namespace LoxLex

/-- The characters that numbers are written with. -/
def isNumberChar (c : Char) : Bool := c.isDigit || c.isLower || ['.', '+', '-'].contains c

theorem isNumberChar_of_isDigit {c : Char} (digit : c.isDigit = true) : isNumberChar c = true := by
  simp [isNumberChar, digit]

theorem IsNumeral.isNumberChar {text : Text} (numeral : IsNumeral text) :
    ∀ c ∈ text, isNumberChar c = true := by
  intro c member
  rcases numeral.digit_or_point c member with digit | rfl
  · exact isNumberChar_of_isDigit digit
  · rfl

namespace IsWritten

variable {text : Text}

theorem isNumberChar (written : IsWritten text) : ∀ c ∈ text, isNumberChar c = true := by
  cases written with
  | positional numeral => exact numeral.isNumberChar
  | scientific numeral signed digits =>
      intro c member
      rcases List.mem_append.mp member with front | behind
      · exact numeral.isNumberChar c front
      · rcases List.mem_cons.mp behind with rfl | exponent
        · rfl
        · rcases List.mem_cons.mp exponent with rfl | digit
          · rcases signed with rfl | rfl <;> rfl
          · exact isNumberChar_of_isDigit (digits.2 c digit)

theorem first (written : IsWritten text) : ∃ d rest, text = d :: rest ∧ d.isDigit = true := by
  cases written with
  | positional numeral => exact numeral.first
  | scientific numeral signed digits =>
      obtain ⟨d, rest, rfl, digit⟩ := numeral.first
      exact ⟨d, _, rfl, digit⟩

end IsWritten

namespace Double

variable {x y : Double}

theorem magnitude_lt (x : Double) : x.magnitude < 2 ^ 63 := Nat.mod_lt _ (Nat.pow_pos (by decide))

/-- A double is its sign and its magnitude. -/
theorem eq_of_sign_magnitude (sign : x.isNegative = y.isNegative)
    (same : x.magnitude = y.magnitude) : x = y := by
  have bound := x.bits.toNat_lt
  have otherBound := y.bits.toNat_lt
  have signs : 2 ^ 63 ≤ x.bits.toNat ↔ 2 ^ 63 ≤ y.bits.toNat := by
    simpa [isNegative] using sign
  change x.bits.toNat % 2 ^ 63 = y.bits.toNat % 2 ^ 63 at same
  rw [eq_iff_bits, ← UInt64.toNat_inj]
  omega

section Digits

variable {n : Nat}

theorem units_congr (same : x.magnitude = y.magnitude) : x.units = y.units := by
  rw [units_eq, units_eq, same]

theorem place_congr (same : x.magnitude = y.magnitude) : x.place = y.place := by
  rw [place, place, units_congr same]

theorem numerator_congr (same : x.magnitude = y.magnitude) (n : Nat) :
    x.grids.numerator n = y.grids.numerator n :=
  congrArg (· * Nat.pow 10 (324 + n)) (units_congr same)

theorem denominator_congr (same : x.magnitude = y.magnitude) :
    x.grids.denominator = y.grids.denominator :=
  congrArg (unitsPerOne * Nat.pow 10 ·) (place_congr same)

theorem below_congr (same : x.magnitude = y.magnitude) (n : Nat) :
    x.grids.below n = y.grids.below n := by
  rw [Grids.below, Grids.below, numerator_congr same, denominator_congr same]

theorem readsBack_congr (same : x.magnitude = y.magnitude) (n : Nat) :
    x.grids.readsBack n = y.grids.readsBack n := by
  funext point
  have places := place_congr same
  rw [Grids.readsBack, Grids.readsBack, grids, grids, places, same]

theorem point?_congr (same : x.magnitude = y.magnitude) (n : Nat) :
    x.grids.point? n = y.grids.point? n := by
  unfold Grids.point?
  rw [below_congr same, readsBack_congr same, numerator_congr same, denominator_congr same]

/-- The sign has no part in the digits of a double. -/
theorem shortest_congr (same : x.magnitude = y.magnitude) : x.shortest = y.shortest := by
  have firsts : x.grids.first = y.grids.first := by
    have digits : x.grids.exactDigits = y.grids.exactDigits :=
      congrArg (· + 750) (place_congr same)
    rw [Grids.first, Grids.first, funext (point?_congr same), digits, below_congr same]
  rcases found : x.grids.first with ⟨m, point⟩
  rw [shortest_eq found, shortest_eq (firsts ▸ found), place_congr same]

end Digits

theorem magnitudeText_congr (same : x.magnitude = y.magnitude) :
    x.magnitudeText = y.magnitudeText := by
  rw [magnitudeText, magnitudeText, isInfinite, isInfinite, isZero, isZero, same,
    shortest_congr same]

/-- What is written for a magnitude: the name of infinity, or a decimal that is rounded to it. -/
theorem magnitudeText_cases (number : x.isNaN = false) :
    x.magnitudeText = "inf".toList ∧ x.magnitude = infiniteMagnitude ∨
      IsWritten x.magnitudeText ∧
        RoundsTo (writtenValue x.magnitudeText) (ofMagnitude x.magnitude) := by
  have atMost : x.magnitude ≤ infiniteMagnitude := by simpa [isNaN] using number
  rcases Nat.lt_or_eq_of_le atMost with below | infinite
  · have bound := x.magnitude_lt
    have same := magnitude_ofMagnitude bound
    have finite := isFinite_ofMagnitude below
    have unsigned := isNegative_ofMagnitude bound
    have unnamed : (ofMagnitude x.magnitude).isNaN = false := by
      rw [isNaN, same]
      exact number
    have text : (ofMagnitude x.magnitude).text = x.magnitudeText := by
      rw [Double.text, if_neg (ne_true_of_eq_false unnamed),
        if_neg (ne_true_of_eq_false unsigned), magnitudeText_congr same]
    obtain ⟨written, rounds, _⟩ := text_reads_back finite unsigned
    rw [text] at written rounds
    exact .inr ⟨written, rounds⟩
  · have infinitely : x.isInfinite = true := decide_eq_true infinite
    exact .inl ⟨by rw [magnitudeText, if_pos infinitely], infinite⟩

theorem magnitude_of_text (number : x.isNaN = false) (otherNumber : y.isNaN = false)
    (same : x.magnitudeText = y.magnitudeText) : x.magnitude = y.magnitude := by
  have unnamed {text : Text} (written : IsWritten text) : text ≠ "inf".toList := by
    rintro rfl
    obtain ⟨d, rest, form, digit⟩ := written.first
    cases form
    contradiction
  rcases magnitudeText_cases number with ⟨text, infinite⟩ | ⟨written, rounds⟩
  · rcases magnitudeText_cases otherNumber with ⟨_, otherInfinite⟩ | ⟨otherWritten, _⟩
    · rw [infinite, otherInfinite]
    · exact absurd (same.symm.trans text) (unnamed otherWritten)
  · rcases magnitudeText_cases otherNumber with ⟨otherText, _⟩ | ⟨_, otherRounds⟩
    · exact absurd (same.trans otherText) (unnamed written)
    · rw [← same] at otherRounds
      have magnitudes := congrArg magnitude (rounds.unique otherRounds)
      rwa [magnitude_ofMagnitude x.magnitude_lt, magnitude_ofMagnitude y.magnitude_lt]
        at magnitudes

theorem isNumberChar_magnitudeText (number : x.isNaN = false) :
    x.magnitudeText ≠ [] ∧ ∀ c ∈ x.magnitudeText, isNumberChar c = true := by
  rcases magnitudeText_cases number with ⟨text, _⟩ | ⟨written, _⟩
  · rw [text]
    exact ⟨by decide, List.all_eq_true.mp rfl⟩
  · obtain ⟨d, rest, form, _⟩ := written.first
    exact ⟨form ▸ List.cons_ne_nil d rest, written.isNumberChar⟩

theorem text_nonempty (x : Double) : x.text ≠ [] := by
  unfold text
  split
  · decide
  · rename_i number
    split
    · exact List.cons_ne_nil _ _
    · exact (isNumberChar_magnitudeText (Bool.eq_false_of_not_eq_true number)).1

theorem isNumberChar_text (x : Double) : ∀ c ∈ x.text, isNumberChar c = true := by
  unfold text
  split
  · exact List.all_eq_true.mp rfl
  · rename_i number
    have chars := (isNumberChar_magnitudeText (Bool.eq_false_of_not_eq_true number)).2
    split
    · exact List.forall_mem_cons.mpr ⟨rfl, chars⟩
    · exact chars

/-- No magnitude starts with a sign. -/
theorem magnitudeText_unsigned (number : x.isNaN = false) (rest : Text) :
    x.magnitudeText ≠ '-' :: rest := by
  intro signed
  rcases magnitudeText_cases number with ⟨text, _⟩ | ⟨written, _⟩
  · rw [text] at signed
    cases signed
  · obtain ⟨d, behind, form, digit⟩ := written.first
    rw [form] at signed
    cases signed
    contradiction

/-- A number has the bit pattern that its text was written for. -/
theorem text_injective (number : x.isNaN = false) (otherNumber : y.isNaN = false)
    (same : x.text = y.text) : x = y := by
  simp only [text, number, otherNumber, Bool.false_eq_true, if_false] at same
  cases sign : x.isNegative <;> cases otherSign : y.isNegative <;>
    simp only [sign, otherSign, Bool.false_eq_true, if_false, if_true] at same
  · exact eq_of_sign_magnitude (sign.trans otherSign.symm)
      (magnitude_of_text number otherNumber same)
  · exact absurd same (magnitudeText_unsigned number _)
  · exact absurd same.symm (magnitudeText_unsigned otherNumber _)
  · exact eq_of_sign_magnitude (sign.trans otherSign.symm)
      (magnitude_of_text number otherNumber (List.cons.inj same).2)

end Double

namespace Text

theorem isNumberChar_ofInt (n : Int) : ∀ c ∈ ofInt n, isNumberChar c = true := by
  have digits (n : Nat) : ∀ c ∈ ofNat n, isNumberChar c = true := fun c member =>
    isNumberChar_of_isDigit ((isDigits_toDigits n).2 c member)
  cases n with
  | ofNat n => exact digits n
  | negSucc n => exact List.forall_mem_cons.mpr ⟨rfl, digits (n + 1)⟩

theorem ofNat_injective {n m : Nat} (same : ofNat n = ofNat m) : n = m := by
  rw [← wholeValue_toDigits n, ← wholeValue_toDigits m]
  exact congrArg wholeValue same

theorem ofNat_unsigned (n : Nat) (rest : Text) : ofNat n ≠ '-' :: rest := by
  intro signed
  have member : '-' ∈ ofNat n := signed ▸ List.mem_cons_self
  have digit := (isDigits_toDigits n).2 '-' member
  contradiction

theorem ofInt_injective {n m : Int} (same : ofInt n = ofInt m) : n = m := by
  cases n with
  | ofNat n =>
      cases m with
      | ofNat m => exact congrArg Int.ofNat (ofNat_injective same)
      | negSucc m => exact absurd same (ofNat_unsigned n _)
  | negSucc n =>
      cases m with
      | ofNat m => exact absurd same.symm (ofNat_unsigned m _)
      | negSucc m =>
          have next : n + 1 = m + 1 := ofNat_injective (List.cons.inj same).2
          exact congrArg Int.negSucc (Nat.succ.inj next)

end Text

end LoxLex
