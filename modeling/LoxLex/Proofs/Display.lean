import LoxLex.Proofs.Listing
import LoxLex.Proofs.NumberText
import LoxLex.Proofs.Quoting

namespace LoxLex

variable {c : Char} {rest behind : Text}

theorem isPrintable_of_isNumberChar (number : isNumberChar c = true) :
    Text.isPrintable c = true := by
  have among : (c.isDigit = true ∨ c.isLower = true) ∨ c = '.' ∨ c = '+' ∨ c = '-' := by
    simpa [isNumberChar] using number
  rcases among with (digit | lower) | rfl | rfl | rfl
  · have bounds : 48 ≤ c.toNat ∧ c.toNat ≤ 57 := by
      simpa [Char.isDigit, UInt32.le_iff_toNat_le] using digit
    exact Text.isPrintable_of_ascii (by omega) (by omega)
  · have bounds : 97 ≤ c.toNat ∧ c.toNat ≤ 122 := by
      change (decide (97 ≤ c.val) && decide (c.val ≤ 122)) = true at lower
      simpa [UInt32.le_iff_toNat_le] using lower
    exact Text.isPrintable_of_ascii (by omega) (by omega)
  · rfl
  · rfl
  · rfl

theorem Kind.isPrintable_of_mem_name (kind : Kind) :
    ∀ c ∈ kind.name, Text.isPrintable c = true := by
  have shown : ∀ kind ∈ all, kind.name.all Text.isPrintable = true := by decide
  exact List.all_eq_true.mp (shown kind kind.mem_all)

theorem Text.ofInt_cancel {n m : Int} (ends : isNumberChar c = false)
    (same : Text.ofInt n ++ c :: rest = Text.ofInt m ++ c :: behind) : n = m ∧ rest = behind := by
  obtain ⟨digits, tails⟩ := Text.span_unique (Text.isNumberChar_ofInt n)
    (Text.stopsAt_cons.mpr ends) (Text.isNumberChar_ofInt m) (Text.stopsAt_cons.mpr ends) same
  exact ⟨Text.ofInt_injective digits, (List.cons.inj tails).2⟩

theorem Double.text_cancel {x y : Double} (number : x.isNaN = false) (otherNumber : y.isNaN = false)
    (ends : isNumberChar c = false) (same : x.text ++ c :: rest = y.text ++ c :: behind) :
    x = y ∧ rest = behind := by
  obtain ⟨texts, tails⟩ := Text.span_unique x.isNumberChar_text (Text.stopsAt_cons.mpr ends)
    y.isNumberChar_text (Text.stopsAt_cons.mpr ends) same
  exact ⟨text_injective number otherNumber texts, (List.cons.inj tails).2⟩

namespace Literal

variable {value other : Option Literal}

/-- What is displayed for the value of a token. -/
def shown (value : Option Literal) : Text := (value.map display).getD "None".toList

/-- The characters that a value of the same form can start with. -/
def Leads : Option Literal → Char → Prop
  | none, c => c = 'N'
  | some (.number _), c => isNumberChar c = true
  | some (.text _), c => c ∈ Text.quotes

/-- The value is missing, a text, or a number that is no NaN. -/
def IsProper (value : Option Literal) : Prop :=
  ∀ x : Double, value = some (.number x) → x.isNaN = false

theorem shown_leads (value : Option Literal) :
    ∃ c rest, shown value = c :: rest ∧ Leads value c := by
  rcases value with _ | x | text
  · exact ⟨'N', _, rfl, rfl⟩
  · obtain ⟨c, rest, form⟩ := List.exists_cons_of_ne_nil x.text_nonempty
    exact ⟨c, rest, form, x.isNumberChar_text c (form ▸ List.mem_cons_self)⟩
  · exact ⟨_, _, rfl, Text.quoteOf_mem text⟩

theorem isNumberChar_quote (isQuote : c ∈ Text.quotes) : isNumberChar c = false := by
  rcases Text.mem_quotes.mp isQuote with rfl | rfl <;> rfl

/-- Values of different forms have no first character in common. -/
theorem shown_cancel (proper : IsProper value) (otherProper : IsProper other)
    (same : shown value ++ ',' :: rest = shown other ++ ',' :: behind) :
    value = other ∧ rest = behind := by
  have firsts : ∃ c, Leads value c ∧ Leads other c := by
    obtain ⟨c, tail, form, leads⟩ := shown_leads value
    obtain ⟨d, otherTail, otherForm, otherLeads⟩ := shown_leads other
    rw [form, otherForm] at same
    obtain ⟨rfl, _⟩ := List.cons.inj same
    exact ⟨c, leads, otherLeads⟩
  obtain ⟨c, leads, otherLeads⟩ := firsts
  rcases value with _ | x | text
  · rcases other with _ | y | otherText
    · exact ⟨rfl, (List.cons.inj (List.append_cancel_left same)).2⟩
    · cases leads
      contradiction
    · cases leads
      contradiction
  · rcases other with _ | y | otherText
    · cases otherLeads
      contradiction
    · obtain ⟨rfl, tails⟩ := Double.text_cancel (proper x rfl) (otherProper y rfl) rfl same
      exact ⟨rfl, tails⟩
    · exact absurd leads (ne_true_of_eq_false (isNumberChar_quote otherLeads))
  · rcases other with _ | y | otherText
    · cases otherLeads
      contradiction
    · exact absurd otherLeads (ne_true_of_eq_false (isNumberChar_quote leads))
    · obtain ⟨rfl, tails⟩ := Text.quoted_cancel same
      exact ⟨rfl, (List.cons.inj tails).2⟩

theorem isPrintable_shown (value : Option Literal) :
    ∀ c ∈ shown value, Text.isPrintable c = true := by
  rcases value with _ | x | text
  · exact List.all_eq_true.mp rfl
  · exact fun c member => isPrintable_of_isNumberChar (x.isNumberChar_text c member)
  · exact fun _ => Text.isPrintable_quoted

end Literal

namespace Token

theorem display_eq (token : Token) :
    token.display = "Token(".toList ++ (token.kind.name ++ ',' :: ' ' ::
      (token.lexeme.quoted ++ ',' :: ' ' :: (Literal.shown token.literal ++ ',' :: ' ' ::
        (Text.ofInt token.line ++ [')'])))) := by
  change "Token(".toList ++ List.intercalate [',', ' '] [token.kind.name, token.lexeme.quoted,
    Literal.shown token.literal, Text.ofInt token.line] ++ [')'] = _
  simp only [List.intercalate, List.intersperse_cons_cons, List.intersperse_singleton,
    List.flatten_cons, List.flatten_nil, List.append_nil, List.append_assoc, List.cons_append,
    List.nil_append]

theorem isPrintable_display (token : Token) :
    ∀ c ∈ token.display, Text.isPrintable c = true := by
  have front : ∀ c ∈ "Token(".toList, Text.isPrintable c = true := List.all_eq_true.mp rfl
  have line : ∀ c ∈ Text.ofInt token.line, Text.isPrintable c = true := fun c member =>
    isPrintable_of_isNumberChar (Text.isNumberChar_ofInt token.line c member)
  have marks : Text.isPrintable ',' = true ∧ Text.isPrintable ' ' = true ∧
      Text.isPrintable ')' = true := by decide
  rw [display_eq]
  simp only [List.forall_mem_append, List.forall_mem_cons, marks, List.not_mem_nil,
    false_implies, implies_true, and_true, true_and]
  exact ⟨front, token.kind.isPrintable_of_mem_name, fun _ => Text.isPrintable_quoted,
    Literal.isPrintable_shown token.literal, line⟩

theorem eq_of_display {token other : Token} (proper : Literal.IsProper token.literal)
    (otherProper : Literal.IsProper other.literal) (same : token.display = other.display) :
    token = other := by
  rw [display_eq, display_eq] at same
  obtain ⟨kinds, same⟩ := Kind.name_cancel rfl (List.append_cancel_left same)
  obtain ⟨lexemes, same⟩ := Text.quoted_cancel (List.cons.inj same).2
  obtain ⟨values, same⟩ := Literal.shown_cancel proper otherProper
    (List.cons.inj (List.cons.inj same).2).2
  obtain ⟨lines, _⟩ := Text.ofInt_cancel rfl (List.cons.inj same).2
  cases token
  cases other
  cases kinds
  cases lexemes
  cases values
  cases lines
  rfl

/-- A token is identified by its displayed form, the bits of its number included, and everything
in that form is printable. -/
theorem display_identifies_token :
    (∀ token other : Token,
      (∀ x : Double, token.literal = some (.number x) → x.isNaN = false) →
      (∀ x : Double, other.literal = some (.number x) → x.isNaN = false) →
      (token.display = other.display ↔
        token.kind = other.kind ∧ token.lexeme = other.lexeme ∧ token.literal = other.literal ∧
          token.line = other.line)) ∧
    ∀ token : Token, ∀ c ∈ token.display, Text.isPrintable c = true ∧ c ≠ '\n' := by
  refine ⟨fun token other proper otherProper => ⟨fun same => ?_, ?_⟩, fun token c member => ?_⟩
  · obtain rfl := eq_of_display proper otherProper same
    exact ⟨rfl, rfl, rfl, rfl⟩
  · rintro ⟨kinds, lexemes, values, lines⟩
    rw [display_eq token, display_eq other, kinds, lexemes, values, lines]
  · have printable := token.isPrintable_display c member
    refine ⟨printable, ?_⟩
    rintro rfl
    contradiction

/-- The two zeros are displayed differently, also in a token whose lexeme has a line break, a
comma and both quotes. -/
theorem display_identifies_token_zeros :
    let token (bits : UInt64) : Token :=
      ⟨.string, "a', \"\n".toList, some (.number ⟨bits⟩), 3⟩
    let zero := token 0
    let negativeZero := token 0x8000000000000000
    (∀ x : Double, zero.literal = some (.number x) → x.isNaN = false) ∧
      (∀ x : Double, negativeZero.literal = some (.number x) → x.isNaN = false) ∧
      zero.display ≠ negativeZero.display ∧
      ∀ c ∈ zero.display, Text.isPrintable c = true ∧ c ≠ '\n' := by
  intro token zero negativeZero
  have proper : ∀ x : Double, zero.literal = some (.number x) → x.isNaN = false := by
    intro x same
    cases same
    decide +kernel
  have otherProper : ∀ x : Double, negativeZero.literal = some (.number x) → x.isNaN = false := by
    intro x same
    cases same
    decide +kernel
  have apart : zero.literal ≠ negativeZero.literal := by decide +kernel
  have fields := display_identifies_token.1 zero negativeZero proper otherProper
  exact ⟨proper, otherProper, fun same => apart (fields.mp same).2.2.1,
    display_identifies_token.2 zero⟩

end Token

end LoxLex
