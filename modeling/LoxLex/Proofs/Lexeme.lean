import LoxLex.Piece
import LoxLex.Proofs.Span

/-! The lexemes of the language, apart from how they are read.

`Spells` says which texts are spellings of which kinds of tokens, and `Lexeme` adds
comments and blanks.  The first character of a lexeme decides what it can be:
`Lexeme.byLead` is the one place where the classes are told apart, and all that
follows goes through it.
-/

namespace LoxLex

namespace Text

/-- The characters other than letters and digits that have a place in the language. -/
def punctuation : Text :=
  ['_', '(', ')', '{', '}', ',', '.', '-', '+', ';', '*', '/', '!', '=', '<', '>', '"',
   ' ', '\r', '\t', '\n']

/-- Whether a character has a place in the language outside of strings and comments. -/
def isSupported (c : Char) : Bool := c.isAlphanum || punctuation.contains c

def blanks : Text := [' ', '\r', '\t', '\n']

theorem isBlank_iff {c : Char} : isBlank c = true ↔ c ∈ blanks := by
  simp [isBlank, blanks, or_assoc]

end Text

/-- One or more digits. -/
def IsDigits (text : Text) : Prop := text ≠ [] ∧ ∀ c ∈ text, c.isDigit = true

/-- Digits, and optionally a point with more digits behind it. -/
inductive IsNumeral : Text → Prop
  | whole {digits : Text} (whole : IsDigits digits) : IsNumeral digits
  | fraction {digits places : Text} (whole : IsDigits digits) (fraction : IsDigits places) :
      IsNumeral (digits ++ '.' :: places)

/-- A letter or underscore, and any number of letters, digits and underscores. -/
inductive IsWord : Text → Prop
  | cons {c : Char} {tail : Text} (letter : Text.isLetter c = true)
      (others : ∀ d ∈ tail, Text.isWordChar d = true) : IsWord (c :: tail)

/-- The value that a numeral denotes. -/
def numeralValue (numeral : Text) : Literal := .number (Decimal.ofNumeral numeral).toDouble

/-- Which texts are spellings of a kind, and the value that they have. -/
inductive Spells : Text → Kind → Option Literal → Prop
  | mark (mark : Mark) : Spells mark.spelling (.mark mark) none
  | keyword (word : Keyword) : Spells word.spelling (.keyword word) none
  | identifier {text : Text} (word : IsWord text)
      (free : ∀ reserved : Keyword, reserved.spelling ≠ text) : Spells text .identifier none
  | number {text : Text} (numeral : IsNumeral text) :
      Spells text .number (some (numeralValue text))
  | string {body : Text} (closed : '"' ∉ body) :
      Spells ('"' :: body ++ ['"']) .string (some (.text body))

/-- Lexemes: the spellings of tokens, comments up to the end of their line, and
single blanks. -/
inductive Lexeme : Text → Item → Prop
  | token {text : Text} {kind : Kind} {literal : Option Literal}
      (spelled : Spells text kind literal) : Lexeme text (.token kind literal)
  | comment {body : Text} (line : '\n' ∉ body) : Lexeme ('/' :: '/' :: body) .skipped
  | blank {c : Char} (blank : Text.isBlank c = true) : Lexeme [c] .skipped

namespace Mark

theorem mem_all (mark : Mark) : mark ∈ all := by
  cases mark <;> decide

theorem spelling_injective {mark other : Mark} (same : mark.spelling = other.spelling) :
    mark = other := by
  have distinct : ∀ mark ∈ all, ∀ other ∈ all, mark.spelling = other.spelling → mark = other := by
    decide
  exact distinct mark mark.mem_all other other.mem_all same

theorem spelling_not_comment (mark : Mark) {body : Text} : mark.spelling ≠ '/' :: '/' :: body := by
  cases mark <;> simp [spelling]

end Mark

namespace Keyword

theorem isWord_spelling (word : Keyword) : IsWord word.spelling := by
  cases word <;> exact .cons rfl (List.all_eq_true.mp rfl)

theorem ofSpelling_spelling (word : Keyword) : ofSpelling? word.spelling = some word := by
  cases word <;> rfl

theorem spelling_of_ofSpelling {text : Text} {word : Keyword}
    (found : ofSpelling? text = some word) : word.spelling = text := by
  simpa using List.find?_some found

end Keyword

namespace Kind

theorem ofWord_spelling (word : Keyword) : ofWord word.spelling = .keyword word := by
  simp only [ofWord, Keyword.ofSpelling_spelling]

theorem ofWord_free {text : Text} (free : ∀ word : Keyword, word.spelling ≠ text) :
    ofWord text = .identifier := by
  unfold ofWord
  split
  · rename_i word found
    exact absurd (Keyword.spelling_of_ofSpelling found) (free word)
  · rfl

end Kind

/-- Every word is spelled as what its kind says. -/
theorem IsWord.spells {text : Text} (word : IsWord text) : Spells text (Kind.ofWord text) none := by
  cases found : Keyword.ofSpelling? text with
  | some reserved =>
      have same := Keyword.spelling_of_ofSpelling found
      subst same
      rw [Kind.ofWord_spelling]
      exact .keyword reserved
  | none =>
      have free : ∀ reserved : Keyword, reserved.spelling ≠ text := by
        intro reserved same
        subst same
        rw [Keyword.ofSpelling_spelling] at found
        contradiction
      rw [Kind.ofWord_free free]
      exact .identifier word free

/-- The classes of characters that a lexeme can start with. -/
inductive Lead where
  | digit
  | letter
  | quote
  | blank
  | mark
  | foreign
deriving DecidableEq

namespace Lead

def of (c : Char) : Lead :=
  if c.isDigit then .digit
  else if Text.isLetter c then .letter
  else if c = '"' then .quote
  else if Text.isBlank c then .blank
  else if Text.isSupported c then .mark
  else .foreign

variable {c : Char}

theorem of_digit (digit : c.isDigit = true) : of c = .digit := by
  simp [of, digit]

theorem isDigit_of_isLetter (letter : Text.isLetter c = true) : c.isDigit = false := by
  have bounds (low high : UInt32) (inside : low ≤ c.val ∧ c.val ≤ high) :
      low.toNat ≤ c.toNat ∧ c.toNat ≤ high.toNat :=
    ⟨UInt32.le_iff_toNat_le.mp inside.1, UInt32.le_iff_toNat_le.mp inside.2⟩
  rw [← Bool.not_eq_true, Char.isDigit_iff_toNat]
  change ¬ (48 ≤ c.toNat ∧ c.toNat ≤ 57)
  rcases Bool.or_eq_true_iff.mp letter with alpha | underscore
  · rcases Bool.or_eq_true_iff.mp alpha with upper | lower
    · have range : 65 ≤ c.toNat ∧ c.toNat ≤ 90 := bounds 65 90 (of_decide_eq_true upper)
      omega
    · obtain ⟨least, most⟩ := Bool.and_eq_true_iff.mp lower
      have range : 97 ≤ c.toNat ∧ c.toNat ≤ 122 :=
        bounds 97 122 ⟨of_decide_eq_true least, of_decide_eq_true most⟩
      omega
  · have same : c = '_' := of_decide_eq_true underscore
    subst same
    decide

theorem of_letter (letter : Text.isLetter c = true) : of c = .letter := by
  simp [of, isDigit_of_isLetter letter, letter]

theorem of_blank (blank : Text.isBlank c = true) : of c = .blank := by
  simp only [Text.isBlank_iff, Text.blanks, List.mem_cons, List.not_mem_nil, or_false] at blank
  rcases blank with rfl | rfl | rfl | rfl <;> rfl

theorem of_mark {tail : Text} {mark : Mark} (head : mark.spelling = c :: tail) : of c = .mark := by
  cases mark <;> cases head <;> rfl

theorem of_foreign (foreign : Text.isSupported c = false) : of c = .foreign := by
  simp only [Text.isSupported, Char.isAlphanum, Bool.or_eq_false_iff] at foreign
  obtain ⟨⟨notAlpha, notDigit⟩, notPunctuation⟩ := foreign
  have absent : ∀ d ∈ Text.punctuation, c ≠ d := by
    intro d member same
    subst same
    simp [member] at notPunctuation
  simp only [Text.punctuation, List.mem_cons, List.not_mem_nil, or_false, forall_eq_or_imp,
    forall_eq] at absent
  simp [of, Text.isLetter, Text.isBlank, Text.isSupported, Char.isAlphanum, Text.punctuation,
    notAlpha, notDigit, absent]

end Lead

section Lead

variable {c : Char} {tail text : Text}

theorem IsWord.lead (word : IsWord text) (head : c :: tail = text) : Lead.of c = .letter := by
  cases word with
  | cons letter others =>
      cases head
      exact Lead.of_letter letter

theorem IsDigits.lead (digits : IsDigits (c :: tail)) : Lead.of c = .digit :=
  Lead.of_digit (digits.2 c (by simp))

theorem IsNumeral.lead (numeral : IsNumeral text) (head : c :: tail = text) :
    Lead.of c = .digit := by
  cases numeral with
  | whole whole =>
      subst head
      exact whole.lead
  | @fraction digits places whole fraction =>
      cases digits with
      | nil => exact absurd rfl whole.1
      | cons first more =>
          cases head
          exact whole.lead

theorem IsNumeral.digit_or_point (numeral : IsNumeral text) :
    ∀ c ∈ text, c.isDigit = true ∨ c = '.' := by
  intro c member
  cases numeral with
  | whole whole => exact .inl (whole.2 c member)
  | fraction whole fraction =>
      rcases List.mem_append.mp member with before | behind
      · exact .inl (whole.2 c before)
      · rcases List.mem_cons.mp behind with point | after
        · exact .inr point
        · exact .inl (fraction.2 c after)

theorem IsNumeral.first (numeral : IsNumeral text) :
    ∃ d rest, text = d :: rest ∧ d.isDigit = true := by
  cases numeral with
  | whole whole =>
      obtain ⟨d, rest, rfl⟩ := List.exists_cons_of_ne_nil whole.1
      exact ⟨d, rest, rfl, whole.2 d List.mem_cons_self⟩
  | fraction whole _ =>
      obtain ⟨d, rest, rfl⟩ := List.exists_cons_of_ne_nil whole.1
      exact ⟨d, _, rfl, whole.2 d List.mem_cons_self⟩

end Lead

namespace Lexeme

variable {c : Char} {tail : Text} {item : Item}

/-- What a lexeme is and means, by the class of its first character. -/
theorem byLead (lexeme : Lexeme (c :: tail) item) :
    match Lead.of c with
    | .digit => IsNumeral (c :: tail) ∧ item = .token .number (some (numeralValue (c :: tail)))
    | .letter => IsWord (c :: tail) ∧ item = .token (Kind.ofWord (c :: tail)) none
    | .quote => ∃ body, '"' ∉ body ∧ tail = body ++ ['"'] ∧
        item = .token .string (some (.text body))
    | .blank => tail = [] ∧ item = .skipped
    | .mark => (∃ mark : Mark, mark.spelling = c :: tail ∧ item = .token (.mark mark) none) ∨
        c = '/' ∧ ∃ body, '\n' ∉ body ∧ tail = '/' :: body ∧ item = .skipped
    | .foreign => False := by
  generalize head : c :: tail = text at lexeme ⊢
  cases lexeme with
  | token spelled =>
      cases spelled with
      | mark mark =>
          rw [Lead.of_mark head.symm]
          exact .inl ⟨mark, rfl, rfl⟩
      | keyword word =>
          rw [word.isWord_spelling.lead head, Kind.ofWord_spelling]
          exact ⟨word.isWord_spelling, rfl⟩
      | identifier word free =>
          rw [word.lead head, Kind.ofWord_free free]
          exact ⟨word, rfl⟩
      | number numeral =>
          rw [numeral.lead head]
          exact ⟨numeral, rfl⟩
      | string closed =>
          cases head
          exact ⟨_, closed, rfl, rfl⟩
  | comment line =>
      cases head
      exact .inr ⟨rfl, _, line, rfl, rfl⟩
  | blank blank =>
      cases head
      rw [Lead.of_blank blank]
      exact ⟨rfl, rfl⟩

theorem nonempty {text : Text} (lexeme : Lexeme text item) : text ≠ [] := by
  cases lexeme with
  | token spelled =>
      cases spelled with
      | mark mark => cases mark <;> simp [Mark.spelling]
      | keyword word => cases word <;> simp [Keyword.spelling]
      | identifier word free =>
          cases word
          simp
      | number numeral =>
          cases numeral with
          | whole whole => exact whole.1
          | fraction whole fraction => simp
      | string closed => simp
  | comment line => simp
  | blank blank => simp

/-- A text means one thing as a lexeme. -/
theorem item_unique {text : Text} {other : Item} (lexeme : Lexeme text item)
    (otherLexeme : Lexeme text other) : item = other := by
  cases text with
  | nil => exact absurd rfl lexeme.nonempty
  | cons c tail =>
      have meaning := lexeme.byLead
      have otherMeaning := otherLexeme.byLead
      cases lead : Lead.of c <;> simp only [lead] at meaning otherMeaning
      case digit => rw [meaning.2, otherMeaning.2]
      case letter => rw [meaning.2, otherMeaning.2]
      case blank => rw [meaning.2, otherMeaning.2]
      case quote =>
        obtain ⟨body, _, rfl, rfl⟩ := meaning
        obtain ⟨otherBody, _, same, rfl⟩ := otherMeaning
        rw [List.append_cancel_right same]
      case mark =>
        rcases meaning with ⟨mark, spelled, rfl⟩ | ⟨rfl, body, _, rfl, rfl⟩
        · rcases otherMeaning with ⟨otherMark, otherSpelled, rfl⟩ | ⟨rfl, body, _, rfl, rfl⟩
          · rw [Mark.spelling_injective (spelled.trans otherSpelled.symm)]
          · exact absurd spelled mark.spelling_not_comment
        · rcases otherMeaning with ⟨otherMark, otherSpelled, rfl⟩ | ⟨_, _, _, _, rfl⟩
          · exact absurd otherSpelled otherMark.spelling_not_comment
          · rfl

end Lexeme

end LoxLex
