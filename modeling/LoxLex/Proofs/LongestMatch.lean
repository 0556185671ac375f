import LoxLex.Proofs.Events

namespace LoxLex

/-- What is found at one place of a text, apart from its line. -/
inductive Finding where
  | token (kind : Kind) (lexeme : Text) (literal : Option Literal)
  | error (message : Text)
deriving DecidableEq, Repr

def Finding.isToken : Finding → Bool
  | .token _ _ _ => true
  | .error _ => false

def Token.finding (token : Token) : Finding := .token token.kind token.lexeme token.literal

def Report.finding (report : Report) : Finding := .error report.message

def Event.finding : Event → Finding
  | .token t => t.finding
  | .report r => r.finding

def Item.finding? (lexeme : Text) : Item → Option Finding
  | .token kind literal => some (.token kind lexeme literal)
  | .skipped => none
  | .fault f => some (.error f.message)

/-- What the declarative tokenizer finds in a text. -/
inductive Tokenizes : Text → List Finding → Prop
  | endOfInput : Tokenizes [] [.token .endOfInput [] none]
  | lexeme {lexeme rest : Text} {item : Item} {findings : List Finding}
      (isLexeme : Lexeme lexeme item) (longest : LongestIn lexeme (lexeme ++ rest))
      (tail : Tokenizes rest findings) :
      Tokenizes (lexeme ++ rest) ((item.finding? lexeme).toList ++ findings)
  | unterminated {rest : Text} {findings : List Finding} (absent : NoLexeme ('"' :: rest))
      (tail : Tokenizes [] findings) :
      Tokenizes ('"' :: rest) (.error "Unterminated string".toList :: findings)
  | unsupported {c : Char} {rest : Text} {findings : List Finding} (absent : NoLexeme (c :: rest))
      (other : c ≠ '"') (tail : Tokenizes rest findings) :
      Tokenizes (c :: rest) (.error "Unsupported character".toList :: findings)

theorem Piece.event?_finding (piece : Piece) (line : Int) :
    (piece.event? line).map Event.finding = piece.item.finding? piece.text := by
  unfold Piece.event?
  split <;> rename_i found <;> rw [found] <;> rfl

/-- The findings of a text that starts on a given line. -/
def findingsFrom (line : Int) (text : Text) : List Finding :=
  (eventsFrom line text).map Event.finding

namespace Reads

variable {piece : Piece} {rest : Text}

theorem findingsFrom_eq (reads : Reads piece rest) (line : Int) :
    findingsFrom line (piece.text ++ rest) =
      (piece.item.finding? piece.text).toList ++
        findingsFrom (line + Text.lineBreaks piece.text) rest := by
  rw [findingsFrom, reads.eventsFrom_eq, List.map_append, ← piece.event?_finding line]
  cases piece.event? line <;> rfl

theorem of_longest {lexeme : Text} {item : Item} (isLexeme : Lexeme lexeme item)
    (longest : LongestIn lexeme (lexeme ++ rest)) : Reads ⟨lexeme, item⟩ rest := by
  -- Some piece is read here anyway, and it can only be the longest lexeme.
  obtain ⟨taken, left, reads, same⟩ :=
    exists_reads (List.append_ne_nil_of_left_ne_nil isLexeme.nonempty rest)
  rcases reads.longest_or_fault with ⟨takenLexeme, takenLongest⟩ | ⟨absent, _⟩
  · obtain ⟨texts, items, rests⟩ := takenLongest.unique takenLexeme isLexeme longest same
    rw [← texts, ← items, ← rests]
    exact reads
  · exact absurd same.symm (absent lexeme item rest isLexeme)

theorem of_no_lexeme {c : Char} (absent : NoLexeme (c :: rest)) :
    c = '"' ∧ Reads ⟨'"' :: rest, .fault .unterminatedString⟩ [] ∨
      c ≠ '"' ∧ Reads ⟨[c], .fault .unsupportedCharacter⟩ rest := by
  obtain ⟨taken, left, reads, same⟩ := exists_reads (List.cons_ne_nil c rest)
  rcases reads.longest_or_fault with ⟨takenLexeme, _⟩ | ⟨_, fault, isFault⟩
  · exact absurd same (absent _ _ _ takenLexeme)
  · rcases reads.of_fault isFault with ⟨body, _, rfl, rfl⟩ | ⟨d, foreign, rfl⟩
    · cases same
      exact .inl ⟨rfl, by simpa using reads⟩
    · cases same
      refine .inr ⟨?_, reads⟩
      intro quote
      subst quote
      contradiction

end Reads

/-- The scanner's findings are an outcome of the declarative tokenizer. -/
theorem tokenizes_findingsFrom (line : Int) (text : Text) :
    Tokenizes text (findingsFrom line text) := by
  induction text using reading_induction generalizing line with
  | nil => simpa [findingsFrom] using .endOfInput
  | step piece rest reads ih =>
      rw [reads.findingsFrom_eq]
      rcases reads.longest_or_fault with ⟨lexeme, longest⟩ | ⟨absent, fault, isFault⟩
      · exact .lexeme lexeme longest (ih _)
      · rcases reads.of_fault isFault with ⟨body, _, rfl, rfl⟩ | ⟨c, foreign, rfl⟩
        · rw [List.append_nil] at absent ⊢
          exact .unterminated absent (ih _)
        · refine .unsupported absent ?_ (ih _)
          intro quote
          subst quote
          contradiction

/-- The declarative tokenizer has no other outcome. -/
theorem Tokenizes.eq_findingsFrom {text : Text} {findings : List Finding}
    (derivation : Tokenizes text findings) (line : Int) : findings = findingsFrom line text := by
  induction derivation generalizing line with
  | endOfInput => simp [findingsFrom, Event.finding, Token.finding, Token.endOfInput]
  | lexeme isLexeme longest tail ih =>
      have reads := Reads.of_longest isLexeme longest
      rw [reads.findingsFrom_eq line, ih]
  | @unterminated rest findings absent tail ih =>
      rcases Reads.of_no_lexeme absent with ⟨_, reads⟩ | ⟨other, _⟩
      · have found := reads.findingsFrom_eq line
        rw [List.append_nil] at found
        rw [found, ih]
        rfl
      · exact absurd rfl other
  | unsupported absent other tail ih =>
      rcases Reads.of_no_lexeme absent with ⟨same, _⟩ | ⟨_, reads⟩
      · exact absurd same other
      · have found := reads.findingsFrom_eq line
        rw [List.singleton_append] at found
        rw [found, ih]
        rfl

theorem map_finding_tokens (events : List Event) :
    (events.filterMap Event.token?).map Token.finding =
      (events.map Event.finding).filter Finding.isToken := by
  induction events with
  | nil => rfl
  | cons event rest ih =>
      cases event with
      | token t => exact congrArg (t.finding :: ·) ih
      | report r => exact ih

theorem map_finding_reports (events : List Event) :
    (events.filterMap Event.report?).map Report.finding =
      (events.map Event.finding).filter (!·.isToken) := by
  induction events with
  | nil => rfl
  | cons event rest ih =>
      cases event with
      | token t => exact ih
      | report r => exact congrArg (r.finding :: ·) ih

/-- The events of a text, their lines apart, are the one outcome of the declarative
tokenizer; its tokens are those that a scan returns, and its errors those that a
scan reports. -/
theorem scan_longest_match (text : Text) (findings : List Finding) :
    (Tokenizes text findings ↔ findings = (events text).map Event.finding) ∧
      (tokens text).map Token.finding =
        ((events text).map Event.finding).filter Finding.isToken ∧
      (reports text).map Report.finding =
        ((events text).map Event.finding).filter (!·.isToken) := by
  refine ⟨⟨fun derivation => derivation.eq_findingsFrom 1, ?_⟩,
    map_finding_tokens _, map_finding_reports _⟩
  intro found
  rw [found]
  exact tokenizes_findingsFrom 1 text

end LoxLex
