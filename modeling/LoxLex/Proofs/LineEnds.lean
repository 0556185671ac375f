import LoxLex.Proofs.Events
import LoxLex.Proofs.Script

/-! Texts with pairs of carriage return and line feed at their line ends.

Where no carriage return stands without a line feed behind it, a line feed in place of each
pair makes no difference to a scan but in the texts of strings.  A carriage return is blank,
or part of a comment, or in a string, and none of it ends there that the line feed behind it
would not end.  So one is left out wherever it stands.
-/

namespace LoxLex

namespace Text

/-- The text with every pair of carriage return and line feed replaced by a line feed. -/
def joinPairs : Text → Text
  | [] => []
  | '\r' :: '\n' :: rest => '\n' :: joinPairs rest
  | c :: rest => c :: joinPairs rest

/-- What becomes of a carriage return that is in no pair. -/
def returnToFeed (c : Char) : Char := if c = '\r' then '\n' else c

/-- Each carriage return has a line feed right behind it. -/
def Paired : Text → Prop
  | [] => True
  | c :: rest => (c = '\r' → rest.head? = some '\n') ∧ Paired rest

def unreturned (text : Text) : Text := text.filter (· ≠ '\r')

end Text

namespace Literal

def joinPairs : Literal → Literal
  | number value => number value
  | text value => text value.joinPairs

end Literal

/-- The token with the pairs joined in its lexeme and in the text that it has for a value. -/
def Token.joinPairs (token : Token) : Token :=
  { token with
    lexeme := token.lexeme.joinPairs, literal := token.literal.map Literal.joinPairs }

def Event.joinPairs : Event → Event
  | .token t => .token t.joinPairs
  | .report r => .report r

namespace Text

variable {c : Char} {text front rest : Text}

/-- Line ends are normalised by joining the pairs first and then replacing what is left. -/
theorem normaliseLineEnds_eq (text : Text) :
    normaliseLineEnds text = (joinPairs text).map returnToFeed := by
  fun_induction joinPairs text with
  | case1 => rfl
  | case2 rest ih => rw [normaliseLineEnds_pair, ih]; rfl
  | case3 c rest unpaired ih =>
      by_cases isReturn : c = '\r'
      · subst isReturn
        have alone : rest.head? ≠ some '\n' := by
          intro head
          obtain ⟨behind, rfl⟩ := List.head?_eq_some_iff.mp head
          exact unpaired behind rfl rfl
        rw [normaliseLineEnds_return rest alone, ih]
        rfl
      · rw [normaliseLineEnds_other c rest isReturn, ih, List.map_cons, returnToFeed,
          if_neg isReturn]

theorem Paired.of_append (paired : Paired (front ++ rest)) : Paired rest := by
  induction front with
  | nil => exact paired
  | cons c more ih => exact ih paired.2

/-- A pair is not cut in front of a character that is no line feed. -/
theorem Paired.of_cons (paired : Paired (front ++ c :: rest)) (other : c ≠ '\n') :
    Paired front := by
  induction front with
  | nil => trivial
  | cons d more ih =>
      refine ⟨?_, ih paired.2⟩
      intro isReturn
      have head := paired.1 isReturn
      cases more with
      | nil => exact absurd (Option.some.inj head) other
      | cons e more => exact head

/-- Nor is one cut behind a character that is no carriage return. -/
theorem Paired.of_snoc (paired : Paired (front ++ c :: rest)) (other : c ≠ '\r') :
    Paired (front ++ [c]) := by
  induction front with
  | nil => exact ⟨fun isReturn => absurd isReturn other, trivial⟩
  | cons d more ih =>
      refine ⟨?_, ih paired.2⟩
      intro isReturn
      have head := paired.1 isReturn
      cases more with
      | nil => exact head
      | cons e more => exact head

theorem Paired.of_not_mem (absent : '\r' ∉ text) : Paired text := by
  induction text with
  | nil => trivial
  | cons c rest ih =>
      have inside := List.ne_of_not_mem_cons absent
      exact ⟨fun isReturn => absurd isReturn.symm inside, ih (List.not_mem_of_not_mem_cons absent)⟩

theorem unreturned_cons (kept : c ≠ '\r') : unreturned (c :: rest) = c :: unreturned rest :=
  List.filter_cons_of_pos (decide_eq_true kept)

theorem unreturned_append (front back : Text) :
    unreturned (front ++ back) = unreturned front ++ unreturned back :=
  List.filter_append front back

theorem not_mem_unreturned (absent : c ∉ text) : c ∉ unreturned text :=
  mt (fun member => (List.mem_filter.mp member).1) absent

theorem unreturned_of_not_mem (absent : '\r' ∉ text) : unreturned text = text := by
  rw [unreturned, List.filter_eq_self]
  exact all_ne_of_not_mem absent

theorem joinPairs_eq (paired : Paired text) : joinPairs text = unreturned text := by
  fun_induction joinPairs text with
  | case1 => rfl
  | case2 rest ih =>
      rw [ih paired.2.2]
      rfl
  | case3 c rest unpaired ih =>
      have kept : c ≠ '\r' := by
        rintro rfl
        obtain ⟨behind, rfl⟩ := List.head?_eq_some_iff.mp (paired.1 rfl)
        exact unpaired behind rfl rfl
      rw [ih paired.2, unreturned_cons kept]

theorem normaliseLineEnds_paired (paired : Paired text) :
    normaliseLineEnds text = joinPairs text := by
  rw [normaliseLineEnds_eq, joinPairs_eq paired]
  refine (List.map_congr_left ?_).trans (List.map_id _)
  intro c member
  have kept : c ≠ '\r' := of_decide_eq_true (List.mem_filter.mp member).2
  exact if_neg kept

theorem lineBreaks_unreturned (text : Text) : lineBreaks (unreturned text) = lineBreaks text :=
  List.count_filter rfl

theorem joinPairs_of_not_mem (absent : '\r' ∉ text) : joinPairs text = text := by
  rw [joinPairs_eq (.of_not_mem absent), unreturned_of_not_mem absent]

end Text

section Scan

variable {piece : Piece} {lexeme other text rest body : Text} {kind : Kind}
  {literal : Option Literal}

theorem IsWord.unreturned (word : IsWord text) : '\r' ∉ text := by
  intro member
  have wordChar := word.wordChars '\r' member
  contradiction

theorem IsNumeral.unreturned (numeral : IsNumeral text) : '\r' ∉ text := by
  intro member
  rcases numeral.digit_or_point '\r' member with digit | point <;> contradiction

/-- Of the tokens only strings can have a carriage return in them. -/
theorem Spells.unreturned_or_string (spelled : Spells text kind literal) :
    '\r' ∉ text ∧ (∀ body, literal ≠ some (.text body)) ∨
      ∃ body, '"' ∉ body ∧ text = '"' :: body ++ ['"'] ∧ kind = .string ∧
        literal = some (.text body) := by
  cases spelled with
  | mark mark => exact .inl ⟨by cases mark <;> decide, nofun⟩
  | keyword word => exact .inl ⟨word.isWord_spelling.unreturned, nofun⟩
  | identifier word free => exact .inl ⟨word.unreturned, nofun⟩
  | number numeral => exact .inl ⟨numeral.unreturned, nofun⟩
  | string closed => exact .inr ⟨_, closed, rfl, rfl, rfl⟩

theorem Text.joinPairs_string (paired : Text.Paired ('"' :: body ++ ['"'])) :
    Text.joinPairs ('"' :: body ++ ['"']) = '"' :: body.joinPairs ++ ['"'] := by
  have inner : Text.Paired body := paired.2.of_cons (by decide)
  rw [Text.joinPairs_eq paired, Text.joinPairs_eq inner, Text.unreturned_append,
    Text.unreturned_cons (by decide)]
  rfl

theorem Spells.joinPairs (spelled : Spells text kind literal) (paired : text.Paired) :
    Spells text.joinPairs kind (literal.map Literal.joinPairs) := by
  rcases spelled.unreturned_or_string with ⟨absent, noText⟩ | ⟨body, closed, rfl, rfl, rfl⟩
  · have same : literal.map Literal.joinPairs = literal := by
      rcases literal with _ | value | body
      · rfl
      · rfl
      · exact absurd rfl (noText body)
    rw [Text.joinPairs_of_not_mem absent, same]
    exact spelled
  · have inner : Text.Paired body := paired.2.of_cons (by decide)
    rw [Text.joinPairs_string paired]
    refine .string ?_
    rw [Text.joinPairs_eq inner]
    exact Text.not_mem_unreturned closed

/-- A carriage return ends every token in front of it, and so does its line feed. -/
theorem Kind.EndsBefore.unreturned (ends : kind.EndsBefore lexeme rest) (paired : rest.Paired) :
    kind.EndsBefore lexeme rest.unreturned := by
  cases rest with
  | nil => exact ends
  | cons c more =>
      by_cases isReturn : c = '\r'
      · obtain ⟨behind, rfl⟩ := List.head?_eq_some_iff.mp (paired.1 isReturn)
        subst isReturn
        exact Kind.endsBefore_blank rfl kind
      · rw [Text.unreturned_cons isReturn]
        refine ends.same_head ?_
        -- The digit of a fraction was behind the point before: in place of it a carriage
        -- return would have left a line feed there.
        rintro ⟨d, behind, same, digit⟩
        obtain ⟨rfl, tail⟩ := List.cons.inj same
        cases more with
        | nil => contradiction
        | cons e more =>
            by_cases nextReturn : e = '\r'
            · obtain ⟨others, rfl⟩ := List.head?_eq_some_iff.mp (paired.2.1 nextReturn)
              subst nextReturn
              cases tail
              contradiction
            · rw [Text.unreturned_cons nextReturn] at tail
              obtain ⟨rfl, _⟩ := List.cons.inj tail
              exact ⟨e, more, rfl, digit⟩

theorem Text.paired_string (paired : Text.Paired ('"' :: body ++ ['"'] ++ rest)) :
    Text.Paired ('"' :: body ++ ['"']) := by
  rw [List.append_assoc] at paired
  exact paired.of_snoc (by decide)

theorem stopsAt_unreturned (ends : Text.StopsAt (· ≠ '\n') rest) :
    Text.StopsAt (· ≠ '\n') rest.unreturned := by
  cases rest with
  | nil => exact ends
  | cons c more =>
      have newline : c = '\n' := by simpa using ends
      subst newline
      exact Text.stopsAt_cons.mpr rfl

/-- One reading step over a text that loses its carriage returns. -/
theorem Reads.eventsFrom_unreturned (reads : Reads piece rest)
    (paired : Text.Paired (piece.text ++ rest)) (line : Int) :
    eventsFrom line (piece.text.unreturned ++ rest.unreturned) =
      ((piece.event? line).map Event.joinPairs).toList ++
        eventsFrom (line + Text.lineBreaks piece.text) rest.unreturned := by
  rw [← Text.lineBreaks_unreturned piece.text]
  cases reads with
  | @token text _ kind literal spelled ends =>
      have joined : text.Paired ∧ kind.EndsBefore text.joinPairs rest.unreturned := by
        rcases spelled.unreturned_or_string with ⟨absent, _⟩ | ⟨body, _, rfl, rfl, _⟩
        · rw [Text.joinPairs_of_not_mem absent]
          exact ⟨.of_not_mem absent, ends.unreturned paired.of_append⟩
        · exact ⟨Text.paired_string paired, trivial⟩
      have step := Reads.eventsFrom_eq (.token (spelled.joinPairs joined.1) joined.2) line
      rw [← Text.joinPairs_eq joined.1]
      exact step
  | comment comment ends =>
      exact Reads.eventsFrom_eq
        (.comment (Text.not_mem_unreturned comment) (stopsAt_unreturned ends)) line
  | @blank c _ blank =>
      by_cases isReturn : c = '\r'
      · subst isReturn
        simp [Piece.event?, Text.unreturned]
      · rw [Text.unreturned_cons isReturn]
        exact Reads.eventsFrom_eq (.blank blank) line
  | @unterminated body opened =>
      have step := Reads.eventsFrom_eq (.unterminated (Text.not_mem_unreturned opened)) line
      have report : Piece.event? line ⟨'"' :: body.unreturned, .fault .unterminatedString⟩ =
          (Piece.event? line ⟨'"' :: body, .fault .unterminatedString⟩).map Event.joinPairs := by
        simp [Piece.event?, Event.joinPairs, Text.lineBreaks_unreturned]
      rw [report] at step
      exact step
  | @unsupported c _ foreign =>
      have kept : c ≠ '\r' := by
        rintro rfl
        contradiction
      rw [Text.unreturned_cons kept]
      exact Reads.eventsFrom_eq (.unsupported foreign) line

theorem eventsFrom_unreturned (paired : text.Paired) (line : Int) :
    eventsFrom line text.unreturned = (eventsFrom line text).map Event.joinPairs := by
  induction text using reading_induction generalizing line with
  | nil =>
      simp [Text.unreturned, Event.joinPairs, Token.joinPairs, Token.endOfInput, Text.joinPairs]
  | step piece rest reads ih =>
      rw [Text.unreturned_append, reads.eventsFrom_unreturned paired, ih paired.of_append,
        reads.eventsFrom_eq, List.map_append]
      cases piece.event? line <;> rfl

end Scan

/-- Where carriage returns stand only in front of line feeds, joining each pair leaves the
diagnostics as they are, and the tokens but for the pairs in them; a file that holds the text
is loaded with its pairs joined. -/
theorem scan_of_pairs (text : Text) (paired : text.Paired) :
    diagnostics text.joinPairs = diagnostics text ∧
      tokens text.joinPairs = (tokens text).map Token.joinPairs ∧
      ∀ (disk : Disk) (path : Text), '\x00' ∉ path → disk path = .ok (Utf8.encode text) →
        disk.load path = .ok text.joinPairs := by
  have found : events text.joinPairs = (events text).map Event.joinPairs := by
    rw [Text.joinPairs_eq paired]
    exact eventsFrom_unreturned paired 1
  refine ⟨?_, ?_, ?_⟩
  · have same (event : Event) : event.joinPairs.report? = event.report?.map id := by
      cases event <;> rfl
    rw [diagnostics, reports, found, filterMap_changed same, List.map_id]
    rfl
  · have joined (event : Event) : event.joinPairs.token? = event.token?.map Token.joinPairs := by
      cases event <;> rfl
    rw [tokens, found, filterMap_changed joined]
    rfl
  · intro disk path named held
    rw [Disk.load_encoded named held, Text.normaliseLineEnds_paired paired]

/-- A pair in a string, one behind a comment, and a string left open behind a pair. -/
theorem scan_of_pairs_in_string :
    let text : Text :=
      ['"', 'a', '\r', '\n', '"', '1', '/', '/', 'c', '\r', '\n', '@', '\r', '\n', '"', '\r', '\n']
    let disk : Disk := fun _ => .ok (Utf8.encode text)
    text.Paired ∧ '\x00' ∉ ['s'] ∧
      diagnostics text.joinPairs = diagnostics text ∧
      tokens text.joinPairs = (tokens text).map Token.joinPairs ∧
      disk.load ['s'] = .ok text.joinPairs := by
  intro text disk
  have paired : text.Paired := by simp [text, Text.Paired]
  have named : '\x00' ∉ ['s'] := by decide
  obtain ⟨same, joined, loaded⟩ := scan_of_pairs text paired
  exact ⟨paired, named, same, joined, loaded disk ['s'] named rfl⟩

end LoxLex
