import LoxLex.Scan
import LoxLex.Proofs.Lexeme
import Mathlib.Data.List.TakeWhile

namespace LoxLex

/-- Whether a character would make more of a mark that it stands behind. -/
def Mark.joins : Mark → Char → Bool
  | .bang, c | .equal, c | .less, c | .greater, c => c = '='
  | .slash, c => c = '/'
  | _, _ => false

/-- Whether a text starts with a point and a digit. -/
def StartsFraction (rest : Text) : Prop :=
  ∃ d behind, rest = '.' :: d :: behind ∧ d.isDigit = true

/-- Whether a spelling of a kind ends before a text instead of going on in it. -/
def Kind.EndsBefore (lexeme rest : Text) : Kind → Prop
  | .mark m => Text.StopsAt m.joins rest
  | .identifier | .keyword _ => Text.StopsAt Text.isWordChar rest
  | .number => Text.StopsAt Char.isDigit rest ∧ ('.' ∈ lexeme ∨ ¬ StartsFraction rest)
  | .string | .endOfInput => True

/-- A piece that a reading step takes, and the text that it leaves. -/
inductive Reads : Piece → Text → Prop
  | token {text rest : Text} {kind : Kind} {literal : Option Literal}
      (spelled : Spells text kind literal) (ends : kind.EndsBefore text rest) :
      Reads ⟨text, .token kind literal⟩ rest
  | comment {body rest : Text} (line : '\n' ∉ body) (ends : Text.StopsAt (· ≠ '\n') rest) :
      Reads ⟨'/' :: '/' :: body, .skipped⟩ rest
  | blank {c : Char} {rest : Text} (blank : Text.isBlank c = true) : Reads ⟨[c], .skipped⟩ rest
  | unterminated {body : Text} (opened : '"' ∉ body) :
      Reads ⟨'"' :: body, .fault .unterminatedString⟩ []
  | unsupported {c : Char} {rest : Text} (foreign : Text.isSupported c = false) :
      Reads ⟨[c], .fault .unsupportedCharacter⟩ rest

/-- No lexeme stands at the head of a text. -/
def NoLexeme (text : Text) : Prop :=
  ∀ lexeme item behind, Lexeme lexeme item → lexeme ++ behind ≠ text

/-- No lexeme at the head of a text is longer than a given one. -/
def LongestIn (lexeme text : Text) : Prop :=
  ∀ other item behind, Lexeme other item → other ++ behind = text → other.length ≤ lexeme.length

theorem Kind.ofWord_endsBefore {word lexeme rest : Text} :
    (Kind.ofWord word).EndsBefore lexeme rest ↔ Text.StopsAt Text.isWordChar rest := by
  unfold Kind.ofWord
  split <;> rfl

/-- A blank ends every lexeme that is a token. -/
theorem Kind.endsBefore_blank {lexeme rest : Text} {c : Char} (blank : Text.isBlank c = true)
    (kind : Kind) : kind.EndsBefore lexeme (c :: rest) := by
  have member := Text.isBlank_iff.mp blank
  have notWordChar : Text.isWordChar c = false := by
    have blanks : ∀ d ∈ Text.blanks, Text.isWordChar d = false := by
      simp [Text.blanks, Text.isWordChar]
    exact blanks c member
  cases kind with
  | mark m =>
      have unjoined : ∀ d ∈ Text.blanks, m.joins d = false := by
        cases m <;> simp [Text.blanks, Mark.joins]
      exact Text.stopsAt_cons.mpr (unjoined c member)
  | identifier => exact Text.stopsAt_cons.mpr notWordChar
  | keyword word => exact Text.stopsAt_cons.mpr notWordChar
  | number =>
      have notDigit : ∀ d ∈ Text.blanks, d.isDigit = false := by
        simp [Text.blanks]
      refine ⟨Text.stopsAt_cons.mpr (notDigit c member), .inr ?_⟩
      intro fraction
      obtain ⟨d, behind, same, _⟩ := fraction
      cases same
      simp [Text.blanks] at member
  | string => trivial
  | endOfInput => trivial

/-- Of what follows a token, the first character decides whether it ends, and behind a
numeral also whether that character starts a fraction. -/
theorem Kind.EndsBefore.same_head {kind : Kind} {lexeme rest other : Text} {c : Char}
    (ends : kind.EndsBefore lexeme (c :: rest))
    (fraction : StartsFraction (c :: other) → StartsFraction (c :: rest)) :
    kind.EndsBefore lexeme (c :: other) := by
  cases kind with
  | mark m => exact Text.stopsAt_cons.mpr (Text.stopsAt_cons.mp ends)
  | identifier => exact Text.stopsAt_cons.mpr (Text.stopsAt_cons.mp ends)
  | keyword word => exact Text.stopsAt_cons.mpr (Text.stopsAt_cons.mp ends)
  | number =>
      exact ⟨Text.stopsAt_cons.mpr (Text.stopsAt_cons.mp ends.1), ends.2.imp_right (mt fraction)⟩
  | string => trivial
  | endOfInput => trivial

namespace Mark

theorem tail_of_spelling {mark : Mark} {c : Char} {tail : Text}
    (spelled : mark.spelling = c :: tail) :
    tail = [] ∨ tail = ['='] ∧ c ∈ ['!', '=', '<', '>'] := by
  cases mark <;> cases spelled <;> simp

theorem joins_equals {mark : Mark} {c : Char} (spelled : mark.spelling = [c])
    (member : c ∈ ['!', '=', '<', '>']) : mark.joins '=' = true := by
  cases mark <;> cases spelled <;> simp at member <;> rfl

theorem joins_slash {mark : Mark} (spelled : mark.spelling = ['/']) : mark.joins '/' = true := by
  cases mark <;> cases spelled
  rfl

end Mark

section Longest

variable {lexeme text rest body : Text} {c : Char}

theorem NoLexeme.of_head
    (none : ∀ tail item behind, Lexeme (c :: tail) item → tail ++ behind ≠ rest) :
    NoLexeme (c :: rest) := by
  intro lexeme item behind isLexeme same
  cases lexeme with
  | nil => exact isLexeme.nonempty rfl
  | cons first tail =>
      cases same
      exact none tail item behind isLexeme rfl

theorem LongestIn.of_head
    (bound : ∀ tail item behind, Lexeme (c :: tail) item → tail ++ behind = rest →
      (c :: tail).length ≤ lexeme.length) :
    LongestIn lexeme (c :: rest) := by
  intro other item behind isLexeme same
  cases other with
  | nil => simp
  | cons first tail =>
      cases same
      exact bound tail item behind isLexeme rfl

theorem NoLexeme.of_foreign (foreign : Text.isSupported c = false) : NoLexeme (c :: rest) := by
  apply NoLexeme.of_head
  intro tail item behind isLexeme
  have impossible := isLexeme.byLead
  rw [Lead.of_foreign foreign] at impossible
  exact impossible.elim

theorem NoLexeme.of_unterminated (opened : '"' ∉ body) : NoLexeme ('"' :: body) := by
  apply NoLexeme.of_head
  intro tail item behind isLexeme same
  obtain ⟨inner, _, closed, _⟩ := isLexeme.byLead
  rw [← same, closed] at opened
  simp at opened

theorem LongestIn.mark {mark : Mark} (ends : Text.StopsAt mark.joins rest) :
    LongestIn mark.spelling (mark.spelling ++ rest) := by
  obtain ⟨c, tail, spelled⟩ := List.exists_cons_of_ne_nil (Lexeme.token (.mark mark)).nonempty
  rw [spelled]
  apply LongestIn.of_head
  intro otherTail item behind isLexeme same
  have meaning := isLexeme.byLead
  rw [Lead.of_mark spelled] at meaning
  -- A single character could only be outgrown by the mark or comment that it joins.
  rcases Mark.tail_of_spelling spelled with rfl | ⟨rfl, marked⟩
  · have unjoined : Text.StopsAt mark.joins (otherTail ++ behind) := by rwa [same]
    rcases meaning with ⟨other, otherSpelled, _⟩ | ⟨rfl, inner, _, rfl, _⟩
    · rcases Mark.tail_of_spelling otherSpelled with rfl | ⟨rfl, marked⟩
      · simp
      · simp [Mark.joins_equals spelled marked] at unjoined
    · simp [Mark.joins_slash spelled] at unjoined
  · rcases meaning with ⟨other, otherSpelled, _⟩ | ⟨rfl, _⟩
    · rcases Mark.tail_of_spelling otherSpelled with rfl | ⟨rfl, _⟩ <;> simp
    · simp at marked

theorem IsWord.wordChars (word : IsWord text) : ∀ d ∈ text, Text.isWordChar d = true := by
  cases word with
  | cons letter others => simpa [Piece.isWordChar_of_isLetter letter] using others

theorem LongestIn.word (word : IsWord text) (ends : Text.StopsAt Text.isWordChar rest) :
    LongestIn text (text ++ rest) := by
  cases word with
  | @cons c tail letter others =>
      apply LongestIn.of_head
      intro otherTail item behind isLexeme same
      have other := isLexeme.byLead
      rw [Lead.of_letter letter] at other
      have whole : c :: otherTail ++ behind = c :: tail ++ rest := by simpa using same
      exact Text.span_longest other.1.wordChars ends whole

theorem IsDigits.no_point (digits : IsDigits text) : '.' ∉ text := by
  intro member
  have digit := digits.2 '.' member
  contradiction

theorem IsDigits.startsFraction (digits : IsDigits text) :
    StartsFraction ('.' :: text ++ rest) := by
  obtain ⟨d, tail, rfl⟩ := List.exists_cons_of_ne_nil digits.1
  exact ⟨d, tail ++ rest, rfl, digits.2 d (by simp)⟩

theorem IsNumeral.length_le {other behind : Text} (numeral : IsNumeral text)
    (ends : Kind.EndsBefore text rest .number) (otherNumeral : IsNumeral other)
    (same : other ++ behind = text ++ rest) : other.length ≤ text.length := by
  obtain ⟨stops, pointed⟩ := ends
  cases numeral with
  | whole whole =>
      cases otherNumeral with
      | whole otherWhole => exact Text.span_longest otherWhole.2 stops same
      | fraction otherWhole otherFraction =>
          -- Equal whole parts would leave a fraction right behind the numeral.
          rw [List.append_assoc] at same
          obtain ⟨_, found⟩ := Text.span_unique otherWhole.2 (by simp) whole.2 stops same
          have noFraction := pointed.resolve_left whole.no_point
          exact absurd (found ▸ otherFraction.startsFraction) noFraction
  | @fraction digits places whole fraction =>
      rw [List.append_assoc] at same
      have pointStops : Text.StopsAt Char.isDigit ('.' :: places ++ rest) := by simp
      cases otherNumeral with
      | whole otherWhole =>
          have bound := Text.span_longest otherWhole.2 pointStops same
          simp only [List.length_append]
          omega
      | fraction otherWhole otherFraction =>
          rw [List.append_assoc] at same
          obtain ⟨rfl, tails⟩ := Text.span_unique otherWhole.2 (by simp) whole.2 pointStops same
          have bound := Text.span_longest otherFraction.2 stops (List.cons.inj tails).2
          simp only [List.length_append, List.length_cons]
          omega

theorem LongestIn.numeral (numeral : IsNumeral text) (ends : Kind.EndsBefore text rest .number) :
    LongestIn text (text ++ rest) := by
  intro other item behind isLexeme same
  cases text with
  | nil => exact absurd rfl (Lexeme.token (.number numeral)).nonempty
  | cons c tail =>
      cases other with
      | nil => simp
      | cons first otherTail =>
          cases (List.cons.inj same).1
          have otherNumeral := isLexeme.byLead
          rw [numeral.lead rfl] at otherNumeral
          exact numeral.length_le ends otherNumeral.1 same

theorem LongestIn.string (closed : '"' ∉ body) :
    LongestIn ('"' :: body ++ ['"']) ('"' :: body ++ ['"'] ++ rest) := by
  apply LongestIn.of_head
  intro tail item behind isLexeme same
  obtain ⟨inner, innerClosed, rfl, _⟩ := isLexeme.byLead
  have bodies : inner = body ∧ '"' :: behind = '"' :: rest :=
    Text.span_unique (Text.all_ne_of_not_mem innerClosed) (by simp)
      (Text.all_ne_of_not_mem closed) (by simp) (by simpa using same)
  rw [bodies.1]
  simp

theorem LongestIn.comment (ends : Text.StopsAt (· ≠ '\n') rest) :
    LongestIn ('/' :: '/' :: body) ('/' :: '/' :: body ++ rest) := by
  apply LongestIn.of_head
  intro tail item behind isLexeme same
  rcases isLexeme.byLead with ⟨mark, spelled, _⟩ | ⟨_, inner, innerLine, rfl, _⟩
  · rcases Mark.tail_of_spelling spelled with rfl | ⟨rfl, _⟩ <;> simp
  · have bodies : inner ++ behind = body ++ rest := by simpa using same
    have bound := Text.span_longest (Text.all_ne_of_not_mem innerLine) ends bodies
    simpa using bound

theorem LongestIn.blank (blank : Text.isBlank c = true) : LongestIn [c] (c :: rest) := by
  apply LongestIn.of_head
  intro tail item behind isLexeme _
  have alone := isLexeme.byLead
  rw [Lead.of_blank blank] at alone
  simp [alone.1]

/-- Two longest lexemes at the head of one text are the same cut of it. -/
theorem LongestIn.unique {other behind : Text} {item otherItem : Item}
    (isLexeme : Lexeme lexeme item) (longest : LongestIn lexeme (lexeme ++ rest))
    (otherIsLexeme : Lexeme other otherItem) (otherLongest : LongestIn other (other ++ behind))
    (same : lexeme ++ rest = other ++ behind) :
    lexeme = other ∧ item = otherItem ∧ rest = behind := by
  have atMost := longest other otherItem behind otherIsLexeme same.symm
  have atLeast := otherLongest lexeme item rest isLexeme same
  obtain ⟨texts, rests⟩ := List.append_inj same (Nat.le_antisymm atLeast atMost)
  rw [texts] at isLexeme
  exact ⟨texts, isLexeme.item_unique otherIsLexeme, rests⟩

end Longest

namespace Reads

variable {piece other : Piece} {rest behind : Text}

theorem longest_or_fault (reads : Reads piece rest) :
    Lexeme piece.text piece.item ∧ LongestIn piece.text (piece.text ++ rest) ∨
      NoLexeme (piece.text ++ rest) ∧ ∃ fault, piece.item = .fault fault := by
  cases reads with
  | token spelled ends =>
      refine .inl ⟨.token spelled, ?_⟩
      cases spelled with
      | mark mark => exact .mark ends
      | keyword word => exact .word word.isWord_spelling ends
      | identifier word free => exact .word word ends
      | number numeral => exact .numeral numeral ends
      | string closed => exact .string closed
  | comment line ends => exact .inl ⟨.comment line, .comment ends⟩
  | blank blank => exact .inl ⟨.blank blank, .blank blank⟩
  | unterminated opened => exact .inr ⟨by simpa using .of_unterminated opened, _, rfl⟩
  | unsupported foreign => exact .inr ⟨.of_foreign foreign, _, rfl⟩

theorem of_fault {fault : Fault} (reads : Reads piece rest) (isFault : piece.item = .fault fault) :
    (∃ body, '"' ∉ body ∧ piece = ⟨'"' :: body, .fault .unterminatedString⟩ ∧ rest = []) ∨
      ∃ c, Text.isSupported c = false ∧ piece = ⟨[c], .fault .unsupportedCharacter⟩ := by
  cases reads with
  | token spelled ends => contradiction
  | comment line ends => contradiction
  | blank blank => contradiction
  | unterminated opened => exact .inl ⟨_, opened, rfl, rfl⟩
  | unsupported foreign => exact .inr ⟨_, foreign, rfl⟩

/-- A text can be cut into a piece and what it leaves in one way only. -/
theorem unique (reads : Reads piece rest) (otherReads : Reads other behind)
    (same : piece.text ++ rest = other.text ++ behind) : piece = other ∧ rest = behind := by
  rcases reads.longest_or_fault with ⟨lexeme, longest⟩ | ⟨absent, fault, isFault⟩
  · rcases otherReads.longest_or_fault with ⟨otherLexeme, otherLongest⟩ | ⟨otherAbsent, _⟩
    · obtain ⟨texts, items, rests⟩ := longest.unique lexeme otherLexeme otherLongest same
      exact ⟨congrArg₂ Piece.mk texts items, rests⟩
    · exact absurd same (otherAbsent _ _ _ lexeme)
  · rcases otherReads.longest_or_fault with ⟨otherLexeme, _⟩ | ⟨_, otherFault, otherIsFault⟩
    · exact absurd same.symm (absent _ _ _ otherLexeme)
    · rcases reads.of_fault isFault with ⟨body, _, rfl, rfl⟩ | ⟨c, foreign, rfl⟩
      · rcases otherReads.of_fault otherIsFault with ⟨otherBody, _, rfl, rfl⟩ | ⟨d, foreign, rfl⟩
        · simpa using same
        · cases (List.cons.inj same).1
          contradiction
      · rcases otherReads.of_fault otherIsFault with ⟨body, _, rfl, rfl⟩ | ⟨d, _, rfl⟩
        · cases (List.cons.inj same).1
          contradiction
        · simpa using same

end Reads

namespace Mark

theorem mem_of_lookup {α : Type} {table : List (Char × α)} {c : Char} {value : α}
    (found : table.lookup c = some value) : (c, value) ∈ table := by
  obtain ⟨before, after, rfl, _⟩ := List.lookup_eq_some_iff.mp found
  simp

theorem of_singles {c : Char} {mark : Mark} (found : singles.lookup c = some mark) :
    mark.spelling = [c] ∧ ∀ d, mark.joins d = false := by
  have entries : ∀ entry ∈ singles,
      entry.2.spelling = [entry.1] ∧ ∀ d, entry.2.joins d = false := by
    simp [singles, spelling, joins]
  exact entries _ (mem_of_lookup found)

theorem of_comparisons {c : Char} {alone doubled : Mark}
    (found : comparisons.lookup c = some (alone, doubled)) :
    alone.spelling = [c] ∧ (∀ d, alone.joins d = decide (d = '=')) ∧
      doubled.spelling = [c, '='] ∧ ∀ d, doubled.joins d = false := by
  have entries : ∀ entry ∈ comparisons, entry.2.1.spelling = [entry.1] ∧
      (∀ d, entry.2.1.joins d = decide (d = '=')) ∧
      entry.2.2.spelling = [entry.1, '='] ∧ ∀ d, entry.2.2.joins d = false := by
    simp [comparisons, spelling, joins]
  exact entries _ (mem_of_lookup found)

end Mark

namespace Piece

theorem mark_reads {mark : Mark} {text rest : Text} (spelled : mark.spelling = text)
    (ends : Text.StopsAt mark.joins rest) : Reads (Piece.mark mark text) rest := by
  subst spelled
  exact .token (.mark mark) ends

theorem readComparison_reads {c : Char} {alone doubled : Mark}
    (found : Mark.comparisons.lookup c = some (alone, doubled)) (rest : Text) :
    Reads (readComparison c alone doubled rest).1 (readComparison c alone doubled rest).2 := by
  obtain ⟨single, joins, double, unjoined⟩ := Mark.of_comparisons found
  unfold readComparison
  split
  · exact mark_reads double fun d _ => unjoined d
  · rename_i different
    have stops := Text.stopsAt_of_ne_cons different
    rw [← funext joins] at stops
    exact mark_reads single stops

theorem readSlash_reads (rest : Text) : Reads (readSlash rest).1 (readSlash rest).2 := by
  unfold readSlash
  split
  · refine .comment ?_ (Text.stopsAt_dropWhile _ _)
    intro member
    simpa using List.mem_takeWhile_imp member
  · rename_i different
    exact mark_reads rfl (Text.stopsAt_of_ne_cons different)

theorem readString_reads (rest : Text) : Reads (readString rest).1 (readString rest).2 := by
  have closed : '"' ∉ rest.takeWhile (· ≠ '"') := by
    intro member
    simpa using List.mem_takeWhile_imp member
  unfold readString
  split
  · exact .unterminated closed
  · rename_i quote behind found
    have stopped := Text.stopsAt_dropWhile (· ≠ '"') rest
    rw [found] at stopped
    have same : quote = '"' := by simpa using stopped
    subst same
    exact .token (.string closed) trivial

theorem readWord_reads {c : Char} (rest : Text) (letter : Text.isLetter c = true) :
    Reads (readWord (c :: rest)).1 (readWord (c :: rest)).2 := by
  have word : IsWord ((c :: rest).takeWhile Text.isWordChar) := by
    rw [List.takeWhile_cons_of_pos (isWordChar_of_isLetter letter)]
    exact .cons letter fun d member => List.mem_takeWhile_imp member
  have stops := Text.stopsAt_dropWhile Text.isWordChar (c :: rest)
  exact .token word.spells (Kind.ofWord_endsBefore.mpr stops)

end Piece

namespace Numeral

/-- The numeral at the head of a text is one, and it does not go on behind its end. -/
theorem split_isNumeral {c : Char} (rest : Text) (digit : c.isDigit = true) :
    IsNumeral (split (c :: rest)).1 ∧
      Kind.EndsBefore (split (c :: rest)).1 (split (c :: rest)).2 .number := by
  have whole : IsDigits ((c :: rest).takeWhile Char.isDigit) :=
    ⟨by simp [digit], fun d member => List.mem_takeWhile_imp member⟩
  have stops := Text.stopsAt_dropWhile Char.isDigit (c :: rest)
  unfold split
  split
  · rename_i d behind found
    split
    · rename_i fractional
      have fraction : IsDigits ((d :: behind).takeWhile Char.isDigit) :=
        ⟨by simp [fractional], fun e member => List.mem_takeWhile_imp member⟩
      exact ⟨.fraction whole fraction, Text.stopsAt_dropWhile _ _, .inl (by simp)⟩
    · rename_i notFractional
      refine ⟨.whole whole, by simp, .inr ?_⟩
      intro fraction
      obtain ⟨e, tail, same, fractional⟩ := fraction
      cases same
      contradiction
  · rename_i noFraction
    refine ⟨.whole whole, stops, .inr ?_⟩
    intro fraction
    obtain ⟨d, behind, same, _⟩ := fraction
    exact noFraction d behind same

end Numeral

namespace Piece

theorem readNumber_reads {c : Char} (rest : Text) (digit : c.isDigit = true) :
    Reads (readNumber (c :: rest)).1 (readNumber (c :: rest)).2 := by
  obtain ⟨numeral, ends⟩ := Numeral.split_isNumeral rest digit
  exact .token (.number numeral) ends

theorem isSupported_of_undispatched {c : Char} (unpaired : Mark.singles.lookup c = none)
    (uncompared : Mark.comparisons.lookup c = none) (notSlash : c ≠ '/')
    (notBlank : ¬ Text.isBlank c = true) (notQuote : c ≠ '"') (notDigit : ¬ c.isDigit = true)
    (notLetter : ¬ Text.isLetter c = true) : Text.isSupported c = false := by
  have dispatched : ∀ d ∈ Text.punctuation, Mark.singles.lookup d ≠ none ∨
      Mark.comparisons.lookup d ≠ none ∨ d = '/' ∨ Text.isBlank d = true ∨ d = '"' ∨
      Text.isLetter d = true := by
    simp [Text.punctuation, Mark.singles, Mark.comparisons, Text.isBlank, Text.isLetter]
  rw [← Bool.not_eq_true]
  intro supported
  simp only [Text.isSupported, Char.isAlphanum, Bool.or_eq_true, List.contains_iff_mem]
    at supported
  rcases supported with (alpha | digit) | member
  · exact notLetter (by simp [Text.isLetter, alpha])
  · exact notDigit digit
  · have impossible := dispatched c member
    simp only [unpaired, uncompared, notSlash, notBlank, notQuote, notLetter, ne_eq,
      not_true_eq_false, Bool.false_eq_true, or_self] at impossible

/-- The scanner's reading step is one that `Reads` allows. -/
theorem read_reads (c : Char) (rest : Text) : Reads (read c rest).1 (read c rest).2 := by
  unfold read
  split
  · rename_i m found
    obtain ⟨spelled, unjoined⟩ := Mark.of_singles found
    exact mark_reads spelled fun d _ => unjoined d
  · rename_i unpaired
    split
    · rename_i alone doubled found
      exact readComparison_reads found rest
    · rename_i uncompared
      split
      · exact readSlash_reads rest
      · rename_i notSlash
        split
        · rename_i blank
          exact .blank blank
        · rename_i notBlank
          split
          · exact readString_reads rest
          · rename_i notQuote
            split
            · rename_i digit
              exact readNumber_reads rest digit
            · rename_i notDigit
              split
              · rename_i letter
                exact readWord_reads rest letter
              · rename_i notLetter
                exact .unsupported (isSupported_of_undispatched unpaired uncompared notSlash
                  notBlank notQuote notDigit notLetter)

end Piece

namespace Reads

variable {piece : Piece} {rest : Text}

theorem nonempty (reads : Reads piece rest) : piece.text ≠ [] := by
  rcases reads.longest_or_fault with ⟨lexeme, _⟩ | ⟨_, fault, isFault⟩
  · exact lexeme.nonempty
  · rcases reads.of_fault isFault with ⟨body, _, rfl, _⟩ | ⟨c, _, rfl⟩ <;> simp

/-- Conversely, what `Reads` allows is what the scanner does. -/
theorem pieces_eq (reads : Reads piece rest) :
    pieces (piece.text ++ rest) = piece :: pieces rest := by
  obtain ⟨c, tail, head⟩ := List.exists_cons_of_ne_nil reads.nonempty
  have whole : piece.text ++ rest = c :: (tail ++ rest) := by rw [head, List.cons_append]
  have taken := (Piece.read_reads c (tail ++ rest)).unique reads
    (by rw [Piece.read_append, whole])
  rw [whole, pieces_cons, taken.1, taken.2]

end Reads

theorem exists_reads {text : Text} (nonempty : text ≠ []) :
    ∃ piece rest, Reads piece rest ∧ piece.text ++ rest = text := by
  obtain ⟨c, tail, rfl⟩ := List.exists_cons_of_ne_nil nonempty
  exact ⟨_, _, Piece.read_reads c tail, Piece.read_append c tail⟩

/-- What holds of the empty text and is kept by a reading step holds of every text. -/
@[elab_as_elim] theorem reading_induction {motive : Text → Prop} (text : Text)
    (nil : motive [])
    (step : ∀ piece rest, Reads piece rest → motive rest → motive (piece.text ++ rest)) :
    motive text := by
  induction length : text.length using Nat.strongRecOn generalizing text with
  | _ n ih =>
      cases text with
      | nil => exact nil
      | cons c rest =>
          have shorter := Piece.read_shorter c rest
          rw [← Piece.read_append c rest]
          exact step _ _ (Piece.read_reads c rest) (ih _ (by omega) _ rfl)

end LoxLex
