import LoxLex.Proofs.Events
import LoxLex.Proofs.Modes

/-! Characters without a place in the language, replaced by others without one.

A reading step compares characters only with those that have a place in the language.  So
it cannot tell the others apart: the text with each of them replaced is read in the same
steps, and only strings and comments, and the pieces at fault, show what was replaced.
-/

namespace LoxLex

/-- Replaces each character without a place in the language by one without a place, and
no other. -/
structure ReplacesForeign (replace : Char → Char) : Prop where
  supported : ∀ c, Text.isSupported c = true → replace c = c
  foreign : ∀ c, Text.isSupported c = false → Text.isSupported (replace c) = false

namespace Literal

def replaced (replace : Char → Char) : Literal → Literal
  | number value => number value
  | text value => text (value.map replace)

end Literal

/-- The token with characters replaced in its lexeme and in the text that it has for a value. -/
def Token.replaced (replace : Char → Char) (token : Token) : Token :=
  { token with
    lexeme := token.lexeme.map replace, literal := token.literal.map (Literal.replaced replace) }

def Event.replaced (replace : Char → Char) : Event → Event
  | .token t => .token (t.replaced replace)
  | .report r => .report r

theorem Mark.isSupported_spelling (mark : Mark) :
    ∀ c ∈ mark.spelling, Text.isSupported c = true := by
  have entries : ∀ mark ∈ all, mark.spelling.all Text.isSupported = true :=
    List.all_eq_true.mp rfl
  exact List.all_eq_true.mp (entries mark mark.mem_all)

theorem Mark.isSupported_of_joins {mark : Mark} {c : Char} (joined : mark.joins c = true) :
    Text.isSupported c = true := by
  cases mark <;> simp only [joins, decide_eq_true_eq, Bool.false_eq_true] at joined <;>
    subst joined <;> rfl

namespace Text

variable {c : Char}

theorem isSupported_of_isPlain (plain : isPlain c = true) : isSupported c = true := by
  simp only [isPlain, Bool.and_eq_true] at plain
  exact plain.1.1

theorem isSupported_of_isWordChar (wordChar : isWordChar c = true) : isSupported c = true :=
  isSupported_of_isPlain (isPlain_of_isWordChar wordChar)

theorem isSupported_of_isDigit (digit : c.isDigit = true) : isSupported c = true :=
  isSupported_of_isPlain (isPlain_of_isDigit digit)

theorem isSupported_of_isBlank (blank : isBlank c = true) : isSupported c = true := by
  have blanks : ∀ d ∈ Text.blanks, isSupported d = true := List.all_eq_true.mp rfl
  exact blanks c (isBlank_iff.mp blank)

end Text

namespace ReplacesForeign

variable {replace : Char → Char} {c : Char} {text rest lexeme : Text} {piece : Piece}
  {kind : Kind} {literal : Option Literal}

/-- Only a character with a place in the language is replaced by one. -/
theorem eq_of_supported (replaces : ReplacesForeign replace)
    (supported : Text.isSupported (replace c) = true) : replace c = c := by
  cases place : Text.isSupported c with
  | true => exact replaces.supported c place
  | false =>
      rw [replaces.foreign c place] at supported
      contradiction

theorem not_mem_map (replaces : ReplacesForeign replace) (supported : Text.isSupported c = true)
    (absent : c ∉ text) : c ∉ text.map replace := by
  intro member
  obtain ⟨d, found, rfl⟩ := List.mem_map.mp member
  rw [replaces.eq_of_supported supported] at absent
  exact absent found

theorem map_eq (replaces : ReplacesForeign replace)
    (supported : ∀ c ∈ text, Text.isSupported c = true) : text.map replace = text :=
  (List.map_congr_left fun c member => replaces.supported c (supported c member)).trans
    (List.map_id text)

theorem lineBreaks_map (replaces : ReplacesForeign replace) (text : Text) :
    Text.lineBreaks (text.map replace) = Text.lineBreaks text := by
  have same : ∀ c, (replace c == '\n') = (c == '\n') := by
    intro c
    rw [Bool.eq_iff_iff, beq_iff_eq, beq_iff_eq]
    constructor
    · intro newline
      rwa [replaces.eq_of_supported (by rw [newline]; rfl)] at newline
    · rintro rfl
      exact replaces.supported _ rfl
  rw [Text.lineBreaks, Text.lineBreaks, List.count_eq_countP, List.count_eq_countP,
    List.countP_map]
  exact List.countP_congr fun c _ => by simp only [Function.comp_apply, same]

/-- A span of characters with a place in the language ends where it ended before. -/
theorem stopsAt_map (replaces : ReplacesForeign replace) {inside : Char → Bool}
    (supported : ∀ c, inside c = true → Text.isSupported c = true)
    (stops : Text.StopsAt inside rest) : Text.StopsAt inside (rest.map replace) := by
  cases rest with
  | nil => exact Text.stopsAt_nil
  | cons c behind =>
      rw [List.map_cons, Text.stopsAt_cons, ← Bool.not_eq_true]
      intro joined
      rw [replaces.eq_of_supported (supported _ joined), Text.stopsAt_cons.mp stops] at joined
      contradiction

theorem startsFraction_of_map (replaces : ReplacesForeign replace)
    (fraction : StartsFraction (rest.map replace)) : StartsFraction rest := by
  obtain ⟨d, behind, written, digit⟩ := fraction
  obtain ⟨point, others, rfl, isPoint, written⟩ := List.map_eq_cons_iff.mp written
  obtain ⟨first, tail, rfl, isFirst, _⟩ := List.map_eq_cons_iff.mp written
  have samePoint := replaces.eq_of_supported (c := point) (by rw [isPoint]; rfl)
  have sameFirst := replaces.eq_of_supported (c := first)
    (by rw [isFirst]; exact Text.isSupported_of_isDigit digit)
  exact ⟨d, tail, by rw [← samePoint, isPoint, ← sameFirst, isFirst], digit⟩

theorem spells (replaces : ReplacesForeign replace) (spelled : Spells text kind literal) :
    Spells (text.map replace) kind (literal.map (Literal.replaced replace)) := by
  cases spelled with
  | mark mark =>
      rw [replaces.map_eq mark.isSupported_spelling]
      exact .mark mark
  | keyword word =>
      rw [replaces.map_eq fun c member =>
        Text.isSupported_of_isWordChar (word.isWord_spelling.wordChars c member)]
      exact .keyword word
  | identifier word free =>
      rw [replaces.map_eq fun c member =>
        Text.isSupported_of_isWordChar (word.wordChars c member)]
      exact .identifier word free
  | number numeral =>
      rw [replaces.map_eq fun c member => Text.isSupported_of_isPlain (numeral.plain c member)]
      exact .number numeral
  | @string body closed =>
      have quote : replace '"' = '"' := replaces.supported _ rfl
      rw [List.map_append, List.map_cons, List.map_singleton, quote]
      exact .string (replaces.not_mem_map rfl closed)

theorem endsBefore (replaces : ReplacesForeign replace) (ends : kind.EndsBefore lexeme rest) :
    kind.EndsBefore (lexeme.map replace) (rest.map replace) := by
  cases kind with
  | mark mark => exact replaces.stopsAt_map (fun _ => Mark.isSupported_of_joins) ends
  | identifier => exact replaces.stopsAt_map (fun _ => Text.isSupported_of_isWordChar) ends
  | keyword word => exact replaces.stopsAt_map (fun _ => Text.isSupported_of_isWordChar) ends
  | number =>
      refine ⟨replaces.stopsAt_map (fun _ => Text.isSupported_of_isDigit) ends.1, ?_⟩
      rcases ends.2 with pointed | unpointed
      · left
        rw [← replaces.supported '.' rfl]
        exact List.mem_map_of_mem pointed
      · exact .inr (mt replaces.startsFraction_of_map unpointed)
  | string => trivial
  | endOfInput => trivial

/-- One reading step over a text whose foreign characters are replaced. -/
theorem eventsFrom_step (replaces : ReplacesForeign replace) (reads : Reads piece rest)
    (line : Int) :
    eventsFrom line (piece.text.map replace ++ rest.map replace) =
      ((piece.event? line).map (Event.replaced replace)).toList ++
        eventsFrom (line + Text.lineBreaks piece.text) (rest.map replace) := by
  rw [← replaces.lineBreaks_map piece.text]
  cases reads with
  | token spelled ends =>
      exact Reads.eventsFrom_eq (.token (replaces.spells spelled) (replaces.endsBefore ends)) line
  | @comment body _ comment ends =>
      have slash : replace '/' = '/' := replaces.supported _ rfl
      have stops : Text.StopsAt (· ≠ '\n') (rest.map replace) := by
        cases rest with
        | nil => exact ends
        | cons c behind =>
            have newline : c = '\n' := by simpa using ends
            subst newline
            exact Text.stopsAt_cons.mpr (by rw [replaces.supported '\n' rfl]; rfl)
      simp only [List.map_cons, slash]
      exact Reads.eventsFrom_eq (.comment (replaces.not_mem_map rfl comment) stops) line
  | @blank c _ blank =>
      simp only [List.map_singleton, replaces.supported c (Text.isSupported_of_isBlank blank)]
      exact Reads.eventsFrom_eq (.blank blank) line
  | @unterminated body opened =>
      have quote : replace '"' = '"' := replaces.supported _ rfl
      have report : Piece.event? line ⟨'"' :: body.map replace, .fault .unterminatedString⟩ =
          (Piece.event? line ⟨'"' :: body, .fault .unterminatedString⟩).map
            (Event.replaced replace) := by
        simp [Piece.event?, Event.replaced, replaces.lineBreaks_map]
      rw [← report, List.map_cons, quote]
      exact Reads.eventsFrom_eq (.unterminated (replaces.not_mem_map rfl opened)) line
  | @unsupported c _ foreign =>
      have replaced : Reads ⟨[replace c], .fault .unsupportedCharacter⟩ (rest.map replace) :=
        .unsupported (replaces.foreign c foreign)
      have report : Piece.event? line ⟨[replace c], .fault .unsupportedCharacter⟩ =
          (Piece.event? line ⟨[c], .fault .unsupportedCharacter⟩).map
            (Event.replaced replace) := by
        have sameLine := replaces.lineBreaks_map [c]
        simp only [Piece.event?, Option.map_some, Event.replaced, ← sameLine, List.map_singleton]
      rw [← report]
      exact replaced.eventsFrom_eq line

theorem eventsFrom_map (replaces : ReplacesForeign replace) (text : Text) (line : Int) :
    eventsFrom line (text.map replace) = (eventsFrom line text).map (Event.replaced replace) := by
  induction text using reading_induction generalizing line with
  | nil => simp [Event.replaced, Token.replaced, Token.endOfInput]
  | step piece rest reads ih =>
      rw [List.map_append, replaces.eventsFrom_step reads, ih, reads.eventsFrom_eq,
        List.map_append]
      cases piece.event? line <;> rfl

end ReplacesForeign

/-- Characters without a place in the language are all alike: with each replaced by another
such character, the diagnostics stay as they are, and the tokens but for what is replaced in
their texts. -/
theorem scan_of_replaced (replace : Char → Char) (replaces : ReplacesForeign replace)
    (text : Text) :
    diagnostics (text.map replace) = diagnostics text ∧
      tokens (text.map replace) = (tokens text).map (Token.replaced replace) := by
  have found : events (text.map replace) = (events text).map (Event.replaced replace) :=
    replaces.eventsFrom_map text 1
  constructor
  · have same (event : Event) : (event.replaced replace).report? = event.report?.map id := by
      cases event <;> rfl
    rw [diagnostics, reports, found, filterMap_changed same, List.map_id]
    rfl
  · have shown (event : Event) :
        (event.replaced replace).token? = event.token?.map (Token.replaced replace) := by
      cases event <;> rfl
    rw [tokens, found, filterMap_changed shown]
    rfl

/-- All of them replaced by the null character: behind the point of a number, in a string,
and by itself. -/
theorem scan_of_replaced_by_nul :
    let replace : Char → Char := fun c => if Text.isSupported c then c else '\x00'
    let text : Text := ['1', '.', '٣', '"', 'é', '"', '日']
    ReplacesForeign replace ∧
      diagnostics ['1', '.', '\x00', '"', '\x00', '"', '\x00'] = diagnostics text ∧
      tokens ['1', '.', '\x00', '"', '\x00', '"', '\x00'] =
        (tokens text).map (Token.replaced replace) := by
  intro replace text
  have replaces : ReplacesForeign replace :=
    ⟨fun c supported => if_pos supported, fun c foreign => by simp [replace, foreign]; rfl⟩
  exact ⟨replaces, scan_of_replaced replace replaces text⟩

end LoxLex
