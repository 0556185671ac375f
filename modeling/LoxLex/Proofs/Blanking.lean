import LoxLex.Proofs.Location
import LoxLex.Proofs.Rendering
import Mathlib.Data.List.Forall2

/-! Texts with everything blanked that is no token.

Outside of the lexemes of a text every character but a line feed is replaced by a
space.  A space ends each lexeme that ended before, and it opens no comment and no
string, so what is left of the text has the same tokens and nothing to report.
-/

namespace LoxLex

/-- What stands in place of a character that is blanked. -/
def Text.blankOf (c : Char) : Char := if c = '\n' then c else ' '

instance (entry : Located) (p : Nat) : Decidable (entry.Covers p) :=
  inferInstanceAs (Decidable (entry.offset ≤ p ∧ p < entry.stop))

/-- A stretch of a text from an offset on, blanked where no token covers it. -/
def blankOutside (entries : List Located) (start : Nat) (stretch : Text) : Text :=
  (stretch.zipIdx start).map fun place =>
    if ∃ entry ∈ entries, entry.Covers place.2 then place.1 else Text.blankOf place.1

/-- A text with every character blanked that lies outside of all its tokens. -/
def blanked (text : Text) : Text := blankOutside (located [] (pieces text)) 0 text

/-- A text with spaces in place of some of the characters of another. -/
def Text.Blanks (text other : Text) : Prop := List.Forall₂ (fun c d => d = c ∨ d = ' ') text other

def Piece.blanked (piece : Piece) : Text :=
  match piece.item with
  | .token _ _ => piece.text
  | _ => piece.text.map Text.blankOf

section Blanks

variable {piece : Piece} {lexeme text rest other : Text} {entries : List Located} {start : Nat}

namespace Text

theorem isBlank_blankOf (c : Char) : isBlank (blankOf c) = true := by
  unfold blankOf
  split
  · rename_i newline
    simp [isBlank, newline]
  · rfl

theorem lineBreaks_blankOf (text : Text) : lineBreaks (text.map blankOf) = lineBreaks text := by
  induction text with
  | nil => rfl
  | cons c rest ih =>
      rw [List.map_cons, lineBreaks_cons, lineBreaks_cons, ih]
      by_cases newline : c = '\n' <;> simp [blankOf, newline]

theorem Blanks.refl (text : Text) : Blanks text text := by
  induction text with
  | nil => exact .nil
  | cons c rest ih => exact .cons (.inl rfl) ih

theorem blanks_blankOf (text : Text) : Blanks text (text.map blankOf) := by
  induction text with
  | nil => exact .nil
  | cons c rest ih =>
      refine .cons ?_ ih
      by_cases newline : c = '\n' <;> simp [blankOf, newline]

end Text

/-- Blanking what follows a token leaves it ended. -/
theorem Kind.EndsBefore.blanks {kind : Kind} (ends : kind.EndsBefore lexeme rest)
    (blanks : Text.Blanks rest other) : kind.EndsBefore lexeme other := by
  cases blanks with
  | nil => exact ends
  | cons kept more =>
      rcases kept with rfl | rfl
      · refine ends.same_head ?_
        -- A digit behind a point is no space, so it was there before.
        rintro ⟨d, behind, same, digit⟩
        cases same
        cases more with
        | cons kept more =>
            rcases kept with rfl | rfl
            · exact ⟨_, _, rfl, digit⟩
            · contradiction
      · exact Kind.endsBefore_blank rfl kind

theorem Piece.blanks_blanked (piece : Piece) : Text.Blanks piece.text piece.blanked := by
  unfold Piece.blanked
  split
  · exact .refl _
  · exact Text.blanks_blankOf _

theorem blanks_flatMap (pieces : List Piece) :
    Text.Blanks (pieces.flatMap Piece.text) (pieces.flatMap Piece.blanked) := by
  induction pieces with
  | nil => exact .nil
  | cons piece rest ih => exact List.rel_append piece.blanks_blanked ih

theorem eventsFrom_blankOf (line : Int) (text rest : Text) :
    eventsFrom line (text.map Text.blankOf ++ rest) =
      eventsFrom (line + Text.lineBreaks text) rest := by
  have blank : ∀ c ∈ text.map Text.blankOf, Text.isBlank c = true := by
    intro c member
    obtain ⟨d, _, rfl⟩ := List.mem_map.mp member
    exact Text.isBlank_blankOf d
  rw [eventsFrom_blanks blank, Text.lineBreaks_blankOf]

/-- One reading step on a text that is blanked. -/
theorem Reads.eventsFrom_blanked (reads : Reads piece rest) (blanks : Text.Blanks rest other)
    (line : Int) :
    eventsFrom line (piece.blanked ++ other) =
      ((piece.token? line).map .token).toList ++
        eventsFrom (line + Text.lineBreaks piece.text) other := by
  cases reads with
  | token spelled ends => exact Reads.eventsFrom_eq (.token spelled (ends.blanks blanks)) line
  | comment comment ends => exact eventsFrom_blankOf line _ other
  | blank blank => exact eventsFrom_blankOf line _ other
  | unterminated opened => exact eventsFrom_blankOf line _ other
  | unsupported foreign => exact eventsFrom_blankOf line _ other

theorem eventsFrom_blanked (line : Int) (text : Text) :
    eventsFrom line ((pieces text).flatMap Piece.blanked) = (tokensFrom line text).map .token := by
  induction text using reading_induction generalizing line with
  | nil => simp
  | step piece rest reads ih =>
      have blanks : Text.Blanks rest ((pieces rest).flatMap Piece.blanked) := by
        simpa only [pieces_flatten] using blanks_flatMap (pieces rest)
      rw [reads.pieces_eq, List.flatMap_cons, reads.eventsFrom_blanked blanks, ih,
        reads.tokensFrom_eq, List.map_append]
      cases piece.token? line <;> rfl

/-! Place by place and piece by piece, the same is blanked. -/

theorem blankOutside_append (entries : List Located) (start : Nat) (front back : Text) :
    blankOutside entries start (front ++ back) =
      blankOutside entries start front ++ blankOutside entries (start + front.length) back := by
  simp only [blankOutside, List.zipIdx_append, List.map_append]

/-- Where every place of a stretch is treated alike, so is the whole stretch. -/
theorem blankOutside_eq_map {each : Char → Char}
    (places : ∀ c p, start ≤ p → p < start + text.length →
      (if ∃ entry ∈ entries, entry.Covers p then c else Text.blankOf c) = each c) :
    blankOutside entries start text = text.map each := by
  calc blankOutside entries start text
      = (text.zipIdx start).map (each ∘ Prod.fst) := by
        apply List.map_congr_left
        rintro ⟨c, p⟩ member
        obtain ⟨lower, upper, _⟩ := List.mem_zipIdx member
        exact places c p lower upper
    _ = text.map each := by rw [← List.map_map, List.zipIdx_map_fst]

theorem blankOutside_covered
    (covered : ∀ p, start ≤ p → p < start + text.length → ∃ entry ∈ entries, entry.Covers p) :
    blankOutside entries start text = text := by
  rw [blankOutside_eq_map fun c p lower upper => if_pos (covered p lower upper)]
  exact text.map_id'

theorem blankOutside_free (free : Free entries start (start + text.length)) :
    blankOutside entries start text = text.map Text.blankOf := by
  apply blankOutside_eq_map
  intro c p lower upper
  apply if_neg
  rintro ⟨entry, found, covers⟩
  exact free entry found p lower upper covers

namespace Head

variable {front : Text}

theorem blankOutside_piece (head : Head text entries front (piece.text ++ rest))
    (reads : Reads piece rest) : blankOutside entries front.length piece.text = piece.blanked := by
  have free (other : ∀ line, piece.token? line = none) :
      blankOutside entries front.length piece.text = piece.text.map Text.blankOf := by
    apply blankOutside_free
    rw [← List.length_append]
    exact head.free reads other
  cases reads with
  | token spelled ends =>
      apply blankOutside_covered
      intro p lower upper
      exact ⟨_, head.token_mem (.token spelled ends) rfl, lower, upper⟩
  | comment comment ends => exact free fun _ => rfl
  | blank blank => exact free fun _ => rfl
  | unterminated opened => exact free fun _ => rfl
  | unsupported foreign => exact free fun _ => rfl

theorem blankOutside_eq (head : Head text entries front rest) :
    blankOutside entries front.length rest = (pieces rest).flatMap Piece.blanked := by
  induction rest using reading_induction generalizing front with
  | nil => simp [blankOutside]
  | step piece rest reads ih =>
      have behind := ih (head.step reads)
      rw [List.length_append] at behind
      rw [blankOutside_append, head.blankOutside_piece reads, behind, reads.pieces_eq,
        List.flatMap_cons]

end Head

end Blanks

/-- With everything blanked that is no token, a text has the tokens that it had, each
in its place, and nothing in it is reported. -/
theorem scan_of_blanked (text : Text) :
    tokens text =
        (located [] (pieces text)).map Located.token ++ [.endOfInput (1 + Text.lineBreaks text)] ∧
      (∀ entry ∈ located [] (pieces text), entry.StandsIn text) ∧
      reports (blanked text) = [] ∧ tokens (blanked text) = tokens text := by
  have pieced : blanked text = (pieces text).flatMap Piece.blanked :=
    (Head.start text).blankOutside_eq
  have found : eventsFrom 1 (blanked text) = (tokens text).map .token := by
    rw [pieced]
    exact eventsFrom_blanked 1 text
  obtain ⟨same, none⟩ := tokens_of_events found
  exact ⟨tokensFrom_located [] text, fun entry member => located_standsIn member, none, same⟩

end LoxLex
