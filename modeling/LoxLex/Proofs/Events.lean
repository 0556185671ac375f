import LoxLex.Proofs.Reading

namespace LoxLex

/-- The events of a text that starts on a given line. -/
def eventsFrom (line : Int) (text : Text) : List Event := place line (pieces text)

def tokensFrom (line : Int) (text : Text) : List Token :=
  (eventsFrom line text).filterMap Event.token?

def reportsFrom (line : Int) (text : Text) : List Report :=
  (eventsFrom line text).filterMap Event.report?

@[simp] theorem eventsFrom_nil (line : Int) : eventsFrom line [] = [.token (.endOfInput line)] := by
  simp [eventsFrom]

@[simp] theorem tokensFrom_nil (line : Int) : tokensFrom line [] = [.endOfInput line] := by
  simp [tokensFrom, Event.token?]

@[simp] theorem reportsFrom_nil (line : Int) : reportsFrom line [] = [] := by
  simp [reportsFrom, Event.report?]

/-- What a view shows of events that are changed, if each change shows as one. -/
theorem filterMap_changed {β : Type} {change : Event → Event} {view : Event → Option β}
    {shown : β → β} (shows : ∀ event, view (change event) = (view event).map shown)
    (events : List Event) :
    (events.map change).filterMap view = (events.filterMap view).map shown := by
  rw [List.filterMap_map, List.map_filterMap]
  congr 1
  exact funext shows

/-- The line of the text behind a stretch, by what stands in front of it. -/
theorem line_append (front text : Text) :
    (1 + Text.lineBreaks front + Text.lineBreaks text : Int) =
      1 + Text.lineBreaks (front ++ text) := by
  simp only [Text.lineBreaks_append]
  omega

namespace Piece

/-- The token of a piece that starts on a line. -/
def token? (line : Int) (piece : Piece) : Option Token := (piece.event? line).bind Event.token?

/-- The report of a piece that starts on a line. -/
def report? (line : Int) (piece : Piece) : Option Report := (piece.event? line).bind Event.report?

end Piece

section Token

variable {piece : Piece} {rest : Text} {token : Token} {line : Int}

theorem token?_lexeme (found : piece.token? line = some token) :
    token.lexeme = piece.text ∧ token.line = line := by
  unfold Piece.token? Piece.event? at found
  split at found
  · cases found
    exact ⟨rfl, rfl⟩
  · contradiction
  · contradiction

theorem Reads.token?_spells (reads : Reads piece rest) (found : piece.token? line = some token) :
    Spells piece.text token.kind token.literal := by
  cases reads with
  | token spelled ends =>
      cases found
      exact spelled
  | comment line ends => contradiction
  | blank blank => contradiction
  | unterminated opened => contradiction
  | unsupported foreign => contradiction

end Token

theorem report?_unsupported {c : Char} (foreign : Text.isSupported c = false) (line : Int) :
    Piece.report? line ⟨[c], .fault .unsupportedCharacter⟩ =
      some ⟨line, Fault.unsupportedCharacter.message⟩ := by
  have sameLine : c ≠ '\n' := by
    intro newline
    subst newline
    contradiction
  simp [Piece.report?, Piece.event?, Event.report?, sameLine]

theorem report?_unterminated (body : Text) (line : Int) :
    Piece.report? line ⟨'"' :: body, .fault .unterminatedString⟩ =
      some ⟨line + Text.lineBreaks ('"' :: body), Fault.unterminatedString.message⟩ := rfl

namespace Reads

variable {piece : Piece} {rest : Text}

theorem eventsFrom_eq (reads : Reads piece rest) (line : Int) :
    eventsFrom line (piece.text ++ rest) =
      (piece.event? line).toList ++ eventsFrom (line + Text.lineBreaks piece.text) rest := by
  rw [eventsFrom, reads.pieces_eq, place_cons]
  rfl

theorem tokensFrom_eq (reads : Reads piece rest) (line : Int) :
    tokensFrom line (piece.text ++ rest) =
      (piece.token? line).toList ++ tokensFrom (line + Text.lineBreaks piece.text) rest := by
  rw [tokensFrom, reads.eventsFrom_eq, List.filterMap_append]
  cases found : piece.event? line with
  | none => simp [Piece.token?, found, tokensFrom]
  | some event => cases event <;> simp [Piece.token?, found, tokensFrom, Event.token?]

theorem reportsFrom_eq (reads : Reads piece rest) (line : Int) :
    reportsFrom line (piece.text ++ rest) =
      (piece.report? line).toList ++ reportsFrom (line + Text.lineBreaks piece.text) rest := by
  rw [reportsFrom, reads.eventsFrom_eq, List.filterMap_append]
  cases found : piece.event? line with
  | none => simp [Piece.report?, found, reportsFrom]
  | some event => cases event <;> simp [Piece.report?, found, reportsFrom, Event.report?]

end Reads

end LoxLex
