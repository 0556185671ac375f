import LoxLex.Piece

/-! Scanning a text.

A text is cut into pieces, the pieces are placed on their lines, and what comes of
it is a sequence of events: each token and each report, in the order in which the
text gives rise to them, and the end of input last.  A token is on the line where
its lexeme starts; a report is on the line where the piece at fault ends.  The two
recursions keep what is done in reverse; `pieces_cons` and `place_cons` are the
semantic model.
-/

namespace LoxLex

inductive Event where
  | token (token : Token)
  | report (report : Report)
deriving DecidableEq, Repr

namespace Event

def token? : Event → Option Token
  | token t => some t
  | report _ => none

def report? : Event → Option Report
  | token _ => none
  | report r => some r

end Event

def piecesAfter (done : List Piece) : Text → List Piece
  | [] => done.reverse
  | c :: rest => piecesAfter ((Piece.read c rest).1 :: done) (Piece.read c rest).2
termination_by text => text.length
decreasing_by exact Piece.read_shorter c rest

def pieces (text : Text) : List Piece := piecesAfter [] text

theorem piecesAfter_append (done front : List Piece) (text : Text) :
    piecesAfter (done ++ front) text = front.reverse ++ piecesAfter done text := by
  fun_induction piecesAfter done text with
  | case1 done => simp [piecesAfter]
  | case2 done c rest ih => rw [piecesAfter]; exact ih

@[simp] theorem pieces_nil : pieces [] = [] := by
  simp [pieces, piecesAfter]

theorem pieces_cons (c : Char) (rest : Text) :
    pieces (c :: rest) = (Piece.read c rest).1 :: pieces (Piece.read c rest).2 := by
  unfold pieces
  rw [piecesAfter]
  exact piecesAfter_append [] [(Piece.read c rest).1] (Piece.read c rest).2

/-- The pieces put together are the text. -/
theorem pieces_flatten (text : Text) : (pieces text).flatMap Piece.text = text := by
  induction length : text.length using Nat.strongRecOn generalizing text with
  | _ n ih =>
      cases text with
      | nil => simp
      | cons c rest =>
          have shorter := Piece.read_shorter c rest
          rw [pieces_cons, List.flatMap_cons, ih _ (by omega) _ rfl, Piece.read_append]

namespace Piece

/-- What a piece that starts on a line gives rise to. -/
def event? (line : Int) (piece : Piece) : Option Event :=
  match piece.item with
  | .token kind literal => some (.token ⟨kind, piece.text, literal, line⟩)
  | .skipped => none
  | .fault fault => some (.report ⟨line + Text.lineBreaks piece.text, fault.message⟩)

end Piece

def placeAfter (done : List Event) (line : Int) : List Piece → List Event
  | [] => (.token (.endOfInput line) :: done).reverse
  | piece :: rest =>
    placeAfter ((piece.event? line).toList ++ done) (line + Text.lineBreaks piece.text) rest

/-- The events of pieces of which the first starts on a given line. -/
def place (line : Int) (pieces : List Piece) : List Event := placeAfter [] line pieces

theorem placeAfter_append (done front : List Event) (line : Int) (pieces : List Piece) :
    placeAfter (done ++ front) line pieces = front.reverse ++ placeAfter done line pieces := by
  induction pieces generalizing done line with
  | nil => simp [placeAfter]
  | cons piece rest ih => rw [placeAfter, placeAfter, ← List.append_assoc, ih]

@[simp] theorem place_nil (line : Int) : place line [] = [.token (.endOfInput line)] := rfl

theorem place_cons (line : Int) (piece : Piece) (rest : List Piece) :
    place line (piece :: rest) =
      (piece.event? line).toList ++ place (line + Text.lineBreaks piece.text) rest := by
  unfold place
  rw [placeAfter, List.append_nil]
  cases found : piece.event? line with
  | none => rfl
  | some event => exact placeAfter_append [] [event] _ rest

def events (text : Text) : List Event := place 1 (pieces text)

/-- The tokens of a text, the end of input last. -/
def tokens (text : Text) : List Token := (events text).filterMap Event.token?

def reports (text : Text) : List Report := (events text).filterMap Event.report?

def diagnostics (text : Text) : List Diagnostic := (reports text).map .ofReport

/-- The tokens of a text without errors, or else the first diagnostic. -/
def tokensOrError (text : Text) : Except Diagnostic (List Token) :=
  match diagnostics text with
  | [] => .ok (tokens text)
  | first :: _ => .error first

/-- The record that is logged when a scan has come to its end. -/
def scannedRecord (tokens : List Token) : Log.Record where
  level := .debug
  channel := Log.channel "lox.lexer.scanner".toList
  message := "Scanned ".toList ++ Text.ofNat tokens.length ++ " tokens over ".toList ++
    Text.ofInt ((tokens.getLast?.map Token.line).getD 1) ++ " lines".toList

end LoxLex
