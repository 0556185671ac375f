import LoxLex.Sink

/-! Scanning with a cursor that is kept between scans.

A cursor moves over the pieces of a source one by one, keeps the tokens that it has
found, and hands each report on before it moves further.  A sink that refuses a report
stops it behind the piece that was reported, with the tokens up to there.  The next scan
puts it back to the start, whatever it was left with.
-/

namespace LoxLex

/-- How much of a source has been read, the line that it ends on, and the tokens found in
it, the latest first. -/
structure Cursor where
  current : Nat := 0
  line : Int := 1
  found : List Token := []
deriving DecidableEq, Repr

namespace Cursor

/-- Moves over a piece that starts at the cursor. -/
def pass (cursor : Cursor) (piece : Piece) : Cursor where
  current := cursor.current + piece.text.length
  line := cursor.line + Text.lineBreaks piece.text
  found := ((piece.event? cursor.line).bind Event.token?).toList ++ cursor.found

/-- One step over a source that has not come to its end, and what it reports. -/
def step? (source : Text) (cursor : Cursor) : Option (Cursor × Option Report) :=
  match source.drop cursor.current with
  | [] => none
  | c :: rest =>
    let piece := (Piece.read c rest).1
    some (cursor.pass piece, (piece.event? cursor.line).bind Event.report?)

theorem step?_progress {source : Text} {cursor next : Cursor} {report : Option Report}
    (stepped : cursor.step? source = some (next, report)) :
    cursor.current < next.current ∧ next.current ≤ source.length := by
  unfold step? at stepped
  split at stepped
  · contradiction
  · rename_i c rest ahead
    cases stepped
    have left := congrArg List.length ahead
    have positive := List.length_pos_iff.mpr (Piece.read_nonempty c rest)
    have taken := Piece.read_length c rest
    simp only [List.length_drop, List.length_cons] at left
    simp only [pass]
    omega

/-- Steps over a source from the cursor on, as long as the sink takes the reports. -/
def readFrom {ε σ : Type} (sink : Sink ε σ) (source : Text) (cursor : Cursor) (state : σ) :
    EStateM.Result ε (Cursor × σ) Unit :=
  match _ : cursor.step? source with
  | none => .ok () (cursor, state)
  | some (next, none) => readFrom sink source next state
  | some (next, some report) =>
    match sink report state with
    | .ok _ after => readFrom sink source next after
    | .error reason after => .error reason (next, after)
termination_by source.length - cursor.current
decreasing_by
  all_goals
    have progress := step?_progress ‹_›
    omega

/-- The tokens that were found, and the end of input behind them. -/
def gathered (cursor : Cursor) : List Token := (.endOfInput cursor.line :: cursor.found).reverse

/-- Scans a source from its start.  The tokens go to the caller and are not kept. -/
def scan {ε σ : Type} (sink : Sink ε σ) (source : Text) : EStateM ε (Cursor × σ) (List Token) := do
  modify fun (_, state) => ({}, state)
  fun (cursor, state) => readFrom sink source cursor state
  modifyGet fun (cursor, state) => (cursor.gathered, { cursor with found := [] }, state)

end Cursor

end LoxLex
