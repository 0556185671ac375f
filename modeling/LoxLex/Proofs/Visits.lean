import LoxLex.Proofs.Rescan

namespace LoxLex

/-- The cursors that a scan of a source comes by, each at the head of a step or at the end. -/
inductive Cursor.Visited (source : Text) : Cursor → Prop
  | start : Visited source {}
  | step {cursor next : Cursor} {report : Option Report} (visited : Visited source cursor)
      (stepped : cursor.step? source = some (next, report)) : Visited source next

section Cut

variable {source text : Text} {cursor next : Cursor} {report : Option Report} {piece : Piece}
  {others : List Piece}

theorem reads_of_pieces (cut : pieces text = piece :: others) :
    ∃ rest, Reads piece rest ∧ text = piece.text ++ rest ∧ pieces rest = others := by
  cases text with
  | nil => simp at cut
  | cons c behind =>
      rw [pieces_cons] at cut
      cases cut
      exact ⟨_, Piece.read_reads c behind, (Piece.read_append c behind).symm, rfl⟩

/-- A step moves over the piece ahead, and reports what there is to report of it. -/
theorem Cursor.reads_of_step? (stepped : cursor.step? source = some (next, report)) :
    ∃ piece rest, Reads piece rest ∧ source.drop cursor.current = piece.text ++ rest ∧
      next = cursor.pass piece ∧ report = piece.report? cursor.line := by
  cases ahead : source.drop cursor.current with
  | nil =>
      rw [step?_end ahead] at stepped
      contradiction
  | cons c behind =>
      have reads := Piece.read_reads c behind
      have whole := Piece.read_append c behind
      rw [step?_reads reads (ahead.trans whole.symm)] at stepped
      cases stepped
      exact ⟨_, _, reads, whole.symm, rfl, rfl⟩

theorem Cursor.Visited.cut (visited : cursor.Visited source) :
    ∃ passed, passed.flatMap Piece.text = source.take cursor.current ∧
      pieces source = passed ++ pieces (source.drop cursor.current) := by
  induction visited with
  | start => exact ⟨[], List.take_zero.symm, rfl⟩
  | step visited stepped ih =>
      obtain ⟨passed, front, cut⟩ := ih
      obtain ⟨piece, rest, reads, ahead, rfl, _⟩ := reads_of_step? stepped
      refine ⟨passed ++ [piece], ?_, ?_⟩
      · rw [List.flatMap_append, front, List.flatMap_singleton, pass, List.take_add, ahead,
          List.take_left]
      · rw [cut, drop_pass ahead, ahead, reads.pieces_eq, List.append_assoc]
        rfl

end Cut

end LoxLex
