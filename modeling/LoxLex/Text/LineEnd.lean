import LoxLex.Text.Basic

/-! Line ends of other conventions.

A carriage return, alone or with the line feed that follows it, is one line feed
in a normalised text.  The recursion keeps what is done in reverse; the equations
of `normaliseLineEnds` are the semantic model.
-/

namespace LoxLex.Text

def normaliseAfter (done : Text) : Text → Text
  | [] => done.reverse
  | '\r' :: '\n' :: rest => normaliseAfter ('\n' :: done) rest
  | '\r' :: rest => normaliseAfter ('\n' :: done) rest
  | c :: rest => normaliseAfter (c :: done) rest

/-- The text with every pair of carriage return and line feed, and then every
remaining carriage return, replaced by a line feed. -/
def normaliseLineEnds (text : Text) : Text := normaliseAfter [] text

theorem normaliseAfter_append (done front text : Text) :
    normaliseAfter (done ++ front) text = front.reverse ++ normaliseAfter done text := by
  fun_induction normaliseAfter done text with
  | case1 done => simp [normaliseAfter]
  | case2 done rest ih => simpa [normaliseAfter] using ih
  | case3 done rest other ih =>
      rw [normaliseAfter]
      · simpa using ih
      · exact other
  | case4 done c rest notPair notReturn ih =>
      rw [normaliseAfter]
      · simpa using ih
      · exact notPair
      · exact notReturn

@[simp] theorem normaliseLineEnds_nil : normaliseLineEnds [] = [] := rfl

@[simp] theorem normaliseLineEnds_pair (rest : Text) :
    normaliseLineEnds ('\r' :: '\n' :: rest) = '\n' :: normaliseLineEnds rest :=
  normaliseAfter_append [] ['\n'] rest

theorem normaliseLineEnds_return (rest : Text) (alone : rest.head? ≠ some '\n') :
    normaliseLineEnds ('\r' :: rest) = '\n' :: normaliseLineEnds rest := by
  unfold normaliseLineEnds
  rw [normaliseAfter]
  · exact normaliseAfter_append [] ['\n'] rest
  · rintro tail rfl
    simp at alone

theorem normaliseLineEnds_other (c : Char) (rest : Text) (kept : c ≠ '\r') :
    normaliseLineEnds (c :: rest) = c :: normaliseLineEnds rest := by
  unfold normaliseLineEnds
  rw [normaliseAfter]
  · exact normaliseAfter_append [] [c] rest
  · rintro tail rfl
    simp at kept
  · simpa using kept

end LoxLex.Text
