import LoxLex.Text.Basic

namespace LoxLex.Text

/-- No character of a class stands at the head of a text. -/
def StopsAt (inside : Char → Bool) (rest : Text) : Prop :=
  ∀ c, rest.head? = some c → inside c = false

variable {inside : Char → Bool} {span other front rest behind : Text} {c : Char}

@[simp] theorem stopsAt_nil : StopsAt inside [] := by
  intro c head
  simp at head

@[simp] theorem stopsAt_cons : StopsAt inside (c :: rest) ↔ inside c = false := by
  simp [StopsAt]

theorem stopsAt_dropWhile (inside : Char → Bool) (text : Text) :
    StopsAt inside (text.dropWhile inside) := by
  intro c head
  have stopped := List.head?_dropWhile_not inside text
  simpa [head] using stopped

theorem all_ne_of_not_mem {text : Text} (absent : c ∉ text) :
    ∀ d ∈ text, decide (d ≠ c) = true := by
  intro d member
  apply decide_eq_true
  intro same
  subst same
  exact absent member

theorem stopsAt_of_ne_cons {d : Char} (different : ∀ behind, rest ≠ d :: behind) :
    StopsAt (· = d) rest := by
  intro c head
  apply decide_eq_false
  intro same
  subst same
  obtain ⟨behind, found⟩ := List.head?_eq_some_iff.mp head
  exact different behind found

theorem takeWhile_span (all : ∀ c ∈ span, inside c = true) (stops : StopsAt inside rest) :
    (span ++ rest).takeWhile inside = span := by
  rw [List.takeWhile_append_of_pos all]
  cases rest with
  | nil => simp
  | cons c behind =>
      have outside : ¬ inside c = true := by simpa using stops
      rw [List.takeWhile_cons_of_neg outside, List.append_nil]

/-- A text can be cut behind its span in one way only. -/
theorem span_unique (all : ∀ c ∈ span, inside c = true) (stops : StopsAt inside rest)
    (otherAll : ∀ c ∈ other, inside c = true) (otherStops : StopsAt inside behind)
    (same : span ++ rest = other ++ behind) : span = other ∧ rest = behind := by
  have spans := congrArg (List.takeWhile inside) same
  rw [takeWhile_span all stops, takeWhile_span otherAll otherStops] at spans
  subst spans
  exact ⟨rfl, List.append_cancel_left same⟩

/-- A stretch of one class does not reach beyond a place where the class ends. -/
theorem span_longest (otherAll : ∀ c ∈ other, inside c = true) (stops : StopsAt inside rest)
    (same : other ++ behind = front ++ rest) : other.length ≤ front.length := by
  rcases List.append_eq_append_iff.mp same with ⟨more, rfl, _⟩ | ⟨more, rfl, restEq⟩
  · simp
  · cases more with
    | nil => simp
    | cons c tail =>
        subst restEq
        have outside : inside c = false := by simpa using stops
        have contained := otherAll c (by simp)
        rw [outside] at contained
        contradiction

end LoxLex.Text
