import LoxLex.Proofs.Joining

namespace LoxLex

/-- The text that a token is listed as on the output stream. -/
def Token.entry (token : Token) : Text := token.listing ++ ['\n']

def Report.onLine (line : Int) (report : Report) : Report := { report with line := line }

def Diagnostic.onLine (line : Int) (diagnostic : Diagnostic) : Diagnostic :=
  { diagnostic with line := line }

/-- What the tokens of a text are listed as in front of its end of input. -/
def foundEntries (text : Text) : List Text := (foundFrom 1 text).map Token.entry

namespace Text

variable {body : Text}

theorem lines_line (inside : '\n' ∉ body) (rest : Text) :
    lines (body ++ '\n' :: rest) = (body ++ ['\n']) :: lines rest := by
  induction body with
  | nil => rfl
  | cons c more ih =>
      have other := List.ne_of_not_mem_cons inside
      change consLine c (lines (more ++ '\n' :: rest)) = _
      rw [ih (List.not_mem_of_not_mem_cons inside), consLine, if_neg other.symm]
      rfl

theorem lines_last (nonempty : body ≠ []) (inside : '\n' ∉ body) : lines body = [body] := by
  induction body with
  | nil => contradiction
  | cons c more ih =>
      have other := List.ne_of_not_mem_cons inside
      have others := List.not_mem_of_not_mem_cons inside
      change consLine c (lines more) = _
      cases more with
      | nil => exact if_neg other.symm
      | cons d more =>
          rw [ih (by simp) others, consLine, if_neg other.symm]

/-- What holds of texts without a line feed and is kept when a line is put in front
holds of every text. -/
@[elab_as_elim] theorem line_induction {motive : Text → Prop} (text : Text) (nil : motive [])
    (last : ∀ body, body ≠ [] → '\n' ∉ body → motive body)
    (line : ∀ body rest, '\n' ∉ body → motive rest → motive (body ++ '\n' :: rest)) :
    motive text := by
  induction length : text.length using Nat.strongRecOn generalizing text with
  | _ n ih =>
      by_cases broken : '\n' ∈ text
      · obtain ⟨body, rest, rfl, inside⟩ := List.eq_append_cons_of_mem broken
        refine line body rest inside (ih _ ?_ rest rfl)
        simp only [List.length_append, List.length_cons] at length
        omega
      · by_cases empty : text = []
        · rw [empty]
          exact nil
        · exact last text empty broken

end Text

section Scan

variable {text body : Text}

theorem foundEntries_from (line : Int) (text : Text) :
    (foundFrom line text).map Token.entry = foundEntries text := by
  have same : 1 + (line - 1) = line := by omega
  rw [← same, foundFrom_below, List.map_map]
  rfl

@[simp] theorem foundEntries_nil : foundEntries [] = [] := by
  simp [foundEntries, foundFrom, placed]

theorem foundEntries_ended (closed : Closed body) :
    foundEntries (body ++ ['\n']) = foundEntries body := by
  rw [foundEntries, foundFrom_join closed, List.map_append, foundEntries_from, foundEntries_from,
    foundEntries_nil, List.append_nil]

theorem reports_ended (closed : Closed body) : reports (body ++ ['\n']) = reports body := by
  have joined := reportsFrom_join closed [] 1
  rw [reportsFrom_nil, List.append_nil] at joined
  exact joined

theorem foundEntries_lines (closed : ∀ line ∈ Text.lines text, Closed line) :
    foundEntries text = (Text.lines text).flatMap foundEntries := by
  induction text using Text.line_induction with
  | nil => simp [Text.lines]
  | last body nonempty inside => rw [Text.lines_last nonempty inside, List.flatMap_singleton]
  | line body rest inside ih =>
      rw [Text.lines_line inside] at closed ⊢
      obtain ⟨first, others⟩ := List.forall_mem_cons.mp closed
      have front := first.of_join
      rw [List.flatMap_cons, foundEntries_ended front, ← ih others, foundEntries,
        foundFrom_join front, List.map_append, foundEntries_from, foundEntries_from]

theorem report?_line {piece : Piece} {report : Report} {line : Int}
    (found : piece.report? line = some report) :
    report.line = line + Text.lineBreaks piece.text := by
  unfold Piece.report? Piece.event? at found
  split at found
  · contradiction
  · contradiction
  · cases found
    rfl

theorem reportsFrom_single (inside : '\n' ∉ body) (line : Int) :
    ∀ report ∈ reportsFrom line body, report.line = line := by
  induction body using reading_induction with
  | nil => simp
  | step piece rest reads ih =>
      obtain ⟨inPiece, inRest⟩ := not_or.mp (mt List.mem_append.mpr inside)
      have same : line + Text.lineBreaks piece.text = line := by
        simp [Text.lineBreaks, List.count_eq_zero_of_not_mem inPiece]
      intro report member
      rw [reads.reportsFrom_eq, same] at member
      rcases List.mem_append.mp member with found | later
      · rw [report?_line (Option.mem_toList.mp found), same]
      · exact ih inRest report later

theorem reportsFrom_onLine (inside : '\n' ∉ body) (line : Int) :
    reportsFrom line body = (reports body).map (Report.onLine line) := by
  have same : 1 + (line - 1) = line := by omega
  rw [← same, reportsFrom_below, same]
  apply List.map_congr_left
  intro report member
  have first := reportsFrom_single inside 1 report member
  rw [Report.below, first, same, Report.onLine]

/-- What is reported of a text is reported of its lines, each with its number. -/
theorem reportsFrom_lines (closed : ∀ line ∈ Text.lines text, Closed line) (first : Nat) :
    reportsFrom first text =
      ((Text.lines text).zipIdx first).flatMap fun entry =>
        (reports entry.1).map (Report.onLine entry.2) := by
  induction text using Text.line_induction generalizing first with
  | nil => simp [Text.lines]
  | last body nonempty inside =>
      rw [Text.lines_last nonempty inside, reportsFrom_onLine inside]
      simp
  | line body rest inside ih =>
      rw [Text.lines_line inside] at closed ⊢
      obtain ⟨closedLine, others⟩ := List.forall_mem_cons.mp closed
      have front := closedLine.of_join
      have next : (first : Int) + (1 + Text.lineBreaks body) = (first + 1 : Nat) := by
        simp [Text.lineBreaks, List.count_eq_zero_of_not_mem inside]
      rw [reportsFrom_join front, next, ih others, reportsFrom_onLine inside, List.zipIdx_cons,
        List.flatMap_cons, reports_ended front]

theorem diagnostics_lines (closed : ∀ line ∈ Text.lines text, Closed line) :
    diagnostics text =
      ((Text.lines text).zipIdx 1).flatMap fun entry =>
        (diagnostics entry.1).map (Diagnostic.onLine entry.2) := by
  have found := reportsFrom_lines closed 1
  change (reportsFrom (1 : Nat) text).map Diagnostic.ofReport = _
  rw [found, List.map_flatMap]
  congr 1
  funext entry
  rw [diagnostics, List.map_map, List.map_map]
  rfl

end Scan

end LoxLex
