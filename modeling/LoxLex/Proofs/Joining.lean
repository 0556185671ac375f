import LoxLex.Proofs.Events

/-! Texts joined by a line feed.

A line feed ends every lexeme that the end of input ends, an open string apart.  So
behind a text that leaves no string open, a line feed and another text are scanned as
if the other stood alone, only further down.
-/

namespace LoxLex

/-- The token with a number of lines put in front of it. -/
def Token.below (lines : Int) (token : Token) : Token := { token with line := token.line + lines }

def Report.below (lines : Int) (report : Report) : Report :=
  { report with line := report.line + lines }

def Diagnostic.below (lines : Int) (diagnostic : Diagnostic) : Diagnostic :=
  { diagnostic with line := diagnostic.line + lines }

def Event.below (lines : Int) : Event → Event
  | .token t => .token (t.below lines)
  | .report r => .report (r.below lines)

/-- The events of pieces without the end of input behind them. -/
def placed (line : Int) : List Piece → List Event
  | [] => []
  | piece :: rest => (piece.event? line).toList ++ placed (line + Text.lineBreaks piece.text) rest

/-- The tokens of a text without its end of input. -/
def foundFrom (line : Int) (text : Text) : List Token :=
  (placed line (pieces text)).filterMap Event.token?

/-- No string is left open at the end of a text. -/
def Closed (text : Text) : Prop := ∀ piece ∈ pieces text, piece.item ≠ .fault .unterminatedString

def Piece.newline : Piece := ⟨['\n'], .skipped⟩

theorem event?_below (piece : Piece) (line lines : Int) :
    piece.event? (line + lines) = (piece.event? line).map (Event.below lines) := by
  unfold Piece.event?
  split
  · rfl
  · rfl
  · have moved (breaks : Int) : line + lines + breaks = line + breaks + lines := by omega
    simp only [Option.map_some, Event.below, Report.below, moved]

theorem placed_below (line lines : Int) (pieces : List Piece) :
    placed (line + lines) pieces = (placed line pieces).map (Event.below lines) := by
  induction pieces generalizing line with
  | nil => rfl
  | cons piece rest ih =>
      have moved : line + lines + Text.lineBreaks piece.text =
          line + Text.lineBreaks piece.text + lines := by omega
      rw [placed, placed, moved, ih, event?_below, List.map_append]
      cases piece.event? line <;> rfl

theorem token?_below (lines : Int) (event : Event) :
    (event.below lines).token? = event.token?.map (Token.below lines) := by
  cases event <;> rfl

theorem report?_below (lines : Int) (event : Event) :
    (event.below lines).report? = event.report?.map (Report.below lines) := by
  cases event <;> rfl

theorem map_ofReport_below (lines : Int) (reports : List Report) :
    (reports.map (Report.below lines)).map Diagnostic.ofReport =
      (reports.map Diagnostic.ofReport).map (Diagnostic.below lines) := by
  rw [List.map_map, List.map_map]
  rfl

theorem place_append (line : Int) (front back : List Piece) :
    place line (front ++ back) =
      placed line front ++ place (line + Text.lineBreaks (front.flatMap Piece.text)) back := by
  induction front generalizing line with
  | nil => simp [placed]
  | cons piece rest ih =>
      have moved : line + Text.lineBreaks piece.text + Text.lineBreaks (rest.flatMap Piece.text) =
          line + Text.lineBreaks ((piece :: rest).flatMap Piece.text) := by
        rw [List.flatMap_cons, Text.lineBreaks_append]
        omega
      rw [List.cons_append, place_cons, ih, moved, placed, List.append_assoc]

theorem eventsFrom_placed (line : Int) (text : Text) :
    eventsFrom line text =
      placed line (pieces text) ++ [.token (.endOfInput (line + Text.lineBreaks text))] := by
  have whole := place_append line (pieces text) []
  rw [pieces_flatten, List.append_nil] at whole
  exact whole

theorem eventsFrom_below (line lines : Int) (text : Text) :
    eventsFrom (line + lines) text = (eventsFrom line text).map (Event.below lines) := by
  have moved : line + lines + Text.lineBreaks text = line + Text.lineBreaks text + lines := by
    omega
  rw [eventsFrom_placed, eventsFrom_placed, placed_below, moved, List.map_append]
  rfl

theorem tokensFrom_found (line : Int) (text : Text) :
    tokensFrom line text =
      foundFrom line text ++ [.endOfInput (line + Text.lineBreaks text)] := by
  rw [tokensFrom, eventsFrom_placed, List.filterMap_append]
  rfl

theorem reportsFrom_placed (line : Int) (text : Text) :
    reportsFrom line text = (placed line (pieces text)).filterMap Event.report? := by
  rw [reportsFrom, eventsFrom_placed, List.filterMap_append]
  exact List.append_nil _

theorem foundFrom_below (line lines : Int) (text : Text) :
    foundFrom (line + lines) text = (foundFrom line text).map (Token.below lines) := by
  rw [foundFrom, placed_below, filterMap_changed (token?_below lines), foundFrom]

theorem tokensFrom_below (line lines : Int) (text : Text) :
    tokensFrom (line + lines) text = (tokensFrom line text).map (Token.below lines) := by
  rw [tokensFrom, eventsFrom_below, filterMap_changed (token?_below lines), tokensFrom]

theorem reportsFrom_below (line lines : Int) (text : Text) :
    reportsFrom (line + lines) text = (reportsFrom line text).map (Report.below lines) := by
  rw [reportsFrom, eventsFrom_below, filterMap_changed (report?_below lines), reportsFrom]

theorem report_of_fault {pieces : List Piece} {piece : Piece} {fault : Fault} (line : Int)
    (member : piece ∈ pieces) (isFault : piece.item = .fault fault) :
    ∃ report ∈ (placed line pieces).filterMap Event.report?, report.message = fault.message := by
  induction pieces generalizing line with
  | nil => contradiction
  | cons first rest ih =>
      rw [placed, List.filterMap_append]
      rcases List.mem_cons.mp member with same | later
      · subst same
        refine ⟨⟨line + Text.lineBreaks piece.text, fault.message⟩, ?_, rfl⟩
        simp [Piece.event?, isFault, Event.report?]
      · obtain ⟨report, found, message⟩ := ih _ later
        exact ⟨report, List.mem_append_right _ found, message⟩

namespace Closed

variable {text front rest : Text} {piece : Piece}

theorem nil : Closed [] := by
  simp [Closed]

theorem iff_step (reads : Reads piece rest) :
    Closed (piece.text ++ rest) ↔ piece.item ≠ .fault .unterminatedString ∧ Closed rest := by
  unfold Closed
  rw [reads.pieces_eq, List.forall_mem_cons]

theorem not_of_opened {body : Text} (opened : '"' ∉ body) : ¬ Closed ('"' :: body) := by
  intro closed
  have reads : Reads ⟨'"' :: body, .fault .unterminatedString⟩ [] := .unterminated opened
  rw [← List.append_nil ('"' :: body)] at closed
  exact ((iff_step reads).mp closed).1 rfl

theorem of_diagnostics
    (closed : ∀ diagnostic ∈ diagnostics text,
      diagnostic.message ≠ "Unterminated string".toList) : Closed text := by
  intro piece member isFault
  obtain ⟨report, found, message⟩ := report_of_fault 1 member isFault
  rw [← reportsFrom_placed] at found
  exact closed (.ofReport report) (List.mem_map_of_mem found) message

end Closed

section Newline

variable {front rest lexeme : Text} {piece : Piece}

theorem Reads.newline (rest : Text) : Reads .newline rest := .blank rfl

theorem pieces_newline (rest : Text) : pieces ('\n' :: rest) = .newline :: pieces rest :=
  (Reads.newline rest).pieces_eq

/-- What ends before a text also ends before the text and more lines behind it. -/
theorem Kind.EndsBefore.join {kind : Kind} (ends : kind.EndsBefore lexeme rest) (back : Text) :
    kind.EndsBefore lexeme (rest ++ '\n' :: back) := by
  cases rest with
  | nil => exact Kind.endsBefore_blank rfl kind
  | cons c more =>
      refine ends.same_head ?_
      -- A point at the end of the text has the line feed behind it, which is no digit.
      rintro ⟨d, behind, same, digit⟩
      cases more with
      | nil =>
          cases same
          contradiction
      | cons e more =>
          cases same
          exact ⟨_, _, rfl, digit⟩

theorem Reads.join (reads : Reads piece rest) (closed : piece.item ≠ .fault .unterminatedString)
    (back : Text) : Reads piece (rest ++ '\n' :: back) := by
  cases reads with
  | token spelled ends => exact .token spelled (ends.join back)
  | comment line ends =>
      refine .comment line ?_
      cases rest with
      | nil => simp
      | cons c more => exact Text.stopsAt_cons.mpr (Text.stopsAt_cons.mp ends)
  | blank blank => exact .blank blank
  | unterminated opened => exact absurd rfl closed
  | unsupported foreign => exact .unsupported foreign

theorem pieces_join (closed : Closed front) (back : Text) :
    pieces (front ++ '\n' :: back) = pieces front ++ .newline :: pieces back := by
  induction front using reading_induction with
  | nil => rw [List.nil_append, pieces_newline, pieces_nil, List.nil_append]
  | step piece rest reads ih =>
      obtain ⟨notOpen, tail⟩ := (Closed.iff_step reads).mp closed
      rw [List.append_assoc, (reads.join notOpen back).pieces_eq, ih tail, reads.pieces_eq,
        List.cons_append]

/-- A line feed leaves a string open that is open in front of it. -/
theorem Closed.of_join (closed : Closed (front ++ ['\n'])) : Closed front := by
  induction front using reading_induction with
  | nil => exact .nil
  | step piece rest reads ih =>
      rw [List.append_assoc] at closed
      by_cases isOpen : piece.item = .fault .unterminatedString
      · rcases reads.of_fault isOpen with ⟨body, opened, rfl, rfl⟩ | ⟨c, _, rfl⟩
        · exact absurd closed (not_of_opened (by simp [opened]))
        · cases isOpen
      · rw [Closed.iff_step (reads.join isOpen [])] at closed
        exact (Closed.iff_step reads).mpr ⟨isOpen, ih closed.2⟩

theorem eventsFrom_join (closed : Closed front) (back : Text) (line : Int) :
    eventsFrom line (front ++ '\n' :: back) =
      placed line (pieces front) ++ eventsFrom (line + (1 + Text.lineBreaks front)) back := by
  have lines : line + Text.lineBreaks front + Text.lineBreaks Piece.newline.text =
      line + (1 + Text.lineBreaks front) := by
    simp only [Piece.newline, Text.lineBreaks_cons, Text.lineBreaks_nil, if_pos]
    omega
  rw [eventsFrom, pieces_join closed, place_append, pieces_flatten, place_cons, lines]
  rfl

theorem tokensFrom_join (closed : Closed front) (back : Text) (line : Int) :
    tokensFrom line (front ++ '\n' :: back) =
      foundFrom line front ++ tokensFrom (line + (1 + Text.lineBreaks front)) back := by
  rw [tokensFrom, eventsFrom_join closed, List.filterMap_append, tokensFrom, foundFrom]

theorem foundFrom_join (closed : Closed front) (back : Text) (line : Int) :
    foundFrom line (front ++ '\n' :: back) =
      foundFrom line front ++ foundFrom (line + (1 + Text.lineBreaks front)) back := by
  have joined := tokensFrom_join closed back line
  rw [tokensFrom_found, tokensFrom_found, ← List.append_assoc] at joined
  exact List.append_inj_left' joined rfl

theorem reportsFrom_join (closed : Closed front) (back : Text) (line : Int) :
    reportsFrom line (front ++ '\n' :: back) =
      reportsFrom line front ++ reportsFrom (line + (1 + Text.lineBreaks front)) back := by
  rw [reportsFrom, eventsFrom_join closed, List.filterMap_append, ← reportsFrom_placed,
    ← reportsFrom]

end Newline

/-- Behind a text that leaves no string open, the lines of another text are scanned as
they are by themselves, further down by the lines of the first. -/
theorem scan_join (front back : Text)
    (closed : ∀ diagnostic ∈ diagnostics front,
      diagnostic.message ≠ "Unterminated string".toList) :
    ∃ found,
      tokens front = found ++ [.endOfInput (1 + Text.lineBreaks front)] ∧
      tokens (front ++ '\n' :: back) =
        found ++ (tokens back).map (Token.below (1 + Text.lineBreaks front)) ∧
      diagnostics (front ++ '\n' :: back) =
        diagnostics front ++
          (diagnostics back).map (Diagnostic.below (1 + Text.lineBreaks front)) := by
  have closedFront := Closed.of_diagnostics closed
  refine ⟨foundFrom 1 front, tokensFrom_found 1 front, ?_, ?_⟩
  · have joined := tokensFrom_join closedFront back 1
    rw [tokensFrom_below] at joined
    exact joined
  · have joined := reportsFrom_join closedFront back 1
    rw [reportsFrom_below] at joined
    change (reportsFrom 1 (front ++ '\n' :: back)).map Diagnostic.ofReport = _
    rw [joined, List.map_append, map_ofReport_below]
    rfl

theorem scan_join_pending_point :
    (∀ diagnostic ∈ diagnostics ['1', '.'], diagnostic.message ≠ "Unterminated string".toList) ∧
      ∃ found,
        tokens ['1', '.'] = found ++ [.endOfInput 1] ∧
        tokens ['1', '.', '\n', '5', ' ', '@'] =
          found ++ (tokens ['5', ' ', '@']).map (Token.below 1) ∧
        diagnostics ['1', '.', '\n', '5', ' ', '@'] =
          diagnostics ['1', '.'] ++ (diagnostics ['5', ' ', '@']).map (Diagnostic.below 1) := by
  have closed : ∀ diagnostic ∈ diagnostics ['1', '.'],
      diagnostic.message ≠ "Unterminated string".toList := by decide +kernel
  exact ⟨closed, scan_join ['1', '.'] ['5', ' ', '@'] closed⟩

end LoxLex
