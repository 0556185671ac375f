import LoxLex.Proofs.Events

/-! The faults of a text, found without its tokens.

A machine with three modes goes over a text character by character.  It knows where
strings and comments start and end and which characters are supported, and nothing of
tokens.  Each reading step takes the machine from code mode to code mode, so what the
machine finds at fault is what a scan reports.
-/

namespace LoxLex

/-- What a character stands in. -/
inductive Mode where
  | code
  | comment
  | string
deriving DecidableEq, Repr

/-- The faults of a text that starts at an offset in a mode, with their offsets. -/
def faultsFrom : Mode → Nat → Text → List (Nat × Fault)
  | .code, _, [] => []
  | .code, p, '/' :: '/' :: rest => faultsFrom .comment (p + 2) rest
  | .code, p, c :: rest =>
    if c = '"' then faultsFrom .string (p + 1) rest
    else if Text.isSupported c then faultsFrom .code (p + 1) rest
    else (p, .unsupportedCharacter) :: faultsFrom .code (p + 1) rest
  | .comment, _, [] => []
  | .comment, p, c :: rest => faultsFrom (if c = '\n' then .code else .comment) (p + 1) rest
  | .string, p, [] => [(p, .unterminatedString)]
  | .string, p, c :: rest => faultsFrom (if c = '"' then .code else .string) (p + 1) rest

/-- The faults that the machine finds in a whole text. -/
def faults (text : Text) : List (Nat × Fault) := faultsFrom .code 0 text

/-- What is reported of a fault at an offset of a text. -/
def Fault.reportAt (text : Text) (entry : Nat × Fault) : Report :=
  ⟨1 + Text.lineBreaks (text.take entry.1), entry.2.message⟩

/-- Characters that leave the machine in code mode, whatever follows them. -/
def Text.isPlain (c : Char) : Bool := isSupported c && c ≠ '"' && c ≠ '/'

section Modes

variable {c : Char} {text body rest : Text}

theorem isPlain_of_isWordChar (wordChar : Text.isWordChar c = true) : Text.isPlain c = true := by
  have notQuote : c ≠ '"' := by
    intro quote
    subst quote
    contradiction
  have notSlash : c ≠ '/' := by
    intro slash
    subst slash
    contradiction
  simp only [Text.isWordChar, Bool.or_eq_true, decide_eq_true_eq] at wordChar
  have supported : Text.isSupported c = true := by
    rcases wordChar with alphanumeric | underscore
    · simp [Text.isSupported, alphanumeric]
    · subst underscore
      rfl
  simp [Text.isPlain, supported, notQuote, notSlash]

theorem isPlain_of_isDigit (digit : c.isDigit = true) : Text.isPlain c = true := by
  apply isPlain_of_isWordChar
  simp [Text.isWordChar, Char.isAlphanum, digit]

theorem faultsFrom_char (p : Nat) (notQuote : c ≠ '"') (supported : Text.isSupported c = true)
    (alone : c = '/' → Text.StopsAt (· = '/') rest) :
    faultsFrom .code p (c :: rest) = faultsFrom .code (p + 1) rest := by
  rw [faultsFrom]
  · simp [notQuote, supported]
  · intro behind slash same
    subst same
    have stopped := alone slash
    simp at stopped

theorem faultsFrom_quote (p : Nat) :
    faultsFrom .code p ('"' :: rest) = faultsFrom .string (p + 1) rest := by
  rw [faultsFrom]
  · simp
  · intro behind slash
    contradiction

theorem faultsFrom_foreign (p : Nat) (foreign : Text.isSupported c = false) :
    faultsFrom .code p (c :: rest) =
      (p, .unsupportedCharacter) :: faultsFrom .code (p + 1) rest := by
  have notQuote : c ≠ '"' := by
    intro quote
    subst quote
    contradiction
  rw [faultsFrom]
  · simp [notQuote, foreign]
  · intro behind slash
    subst slash
    contradiction

theorem faultsFrom_plain (p : Nat) (plain : ∀ d ∈ text, Text.isPlain d = true) :
    faultsFrom .code p (text ++ rest) = faultsFrom .code (p + text.length) rest := by
  induction text generalizing p with
  | nil => rfl
  | cons d tail ih =>
      have first := plain d (by simp)
      simp only [Text.isPlain, Bool.and_eq_true, decide_eq_true_eq] at first
      obtain ⟨⟨supported, notQuote⟩, notSlash⟩ := first
      rw [List.cons_append, faultsFrom_char p notQuote supported (absurd · notSlash),
        ih _ fun e member => plain e (by simp [member]), List.length_cons]
      congr 1
      omega

/-- A mode lasts while the character that closes it does not come. -/
theorem faultsFrom_until {mode : Mode} {closing : Char} (p : Nat) (absent : closing ∉ body)
    (advance : ∀ q c behind, faultsFrom mode q (c :: behind) =
      faultsFrom (if c = closing then .code else mode) (q + 1) behind) :
    faultsFrom mode p (body ++ rest) = faultsFrom mode (p + body.length) rest := by
  induction body generalizing p with
  | nil => rfl
  | cons c tail ih =>
      have inside := List.ne_of_not_mem_cons absent
      have others := List.not_mem_of_not_mem_cons absent
      rw [List.cons_append, advance, if_neg inside.symm, ih _ others, List.length_cons]
      congr 1
      omega

theorem faultsFrom_comment (p : Nat) (line : '\n' ∉ body) :
    faultsFrom .comment p (body ++ rest) = faultsFrom .comment (p + body.length) rest :=
  faultsFrom_until p line fun _ _ _ => rfl

theorem faultsFrom_string (p : Nat) (closed : '"' ∉ body) :
    faultsFrom .string p (body ++ rest) = faultsFrom .string (p + body.length) rest :=
  faultsFrom_until p closed fun _ _ _ => rfl

/-- A comment ends in code mode, at the end of its line or of the text. -/
theorem faultsFrom_comment_end (p : Nat) (ends : Text.StopsAt (· ≠ '\n') rest) :
    faultsFrom .comment p rest = faultsFrom .code p rest := by
  cases rest with
  | nil => rfl
  | cons c behind =>
      have newline : c = '\n' := by simpa using ends
      subst newline
      rfl

end Modes

namespace Piece

/-- The fault of a piece at an offset.  An open string is at fault at its end. -/
def fault? (p : Nat) (piece : Piece) : Option (Nat × Fault) :=
  match piece.item with
  | .fault .unsupportedCharacter => some (p, .unsupportedCharacter)
  | .fault .unterminatedString => some (p + piece.text.length, .unterminatedString)
  | _ => none

end Piece

theorem IsNumeral.plain {text : Text} (numeral : IsNumeral text) :
    ∀ c ∈ text, Text.isPlain c = true := by
  intro c member
  rcases numeral.digit_or_point c member with digit | rfl
  · exact isPlain_of_isDigit digit
  · decide

namespace Spells

variable {text rest : Text} {kind : Kind} {literal : Option Literal}

theorem plain_or_slash_or_string (spelled : Spells text kind literal) :
    (∀ c ∈ text, Text.isPlain c = true) ∨ (text = ['/'] ∧ kind = .mark .slash) ∨
      ∃ body, '"' ∉ body ∧ text = '"' :: body ++ ['"'] := by
  cases spelled with
  | mark mark =>
      have entries : ∀ mark ∈ Mark.all, mark = .slash ∨
          mark.spelling.all Text.isPlain = true := by decide
      rcases entries mark mark.mem_all with slash | plain
      · subst slash
        exact .inr (.inl ⟨rfl, rfl⟩)
      · exact .inl (List.all_eq_true.mp plain)
  | keyword word =>
      exact .inl fun c member => isPlain_of_isWordChar (word.isWord_spelling.wordChars c member)
  | identifier word free =>
      exact .inl fun c member => isPlain_of_isWordChar (word.wordChars c member)
  | number numeral => exact .inl numeral.plain
  | string closed => exact .inr (.inr ⟨_, closed, rfl⟩)

theorem faultsFrom_eq (spelled : Spells text kind literal) (ends : kind.EndsBefore text rest)
    (p : Nat) : faultsFrom .code p (text ++ rest) = faultsFrom .code (p + text.length) rest := by
  rcases spelled.plain_or_slash_or_string with plain | ⟨rfl, rfl⟩ | ⟨body, closed, rfl⟩
  · exact faultsFrom_plain p plain
  · exact faultsFrom_char p (by decide) (by decide) fun _ => ends
  · have whole : '"' :: body ++ ['"'] ++ rest = '"' :: (body ++ '"' :: rest) := by simp
    have closing (q : Nat) :
        faultsFrom .string q ('"' :: rest) = faultsFrom .code (q + 1) rest := rfl
    have length : ('"' :: body ++ ['"']).length = body.length + 2 := by simp
    rw [whole, faultsFrom_quote, faultsFrom_string _ closed, closing, length]
    congr 1
    omega

end Spells

/-- One reading step, as the machine sees it. -/
theorem Reads.faultsFrom_eq {piece : Piece} {rest : Text} (reads : Reads piece rest) (p : Nat) :
    faultsFrom .code p (piece.text ++ rest) =
      (piece.fault? p).toList ++ faultsFrom .code (p + piece.text.length) rest := by
  cases reads with
  | token spelled ends => exact spelled.faultsFrom_eq ends p
  | @comment body _ line ends =>
      have opening : faultsFrom .code p ('/' :: '/' :: body ++ rest) =
          faultsFrom .comment (p + 2) (body ++ rest) := rfl
      rw [opening, faultsFrom_comment _ line, faultsFrom_comment_end _ ends]
      simp only [Piece.fault?, Option.toList_none, List.nil_append, List.length_cons]
      congr 1
      omega
  | @blank c _ blank =>
      have blanks : ∀ d ∈ Text.blanks, Text.isPlain d = true := List.all_eq_true.mp rfl
      have plain := blanks c (Text.isBlank_iff.mp blank)
      exact faultsFrom_plain p (by simpa using plain)
  | @unterminated body opened =>
      have inside : faultsFrom .string (p + 1) (body ++ []) = _ := faultsFrom_string (p + 1) opened
      have length : p + ('"' :: body).length = p + 1 + body.length := by
        rw [List.length_cons]
        omega
      rw [List.append_nil] at inside
      rw [List.append_nil, faultsFrom_quote, inside]
      simp only [Piece.fault?, length]
      rfl
  | unsupported foreign => exact faultsFrom_foreign p foreign

theorem report?_fault? {piece : Piece} {rest : Text} (reads : Reads piece rest) (front : Text) :
    piece.report? (1 + Text.lineBreaks front) =
      (piece.fault? front.length).map (Fault.reportAt (front ++ piece.text ++ rest)) := by
  cases reads with
  | token spelled ends => rfl
  | comment line ends => rfl
  | blank blank => rfl
  | @unterminated body opened =>
      have whole : (front ++ '"' :: body ++ []).take (front.length + ('"' :: body).length) =
          front ++ '"' :: body := by
        rw [List.append_nil, ← List.length_append, List.take_length]
      rw [report?_unterminated, line_append]
      simp only [Piece.fault?, Fault.reportAt, Option.map_some, whole]
  | unsupported foreign =>
      rw [report?_unsupported foreign]
      simp [Piece.fault?, Fault.reportAt]

theorem reportsFrom_faults (front rest : Text) :
    reportsFrom (1 + Text.lineBreaks front) rest =
      (faultsFrom .code front.length rest).map (Fault.reportAt (front ++ rest)) := by
  induction rest using reading_induction generalizing front with
  | nil => simp [faultsFrom]
  | step piece rest reads ih =>
      rw [reads.reportsFrom_eq, reads.faultsFrom_eq, line_append, ih, report?_fault? reads,
        List.map_append, List.length_append, List.append_assoc]
      cases piece.fault? front.length <;> rfl

/-- Faults at the offsets of unsupported characters in order, and an open string at the
end of the text at most. -/
structure FaultsIn (text : Text) (found : List (Nat × Fault)) (bad : List Nat)
    (last : List (Nat × Fault)) : Prop where
  parts : found = bad.map (·, .unsupportedCharacter) ++ last
  ordered : bad.Pairwise (· < ·)
  foreign : ∀ p ∈ bad, ∃ c, text[p]? = some c ∧ Text.isSupported c = false
  last : last = [] ∨ last = [(text.length, .unterminatedString)]

/-- The parts of the faults behind a stretch of a text. -/
def FaultsBehind (front rest : Text) (found : List (Nat × Fault)) : Prop :=
  ∃ bad last, FaultsIn (front ++ rest) found bad last ∧ ∀ p ∈ bad, front.length ≤ p

theorem FaultsBehind.pass {front text rest : Text} {found : List (Nat × Fault)}
    (behind : FaultsBehind (front ++ text) rest found) :
    FaultsBehind front (text ++ rest) found := by
  obtain ⟨bad, last, parts, after⟩ := behind
  rw [List.append_assoc] at parts
  refine ⟨bad, last, parts, ?_⟩
  intro p member
  have bound := after p member
  rw [List.length_append] at bound
  omega

theorem FaultsBehind.none (front : Text) : FaultsBehind front [] [] :=
  ⟨[], [], ⟨rfl, .nil, by simp, .inl rfl⟩, by simp⟩

theorem faultsFrom_parts (mode : Mode) (p : Nat) (rest front : Text) (length : front.length = p) :
    FaultsBehind front rest (faultsFrom mode p rest) := by
  fun_induction faultsFrom mode p rest generalizing front with
  | case1 p => exact .none front
  | case2 p rest ih => exact .pass (ih (front ++ ['/', '/']) (by simp [length]))
  | case3 p rest notComment ih => exact .pass (ih (front ++ ['"']) (by simp [length]))
  | case4 p c rest notComment notQuote supported ih =>
      exact .pass (ih (front ++ [c]) (by simp [length]))
  | case5 p c rest notComment notQuote unsupported ih =>
      -- The one case that adds an offset: all others found lie behind this character.
      obtain ⟨bad, last, parts, after⟩ := ih (front ++ [c]) (by simp [length])
      rw [← List.append_cons] at parts
      rw [List.length_append, length] at after
      refine ⟨p :: bad, last, ⟨?_, ?_, ?_, parts.last⟩, ?_⟩
      · rw [parts.parts, List.map_cons, List.cons_append]
      · exact .cons after parts.ordered
      · intro q member
        rcases List.mem_cons.mp member with same | later
        · refine ⟨c, ?_, by simpa using unsupported⟩
          rw [same, ← length]
          simp
        · exact parts.foreign q later
      · intro q member
        rcases List.mem_cons.mp member with same | later
        · omega
        · have bound := after q later
          omega
  | case6 p => exact .none front
  | case7 p c rest ih => exact .pass (ih (front ++ [c]) (by simp [length]))
  | case8 p =>
      refine ⟨[], [(p, .unterminatedString)], ⟨rfl, .nil, by simp, .inr ?_⟩, by simp⟩
      rw [List.append_nil, length]
  | case9 p c rest ih => exact .pass (ih (front ++ [c]) (by simp [length]))

theorem Fault.code_message (fault : Fault) :
    (Fault.ofMessage? fault.message).map Fault.code = some fault.code := by
  cases fault <;> rfl

/-- What is reported of a text is what the machine finds in it, and a strict scan fails
with the first of it. -/
theorem scan_reports_faults (text : Text) :
    reports text = (faults text).map (Fault.reportAt text) ∧
      (∃ bad last, FaultsIn text (faults text) bad last) ∧
      tokensOrError text =
        match faults text with
        | [] => .ok (tokens text)
        | (p, fault) :: _ =>
          .error ⟨1 + Text.lineBreaks (text.take p), fault.message, some fault.code⟩ := by
  have found : reports text = (faults text).map (Fault.reportAt text) := reportsFrom_faults [] text
  refine ⟨found, ?_, ?_⟩
  · obtain ⟨bad, last, parts, _⟩ := faultsFrom_parts .code 0 text [] rfl
    exact ⟨bad, last, parts⟩
  · unfold tokensOrError diagnostics
    rw [found]
    cases faults text with
    | nil => rfl
    | cons first others =>
        simp only [List.map_cons, Diagnostic.ofReport, Fault.reportAt, Fault.code_message]

end LoxLex
