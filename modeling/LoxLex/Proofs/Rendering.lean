import LoxLex.Proofs.Events

namespace LoxLex

/-- Tokens and an end of input, of which the first starts on a line or behind it. -/
inductive WellFormedFrom : Int → List Token → Prop
  | endOfInput {line last : Int} (later : line ≤ last) : WellFormedFrom line [.endOfInput last]
  | token {line : Int} {token : Token} {rest : List Token}
      (spelled : Spells token.lexeme token.kind token.literal) (later : line ≤ token.line)
      (tail : WellFormedFrom (token.line + Text.lineBreaks token.lexeme) rest) :
      WellFormedFrom line (token :: rest)

def WellFormed (listed : List Token) : Prop := WellFormedFrom 1 listed

/-- A space, and line feeds that lead from one line to another. -/
def gapBetween (line next : Int) : Text := ' ' :: List.replicate (next - line).toNat '\n'

def renderFrom (line : Int) : List Token → Text
  | [] => []
  | token :: rest =>
    gapBetween line token.line ++ token.lexeme ++
      renderFrom (token.line + Text.lineBreaks token.lexeme) rest

/-- The text that tokens are written as. -/
def render (listed : List Token) : Text := renderFrom 1 listed

theorem eventsFrom_blank {c : Char} {rest : Text} (blank : Text.isBlank c = true) (line : Int) :
    eventsFrom line (c :: rest) = eventsFrom (line + Text.lineBreaks [c]) rest :=
  Reads.eventsFrom_eq (.blank blank) line

theorem eventsFrom_blanks {blanks rest : Text} (blank : ∀ c ∈ blanks, Text.isBlank c = true)
    (line : Int) :
    eventsFrom line (blanks ++ rest) = eventsFrom (line + Text.lineBreaks blanks) rest := by
  induction blanks generalizing line with
  | nil => simp
  | cons c more ih =>
      have lines : line + Text.lineBreaks [c] + Text.lineBreaks more =
          line + Text.lineBreaks (c :: more) := by
        simp only [Text.lineBreaks_cons, Text.lineBreaks_nil]
        omega
      rw [List.cons_append, eventsFrom_blank (blank c (by simp)),
        ih fun d member => blank d (by simp [member]), lines]

theorem eventsFrom_gap {line next : Int} (later : line ≤ next) (rest : Text) :
    eventsFrom line (gapBetween line next ++ rest) = eventsFrom next rest := by
  have blank : ∀ c ∈ gapBetween line next, Text.isBlank c = true := by
    intro c member
    rcases List.mem_cons.mp member with space | newline
    · subst space
      rfl
    · rw [List.eq_of_mem_replicate newline]
      rfl
  have reached : line + Text.lineBreaks (gapBetween line next) = next := by
    simp [gapBetween, Text.lineBreaks]
    omega
  rw [eventsFrom_blanks blank, reached]

theorem WellFormedFrom.renders_blank {line : Int} {listed : List Token}
    (wellFormed : WellFormedFrom line listed) :
    ∃ behind, renderFrom line listed = ' ' :: behind := by
  cases wellFormed <;> exact ⟨_, rfl⟩

theorem eventsFrom_render {line : Int} {listed : List Token}
    (wellFormed : WellFormedFrom line listed) :
    eventsFrom line (renderFrom line listed) = listed.map .token := by
  induction wellFormed with
  | @endOfInput line last later =>
      have written : renderFrom line [.endOfInput last] = gapBetween line last ++ [] := by
        simp [renderFrom, Token.endOfInput]
      rw [written, eventsFrom_gap later, eventsFrom_nil]
      rfl
  | @token line token rest spelled later tail ih =>
      -- The gap of the next token is what ends this lexeme.
      obtain ⟨behind, written⟩ := tail.renders_blank
      have ends : token.kind.EndsBefore token.lexeme (' ' :: behind) := Kind.endsBefore_blank rfl _
      rw [← written] at ends
      have step := Reads.eventsFrom_eq (.token spelled ends) token.line
      rw [renderFrom, List.append_assoc, eventsFrom_gap later, step, ih]
      rfl

theorem wellFormed_tokensFrom {start line : Int} (text : Text) (later : start ≤ line) :
    WellFormedFrom start (tokensFrom line text) := by
  induction text using reading_induction generalizing start line with
  | nil =>
      rw [tokensFrom_nil]
      exact .endOfInput later
  | step piece rest reads ih =>
      rw [reads.tokensFrom_eq]
      cases found : piece.token? line with
      | none => exact ih (by omega)
      | some token =>
          have spelled := reads.token?_spells found
          obtain ⟨lexeme, starts⟩ := token?_lexeme found
          rw [← lexeme] at spelled
          refine .token spelled (by omega) (ih ?_)
          exact Int.le_of_eq (by rw [lexeme, starts])

theorem tokens_of_events {line : Int} {text : Text} {listed : List Token}
    (found : eventsFrom line text = listed.map .token) :
    tokensFrom line text = listed ∧ reportsFrom line text = [] := by
  unfold tokensFrom reportsFrom
  rw [found, List.filterMap_map, List.filterMap_map]
  constructor
  · exact List.filterMap_some
  · rw [List.filterMap_eq_nil_iff]
    intro token _
    rfl

/-- Scanning gives back every well-formed list of tokens from the text that it is
written as, and all that a scan returns is such a list. -/
theorem scan_undoes_rendering :
    (∀ listed, WellFormed listed → reports (render listed) = [] ∧ tokens (render listed) = listed) ∧
      ∀ text, WellFormed (tokens text) ∧ reports (render (tokens text)) = [] ∧
        tokens (render (tokens text)) = tokens text := by
  have undone (listed : List Token) (wellFormed : WellFormed listed) :
      reports (render listed) = [] ∧ tokens (render listed) = listed :=
    (tokens_of_events (eventsFrom_render wellFormed)).symm
  refine ⟨undone, fun text => ?_⟩
  have wellFormed : WellFormed (tokens text) := wellFormed_tokensFrom text (Int.le_refl 1)
  exact ⟨wellFormed, undone _ wellFormed⟩

theorem scan_undoes_rendering_split_string :
    WellFormed [⟨.string, ['"', 'a', '\n', '/', '/', '"'], some (.text ['a', '\n', '/', '/']), 2⟩,
        ⟨.mark .equalEqual, ['=', '='], none, 3⟩, .endOfInput 4] ∧
      tokens [' ', '\n', '"', 'a', '\n', '/', '/', '"', ' ', '=', '=', ' ', '\n'] =
        [⟨.string, ['"', 'a', '\n', '/', '/', '"'], some (.text ['a', '\n', '/', '/']), 2⟩,
          ⟨.mark .equalEqual, ['=', '='], none, 3⟩, .endOfInput 4] := by
  have closed : '"' ∉ ['a', '\n', '/', '/'] := by decide
  have wellFormed : WellFormed [⟨.string, ['"', 'a', '\n', '/', '/', '"'],
        some (.text ['a', '\n', '/', '/']), 2⟩,
      ⟨.mark .equalEqual, ['=', '='], none, 3⟩, .endOfInput 4] :=
    .token (.string closed) (by decide)
      (.token (.mark .equalEqual) (by decide) (.endOfInput (by decide)))
  exact ⟨wellFormed, (scan_undoes_rendering.1 _ wellFormed).2⟩

end LoxLex
