import LoxLex.Proofs.Rendering

namespace LoxLex

theorem Kind.endsBefore_nil (kind : Kind) (lexeme : Text) : kind.EndsBefore lexeme [] := by
  cases kind with
  | mark mark => exact Text.stopsAt_nil
  | identifier => exact Text.stopsAt_nil
  | keyword word => exact Text.stopsAt_nil
  | number =>
      refine ⟨Text.stopsAt_nil, .inr ?_⟩
      rintro ⟨d, behind, same, _⟩
      contradiction
  | string => trivial
  | endOfInput => trivial

section Token

variable {text : Text} {token : Token} {line : Int} {listed : List Token}

theorem WellFormedFrom.spelled (wellFormed : WellFormedFrom line listed)
    (member : token ∈ listed) :
    token = .endOfInput token.line ∨ Spells token.lexeme token.kind token.literal := by
  induction wellFormed with
  | endOfInput later =>
      rw [List.mem_singleton.mp member]
      exact .inl rfl
  | token spelled later tail ih =>
      rcases List.mem_cons.mp member with rfl | behind
      · exact .inr spelled
      · exact ih behind

theorem spelled_of_mem_tokens (member : token ∈ tokens text) :
    token = .endOfInput token.line ∨ Spells token.lexeme token.kind token.literal :=
  (wellFormed_tokensFrom text (Int.le_refl 1)).spelled member

end Token

theorem Keyword.mem_all (word : Keyword) : word ∈ all := by
  cases word <;> decide

namespace Spells

variable {text : Text} {kind other : Kind} {literal otherLiteral : Option Literal}

theorem nonempty (spelled : Spells text kind literal) : text ≠ [] :=
  (Lexeme.token spelled).nonempty

/-- A text is spelled as one kind and has one value. -/
theorem unique (spelled : Spells text kind literal)
    (otherSpelled : Spells text other otherLiteral) :
    kind = other ∧ literal = otherLiteral := by
  have items := (Lexeme.token spelled).item_unique (.token otherSpelled)
  exact Item.token.inj items

theorem events_alone (spelled : Spells text kind literal) :
    events text =
      [.token ⟨kind, text, literal, 1⟩, .token (.endOfInput (1 + Text.lineBreaks text))] := by
  have step := Reads.eventsFrom_eq (.token spelled (kind.endsBefore_nil text)) 1
  rw [List.append_nil, eventsFrom_nil] at step
  exact step

theorem isLiteral_iff (spelled : Spells text kind literal) (line : Int) :
    (Token.mk kind text literal line).isLiteral = true ↔ literal.isSome = true := by
  cases spelled <;> simp [Token.isLiteral]

theorem isKeyword_iff (spelled : Spells text kind literal) (line : Int) :
    (Token.mk kind text literal line).isKeyword = true ↔ kind ∈ Keyword.all.map Kind.keyword := by
  have spelt : (Token.mk kind text literal line).isKeyword = true ↔
      ∃ word, Keyword.ofSpelling? text = some word ∧ kind = .keyword word := by
    unfold Token.isKeyword
    cases Keyword.ofSpelling? text <;> simp
  rw [spelt, List.mem_map]
  constructor
  · rintro ⟨word, _, same⟩
    exact ⟨word, word.mem_all, same.symm⟩
  · rintro ⟨word, _, rfl⟩
    cases spelled
    exact ⟨word, word.ofSpelling_spelling, rfl⟩

end Spells

/-- A lexeme has one kind and one value wherever it is found, and by itself it is read as the
same token.  The tokens with a value are the literals, and those of the sixteen reserved words
are the keywords. -/
theorem token_of_lexeme :
    (∀ first second token other, token ∈ tokens first → other ∈ tokens second →
      token.lexeme = other.lexeme → token.kind = other.kind ∧ token.literal = other.literal) ∧
    (∀ text, ∀ token ∈ tokens text, token.kind ≠ .endOfInput →
      diagnostics token.lexeme = [] ∧
        tokens token.lexeme =
          [{ token with line := 1 }, .endOfInput (1 + Text.lineBreaks token.lexeme)]) ∧
    (∀ text, ∀ token ∈ tokens text,
      (token.isLiteral = true ↔ token.literal.isSome = true) ∧
      (token.isKeyword = true ↔ token.kind ∈ Keyword.all.map Kind.keyword) ∧
      (token.kind = .identifier ∨ token.kind = .string → token.isKeyword = false)) ∧
    Keyword.all.Nodup ∧ Keyword.all.length = 16 := by
  refine ⟨?_, ?_, ?_, by decide, rfl⟩
  · intro first second token other found otherFound same
    rcases spelled_of_mem_tokens found with ended | spelled
    · rcases spelled_of_mem_tokens otherFound with otherEnded | otherSpelled
      · rw [ended, otherEnded]
        exact ⟨rfl, rfl⟩
      · rw [ended] at same
        exact absurd same.symm otherSpelled.nonempty
    · rcases spelled_of_mem_tokens otherFound with otherEnded | otherSpelled
      · rw [otherEnded] at same
        exact absurd same spelled.nonempty
      · rw [← same] at otherSpelled
        exact spelled.unique otherSpelled
  · intro text token found inside
    rcases spelled_of_mem_tokens found with ended | spelled
    · exact absurd (congrArg Token.kind ended) inside
    · rw [diagnostics, reports, tokens, spelled.events_alone]
      exact ⟨rfl, rfl⟩
  · intro text token found
    rcases spelled_of_mem_tokens found with ended | spelled
    · rw [ended]
      have unreserved : (Token.endOfInput token.line).isKeyword = false := rfl
      exact ⟨by simp [Token.endOfInput, Token.isLiteral],
        by rw [unreserved]; simp [Token.endOfInput], fun _ => unreserved⟩
    · have isKeyword := spelled.isKeyword_iff token.line
      refine ⟨spelled.isLiteral_iff token.line, isKeyword, ?_⟩
      intro plain
      rw [← Bool.not_eq_true, isKeyword]
      rcases plain with identifier | string
      · simp [identifier]
      · simp [string]

/-- A string with a keyword and a line feed in it, behind another token. -/
theorem token_of_lexeme_in_string :
    let lexeme : Text := ['"', 'i', 'f', '\n', '"']
    let token : Token := ⟨.string, lexeme, some (.text ['i', 'f', '\n']), 2⟩
    token ∈ tokens ('x' :: '\n' :: lexeme) ∧ diagnostics lexeme = [] ∧
      tokens lexeme = [{ token with line := 1 }, .endOfInput 2] ∧ token.isKeyword = false := by
  intro lexeme token
  have found : token ∈ tokens ('x' :: '\n' :: lexeme) := by decide +kernel
  obtain ⟨_, alone, properties, _⟩ := token_of_lexeme
  obtain ⟨silent, same⟩ := alone _ token found (by decide)
  exact ⟨found, silent, same, (properties _ token found).2.2 (.inr rfl)⟩

end LoxLex
