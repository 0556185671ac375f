import LoxLex.Proofs.FileRun
import LoxLex.Proofs.Lines
import LoxLex.Proofs.Location
import LoxLex.Proofs.Meaning
import Mathlib.Data.List.Forall2

/-! The listing of tokens can be read back.

Nothing is escaped in a listing, and a string may hold what looks like other entries.  But the
name of a kind ends at the first space, a string that was found has no quote inside, and every
other lexeme has no space; so one entry after another comes off the front of a listing in one
way only.
-/

namespace LoxLex

/-- Two tokens that differ in their lines at most. -/
structure Token.Alike (token other : Token) : Prop where
  kind : token.kind = other.kind
  lexeme : token.lexeme = other.lexeme
  literal : token.literal = other.literal

/-- The end of input, or a token that is spelled as its kind says. -/
def Token.IsFound (token : Token) : Prop :=
  token = .endOfInput token.line ∨ Spells token.lexeme token.kind token.literal

namespace Kind

variable {kind other : Kind} {rest behind : Text} {c : Char}

/-- The characters that names of kinds are made of. -/
def isNameChar (c : Char) : Bool := c.isUpper || c = '_'

theorem mem_all (kind : Kind) : kind ∈ all := by
  cases kind with
  | mark mark => simp [all, mark.mem_all]
  | keyword word => simp [all, word.mem_all]
  | identifier => decide
  | string => decide
  | number => decide
  | endOfInput => decide

theorem name_injective (same : kind.name = other.name) : kind = other := by
  have distinct : ∀ kind ∈ all, ∀ other ∈ all, kind.name = other.name → kind = other := by
    decide +kernel
  exact distinct kind kind.mem_all other other.mem_all same

theorem name_ne_nil (kind : Kind) : kind.name ≠ [] := by
  have named : ∀ kind ∈ all, kind.name ≠ [] := by decide
  exact named kind kind.mem_all

theorem isNameChar_of_mem_name (kind : Kind) : ∀ c ∈ kind.name, isNameChar c = true := by
  have capital : ∀ kind ∈ all, kind.name.all isNameChar = true := by decide
  exact List.all_eq_true.mp (capital kind kind.mem_all)

/-- The name of a kind is cut off in front of any other character. -/
theorem name_cancel (ends : isNameChar c = false)
    (same : kind.name ++ c :: rest = other.name ++ c :: behind) : kind = other ∧ rest = behind := by
  have stops {text : Text} : Text.StopsAt isNameChar (c :: text) := Text.stopsAt_cons.mpr ends
  obtain ⟨names, tails⟩ := Text.span_unique kind.isNameChar_of_mem_name stops
    other.isNameChar_of_mem_name stops same
  exact ⟨name_injective names, (List.cons.inj tails).2⟩

end Kind

namespace Spells

variable {text other rest behind : Text} {kind : Kind} {literal otherLiteral : Option Literal}

theorem unspaced (spelled : Spells text kind literal) (plain : kind ≠ .string) : ' ' ∉ text := by
  cases spelled with
  | mark mark => cases mark <;> decide
  | keyword word => cases word <;> decide
  | identifier word free =>
      intro member
      have wordChar := word.wordChars ' ' member
      contradiction
  | number numeral =>
      intro member
      rcases numeral.digit_or_point ' ' member with digit | point <;> contradiction
  | string closed => contradiction

/-- A string ends at its second quote, and any other lexeme in front of a space. -/
theorem cancel (spelled : Spells text kind literal) (otherSpelled : Spells other kind otherLiteral)
    (same : text ++ ' ' :: rest = other ++ ' ' :: behind) : text = other ∧ rest = behind := by
  by_cases string : kind = .string
  · subst string
    cases spelled with
    | @string body closed =>
      cases otherSpelled with
      | @string otherBody otherClosed =>
        have bodies : body ++ '"' :: ' ' :: rest = otherBody ++ '"' :: ' ' :: behind := by
          simpa using same
        obtain ⟨rfl, tails⟩ := Text.span_unique (Text.all_ne_of_not_mem closed) (by simp)
          (Text.all_ne_of_not_mem otherClosed) (by simp) bodies
        exact ⟨rfl, (List.cons.inj (List.cons.inj tails).2).2⟩
  · obtain ⟨texts, tails⟩ := Text.span_unique (Text.all_ne_of_not_mem (spelled.unspaced string))
      (by simp) (Text.all_ne_of_not_mem (otherSpelled.unspaced string)) (by simp) same
    exact ⟨texts, (List.cons.inj tails).2⟩

end Spells

namespace Token

variable {token other : Token} {rest behind : Text} {listed others : List Token}

theorem isFound_of_mem_tokens {text : Text} (member : token ∈ tokens text) : token.IsFound :=
  spelled_of_mem_tokens member

theorem entry_append (token : Token) (rest : Text) :
    token.entry ++ rest = token.kind.name ++ ' ' :: (token.lexeme ++ ' ' ::
      ((token.literal.map Literal.listing).getD "null".toList ++ '\n' :: rest)) := by
  simp [entry, listing]

theorem entry_ne_nil (token : Token) : token.entry ≠ [] :=
  List.append_ne_nil_of_right_ne_nil _ (List.cons_ne_nil _ _)

theorem Alike.entry_eq (alike : Alike token other) : token.entry = other.entry := by
  rw [entry, entry, listing, listing, alike.kind, alike.lexeme, alike.literal]

/-- The kind of a token and what is behind its name in a listing give its lexeme and value. -/
theorem IsFound.alike (found : token.IsFound) (otherFound : other.IsFound)
    (kinds : token.kind = other.kind)
    (same : token.lexeme ++ ' ' :: rest = other.lexeme ++ ' ' :: behind) :
    Alike token other := by
  rcases found with ended | spelled
  · rcases otherFound with otherEnded | otherSpelled
    · rw [ended, otherEnded]
      exact ⟨rfl, rfl, rfl⟩
    · rw [ended] at kinds
      exact absurd kinds.symm otherSpelled.kind_ne_endOfInput
  · rcases otherFound with otherEnded | otherSpelled
    · rw [otherEnded] at kinds
      exact absurd kinds spelled.kind_ne_endOfInput
    · rw [← kinds] at otherSpelled
      obtain ⟨lexemes, _⟩ := spelled.cancel otherSpelled same
      rw [← lexemes] at otherSpelled
      exact ⟨kinds, lexemes, (spelled.unique otherSpelled).2⟩

/-- One entry comes off the front of a listing in one way only. -/
theorem IsFound.entry_cancel (found : token.IsFound) (otherFound : other.IsFound)
    (same : token.entry ++ rest = other.entry ++ behind) :
    Alike token other ∧ rest = behind := by
  have parts := same
  rw [entry_append, entry_append] at parts
  obtain ⟨kinds, tails⟩ := Kind.name_cancel rfl parts
  have alike := found.alike otherFound kinds tails
  rw [alike.entry_eq] at same
  exact ⟨alike, List.append_cancel_left same⟩

theorem alike_of_entries (found : ∀ token ∈ listed, token.IsFound)
    (otherFound : ∀ token ∈ others, token.IsFound)
    (same : listed.flatMap entry = others.flatMap entry) : List.Forall₂ Alike listed others := by
  induction listed generalizing others with
  | nil =>
      cases others with
      | nil => exact .nil
      | cons other more => exact absurd (List.append_eq_nil_iff.mp same.symm).1 other.entry_ne_nil
  | cons token rest ih =>
      cases others with
      | nil => exact absurd (List.append_eq_nil_iff.mp same).1 token.entry_ne_nil
      | cons other more =>
          rw [List.forall_mem_cons] at found otherFound
          obtain ⟨alike, tails⟩ := found.1.entry_cancel otherFound.1 same
          exact .cons alike (ih found.2 otherFound.2 tails)

theorem entries_of_alike (alike : List.Forall₂ Alike listed others) :
    listed.flatMap entry = others.flatMap entry := by
  induction alike with
  | nil => rfl
  | cons first _ ih => rw [List.flatMap_cons, List.flatMap_cons, first.entry_eq, ih]

end Token

namespace Run

variable {settings : Settings}

/-- Log records leave the output stream as it is. -/
theorem streamText_out (verbose : Bool) (entries : List Entry) :
    streamText verbose .out entries =
      (writes entries).flatMap fun chunk => if chunk.1 = .out then chunk.2 else [] := by
  cases verbose with
  | false => exact streamText_writes .out entries
  | true =>
      rw [← streamText_writes, streamText, streamText, List.flatMap_map, List.flatMap_map]
      congr 1
      funext entry
      cases entry <;> rfl

theorem streamText_out_runSource (verbose : Bool) (prints : settings.printTokens.truth = true)
    (source : Text) :
    streamText verbose .out (outcome (runSource settings source)).written =
      (tokens source).flatMap Token.entry := by
  rw [outcome_ok (runSource_eq settings source {}), streamText_out, writes_extend,
    writes_sourceEntries, if_pos prints]
  have none : writes ({} : Console).written.reverse = [] := rfl
  have apart : ((diagnostics source).flatMap fun _ => ([] : Text)) = [] :=
    List.flatMap_eq_nil_iff.mpr fun _ _ => rfl
  simp only [none, List.nil_append, List.flatMap_append, List.flatMap_map, reduceCtorEq, if_false,
    if_true, apart]
  rfl

/-- Two source texts are listed as the same exactly if their tokens agree one by one in all but
their lines. -/
theorem listing_identifies_tokens (settings : Settings) (prints : settings.printTokens.truth = true)
    (verbose : Bool) (first second : Text) :
    let shown (source : Text) :=
      streamText verbose .out (outcome (runSource settings source)).written
    shown first = shown second ↔
      (tokens first).length = (tokens second).length ∧
        ∀ (i : Nat) (token other : Token), (tokens first)[i]? = some token →
          (tokens second)[i]? = some other →
          token.kind = other.kind ∧ token.lexeme = other.lexeme ∧
            token.literal = other.literal := by
  intro shown
  have one : shown first = _ := streamText_out_runSource verbose prints first
  have two : shown second = _ := streamText_out_runSource verbose prints second
  rw [one, two]
  constructor
  · intro same
    have alike := Token.alike_of_entries (fun _ => Token.isFound_of_mem_tokens)
      (fun _ => Token.isFound_of_mem_tokens) same
    obtain ⟨lengths, each⟩ := List.forall₂_iff_get.mp alike
    refine ⟨lengths, fun i token other here there => ?_⟩
    obtain ⟨bound, rfl⟩ := List.getElem?_eq_some_iff.mp here
    obtain ⟨otherBound, rfl⟩ := List.getElem?_eq_some_iff.mp there
    obtain ⟨kind, lexeme, literal⟩ := each i bound otherBound
    exact ⟨kind, lexeme, literal⟩
  · rintro ⟨lengths, each⟩
    refine Token.entries_of_alike (List.forall₂_iff_get.mpr ⟨lengths, fun i bound otherBound => ?_⟩)
    obtain ⟨kind, lexeme, literal⟩ := each i _ _ (List.getElem?_eq_getElem bound)
      (List.getElem?_eq_getElem otherBound)
    exact ⟨kind, lexeme, literal⟩

/-- A string that holds the text of an entry, once in front of a comment and once on the second
line. -/
theorem listing_identifies_tokens_imitated_entry :
    let body : Text := "\nEOF  null\n".toList
    let lexeme : Text := '"' :: body ++ ['"']
    let first : Text := lexeme ++ "// @".toList
    let second : Text := '\n' :: lexeme
    let shown (source : Text) := streamText false .out (outcome (runSource {} source)).written
    let token (line : Int) : Token := ⟨.string, lexeme, some (.text body), line⟩
    ({} : Settings).printTokens.truth = true ∧ shown first = shown second ∧
      (tokens first).length = (tokens second).length ∧
      (tokens first)[0]? = some (token 1) ∧ (tokens second)[0]? = some (token 2) ∧
      (token 1).kind = (token 2).kind ∧ (token 1).lexeme = (token 2).lexeme ∧
      (token 1).literal = (token 2).literal := by
  intro body lexeme first second shown token
  have same : shown first = shown second := by decide +kernel
  have here : (tokens first)[0]? = some (token 1) := by decide +kernel
  have there : (tokens second)[0]? = some (token 2) := by decide +kernel
  obtain ⟨lengths, each⟩ := (listing_identifies_tokens {} rfl false first second).mp same
  exact ⟨rfl, same, lengths, here, there, each 0 _ _ here there⟩

end Run

end LoxLex
