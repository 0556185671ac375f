import LoxLex.Proofs.Location

/-! Texts that go on.

A reading step looks at two characters behind its piece at most, and at the second only if
the first is a point.  So a step over a text is the same step over the text with more behind
it, unless it comes to the end of the text or to a point there.  What is found of a text up
to there stays as it is, however the text goes on.
-/

namespace LoxLex

section Steps

variable {piece : Piece} {lexeme rest front text : Text} {kind : Kind} {entry : Located} {i : Nat}

/-- With two characters behind it, or with one that is no point, the end of a token does not
depend on what follows. -/
theorem Kind.EndsBefore.extend (ends : kind.EndsBefore lexeme rest) (ahead : rest ≠ [])
    (unpointed : rest ≠ ['.']) (more : Text) : kind.EndsBefore lexeme (rest ++ more) := by
  cases rest with
  | nil => contradiction
  | cons c behind =>
      refine ends.same_head ?_
      rintro ⟨d, others, same, digit⟩
      cases behind with
      | nil => exact absurd (congrArg (· :: []) (List.cons.inj same).1) unpointed
      | cons e behind =>
          cases same
          exact ⟨d, behind, rfl, digit⟩

/-- A step that another text behind could change comes to the end of its text or to a point
there, and reports nothing unless it is a string left open. -/
theorem Reads.extend (reads : Reads piece rest) (more : Text) :
    Reads piece (rest ++ more) ∨
      (rest = [] ∨ rest = ['.']) ∧
        ∀ fault, piece.item = .fault fault → fault = .unterminatedString := by
  cases reads with
  | token spelled ends =>
      by_cases ended : rest = []
      · exact .inr ⟨.inl ended, nofun⟩
      by_cases pointed : rest = ['.']
      · exact .inr ⟨.inr pointed, nofun⟩
      · exact .inl (.token spelled (ends.extend ended pointed more))
  | comment line ends =>
      cases rest with
      | nil => exact .inr ⟨.inl rfl, nofun⟩
      | cons c behind =>
          exact .inl (.comment line (Text.stopsAt_cons.mpr (Text.stopsAt_cons.mp ends)))
  | blank blank => exact .inl (.blank blank)
  | unterminated opened =>
      refine .inr ⟨.inl rfl, ?_⟩
      intro fault isFault
      cases isFault
      rfl
  | unsupported foreign => exact .inl (.unsupported foreign)

theorem located_stop {others : List Piece} (member : entry ∈ located front (piece :: others)) :
    (front ++ piece.text).length ≤ entry.stop := by
  rcases mem_located_cons.mp member with ⟨token, found, rfl⟩ | later
  · rw [List.length_append, ← (token?_lexeme found).1]
    exact Nat.le_refl _
  · exact Nat.le_trans (located_offset later) (Nat.le_add_right _ _)

theorem token_of_located (found : (located [] (pieces text))[i]? = some entry) :
    (tokens text)[i]? = some entry.token := by
  have listed : tokens text = _ := tokensFrom_located [] text
  have bound := (List.getElem?_eq_some_iff.mp found).1
  rw [listed, List.getElem?_append_left (by rwa [List.length_map]), List.getElem?_map, found]
  rfl

/-- The tokens in front of the end of input are those that are located. -/
theorem located_of_token {token : Token} (found : (tokens text)[i]? = some token)
    (notEnd : token.kind ≠ .endOfInput) :
    ∃ entry, (located [] (pieces text))[i]? = some entry ∧ entry.token = token := by
  have listed : tokens text = _ := tokensFrom_located [] text
  rw [listed] at found
  by_cases inside : i < ((located [] (pieces text)).map Located.token).length
  · rw [List.getElem?_append_left inside, List.getElem?_map, Option.map_eq_some_iff] at found
    exact found
  · rw [List.getElem?_append_right (by omega)] at found
    rw [List.mem_singleton.mp (List.mem_of_getElem? found)] at notEnd
    exact absurd rfl notEnd

/-- A token with two characters behind it is found at the same place if the text goes on. -/
theorem located_extend (found : (located front (pieces text))[i]? = some entry)
    (settled : entry.stop + 2 ≤ (front ++ text).length) (more : Text) :
    (located front (pieces (text ++ more)))[i]? = some entry := by
  induction text using reading_induction generalizing front i with
  | nil => simp [located] at found
  | step piece rest reads ih =>
      rw [reads.pieces_eq] at found
      rcases reads.extend more with longer | ⟨last, _⟩
      · rw [List.append_assoc, longer.pieces_eq]
        rw [← List.append_assoc] at settled
        rw [located_cons] at found ⊢
        cases token : piece.token? (1 + Text.lineBreaks front) with
        | none =>
            rw [token] at found
            exact ih found settled
        | some token =>
            rw [token] at found
            cases i with
            | zero => exact found
            | succ j => exact ih (i := j) found settled
      · have stop := located_stop (List.mem_of_getElem? found)
        rcases last with rfl | rfl <;> simp at stop settled <;> omega

theorem report?_message {report : Report} {line : Int} (found : piece.report? line = some report) :
    ∃ fault, piece.item = .fault fault ∧ report.message = fault.message := by
  unfold Piece.report? Piece.event? at found
  split at found
  · contradiction
  · contradiction
  · rename_i fault isFault
    cases found
    exact ⟨fault, isFault, rfl⟩

theorem report?_none {line : Int} (sound : ∀ fault, piece.item ≠ .fault fault) :
    piece.report? line = none := by
  cases found : piece.report? line with
  | none => rfl
  | some report =>
      obtain ⟨fault, isFault, _⟩ := report?_message found
      exact absurd isFault (sound fault)

theorem reportsFrom_point (line : Int) : reportsFrom line ['.'] = [] := by
  have reads : Reads ⟨['.'], .token (.mark .dot) none⟩ [] := .token (.mark .dot) Text.stopsAt_nil
  have found := reads.reportsFrom_eq line
  rw [reportsFrom_nil] at found
  exact found

end Steps

/-- Reports of which all stay but that of a string left open at the end. -/
def StayUpToOpen (reports more : List Report) : Prop :=
  ∃ settled opened, reports = settled ++ opened ∧
    (∀ report ∈ settled, report.message ≠ "Unterminated string".toList) ∧
    (opened = [] ∨ ∃ line, opened = [⟨line, "Unterminated string".toList⟩]) ∧ settled <+: more

theorem reportsFrom_extend (text more : Text) (line : Int) :
    StayUpToOpen (reportsFrom line text) (reportsFrom line (text ++ more)) := by
  induction text using reading_induction generalizing line with
  | nil => exact ⟨[], [], reportsFrom_nil line, by simp, .inl rfl, List.nil_prefix⟩
  | step piece rest reads ih =>
      by_cases isOpen : piece.item = .fault .unterminatedString
      · rcases reads.of_fault isOpen with ⟨body, _, rfl, rfl⟩ | ⟨c, _, rfl⟩
        · have found := reads.reportsFrom_eq line
          rw [reportsFrom_nil, report?_unterminated] at found
          exact ⟨[], _, found, by simp, .inr ⟨_, rfl⟩, List.nil_prefix⟩
        · cases isOpen
      rcases reads.extend more with longer | ⟨last, onlyOpen⟩
      · obtain ⟨settled, opened, parts, sound, atMost, stays⟩ :=
          ih (line + Text.lineBreaks piece.text)
        rw [reads.reportsFrom_eq, List.append_assoc, longer.reportsFrom_eq, parts]
        refine ⟨(piece.report? line).toList ++ settled, opened,
          (List.append_assoc _ _ _).symm, ?_, atMost, (List.prefix_append_right_inj _).mpr stays⟩
        intro report member
        rcases List.mem_append.mp member with own | later
        · obtain ⟨fault, isFault, message⟩ := report?_message (Option.mem_toList.mp own)
          rw [message]
          cases fault with
          | unsupportedCharacter => decide
          | unterminatedString => contradiction
        · exact sound report later
      · have silent : reportsFrom (line + Text.lineBreaks piece.text) rest = [] := by
          rcases last with rfl | rfl
          · exact reportsFrom_nil _
          · exact reportsFrom_point _
        have sound (fault : Fault) : piece.item ≠ .fault fault := by
          intro isFault
          rw [onlyOpen fault isFault] at isFault
          contradiction
        rw [reads.reportsFrom_eq, report?_none sound, silent]
        exact ⟨[], [], rfl, by simp, .inl rfl, List.nil_prefix⟩

/-- However a text goes on, a token with two characters behind it stays where it is, and all
that is reported stays but a string left open. -/
theorem scan_of_extended (text more : Text) :
    (∀ (i : Nat) (token : Token), (tokens text)[i]? = some token → token.kind ≠ .endOfInput →
      ∃ entry : Located, entry.token = token ∧ entry.StandsIn text ∧
        (located [] (pieces text))[i]? = some entry ∧
        (entry.stop + 2 ≤ text.length →
          (located [] (pieces (text ++ more)))[i]? = some entry ∧
            (tokens (text ++ more))[i]? = some token)) ∧
      ∃ settled opened, diagnostics text = settled ++ opened ∧
        (∀ diagnostic ∈ settled, diagnostic.message ≠ "Unterminated string".toList) ∧
        (opened = [] ∨
          ∃ line, opened = [⟨line, "Unterminated string".toList, some "L002".toList⟩]) ∧
        settled <+: diagnostics (text ++ more) := by
  constructor
  · intro i token found notEnd
    obtain ⟨entry, here, rfl⟩ := located_of_token found notEnd
    refine ⟨entry, rfl, located_standsIn (List.mem_of_getElem? here), here, ?_⟩
    intro settled
    have stays := located_extend here settled more
    exact ⟨stays, token_of_located stays⟩
  · obtain ⟨settled, opened, parts, sound, atMost, stays⟩ := reportsFrom_extend text more 1
    refine ⟨settled.map .ofReport, opened.map .ofReport, ?_, ?_, ?_, stays.map _⟩
    · rw [← List.map_append, ← parts]
      rfl
    · exact List.forall_mem_map.mpr sound
    · rcases atMost with rfl | ⟨line, rfl⟩
      · exact .inl rfl
      · exact .inr ⟨line, rfl⟩

/-- What goes on is a string left open. -/
theorem scan_of_extended_open_string :
    let text := "ab 1.@\"x".toList
    (tokens text)[0]? = some ⟨.identifier, "ab".toList, none, 1⟩ ∧
      (tokens (text ++ "5\"".toList))[0]? = some ⟨.identifier, "ab".toList, none, 1⟩ ∧
      (∃ settled opened, diagnostics text = settled ++ opened ∧
        settled <+: diagnostics (text ++ "5\"".toList)) := by
  intro text
  have first : (tokens text)[0]? = some ⟨.identifier, "ab".toList, none, 1⟩ := by decide +kernel
  obtain ⟨stays, settled, opened, parts, _, _, kept⟩ := scan_of_extended text "5\"".toList
  obtain ⟨entry, _, _, here, longer⟩ := stays 0 _ first (by decide)
  have place : (located [] (pieces text))[0]?.map Located.stop = some 2 := by decide +kernel
  rw [here] at place
  have stop : entry.stop = 2 := Option.some.inj place
  exact ⟨first, (longer (by rw [stop]; decide +kernel)).2, settled, opened, parts, kept⟩

end LoxLex
