import LoxLex.Proofs.Joining
import LoxLex.Proofs.Location
import LoxLex.Proofs.LongestMatch
import LoxLex.Proofs.Rendering
import LoxLex.Proofs.Visits

/-! Blanks put between two pieces of a text.

Where one reading step has ended and another is about to start, blanks can be put
between.  A token that ended there still does, and a comment takes in those of them up to
the first line feed, which ends it as the line feed behind it did.  So the same is found
of the text, and what starts behind the blanks is moved down by their line feeds.
-/

namespace LoxLex

/-- An event and the offset at which the stretch of text starts that it comes of. -/
structure Sited where
  offset : Nat
  event : Event

/-- The events of pieces that stand behind a text, the end of input last. -/
def sited (front : Text) : List Piece → List Sited
  | [] => [⟨front.length, .token (.endOfInput (1 + Text.lineBreaks front))⟩]
  | piece :: rest =>
    ((piece.event? (1 + Text.lineBreaks front)).map (⟨front.length, ·⟩)).toList ++
      sited (front ++ piece.text) rest

/-- What an event of a text is, by what stands in the text at its offset. -/
inductive Sited.StandsIn (text : Text) : Sited → Prop
  | token {entry : Located} (stands : entry.StandsIn text) :
      StandsIn text ⟨entry.offset, .token entry.token⟩
  | endOfInput : StandsIn text ⟨text.length, .token (.endOfInput (1 + Text.lineBreaks text))⟩
  | unsupported {offset : Nat} {c : Char} (found : text[offset]? = some c)
      (foreign : Text.isSupported c = false) :
      StandsIn text ⟨offset, .report
        ⟨1 + Text.lineBreaks (text.take offset), "Unsupported character".toList⟩⟩
  | unterminated {offset : Nat} {body : Text} (tail : text.drop offset = '"' :: body)
      (opened : '"' ∉ body) :
      StandsIn text ⟨offset, .report ⟨1 + Text.lineBreaks text, "Unterminated string".toList⟩⟩

/-- The event, moved down by some lines if it stands at a place or behind it. -/
def Sited.belowFrom (place : Nat) (lines : Int) (site : Sited) : Event :=
  if site.offset < place then site.event else site.event.below lines

section Sites

variable {front rest text : Text} {site : Sited}

theorem sited_event (front : Text) (pieces : List Piece) :
    (sited front pieces).map Sited.event = place (1 + Text.lineBreaks front) pieces := by
  induction pieces generalizing front with
  | nil => rfl
  | cons piece rest ih =>
      rw [sited, List.map_append, ih, place_cons, line_append]
      cases piece.event? (1 + Text.lineBreaks front) <;> rfl

theorem mem_sited_cons {piece : Piece} {rest : List Piece} :
    site ∈ sited front (piece :: rest) ↔
      (∃ event, piece.event? (1 + Text.lineBreaks front) = some event ∧
        site = ⟨front.length, event⟩) ∨ site ∈ sited (front ++ piece.text) rest := by
  rw [sited, List.mem_append]
  cases piece.event? (1 + Text.lineBreaks front) <;> simp

theorem sited_offset {pieces : List Piece} (member : site ∈ sited front pieces) :
    front.length ≤ site.offset := by
  induction pieces generalizing front with
  | nil =>
      rw [List.mem_singleton.mp member]
  | cons piece rest ih =>
      rcases mem_sited_cons.mp member with ⟨event, _, rfl⟩ | later
      · exact Nat.le_refl _
      · have bound := ih later
        rw [List.length_append] at bound
        omega

theorem sited_ordered (front text : Text) :
    (sited front (pieces text)).Pairwise fun site next => site.offset < next.offset := by
  induction text using reading_induction generalizing front with
  | nil => simp [sited]
  | step piece rest reads ih =>
      rw [reads.pieces_eq, sited]
      cases piece.event? (1 + Text.lineBreaks front) with
      | none => exact ih _
      | some event =>
          refine .cons ?_ (ih _)
          intro next later
          have bound := sited_offset later
          have positive := List.length_pos_iff.mpr reads.nonempty
          rw [List.length_append] at bound
          exact Nat.lt_of_lt_of_le (Nat.lt_add_of_pos_right positive) bound

theorem Reads.token?_standsIn {piece : Piece} {token : Token} (reads : Reads piece rest)
    (found : piece.token? (1 + Text.lineBreaks front) = some token) :
    Located.StandsIn (front ++ (piece.text ++ rest)) ⟨front.length, token⟩ := by
  refine located_standsIn ?_
  rw [reads.pieces_eq]
  exact mem_located_cons.mpr (.inl ⟨token, found, rfl⟩)

/-- One reading step gives rise to an event that stands where the step started. -/
theorem Reads.event?_standsIn {piece : Piece} {event : Event} (reads : Reads piece rest)
    (found : piece.event? (1 + Text.lineBreaks front) = some event) :
    Sited.StandsIn (front ++ (piece.text ++ rest)) ⟨front.length, event⟩ := by
  cases reads with
  | token spelled ends =>
      have reads := Reads.token spelled ends
      have token := congrArg (Option.bind · Event.token?) found
      cases found
      exact .token (reads.token?_standsIn token)
  | comment line ends => contradiction
  | blank blank => contradiction
  | unterminated opened =>
      cases found
      rw [List.append_nil, line_append]
      exact .unterminated List.drop_left opened
  | @unsupported c _ foreign =>
      cases found
      have sameLine := Option.some.inj (report?_unsupported foreign (1 + Text.lineBreaks front))
      have here : (front ++ ([c] ++ rest))[front.length]? = some c := by simp
      have stands := Sited.StandsIn.unsupported here foreign
      rw [List.take_left] at stands
      rw [sameLine]
      exact stands

theorem sited_standsIn (member : site ∈ sited front (pieces text)) :
    site.StandsIn (front ++ text) := by
  induction text using reading_induction generalizing front with
  | nil =>
      rw [pieces_nil] at member
      rw [List.mem_singleton.mp member, List.append_nil]
      exact .endOfInput
  | step piece rest reads ih =>
      rw [reads.pieces_eq] at member
      rcases mem_sited_cons.mp member with ⟨event, found, rfl⟩ | later
      · exact reads.event?_standsIn found
      · rw [← List.append_assoc]
        exact ih later

end Sites

section Spread

variable {piece : Piece} {kind : Kind} {lexeme front blanks rest : Text}
  {others passed : List Piece}

/-- A token that ends stays ended with blanks put into what follows it. -/
theorem Kind.EndsBefore.spread (ends : kind.EndsBefore lexeme (front ++ rest))
    (blank : ∀ c ∈ blanks, Text.isBlank c = true) :
    kind.EndsBefore lexeme (front ++ (blanks ++ rest)) := by
  cases blanks with
  | nil => exact ends
  | cons c more =>
      have isBlank : Text.isBlank c = true := blank c List.mem_cons_self
      cases front with
      | nil => exact Kind.endsBefore_blank isBlank kind
      | cons d behind =>
          refine ends.same_head ?_
          -- A blank is no digit, so no fraction can start with a point in front of it.
          rintro ⟨digit, tail, same, isDigit⟩
          cases behind with
          | nil =>
              cases same
              have undigited : ∀ c ∈ Text.blanks, c.isDigit = false := by simp [Text.blanks]
              rw [undigited c (Text.isBlank_iff.mp isBlank)] at isDigit
              contradiction
          | cons e behind =>
              cases same
              exact ⟨digit, behind ++ rest, rfl, isDigit⟩

/-- A comment takes in blanks behind it up to the first line feed. -/
theorem eventsFrom_comment_blanks {body : Text} (line : '\n' ∉ body)
    (blank : ∀ c ∈ blanks, Text.isBlank c = true) (ends : Text.StopsAt (· ≠ '\n') rest)
    (start : Int) :
    eventsFrom start ('/' :: '/' :: body ++ (blanks ++ rest)) =
      eventsFrom (start + Text.lineBreaks ('/' :: '/' :: body)) (blanks ++ rest) := by
  let taken := blanks.takeWhile (· ≠ '\n')
  let left := blanks.dropWhile (· ≠ '\n')
  have parts : taken ++ left = blanks := List.takeWhile_append_dropWhile
  have sameLine : '\n' ∉ body ++ taken := by
    intro member
    rcases List.mem_append.mp member with own | blank
    · exact line own
    · simpa using List.mem_takeWhile_imp blank
  have closes : Text.StopsAt (· ≠ '\n') (left ++ rest) := by
    cases behind : left with
    | nil => exact ends
    | cons c more =>
        have stops : Text.StopsAt (· ≠ '\n') left := Text.stopsAt_dropWhile _ _
        rw [behind] at stops
        exact Text.stopsAt_cons.mpr (Text.stopsAt_cons.mp stops)
  have reads : Reads ⟨'/' :: '/' :: (body ++ taken), .skipped⟩ (left ++ rest) :=
    .comment sameLine closes
  have isBlank : ∀ c ∈ taken, Text.isBlank c = true :=
    fun c member => blank c (List.takeWhile_subset _ member)
  calc
    _ = eventsFrom start ('/' :: '/' :: (body ++ taken) ++ (left ++ rest)) := by
      simp only [← parts, List.cons_append, List.append_assoc]
    _ = eventsFrom (start + Text.lineBreaks ('/' :: '/' :: (body ++ taken))) (left ++ rest) :=
      reads.eventsFrom_eq start
    _ = eventsFrom (start + Text.lineBreaks ('/' :: '/' :: body)) (taken ++ (left ++ rest)) := by
      have lines : start + Text.lineBreaks ('/' :: '/' :: body) + Text.lineBreaks taken =
          start + Text.lineBreaks ('/' :: '/' :: (body ++ taken)) := by
        simp only [Text.lineBreaks_cons, Text.lineBreaks_append]
        omega
      rw [eventsFrom_blanks isBlank, lines]
    _ = _ := by rw [← List.append_assoc, parts]

/-- One reading step on a text with blanks put into what it leaves. -/
theorem Reads.eventsFrom_spread (reads : Reads piece (front ++ rest)) (ahead : rest ≠ [])
    (blank : ∀ c ∈ blanks, Text.isBlank c = true) (line : Int) :
    eventsFrom line (piece.text ++ (front ++ (blanks ++ rest))) =
      (piece.event? line).toList ++
        eventsFrom (line + Text.lineBreaks piece.text) (front ++ (blanks ++ rest)) := by
  generalize whole : front ++ rest = behind at reads
  cases reads with
  | token spelled ends =>
      subst whole
      exact Reads.eventsFrom_eq (.token spelled (ends.spread blank)) line
  | comment sameLine ends =>
      subst whole
      cases front with
      | nil => exact eventsFrom_comment_blanks sameLine blank ends line
      | cons c front =>
          have head := Text.stopsAt_cons.mp ends
          exact Reads.eventsFrom_eq (.comment sameLine (Text.stopsAt_cons.mpr head)) line
  | blank isBlank => exact Reads.eventsFrom_eq (.blank isBlank) line
  | unterminated opened => exact absurd (List.append_eq_nil_iff.mp whole).2 ahead
  | unsupported foreign => exact Reads.eventsFrom_eq (.unsupported foreign) line

/-- With blanks put behind pieces that were passed, what stands there and behind is moved
down by their line feeds. -/
theorem eventsFrom_spread (front : Text)
    (cut : pieces (passed.flatMap Piece.text ++ rest) = passed ++ pieces rest)
    (ahead : rest ≠ []) (blank : ∀ c ∈ blanks, Text.isBlank c = true) :
    eventsFrom (1 + Text.lineBreaks front) (passed.flatMap Piece.text ++ (blanks ++ rest)) =
      (sited front (passed ++ pieces rest)).map
        (Sited.belowFrom (front ++ passed.flatMap Piece.text).length (Text.lineBreaks blanks)) := by
  induction passed generalizing front with
  | nil =>
      have later : ∀ site ∈ sited front (pieces rest),
          Sited.belowFrom front.length (Text.lineBreaks blanks) site =
            site.event.below (Text.lineBreaks blanks) :=
        fun site member => if_neg (Nat.not_lt.mpr (sited_offset member))
      rw [List.flatMap_nil, List.append_nil, List.nil_append, List.nil_append,
        eventsFrom_blanks blank, eventsFrom_below, List.map_congr_left later, eventsFrom,
        ← sited_event, List.map_map]
      rfl
  | cons piece others ih =>
      obtain ⟨behind, reads, whole, left⟩ := reads_of_pieces cut
      rw [List.flatMap_cons, List.append_assoc] at whole
      cases List.append_cancel_left whole
      have onward := ih (front ++ piece.text) left
      rw [← line_append, List.append_assoc, ← List.flatMap_cons] at onward
      rw [List.flatMap_cons, List.append_assoc, reads.eventsFrom_spread ahead blank, onward,
        List.cons_append, sited, List.map_append]
      congr 1
      cases piece.event? (1 + Text.lineBreaks front) with
      | none => rfl
      | some event =>
          have positive := List.length_pos_iff.mpr reads.nonempty
          have earlier : front.length <
              (front ++ (piece.text ++ others.flatMap Piece.text)).length := by
            rw [List.length_append, List.length_append]
            omega
          exact congrArg (· :: []) (if_pos earlier).symm

/-- A view that shows no lines shows the same of events that are moved down. -/
theorem filterMap_belowFrom {β : Type} {view : Event → Option β}
    (unmoved : ∀ lines event, view (Event.below lines event) = view event) (place : Nat)
    (lines : Int) (sites : List Sited) :
    (sites.map (Sited.belowFrom place lines)).filterMap view =
      (sites.map Sited.event).filterMap view := by
  have same (site : Sited) : view (site.belowFrom place lines) = view site.event := by
    unfold Sited.belowFrom
    split
    · rfl
    · exact unmoved lines site.event
  rw [List.filterMap_map, List.filterMap_map]
  congr 1
  exact funext same

end Spread

/-- Blanks put where a reading step of a scan starts change nothing but lines: what starts
in front of them stays where it is, and the rest is moved down by their line feeds. -/
theorem scan_of_spread {text blanks : Text} {cursor : Cursor} (visited : cursor.Visited text)
    (inside : cursor.current < text.length) (blank : ∀ c ∈ blanks, Text.isBlank c = true) :
    let sites := sited [] (pieces text)
    let spread := text.take cursor.current ++ blanks ++ text.drop cursor.current
    events text = sites.map Sited.event ∧ (∀ site ∈ sites, site.StandsIn text) ∧
      (sites.Pairwise fun site next => site.offset < next.offset) ∧
      events spread = sites.map (Sited.belowFrom cursor.current (Text.lineBreaks blanks)) ∧
      (tokens spread).map Token.finding = (tokens text).map Token.finding ∧
      (diagnostics spread).map Diagnostic.message = (diagnostics text).map Diagnostic.message := by
  intro sites spread
  have here : events text = sites.map Sited.event := (sited_event [] (pieces text)).symm
  have moved : events spread =
      sites.map (Sited.belowFrom cursor.current (Text.lineBreaks blanks)) := by
    obtain ⟨passed, front, cut⟩ := visited.cut
    have whole : passed.flatMap Piece.text ++ text.drop cursor.current = text := by
      rw [front, List.take_append_drop]
    have ahead : text.drop cursor.current ≠ [] := by
      rw [Ne, List.drop_eq_nil_iff]
      omega
    have length : ([] ++ passed.flatMap Piece.text).length = cursor.current := by
      rw [List.nil_append, front, List.length_take]
      omega
    have law := eventsFrom_spread [] (by rw [whole, cut]) ahead blank
    rw [length, front, ← List.append_assoc, ← cut] at law
    exact law
  refine ⟨here, fun site => sited_standsIn, sited_ordered [] text, moved, ?_, ?_⟩
  · have unmoved (lines : Int) (event : Event) :
        (event.below lines).token?.map Token.finding = event.token?.map Token.finding := by
      cases event <;> rfl
    rw [tokens, tokens, List.map_filterMap, List.map_filterMap, moved, here,
      filterMap_belowFrom unmoved]
  · have unmoved (lines : Int) (event : Event) :
        (event.below lines).report?.map Report.message = event.report?.map Report.message := by
      cases event <;> rfl
    have messages (source : Text) : (diagnostics source).map Diagnostic.message =
        (events source).filterMap fun event => event.report?.map Report.message := by
      rw [diagnostics, reports, List.map_map, List.map_filterMap]
      rfl
    rw [messages, messages, moved, here, filterMap_belowFrom unmoved]

/-- Blanks with a line feed among them, put at the end of a comment. -/
theorem scan_of_spread_comment_end :
    let text : Text := ['(', '/', '/', 'a', '\n', '@']
    let blanks : Text := [' ', '\n', '\t']
    let cursor : Cursor := ⟨4, 1, [⟨.mark .leftParen, ['('], none, 1⟩]⟩
    let spread : Text := ['(', '/', '/', 'a', ' ', '\n', '\t', '\n', '@']
    cursor.Visited text ∧ cursor.current < text.length ∧ (∀ c ∈ blanks, Text.isBlank c = true) ∧
      events spread = (sited [] (pieces text)).map (Sited.belowFrom 4 1) ∧
      (tokens spread).map Token.finding = (tokens text).map Token.finding ∧
      (diagnostics spread).map Diagnostic.message = (diagnostics text).map Diagnostic.message := by
  intro text blanks cursor spread
  have first : Cursor.step? text {} = some ({ cursor with current := 1 }, none) := by
    decide +kernel
  have second : Cursor.step? text { cursor with current := 1 } = some (cursor, none) := by
    decide +kernel
  have visited : cursor.Visited text := .step (.step .start first) second
  have inside : cursor.current < text.length := by simp [cursor, text]
  have blank : ∀ c ∈ blanks, Text.isBlank c = true := by simp [blanks, Text.isBlank]
  obtain ⟨_, _, _, moved, findings, messages⟩ := scan_of_spread visited inside blank
  exact ⟨visited, inside, blank, moved, findings, messages⟩

end LoxLex
