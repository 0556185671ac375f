import LoxLex.Proofs.Events

namespace LoxLex

/-- A token and the offset of its lexeme. -/
structure Located where
  offset : Nat
  token : Token

namespace Located

/-- The offset behind the lexeme. -/
def stop (entry : Located) : Nat := entry.offset + entry.token.lexeme.length

def Covers (entry : Located) (p : Nat) : Prop := entry.offset ≤ p ∧ p < entry.stop

/-- A token that is no end of input, with its lexeme at its offset and on its line. -/
structure StandsIn (text : Text) (entry : Located) : Prop where
  kind : entry.token.kind ≠ .endOfInput
  nonempty : entry.token.lexeme ≠ []
  slice : (text.drop entry.offset).take entry.token.lexeme.length = entry.token.lexeme
  line : entry.token.line = 1 + Text.lineBreaks (text.take entry.offset)

end Located

/-- The tokens of pieces that stand behind a text. -/
def located (front : Text) : List Piece → List Located
  | [] => []
  | piece :: rest =>
    ((piece.token? (1 + Text.lineBreaks front)).map (⟨front.length, ·⟩)).toList ++
      located (front ++ piece.text) rest

/-- No token covers any place from one offset up to another. -/
def Free (entries : List Located) (start stop : Nat) : Prop :=
  ∀ entry ∈ entries, ∀ p, start ≤ p → p < stop → ¬ entry.Covers p

/-- Why a place can lie outside of all tokens. -/
inductive Gap (text : Text) (entries : List Located) (p : Nat) : Prop
  | blank (c : Char) (found : text[p]? = some c) (blank : Text.isBlank c = true)
  | comment (start stop : Nat) (body : Text) (lower : start ≤ p) (upper : p < stop)
      (free : Free entries start stop)
      (slice : (text.drop start).take (stop - start) = '/' :: '/' :: body) (line : '\n' ∉ body)
      (ends : Text.StopsAt (· ≠ '\n') (text.drop stop))
  | unsupported (c : Char) (found : text[p]? = some c) (foreign : Text.isSupported c = false)
      (reported :
        ⟨1 + Text.lineBreaks (text.take p), "Unsupported character".toList⟩ ∈ reports text)
  | tail (start : Nat) (body : Text) (lower : start ≤ p) (free : Free entries start text.length)
      (slice : text.drop start = '"' :: body) (opened : '"' ∉ body)
      (reported : ⟨1 + Text.lineBreaks text, "Unterminated string".toList⟩ ∈ reports text)

/-- What holds at the head of every reading step, with the text in front of it and the
rest behind. -/
structure Head (text : Text) (entries : List Located) (front rest : Text) : Prop where
  whole : front ++ rest = text
  passed : ∀ entry ∈ entries, entry.stop ≤ front.length ∨ entry ∈ located front (pieces rest)
  ahead : ∀ entry ∈ located front (pieces rest), entry ∈ entries
  reported : ∀ report ∈ reportsFrom (1 + Text.lineBreaks front) rest, report ∈ reports text

section Located

variable {piece : Piece} {front rest text : Text} {entries : List Located} {entry : Located}
  {token : Token} {line : Int}

theorem Spells.kind_ne_endOfInput {kind : Kind} {literal : Option Literal}
    (spelled : Spells text kind literal) : kind ≠ .endOfInput := by
  cases spelled <;> simp

theorem located_cons (front : Text) (piece : Piece) (rest : List Piece) :
    located front (piece :: rest) =
      ((piece.token? (1 + Text.lineBreaks front)).map (⟨front.length, ·⟩)).toList ++
        located (front ++ piece.text) rest := rfl

theorem mem_located_cons {rest : List Piece} :
    entry ∈ located front (piece :: rest) ↔
      (∃ token, piece.token? (1 + Text.lineBreaks front) = some token ∧
        entry = ⟨front.length, token⟩) ∨ entry ∈ located (front ++ piece.text) rest := by
  rw [located_cons, List.mem_append]
  cases piece.token? (1 + Text.lineBreaks front) <;> simp

theorem located_offset {pieces : List Piece} (member : entry ∈ located front pieces) :
    front.length ≤ entry.offset := by
  induction pieces generalizing front with
  | nil => simp [located] at member
  | cons piece rest ih =>
      rcases mem_located_cons.mp member with ⟨token, _, rfl⟩ | later
      · exact Nat.le_refl _
      · have bound := ih later
        simp only [List.length_append] at bound
        omega

theorem located_ordered (front : Text) (pieces : List Piece) :
    (located front pieces).Pairwise fun entry next => entry.stop ≤ next.offset := by
  induction pieces generalizing front with
  | nil => exact .nil
  | cons piece rest ih =>
      rw [located_cons]
      cases found : piece.token? (1 + Text.lineBreaks front) with
      | none => exact ih _
      | some token =>
          refine .cons ?_ (ih _)
          intro next later
          have bound := located_offset later
          rw [List.length_append, ← (token?_lexeme found).1] at bound
          exact bound

theorem located_standsIn (member : entry ∈ located front (pieces rest)) :
    entry.StandsIn (front ++ rest) := by
  induction rest using reading_induction generalizing front with
  | nil => simp [located] at member
  | step piece rest reads ih =>
      rw [reads.pieces_eq] at member
      rcases mem_located_cons.mp member with ⟨token, found, rfl⟩ | later
      · have spelled := reads.token?_spells found
        obtain ⟨lexeme, line⟩ := token?_lexeme found
        refine ⟨spelled.kind_ne_endOfInput, ?_, ?_, ?_⟩
        · rw [lexeme]
          exact reads.nonempty
        · simp [lexeme]
        · simp [line]
      · rw [← List.append_assoc]
        exact ih later

theorem tokensFrom_located (front rest : Text) :
    tokensFrom (1 + Text.lineBreaks front) rest =
      (located front (pieces rest)).map Located.token ++
        [.endOfInput (1 + Text.lineBreaks (front ++ rest))] := by
  induction rest using reading_induction generalizing front with
  | nil => simp [located]
  | step piece rest reads ih =>
      rw [reads.tokensFrom_eq, line_append, ih, reads.pieces_eq, located_cons, List.map_append,
        List.append_assoc, ← List.append_assoc front]
      cases piece.token? (1 + Text.lineBreaks front) <;> rfl

end Located

namespace Head

variable {text front rest : Text} {entries : List Located} {piece : Piece} {p : Nat}

theorem start (text : Text) : Head text (located [] (pieces text)) [] text where
  whole := rfl
  passed _ member := .inr member
  ahead _ member := member
  reported _ member := member

theorem step (head : Head text entries front (piece.text ++ rest)) (reads : Reads piece rest) :
    Head text entries (front ++ piece.text) rest where
  whole := by rw [List.append_assoc, head.whole]
  passed entry member := by
    rcases head.passed entry member with passed | ahead
    · left
      rw [List.length_append]
      omega
    · rw [reads.pieces_eq] at ahead
      rcases mem_located_cons.mp ahead with ⟨token, found, rfl⟩ | later
      · left
        rw [List.length_append, ← (token?_lexeme found).1]
        exact Nat.le_refl _
      · exact .inr later
  ahead entry member := by
    apply head.ahead
    rw [reads.pieces_eq]
    exact mem_located_cons.mpr (.inr member)
  reported report member := by
    apply head.reported
    rw [reads.reportsFrom_eq, line_append]
    exact List.mem_append_right _ member

theorem token_mem (head : Head text entries front (piece.text ++ rest)) (reads : Reads piece rest)
    {token : Token} (found : piece.token? (1 + Text.lineBreaks front) = some token) :
    ⟨front.length, token⟩ ∈ entries := by
  apply head.ahead
  rw [reads.pieces_eq]
  exact mem_located_cons.mpr (.inl ⟨token, found, rfl⟩)

theorem free (head : Head text entries front (piece.text ++ rest)) (reads : Reads piece rest)
    (other : ∀ line, piece.token? line = none) :
    Free entries front.length (front ++ piece.text).length := by
  intro entry member q lower upper covered
  rcases head.passed entry member with passed | ahead
  · have before := covered.2
    omega
  · rw [reads.pieces_eq, located_cons, other] at ahead
    have behind := located_offset ahead
    have after := covered.1
    omega

theorem slice (head : Head text entries front (piece.text ++ rest)) :
    (text.drop front.length).take ((front ++ piece.text).length - front.length) = piece.text ∧
      text.drop (front ++ piece.text).length = rest := by
  rw [← head.whole]
  constructor
  · simp
  · rw [← List.append_assoc, List.drop_left]

theorem single {c : Char} (head : Head text entries front ([c] ++ rest)) :
    text[front.length]? = some c ∧ text.take front.length = front := by
  rw [← head.whole]
  constructor <;> simp

theorem gap_inside (head : Head text entries front (piece.text ++ rest))
    (reads : Reads piece rest) (lower : front.length ≤ p) (upper : p < (front ++ piece.text).length)
    (uncovered : ∀ entry ∈ entries, ¬ entry.Covers p) : Gap text entries p := by
  have slices := head.slice
  cases reads with
  | @token text _ kind literal spelled ends =>
      -- A place inside a token would be covered by it.
      have member := head.token_mem (.token spelled ends) rfl
      rw [List.length_append] at upper
      exact absurd ⟨lower, upper⟩ (uncovered _ member)
  | comment line ends =>
      have free := head.free (.comment line ends) fun _ => rfl
      exact .comment _ _ _ lower upper free slices.1 line (slices.2 ▸ ends)
  | blank blank =>
      have same : p = front.length := by
        simp at upper
        omega
      subst same
      exact .blank _ head.single.1 blank
  | @unterminated body opened =>
      have free := head.free (.unterminated opened) fun _ => rfl
      have whole := head.whole
      rw [List.append_nil] at whole
      rw [whole] at free
      refine .tail front.length body lower free ?_ opened ?_
      · rw [← whole, List.drop_left]
      · apply head.reported
        rw [Reads.reportsFrom_eq (.unterminated opened), report?_unterminated, line_append, whole]
        exact List.mem_append_left _ (List.mem_singleton.mpr rfl)
  | @unsupported c _ foreign =>
      have same : p = front.length := by
        simp at upper
        omega
      subst same
      refine .unsupported _ head.single.1 foreign ?_
      apply head.reported
      rw [Reads.reportsFrom_eq (.unsupported foreign), report?_unsupported foreign, head.single.2]
      exact List.mem_append_left _ (List.mem_singleton.mpr rfl)

theorem gap (head : Head text entries front rest) (lower : front.length ≤ p)
    (upper : p < text.length) (uncovered : ∀ entry ∈ entries, ¬ entry.Covers p) :
    Gap text entries p := by
  induction rest using reading_induction generalizing front with
  | nil =>
      rw [← head.whole, List.append_nil] at upper
      omega
  | step piece rest reads ih =>
      by_cases inside : p < (front ++ piece.text).length
      · exact head.gap_inside reads lower inside uncovered
      · exact ih (head.step reads) (by omega)

end Head

theorem lines_ordered {text : Text} {entries : List Located} {listed : List Token}
    (whole : listed = entries.map Located.token ++ [.endOfInput (1 + Text.lineBreaks text)])
    (stands : ∀ entry ∈ entries, entry.StandsIn text)
    (ordered : entries.Pairwise fun entry next => entry.stop ≤ next.offset) :
    listed.Pairwise fun token next => token.line ≤ next.line := by
  rw [whole, List.pairwise_append, List.pairwise_map]
  refine ⟨?_, List.pairwise_singleton _ _, ?_⟩
  · refine ordered.imp_of_mem ?_
    intro entry next member nextMember behind
    have offsets : entry.offset ≤ next.offset := Nat.le_trans (Nat.le_add_right _ _) behind
    have breaks := (List.take_sublist_take_left (l := text) offsets).count_le '\n'
    rw [(stands entry member).line, (stands next nextMember).line]
    simp only [Text.lineBreaks]
    omega
  · intro token member last isLast
    obtain ⟨entry, entryMember, same⟩ := List.mem_map.mp member
    have breaks := (List.take_sublist entry.offset text).count_le '\n'
    rw [List.mem_singleton.mp isLast, ← same, (stands entry entryMember).line]
    simp only [Text.lineBreaks, Token.endOfInput]
    omega

/-- The tokens of a text and its end of input, with the offsets at which they stand.
Tokens are slices of the text in order, every place outside of them is accounted for,
and the lines follow from the places. -/
theorem tokens_cover_text (text : Text) :
    ∃ entries : List Located,
      tokens text =
        entries.map Located.token ++ [⟨.endOfInput, [], none, 1 + Text.lineBreaks text⟩] ∧
      (∀ entry ∈ entries, entry.StandsIn text) ∧
      entries.Pairwise (fun entry next => entry.stop ≤ next.offset) ∧
      (∀ p < text.length, (∀ entry ∈ entries, ¬ entry.Covers p) → Gap text entries p) ∧
      (tokens text).Pairwise (fun token next => token.line ≤ next.line) := by
  have found := tokensFrom_located [] text
  have stands : ∀ entry ∈ located [] (pieces text), entry.StandsIn text :=
    fun entry member => located_standsIn member
  have ordered := located_ordered [] (pieces text)
  refine ⟨located [] (pieces text), found, stands, ordered, ?_, ?_⟩
  · intro p bound uncovered
    exact (Head.start text).gap (Nat.zero_le p) bound uncovered
  · exact lines_ordered found stands ordered

end LoxLex
