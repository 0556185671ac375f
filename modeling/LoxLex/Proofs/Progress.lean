import LoxLex.Proofs.Probing

namespace LoxLex

/-- The probes at the head of the main loop, with the number of rounds before.  Reports from
before the scan are kept. -/
inductive Probe.AtHead (source : Text) (limit : Nat) (kept : List Report) : Nat → Probe → Prop
  | start : AtHead source limit kept 0 { reports := kept }
  | round {n : Nat} {probe next : Probe} (head : AtHead source limit kept n probe)
      (inside : probe.current < source.length)
      (went : Probing.round source limit probe = .ok () next) :
      AtHead source limit kept (n + 1) next

variable {source text rest : Text} {limit n : Nat} {probe after : Probe} {piece : Piece}
  {kept : List Report}

namespace Probe

theorem ahead_pass (ahead : probe.ahead source = piece.text ++ rest) :
    (probe.pass piece).ahead source = rest :=
  @ahead_past source piece.text rest probe.begun ahead

theorem reads_ahead (inside : probe.current < source.length) :
    ∃ piece rest, Reads piece rest ∧ probe.ahead source = piece.text ++ rest := by
  have nonempty : probe.ahead source ≠ [] := by
    rw [Ne, ahead_nil_iff]
    exact Nat.not_le.mpr inside
  obtain ⟨piece, rest, reads, whole⟩ := exists_reads nonempty
  exact ⟨piece, rest, reads, whole.symm⟩

theorem length_ahead (source : Text) (probe : Probe) :
    (probe.ahead source).length = source.length - probe.current :=
  List.length_drop

end Probe

namespace Probing

theorem round_reads (reads : Reads piece rest) (ahead : probe.ahead source = piece.text ++ rest)
    (enough : source.length ≤ limit) : round source limit probe = .ok () (probe.pass piece) := by
  obtain ⟨c, tail, head⟩ := List.exists_cons_of_ne_nil reads.nonempty
  have whole : piece.text ++ rest = c :: (tail ++ rest) := by rw [head, List.cons_append]
  obtain ⟨same, _⟩ := (Piece.read_reads c (tail ++ rest)).unique reads
    (by rw [Piece.read_append, whole])
  have fits : (c :: (tail ++ rest)).length ≤ limit := by
    rw [← whole, ← ahead, Probe.length_ahead]
    omega
  rw [round_eq (ahead.trans whole) fits, same]

/-- A round consumes something, and nothing that is not in the source. -/
theorem round_progress (inside : probe.current < source.length) (enough : source.length ≤ limit) :
    ∃ piece rest, Reads piece rest ∧ probe.ahead source = piece.text ++ rest ∧
      round source limit probe = .ok () (probe.pass piece) ∧
      probe.current < (probe.pass piece).current ∧ (probe.pass piece).current ≤ source.length := by
  obtain ⟨piece, rest, reads, ahead⟩ := Probe.reads_ahead inside
  have positive := List.length_pos_iff.mpr reads.nonempty
  have lengths := congrArg List.length ahead
  rw [Probe.length_ahead, List.length_append] at lengths
  have moved : (probe.pass piece).current = probe.current + piece.text.length := rfl
  exact ⟨piece, rest, reads, ahead, round_reads reads ahead enough, by omega, by omega⟩

/-- As many rounds as there are characters ahead are enough for the main loop. -/
theorem rounds_eq {rounds : Nat} (enough : source.length ≤ limit)
    (ahead : probe.ahead source = text) (fits : text.length ≤ rounds) :
    loop (do return !(← isAtEnd source)) (round source limit) rounds probe =
      .ok () ((pieces text).foldl Probe.pass probe) := by
  have asks (probe : Probe) : (do return !(← isAtEnd source) : Probing Bool) probe =
      .ok (!(probe.ahead source).isEmpty) probe := by
    rw [bind_ok (isAtEnd_eq source probe)]
    rfl
  induction text using reading_induction generalizing rounds probe with
  | nil =>
      have asked := asks probe
      rw [ahead] at asked
      rw [pieces_nil]
      cases rounds <;>
      · rw [loop, bind_ok asked]
        rfl
  | step piece rest reads ih =>
      have positive := List.length_pos_iff.mpr reads.nonempty
      have asked := asks probe
      rw [ahead, List.isEmpty_eq_false_iff.mpr (List.append_ne_nil_of_left_ne_nil reads.nonempty _)]
        at asked
      rw [List.length_append] at fits
      obtain ⟨rounds, rfl⟩ := Nat.exists_eq_succ_of_ne_zero (by omega : rounds ≠ 0)
      rw [loop, bind_ok asked, Bool.not_false, if_pos rfl, bind_ok (round_reads reads ahead enough),
        ih (Probe.ahead_pass ahead) (by omega), reads.pieces_eq, List.foldl_cons]

end Probing

namespace Probe

/-- A probe that has moved over a text, with what was to be found in it. -/
structure Moved (probe : Probe) (text : Text) (after : Probe) : Prop where
  current : after.current = probe.current + text.length
  found : (.endOfInput after.line :: after.found).reverse =
    probe.found.reverse ++ tokensFrom probe.line text
  reports : after.reports.reverse = probe.reports.reverse ++ reportsFrom probe.line text

theorem moved_pieces (probe : Probe) (text : Text) :
    Moved probe text ((pieces text).foldl pass probe) := by
  induction text using reading_induction generalizing probe with
  | nil =>
      rw [pieces_nil]
      exact ⟨rfl, by simp, by simp⟩
  | step piece rest reads ih =>
      obtain ⟨current, found, reports⟩ := ih (probe.pass piece)
      rw [reads.pieces_eq, List.foldl_cons]
      have moved : (probe.pass piece).current = probe.current + piece.text.length := rfl
      have line : (probe.pass piece).line = probe.line + Text.lineBreaks piece.text := rfl
      have tokens : (probe.pass piece).found.reverse =
          probe.found.reverse ++ (piece.token? probe.line).toList := by
        cases found : piece.token? probe.line <;> simp [pass, found]
      have reported : (probe.pass piece).reports.reverse =
          probe.reports.reverse ++ (piece.report? probe.line).toList := by
        cases found : piece.report? probe.line <;> simp [pass, found]
      refine ⟨?_, ?_, ?_⟩
      · rw [current, moved, List.length_append, Nat.add_assoc]
      · rw [found, tokens, line, reads.tokensFrom_eq, List.append_assoc]
      · rw [reports, reported, line, reads.reportsFrom_eq, List.append_assoc]

/-- The token is a slice of what has been consumed. -/
def Holds (source : Text) (probe : Probe) (token : Token) : Prop :=
  ∃ start stop, start ≤ stop ∧ stop ≤ probe.current ∧
    token.lexeme = Probing.slice source start stop

namespace AtHead

theorem inv (enough : source.length ≤ limit) (head : AtHead source limit kept n probe) :
    n ≤ probe.current ∧ probe.current ≤ source.length ∧
      probe.line = 1 + Text.lineBreaks (source.take probe.current) ∧
      ∀ token ∈ probe.found, Holds source probe token := by
  induction head with
  | start => exact ⟨Nat.le_refl 0, Nat.zero_le _, rfl, nofun⟩
  | @round n probe next head inside went ih =>
      obtain ⟨fewer, _, line, held⟩ := ih
      obtain ⟨piece, rest, reads, ahead, moved, further, within⟩ :=
        Probing.round_progress inside enough
      cases moved.symm.trans went
      refine ⟨by omega, within, ?_, fun token member => ?_⟩
      · have consumed : source.take (probe.current + piece.text.length) =
            source.take probe.current ++ piece.text := by
          rw [List.take_add]
          change source.take probe.current ++ (probe.ahead source).take piece.text.length = _
          rw [ahead, List.take_left]
        change probe.line + Text.lineBreaks piece.text =
          1 + Text.lineBreaks (source.take (probe.current + piece.text.length))
        rw [line, consumed, line_append]
      · rcases List.mem_append.mp member with new | old
        · have found : piece.token? probe.line = some token := Option.mem_toList.mp new
          exact ⟨probe.current, probe.current + piece.text.length, Nat.le_add_right _ _,
            Nat.le_refl _, (token?_lexeme found).1.trans (Probing.slice_ahead ahead).symm⟩
        · obtain ⟨start, stop, ordered, before, lexeme⟩ := held token old
          exact ⟨start, stop, ordered, by omega, lexeme⟩

/-- The main loop comes from any head to the end of the source. -/
theorem goes_on (enough : source.length ≤ limit) (head : AtHead source limit kept n probe)
    (ahead : probe.ahead source = text) :
    ∃ m, AtHead source limit kept m ((pieces text).foldl pass probe) := by
  induction text using reading_induction generalizing n probe with
  | nil =>
      rw [pieces_nil]
      exact ⟨n, head⟩
  | step piece rest reads ih =>
      rw [reads.pieces_eq, List.foldl_cons]
      have inside : probe.current < source.length := by
        obtain ⟨c, tail, whole⟩ := List.exists_cons_of_ne_nil
          (List.append_ne_nil_of_left_ne_nil reads.nonempty rest)
        exact current_lt (ahead.trans whole)
      exact ih (head.round inside (Probing.round_reads reads ahead enough)) (ahead_pass ahead)

end AtHead

end Probe

namespace Probing

theorem scan_eq (enough : source.length ≤ limit) (probe : Probe) :
    let last := (pieces source).foldl Probe.pass { reports := probe.reports }
    scan source limit probe = .ok (tokens source) { last with found := [] } := by
  intro last
  let start : Probe := { reports := probe.reports }
  have whole : start.ahead source = source := List.drop_zero
  have found : (.endOfInput last.line :: last.found).reverse = tokens source :=
    (Probe.moved_pieces _ source).found
  have went := rounds_eq enough whole enough
  change (loop _ _ _ >>= fun _ => _ : Probing (List Token)) start = _
  rw [bind_ok went, ← found]
  rfl

/-- A scan never looks outside of its source and never takes anything for a number that is none,
and its loops end.  At the head of its main loop, what has been consumed is a front of the
source, the line is that behind it, and the tokens are slices of it.  The next lexeme consumes
something and nothing beyond the source.  So the main loop comes to the end of the source, in no
more rounds than there are characters, and the scan returns what was to be found. -/
theorem scan_stays_inside (source : Text) (limit : Nat) (enough : source.length ≤ limit) :
    (∀ (kept : List Report) (n : Nat) (probe : Probe), Probe.AtHead source limit kept n probe →
      n ≤ probe.current ∧ probe.current ≤ source.length ∧
        probe.line = 1 + Text.lineBreaks (source.take probe.current) ∧
        ∀ token ∈ probe.found, ∃ start stop, start ≤ stop ∧ stop ≤ probe.current ∧
          token.lexeme = slice source start stop) ∧
    (∀ probe : Probe, probe.current < source.length →
      ∃ after, scanToken source limit probe.begun = .ok () after ∧
        probe.current < after.current ∧ after.current ≤ source.length) ∧
    ∀ probe : Probe, ∃ (n : Nat) (last : Probe), Probe.AtHead source limit probe.reports n last ∧
      n ≤ source.length ∧ last.current = source.length ∧
      scan source limit probe = .ok (tokens source) { last with found := [] } ∧
      last.reports.reverse = probe.reports.reverse ++ reports source := by
  refine ⟨fun _ _ _ head => head.inv enough, fun probe inside => ?_, fun probe => ?_⟩
  · obtain ⟨piece, _, _, _, moved, further, within⟩ := round_progress inside enough
    exact ⟨probe.pass piece, moved, further, within⟩
  · have whole : ({ reports := probe.reports } : Probe).ahead source = source := List.drop_zero
    obtain ⟨n, head⟩ := Probe.AtHead.start.goes_on enough whole
    obtain ⟨current, _, reported⟩ := Probe.moved_pieces { reports := probe.reports } source
    have ended : _ = source.length := current.trans (Nat.zero_add _)
    obtain ⟨fewer, _⟩ := head.inv enough
    exact ⟨n, _, head, fewer.trans (Nat.le_of_eq ended), ended, scan_eq enough probe, reported⟩

/-- A digit and a point in front of the character that is also seen at the end. -/
theorem scan_stays_inside_sentinel :
    let source : Text := ['1', '.', sentinel]
    let first : Probe := {}
    source.length ≤ 3 ∧ Probe.AtHead source 3 [] 0 first ∧
      first.line = 1 + Text.lineBreaks (source.take first.current) ∧
      first.current < source.length ∧
      (∃ after, scanToken source 3 first.begun = .ok () after ∧
        first.current < after.current ∧ after.current ≤ source.length) ∧
      ∃ last, scan source 3 first = .ok (tokens source) last ∧ last.current = 3 := by
  intro source first
  have enough : source.length ≤ 3 := Nat.le_refl 3
  have head : Probe.AtHead source 3 [] 0 first := .start
  have inside : first.current < source.length := by decide
  obtain ⟨heads, moves, ends⟩ := scan_stays_inside source 3 enough
  obtain ⟨_, last, _, _, current, went, _⟩ := ends first
  exact ⟨enough, head, (heads [] 0 first head).2.2.1, inside, moves first inside, _, went, current⟩

end Probing

end LoxLex
