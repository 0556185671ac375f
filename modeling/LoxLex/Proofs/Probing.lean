import LoxLex.Probe
import LoxLex.Proofs.Events

/-! Probes stay inside of their source.

What a probe does depends on the text that is ahead of it.  Each action has one equation, for a
probe with a given text ahead; a loop over characters of one class consumes their span, and what
is done for one lexeme is a move over the piece that stands there.  No equation has a mishap in
it, so none happens, and the main loop ends where the text does.
-/

namespace LoxLex

namespace Probe

/-- What is ahead of the probe in its source. -/
def ahead (source : Text) (probe : Probe) : Text := source.drop probe.current

/-- The probe behind some more characters. -/
def past (probe : Probe) (text : Text) : Probe :=
  { probe with
    current := probe.current + text.length
    line := probe.line + Text.lineBreaks text }

/-- The probe behind a piece that starts where it is. -/
def pass (probe : Probe) (piece : Piece) : Probe :=
  { probe.begun.past piece.text with
    found := (piece.token? probe.line).toList ++ probe.found
    reports := (piece.report? probe.line).toList ++ probe.reports }

section Past

variable {source text rest : Text} {probe : Probe}

@[simp] theorem past_nil (probe : Probe) : probe.past [] = probe := by
  simp [past]

@[simp] theorem past_past (probe : Probe) (front back : Text) :
    (probe.past front).past back = probe.past (front ++ back) := by
  simp [past, Nat.add_assoc, Int.add_assoc]

theorem ahead_past (ahead : probe.ahead source = text ++ rest) :
    (probe.past text).ahead source = rest := by
  have behind := congrArg (List.drop text.length) ahead
  rwa [Probe.ahead, List.drop_drop, List.drop_left] at behind

theorem ahead_nil_iff : probe.ahead source = [] ↔ source.length ≤ probe.current :=
  List.drop_eq_nil_iff

theorem getElem?_ahead (source : Text) (probe : Probe) (n : Nat) :
    source[probe.current + n]? = (probe.ahead source)[n]? :=
  List.getElem?_drop.symm

theorem current_lt {c : Char} (ahead : probe.ahead source = c :: rest) :
    probe.current < source.length := by
  rw [← Nat.not_le, ← ahead_nil_iff, ahead]
  exact List.cons_ne_nil c rest

end Past

end Probe

/-- What a numeral has behind its whole part. -/
def Numeral.places : Text → Text
  | '.' :: d :: rest => if d.isDigit then '.' :: (d :: rest).takeWhile Char.isDigit else []
  | _ => []

theorem Numeral.places_nil : places [] = [] := rfl

theorem Numeral.places_point : places ['.'] = [] := rfl

theorem Numeral.places_none {text : Text} (other : ∀ d rest, text ≠ '.' :: d :: rest) :
    places text = [] := by
  unfold places
  split
  · rename_i d rest
    exact absurd rfl (other d rest)
  · rfl

theorem Numeral.split_fst (text : Text) :
    (split text).1 = text.takeWhile Char.isDigit ++ places (text.dropWhile Char.isDigit) := by
  unfold split
  split
  · rename_i d rest found
    rw [found, places]
    split
    · rfl
    · exact (List.append_nil _).symm
  · rename_i other
    rw [places_none other, List.append_nil]

namespace Probing

variable {source text rest behind : Text} {limit : Nat} {probe after : Probe} {c : Char}

theorem bind_ok {α β : Type} {action : Probing α} {next : α → Probing β} {value : α}
    (done : action probe = .ok value after) : (action >>= next) probe = next value after := by
  simp only [bind, EStateM.bind, done]

section Characters

theorem lookUp_at {offset : Nat} (found : source[offset]? = some c) (probe : Probe) :
    lookUp source offset probe = .ok c probe := by
  rw [lookUp, found]
  rfl

theorem lookUp_eq (ahead : probe.ahead source = c :: rest) :
    lookUp source probe.current probe = .ok c probe :=
  lookUp_at ((probe.getElem?_ahead source 0).trans (congrArg (·[0]?) ahead)) probe

theorem isAtEnd_eq (source : Text) (probe : Probe) :
    isAtEnd source probe = .ok (probe.ahead source).isEmpty probe := by
  have same : (probe.ahead source).isEmpty = decide (source.length ≤ probe.current) := by
    rw [Bool.eq_iff_iff, decide_eq_true_iff, List.isEmpty_iff, Probe.ahead_nil_iff]
  rw [same]
  rfl

theorem peek_eq (source : Text) (probe : Probe) :
    peek source probe = .ok ((probe.ahead source).headD sentinel) probe := by
  unfold peek
  rw [bind_ok (isAtEnd_eq source probe)]
  cases ahead : probe.ahead source with
  | nil => rfl
  | cons c rest => exact lookUp_eq ahead

theorem peekNext_eq (ahead : probe.ahead source = c :: rest) :
    peekNext source probe = .ok (rest.headD sentinel) probe := by
  have next : source[probe.current + 1]? = rest[0]? :=
    (probe.getElem?_ahead source 1).trans (congrArg (·[1]?) ahead)
  change (if source.length ≤ probe.current + 1 then pure sentinel
    else lookUp source (probe.current + 1) : Probing Char) probe = _
  cases rest with
  | nil =>
      rw [if_pos (List.getElem?_eq_none_iff.mp next)]
      rfl
  | cons d behind =>
      obtain ⟨inside, _⟩ := List.getElem?_eq_some_iff.mp next
      rw [if_neg (Nat.not_le.mpr inside)]
      exact lookUp_at next probe

theorem advance_eq (ahead : probe.ahead source = c :: rest) :
    advance source probe = .ok c { probe with current := probe.current + 1 } := by
  change (lookUp source probe.current >>= _) probe = _
  rw [bind_ok (lookUp_eq ahead)]
  rfl

theorem consume_eq (plain : c ≠ '\n') (probe : Probe) :
    { probe with current := probe.current + 1 } = probe.past [c] := by
  simp [Probe.past, plain]

theorem advance_plain (plain : c ≠ '\n') (ahead : probe.ahead source = c :: rest) :
    advance source probe = .ok c (probe.past [c]) := by
  rw [advance_eq ahead, consume_eq plain]

theorem accept_taken (plain : c ≠ '\n') (ahead : probe.ahead source = c :: rest) :
    accept source c probe = .ok true (probe.past [c]) := by
  unfold accept
  rw [bind_ok (isAtEnd_eq source probe), ahead]
  change (lookUp source probe.current >>= _) probe = _
  rw [bind_ok (lookUp_eq ahead), if_neg (not_not_intro rfl), ← consume_eq plain]
  rfl

theorem accept_refused (different : ∀ rest, probe.ahead source ≠ c :: rest) :
    accept source c probe = .ok false probe := by
  unfold accept
  rw [bind_ok (isAtEnd_eq source probe)]
  cases ahead : probe.ahead source with
  | nil => rfl
  | cons d rest =>
      have other : d ≠ c := fun same => different rest (same ▸ ahead)
      change (lookUp source probe.current >>= _) probe = _
      rw [bind_ok (lookUp_eq ahead), if_pos other]
      rfl

end Characters

section Loops

/-- A loop that asks for characters of one class and consumes one in a round consumes the span of
the class, and a round for each character ahead is enough. -/
theorem loop_span {inside : Char → Bool} {condition : Probing Bool} {body : Probing Unit}
    (asks : ∀ probe, condition probe = .ok ((probe.ahead source).head?.any inside) probe)
    (moves : ∀ (probe : Probe) (c : Char) (rest : Text), probe.ahead source = c :: rest →
      inside c = true → body probe = .ok () (probe.past [c]))
    (ahead : probe.ahead source = rest) (enough : rest.length ≤ limit) :
    loop condition body limit probe = .ok () (probe.past (rest.takeWhile inside)) := by
  -- The rounds that are left go down with the text ahead.
  induction rest generalizing limit probe with
  | nil =>
      have asked := asks probe
      rw [ahead] at asked
      cases limit <;>
      · rw [loop, bind_ok asked, List.takeWhile_nil, Probe.past_nil]
        rfl
  | cons c rest ih =>
      have asked := asks probe
      rw [ahead] at asked
      cases limit with
      | zero => exact absurd enough (Nat.not_succ_le_zero _)
      | succ limit =>
          cases found : inside c with
          | false =>
              rw [List.head?_cons, Option.any_some, found] at asked
              rw [loop, bind_ok asked, List.takeWhile_cons_of_neg (ne_true_of_eq_false found),
                Probe.past_nil]
              rfl
          | true =>
              rw [List.head?_cons, Option.any_some, found] at asked
              rw [loop, bind_ok asked, if_pos rfl, bind_ok (moves probe c rest ahead found),
                ih (Probe.ahead_past ahead) (Nat.le_of_succ_le_succ enough), Probe.past_past,
                List.takeWhile_cons_of_pos found]
              rfl

theorem goesOnWithout_eq (source : Text) (last : Char) (probe : Probe) :
    goesOnWithout source last probe =
      .ok ((probe.ahead source).head?.any (· ≠ last)) probe := by
  unfold goesOnWithout
  rw [bind_ok (peek_eq source probe), bind_ok (isAtEnd_eq source probe)]
  refine congrArg (EStateM.Result.ok · probe) ?_
  -- At the end the sentinel may differ from `last`, but then the second test fails.
  cases probe.ahead source with
  | nil => simp
  | cons c rest => simp [bne, Bool.beq_eq_decide_eq]

theorem discard_eq {action : Probing Char} (done : action probe = .ok c after) :
    discard action probe = .ok () after := by
  change (action >>= fun _ => pure ()) probe = _
  rw [bind_ok done]
  rfl

/-- The sentinel is in none of the classes that a span is asked for, so a span ends with the
source. -/
theorem span_eq {inside : Char → Bool} (noSentinel : inside sentinel = false)
    (noBreak : inside '\n' = false) (ahead : probe.ahead source = rest)
    (enough : rest.length ≤ limit) :
    span source limit inside probe = .ok () (probe.past (rest.takeWhile inside)) := by
  refine loop_span (fun probe => ?_) (fun probe c rest ahead found => ?_) ahead enough
  · rw [bind_ok (peek_eq source probe)]
    refine congrArg (EStateM.Result.ok · probe) ?_
    cases probe.ahead source with
    | nil => exact noSentinel
    | cons c rest => rfl
  · have plain : c ≠ '\n' := by
      rintro rfl
      rw [noBreak] at found
      contradiction
    exact discard_eq (advance_plain plain ahead)

theorem stringCharacter_eq (ahead : probe.ahead source = c :: rest) :
    stringCharacter source probe = .ok () (probe.past [c]) := by
  unfold stringCharacter
  rw [bind_ok (peek_eq source probe), ahead, List.headD_cons]
  split
  · rename_i newline
    -- The line is counted before the character is consumed.
    let counted : Probe := { probe with line := probe.line + 1 }
    have advanced : advance source counted =
        .ok c { counted with current := counted.current + 1 } := advance_eq ahead
    change discard (advance source) counted = _
    rw [discard_eq advanced, newline]
    rfl
  · rename_i plain
    exact discard_eq (advance_plain plain ahead)

end Loops

section Lexemes

theorem slice_ahead (ahead : probe.ahead source = text ++ rest) :
    slice source probe.current (probe.current + text.length) = text := by
  rw [slice, List.drop_take, Nat.add_sub_cancel_left]
  change (probe.ahead source).take text.length = text
  rw [ahead, List.take_left]

/-- A token that is added has the lexeme that was moved over. -/
theorem addToken_eq (ahead : probe.ahead source = text ++ rest) (kind : Kind)
    (literal : Option Literal) :
    addToken source kind literal (probe.begun.past text) =
      .ok () (probe.pass ⟨text, .token kind literal⟩) := by
  have lexeme : slice source (probe.begun.past text).start (probe.begun.past text).current = text :=
    slice_ahead ahead
  change EStateM.Result.ok ()
    (Probe.mk _ _ _ _ (Token.mk kind (slice source _ _) literal _ :: _) _) = _
  rw [lexeme]
  rfl

theorem comparison_eq (ahead : probe.ahead source = c :: rest) (alone doubled : Mark) :
    comparison source alone doubled (probe.begun.past [c]) =
      .ok () (probe.pass (Piece.readComparison c alone doubled rest).1) := by
  have onward : (probe.begun.past [c]).ahead source = rest := Probe.ahead_past ahead
  unfold comparison Piece.readComparison
  split
  · rename_i behind
    rw [bind_ok (accept_taken (by decide) onward), Probe.past_past]
    exact addToken_eq ahead _ none
  · rename_i different
    have refused : ∀ behind, (probe.begun.past [c]).ahead source ≠ '=' :: behind := by
      rwa [onward]
    rw [bind_ok (accept_refused refused)]
    exact addToken_eq ahead _ none

theorem slash_eq (ahead : probe.ahead source = '/' :: rest) (enough : rest.length ≤ limit) :
    slash source limit (probe.begun.past ['/']) =
      .ok () (probe.pass (Piece.readSlash rest).1) := by
  have onward : (probe.begun.past ['/']).ahead source = rest := Probe.ahead_past ahead
  unfold slash Piece.readSlash
  split
  · rename_i behind
    have inside : ((probe.begun.past ['/']).past ['/']).ahead source = behind :=
      Probe.ahead_past onward
    have skips (probe : Probe) (c : Char) (rest : Text) (ahead : probe.ahead source = c :: rest)
        (inLine : decide (c ≠ '\n') = true) : discard (advance source) probe =
        .ok () (probe.past [c]) :=
      discard_eq (advance_plain (of_decide_eq_true inLine) ahead)
    rw [bind_ok (accept_taken (by decide) onward), if_pos rfl,
      loop_span (goesOnWithout_eq source '\n') skips inside (Nat.le_of_succ_le enough),
      Probe.past_past, Probe.past_past]
    rfl
  · rename_i different
    have refused : ∀ behind, (probe.begun.past ['/']).ahead source ≠ '/' :: behind := by
      rwa [onward]
    rw [bind_ok (accept_refused refused)]
    exact addToken_eq ahead _ none

/-- The value of a string is what stands between its quotes. -/
theorem string_value {body : Text} (ahead : probe.ahead source = '"' :: body ++ '"' :: rest) :
    let closed := probe.begun.past ('"' :: body ++ ['"'])
    slice source (closed.start + 1) (closed.current - 1) = body := by
  intro closed
  have behind : (probe.past ['"']).ahead source = body ++ '"' :: rest := Probe.ahead_past ahead
  have stop : closed.current - 1 = (probe.past ['"']).current + body.length := by
    simp only [closed, Probe.past, Probe.begun, List.length_append, List.length_cons,
      List.length_nil]
    omega
  rw [stop]
  exact slice_ahead behind

theorem string_eq (ahead : probe.ahead source = '"' :: rest) (enough : rest.length ≤ limit) :
    string source limit (probe.begun.past ['"']) =
      .ok () (probe.pass (Piece.readString rest).1) := by
  have onward : (probe.begun.past ['"']).ahead source = rest := Probe.ahead_past ahead
  have parts : rest.takeWhile (· ≠ '"') ++ rest.dropWhile (· ≠ '"') = rest :=
    List.takeWhile_append_dropWhile
  have reached : (probe.begun.past ('"' :: rest.takeWhile (· ≠ '"'))).ahead source =
      rest.dropWhile (· ≠ '"') := by
    have whole : probe.begun.ahead source =
        ('"' :: rest.takeWhile (· ≠ '"')) ++ rest.dropWhile (· ≠ '"') := by
      rw [List.cons_append, parts]
      exact ahead
    exact Probe.ahead_past whole
  unfold string
  rw [bind_ok (loop_span (goesOnWithout_eq source '"')
    (fun _ _ _ ahead _ => stringCharacter_eq ahead) onward enough), Probe.past_past,
    List.singleton_append, bind_ok (isAtEnd_eq ..), reached]
  unfold Piece.readString
  cases found : rest.dropWhile (· ≠ '"') with
  | nil => rfl
  | cons quote behind =>
      have stopped := Text.stopsAt_dropWhile (· ≠ '"') rest
      rw [found] at stopped reached parts
      obtain rfl : quote = '"' := by simpa using stopped
      have whole : probe.ahead source = '"' :: rest.takeWhile (· ≠ '"') ++ '"' :: behind := by
        rw [ahead, List.cons_append, parts]
      have text : probe.ahead source = ('"' :: rest.takeWhile (· ≠ '"') ++ ['"']) ++ behind := by
        rw [whole, List.append_assoc]
        rfl
      rw [List.isEmpty_cons, if_neg Bool.false_ne_true,
        bind_ok (discard_eq (advance_plain (by decide) reached)), Probe.past_past]
      change addToken source .string (some (.text (slice source _ _))) _ = _
      rw [string_value whole]
      exact addToken_eq text .string _

/-- A span behind its first character, and the rest of the source behind it. -/
theorem span_behind {inside : Char → Bool} (noSentinel : inside sentinel = false)
    (noBreak : inside '\n' = false) (ahead : probe.ahead source = c :: rest)
    (first : inside c = true) (enough : rest.length ≤ limit) :
    span source limit inside (probe.begun.past [c]) =
        .ok () (probe.begun.past ((c :: rest).takeWhile inside)) ∧
      (probe.begun.past ((c :: rest).takeWhile inside)).ahead source =
        (c :: rest).dropWhile inside := by
  have onward : (probe.begun.past [c]).ahead source = rest := Probe.ahead_past ahead
  constructor
  · rw [span_eq noSentinel noBreak onward enough, Probe.past_past, List.takeWhile_cons_of_pos first]
    rfl
  · exact Probe.ahead_past (ahead.trans List.takeWhile_append_dropWhile.symm)

theorem word_eq (ahead : probe.ahead source = c :: rest) (letter : Text.isLetter c = true)
    (enough : rest.length ≤ limit) :
    word source limit (probe.begun.past [c]) =
      .ok () (probe.pass (Piece.readWord (c :: rest)).1) := by
  obtain ⟨spanned, _⟩ := span_behind (by decide) (by decide) ahead
    (Piece.isWordChar_of_isLetter letter) enough
  have whole : probe.ahead source =
      (c :: rest).takeWhile Text.isWordChar ++ (c :: rest).dropWhile Text.isWordChar :=
    ahead.trans List.takeWhile_append_dropWhile.symm
  have lexeme := slice_ahead whole
  unfold word
  rw [bind_ok spanned]
  change addToken source (Kind.ofWord (slice source probe.current (probe.current + _))) none _ = _
  rw [lexeme]
  exact addToken_eq whole _ none

/-- A numeral is cut off whole from itself. -/
theorem toNumber_eq (numeral : IsNumeral text) (probe : Probe) :
    toNumber text probe = .ok (numeralValue text) probe := by
  obtain ⟨c, rest, rfl, digit⟩ := numeral.first
  obtain ⟨_, ends⟩ := Numeral.split_isNumeral rest digit
  have whole := Numeral.split_append (c :: rest)
  have longest := IsNumeral.length_le (Numeral.split_isNumeral rest digit).1 ends numeral
    ((List.append_nil _).trans whole.symm)
  have lengths := congrArg List.length whole
  have behind : (Numeral.split (c :: rest)).2 = [] := by
    rw [List.length_append] at lengths
    exact List.length_eq_zero_iff.mp (by omega)
  have accepted : ((c :: rest).head?.any Char.isDigit &&
      (Numeral.split (c :: rest)).2.isEmpty) = true := by
    rw [behind, List.head?_cons, Option.any_some, digit]
    rfl
  rw [toNumber, if_pos accepted]
  rfl

theorem fraction_eq (ahead : probe.ahead source = rest) (enough : rest.length ≤ limit) :
    fraction source limit probe = .ok () (probe.past (Numeral.places rest)) := by
  unfold fraction
  rw [bind_ok (peek_eq source probe), ahead]
  cases rest with
  | nil =>
      rw [Numeral.places_nil, Probe.past_nil]
      rfl
  | cons d more =>
      rw [List.headD_cons]
      by_cases point : d = '.'
      · subst point
        rw [if_pos rfl, bind_ok (peekNext_eq ahead)]
        cases more with
        | nil =>
            rw [Numeral.places_point, Probe.past_nil]
            rfl
        | cons e tail =>
            rw [List.headD_cons, Numeral.places]
            split
            · rw [bind_ok (discard_eq (advance_plain (by decide) ahead)),
                span_eq (by decide) (by decide) (Probe.ahead_past ahead)
                  (Nat.le_of_succ_le enough), Probe.past_past]
              rfl
            · rw [Probe.past_nil]
              rfl
      · have other (e : Char) (tail : Text) : d :: more ≠ '.' :: e :: tail := fun same =>
          point (List.cons.inj same).1
        rw [if_neg point, Numeral.places_none other, Probe.past_nil]
        rfl

theorem number_eq (ahead : probe.ahead source = c :: rest) (digit : c.isDigit = true)
    (enough : (c :: rest).length ≤ limit) :
    number source limit (probe.begun.past [c]) =
      .ok () (probe.pass (Piece.readNumber (c :: rest)).1) := by
  obtain ⟨spanned, reached⟩ := span_behind (by decide) (by decide) ahead digit
    (Nat.le_of_succ_le enough)
  have whole : probe.ahead source =
      (Numeral.split (c :: rest)).1 ++ (Numeral.split (c :: rest)).2 :=
    ahead.trans (Numeral.split_append (c :: rest)).symm
  have lexeme := slice_ahead whole
  obtain ⟨numeral, _⟩ := Numeral.split_isNumeral rest digit
  have shorter := List.length_dropWhile_le Char.isDigit (c :: rest)
  unfold number
  rw [bind_ok spanned, bind_ok (fraction_eq reached (shorter.trans enough)), Probe.past_past,
    ← Numeral.split_fst]
  change (toNumber (slice source probe.current (probe.current + _)) >>= _) _ = _
  rw [lexeme, bind_ok (toNumber_eq numeral _)]
  exact addToken_eq whole .number _

/-- What is done behind the first character of a lexeme moves the probe over the piece there. -/
theorem dispatch_eq (plain : c ≠ '\n') (ahead : probe.ahead source = c :: rest)
    (enough : (c :: rest).length ≤ limit) :
    dispatch source limit c (probe.begun.past [c]) =
      .ok () (probe.pass (Piece.read c rest).1) := by
  have fewer : rest.length ≤ limit := Nat.le_of_succ_le enough
  have single : probe.ahead source = [c] ++ rest := ahead
  unfold dispatch Piece.read
  cases Mark.singles.lookup c with
  | some mark => exact addToken_eq single _ none
  | none =>
    cases Mark.comparisons.lookup c with
    | some marks => exact comparison_eq ahead marks.1 marks.2
    | none =>
      dsimp only
      by_cases slash : c = '/'
      · subst slash
        exact slash_eq ahead fewer
      have spaces : Text.isBlank c = true ↔ c = ' ' ∨ c = '\r' ∨ c = '\t' := by
        simp [Text.isBlank, plain, or_assoc]
      by_cases blank : Text.isBlank c = true
      · rw [if_neg slash, if_pos (spaces.mp blank), if_neg slash, if_pos blank]
        rfl
      rw [if_neg slash, if_neg (mt spaces.mpr blank), if_neg plain, if_neg slash, if_neg blank]
      by_cases quote : c = '"'
      · subst quote
        exact string_eq ahead fewer
      rw [if_neg quote, if_neg quote]
      by_cases digit : c.isDigit = true
      · rw [if_pos digit, if_pos digit]
        exact number_eq ahead digit enough
      rw [if_neg digit, if_neg digit]
      by_cases letter : Text.isLetter c = true
      · rw [if_pos letter, if_pos letter]
        exact word_eq ahead letter fewer
      · rw [if_neg letter, if_neg letter]
        rfl

/-- A round moves the probe over the piece ahead. -/
theorem round_eq (ahead : probe.ahead source = c :: rest) (enough : (c :: rest).length ≤ limit) :
    round source limit probe = .ok () (probe.pass (Piece.read c rest).1) := by
  have begun : probe.begun.ahead source = c :: rest := ahead
  change scanToken source limit probe.begun = _
  unfold scanToken
  rw [bind_ok (advance_eq begun)]
  -- A line feed is the one first character that a round counts as a line.
  by_cases plain : c = '\n'
  · subst plain
    rfl
  · rw [consume_eq plain]
    exact dispatch_eq plain ahead enough

end Lexemes

end Probing

end LoxLex
