import LoxLex.Proofs.Encoding
import Mathlib.Data.List.Forall2
import Mathlib.Order.Bounds.Basic

/-! Decoding refuses what is no encoding, and only that.

The encodings of characters are the sequences of a lead byte and bytes in the ranges that
it allows.  So bytes that can be decoded are the encoding of what they are decoded to, and
at other bytes decoding stops behind the longest encoding that they start with.  What it
names there are the bytes that could still have become a character.
-/

namespace LoxLex.Utf8

def InRange (range : Nat × Nat) (byte : UInt8) : Prop :=
  range.1 ≤ byte.toNat ∧ byte.toNat ≤ range.2

instance (range : Nat × Nat) (byte : UInt8) : Decidable (InRange range byte) :=
  inferInstanceAs (Decidable (range.1 ≤ byte.toNat ∧ byte.toNat ≤ range.2))

/-- Bytes that the encoding of some character starts with. -/
def StartsChar (run : List UInt8) : Prop := run ≠ [] ∧ ∃ c, run <+: String.utf8EncodeChar c

/-- A fault stands behind the longest encoding that bytes start with.  Its length is that of
the longest run there that starts a character, or one byte if none does. -/
structure Fault.StandsIn (bytes : List UInt8) (fault : Fault) : Prop where
  offset : IsGreatest {n | ∃ text, encode text <+: bytes ∧ (encode text).length = n} fault.offset
  first : bytes[fault.offset]? = some fault.first
  length : IsGreatest
      {n | ∃ run, run <+: bytes.drop fault.offset ∧ StartsChar run ∧ run.length = n} fault.length ∨
    (∀ run, run <+: bytes.drop fault.offset → ¬ StartsChar run) ∧ fault.length = 1

section Sequences

variable {byte second third fourth : UInt8} {v : Nat}

theorem ofNat_eq_byte (byte : UInt8) (same : v = byte.toNat) : UInt8.ofNat v = byte := by
  rw [same, UInt8.ofNat_toNat]

theorem exists_char (scalar : v < 0xd800 ∨ 0xdfff < v ∧ v < 0x110000) :
    ∃ c : Char, c.val.toNat = v :=
  ⟨Char.ofNatAux v scalar, rfl⟩

theorem exists_char_one (ascii : byte.toNat < 0x80) : ∃ c, String.utf8EncodeChar c = [byte] := by
  obtain ⟨c, code⟩ := exists_char (v := byte.toNat) (by omega)
  refine ⟨c, ?_⟩
  rw [String.utf8EncodeChar.eq_1, code, if_pos (by omega), UInt8.ofNat_toNat]

theorem exists_char_two (lower : 0xc2 ≤ byte.toNat) (upper : byte.toNat < 0xe0)
    (follows : InRange continuation second) : ∃ c, String.utf8EncodeChar c = [byte, second] := by
  obtain ⟨least, most⟩ : 0x80 ≤ second.toNat ∧ second.toNat ≤ 0xbf := follows
  obtain ⟨c, code⟩ := exists_char (v := (byte.toNat - 0xc0) * 64 + second.toNat % 64) (by omega)
  refine ⟨c, ?_⟩
  rw [String.utf8EncodeChar.eq_1, code, if_neg (by omega), if_pos (by omega),
    ofNat_eq_byte byte (by omega), ofNat_eq_byte second (by omega)]

theorem exists_char_three (lower : 0xe0 ≤ byte.toNat) (upper : byte.toNat < 0xf0)
    (follows : InRange continuation second) (ends : InRange continuation third)
    (shortest : byte.toNat = 0xe0 → 0xa0 ≤ second.toNat)
    (scalar : byte.toNat = 0xed → second.toNat ≤ 0x9f) :
    ∃ c, String.utf8EncodeChar c = [byte, second, third] := by
  obtain ⟨least, most⟩ : 0x80 ≤ second.toNat ∧ second.toNat ≤ 0xbf := follows
  obtain ⟨lastLeast, lastMost⟩ : 0x80 ≤ third.toNat ∧ third.toNat ≤ 0xbf := ends
  obtain ⟨c, code⟩ := exists_char
    (v := ((byte.toNat - 0xe0) * 64 + second.toNat % 64) * 64 + third.toNat % 64) (by omega)
  refine ⟨c, ?_⟩
  rw [String.utf8EncodeChar.eq_1, code, if_neg (by omega), if_neg (by omega), if_pos (by omega),
    ofNat_eq_byte byte (by omega), ofNat_eq_byte second (by omega),
    ofNat_eq_byte third (by omega)]

theorem exists_char_four (lower : 0xf0 ≤ byte.toNat) (upper : byte.toNat ≤ 0xf4)
    (follows : InRange continuation second) (goesOn : InRange continuation third)
    (ends : InRange continuation fourth) (shortest : byte.toNat = 0xf0 → 0x90 ≤ second.toNat)
    (bounded : byte.toNat = 0xf4 → second.toNat ≤ 0x8f) :
    ∃ c, String.utf8EncodeChar c = [byte, second, third, fourth] := by
  obtain ⟨least, most⟩ : 0x80 ≤ second.toNat ∧ second.toNat ≤ 0xbf := follows
  obtain ⟨nextLeast, nextMost⟩ : 0x80 ≤ third.toNat ∧ third.toNat ≤ 0xbf := goesOn
  obtain ⟨lastLeast, lastMost⟩ : 0x80 ≤ fourth.toNat ∧ fourth.toNat ≤ 0xbf := ends
  obtain ⟨c, code⟩ := exists_char
    (v := (((byte.toNat - 0xf0) * 64 + second.toNat % 64) * 64 + third.toNat % 64) * 64 +
      fourth.toNat % 64) (by omega)
  refine ⟨c, ?_⟩
  rw [String.utf8EncodeChar.eq_1, code, if_neg (by omega), if_neg (by omega), if_neg (by omega),
    ofNat_eq_byte byte (by omega), ofNat_eq_byte second (by omega),
    ofNat_eq_byte third (by omega), ofNat_eq_byte fourth (by omega)]

end Sequences

/-- What a lead byte allows behind it. -/
inductive Leads (byte : UInt8) : List (Nat × Nat) → Prop
  | one (ascii : byte.toNat < 0x80 := by omega) : Leads byte []
  | two (lower : 0xc2 ≤ byte.toNat := by omega) (upper : byte.toNat < 0xe0 := by omega) :
      Leads byte [continuation]
  | three {least most : Nat} (lower : 0xe0 ≤ byte.toNat := by omega)
      (upper : byte.toNat < 0xf0 := by omega) (above : 0x80 ≤ least := by omega)
      (filled : least ≤ most := by omega) (below : most ≤ 0xbf := by omega)
      (shortest : byte.toNat = 0xe0 → 0xa0 ≤ least := by omega)
      (scalar : byte.toNat = 0xed → most ≤ 0x9f := by omega) :
      Leads byte [(least, most), continuation]
  | four {least most : Nat} (lower : 0xf0 ≤ byte.toNat := by omega)
      (upper : byte.toNat ≤ 0xf4 := by omega) (above : 0x80 ≤ least := by omega)
      (filled : least ≤ most := by omega) (below : most ≤ 0xbf := by omega)
      (shortest : byte.toNat = 0xf0 → 0x90 ≤ least := by omega)
      (bounded : byte.toNat = 0xf4 → most ≤ 0x8f := by omega) :
      Leads byte [(least, most), continuation, continuation]

section Leads

variable {byte : UInt8} {lead : Lead} {tail : List UInt8} {ranges : List (Nat × Nat)}

theorem leads_of_lead? (found : lead? byte = some lead) : Leads byte lead.tail := by
  unfold lead? at found
  dsimp only at found
  -- One case for each row of the table of lead bytes, and two for what is no lead.
  split at found
  · rw [← Option.some.inj found]
    exact .one
  split at found
  · contradiction
  split at found
  · rw [← Option.some.inj found]
    exact .two
  split at found
  · rw [← Option.some.inj found]
    exact .three
  split at found
  · rw [← Option.some.inj found]
    exact .three
  split at found
  · rw [← Option.some.inj found]
    exact .three
  split at found
  · rw [← Option.some.inj found]
    exact .four
  split at found
  · rw [← Option.some.inj found]
    exact .four
  split at found
  · rw [← Option.some.inj found]
    exact .four
  · contradiction

theorem Leads.exists_char (leads : Leads byte ranges) (fits : List.Forall₂ InRange ranges tail) :
    ∃ c, String.utf8EncodeChar c = byte :: tail := by
  cases leads with
  | one ascii =>
      cases fits
      exact exists_char_one ascii
  | two lower upper =>
      rcases fits with _ | ⟨follows, ⟨⟩⟩
      exact exists_char_two lower upper follows
  | three lower upper above filled below shortest scalar =>
      rcases fits with _ | ⟨⟨least, most⟩, _ | ⟨ends, ⟨⟩⟩⟩
      exact exists_char_three lower upper ⟨above.trans least, most.trans below⟩ ends
        (fun first => (shortest first).trans least) (fun first => most.trans (scalar first))
  | four lower upper above filled below shortest bounded =>
      rcases fits with _ | ⟨⟨least, most⟩, _ | ⟨goesOn, _ | ⟨ends, ⟨⟩⟩⟩⟩
      exact exists_char_four lower upper ⟨above.trans least, most.trans below⟩ goesOn ends
        (fun first => (shortest first).trans least) (fun first => most.trans (bounded first))

/-- No range that a lead byte allows is empty: the least byte of it is one. -/
theorem Leads.inRange_least (leads : Leads byte ranges) :
    ∀ range ∈ ranges, InRange range (UInt8.ofNat range.1) := by
  have follows : InRange continuation (UInt8.ofNat continuation.1) := by decide
  have first {least most : Nat} (filled : least ≤ most) (below : most ≤ 0xbf) :
      InRange (least, most) (UInt8.ofNat least) := by
    rw [InRange, toNat_byte (by omega)]
    exact ⟨Nat.le_refl _, filled⟩
  cases leads with
  | one => simp
  | two => simpa using follows
  | three _ _ _ filled below => simpa [follows] using first filled below
  | four _ _ _ filled below => simpa [follows] using first filled below

end Leads

section Tails

variable {payload length : Nat} {ranges : List (Nat × Nat)} {bytes tail : List UInt8}
  {byte : UInt8} {decoded : Decoded} {broken : Break} {c : Char}

theorem decodeTail_ok (fits : decodeTail payload length ranges bytes = .ok decoded) :
    ∃ tail, bytes = tail ++ decoded.behind ∧ List.Forall₂ InRange ranges tail := by
  induction ranges generalizing payload length bytes with
  | nil =>
      cases fits
      exact ⟨[], rfl, .nil⟩
  | cons range more ih =>
      cases bytes with
      | nil => contradiction
      | cons byte bytes =>
          simp only [decodeTail] at fits
          split at fits
          · rename_i inRange
            obtain ⟨tail, rfl, others⟩ := ih fits
            exact ⟨byte :: tail, rfl, .cons inRange others⟩
          · contradiction

/-- A sequence breaks off where no byte follows in the range that is next. -/
theorem decodeTail_error (breaks : decodeTail payload length ranges bytes = .error broken) :
    ∃ tail behind passed range others, bytes = tail ++ behind ∧
      ranges = passed ++ range :: others ∧ List.Forall₂ InRange passed tail ∧
      broken.length = length + tail.length ∧
      ∀ byte, behind.head? = some byte → ¬ InRange range byte := by
  induction ranges generalizing payload length bytes with
  | nil => contradiction
  | cons range more ih =>
      cases bytes with
      | nil =>
          cases breaks
          exact ⟨[], [], [], range, more, rfl, rfl, .nil, rfl, nofun⟩
      | cons byte bytes =>
          simp only [decodeTail] at breaks
          split at breaks
          · rename_i inRange
            obtain ⟨tail, behind, passed, next, others, rfl, rfl, fits, reached, stops⟩ := ih breaks
            refine ⟨byte :: tail, behind, range :: passed, next, others, rfl, rfl,
              .cons inRange fits, ?_, stops⟩
            rw [reached, List.length_cons]
            omega
          · rename_i outside
            cases breaks
            refine ⟨[], byte :: bytes, [], range, more, rfl, rfl, .nil, rfl, ?_⟩
            intro first head
            cases head
            exact outside

/-- The encoding of a character is a lead byte and bytes in the ranges that it allows. -/
theorem encodeChar_lead (encoded : String.utf8EncodeChar c = byte :: tail) :
    ∃ lead, lead? byte = some lead ∧ List.Forall₂ InRange lead.tail tail := by
  obtain ⟨first, others, same, decoded⟩ := decodeOne_encodeChar c []
  rw [encoded] at same
  cases same
  unfold decodeOne at decoded
  split at decoded
  · rename_i lead found
    obtain ⟨whole, split, fits⟩ := decodeTail_ok decoded
    rw [List.append_nil, List.append_nil] at split
    exact ⟨lead, found, split ▸ fits⟩
  · contradiction

/-- What is decoded at the head of bytes is the character whose encoding they start with. -/
theorem decodeOne_ok (fits : decodeOne byte bytes = .ok decoded) :
    ∃ c, String.utf8EncodeChar c ++ decoded.behind = byte :: bytes ∧ decoded.code = c.toNat ∧
      decoded.length = (String.utf8EncodeChar c).length := by
  have again := fits
  unfold decodeOne at fits
  split at fits
  · rename_i lead found
    obtain ⟨tail, rfl, inRanges⟩ := decodeTail_ok fits
    obtain ⟨c, encoded⟩ := (leads_of_lead? found).exists_char inRanges
    obtain ⟨first, others, same, decodes⟩ := decodeOne_encodeChar c decoded.behind
    rw [encoded] at same
    cases same
    rw [again] at decodes
    have parts := Except.ok.inj decodes
    refine ⟨c, by rw [encoded, List.cons_append], by rw [parts], ?_⟩
    rw [encoded, parts, List.length_cons]
  · contradiction

end Tails

section Faults

variable {byte first : UInt8} {bytes tail run : List UInt8} {ranges : List (Nat × Nat)}
  {broken : Break} {text done : Text} {offset : Nat} {fault : Fault}

theorem StartsChar.lead (starts : StartsChar (byte :: tail)) :
    ∃ lead more, lead? byte = some lead ∧ List.Forall₂ InRange lead.tail (tail ++ more) := by
  obtain ⟨_, c, more, encoded⟩ := starts
  obtain ⟨lead, found, fits⟩ := encodeChar_lead encoded.symm
  exact ⟨lead, more, found, fits⟩

theorem startsChar_of_lead {lead : Lead} {passed others : List (Nat × Nat)}
    (found : lead? byte = some lead) (ranges : lead.tail = passed ++ others)
    (fits : List.Forall₂ InRange passed tail) : StartsChar (byte :: tail) := by
  have leads := leads_of_lead? found
  rw [ranges] at leads
  -- The least bytes of the ranges that are left make a whole character of it.
  have least : List.Forall₂ InRange others (others.map fun range => UInt8.ofNat range.1) := by
    rw [List.forall₂_map_right_iff, List.forall₂_same]
    exact fun range member => leads.inRange_least range (List.mem_append_right passed member)
  obtain ⟨c, encoded⟩ := leads.exists_char (List.rel_append fits least)
  exact ⟨List.cons_ne_nil _ _, c, _, encoded.symm⟩

theorem longest_startsChar {lead : Lead} {passed others : List (Nat × Nat)} {range : Nat × Nat}
    {behind : List UInt8} (found : lead? byte = some lead)
    (ranges : lead.tail = passed ++ range :: others) (fits : List.Forall₂ InRange passed tail)
    (stops : ∀ next, behind.head? = some next → ¬ InRange range next)
    (ahead : run <+: byte :: (tail ++ behind)) (starts : StartsChar run) :
    run.length ≤ tail.length + 1 := by
  rcases List.prefix_or_prefix_of_prefix ahead (List.prefix_append (byte :: tail) behind)
    with inside | ⟨more, rfl⟩
  · exact inside.length_le
  cases more with
  | nil => simp
  | cons next more =>
      -- A longer run would have a byte in the range that stopped it.
      have longer : StartsChar (byte :: (tail ++ next :: more)) := starts
      obtain ⟨other, rest, sameByte, whole⟩ := longer.lead
      rw [found] at sameByte
      cases sameByte
      rw [ranges, List.append_assoc] at whole
      have behindTail := List.forall₂_drop_append _ _ _ whole
      rw [← fits.length_eq, List.drop_left] at behindTail
      cases behindTail with
      | cons inRange _ =>
          obtain ⟨last, same⟩ := ahead
          have heads : behind.head? = some next := by
            have cut : next :: more ++ last = behind := by simpa using same
            rw [← cut]
            rfl
          exact absurd inRange (stops next heads)

/-- Where nothing can be decoded, the bytes at fault are the longest run that starts a
character, or one byte. -/
theorem decodeOne_error (breaks : decodeOne byte bytes = .error broken) :
    IsGreatest {n | ∃ run, run <+: byte :: bytes ∧ StartsChar run ∧ run.length = n} broken.length ∨
      (∀ run, run <+: byte :: bytes → ¬ StartsChar run) ∧ broken.length = 1 := by
  unfold decodeOne at breaks
  split at breaks
  · rename_i lead found
    obtain ⟨tail, behind, passed, range, others, rfl, ranges, fits, length, stops⟩ :=
      decodeTail_error breaks
    rw [Nat.add_comm] at length
    rw [length]
    refine .inl ⟨⟨byte :: tail, ?_, startsChar_of_lead found ranges fits, rfl⟩, ?_⟩
    · exact List.prefix_append (byte :: tail) behind
    · rintro n ⟨run, ahead, starts, rfl⟩
      exact longest_startsChar found ranges fits stops ahead starts
  · rename_i none
    cases breaks
    refine .inr ⟨?_, rfl⟩
    intro run ahead starts
    cases run with
    | nil => exact starts.1 rfl
    | cons first tail =>
        obtain ⟨rfl, _⟩ := List.cons_prefix_cons.mp ahead
        obtain ⟨lead, _, found, _⟩ := starts.lead
        rw [none] at found
        contradiction

theorem decodeAfter_ok (decoded : decodeAfter done offset bytes = .ok text) :
    ∃ found, text = done.reverse ++ found ∧ encode found = bytes := by
  fun_induction decodeAfter done offset bytes with
  | case1 done offset =>
      cases decoded
      exact ⟨[], (List.append_nil _).symm, rfl⟩
  | case2 done offset byte bytes first fits ih =>
      obtain ⟨c, encoded, code, _⟩ := decodeOne_ok fits
      obtain ⟨found, rfl, behind⟩ := ih decoded
      refine ⟨c :: found, ?_, ?_⟩
      · rw [code, Char.ofNat_toNat, List.reverse_cons, List.append_assoc]
        rfl
      · rw [← encoded, ← behind]
        rfl
  | case3 => contradiction

/-- Decoding that fails has come behind the encoding of a text, to bytes of which nothing
can be decoded. -/
theorem decodeAfter_error (failed : decodeAfter done offset bytes = .error fault) :
    ∃ found byte behind broken, bytes = encode found ++ byte :: behind ∧
      decodeOne byte behind = .error broken ∧
      fault = ⟨byte, offset + (encode found).length, broken.length, broken.reason⟩ := by
  fun_induction decodeAfter done offset bytes with
  | case1 => contradiction
  | case2 done offset byte bytes first fits ih =>
      obtain ⟨c, encoded, _, length⟩ := decodeOne_ok fits
      obtain ⟨found, next, behind, broken, rest, breaks, rfl⟩ := ih failed
      have whole : encode (c :: found) = String.utf8EncodeChar c ++ encode found := rfl
      refine ⟨c :: found, next, behind, broken, ?_, breaks, ?_⟩
      · rw [← encoded, rest, whole, List.append_assoc]
      · rw [whole, List.length_append, length, Nat.add_assoc]
  | case3 done offset byte bytes broken breaks =>
      cases failed
      exact ⟨[], byte, bytes, broken, rfl, breaks, rfl⟩

theorem encode_of_decode (decoded : decode bytes = .ok text) : encode text = bytes := by
  obtain ⟨found, same, encoded⟩ := decodeAfter_ok decoded
  rw [same]
  exact encoded

/-- Decoding that fails comes behind every encoding that the bytes start with. -/
theorem encode_le_offset (failed : decode bytes = .error fault) (ahead : encode text <+: bytes) :
    (encode text).length ≤ fault.offset := by
  obtain ⟨rest, rfl⟩ := ahead
  rw [decode, decodeAfter_encode] at failed
  obtain ⟨found, byte, behind, broken, _, _, rfl⟩ := decodeAfter_error failed
  simp only [Nat.zero_add]
  exact Nat.le_add_right _ _

theorem standsIn_of_decode (failed : decode bytes = .error fault) : fault.StandsIn bytes := by
  obtain ⟨found, byte, behind, broken, whole, breaks, same⟩ := decodeAfter_error failed
  rw [Nat.zero_add] at same
  have rest : bytes.drop (encode found).length = byte :: behind := by rw [whole, List.drop_left]
  refine ⟨⟨⟨found, ?_, by rw [same]⟩, ?_⟩, ?_, ?_⟩
  · rw [whole]
    exact List.prefix_append _ _
  · rintro n ⟨text, ahead, rfl⟩
    exact encode_le_offset failed ahead
  · rw [same, whole]
    simp
  · rw [same, rest]
    exact decodeOne_error breaks

/-- Bytes that are no encoding have a fault, which stands where the first of them is. -/
theorem decode_invalid (invalid : ∀ text, encode text ≠ bytes) :
    ∃ fault, decode bytes = .error fault ∧ fault.StandsIn bytes := by
  cases result : decode bytes with
  | ok text => exact absurd (encode_of_decode result) (invalid text)
  | error fault => exact ⟨fault, rfl, standsIn_of_decode result⟩

end Faults

end LoxLex.Utf8
