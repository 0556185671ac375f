import LoxLex.Text.Utf8

namespace LoxLex.Utf8

section Bytes

variable {payload length n v : Nat} {range : Nat × Nat} {more : List (Nat × Nat)}
  {byte : UInt8} {bytes rest : List UInt8}

theorem decodeTail_cons (lower : range.1 ≤ byte.toNat) (upper : byte.toNat ≤ range.2) :
    decodeTail payload length (range :: more) (byte :: bytes) =
      decodeTail (payload * 64 + byte.toNat % 64) (length + 1) more bytes := by
  rw [decodeTail, if_pos ⟨lower, upper⟩]

theorem toNat_byte (small : n < 256) : (UInt8.ofNat n).toNat = n := UInt8.toNat_ofNat_of_lt' small

theorem toNat_follow (n : Nat) : (UInt8.ofNat (n % 64 + 128)).toNat = n % 64 + 128 :=
  toNat_byte (by omega)

/-- A byte with six bits of a code point, in a range that allows it. -/
theorem decodeTail_follow (lower : range.1 ≤ n % 64 + 128) (upper : n % 64 + 128 ≤ range.2) :
    decodeTail payload length (range :: more) (UInt8.ofNat (n % 64 + 128) :: bytes) =
      decodeTail (payload * 64 + n % 64) (length + 1) more bytes := by
  have bits : (n % 64 + 128) % 64 = n % 64 := by omega
  rw [decodeTail_cons (by rwa [toNat_follow]) (by rwa [toNat_follow]), toNat_follow, bits]

theorem decodeTail_continuation :
    decodeTail payload length (continuation :: more) (UInt8.ofNat (n % 64 + 128) :: bytes) =
      decodeTail (payload * 64 + n % 64) (length + 1) more bytes :=
  decodeTail_follow (by simp [continuation]) (by simp [continuation]; omega)

theorem lead?_one (ascii : v < 0x80) : lead? (UInt8.ofNat v) = some ⟨v, []⟩ := by
  have value : (UInt8.ofNat v).toNat = v := toNat_byte (by omega)
  simp only [lead?, value, ascii, if_true]

theorem lead?_two (lower : 0x80 ≤ v) (upper : v < 0x800) :
    lead? (UInt8.ofNat (v / 64 % 32 + 0xc0)) = some ⟨v / 64, [continuation]⟩ := by
  have value : (UInt8.ofNat (v / 64 % 32 + 0xc0)).toNat = v / 64 + 0xc0 := by
    rw [toNat_byte (by omega)]
    omega
  have notAscii : ¬ v / 64 + 0xc0 < 0x80 := by omega
  have notStray : ¬ v / 64 + 0xc0 < 0xc2 := by omega
  have inRange : v / 64 + 0xc0 < 0xe0 := by omega
  simp only [lead?, value, notAscii, notStray, inRange, if_false, if_true, Nat.add_sub_cancel]

/-- The lead of three bytes, of which the second is in the range that the lead allows. -/
theorem lead?_three (v : Nat) (lower : 0x800 ≤ v) (upper : v < 0x10000)
    (scalar : v < 0xd800 ∨ 0xdfff < v) :
    ∃ range : Nat × Nat,
      lead? (UInt8.ofNat (v / 4096 % 16 + 0xe0)) = some ⟨v / 4096, [range, continuation]⟩ ∧
        range.1 ≤ v / 64 % 64 + 128 ∧ v / 64 % 64 + 128 ≤ range.2 := by
  have value : (UInt8.ofNat (v / 4096 % 16 + 0xe0)).toNat = v / 4096 + 0xe0 := by
    rw [toNat_byte (by omega)]
    omega
  have notAscii : ¬ v / 4096 + 0xe0 < 0x80 := by omega
  have notStray : ¬ v / 4096 + 0xe0 < 0xc2 := by omega
  have notTwo : ¬ v / 4096 + 0xe0 < 0xe0 := by omega
  have inRange : v / 4096 + 0xe0 < 0xf0 := by omega
  simp only [lead?, value, notAscii, notStray, notTwo, inRange, if_false, if_true,
    Nat.add_sub_cancel]
  split
  · rename_i first
    have none : v / 4096 = 0 := by omega
    exact ⟨_, by rw [none], by omega, by omega⟩
  · split
    · rename_i surrogates
      have thirteen : v / 4096 = 0xd := by omega
      exact ⟨_, by rw [thirteen], by omega, by omega⟩
    · exact ⟨_, rfl, by simp [continuation], by simp [continuation]; omega⟩

/-- The lead of four bytes, of which the second is in the range that the lead allows. -/
theorem lead?_four (v : Nat) (lower : 0x10000 ≤ v) (upper : v < 0x110000) :
    ∃ range : Nat × Nat,
      lead? (UInt8.ofNat (v / 262144 % 8 + 0xf0)) =
          some ⟨v / 262144, [range, continuation, continuation]⟩ ∧
        range.1 ≤ v / 4096 % 64 + 128 ∧ v / 4096 % 64 + 128 ≤ range.2 := by
  have value : (UInt8.ofNat (v / 262144 % 8 + 0xf0)).toNat = v / 262144 + 0xf0 := by
    rw [toNat_byte (by omega)]
    omega
  have notAscii : ¬ v / 262144 + 0xf0 < 0x80 := by omega
  have notStray : ¬ v / 262144 + 0xf0 < 0xc2 := by omega
  have notTwo : ¬ v / 262144 + 0xf0 < 0xe0 := by omega
  have notThree : ¬ v / 262144 + 0xf0 < 0xf0 := by omega
  have notFirst : ¬ v / 262144 + 0xf0 = 0xe0 := by omega
  have notSurrogates : ¬ v / 262144 + 0xf0 = 0xed := by omega
  simp only [lead?, value, notAscii, notStray, notTwo, notThree, notFirst, notSurrogates, if_false,
    Nat.add_sub_cancel]
  split
  · rename_i first
    have none : v / 262144 = 0 := by omega
    exact ⟨_, by rw [none], by omega, by omega⟩
  · split
    · exact ⟨_, rfl, by simp [continuation], by simp [continuation]; omega⟩
    · have last : v / 262144 = 4 := by omega
      exact ⟨_, by rw [if_pos (by omega), last], by omega, by omega⟩

end Bytes

theorem decodeOne_encodeChar (c : Char) (rest : List UInt8) :
    ∃ byte tail, String.utf8EncodeChar c = byte :: tail ∧
      decodeOne byte (tail ++ rest) = .ok ⟨c.toNat, tail.length + 1, rest⟩ := by
  have scalar : c.toNat < 0xd800 ∨ 0xdfff < c.toNat ∧ c.toNat < 0x110000 := c.valid
  have unfolded := String.utf8EncodeChar.eq_1 c
  rw [Char.toNat_val] at unfolded
  generalize c.toNat = v at scalar unfolded ⊢
  by_cases ascii : v ≤ 0x7f
  · rw [unfolded, if_pos ascii]
    refine ⟨_, _, rfl, ?_⟩
    rw [decodeOne, lead?_one (by omega)]
    rfl
  rw [if_neg ascii] at unfolded
  by_cases two : v ≤ 0x7ff
  · rw [unfolded, if_pos two]
    refine ⟨_, _, rfl, ?_⟩
    have code : v / 64 * 64 + v % 64 = v := by omega
    rw [decodeOne, lead?_two (by omega) (by omega)]
    simp only [List.cons_append, decodeTail_continuation, code]
    rfl
  rw [if_neg two] at unfolded
  by_cases three : v ≤ 0xffff
  · rw [unfolded, if_pos three]
    refine ⟨_, _, rfl, ?_⟩
    have code : (v / 4096 * 64 + v / 64 % 64) * 64 + v % 64 = v := by omega
    obtain ⟨range, lead, least, greatest⟩ :=
      lead?_three v (by omega) (by omega) (by omega)
    rw [decodeOne, lead]
    simp only [List.cons_append, decodeTail_follow least greatest, decodeTail_continuation, code]
    rfl
  · rw [unfolded, if_neg three]
    refine ⟨_, _, rfl, ?_⟩
    have code : ((v / 262144 * 64 + v / 4096 % 64) * 64 + v / 64 % 64) * 64 + v % 64 = v := by
      omega
    obtain ⟨range, lead, least, greatest⟩ := lead?_four v (by omega) (by omega)
    rw [decodeOne, lead]
    simp only [List.cons_append, decodeTail_follow least greatest, decodeTail_continuation, code]
    rfl

theorem decodeAfter_encode (done : Text) (offset : Nat) (text : Text) (rest : List UInt8) :
    decodeAfter done offset (encode text ++ rest) =
      decodeAfter (text.reverse ++ done) (offset + (encode text).length) rest := by
  induction text generalizing done offset with
  | nil => rfl
  | cons c more ih =>
      obtain ⟨byte, tail, encoded, decoded⟩ := decodeOne_encodeChar c (encode more ++ rest)
      have whole : encode (c :: more) = byte :: (tail ++ encode more) := by
        rw [encode, List.flatMap_cons, encoded]
        rfl
      have offsets : offset + (tail.length + 1) + (encode more).length =
          offset + (encode (c :: more)).length := by
        rw [whole, List.length_cons, List.length_append]
        omega
      rw [whole, List.cons_append, List.append_assoc, decodeAfter]
      split
      · rename_i found same
        rw [decoded] at same
        cases same
        rw [ih, Char.ofNat_toNat, offsets, List.reverse_cons, List.append_assoc, whole]
        rfl
      · rename_i broken same
        rw [decoded] at same
        contradiction

theorem decode_encode (text : Text) : decode (encode text) = .ok text := by
  have decoded := decodeAfter_encode [] 0 text []
  rw [List.append_nil, List.append_nil] at decoded
  rw [decode, decoded, decodeAfter, List.reverse_reverse]

end LoxLex.Utf8
