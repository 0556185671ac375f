import LoxLex.Text.Basic

/-! UTF-8.

A lead byte fixes how many bytes follow it and in which range each of them lies;
the ranges leave out overlong forms, surrogates and everything above U+10FFFF.
Decoding stops at the first byte that fits nowhere.  The fault names the bytes that
are at fault: the lead and the following bytes that were still in range, or the
one byte that is no lead.
-/

namespace LoxLex.Utf8

inductive Reason where
  | invalidStart
  | invalidContinuation
  | unexpectedEnd
deriving DecidableEq, Repr

def Reason.text : Reason → Text
  | .invalidStart => "invalid start byte".toList
  | .invalidContinuation => "invalid continuation byte".toList
  | .unexpectedEnd => "unexpected end of data".toList

/-- Bytes that cannot be decoded: the first of them, its offset, and their number. -/
structure Fault where
  first : UInt8
  offset : Nat
  length : Nat
  reason : Reason
deriving DecidableEq, Repr

def Fault.message (fault : Fault) : Text :=
  "'utf-8' codec can't decode ".toList ++
    (if fault.length = 1 then
      "byte 0x".toList ++ (Nat.toDigits 16 fault.first.toNat).leftpad 2 '0' ++
        " in position ".toList ++ Text.ofNat fault.offset
    else
      "bytes in position ".toList ++ Text.ofNat fault.offset ++ '-' ::
        Text.ofNat (fault.offset + fault.length - 1)) ++
    ": ".toList ++ fault.reason.text

/-- What a lead byte says: its share of the code point, and the least and the
greatest value of each byte that follows. -/
structure Lead where
  payload : Nat
  tail : List (Nat × Nat)
deriving DecidableEq, Repr

def continuation : Nat × Nat := (0x80, 0xbf)

def lead? (byte : UInt8) : Option Lead :=
  let b := byte.toNat
  if b < 0x80 then some ⟨b, []⟩
  else if b < 0xc2 then none
  else if b < 0xe0 then some ⟨b - 0xc0, [continuation]⟩
  else if b = 0xe0 then some ⟨0, [(0xa0, 0xbf), continuation]⟩
  else if b = 0xed then some ⟨0xd, [(0x80, 0x9f), continuation]⟩
  else if b < 0xf0 then some ⟨b - 0xe0, [continuation, continuation]⟩
  else if b = 0xf0 then some ⟨0, [(0x90, 0xbf), continuation, continuation]⟩
  else if b < 0xf4 then some ⟨b - 0xf0, [continuation, continuation, continuation]⟩
  else if b = 0xf4 then some ⟨4, [(0x80, 0x8f), continuation, continuation]⟩
  else none

structure Decoded where
  code : Nat
  length : Nat
  behind : List UInt8
deriving DecidableEq, Repr

/-- Where a sequence breaks off: why, and how many bytes of it fit. -/
structure Break where
  reason : Reason
  length : Nat
deriving DecidableEq, Repr

/-- Goes on behind `length` bytes of a sequence, as long as the following bytes are
in range. -/
def decodeTail (payload length : Nat) :
    List (Nat × Nat) → List UInt8 → Except Break Decoded
  | [], bytes => .ok ⟨payload, length, bytes⟩
  | _ :: _, [] => .error ⟨.unexpectedEnd, length⟩
  | (least, greatest) :: more, byte :: bytes =>
    if least ≤ byte.toNat ∧ byte.toNat ≤ greatest then
      decodeTail (payload * 64 + byte.toNat % 64) (length + 1) more bytes
    else .error ⟨.invalidContinuation, length⟩

theorem decodeTail_behind {payload length : Nat} {ranges : List (Nat × Nat)}
    {bytes : List UInt8} {decoded : Decoded}
    (fits : decodeTail payload length ranges bytes = .ok decoded) :
    decoded.behind.length + ranges.length = bytes.length := by
  induction ranges generalizing payload length bytes with
  | nil =>
      cases fits
      rfl
  | cons range more ih =>
      cases bytes with
      | nil => simp [decodeTail] at fits
      | cons byte bytes =>
          simp only [decodeTail] at fits
          split at fits
          · have tail := ih fits
            simp only [List.length_cons]
            omega
          · contradiction

/-- The first code point of bytes that start with `byte`. -/
def decodeOne (byte : UInt8) (bytes : List UInt8) : Except Break Decoded :=
  match lead? byte with
  | some lead => decodeTail lead.payload 1 lead.tail bytes
  | none => .error ⟨.invalidStart, 1⟩

theorem decodeOne_behind {byte : UInt8} {bytes : List UInt8} {decoded : Decoded}
    (fits : decodeOne byte bytes = .ok decoded) : decoded.behind.length ≤ bytes.length := by
  unfold decodeOne at fits
  split at fits
  · have tail := decodeTail_behind fits
    omega
  · contradiction

def decodeAfter (done : Text) (offset : Nat) : List UInt8 → Except Fault Text
  | [] => .ok done.reverse
  | byte :: bytes =>
    match _ : decodeOne byte bytes with
    | .ok decoded =>
      decodeAfter (Char.ofNat decoded.code :: done) (offset + decoded.length) decoded.behind
    | .error broken => .error ⟨byte, offset, broken.length, broken.reason⟩
termination_by bytes => bytes.length
decreasing_by
  have shorter := decodeOne_behind ‹decodeOne byte bytes = .ok decoded›
  simp only [List.length_cons]
  omega

/-- The text that bytes encode, or the first fault in them. -/
def decode (bytes : List UInt8) : Except Fault Text := decodeAfter [] 0 bytes

def encode (text : Text) : List UInt8 := text.flatMap String.utf8EncodeChar

end LoxLex.Utf8
