/-! Texts as finite sequences of characters.

A character is a Unicode scalar value: a code point that is no surrogate, so no text holds a
lone surrogate.  Every offset and every length counts characters, and a line ends behind a
line feed.  A carriage return is an ordinary character here; `Text.LineEnd` holds the one
place where it is turned into a line feed.
-/

namespace LoxLex

abbrev Text := List Char

namespace Text

def lineBreaks (text : Text) : Nat := text.count '\n'

@[simp] theorem lineBreaks_nil : lineBreaks [] = 0 := rfl

@[simp] theorem lineBreaks_cons (c : Char) (text : Text) :
    lineBreaks (c :: text) = lineBreaks text + if c = '\n' then 1 else 0 := by
  simp [lineBreaks, List.count_cons]

@[simp] theorem lineBreaks_append (front back : Text) :
    lineBreaks (front ++ back) = lineBreaks front + lineBreaks back := by
  simp [lineBreaks]

/-- Puts one character before the lines of a text. -/
def consLine (c : Char) (lines : List Text) : List Text :=
  if c = '\n' then [c] :: lines
  else match lines with
    | [] => [[c]]
    | line :: more => (c :: line) :: more

/-- The lines of a text, each with the line feed that ends it.  Only the last
line may lack one, and no line is empty. -/
def lines (text : Text) : List Text := text.foldr consLine []

def ofNat (n : Nat) : Text := Nat.toDigits 10 n

def ofInt : Int → Text
  | .ofNat n => ofNat n
  | .negSucc n => '-' :: ofNat (n + 1)

/-- Characters that may start a word. -/
def isLetter (c : Char) : Bool := c.isAlpha || c = '_'

/-- Characters that may continue a word. -/
def isWordChar (c : Char) : Bool := c.isAlphanum || c = '_'

/-- Characters that separate lexemes and mean nothing by themselves. -/
def isBlank (c : Char) : Bool := c = ' ' || c = '\r' || c = '\t' || c = '\n'

/-- The digit zero of each system of decimal digits, in ascending order, by the character
database of Unicode 14.0.  The digits of a system follow its zero in a row. -/
def decimalZeros : List Nat := [
  0x30, 0x660, 0x6f0, 0x7c0, 0x966, 0x9e6, 0xa66, 0xae6, 0xb66, 0xbe6, 0xc66, 0xce6, 0xd66,
  0xde6, 0xe50, 0xed0, 0xf20, 0x1040, 0x1090, 0x17e0, 0x1810, 0x1946, 0x19d0, 0x1a80, 0x1a90,
  0x1b50, 0x1bb0, 0x1c40, 0x1c50, 0xa620, 0xa8d0, 0xa900, 0xa9d0, 0xa9f0, 0xaa50, 0xabf0,
  0xff10, 0x104a0, 0x10d30, 0x11066, 0x110f0, 0x11136, 0x111d0, 0x112f0, 0x11450, 0x114d0,
  0x11650, 0x116c0, 0x11730, 0x118e0, 0x11950, 0x11c50, 0x11d50, 0x11da0, 0x16a60, 0x16ac0,
  0x16b50, 0x1d7ce, 0x1d7d8, 0x1d7e2, 0x1d7ec, 0x1d7f6, 0x1e140, 0x1e2f0, 0x1e950, 0x1fbf0]

/-- Digits of all scripts.  They make a negative number of an argument; a numeral has ASCII
digits only. -/
def isDecimalDigit (c : Char) : Bool :=
  decimalZeros.any fun first => first ≤ c.toNat && c.toNat < first + 10

end Text

end LoxLex
