import LoxLex.Number.Double

namespace LoxLex

/-- A nonnegative decimal fraction `digits / 10 ^ places`. -/
structure Decimal where
  digits : Nat
  places : Nat
deriving DecidableEq, Repr

namespace Decimal

def ofNumeral (numeral : Text) : Decimal :=
  let whole := numeral.takeWhile (· ≠ '.')
  let fraction := (numeral.dropWhile (· ≠ '.')).tail
  ⟨Nat.ofDigitChars 10 (whole ++ fraction) 0, fraction.length⟩

def toDouble (x : Decimal) : Double := Double.nearest x.digits (Nat.pow 10 x.places)

end Decimal

namespace Numeral

/-- The longest numeral at the head of a text that starts with a digit, and the
text behind it. -/
def split (text : Text) : Text × Text :=
  let whole := text.takeWhile Char.isDigit
  match text.dropWhile Char.isDigit with
  | '.' :: d :: rest =>
    if d.isDigit then
      (whole ++ '.' :: (d :: rest).takeWhile Char.isDigit, (d :: rest).dropWhile Char.isDigit)
    else (whole, '.' :: d :: rest)
  | rest => (whole, rest)

theorem split_append (text : Text) : (split text).1 ++ (split text).2 = text := by
  have parts := List.takeWhile_append_dropWhile (p := Char.isDigit) (l := text)
  unfold split
  split
  · rename_i d rest found
    rw [found] at parts
    split
    · simp only [List.append_assoc, List.cons_append, List.takeWhile_append_dropWhile]
      exact parts
    · exact parts
  · exact parts

theorem split_nonempty {c : Char} (rest : Text) (digit : c.isDigit = true) :
    (split (c :: rest)).1 ≠ [] := by
  unfold split
  split
  · split <;> simp [digit]
  · simp [digit]

end Numeral

end LoxLex
