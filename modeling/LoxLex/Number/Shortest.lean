import LoxLex.Number.Double

/-! The fewest decimal digits that read back as a given double.

Every positive double is at least `10 ^ -324`.  So its place is the number of
decimal digits that it has left of `10 ^ -324`, and the grid with `n` significant
digits has the unit `10 ^ (place - n - 324)`.  On the first grid where one of the
double's two neighbours reads back, the nearer of those that do is chosen, and of
two equally near ones the even one.  The grid of `exactDigits` holds the double
itself.
-/

namespace LoxLex.Double

/-- Decimal digits of a positive double left of `10 ^ -324`. -/
def place (x : Double) : Nat :=
  (Nat.toDigits 10 (x.units * Nat.pow 10 324 / unitsPerOne)).length

/-- The decimal grids that a double is looked up in. -/
structure Grids where
  double : Double
  place : Nat

namespace Grids

/-- The double in units of the grid with `n` digits, as `numerator n / denominator`. -/
def numerator (grids : Grids) (n : Nat) : Nat := grids.double.units * Nat.pow 10 (324 + n)

def denominator (grids : Grids) : Nat := unitsPerOne * Nat.pow 10 grids.place

/-- The grid point at the double or next below it. -/
def below (grids : Grids) (n : Nat) : Nat := grids.numerator n / grids.denominator

/-- Whether a point of the grid with `n` digits is read as the double, sign apart. -/
def readsBack (grids : Grids) (n point : Nat) : Bool :=
  (nearest (point * Nat.pow 10 grids.place) (Nat.pow 10 (324 + n))).magnitude ==
    grids.double.magnitude

/-- The neighbour on the grid with `n` digits that reads back, if there is one. -/
def point? (grids : Grids) (n : Nat) : Option Nat :=
  let below := grids.below n
  if grids.readsBack n below then
    if grids.readsBack n (below + 1) then
      some (roundHalfEven (grids.numerator n) grids.denominator)
    else some below
  else if grids.readsBack n (below + 1) then some (below + 1)
  else none

/-- A number of digits whose grid holds the double. -/
def exactDigits (grids : Grids) : Nat := grids.place + 750

/-- The number of digits of the first grid with a point that reads back, and that point. -/
def first (grids : Grids) : Nat × Nat :=
  ((List.range' 1 grids.exactDigits).findSome? fun n => (grids.point? n).map (n, ·)).getD
    (grids.exactDigits, grids.below grids.exactDigits)

end Grids

/-- Significant digits, the first of which counts `10 ^ exponent`. -/
structure Significant where
  digits : Text
  exponent : Int
deriving DecidableEq, Repr

def stripZeros (digits : Text) : Text := (digits.reverse.dropWhile (· = '0')).reverse

def shortest (x : Double) : Significant :=
  let grids : Grids := ⟨x, x.place⟩
  let found := grids.first
  let digits := Nat.toDigits 10 found.2
  ⟨stripZeros digits, (grids.place : Int) - found.1 - 324 + digits.length - 1⟩

def zeros (n : Nat) : Text := List.replicate n '0'

namespace Significant

def isPositional (exponent : Int) : Bool := decide (-4 ≤ exponent ∧ exponent < 16)

/-- Digits around a point whose place is given by the exponent of the first digit. -/
def positional (x : Significant) : Text :=
  if x.exponent < 0 then '0' :: '.' :: zeros (-x.exponent - 1).toNat ++ x.digits
  else
    let whole := x.exponent.toNat + 1
    if x.digits.length ≤ whole then x.digits ++ zeros (whole - x.digits.length) ++ ['.', '0']
    else x.digits.take whole ++ '.' :: x.digits.drop whole

def exponentText (exponent : Int) : Text :=
  (if exponent < 0 then '-' else '+') :: (Text.ofNat exponent.natAbs).leftpad 2 '0'

def scientific (x : Significant) : Text :=
  let fraction := x.digits.drop 1
  x.digits.take 1 ++ (if fraction = [] then [] else '.' :: fraction) ++
    'e' :: exponentText x.exponent

def text (x : Significant) : Text :=
  if isPositional x.exponent then x.positional else x.scientific

end Significant

def magnitudeText (x : Double) : Text :=
  if x.isInfinite then "inf".toList
  else if x.isZero then Significant.text ⟨['0'], 0⟩
  else x.shortest.text

def text (x : Double) : Text :=
  if x.isNaN then "nan".toList
  else if x.isNegative then '-' :: x.magnitudeText
  else x.magnitudeText

end LoxLex.Double
