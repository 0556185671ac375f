import LoxLex.Text.Basic

/-! Binary64 numbers as bit patterns.

The pattern is the number: one sign bit, eleven exponent bits and fifty-two
fraction bits.  A finite magnitude is `significand * 2 ^ scale` units of the
smallest subnormal, and one such unit is `2 ^ -1074`.
-/

namespace LoxLex

structure Double where
  bits : UInt64
deriving DecidableEq, Repr

namespace Double

def magnitude (x : Double) : Nat := x.bits.toNat % Nat.pow 2 63

def isNegative (x : Double) : Bool := decide (Nat.pow 2 63 ≤ x.bits.toNat)

/-- The pattern of infinity without its sign: all exponent bits, no fraction. -/
def infiniteMagnitude : Nat := 2047 * Nat.pow 2 52

def isNaN (x : Double) : Bool := decide (infiniteMagnitude < x.magnitude)

def isInfinite (x : Double) : Bool := decide (x.magnitude = infiniteMagnitude)

def isFinite (x : Double) : Bool := decide (x.magnitude < infiniteMagnitude)

def isZero (x : Double) : Bool := decide (x.magnitude = 0)

/-- The integer significand of a finite magnitude, with the leading bit of a
normal number made explicit. -/
def significand (x : Double) : Nat :=
  if x.magnitude < Nat.pow 2 52 then x.magnitude
  else x.magnitude % Nat.pow 2 52 + Nat.pow 2 52

/-- The binary exponent of the significand, counted in units of `2 ^ -1074`. -/
def scale (x : Double) : Nat := x.magnitude / Nat.pow 2 52 - 1

/-- A finite magnitude as a whole number of units of `2 ^ -1074`. -/
def units (x : Double) : Nat := x.significand * Nat.pow 2 x.scale

/-- How many units of the smallest subnormal make one. -/
def unitsPerOne : Nat := Nat.pow 2 1074

/-- Equality of the numbers denoted: the two zeros are equal, and a NaN equals
nothing, itself included. -/
def sameNumber (x y : Double) : Bool :=
  !x.isNaN && !y.isNaN && (x == y || x.isZero && y.isZero)

end Double

/-- The integer nearest to `n / d`, of two equally near ones the even one. -/
def roundHalfEven (n d : Nat) : Nat :=
  if 2 * (n % d) < d ∨ 2 * (n % d) = d ∧ n / d % 2 = 0 then n / d else n / d + 1

namespace Double

/-- The scale at which a quotient keeps fifty-three significant bits, or the
subnormal scale if it has fewer. -/
def scaleOf (n d : Nat) : Nat := (n * unitsPerOne / d).log2 - 52

/-- The pattern of `n / d` rounded, before the check for overflow.  Scale and rounded significand
add up to it, because a significand that rounds up to `2 ^ 53` carries into the exponent field. -/
def roundedPattern (n d : Nat) : Nat :=
  let scale := scaleOf n d
  scale * Nat.pow 2 52 + roundHalfEven (n * unitsPerOne) (d * Nat.pow 2 scale)

/-- The double nearest to `n / d`, a tie going to the even significand.  Patterns from the infinite
one on are infinity. -/
def nearest (n d : Nat) : Double :=
  ⟨UInt64.ofNat (min (roundedPattern n d) infiniteMagnitude)⟩

end Double

end LoxLex
