import LoxLex.Proofs.Ladder
import Mathlib.Algebra.Order.Ring.Abs
import Mathlib.Data.Rat.Lemmas
import Mathlib.Tactic.NormNum

/-! The double that a rational is rounded to.

`RoundsTo q x` says it without a word on how it is found: no finite double is nearer to `q`
than `x`, of two equally near ones `x` is the one with the even significand, and from halfway
above the largest finite double on it is infinity.  One double is rounded to from every
nonnegative rational, and it is the one that `nearest` gives.
-/

namespace LoxLex.Double

/-- The rational that a finite double stands for. -/
def toRat (x : Double) : ℚ := (if x.isNegative then -1 else 1) * (x.units / unitsPerOne)

def infinity : Double := ⟨0x7ff0000000000000⟩

def minusInfinity : Double := ⟨0xfff0000000000000⟩

/-- Rationals from here on are rounded to infinity. -/
def overflow : ℚ := 2 ^ 1024 - 2 ^ 970

structure Nearest (q : ℚ) (x : Double) : Prop where
  finite : x.isFinite = true
  unsigned : x.isNegative = false
  least : ∀ y : Double, y.isFinite = true → |q - x.toRat| ≤ |q - y.toRat|
  even : ∀ y : Double, y.isFinite = true → y.toRat ≠ x.toRat →
    |q - x.toRat| = |q - y.toRat| → x.significand % 2 = 0

def RoundsTo (q : ℚ) (x : Double) : Prop := if overflow ≤ q then x = infinity else Nearest q x

/-- The order of doubles as numbers, the infinities at its ends.  A NaN is not in it. -/
inductive AtMost : Double → Double → Prop
  | finite {x y : Double} (left : x.isFinite = true) (right : y.isFinite = true)
      (le : x.toRat ≤ y.toRat) : AtMost x y
  | infinity {x : Double} (number : x.isNaN = false) : AtMost x infinity
  | minusInfinity {y : Double} (number : y.isNaN = false) : AtMost minusInfinity y

/-- The double without a sign that has a given magnitude. -/
def ofMagnitude (p : Nat) : Double := ⟨UInt64.ofNat p⟩

section Distance

variable {q a b : ℚ}

theorem abs_sub_le_iff_below (lt : a < b) : |q - a| ≤ |q - b| ↔ 2 * q ≤ a + b := by
  rw [← sq_le_sq]
  constructor <;> intro le <;> nlinarith

theorem abs_sub_le_iff_above (lt : a < b) : |q - b| ≤ |q - a| ↔ a + b ≤ 2 * q := by
  rw [← sq_le_sq]
  constructor <;> intro le <;> nlinarith

theorem abs_sub_eq_iff (different : a ≠ b) : |q - a| = |q - b| ↔ 2 * q = a + b := by
  rcases lt_or_gt_of_ne different with lt | gt
  · rw [le_antisymm_iff, le_antisymm_iff, abs_sub_le_iff_below lt, abs_sub_le_iff_above lt]
  · rw [le_antisymm_iff, le_antisymm_iff, abs_sub_le_iff_below gt, abs_sub_le_iff_above gt,
      add_comm b a]
    exact and_comm

end Distance

section Magnitude

variable {x y : Double} {p : Nat}

theorem unitsPerOne_eq : (unitsPerOne : ℚ) = 2 ^ 1074 := by
  have whole : unitsPerOne = 2 ^ 1074 := by decide +kernel
  rw [whole, Nat.cast_pow, Nat.cast_ofNat]

theorem unitsPerOne_pos : (0 : ℚ) < unitsPerOne := by
  rw [unitsPerOne_eq]
  exact pow_pos two_pos _

theorem magnitude_ofMagnitude (bound : p < 2 ^ 63) : (ofMagnitude p).magnitude = p := by
  have word : (UInt64.ofNat p).toNat = p := UInt64.toNat_ofNat_of_lt' (by
    rw [UInt64.size]
    omega)
  rw [magnitude, ofMagnitude, word]
  exact Nat.mod_eq_of_lt bound

theorem isNegative_ofMagnitude (bound : p < 2 ^ 63) : (ofMagnitude p).isNegative = false := by
  have word : (UInt64.ofNat p).toNat = p := UInt64.toNat_ofNat_of_lt' (by
    rw [UInt64.size]
    omega)
  rw [isNegative, ofMagnitude, word]
  exact decide_eq_false (by simpa using bound)

theorem eq_iff_bits : x = y ↔ x.bits = y.bits := by
  cases x
  cases y
  exact Double.mk.injEq .. ▸ Iff.rfl

theorem eq_ofMagnitude (unsigned : x.isNegative = false) : x = ofMagnitude x.magnitude := by
  have bound : x.bits.toNat < 2 ^ 63 := by simpa [isNegative] using unsigned
  have same : x.magnitude = x.bits.toNat := Nat.mod_eq_of_lt bound
  rw [same, ofMagnitude, UInt64.ofNat_toNat]

theorem eq_of_magnitude (unsigned : x.isNegative = false) (other : y.isNegative = false)
    (same : x.magnitude = y.magnitude) : x = y := by
  rw [eq_ofMagnitude unsigned, eq_ofMagnitude other, same]

theorem magnitude_lt_of_isFinite (finite : x.isFinite = true) :
    x.magnitude < infiniteMagnitude := of_decide_eq_true finite

theorem isFinite_ofMagnitude (bound : p < infiniteMagnitude) :
    (ofMagnitude p).isFinite = true := by
  have small : p < 2 ^ 63 := Nat.lt_trans bound (by decide)
  rw [isFinite, magnitude_ofMagnitude small]
  exact decide_eq_true bound

theorem significand_parity (x : Double) : x.significand % 2 = x.magnitude % 2 := by
  unfold significand
  split
  · rfl
  · change (x.magnitude % 2 ^ 52 + 2 ^ 52) % 2 = x.magnitude % 2
    omega

theorem toRat_eq_units (unsigned : x.isNegative = false) : x.toRat = x.units / unitsPerOne := by
  rw [toRat, unsigned, if_neg Bool.false_ne_true, one_mul]

theorem toRat_unsigned (unsigned : x.isNegative = false) :
    x.toRat = rung x.magnitude / unitsPerOne := by
  rw [toRat_eq_units unsigned, units_eq]

theorem toRat_ofMagnitude (bound : p < infiniteMagnitude) :
    (ofMagnitude p).toRat = rung p / unitsPerOne := by
  have small : p < 2 ^ 63 := Nat.lt_trans bound (by decide)
  rw [toRat_unsigned (isNegative_ofMagnitude small), magnitude_ofMagnitude small]

theorem toRat_nonneg (unsigned : x.isNegative = false) : 0 ≤ x.toRat := by
  rw [toRat_unsigned unsigned]
  exact div_nonneg (Nat.cast_nonneg _) unitsPerOne_pos.le

theorem toRat_nonpos (negative : x.isNegative = true) : x.toRat ≤ 0 := by
  have units : (0 : ℚ) ≤ x.units / unitsPerOne := div_nonneg (Nat.cast_nonneg _) unitsPerOne_pos.le
  rw [toRat, negative, if_pos rfl, neg_one_mul]
  exact neg_nonpos.mpr units

theorem toRat_lt_iff (unsigned : x.isNegative = false) (other : y.isNegative = false) :
    x.toRat < y.toRat ↔ x.magnitude < y.magnitude := by
  rw [toRat_unsigned unsigned, toRat_unsigned other, div_lt_div_iff_of_pos_right unitsPerOne_pos,
    Nat.cast_lt, rung_strictMono.lt_iff_lt]

theorem toRat_eq_zero_iff (unsigned : x.isNegative = false) : x.toRat = 0 ↔ x.magnitude = 0 := by
  have least := rung_strictMono.injective.eq_iff (a := x.magnitude) (b := 0)
  rw [rung_zero] at least
  rw [toRat_unsigned unsigned, div_eq_zero_iff, or_iff_left unitsPerOne_pos.ne', Nat.cast_eq_zero,
    least]

theorem two_mul_eq_iff (q : ℚ) (unsigned : x.isNegative = false) (other : y.isNegative = false) :
    2 * q = x.toRat + y.toRat ↔ 2 * (q * unitsPerOne) = rung x.magnitude + rung y.magnitude := by
  rw [toRat_unsigned unsigned, toRat_unsigned other, ← add_div, eq_div_iff unitsPerOne_pos.ne',
    mul_assoc]

theorem two_mul_le_iff (q : ℚ) (unsigned : x.isNegative = false) (other : y.isNegative = false) :
    2 * q ≤ x.toRat + y.toRat ↔ 2 * (q * unitsPerOne) ≤ rung x.magnitude + rung y.magnitude := by
  rw [toRat_unsigned unsigned, toRat_unsigned other, ← add_div, le_div_iff₀ unitsPerOne_pos,
    mul_assoc]

theorem le_two_mul_iff (q : ℚ) (unsigned : x.isNegative = false) (other : y.isNegative = false) :
    x.toRat + y.toRat ≤ 2 * q ↔ rung x.magnitude + rung y.magnitude ≤ 2 * (q * unitsPerOne) := by
  rw [toRat_unsigned unsigned, toRat_unsigned other, ← add_div, div_le_iff₀ unitsPerOne_pos,
    mul_assoc]

end Magnitude

/-- The largest significand of a scale and the one that carries into the next. -/
theorem rung_carry (scale : Nat) :
    (rung (scale * 2 ^ 52 + (2 ^ 53 - 1)) + rung (scale * 2 ^ 52 + 2 ^ 53) : ℚ) =
      2 ^ 54 * 2 ^ scale - 2 ^ scale := by
  rw [rung_eq (by norm_num) (by norm_num), rung_eq (by norm_num) (by norm_num)]
  push_cast
  ring

/-- The rationals from halfway above the largest finite double on. -/
theorem overflow_eq :
    2 * (overflow * unitsPerOne) = rung (infiniteMagnitude - 1) + rung infiniteMagnitude := by
  have largest : infiniteMagnitude - 1 = 2045 * 2 ^ 52 + (2 ^ 53 - 1) := by decide
  have above : infiniteMagnitude = 2045 * 2 ^ 52 + 2 ^ 53 := by decide
  rw [largest, above, rung_carry, unitsPerOne_eq, overflow, sub_mul, mul_sub, ← pow_add,
    ← pow_add, ← pow_add, ← pow_succ', ← pow_succ']

section Nearest

variable {q : ℚ} {x y : Double} {p : Nat}

/-- No double with a sign is nearer to a nonnegative rational than zero is. -/
theorem exists_unsigned (nonneg : 0 ≤ q) (finite : y.isFinite = true) :
    ∃ z : Double, z.isFinite = true ∧ z.isNegative = false ∧ |q - z.toRat| ≤ |q - y.toRat| ∧
      (|q - z.toRat| = |q - y.toRat| → z.toRat = y.toRat) := by
  cases sign : y.isNegative with
  | false => exact ⟨y, finite, sign, le_rfl, fun _ => rfl⟩
  | true =>
      have nonpos := toRat_nonpos sign
      have zero : (ofMagnitude 0).toRat = 0 := by
        rw [toRat_ofMagnitude (by decide), rung_zero, Nat.cast_zero, zero_div]
      refine ⟨ofMagnitude 0, isFinite_ofMagnitude (by decide), isNegative_ofMagnitude (by decide),
        ?_, ?_⟩ <;> rw [zero, sub_zero, abs_of_nonneg nonneg, abs_of_nonneg (by linarith)]
      · linarith
      · intro tie
        linarith

theorem nearest_of_nearestRung (nonneg : 0 ≤ q) (nearest : NearestRung (q * unitsPerOne) p)
    (bound : p < infiniteMagnitude) : Nearest q (ofMagnitude p) := by
  have small : p < 2 ^ 63 := Nat.lt_trans bound (by decide)
  have unsigned := isNegative_ofMagnitude small
  have here := magnitude_ofMagnitude small
  generalize ofMagnitude p = x at *
  subst here
  have finite : x.isFinite = true := decide_eq_true bound
  have least (y : Double) (other : y.isNegative = false) : |q - x.toRat| ≤ |q - y.toRat| := by
    rcases Nat.lt_trichotomy x.magnitude y.magnitude with above | same | below
    · rw [abs_sub_le_iff_below ((toRat_lt_iff unsigned other).mpr above),
        two_mul_le_iff q unsigned other]
      exact nearest.above _ above
    · rw [eq_of_magnitude unsigned other same]
    · rw [abs_sub_le_iff_above ((toRat_lt_iff other unsigned).mpr below),
        le_two_mul_iff q other unsigned]
      exact nearest.below _ below
  refine ⟨finite, unsigned, fun y finiteY => ?_, fun y finiteY different tie => ?_⟩
  · obtain ⟨z, _, other, le, _⟩ := exists_unsigned nonneg finiteY
    exact (least z other).trans le
  · obtain ⟨z, _, other, le, same⟩ := exists_unsigned nonneg finiteY
    have closest := least z other
    rw [← same (by linarith)] at different tie
    rw [abs_sub_eq_iff different.symm, two_mul_eq_iff q unsigned other] at tie
    rw [significand_parity]
    refine nearest.even _ ?_ tie
    intro equal
    rw [eq_of_magnitude other unsigned equal] at different
    exact different rfl

theorem Nearest.magnitude_le (nearest : Nearest q x) (other : Nearest q y) :
    x.magnitude ≤ y.magnitude := by
  by_contra above
  have below : y.magnitude < x.magnitude := by omega
  have lt := (toRat_lt_iff other.unsigned nearest.unsigned).mpr below
  have tie := le_antisymm (nearest.least y other.finite) (other.least x nearest.finite)
  have even := nearest.even y other.finite lt.ne tie
  have otherEven := other.even x nearest.finite lt.ne' tie.symm
  rw [significand_parity] at even otherEven
  rw [abs_sub_eq_iff lt.ne'] at tie
  -- The double above an even one is odd, so it lies between the two and is nearer to `q`.
  have bound := magnitude_lt_of_isFinite nearest.finite
  have between : y.magnitude + 1 < infiniteMagnitude := by omega
  have small : y.magnitude + 1 < 2 ^ 63 := Nat.lt_trans between (by decide)
  have unsigned := isNegative_ofMagnitude small
  have here := magnitude_ofMagnitude small
  have finite := isFinite_ofMagnitude between
  generalize ofMagnitude (y.magnitude + 1) = z at *
  have aboveY := (toRat_lt_iff other.unsigned unsigned).mpr (by omega)
  have belowX := (toRat_lt_iff unsigned nearest.unsigned).mpr (by omega)
  have nearer := (abs_sub_le_iff_above belowX).mp (nearest.least z finite)
  linarith

theorem RoundsTo.unique (rounds : RoundsTo q x) (other : RoundsTo q y) : x = y := by
  unfold RoundsTo at rounds other
  split at rounds
  · rename_i large
    rw [if_pos large] at other
    rw [rounds, other]
  · rename_i small
    rw [if_neg small] at other
    exact eq_of_magnitude rounds.unsigned other.unsigned
      (Nat.le_antisymm (rounds.magnitude_le other) (other.magnitude_le rounds))

/-- The nearest rung is below that of infinity exactly if there is no overflow. -/
theorem NearestRung.overflows_iff (nearest : NearestRung (q * unitsPerOne) p) :
    overflow ≤ q ↔ infiniteMagnitude ≤ p := by
  have edge := overflow_eq
  have positive := unitsPerOne_pos
  have last : infiniteMagnitude - 1 < infiniteMagnitude := by decide
  constructor
  · intro large
    by_contra below
    have upper := nearest.above infiniteMagnitude (by omega)
    have scaled := mul_le_mul_of_nonneg_right large positive.le
    have top : (rung p : ℚ) ≤ rung (infiniteMagnitude - 1) :=
      Nat.cast_le.mpr (rung_strictMono.monotone (by omega))
    have even := nearest.even infiniteMagnitude (by omega) (by linarith)
    -- Only the largest finite magnitude is halfway there, and it is odd.
    have same : rung p = rung (infiniteMagnitude - 1) := by
      rw [← Nat.cast_inj (R := ℚ)]
      linarith
    rw [rung_strictMono.injective same] at even
    exact absurd even (by decide)
  · intro large
    have lower := nearest.below (infiniteMagnitude - 1) (by omega)
    have top : (rung infiniteMagnitude : ℚ) ≤ rung p :=
      Nat.cast_le.mpr (rung_strictMono.monotone large)
    exact le_of_mul_le_mul_right (by linarith) positive

theorem roundsTo_of_nearestRung (nonneg : 0 ≤ q) (nearest : NearestRung (q * unitsPerOne) p) :
    RoundsTo q (ofMagnitude (min p infiniteMagnitude)) := by
  unfold RoundsTo
  split
  · rename_i large
    rw [Nat.min_eq_right (nearest.overflows_iff.mp large)]
    rfl
  · rename_i small
    rw [nearest.overflows_iff] at small
    rw [Nat.min_eq_left (by omega)]
    exact nearest_of_nearestRung nonneg nearest (by omega)

end Nearest

section RoundsTo

variable {q r : ℚ} {x y : Double}

theorem roundsTo_nearest (n d : Nat) (positive : 0 < d) : RoundsTo (n / d) (nearest n d) := by
  have rung := roundedPattern_nearestRung n d positive
  rw [mul_div_right_comm] at rung
  exact roundsTo_of_nearestRung (div_nonneg (Nat.cast_nonneg n) (Nat.cast_nonneg d)) rung

theorem exists_nearestRung (nonneg : 0 ≤ q) : ∃ p, NearestRung (q * unitsPerOne) p := by
  have rung := roundedPattern_nearestRung q.num.toNat q.den q.den_pos
  have numerator : ((q.num.toNat : Nat) : ℚ) = q.num := by
    exact_mod_cast Int.toNat_of_nonneg (Rat.num_nonneg.mpr nonneg)
  rw [mul_div_right_comm, numerator, Rat.num_div_den] at rung
  exact ⟨_, rung⟩

theorem exists_roundsTo (nonneg : 0 ≤ q) : ∃ x, RoundsTo q x := by
  obtain ⟨_, nearest⟩ := exists_nearestRung nonneg
  exact ⟨_, roundsTo_of_nearestRung nonneg nearest⟩

/-- What a nonnegative rational is rounded to, by its nearest rung. -/
theorem RoundsTo.exists_rung (rounds : RoundsTo q x) (nonneg : 0 ≤ q) :
    ∃ p, NearestRung (q * unitsPerOne) p ∧ x = ofMagnitude (min p infiniteMagnitude) := by
  obtain ⟨p, nearest⟩ := exists_nearestRung nonneg
  exact ⟨p, nearest, rounds.unique (roundsTo_of_nearestRung nonneg nearest)⟩

theorem min_infiniteMagnitude_lt (p : Nat) : min p infiniteMagnitude < 2 ^ 63 :=
  Nat.lt_of_le_of_lt (Nat.min_le_right _ _) (by decide)

theorem RoundsTo.unsigned (rounds : RoundsTo q x) (nonneg : 0 ≤ q) : x.isNegative = false := by
  obtain ⟨p, _, rfl⟩ := rounds.exists_rung nonneg
  exact isNegative_ofMagnitude (min_infiniteMagnitude_lt p)

theorem RoundsTo.magnitude_le_infinite (rounds : RoundsTo q x) (nonneg : 0 ≤ q) :
    x.magnitude ≤ infiniteMagnitude := by
  obtain ⟨p, _, rfl⟩ := rounds.exists_rung nonneg
  rw [magnitude_ofMagnitude (min_infiniteMagnitude_lt p)]
  exact Nat.min_le_right _ _

theorem RoundsTo.number (rounds : RoundsTo q x) (nonneg : 0 ≤ q) : x.isNaN = false :=
  decide_eq_false (Nat.not_lt.mpr (rounds.magnitude_le_infinite nonneg))

/-- Rounding keeps the order, with respect to the patterns. -/
theorem RoundsTo.magnitude_mono (rounds : RoundsTo q x) (other : RoundsTo r y) (nonneg : 0 ≤ q)
    (le : q ≤ r) : x.magnitude ≤ y.magnitude := by
  obtain ⟨p, nearest, rfl⟩ := rounds.exists_rung nonneg
  obtain ⟨j, otherNearest, rfl⟩ := other.exists_rung (nonneg.trans le)
  have scaled := mul_le_mul_of_nonneg_right le unitsPerOne_pos.le
  have order := nearest.mono otherNearest scaled
  rw [magnitude_ofMagnitude (min_infiniteMagnitude_lt p),
    magnitude_ofMagnitude (min_infiniteMagnitude_lt j)]
  omega

/-- What is rounded to a double has no gaps. -/
theorem RoundsTo.between {a b : ℚ} (low : RoundsTo a x) (high : RoundsTo b x) (nonneg : 0 ≤ a)
    (le : a ≤ q) (ge : q ≤ b) : RoundsTo q x := by
  have nonnegQ := nonneg.trans le
  obtain ⟨y, rounds⟩ := exists_roundsTo nonnegQ
  have same : y = x := by
    apply eq_of_magnitude (rounds.unsigned nonnegQ) (low.unsigned nonneg)
    exact Nat.le_antisymm (rounds.magnitude_mono high nonnegQ ge)
      (low.magnitude_mono rounds nonneg le)
  rwa [same] at rounds

theorem atMost_of_magnitude (unsigned : x.isNegative = false) (other : y.isNegative = false)
    (le : x.magnitude ≤ y.magnitude) (bound : y.magnitude ≤ infiniteMagnitude) : AtMost x y := by
  rcases Nat.lt_or_eq_of_le bound with below | top
  · have right : y.isFinite = true := decide_eq_true below
    have left : x.isFinite = true := decide_eq_true (by omega)
    refine .finite left right ?_
    by_contra above
    rw [not_le, toRat_lt_iff other unsigned] at above
    omega
  · have same : y = infinity := eq_of_magnitude other rfl top
    subst same
    exact .infinity (decide_eq_false (by omega))

theorem RoundsTo.atMost (rounds : RoundsTo q x) (other : RoundsTo r y) (nonneg : 0 ≤ q)
    (le : q ≤ r) : AtMost x y :=
  atMost_of_magnitude (rounds.unsigned nonneg) (other.unsigned (nonneg.trans le))
    (rounds.magnitude_mono other nonneg le) (other.magnitude_le_infinite (nonneg.trans le))

theorem RoundsTo.infinity_iff (rounds : RoundsTo q x) : x = infinity ↔ overflow ≤ q := by
  unfold RoundsTo at rounds
  split at rounds
  · rename_i large
    exact ⟨fun _ => large, fun _ => rounds⟩
  · rename_i small
    refine ⟨?_, fun large => absurd large small⟩
    rintro rfl
    have finite := rounds.finite
    contradiction

/-- Half of the smallest double and all below it are rounded to zero. -/
theorem RoundsTo.zero_iff (rounds : RoundsTo q x) (nonneg : 0 ≤ q) :
    x = ofMagnitude 0 ↔ q ≤ 1 / 2 ^ 1075 := by
  obtain ⟨p, nearest, rfl⟩ := rounds.exists_rung nonneg
  have half : q ≤ 1 / 2 ^ 1075 ↔ 2 * (q * unitsPerOne) ≤ 1 := by
    rw [le_div_iff₀ (pow_pos two_pos _), unitsPerOne_eq, pow_succ' (2 : ℚ), mul_left_comm]
  have zero : ofMagnitude (min p infiniteMagnitude) = ofMagnitude 0 ↔ p = 0 := by
    constructor
    · intro same
      have magnitudes := congrArg magnitude same
      rw [magnitude_ofMagnitude (min_infiniteMagnitude_lt p),
        magnitude_ofMagnitude (by decide)] at magnitudes
      have positive : 0 < infiniteMagnitude := by decide
      omega
    · rintro rfl
      rfl
  rw [zero, half]
  constructor
  · rintro rfl
    have upper := nearest.above 1 Nat.one_pos
    rw [rung_zero, rung_one, Nat.cast_zero, Nat.cast_one, zero_add] at upper
    exact upper
  · intro small
    by_contra nonzero
    have lower := nearest.below 0 (by omega)
    have least : rung 1 ≤ rung p := rung_strictMono.monotone (by omega)
    have leastCast : (1 : ℚ) ≤ rung p := by
      rw [rung_one] at least
      exact_mod_cast least
    rw [rung_zero, Nat.cast_zero, zero_add] at lower
    have same : rung p = rung 1 := by
      rw [rung_one]
      exact_mod_cast le_antisymm (lower.trans small) leastCast
    have even := nearest.even 0 (by omega) (by rw [rung_zero, Nat.cast_zero]; linarith)
    rw [rung_strictMono.injective same] at even
    contradiction

theorem roundsTo_toRat (finite : x.isFinite = true) (unsigned : x.isNegative = false) :
    RoundsTo x.toRat x := by
  have bound := magnitude_lt_of_isFinite finite
  have order {j k : Nat} (lt : j < k) : (rung j : ℚ) < rung k :=
    Nat.cast_lt.mpr (rung_strictMono lt)
  have here : x.toRat * unitsPerOne = rung x.magnitude := by
    rw [toRat_unsigned unsigned, div_mul_cancel₀ _ unitsPerOne_pos.ne']
  have nearest : NearestRung (x.toRat * unitsPerOne) x.magnitude := by
    rw [here]
    refine ⟨fun j above => ?_, fun j below => ?_, fun j other tie => ?_⟩
    · linarith [order above]
    · linarith [order below]
    · rcases Nat.lt_or_gt_of_ne other with below | above
      · linarith [order below]
      · linarith [order above]
  have rounds := roundsTo_of_nearestRung (toRat_nonneg unsigned) nearest
  rwa [Nat.min_eq_left bound.le, ← eq_ofMagnitude unsigned] at rounds

end RoundsTo

end LoxLex.Double
