import LoxLex.Proofs.Digits

/-! The search for the fewest digits that read back.

All that is rounded to a double lies together.  So a grid has a point that reads back exactly
if one of the double's two neighbours does, and a decimal with few digits that reads back is
not lost between the points: it is on its grid, or the power of ten that opens the grid is
nearer to the double.
-/

namespace LoxLex.Double

namespace Grids

variable {grids : Grids} {n point : Nat}

/-- The rational at a point of the grid with `n` digits. -/
def value (grids : Grids) (n point : Nat) : ℚ := point * 10 ^ ((grids.place : ℤ) - n - 324)

theorem value_eq (grids : Grids) (n point : Nat) :
    grids.value n point =
      (point * Nat.pow 10 grids.place : Nat) / (Nat.pow 10 (324 + n) : Nat) := by
  have exponent : (grids.place : ℤ) - n - 324 = (grids.place : ℤ) - (324 + n : Nat) := by
    push_cast
    ring
  rw [value, exponent, ten_zpow_sub, zpow_natCast, mul_div_assoc', Nat.pow_eq, Nat.pow_eq]
  push_cast
  rfl

theorem value_nonneg (grids : Grids) (n point : Nat) : 0 ≤ grids.value n point := by
  rw [value_eq]
  positivity

theorem value_mono {other : Nat} (le : point ≤ other) : grids.value n point ≤ grids.value n other :=
  mul_le_mul_of_nonneg_right (Nat.cast_le.mpr le) (zpow_nonneg (by decide) _)

theorem value_pow (grids : Grids) (n m : Nat) :
    grids.value n (10 ^ m) = 10 ^ ((grids.place : ℤ) - n - 324 + m) := by
  rw [value, ten_zpow_add, mul_comm]

theorem denominator_pos (grids : Grids) : 0 < grids.denominator :=
  Nat.mul_pos (Nat.cast_pos.mp unitsPerOne_pos) (Nat.pow_pos (by decide))

/-- The double lies between two neighbours on the grid. -/
theorem value_le_iff (unsigned : grids.double.isNegative = false) :
    grids.value n point ≤ grids.double.toRat ↔ point ≤ grids.below n := by
  have scale : (0 : ℚ) < (Nat.pow 10 (324 + n) : Nat) := Nat.cast_pos.mpr (Nat.pow_pos (by decide))
  rw [value_eq, toRat_eq_units unsigned, div_le_div_iff₀ scale unitsPerOne_pos, below,
    Nat.le_div_iff_mul_le grids.denominator_pos, ← Nat.cast_mul, ← Nat.cast_mul, Nat.cast_le,
    denominator, numerator, Nat.mul_assoc, Nat.mul_comm (Nat.pow 10 grids.place)]

theorem readsBack_iff (unsigned : grids.double.isNegative = false) :
    grids.readsBack n point = true ↔ RoundsTo (grids.value n point) grids.double := by
  have nonneg := grids.value_nonneg n point
  have rounds := roundsTo_nearest (point * Nat.pow 10 grids.place) (Nat.pow 10 (324 + n))
    (Nat.pow_pos (by decide))
  rw [← value_eq] at rounds
  rw [readsBack, beq_iff_eq]
  constructor
  · intro same
    rwa [eq_of_magnitude (rounds.unsigned nonneg) unsigned same] at rounds
  · intro other
    rw [rounds.unique other]

/-- Of the grid's points one of the two neighbours is chosen, if it reads back. -/
theorem point?_eq_some (found : grids.point? n = some point) :
    grids.readsBack n point = true ∧ grids.below n ≤ point ∧ point ≤ grids.below n + 1 := by
  have low : grids.below n ≤ _ := div_le_roundHalfEven (grids.numerator n) grids.denominator
  have high : _ ≤ grids.below n + 1 := roundHalfEven_le (grids.numerator n) grids.denominator
  unfold point? at found
  -- As variables the neighbours are not computed when the cases are compared.
  generalize grids.readsBack n = reads, grids.below n = below, roundHalfEven _ _ = nearer at *
  dsimp only at found
  split at found
  · rename_i atBelow
    split at found
    · rename_i atAbove
      cases found
      refine ⟨?_, low, high⟩
      rcases Nat.lt_or_eq_of_le high with less | same
      · rwa [show point = below by omega]
      · rwa [same]
    · cases found
      exact ⟨atBelow, Nat.le_refl _, Nat.le_succ _⟩
  · split at found
    · rename_i atAbove
      cases found
      exact ⟨atAbove, Nat.le_succ _, Nat.le_refl _⟩
    · contradiction

theorem readsBack_of_none (missing : grids.point? n = none) :
    grids.readsBack n (grids.below n) ≠ true ∧ grids.readsBack n (grids.below n + 1) ≠ true := by
  unfold point? at missing
  generalize grids.readsBack n = reads, grids.below n = below at *
  dsimp only at missing
  split at missing
  · split at missing <;> contradiction
  · split at missing
    · contradiction
    · exact ⟨‹_›, ‹_›⟩

/-- A grid with any point that reads back has one at the double. -/
theorem exists_point (finite : grids.double.isFinite = true)
    (unsigned : grids.double.isNegative = false)
    (rounds : RoundsTo (grids.value n point) grids.double) : grids.point? n ≠ none := by
  intro missing
  have itself := roundsTo_toRat finite unsigned
  obtain ⟨notBelow, notAbove⟩ := readsBack_of_none missing
  rcases Nat.lt_or_ge (grids.below n) point with above | below
  · have beyond : grids.double.toRat ≤ grids.value n (grids.below n + 1) := by
      rw [← not_lt]
      intro less
      have le := (value_le_iff unsigned).mp less.le
      omega
    have between := itself.between rounds (toRat_nonneg unsigned) beyond (value_mono above)
    exact notAbove ((readsBack_iff unsigned).mpr between)
  · have le := (value_le_iff unsigned).mpr (Nat.le_refl (grids.below n))
    have between := rounds.between itself (grids.value_nonneg n point) (value_mono below) le
    exact notBelow ((readsBack_iff unsigned).mpr between)

theorem mem_front {count k j : Nat} {front back : List Nat}
    (split : List.range' 1 count = front ++ k :: back) (least : 1 ≤ j) (less : j < k) :
    j ∈ front := by
  obtain ⟨m, _, rfl, tail⟩ := List.range'_eq_append_iff.mp split
  obtain ⟨same, _⟩ := List.range'_eq_cons_iff.mp tail.symm
  rw [List.mem_range'_1]
  omega

/-- The search stops at the first grid that has a point, unless none of them has. -/
theorem first_eq (inside : 1 ≤ n ∧ n ≤ grids.exactDigits) (has : grids.point? n ≠ none) :
    ∃ m point, grids.first = (m, point) ∧ 1 ≤ m ∧ grids.point? m = some point ∧
      ∀ k, 1 ≤ k → k < m → grids.point? k = none := by
  obtain ⟨point, there⟩ := Option.ne_none_iff_exists'.mp has
  have found : ((List.range' 1 grids.exactDigits).findSome? fun n =>
      (grids.point? n).map (n, ·)).isSome = true := by
    rw [List.findSome?_isSome_iff]
    refine ⟨n, List.mem_range'_1.mpr (by omega), ?_⟩
    rw [Option.isSome_map, there]
    rfl
  obtain ⟨⟨m, point⟩, here⟩ := Option.isSome_iff_exists.mp found
  have same : grids.first = (m, point) := by rw [first, here, Option.getD_some]
  obtain ⟨front, k, back, split, atK, before⟩ := List.findSome?_eq_some_iff.mp here
  obtain ⟨_, atM, pair⟩ := Option.map_eq_some_iff.mp atK
  obtain ⟨rfl, rfl⟩ := Prod.mk.inj pair
  have inRange : k ∈ List.range' 1 grids.exactDigits := by
    rw [split]
    exact List.mem_append_right _ List.mem_cons_self
  refine ⟨k, _, same, (List.mem_range'_1.mp inRange).1, atM, fun j least less => ?_⟩
  exact Option.map_eq_none_iff.mp (before j (mem_front split least less))

end Grids

/-- A finite double above zero. -/
structure IsPositive (x : Double) : Prop where
  finite : x.isFinite = true
  unsigned : x.isNegative = false
  nonzero : x.magnitude ≠ 0

section Place

variable {x : Double} {n point : Nat}

/-- The grids that the digits of a double are looked up in. -/
def grids (x : Double) : Grids := ⟨x, x.place⟩

theorem grids_place (x : Double) : x.grids.place = x.place := rfl

theorem IsPositive.units (positive : IsPositive x) : 0 < x.units := by
  rw [units_eq, ← rung_zero]
  exact rung_strictMono (Nat.pos_of_ne_zero positive.nonzero)

theorem pow_le_div_iff {u d p a : Nat} (positive : 0 < d) :
    10 ^ p * d ≤ u * 10 ^ a ↔ (10 : ℚ) ^ ((p : ℤ) - a) ≤ u / d := by
  have scale : (0 : ℚ) < 10 ^ a := by positivity
  rw [le_div_iff₀ (Nat.cast_pos.mpr positive), ten_zpow_sub, zpow_natCast, div_mul_eq_mul_div,
    div_le_iff₀ scale]
  norm_cast

theorem place_bounds (positive : IsPositive x) :
    10 ^ ((x.place : ℤ) - 325) ≤ x.toRat ∧ x.toRat < 10 ^ ((x.place : ℤ) - 324) := by
  have perOne : 0 < unitsPerOne := Nat.cast_pos.mp unitsPerOne_pos
  obtain ⟨a, least⟩ : ∃ a, 324 = a := ⟨_, rfl⟩
  have small : unitsPerOne ≤ 10 ^ a := by
    rw [← least]
    decide +kernel
  have digits : x.place = (Nat.toDigits 10 (x.units * 10 ^ a / unitsPerOne)).length := by
    rw [place, least]
    rfl
  have whole : 0 < x.units * 10 ^ a / unitsPerOne :=
    Nat.div_pos (small.trans (Nat.le_mul_of_pos_left _ positive.units)) perOne
  have low := (Nat.le_div_iff_mul_le perOne).mp (le_of_toDigits whole)
  have high := (Nat.div_lt_iff_lt_mul perOne).mp (lt_of_toDigits (x.units * 10 ^ a / unitsPerOne))
  have length : 0 < (Nat.toDigits 10 (x.units * 10 ^ a / unitsPerOne)).length :=
    Nat.length_toDigits_pos
  rw [← digits] at low high length
  rw [pow_le_div_iff perOne] at low
  rw [← not_le, pow_le_div_iff perOne, not_le] at high
  rw [toRat_eq_units positive.unsigned]
  rw [show ((x.place - 1 : Nat) : ℤ) - a = x.place - 325 by omega] at low
  rw [show (x.place : ℤ) - a = x.place - 324 by omega] at high
  exact ⟨low, high⟩

theorem below_bounds (positive : IsPositive x) (n : Nat) :
    10 ^ n ≤ x.grids.below (n + 1) ∧ x.grids.below (n + 1) < 10 ^ (n + 1) := by
  obtain ⟨low, high⟩ := place_bounds positive
  have first : x.grids.value (n + 1) (10 ^ n) = 10 ^ ((x.place : ℤ) - 325) := by
    rw [Grids.value_pow, grids_place]
    congr 1
    push_cast
    ring
  have last : x.grids.value (n + 1) (10 ^ (n + 1)) = 10 ^ ((x.place : ℤ) - 324) := by
    rw [Grids.value_pow, grids_place]
    congr 1
    push_cast
    ring
  rw [← not_le, ← Grids.value_le_iff positive.unsigned, ← Grids.value_le_iff positive.unsigned,
    first, last, not_le]
  exact ⟨low, high⟩

/-- Every point that is chosen has the digits of its grid, or is the power of ten behind them. -/
theorem point_bounds (positive : IsPositive x) (found : x.grids.point? (n + 1) = some point) :
    10 ^ n ≤ point ∧ point ≤ 10 ^ (n + 1) := by
  obtain ⟨low, high⟩ := below_bounds positive n
  obtain ⟨_, above, next⟩ := Grids.point?_eq_some found
  omega

/-- A double in binary is a decimal with as many places. -/
theorem div_pow_two (u m : Nat) : (u : ℚ) / 2 ^ m = (u * 5 ^ m : Nat) * 10 ^ (-(m : ℤ)) := by
  rw [zpow_neg, zpow_natCast, show (10 : ℚ) = 2 * 5 by norm_num, mul_pow]
  push_cast
  field_simp

theorem exists_exact (positive : IsPositive x) :
    ∃ point, x.grids.value x.grids.exactDigits point = x.toRat := by
  refine ⟨x.units * 5 ^ 1074, ?_⟩
  have places : (x.grids.place : ℤ) - x.grids.exactDigits - 324 = -(1074 : Nat) := by
    rw [Grids.exactDigits]
    omega
  rw [toRat_eq_units positive.unsigned, unitsPerOne_eq, Grids.value, places]
  generalize 1074 = m
  exact (div_pow_two x.units m).symm

/-- A decimal that is rounded to the double and has few digits leaves a point on their grid. -/
theorem point?_of_short (positive : IsPositive x) {k : Nat} {e : ℤ}
    (rounds : RoundsTo (k * 10 ^ e) x) (few : k < 10 ^ (n + 1)) :
    x.grids.point? (n + 1) ≠ none := by
  rcases Int.lt_or_le e ((x.place : ℤ) - (n + 1 : Nat) - 324) with fine | coarse
  · -- Below the unit of the grid, all that short decimals reach is its first power of ten.
    have itself := roundsTo_toRat positive.finite positive.unsigned
    have first := (Grids.value_le_iff positive.unsigned).mpr (below_bounds positive n).1
    have short : (k : ℚ) * 10 ^ e ≤ x.grids.value (n + 1) (10 ^ n) := by
      calc (k : ℚ) * 10 ^ e ≤ (10 ^ (n + 1) : Nat) * 10 ^ e :=
            mul_le_mul_of_nonneg_right (Nat.cast_le.mpr few.le) (zpow_nonneg (by decide) e)
        _ = 10 ^ (e + (n + 1 : Nat)) := by rw [ten_zpow_add, mul_comm]
        _ ≤ x.grids.value (n + 1) (10 ^ n) := by
            rw [Grids.value_pow, grids_place]
            apply zpow_le_zpow_right₀ (by norm_num)
            push_cast at fine ⊢
            omega
    have nonneg : (0 : ℚ) ≤ k * 10 ^ e :=
      mul_nonneg (Nat.cast_nonneg k) (zpow_nonneg (by decide) e)
    apply Grids.exists_point positive.finite positive.unsigned
    exact rounds.between itself nonneg short first
  · obtain ⟨j, up⟩ := Int.le.dest coarse
    have onGrid : x.grids.value (n + 1) (k * 10 ^ j) = k * 10 ^ e := by
      rw [Grids.value, grids_place, ← up, ten_zpow_add]
      push_cast
      ring
    rw [← onGrid] at rounds
    exact Grids.exists_point positive.finite positive.unsigned rounds

/-- The first of the grids with a point of their own. -/
theorem exists_first (positive : IsPositive x) :
    ∃ n point, x.grids.first = (n + 1, point) ∧ x.grids.point? (n + 1) = some point ∧
      ∀ k < n, x.grids.point? (k + 1) = none := by
  obtain ⟨exact, holds⟩ := exists_exact positive
  have itself := roundsTo_toRat positive.finite positive.unsigned
  rw [← holds] at itself
  have some : 1 ≤ x.grids.exactDigits := by
    rw [Grids.exactDigits]
    omega
  obtain ⟨m, point, found, least, there, before⟩ := Grids.first_eq ⟨some, Nat.le_refl _⟩
    (Grids.exists_point positive.finite positive.unsigned itself)
  obtain ⟨n, rfl⟩ := Nat.exists_eq_add_of_le' least
  exact ⟨n, point, found, there, fun k less => before (k + 1) (by omega) (by omega)⟩

end Place

namespace Significant

variable {s : Significant}

/-- What the digits count, the first of them at the exponent. -/
def value (s : Significant) : ℚ :=
  Text.wholeValue s.digits * 10 ^ (s.exponent - s.digits.length + 1)

theorem value_bounds (significant : IsSignificant s.digits) :
    10 ^ s.exponent ≤ s.value ∧ s.value < 10 ^ (s.exponent + 1) := by
  have low := pow_le_wholeValue significant
  have high := wholeValue_lt significant.isDigits.2
  have length := List.length_pos_iff.mpr significant.isDigits.1
  have unit : (0 : ℚ) < 10 ^ (s.exponent - s.digits.length + 1) := zpow_pos (by decide) _
  constructor
  · rw [show s.exponent = s.exponent - s.digits.length + 1 + (s.digits.length - 1 : Nat) by omega,
      ten_zpow_add, mul_comm]
    exact mul_le_mul_of_nonneg_right (Nat.cast_le.mpr low) unit.le
  · rw [show s.exponent + 1 = s.exponent - s.digits.length + 1 + s.digits.length by omega,
      ten_zpow_add, mul_comm]
    exact mul_lt_mul_of_pos_right (Nat.cast_lt.mpr high) unit

theorem le_exponent_iff (significant : IsSignificant s.digits) (j : ℤ) :
    j ≤ s.exponent ↔ 10 ^ j ≤ s.value := by
  obtain ⟨low, high⟩ := value_bounds significant
  constructor
  · intro le
    exact (zpow_le_zpow_right₀ (by norm_num) le).trans low
  · intro le
    have less := (zpow_lt_zpow_iff_right₀ (by norm_num)).mp (le.trans_lt high)
    omega

end Significant

section Shortest

variable {x : Double} {s : Significant} {n point : Nat}

theorem shortest_eq (found : x.grids.first = (n, point)) :
    x.shortest = ⟨stripZeros (Nat.toDigits 10 point),
      (x.place : ℤ) - n - 324 + (Nat.toDigits 10 point).length - 1⟩ := by
  unfold shortest
  rw [← grids]
  dsimp only
  rw [found, grids_place]

theorem value_shortest (found : x.grids.first = (n, point)) :
    x.shortest.value = x.grids.value n point := by
  obtain ⟨m, parts⟩ := stripZeros_append (Nat.toDigits 10 point)
  have counts := wholeValue_toDigits point
  have length := congrArg List.length parts
  rw [parts, wholeValue_append_zeros] at counts
  rw [List.length_append, zeros, List.length_replicate] at length
  rw [shortest_eq found, Significant.value, Grids.value, grids_place]
  dsimp only
  generalize stripZeros (Nat.toDigits 10 point) = digits, (Nat.toDigits 10 point).length = all at *
  rw [show (x.place : ℤ) - n - 324 + all - 1 - digits.length + 1 = x.place - n - 324 + m by omega,
    ten_zpow_add, ← counts]
  push_cast
  ring

theorem not_roundsTo_zero (positive : IsPositive x) : ¬ RoundsTo 0 x := by
  intro rounds
  have none : x.magnitude = 0 := by
    rw [(rounds.zero_iff le_rfl).mpr (by positivity)]
    exact magnitude_ofMagnitude (by decide)
  exact positive.nonzero none

/-- A decimal that is rounded to the double has no fewer digits than the first grid with a point. -/
theorem le_of_short (positive : IsPositive x) (before : ∀ k < n, x.grids.point? (k + 1) = none)
    {k few : Nat} {e : ℤ} (rounds : RoundsTo (k * 10 ^ e) x) (short : k < 10 ^ few) :
    n + 1 ≤ few := by
  rcases few with _ | few
  · rw [Nat.lt_one_iff.mp short, Nat.cast_zero, zero_mul] at rounds
    exact absurd rounds (not_roundsTo_zero positive)
  · have there := point?_of_short positive rounds short
    have least : ¬ few < n := fun less => there (before few less)
    omega

/-- A power of ten that the double reaches is reached on each grid from its first point on. -/
theorem pow_le_value (positive : IsPositive x) (first : 10 ^ n ≤ point) {j : ℤ}
    (le : 10 ^ j ≤ x.toRat) : 10 ^ j ≤ x.grids.value (n + 1) point := by
  have above := le.trans_lt (place_bounds positive).2
  rw [zpow_lt_zpow_iff_right₀ (by norm_num)] at above
  calc (10 : ℚ) ^ j ≤ x.grids.value (n + 1) (10 ^ n) := by
        rw [Grids.value_pow, grids_place]
        apply zpow_le_zpow_right₀ (by norm_num)
        push_cast
        omega
    _ ≤ x.grids.value (n + 1) point := Grids.value_mono first

/-- Digits that read back as a double, and no fewer of which do. -/
structure IsShortest (x : Double) (s : Significant) : Prop where
  significant : IsSignificant s.digits
  roundsTo : RoundsTo s.value x
  fewest : ∀ (k n : Nat) (e : ℤ), RoundsTo (k * 10 ^ e) x → k < 10 ^ n → s.digits.length ≤ n
  power : ∀ j : ℤ, 10 ^ j ≤ x.toRat → 10 ^ j ≤ s.value

theorem isShortest_shortest (positive : IsPositive x) : IsShortest x x.shortest := by
  obtain ⟨n, point, found, there, before⟩ := exists_first positive
  obtain ⟨low, high⟩ := point_bounds positive there
  have counted : 0 < point := Nat.lt_of_lt_of_le (Nat.pow_pos (by decide)) low
  refine ⟨?_, ?_, fun k few e rounds short => ?_, fun j le => ?_⟩
  · rw [shortest_eq found]
    exact isSignificant_stripZeros counted
  · rw [value_shortest found]
    exact (Grids.readsBack_iff positive.unsigned).mp (Grids.point?_eq_some there).1
  · rw [shortest_eq found]
    have digits := length_stripZeros_le high (Nat.succ_pos n)
    exact digits.trans (le_of_short positive before rounds short)
  · rw [value_shortest found]
    exact pow_le_value positive low le

/-- A double that a rational is rounded to is not below a fraction that the rational is not
below, if the fraction's own double is not. -/
theorem le_toRat_of_roundsTo {q : ℚ} {k d : Nat} (positive : 0 < d)
    (edge : k * unitsPerOne ≤ (nearest k d).units * d) (rounds : RoundsTo q x)
    (le : (k : ℚ) / d ≤ q) : (k : ℚ) / d ≤ x.toRat := by
  have nonneg : (0 : ℚ) ≤ k / d := div_nonneg (Nat.cast_nonneg k) (Nat.cast_nonneg d)
  have edgeRounds := roundsTo_nearest k d positive
  have order := edgeRounds.magnitude_mono rounds nonneg le
  rw [toRat_unsigned (rounds.unsigned (nonneg.trans le)),
    div_le_div_iff₀ (Nat.cast_pos.mpr positive) unitsPerOne_pos]
  have rungs : rung (nearest k d).magnitude ≤ rung x.magnitude := rung_strictMono.monotone order
  have scaled := edge.trans (Nat.mul_le_mul_right d rungs)
  exact_mod_cast scaled

/-- Both ends of the positional range are powers of ten from which no rounding leads down. -/
theorem IsShortest.isPositional_iff (shortest : IsShortest x s) :
    Significant.isPositional s.exponent = true ↔ 1 / 10 ^ 4 ≤ x.toRat ∧ x.toRat < 10 ^ 16 := by
  have small : (10 : ℚ) ^ (-4 : ℤ) = (1 : Nat) / (10000 : Nat) := by norm_num
  have large : (10 : ℚ) ^ (16 : ℤ) = (10000000000000000 : Nat) / (1 : Nat) := by norm_num
  have lower : (10 : ℚ) ^ (-4 : ℤ) ≤ s.value ↔ (10 : ℚ) ^ (-4 : ℤ) ≤ x.toRat := by
    refine ⟨fun le => ?_, shortest.power (-4)⟩
    rw [small] at le ⊢
    exact le_toRat_of_roundsTo (by decide) (by decide +kernel) shortest.roundsTo le
  have upper : (10 : ℚ) ^ (16 : ℤ) ≤ s.value ↔ (10 : ℚ) ^ (16 : ℤ) ≤ x.toRat := by
    refine ⟨fun le => ?_, shortest.power 16⟩
    rw [large] at le ⊢
    exact le_toRat_of_roundsTo (by decide) (by decide +kernel) shortest.roundsTo le
  have least : (10 : ℚ) ^ (-4 : ℤ) = 1 / 10 ^ 4 := by norm_num
  rw [Significant.isPositional, decide_eq_true_iff, ← not_le,
    Significant.le_exponent_iff shortest.significant,
    Significant.le_exponent_iff shortest.significant, lower, upper, not_le, least, zpow_ofNat]

end Shortest

end LoxLex.Double
