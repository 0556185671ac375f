import LoxLex.Number.Double
import Mathlib.Algebra.Order.Field.Basic
import Mathlib.Order.Monotone.Basic
import Mathlib.Tactic.Linarith
import Mathlib.Tactic.Ring

/-! The magnitudes of doubles as a ladder.

A finite magnitude is a rung of a ladder that goes up with its pattern and has no end: above
the largest finite magnitude it goes on as if there were larger exponents.  A rational, in
units of `2 ^ -1074`, has one nearest rung if of two equally near ones the even one counts,
and that rung is the pattern that it is rounded to.
-/

namespace LoxLex

/-- Half a unit is the most that rounding moves a quotient, and it moves that far only to an
even integer. -/
theorem roundHalfEven_bounds (n d : Nat) (positive : 0 < d) :
    2 * n ≤ (2 * roundHalfEven n d + 1) * d ∧ 2 * roundHalfEven n d * d ≤ 2 * n + d ∧
      (2 * n = (2 * roundHalfEven n d + 1) * d ∨ 2 * roundHalfEven n d * d = 2 * n + d →
        roundHalfEven n d % 2 = 0) := by
  have whole := Nat.div_add_mod n d
  have part := Nat.mod_lt n positive
  have even (k : Nat) : 2 * k * d = 2 * (d * k) := by ring
  have odd (k : Nat) : (2 * k + 1) * d = 2 * (d * k) + d := by ring
  have next : d * (n / d + 1) = d * (n / d) + d := by ring
  unfold roundHalfEven
  split
  · rw [even, odd]
    omega
  · rw [even, odd, next]
    omega

theorem div_le_roundHalfEven (n d : Nat) : n / d ≤ roundHalfEven n d := by
  unfold roundHalfEven
  split <;> omega

theorem roundHalfEven_le (n d : Nat) : roundHalfEven n d ≤ n / d + 1 := by
  unfold roundHalfEven
  split <;> omega

namespace Double

/-- How many units of `2 ^ -1074` a pattern without its sign counts. -/
def rung (p : Nat) : Nat :=
  (if p < 2 ^ 52 then p else p % 2 ^ 52 + 2 ^ 52) * 2 ^ (p / 2 ^ 52 - 1)

theorem units_eq (x : Double) : x.units = rung x.magnitude := rfl

theorem rung_zero : rung 0 = 0 := by decide

theorem rung_one : rung 1 = 1 := by decide

section Rung

variable {scale significand : Nat}

theorem rung_below (normal : 2 ^ 52 ≤ significand ∨ scale = 0) (bound : significand < 2 ^ 53) :
    rung (scale * 2 ^ 52 + significand) = significand * 2 ^ scale := by
  unfold rung
  split
  · have subnormal : scale = 0 := by omega
    have exponent : (0 * 2 ^ 52 + significand) / 2 ^ 52 = 0 := by omega
    rw [subnormal, exponent, Nat.zero_mul, Nat.zero_add]
  · have exponent : (scale * 2 ^ 52 + significand) / 2 ^ 52 = scale + 1 := by omega
    have fraction : (scale * 2 ^ 52 + significand) % 2 ^ 52 + 2 ^ 52 = significand := by omega
    rw [exponent, fraction, Nat.add_sub_cancel]

/-- A significand that is one too large is the least one of the next scale. -/
theorem rung_eq (normal : 2 ^ 52 ≤ significand ∨ scale = 0) (bound : significand ≤ 2 ^ 53) :
    rung (scale * 2 ^ 52 + significand) = significand * 2 ^ scale := by
  rcases Nat.lt_or_eq_of_le bound with below | rfl
  · exact rung_below normal below
  · have carried : scale * 2 ^ 52 + 2 ^ 53 = (scale + 1) * 2 ^ 52 + 2 ^ 52 := by ring
    rw [carried, rung_below (.inl (Nat.le_refl _)) (by norm_num), pow_succ 2 scale]
    ring

theorem exists_scale (p : Nat) :
    ∃ scale significand, p = scale * 2 ^ 52 + significand ∧ significand < 2 ^ 53 ∧
      (2 ^ 52 ≤ significand ∨ scale = 0) :=
  ⟨p / 2 ^ 52 - 1, p - (p / 2 ^ 52 - 1) * 2 ^ 52, by omega, by omega, by omega⟩

theorem rung_strictMono : StrictMono rung := by
  refine strictMono_nat_of_lt_succ fun p => ?_
  obtain ⟨scale, significand, rfl, bound, normal⟩ := exists_scale p
  rw [Nat.add_assoc, rung_eq normal bound.le, rung_eq (by omega) (by omega)]
  exact Nat.mul_lt_mul_of_pos_right (Nat.lt_succ_self _) (Nat.two_pow_pos scale)

end Rung

/-- No rung is nearer to a rational, and an odd one has no equally near one beside it. -/
structure NearestRung (r : ℚ) (p : Nat) : Prop where
  above : ∀ j, p < j → 2 * r ≤ rung p + rung j
  below : ∀ j, j < p → (rung j + rung p : ℚ) ≤ 2 * r
  even : ∀ j, j ≠ p → 2 * r = rung p + rung j → p % 2 = 0

/-- Rounding keeps the order of rationals. -/
theorem NearestRung.mono {r s : ℚ} {p j : Nat} (nearest : NearestRung r p)
    (other : NearestRung s j) (le : r ≤ s) : p ≤ j := by
  by_contra above
  have between := nearest.below j (by omega)
  have otherBetween := other.above p (by omega)
  have tie : 2 * s = rung j + rung p := by linarith
  have even := nearest.even j (by omega) (by linarith)
  have otherEven := other.even p (by omega) tie
  -- The rung between two even ones is nearer than either.
  have inner := nearest.below (j + 1) (by omega)
  have step : (rung j : ℚ) < rung (j + 1) := Nat.cast_lt.mpr (rung_strictMono (Nat.lt_succ_self j))
  linarith

/-- The scale that is chosen for a quotient leaves a significand of fifty-three bits. -/
theorem scaleOf_bounds (n d : Nat) :
    n * unitsPerOne / (d * 2 ^ scaleOf n d) < 2 ^ 53 ∧
      (scaleOf n d = 0 ∨ 2 ^ 52 ≤ n * unitsPerOne / (d * 2 ^ scaleOf n d)) := by
  rw [← Nat.div_div_eq_div_mul]
  unfold scaleOf
  generalize n * unitsPerOne / d = whole
  constructor
  · rw [Nat.div_lt_iff_lt_mul (Nat.two_pow_pos _), ← pow_add]
    exact Nat.lt_of_lt_of_le Nat.lt_log2_self (Nat.pow_le_pow_right (by decide) (by omega))
  · rcases Nat.eq_zero_or_pos (whole.log2 - 52) with subnormal | scaled
    · exact .inl subnormal
    · right
      have nonzero : whole ≠ 0 := by
        rintro rfl
        simp at scaled
      rw [Nat.le_div_iff_mul_le (Nat.two_pow_pos _), ← pow_add]
      have exponent : 52 + (whole.log2 - 52) = whole.log2 := by omega
      rw [exponent]
      exact Nat.log2_self_le nonzero

section Between

variable {r : ℚ} {scale significand j : Nat}

theorem rung_next (normal : 2 ^ 52 ≤ significand ∨ scale = 0) (bound : significand ≤ 2 ^ 53)
    (above : scale * 2 ^ 52 + significand < j) :
    (significand + 1) * 2 ^ scale ≤ rung j := by
  refine Nat.le_trans ?_ (rung_strictMono.monotone above)
  rcases Nat.lt_or_eq_of_le bound with below | rfl
  · rw [Nat.succ_eq_add_one, Nat.add_assoc, rung_eq (by omega) (by omega)]
  · have carried : (scale * 2 ^ 52 + 2 ^ 53).succ = (scale + 1) * 2 ^ 52 + (2 ^ 52 + 1) := by omega
    have wider : (2 ^ 53 + 1) * 2 ^ scale ≤ (2 ^ 53 + 2) * 2 ^ scale :=
      Nat.mul_le_mul_right _ (by norm_num)
    rw [carried, rung_eq (.inl (by norm_num)) (by norm_num), pow_succ 2 scale]
    linarith

/-- Below the least significand of a scale the rungs are closer than above it. -/
theorem rung_previous (normal : 2 ^ 52 ≤ significand ∨ scale = 0) (bound : significand ≤ 2 ^ 53)
    (below : j < scale * 2 ^ 52 + significand) :
    rung j + 2 ^ scale ≤ significand * 2 ^ scale ∨
      significand = 2 ^ 52 ∧ scale ≠ 0 ∧ rung j < significand * 2 ^ scale := by
  by_cases least : significand = 2 ^ 52 ∧ scale ≠ 0
  · refine .inr ⟨least.1, least.2, ?_⟩
    rw [← rung_eq normal bound]
    exact rung_strictMono below
  · left
    have inside : 0 < significand := by omega
    have previous : j ≤ scale * 2 ^ 52 + (significand - 1) := by omega
    have atMost := rung_strictMono.monotone previous
    rw [rung_eq (by omega) (by omega)] at atMost
    have unit : (significand - 1) * 2 ^ scale + 2 ^ scale = significand * 2 ^ scale := by
      rw [← Nat.succ_mul, Nat.succ_eq_add_one, Nat.sub_add_cancel inside]
    omega

/-- A significand at most half of its scale away from a rational is its nearest rung, unless
the rungs below are closer and the rational is among them. -/
theorem nearestRung_of_between (normal : 2 ^ 52 ≤ significand ∨ scale = 0)
    (bound : significand ≤ 2 ^ 53) (upper : 2 * r ≤ (2 * significand + 1) * 2 ^ scale)
    (lower : 2 * significand * 2 ^ scale ≤ 2 * r + 2 ^ scale)
    (even : 2 * r = (2 * significand + 1) * 2 ^ scale ∨
      2 * significand * 2 ^ scale = 2 * r + 2 ^ scale → significand % 2 = 0)
    (reached : scale ≠ 0 → 2 ^ 52 * 2 ^ scale ≤ r) :
    NearestRung r (scale * 2 ^ 52 + significand) := by
  have here : (rung (scale * 2 ^ 52 + significand) : ℚ) = significand * 2 ^ scale := by
    exact_mod_cast rung_eq normal bound
  have next {j : Nat} (above : scale * 2 ^ 52 + significand < j) :
      ((significand : ℚ) + 1) * 2 ^ scale ≤ rung j := by
    exact_mod_cast rung_next normal bound above
  have previous {j : Nat} (below : j < scale * 2 ^ 52 + significand) :
      (rung j : ℚ) + 2 ^ scale ≤ significand * 2 ^ scale ∨
        (rung j : ℚ) < significand * 2 ^ scale ∧ (significand : ℚ) * 2 ^ scale ≤ r := by
    rcases rung_previous normal bound below with apart | ⟨least, scaled, lower⟩
    · exact .inl (by exact_mod_cast apart)
    · refine .inr ⟨by exact_mod_cast lower, ?_⟩
      rw [least]
      exact_mod_cast reached scaled
  refine ⟨fun j above => ?_, fun j below => ?_, fun j other tie => ?_⟩
  · have beyond := next above
    rw [here]
    linarith
  · rw [here]
    rcases previous below with apart | ⟨below, reached⟩ <;> linarith
  · have parity : significand % 2 = 0 → (scale * 2 ^ 52 + significand) % 2 = 0 := by omega
    rw [here] at tie
    refine parity (even ?_)
    rcases Nat.lt_or_gt_of_ne other with below | above
    · rcases previous below with apart | ⟨below, reached⟩
      · right
        linarith
      · linarith
    · have beyond := next above
      left
      linarith

end Between

theorem roundedPattern_nearestRung (n d : Nat) (positive : 0 < d) :
    NearestRung (n * unitsPerOne / d) (roundedPattern n d) := by
  obtain ⟨small, large⟩ := scaleOf_bounds n d
  have pattern : roundedPattern n d = scaleOf n d * 2 ^ 52 +
      roundHalfEven (n * unitsPerOne) (d * 2 ^ scaleOf n d) := rfl
  have floor := div_le_roundHalfEven (n * unitsPerOne) (d * 2 ^ scaleOf n d)
  have ceiling := roundHalfEven_le (n * unitsPerOne) (d * 2 ^ scaleOf n d)
  have bounds := roundHalfEven_bounds (n * unitsPerOne) (d * 2 ^ scaleOf n d)
    (Nat.mul_pos positive (Nat.two_pow_pos _))
  rw [pattern]
  generalize scaleOf n d = scale at *
  generalize roundHalfEven (n * unitsPerOne) (d * 2 ^ scale) = significand at *
  obtain ⟨upper, lower, even⟩ := bounds
  rw [← Nat.cast_mul]
  generalize n * unitsPerOne = units at *
  have divisor : (0 : ℚ) < d := Nat.cast_pos.mpr positive
  have scaled : (units / d : ℚ) * d = units := div_mul_cancel₀ _ divisor.ne'
  -- Both sides of each bound are compared after multiplying by the divisor.
  have whole : 2 * (units / d : ℚ) * d = 2 * units := by rw [mul_assoc, scaled]
  have half : (2 * (significand : ℚ) + 1) * 2 ^ scale * d =
      (2 * significand + 1) * (d * 2 ^ scale) := by ring
  have double : (2 * (significand : ℚ)) * 2 ^ scale * d = 2 * significand * (d * 2 ^ scale) := by
    ring
  refine nearestRung_of_between (by omega) (by omega) ?_ ?_ ?_ ?_
  · refine le_of_mul_le_mul_right ?_ divisor
    rw [whole, half]
    exact_mod_cast upper
  · refine le_of_mul_le_mul_right ?_ divisor
    rw [double, add_mul, whole, mul_comm ((2 : ℚ) ^ scale) d]
    exact_mod_cast lower
  · refine fun tie => even (tie.imp (fun tie => ?_) fun tie => ?_)
    · have product := congrArg (· * (d : ℚ)) tie
      simp only [whole, half] at product
      exact_mod_cast product
    · have product := congrArg (· * (d : ℚ)) tie
      simp only [double, add_mul, whole, mul_comm ((2 : ℚ) ^ scale) d] at product
      exact_mod_cast product
  · intro scaledUp
    have reached := large.resolve_left scaledUp
    rw [Nat.le_div_iff_mul_le (Nat.mul_pos positive (Nat.two_pow_pos _))] at reached
    rw [le_div_iff₀ divisor, mul_assoc, mul_comm ((2 : ℚ) ^ scale) d]
    exact_mod_cast reached

end Double

end LoxLex
