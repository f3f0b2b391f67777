import MarketLens.PropRisk.GuardWrites

/-!
# The best-day rule

A prop firm may ask that no single day makes more than a share of what all the days
with a profit made. The evaluator is told what the days before today come to, adds
today's own profit, and judges the share by its whole basis points. The rule is met
on a history that breaks it by less than the rounding takes away, and on no other.
-/

namespace MarketLens.PropRisk

open Fallible List

/-! ## Daily profits -/

/-- What the days with a profit made together. -/
def positiveDays (profits : List Decimal) : Decimal := (profits.filter (0 < ·)).sum

/-- The greatest profit of a day, zero where no day made one. -/
def bestDay (profits : List Decimal) : Decimal := profits.foldr max 0

/-- The best day's share of what those days made, in basis points. -/
def bestDayShare (profits : List Decimal) : Decimal := bestDay profits * 10000 / positiveDays profits

/-- The best day stays within its share of the days with a profit, of which there is one. -/
def Consistent (limit : Nat) (profits : List Decimal) : Prop :=
  0 < positiveDays profits ∧ bestDay profits * 10000 ≤ limit * positiveDays profits

/-- The best day exceeds its share, by so little that rounding to whole basis points takes it away. -/
def RoundedAway (limit : Nat) (profits : List Decimal) : Prop :=
  limit * positiveDays profits < bestDay profits * 10000 ∧
    (bestDay profits * 10000 < (limit + 1 / 2) * positiveDays profits ∨
      bestDay profits * 10000 = (limit + 1 / 2) * positiveDays profits ∧ limit % 2 = 0)

instance (limit : Nat) (profits : List Decimal) : Decidable (Consistent limit profits) := inferInstanceAs (Decidable (_ ∧ _))

/-- The input of an account whose earlier days made these profits. -/
def PropRiskEvaluationInput.after (input : PropRiskEvaluationInput) (earlier : List Decimal) : PropRiskEvaluationInput :=
  { input with
    priorPositiveDaysProfit := (earlier.map (max · 0)).sum
    priorBestDayProfit := (greatest (earlier.map (max · 0))).getD 0 }

/-- What today has made so far. -/
def PropRiskEvaluationInput.today (input : PropRiskEvaluationInput) : Decimal := input.balance - input.dayStartBalance

theorem positive_eq_max (profit : Decimal) : positive profit = max profit 0 := by
  unfold positive
  by_cases hpos : profit > 0
  · rw [if_pos hpos, max_eq_left hpos.le]
  · rw [if_neg hpos, max_eq_right (not_lt.mp hpos)]

theorem positiveDays_cons (profit : Decimal) (rest : List Decimal) :
    positiveDays (profit :: rest) = max profit 0 + positiveDays rest := by
  unfold positiveDays
  by_cases hpos : 0 < profit
  · rw [filter_cons_of_pos (by simpa using hpos), sum_cons, max_eq_left hpos.le]
  · rw [filter_cons_of_neg (by simpa using hpos), max_eq_right (not_lt.mp hpos), zero_add]

theorem bestDay_cons (profit : Decimal) (rest : List Decimal) : bestDay (profit :: rest) = max profit (bestDay rest) := rfl

section Profits

variable (profits : List Decimal)
include profits

theorem bestDay_nonneg : 0 ≤ bestDay profits := by
  induction profits with
  | nil => exact le_rfl
  | cons profit rest ih => exact ih.trans (le_max_right _ _)

/-- No day makes more than all days with a profit. -/
theorem bestDay_le : bestDay profits ≤ positiveDays profits := by
  induction profits with
  | nil => exact le_rfl
  | cons profit rest ih =>
    have hbest := bestDay_nonneg rest
    rw [bestDay_cons, positiveDays_cons]
    refine max_le ?_ ?_
    · exact (le_max_left profit 0).trans (le_add_of_nonneg_right (hbest.trans ih))
    · exact ih.trans (le_add_of_nonneg_left (le_max_right _ _))

/-! ### One more day -/

theorem positiveDays_concat (profit : Decimal) : positiveDays (profits ++ [profit]) = positiveDays profits + max profit 0 := by
  induction profits with
  | nil => rw [nil_append, positiveDays_cons, add_comm]
  | cons first rest ih => rw [cons_append, positiveDays_cons, positiveDays_cons, ih, add_assoc]

theorem bestDay_concat (profit : Decimal) : bestDay (profits ++ [profit]) = max (bestDay profits) (max profit 0) := by
  induction profits with
  | nil => exact (max_eq_right (le_max_right profit 0)).symm
  | cons first rest ih => rw [cons_append, bestDay_cons, bestDay_cons, ih, max_assoc]

/-! ### What is read of the days before -/

theorem sum_map_max : (profits.map (max · 0)).sum = positiveDays profits := by
  induction profits with
  | nil => rfl
  | cons profit rest ih => rw [map_cons, sum_cons, ih, positiveDays_cons]

theorem foldl_max_eq {start : Decimal} (hstart : 0 ≤ start) :
    (profits.map (max · 0)).foldl max start = max start (bestDay profits) := by
  induction profits generalizing start with
  | nil => exact (max_eq_left hstart).symm
  | cons profit rest ih =>
    have hbest := bestDay_nonneg rest
    rw [map_cons, foldl_cons, ih (hstart.trans (le_max_left _ _)), bestDay_cons, max_assoc, max_assoc, max_eq_right hbest]

theorem greatest_map_max : (greatest (profits.map (max · 0))).getD 0 = bestDay profits := by
  unfold greatest
  cases profits with
  | nil => rfl
  | cons profit rest =>
    rw [map_cons, max?_cons', Option.getD_some, foldl_max_eq _ (le_max_right _ _), bestDay_cons, max_assoc,
      max_eq_right (bestDay_nonneg rest)]

end Profits

/-! ## The rule -/

section Rule

variable (rules : PropRiskRules) (actions : PropRiskActions) (input : PropRiskEvaluationInput)

theorem evaluatePropRisk_bestDayMet : (evaluatePropRisk rules actions input).bestDayMet =
    (measure rules input .«protected» none true false false).bestDayMet := by
  unfold evaluatePropRisk
  cases lockVerdict rules actions input <;> rfl

/-- The best day's share of the days with a profit, in basis points, is a share: it lies between none and all. -/
theorem share_bounds {profits : List Decimal} (h : 0 < positiveDays profits) :
    0 ≤ roundHalfEven (bestDayShare profits) ∧ roundHalfEven (bestDayShare profits) ≤ 10000 := by
  have hlow : 0 ≤ bestDayShare profits := div_nonneg (mul_nonneg (bestDay_nonneg profits) (by norm_num)) h.le
  have hhigh : bestDayShare profits ≤ 10000 := by
    unfold bestDayShare
    rw [div_le_iff₀ h, mul_comm (10000 : Decimal)]
    exact mul_le_mul_of_nonneg_right (bestDay_le profits) (by norm_num)
  constructor
  · exact (Int.floor_nonneg.mpr hlow).trans (roundHalfEven_bounds _).1
  · refine roundHalfEven_le_iff.mpr (.inl ?_)
    push_cast
    linarith

/-- The ratio the evaluator reports. -/
theorem toU32_share {profits : List Decimal} (h : 0 < positiveDays profits) :
    min ((toU32 (roundHalfEven (bestDayShare profits))).getD 10000) 10000 = (roundHalfEven (bestDayShare profits)).toNat := by
  obtain ⟨hlow, hhigh⟩ := share_bounds h
  unfold toU32
  rw [if_pos (by simp only [Bool.and_eq_true, decide_eq_true_eq]; omega), Option.getD_some]
  omega

/-- What the rule comes to: the share of the best day rounds to no more than the limit. -/
theorem bestDayMet_iff (earlier : List Decimal) (limit : Nat) :
    (evaluatePropRisk { rules with bestDayLimitBasisPoints := some limit } actions (input.after earlier)).bestDayMet = some true ↔
      0 < positiveDays (earlier ++ [input.today]) ∧ RoundsDown (bestDayShare (earlier ++ [input.today])) limit := by
  have htotal : (earlier.map (max · 0)).sum + positive input.today = positiveDays (earlier ++ [input.today]) := by
    rw [positiveDays_concat, sum_map_max, positive_eq_max]
  have hbest : (if (greatest (earlier.map (max · 0))).getD 0 > positive input.today
      then (greatest (earlier.map (max · 0))).getD 0 else positive input.today) = bestDay (earlier ++ [input.today]) := by
    rw [bestDay_concat, greatest_map_max, positive_eq_max]
    split
    next hlt => exact (max_eq_left hlt.le).symm
    next hle => exact (max_eq_right (not_lt.mp hle)).symm
  have hmeasured : (evaluatePropRisk { rules with bestDayLimitBasisPoints := some limit } actions (input.after earlier)).bestDayMet =
      some (decide (positiveDays (earlier ++ [input.today]) > 0) && decide ((if positiveDays (earlier ++ [input.today]) ≤ 0 then 0
        else min ((toU32 (roundHalfEven (bestDayShare (earlier ++ [input.today])))).getD 10000) 10000) ≤ limit)) := by
    rw [evaluatePropRisk_bestDayMet, bestDayShare, ← htotal, ← hbest]
    rfl
  rw [hmeasured, Option.some.injEq, Bool.and_eq_true, decide_eq_true_iff, decide_eq_true_iff]
  refine and_congr_right fun hpos => ?_
  rw [if_neg (not_le.mpr hpos), toU32_share hpos, Int.toNat_le, roundHalfEven_le_iff]

theorem consistent_iff {profits : List Decimal} {limit : Nat} (h : 0 < positiveDays profits) :
    Consistent limit profits ↔ bestDayShare profits ≤ limit := by
  unfold Consistent bestDayShare
  rw [and_iff_right h, div_le_iff₀ h]

theorem roundedAway_iff {profits : List Decimal} {limit : Nat} (h : 0 < positiveDays profits) :
    RoundedAway limit profits ↔ limit < bestDayShare profits ∧ RoundsDown (bestDayShare profits) limit := by
  unfold RoundedAway RoundsDown bestDayShare
  rw [lt_div_iff₀ h, div_lt_iff₀ h, div_eq_iff h.ne']
  norm_cast

/-- **The rule is met exactly by the consistent histories, as long as rounding to whole basis points takes no excess away.** -/
theorem bestDay_exact_iff (earlier : List Decimal) (limit : Nat) :
    ((evaluatePropRisk { rules with bestDayLimitBasisPoints := some limit } actions (input.after earlier)).bestDayMet = some true ↔
        Consistent limit (earlier ++ [input.today])) ↔ ¬ RoundedAway limit (earlier ++ [input.today]) := by
  rw [bestDayMet_iff]
  by_cases hpos : 0 < positiveDays (earlier ++ [input.today])
  · rw [and_iff_right hpos, consistent_iff hpos, roundedAway_iff hpos, not_and, ← not_lt]
    constructor
    · intro hexact hover hdown
      exact hexact.mp hdown hover
    · intro hkept
      refine ⟨fun hdown hover => hkept hover hdown, fun hle => .inl ?_⟩
      push_cast
      linarith
  · -- days without a profit have no best day to take anything away from
    refine iff_of_true (iff_of_false (fun h => hpos h.1) fun h => hpos h.1) fun ⟨hover, _⟩ => hpos ?_
    have hbest := bestDay_nonneg (earlier ++ [input.today])
    have hle := bestDay_le (earlier ++ [input.today])
    refine (hbest.trans hle).lt_of_ne fun hzero => ?_
    rw [← hzero] at hover hle
    linarith

end Rule

/-- Two days that made 5000.40 and 4999.60: the better one has more than half of what they made, and passes for a half. -/
theorem forty_cents_over_met : ¬ ∀ (rules : PropRiskRules) (actions : PropRiskActions) (input : PropRiskEvaluationInput)
    (earlier : List Decimal) (limit : Nat),
    (evaluatePropRisk { rules with bestDayLimitBasisPoints := some limit } actions (input.after earlier)).bestDayMet = some true ↔
      Consistent limit (earlier ++ [input.today]) := by
  intro hclaim
  have hmet := hclaim ⟨300, 1000, .startOfDayBalance, .endOfDayTrailing, 100, 200, true, 100, 50, none, some 1000, none, none⟩
    ⟨true, true, true, false, true⟩
    ⟨100000, 105000.4, 105000.4, 105000.4, 0, 0, 0, .trackedSinceGuardEnabled, none, false, 110000, 110000, none, false, false⟩
    [5000.4] 5000
  exact absurd (hmet.mp (by decide +kernel)) (by decide +kernel)

end MarketLens.PropRisk
