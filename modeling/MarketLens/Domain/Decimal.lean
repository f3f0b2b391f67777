import Mathlib.Data.Rat.Floor
import MarketLens.Domain.Text

/-!
# Rounding of decimals

How quantities and prices are brought onto a venue's grid: quantities down to a
step, prices to the nearest tick, halves to even.
-/

namespace MarketLens

/-- Whole units, halves to even. -/
def roundHalfEven (value : Decimal) : Int :=
  let below := ⌊value⌋
  let part := value - below
  if part < 1 / 2 then below
  else if part > 1 / 2 then below + 1
  else if below % 2 = 0 then below else below + 1

/-- `floor_to_step`. -/
def floorToStep (value step : Decimal) : Decimal :=
  if step ≤ 0 then value else ⌊value / step⌋ * step

/-- `round_to_tick`. -/
def roundToTick (value tick : Decimal) : Decimal :=
  if tick ≤ 0 then value else roundHalfEven (value / tick) * tick

def RoundsDown (value : Decimal) (units : ℤ) : Prop := value < units + 1 / 2 ∨ value = units + 1 / 2 ∧ units % 2 = 0

theorem roundHalfEven_bounds (value : Decimal) : ⌊value⌋ ≤ roundHalfEven value ∧ roundHalfEven value ≤ ⌊value⌋ + 1 := by
  unfold roundHalfEven
  dsimp only
  split_ifs <;> omega

@[simp] theorem roundHalfEven_intCast (units : ℤ) : roundHalfEven units = units := by
  simp [roundHalfEven]

theorem roundHalfEven_le_iff {value : Decimal} {units : ℤ} : roundHalfEven value ≤ units ↔ RoundsDown value units := by
  have hle := Int.floor_le value
  have hlt := Int.lt_floor_add_one value
  obtain ⟨hbelow, habo⟩ := roundHalfEven_bounds value
  rcases lt_trichotomy ⌊value⌋ units with hunits | hunits | hunits
  · have hcast : ((⌊value⌋ + 1 : ℤ) : Decimal) ≤ units := by exact_mod_cast hunits
    push_cast at hcast
    exact iff_of_true (by omega) (.inl (by linarith))
  · subst hunits
    unfold roundHalfEven RoundsDown
    dsimp only
    split_ifs with hlow hhigh heven
    · exact iff_of_true le_rfl (.inl (by linarith))
    · refine iff_of_false (by omega) ?_
      rintro (h | ⟨h, -⟩) <;> linarith
    · exact iff_of_true le_rfl (.inr ⟨by linarith, heven⟩)
    · refine iff_of_false (by omega) ?_
      rintro (h | ⟨-, h⟩)
      · linarith
      · exact heven h
  · have hcast : ((units + 1 : ℤ) : Decimal) ≤ ⌊value⌋ := by exact_mod_cast hunits
    push_cast at hcast
    refine iff_of_false (by omega) ?_
    rintro (h | ⟨h, -⟩) <;> linarith

theorem floorToStep_le {value step : Decimal} : floorToStep value step ≤ value := by
  unfold floorToStep
  split
  · exact le_refl value
  · rename_i hstep
    have hpos : 0 < step := not_le.mp hstep
    calc (⌊value / step⌋ : Decimal) * step ≤ value / step * step :=
          mul_le_mul_of_nonneg_right (Int.floor_le _) hpos.le
      _ = value := div_mul_cancel₀ value hpos.ne'

theorem floorToStep_steps {value step : Decimal} (hstep : 0 < step) : ∃ steps : ℤ, floorToStep value step = steps * step := by
  unfold floorToStep
  rw [if_neg (not_le.mpr hstep)]
  exact ⟨_, rfl⟩

/-- The values that are on the grid already. -/
theorem floorToStep_eq_iff {value step : Decimal} (hstep : 0 < step) :
    floorToStep value step = value ↔ ∃ steps : ℤ, value = steps * step := by
  unfold floorToStep
  rw [if_neg (not_le.mpr hstep)]
  constructor
  · intro h
    exact ⟨⌊value / step⌋, h.symm⟩
  · rintro ⟨steps, rfl⟩
    rw [mul_div_cancel_right₀ _ hstep.ne', Int.floor_intCast]

end MarketLens
