import Mathlib.Algebra.Order.Field.Basic
import Mathlib.Tactic.FieldSimp
import Mathlib.Tactic.Ring
import MarketLens.Lib.Run

/-!
# Parts that shrink with a whole

A whole is cut, again and again, and two parts that belong to it give up the same
share of themselves each time, or miss the cut. Whatever the cuts are, the two parts
keep the ratio they had. Where no cut is missed they also keep their ratio to the
whole, and are used up together with it.
-/

namespace Proportion

open Runs

variable {K : Type} [Field K] [LinearOrder K]

/-- What is left of a part when `cut` is taken off the whole, and the same share off the part. -/
def rest (whole cut part : K) : K := part - cut * part / whole

section Rest

variable {whole cut part other : K}

theorem rest_eq (h : 0 < whole) : rest whole cut part = part * ((whole - cut) / whole) := by
  unfold rest
  field_simp

/-- A part that is used up keeps its ratio to any other one, and so does one that is not. -/
theorem rest_cross {scale scale' : K} (hwhole : 0 < whole) (h : part * scale = other * scale') :
    rest whole cut part * scale = rest whole cut other * scale' := by
  rw [rest_eq hwhole, rest_eq hwhole, mul_right_comm, h, mul_right_comm]

theorem rest_whole (h : 0 < whole) : rest whole cut whole = whole - cut := by
  rw [rest_eq h, mul_div_cancel₀ _ h.ne']

/-- Nothing is left of a part when the whole is taken. -/
theorem rest_all (h : 0 < whole) : rest whole whole part = 0 := by
  rw [rest_eq h, sub_self, zero_div, mul_zero]

variable [IsStrictOrderedRing K]

theorem rest_nonneg (hwhole : 0 < whole) (hcut : cut ≤ whole) (hpart : 0 ≤ part) : 0 ≤ rest whole cut part := by
  rw [rest_eq hwhole]
  exact mul_nonneg hpart (div_nonneg (sub_nonneg.mpr hcut) hwhole.le)

theorem rest_pos (hwhole : 0 < whole) (hcut : cut < whole) (hpart : 0 < part) : 0 < rest whole cut part := by
  rw [rest_eq hwhole]
  exact mul_pos hpart (div_pos (sub_pos.mpr hcut) hwhole)

theorem share_pos (hwhole : 0 < whole) (hcut : 0 < cut) (hpart : 0 < part) : 0 < cut * part / whole :=
  div_pos (mul_pos hcut hpart) hwhole

theorem share_le (hwhole : 0 < whole) (hcut : cut ≤ whole) (hpart : 0 ≤ part) : cut * part / whole ≤ part :=
  sub_nonneg.mp (rest_nonneg hwhole hcut hpart)

end Rest

/-! ## Runs of cuts -/

/-- A whole and two parts that shrink with it. -/
structure Parts (K : Type) where
  whole : K
  first : K
  second : K

/-- A cut of the whole, and whether the parts follow it. -/
structure Cut (K : Type) where
  amount : K
  followed : Bool

def Parts.cut (parts : Parts K) (cut : Cut K) : Parts K where
  whole := parts.whole - cut.amount
  first := if cut.followed then rest parts.whole cut.amount parts.first else parts.first
  second := if cut.followed then rest parts.whole cut.amount parts.second else parts.second

/-- Cut something off the whole, and no more than there is. -/
def Parts.step (parts : Parts K) (cut : Cut K) : Option (Parts K) :=
  if 0 < cut.amount ∧ cut.amount ≤ parts.whole then some (parts.cut cut) else none

def followed (_ : Parts K) (cut : Cut K) : Prop := cut.followed = true

/-- What the cuts of a whole keep of its parts, however many of them the parts miss. -/
structure Parts.Keeps (start parts : Parts K) : Prop where
  whole : 0 ≤ parts.whole
  first : 0 ≤ parts.first
  second : 0 ≤ parts.second
  ratio : parts.second * start.first = parts.first * start.second
  left : 0 < parts.whole → 0 < parts.first ∧ 0 < parts.second

section Runs

variable {start parts parts' : Parts K} {cut : Cut K}

theorem Parts.step_some (h : parts.step cut = some parts') :
    0 < cut.amount ∧ cut.amount ≤ parts.whole ∧ 0 < parts.whole ∧ parts' = parts.cut cut := by
  unfold Parts.step at h
  split at h
  · rename_i hcut
    exact ⟨hcut.1, hcut.2, hcut.1.trans_le hcut.2, (Option.some.inj h).symm⟩
  · cases h

/-- **Parts that miss no cut keep their ratio to the whole.** -/
theorem Parts.followed_ratio (h : Reaches Parts.step followed start parts) :
    parts.first * start.whole = parts.whole * start.first := by
  refine h.invariant (fun parts => parts.first * start.whole = parts.whole * start.first) (mul_comm _ _) ?_
  intro parts cut parts' hratio hfol hs
  obtain ⟨-, -, hwhole, rfl⟩ := Parts.step_some hs
  unfold Parts.cut
  rw [if_pos (show cut.followed = true from hfol)]
  exact (rest_cross hwhole hratio).trans (congrArg (· * start.first) (rest_whole hwhole))

variable [IsStrictOrderedRing K]

theorem Parts.Keeps.step (h : start.Keeps parts) (hstep : parts.step cut = some parts') : start.Keeps parts' := by
  obtain ⟨hcut, hle, hwhole, rfl⟩ := Parts.step_some hstep
  obtain ⟨hfirst, hsecond⟩ := h.left hwhole
  unfold Parts.cut
  cases cut.followed with
  | false => exact ⟨sub_nonneg.mpr hle, h.first, h.second, h.ratio, fun _ => ⟨hfirst, hsecond⟩⟩
  | true =>
    refine ⟨sub_nonneg.mpr hle, rest_nonneg hwhole hle h.first, rest_nonneg hwhole hle h.second, ?_, fun hleft => ?_⟩
    · exact rest_cross hwhole h.ratio
    · exact ⟨rest_pos hwhole (sub_pos.mp hleft) hfirst, rest_pos hwhole (sub_pos.mp hleft) hsecond⟩

/-- **The parts keep their ratio in every run of cuts.** -/
theorem Parts.keeps_of_reaches {ok : Parts K → Cut K → Prop} (hwhole : 0 ≤ start.whole) (hfirst : 0 < start.first)
    (hsecond : 0 < start.second) (h : Reaches Parts.step ok start parts) : start.Keeps parts :=
  h.invariant start.Keeps ⟨hwhole, hfirst.le, hsecond.le, mul_comm _ _, fun _ => ⟨hfirst, hsecond⟩⟩
    fun _ _ _ hkept _ hs => hkept.step hs

/-- Where one part is used up, so is the other, and the whole. -/
theorem Parts.Keeps.ends (h : start.Keeps parts) (hfirst : 0 < start.first) (hsecond : 0 < start.second) :
    (parts.second = 0 ↔ parts.first = 0) ∧ (parts.second = 0 → parts.whole = 0) := by
  have hratio := h.ratio
  refine ⟨⟨fun hzero => ?_, fun hzero => ?_⟩, fun hzero => ?_⟩
  · rw [hzero, zero_mul, eq_comm, mul_eq_zero] at hratio
    exact hratio.resolve_right hsecond.ne'
  · rw [hzero, zero_mul, mul_eq_zero] at hratio
    exact hratio.resolve_right hfirst.ne'
  · by_contra hwhole
    exact (h.left (lt_of_le_of_ne h.whole (Ne.symm hwhole))).2.ne' hzero

end Runs

end Proportion
