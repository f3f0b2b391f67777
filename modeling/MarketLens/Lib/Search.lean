import Mathlib.Data.List.Basic

/-!
# Binary search

The least index from which a test holds, found by halving. The test has to hold from there
on (`search_spec`); on a sorted list the indices before it are a leading part of the list
(`take_search`).
-/

namespace Search

open List Option

/-- The search between two bounds; half of what is left is given up in each round. -/
def between (test : Nat → Bool) : Nat → Nat → Nat → Nat
  | 0, low, _ => low
  | fuel + 1, low, high =>
    if low < high then
      let middle := (low + high) / 2
      if test middle then between test fuel low middle else between test fuel (middle + 1) high
    else low

/-- The least index below `n` at which the test holds, or `n`. -/
def search (n : Nat) (test : Nat → Bool) : Nat := between test n 0 n

variable {test : Nat → Bool} {n : Nat}

theorem between_spec (hmono : ∀ i j, i ≤ j → j < n → test i = true → test j = true) :
    ∀ fuel low high, high ≤ low + fuel → low ≤ high → high ≤ n → (∀ i < low, test i = false) → (high < n → test high = true) →
      (∀ i < between test fuel low high, test i = false) ∧ between test fuel low high ≤ n
        ∧ (between test fuel low high < n → test (between test fuel low high) = true) := by
  intro fuel
  induction fuel with
  | zero =>
    intro low high hfuel hle hn hbelow habo
    have hsame : low = high := by omega
    subst hsame
    exact ⟨hbelow, hn, habo⟩
  | succ fuel ih =>
    intro low high hfuel hle hn hbelow habo
    unfold between
    split
    · dsimp only
      split
      · rename_i htest
        exact ih low ((low + high) / 2) (by omega) (by omega) (by omega) hbelow fun _ => htest
      · rename_i htest
        refine ih ((low + high) / 2 + 1) high (by omega) (by omega) hn ?_ habo
        -- what is before the middle fails with it
        intro i hi
        by_contra hhld
        rw [Bool.not_eq_false] at hhld
        exact htest (hmono i _ (by omega) (by omega) hhld)
    · have hsame : low = high := by omega
      subst hsame
      exact ⟨hbelow, hn, habo⟩

/-- **The search finds where a test that stays true becomes true.** -/
theorem search_spec (hmono : ∀ i j, i ≤ j → j < n → test i = true → test j = true) :
    (∀ i < search n test, test i = false) ∧ search n test ≤ n ∧ (search n test < n → test (search n test) = true) := by
  refine between_spec hmono n 0 n (by omega) (by omega) (Nat.le_refl n) ?_ ?_
  · intro i hi
    omega
  · intro hlt
    omega

/-- The entries of a list before the index found are those that fail the test. -/
theorem take_search {A : Type} {p : A → Bool} {list : List A} (hmono : list.Pairwise fun a b => p a = true → p b = true) :
    list.take (search list.length fun i => list[i]?.any p) = list.filter fun a => !p a := by
  have hsteps : ∀ i j, i ≤ j → j < list.length → list[i]?.any p = true → list[j]?.any p = true := by
    intro i j hij hj htest
    rcases Nat.eq_or_lt_of_le hij with rfl | hlt
    · exact htest
    have hi : i < list.length := by omega
    simp only [getElem?_eq_getElem hi, getElem?_eq_getElem hj, any_some] at htest ⊢
    exact pairwise_iff_getElem.mp hmono i j hi hj hlt htest
  obtain ⟨hbelow, hle, hfnd⟩ := search_spec hsteps
  generalize search list.length (fun i => list[i]?.any p) = found at hbelow hle hfnd ⊢
  have hbef : ∀ a ∈ list.take found, p a = false := by
    intro a ha
    obtain ⟨i, hi, rfl⟩ := mem_take_iff_getElem.mp ha
    have hfails := hbelow i (by omega)
    rwa [getElem?_eq_getElem (by omega), any_some] at hfails
  have haft : ∀ a ∈ list.drop found, p a = true := by
    intro a ha
    obtain ⟨i, hi, rfl⟩ := mem_drop_iff_getElem.mp ha
    have hhld := hsteps found (found + i) (by omega) (by omega) (hfnd (by omega))
    rwa [getElem?_eq_getElem (by omega), any_some] at hhld
  conv_rhs => rw [← take_append_drop found list]
  rw [filter_append, filter_eq_self.mpr, filter_eq_nil_iff.mpr, append_nil]
  · intro a ha
    simp [haft a ha]
  · intro a ha
    simp [hbef a ha]

end Search
