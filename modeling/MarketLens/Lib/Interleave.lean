import Mathlib.Data.List.Perm.Basic

/-!
# Interleavings of keyed steps

Steps that carry a key, one list of them for each key, can be taken in many orders.
Two orders in which every key has its own steps in the same order differ by swaps of
neighbours with different keys. So whatever does not notice such a swap does not
notice the order.
-/

namespace Interleave

variable {A K : Type} {key : A → K}

/-- Two orders that differ by swaps of neighbours with different keys. -/
inductive Swapped (key : A → K) : List A → List A → Prop where
  | nil : Swapped key [] []
  | cons (a : A) {steps other : List A} : Swapped key steps other →
      Swapped key (a :: steps) (a :: other)
  | swap {a b : A} (steps : List A) : key a ≠ key b → Swapped key (a :: b :: steps) (b :: a :: steps)
  | trans {first second third : List A} : Swapped key first second → Swapped key second third →
      Swapped key first third

theorem Swapped.refl (steps : List A) : Swapped key steps steps := by
  induction steps with
  | nil => exact .nil
  | cons a rest ih => exact .cons a ih

variable {a : A}

/-- A step can be taken before all that come earlier under other keys. -/
theorem swapped_front {front : List A} (hfrt : ∀ b ∈ front, key b ≠ key a)
    (rest : List A) : Swapped key (front ++ a :: rest) (a :: (front ++ rest)) := by
  induction front with
  | nil => exact .refl _
  | cons b front ih =>
    have hrest := ih fun c hc => hfrt c (List.mem_cons_of_mem _ hc)
    exact .trans (.cons b hrest) (.swap _ (hfrt b List.mem_cons_self))

variable [DecidableEq K]

def ofKey (key : A → K) (k : K) (steps : List A) : List A := steps.filter fun a => key a = k

theorem ofKey_self {k : K} (h : key a = k) (rest : List A) :
    ofKey key k (a :: rest) = a :: ofKey key k rest := List.filter_cons_of_pos (decide_eq_true h)

theorem ofKey_other {k : K} (h : key a ≠ k) (rest : List A) : ofKey key k (a :: rest) = ofKey key k rest :=
  List.filter_cons_of_neg fun hsame => h (of_decide_eq_true hsame)

theorem ofKey_append (k : K) (steps more : List A) :
    ofKey key k (steps ++ more) = ofKey key k steps ++ ofKey key k more := List.filter_append ..

theorem ofKey_none {k : K} {steps : List A} (h : ∀ a ∈ steps, key a ≠ k) : ofKey key k steps = [] :=
  List.filter_eq_nil_iff.mpr fun a ha hsame => h a ha (of_decide_eq_true hsame)

/-- The first step of a key, with what comes before and after it. -/
theorem ofKey_split {steps more : List A} (h : ofKey key (key a) steps = a :: more) :
    ∃ front rest, steps = front ++ a :: rest ∧ ∀ b ∈ front, key b ≠ key a := by
  induction steps with
  | nil => cases h
  | cons b rest ih =>
    by_cases hb : key b = key a
    · rw [ofKey_self hb] at h
      cases h
      exact ⟨[], rest, rfl, nofun⟩
    · rw [ofKey_other hb] at h
      obtain ⟨front, after, rfl, hfrt⟩ := ih h
      refine ⟨b :: front, after, rfl, fun c hc => ?_⟩
      rcases List.mem_cons.mp hc with rfl | hc
      · exact hb
      · exact hfrt c hc

/-- **Two orders with the same steps for every key differ by swaps.** -/
theorem swapped_of_ofKey {steps other : List A} (h : ∀ k, ofKey key k steps = ofKey key k other) : Swapped key steps other := by
  induction other generalizing steps with
  | nil =>
    cases steps with
    | nil => exact .nil
    | cons a =>
      have hnone := h (key a)
      rw [ofKey_self rfl] at hnone
      cases hnone
  | cons a rest ih =>
    have hfs := h (key a)
    rw [ofKey_self rfl] at hfs
    obtain ⟨front, after, rfl, hfrt⟩ := ofKey_split hfs
    refine .trans (swapped_front hfrt after) (.cons a (ih fun k => ?_))
    have hk := h k
    rw [ofKey_append] at hk ⊢
    by_cases hkey : key a = k
    · have hnone : ofKey key k front = [] := ofKey_none fun b hb => hkey ▸ hfrt b hb
      rw [hnone, ofKey_self hkey, ofKey_self hkey] at hk
      rw [hnone]
      exact (List.cons.inj hk).2
    · rwa [ofKey_other hkey, ofKey_other hkey] at hk

theorem perm_of_ofKey [DecidableEq A] {rows other : List A}
    (h : ∀ k, ofKey key k rows = ofKey key k other) : rows.Perm other := by
  rw [List.perm_iff_count]
  intro a
  have hcnt : ∀ table : List A, (ofKey key (key a) table).count a = table.count a :=
    fun table => List.count_filter (decide_eq_true rfl)
  rw [← hcnt rows, ← hcnt other, h]

end Interleave
