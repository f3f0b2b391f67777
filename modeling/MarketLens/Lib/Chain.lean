import Mathlib.Logic.Relation

/-!
# Relations without chains

A relation is chainless when no two of its steps follow one another: nothing is
both the end of a step and the start of one. Then a path is a single step, and
there is no cycle of any length.
-/

namespace Chain

variable {α : Type*} {r s : α → α → Prop}

/-- No step starts where another ends. -/
def Chainless (r : α → α → Prop) : Prop := ∀ a b c, r a b → ¬ r b c

/-- Something is the start of a step. -/
def Starts (r : α → α → Prop) (a : α) : Prop := ∃ b, r a b

/-- Something is the end of a step. -/
def Ends (r : α → α → Prop) (b : α) : Prop := ∃ a, r a b

theorem chainless_iff : Chainless r ↔ ∀ a, ¬ (Starts r a ∧ Ends r a) := by
  constructor
  · rintro h b ⟨⟨c, hbc⟩, ⟨a, hab⟩⟩
    exact h a b c hab hbc
  · intro h a b c hab hbc
    exact h b ⟨⟨c, hbc⟩, ⟨a, hab⟩⟩

/-- Fewer steps make no chains. -/
theorem Chainless.mono (h : Chainless r) (hsub : ∀ a b, s a b → r a b) : Chainless s :=
  fun a b c hab hbc => h a b c (hsub a b hab) (hsub b c hbc)

/-- A path is a single step. -/
theorem Chainless.path (h : Chainless r) {a b : α} (hpath : Relation.TransGen r a b) : r a b := by
  induction hpath with
  | single hab => exact hab
  | tail _ hbc ih => exact absurd hbc (h _ _ _ ih)

/-- **No path leads back to where it started.** -/
theorem Chainless.no_cycle (h : Chainless r) (a : α) : ¬ Relation.TransGen r a a := by
  intro hpath
  have hstep := h.path hpath
  exact h a a a hstep hstep

end Chain
