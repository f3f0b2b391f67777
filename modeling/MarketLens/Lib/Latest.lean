import Mathlib.Data.List.Induction
import Mathlib.Data.List.Nodup
import Mathlib.Order.Lattice

/-!
# The last entry of every key

A log of entries, each under a key, of which only the last of a key counts. The
compacted log has that entry for every key, in the order of the keys. Two logs with
the same last entries compact to the same (`compact_congr`), so a log may be compacted
in parts first.
-/

namespace Latest

open List

variable {Entry K : Type}

section
variable [DecidableEq K] {key : Entry → K} {log first second : List Entry} {entry : Entry} {k : K}

def lastUnder (key : Entry → K) (log : List Entry) (k : K) : Option Entry := log.reverse.find? fun entry => key entry = k

theorem lastUnder_append : lastUnder key (first ++ second) k = (lastUnder key second k).or (lastUnder key first k) := by
  unfold lastUnder
  rw [reverse_append, find?_append]

theorem lastUnder_concat : lastUnder key (log ++ [entry]) k = if key entry = k then some entry else lastUnder key log k := by
  unfold lastUnder
  rw [reverse_append, reverse_singleton, singleton_append, find?_cons]
  by_cases h : key entry = k
  · rw [decide_eq_true h, if_pos h]
  · rw [decide_eq_false h, if_neg h]

theorem lastUnder_some (h : lastUnder key log k = some entry) : entry ∈ log ∧ key entry = k := by
  have hfnd := find?_some h
  exact ⟨mem_reverse.mp (mem_of_find?_eq_some h), of_decide_eq_true hfnd⟩

theorem lastUnder_none : lastUnder key log k = none ↔ ∀ entry ∈ log, key entry ≠ k := by
  unfold lastUnder
  rw [find?_eq_none]
  constructor
  · intro h entry hent hkey
    exact h entry (mem_reverse.mpr hent) (decide_eq_true hkey)
  · intro h entry hent hkey
    exact h entry (mem_reverse.mp hent) (of_decide_eq_true hkey)

theorem lastUnder_of_nodup (huniq : (log.map key).Nodup) (hent : entry ∈ log) : lastUnder key log (key entry) = some entry := by
  cases hlast : lastUnder key log (key entry) with
  | none => exact absurd rfl (lastUnder_none.mp hlast entry hent)
  | some =>
    obtain ⟨hmem, hkey⟩ := lastUnder_some hlast
    rw [inj_on_of_nodup_map huniq hmem hent hkey]

/-- The last entries, in the order they were written. -/
def collapse (key : Entry → K) (log : List Entry) : List Entry :=
  log.foldl (fun latest entry => latest.filter (fun old => key old ≠ key entry) ++ [entry]) []

theorem collapse_concat : collapse key (log ++ [entry]) = (collapse key log).filter (fun old => key old ≠ key entry) ++ [entry] := by
  unfold collapse
  rw [foldl_append]
  rfl

theorem mem_collapse : entry ∈ collapse key log ↔ lastUnder key log (key entry) = some entry := by
  induction log using reverseRecOn with
  | nil => exact ⟨fun h => (not_mem_nil h).elim, nofun⟩
  | append_singleton log last ih =>
    rw [collapse_concat, lastUnder_concat, mem_append, mem_singleton, mem_filter, decide_eq_true_iff, ih]
    by_cases hkey : key last = key entry
    · rw [if_pos hkey]
      constructor
      · rintro (⟨-, hoth⟩ | rfl)
        · exact absurd hkey.symm hoth
        · rfl
      · intro h
        exact .inr (Option.some.inj h).symm
    · rw [if_neg hkey]
      constructor
      · rintro (⟨hold, -⟩ | rfl)
        · exact hold
        · exact absurd rfl hkey
      · exact fun h => .inl ⟨h, fun hsame => hkey hsame.symm⟩

theorem nodup_collapse : ((collapse key log).map key).Nodup := by
  induction log using reverseRecOn with
  | nil => exact nodup_nil
  | append_singleton log last ih =>
    rw [collapse_concat, map_append, map_singleton, ← concat_eq_append, nodup_concat]
    refine ⟨fun hmem => ?_, ih.sublist (filter_sublist.map key)⟩
    obtain ⟨old, hold, hsame⟩ := mem_map.mp hmem
    exact of_decide_eq_true (mem_filter.mp hold).2 hsame

end

section
variable [LinearOrder K] {key : Entry → K} {log first second : List Entry} {entry : Entry} {k : K}

/-- The last entry of every key, in the order of the keys. -/
def compact (key : Entry → K) (log : List Entry) : List Entry :=
  (collapse key log).mergeSort fun a b => key a ≤ key b

theorem mem_compact : entry ∈ compact key log ↔ lastUnder key log (key entry) = some entry := by
  unfold compact
  rw [mem_mergeSort, mem_collapse]

theorem nodup_compact : ((compact key log).map key).Nodup :=
  ((mergeSort_perm _ _).map key).nodup_iff.mpr nodup_collapse

theorem sorted_compact : (compact key log).Pairwise fun a b => key a < key b := by
  have hle : (compact key log).Pairwise fun a b => key a ≤ key b := by
    refine (pairwise_mergeSort ?_ ?_ (collapse key log)).imp fun h => of_decide_eq_true h
    · intro a b c hab hbc
      have hab : key a ≤ key b := of_decide_eq_true hab
      have hbc : key b ≤ key c := of_decide_eq_true hbc
      exact decide_eq_true (le_trans hab hbc)
    · intro a b
      rw [Bool.or_eq_true, decide_eq_true_iff, decide_eq_true_iff]
      exact le_total _ _
  have hne : (compact key log).Pairwise fun a b => key a ≠ key b := pairwise_map.mp nodup_compact
  exact (hle.and hne).imp fun h => lt_of_le_of_ne h.1 h.2

/-- **Logs with the same last entries compact to the same.** -/
theorem compact_congr (h : ∀ k, lastUnder key first k = lastUnder key second k) : compact key first = compact key second := by
  have hperm : (compact key first).Perm (compact key second) := by
    refine (perm_ext_iff_of_nodup nodup_compact.of_map nodup_compact.of_map).mpr fun entry => ?_
    rw [mem_compact, mem_compact, h]
  refine List.Perm.eq_of_pairwise ?_ sorted_compact sorted_compact hperm
  intro a b _ _ hab hba
  exact absurd hab (lt_asymm hba)

theorem lastUnder_compact : lastUnder key (compact key log) k = lastUnder key log k := by
  cases hlast : lastUnder key log k with
  | none =>
    rw [lastUnder_none]
    intro entry hent hkey
    have hent := mem_compact.mp hent
    rw [hkey, hlast] at hent
    cases hent
  | some =>
    obtain ⟨-, hkey⟩ := lastUnder_some hlast
    rw [← hkey] at hlast ⊢
    exact lastUnder_of_nodup nodup_compact (mem_compact.mpr hlast)

end

end Latest
