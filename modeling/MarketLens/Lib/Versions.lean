import Mathlib.Data.List.Nodup
import Mathlib.Data.List.Perm.Subperm

/-!
# Tables and row versions

A transaction writes new versions of the rows it holds; its commit puts them in
the place of what was there. A table is a list of rows under unique keys, and how
many of its rows have a property is bounded by how many keys there are for them.
-/

namespace Versions

open List

variable {Row K : Type} {key : Row → K} {table : List Row} {row : Row}

/-! ## Rows under unique keys -/

theorem countP_le_length {p : Row → Bool} (hndp : (table.map key).Nodup) (keys : List K)
    (h : ∀ row ∈ table, p row = true → key row ∈ keys) : table.countP p ≤ keys.length := by
  have hfiltered : ((table.filter p).map key).Nodup := hndp.sublist (filter_sublist.map key)
  have hsubset : (table.filter p).map key ⊆ keys := by
    intro k hk
    obtain ⟨row, hrow, rfl⟩ := mem_map.mp hk
    obtain ⟨hmem, hp⟩ := mem_filter.mp hrow
    exact h row hmem hp
  have hlng := (hfiltered.subperm hsubset).length_le
  rw [length_map] at hlng
  rw [countP_eq_length_filter]
  exact hlng

/-- A property that spreads to no new key is not of more rows. -/
theorem countP_le {p q : Row → Bool} {before : List Row} (hndp : (table.map key).Nodup)
    (h : ∀ row ∈ table, p row = true → ∃ old ∈ before, q old = true ∧ key old = key row) :
    table.countP p ≤ before.countP q := by
  have hkeys := countP_le_length (p := p) hndp ((before.filter q).map key) fun row hrow hp => by
    obtain ⟨old, hold, hq, hkey⟩ := h row hrow hp
    exact mem_map.mpr ⟨old, mem_filter.mpr ⟨hold, hq⟩, hkey⟩
  rw [length_map] at hkeys
  rw [countP_eq_length_filter (p := q)]
  exact hkeys

/-- One that spreads to one new key is of at most one more. -/
theorem countP_le_succ {p q : Row → Bool} {before : List Row} (k : K) (hndp : (table.map key).Nodup)
    (h : ∀ row ∈ table, p row = true → key row = k ∨ ∃ old ∈ before, q old = true ∧ key old = key row) :
    table.countP p ≤ before.countP q + 1 := by
  have hkeys := countP_le_length (p := p) hndp (k :: (before.filter q).map key) fun row hrow hp => by
    rcases h row hrow hp with hk | ⟨old, hold, hq, hkey⟩
    · rw [hk]
      exact mem_cons_self
    · exact mem_cons_of_mem _ (mem_map.mpr ⟨old, mem_filter.mpr ⟨hold, hq⟩, hkey⟩)
  rw [length_cons, length_map] at hkeys
  rw [countP_eq_length_filter (p := q)]
  exact hkeys

/-! ## Versions of rows -/

variable [DecidableEq K]

def install (key : Row → K) (versions table : List Row) : List Row :=
  (table.filter fun row => !(versions.map key).contains (key row)) ++ versions

/-- The versions first and the table behind them, as the transaction that wrote them sees it. -/
def lookup (key : Row → K) (table : List Row) (k : K) : Option Row := table.find? fun row => key row = k

variable {versions : List Row}

theorem mem_install : row ∈ install key versions table ↔ (row ∈ table ∧ key row ∉ versions.map key) ∨ row ∈ versions := by
  unfold install
  simp

theorem mem_install_of_not_mem (h : row ∈ table) (hkey : key row ∉ versions.map key) : row ∈ install key versions table :=
  mem_install.mpr (.inl ⟨h, hkey⟩)

theorem mem_install_beside (h : ∀ version ∈ versions, key version ≠ key row) :
    row ∈ install key versions table ↔ row ∈ table := by
  constructor
  · intro hrow
    exact (mem_install.mp hrow).elim And.left fun hver => absurd rfl (h row hver)
  · intro hrow
    refine mem_install_of_not_mem hrow fun hkey => ?_
    obtain ⟨version, hver, hsame⟩ := mem_map.mp hkey
    exact h version hver hsame

/-- What holds of the versions and of a new one. -/
theorem all_written {p : Row → Prop} (h : ∀ version ∈ versions, p version) (hrow : p row) :
    ∀ version ∈ install key [row] versions, p version := by
  intro version hver
  rcases mem_install.mp hver with ⟨hmem, _⟩ | hnew
  · exact h version hmem
  · rw [mem_singleton.mp hnew]
    exact hrow

/-- Keys stay unique. -/
theorem nodup_install (htable : (table.map key).Nodup) (hversions : (versions.map key).Nodup) :
    ((install key versions table).map key).Nodup := by
  unfold install
  rw [map_append, nodup_append]
  refine ⟨htable.sublist (filter_sublist.map key), hversions, ?_⟩
  intro k hk k' hk' hsame
  obtain ⟨old, hold, rfl⟩ := mem_map.mp hk
  have hnot := (mem_filter.mp hold).2
  rw [hsame] at hnot
  simp only [Bool.not_eq_true', contains_eq_mem, decide_eq_false_iff_not] at hnot
  exact hnot hk'

theorem lookup_some {k : K} (h : lookup key table k = some row) : row ∈ table ∧ key row = k := by
  exact ⟨mem_of_find?_eq_some h, by simpa using find?_some h⟩

theorem lookup_none {k : K} (h : lookup key table k = none) : ∀ row ∈ table, key row ≠ k := by
  intro row hrow
  simpa using find?_eq_none.mp h row hrow

end Versions
