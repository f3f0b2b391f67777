import Mathlib.Algebra.BigOperators.Group.List.Basic
import Mathlib.Data.List.Induction
import Mathlib.Data.List.Nodup
import Mathlib.Tactic.Abel

/-!
# Tables as lists of rows

The statements a service runs against one table: an update of the rows that
match a condition, an insert that yields to a conflict, an existence test. A
table is the list of its rows, an update keeps their order, and what holds of
every row afterwards is read off what held before (`forall_updateWhere`).
-/

namespace Table

open List

variable {Row K : Type}

/-- `UPDATE … SET f WHERE p`. -/
def updateWhere (p : Row → Bool) (f : Row → Row) (table : List Row) : List Row :=
  table.map fun row => if p row then f row else row

/-- `INSERT … ON CONFLICT DO NOTHING`, where `conflicts` recognises the rows in the way. -/
def insertUnless (conflicts : Row → Bool) (row : Row) (table : List Row) : List Row :=
  if table.any conflicts then table else table ++ [row]

variable {p : Row → Bool} {f : Row → Row} {table : List Row} {row : Row}

theorem mem_updateWhere : row ∈ updateWhere p f table ↔ ∃ old ∈ table, row = if p old then f old else old := by
  unfold updateWhere
  rw [mem_map]
  exact ⟨fun ⟨old, hold, h⟩ => ⟨old, hold, h.symm⟩, fun ⟨old, hold, h⟩ => ⟨old, hold, h.symm⟩⟩

theorem updated_mem (hrow : row ∈ table) (hp : p row = true) : f row ∈ updateWhere p f table :=
  mem_updateWhere.mpr ⟨row, hrow, (if_pos hp).symm⟩

theorem unmatched_mem (hrow : row ∈ table) (hp : ¬ p row = true) : row ∈ updateWhere p f table :=
  mem_updateWhere.mpr ⟨row, hrow, (if_neg hp).symm⟩

theorem updateWhere_cases (h : row ∈ updateWhere p f table) :
    (row ∈ table ∧ p row = false) ∨ ∃ old ∈ table, p old = true ∧ row = f old := by
  obtain ⟨old, hold, hrow⟩ := mem_updateWhere.mp h
  cases hp : p old with
  | true =>
    rw [hp, if_pos rfl] at hrow
    exact .inr ⟨old, hold, hp, hrow⟩
  | false =>
    rw [hp, if_neg Bool.false_ne_true] at hrow
    subst hrow
    exact .inl ⟨hold, hp⟩

theorem find?_updateWhere (hkeeps : ∀ row, p row = true → p (f row) = true)
    (table : List Row) : (updateWhere p f table).find? p = (table.find? p).map f := by
  have hsame : (p ∘ fun row => if p row then f row else row) = p := by
    funext row
    rw [Function.comp_apply]
    split
    · rename_i hp
      rw [hkeeps row hp, hp]
    · rfl
  unfold updateWhere
  rw [find?_map, hsame]
  exact Option.map_congr fun row hrow => if_pos (find?_some hrow)

/-- A row is found again, as it was or as the update leaves it. -/
theorem exists_updateWhere {P : Row → Prop} (hrow : row ∈ table) (hkept : P row) (hf : p row = true → P (f row)) :
    ∃ row' ∈ updateWhere p f table, P row' := by
  by_cases hp : p row = true
  · exact ⟨f row, updated_mem hrow hp, hf hp⟩
  · exact ⟨row, unmatched_mem hrow hp, hkept⟩

theorem exists_updateWhere_iff {P : Row → Prop} (hf : ∀ row, P (f row) ↔ P row) :
    (∃ row ∈ updateWhere p f table, P row) ↔ ∃ row ∈ table, P row := by
  constructor
  · rintro ⟨row, hrow, h⟩
    rcases updateWhere_cases hrow with ⟨hold, -⟩ | ⟨old, hold, -, rfl⟩
    · exact ⟨row, hold, h⟩
    · exact ⟨old, hold, (hf old).mp h⟩
  · rintro ⟨row, hrow, h⟩
    exact exists_updateWhere hrow h fun _ => (hf row).mpr h

variable {key : Row → K}

/-- A row of a table with the column of another is, in that column, a row of the other. -/
theorem exists_of_map_eq {table' : List Row} (h : table'.map key = table.map key) (hrow : row ∈ table') :
    ∃ old ∈ table, key old = key row := by
  rw [← mem_map, ← h]
  exact mem_map_of_mem hrow

/-- An insert under a key that no row has. -/
theorem nodup_insert (h : (table.map key).Nodup) (hfsh : ∀ old ∈ table, key old ≠ key row) : ((table ++ [row]).map key).Nodup := by
  rw [map_append, map_singleton, ← concat_eq_append, nodup_concat]
  refine ⟨fun hmem => ?_, h⟩
  obtain ⟨old, hold, hsame⟩ := mem_map.mp hmem
  exact hfsh old hold hsame

/-- An update that keeps a column where it applies keeps the whole column. -/
theorem map_updateWhere_of (hkey : ∀ row, p row = true → key (f row) = key row) (table : List Row) :
    (updateWhere p f table).map key = table.map key := by
  unfold updateWhere
  rw [map_map]
  refine map_congr_left fun row _ => ?_
  rw [Function.comp_apply]
  split
  · rename_i hp
    exact hkey row hp
  · rfl

/-- An update that keeps a column keeps the whole column. -/
theorem map_updateWhere (hkey : ∀ row, key (f row) = key row) (table : List Row) :
    (updateWhere p f table).map key = table.map key :=
  map_updateWhere_of (fun row _ => hkey row) table

theorem updateWhere_append (first second : List Row) :
    updateWhere p f (first ++ second) = updateWhere p f first ++ updateWhere p f second := by
  exact map_append

/-- An update nothing matches changes nothing. -/
theorem updateWhere_none (h : ∀ row ∈ table, p row = false) : updateWhere p f table = table := by
  unfold updateWhere
  rw [map_congr_left (g := id)]
  · exact map_id table
  · intro row hrow
    rw [h row hrow]
    rfl

/-- An update changes nothing exactly when it rewrites every row it matches as it was. -/
theorem updateWhere_eq_self : updateWhere p f table = table ↔ ∀ row ∈ table, p row = true → f row = row := by
  have hmap : updateWhere p f table = table ↔ ∀ row ∈ table, (if p row then f row else row) = id row := by
    rw [← map_inj_left, map_id]
    exact Iff.rfl
  rw [hmap]
  refine forall₂_congr fun row _ => ?_
  cases hp : p row with
  | true | false => simp

/-- Two updates that change nothing together: the first rewrites as it was every row the second
does not undo. -/
theorem eq_of_updateWhere_updateWhere {p q : Row → Bool} {f g : Row → Row}
    (h : updateWhere q g (updateWhere p f table) = table) (hrow : row ∈ table) (hp : p row = true)
    (hq : q (f row) = false) : f row = row := by
  unfold updateWhere at h
  rw [map_map] at h
  have hsame := map_inj_left.mp (h.trans (map_id table).symm) row hrow
  simpa [hp, hq] using hsame

theorem mem_insertUnless {conflicts : Row → Bool} {row new : Row}
    (h : row ∈ insertUnless conflicts new table) : row ∈ table ∨ row = new := by
  unfold insertUnless at h
  split at h
  · exact .inl h
  · rcases mem_append.mp h with h | h
    · exact .inl h
    · exact .inr (mem_singleton.mp h)

theorem length_updateWhere (table : List Row) : (updateWhere p f table).length = table.length := by
  exact length_map _

theorem find?_key [DecidableEq K] (huniq : (table.map key).Nodup) (hrow : row ∈ table) :
    table.find? (fun other => key other = key row) = some row := by
  have hsome : (table.find? fun other => key other = key row).isSome = true := by
    rw [find?_isSome]
    exact ⟨row, hrow, decide_eq_true rfl⟩
  obtain ⟨found, hfnd⟩ := Option.isSome_iff_exists.mp hsome
  have hsame := find?_some hfnd
  rw [decide_eq_true_iff] at hsame
  rw [hfnd, inj_on_of_nodup_map huniq (mem_of_find?_eq_some hfnd) hrow hsame]

/-- A sum over rows of which one alone has another value. -/
theorem sum_map_of_one {M : Type} [AddCommGroup M] (huniq : (table.map key).Nodup) (hrow : row ∈ table) {value before : Row → M}
    (hother : ∀ other ∈ table, key other ≠ key row → value other = before other) :
    (table.map value).sum = (table.map before).sum + (value row - before row) := by
  classical
  have hrest : (table.erase row).map value = (table.erase row).map before := by
    refine map_congr_left fun other hoth => hother other (mem_of_mem_erase hoth) fun hsame => ?_
    rw [inj_on_of_nodup_map huniq (mem_of_mem_erase hoth) hrow hsame] at hoth
    exact (huniq.of_map key).not_mem_erase hoth
  rw [← sum_map_erase value hrow, ← sum_map_erase before hrow, hrest]
  abel

theorem sum_map_updateWhere {M : Type} [AddCommGroup M] [DecidableEq K]
    (huniq : (table.map key).Nodup) (hrow : row ∈ table) (value : Row → M) :
    ((updateWhere (fun other => key other = key row) f table).map value).sum
      = (table.map value).sum + (value (f row) - value row) := by
  have hother : ∀ other ∈ table, key other ≠ key row →
      (value ∘ fun other => if decide (key other = key row) then f other else other) other = value other := fun other _ hne =>
    congrArg value (if_neg (by simpa using hne))
  unfold updateWhere
  rw [map_map, sum_map_of_one huniq hrow hother, Function.comp_apply, if_pos (decide_eq_true rfl)]

theorem filterMap_sublist {N : Type} {note : Row → Option N} {noteKey : N → K}
    (h : ∀ row n, note row = some n → noteKey n = key row) (table : List Row) :
    ((table.filterMap note).map noteKey).Sublist (table.map key) := by
  induction table with
  | nil => exact .slnil
  | cons row rest ih =>
    cases hnote : note row with
    | none =>
      rw [filterMap_cons_none hnote]
      exact .cons _ ih
    | some n =>
      rw [filterMap_cons_some hnote, map_cons, h row n hnote]
      exact .cons_cons _ ih

/-! ## Upserts -/

section
variable [DecidableEq K]

/-- `INSERT … ON CONFLICT (key) DO UPDATE`. -/
def upsert (key : Row → K) (table : List Row) (row : Row) : List Row :=
  if table.any (fun other => key other = key row) then updateWhere (fun other => key other = key row) (fun _ => row) table
  else table ++ [row]

variable {key : Row → K} {table : List Row} {row other : Row}

theorem mem_upsert : other ∈ upsert key table row ↔ other = row ∨ (other ∈ table ∧ key other ≠ key row) := by
  unfold upsert
  split
  · rename_i hany
    constructor
    · intro h
      rcases updateWhere_cases h with ⟨hmem, hkey⟩ | ⟨_, _, _, rfl⟩
      · exact .inr ⟨hmem, of_decide_eq_false hkey⟩
      · exact .inl rfl
    · rintro (rfl | ⟨hmem, hkey⟩)
      · obtain ⟨old, hold, hkey⟩ := any_eq_true.mp hany
        exact updated_mem hold hkey
      · exact unmatched_mem hmem (by simpa using hkey)
  · rename_i hnone
    have hfsh : ∀ old ∈ table, key old ≠ key row := by simpa using hnone
    rw [mem_append, mem_singleton]
    constructor
    · rintro (hmem | rfl)
      · exact .inr ⟨hmem, hfsh other hmem⟩
      · exact .inl rfl
    · rintro (rfl | ⟨hmem, _⟩)
      · exact .inr rfl
      · exact .inl hmem

theorem nodup_upsert (h : (table.map key).Nodup) : ((upsert key table row).map key).Nodup := by
  unfold upsert
  split
  · rw [map_updateWhere_of (fun old hold => (of_decide_eq_true hold).symm)]
    exact h
  · rename_i hnone
    have hfsh : ∀ old ∈ table, key old ≠ key row := by simpa using hnone
    exact nodup_insert h hfsh

theorem nodup_foldl_upsert (rows : List Row) (h : (table.map key).Nodup) : ((rows.foldl (upsert key) table).map key).Nodup := by
  induction rows generalizing table with
  | nil => exact h
  | cons row rest ih => exact ih (nodup_upsert h)

/-- **After a series of upserts** a key has the last row that came under it, or the row it had. -/
theorem mem_foldl_upsert (rows : List Row) : other ∈ rows.foldl (upsert key) table
      ↔ rows.reverse.find? (fun row => key row = key other) = some other
        ∨ (other ∈ table ∧ ∀ row ∈ rows, key row ≠ key other) := by
  induction rows using reverseRecOn with
  | nil => simp
  | append_singleton rest row ih =>
    rw [foldl_append, foldl_cons, foldl_nil, mem_upsert, ih, reverse_append, reverse_singleton, singleton_append]
    by_cases hkey : key row = key other
    · rw [find?_cons_of_pos (by simpa using hkey)]
      constructor
      · rintro (rfl | ⟨_, hne⟩)
        · exact .inl rfl
        · exact absurd hkey.symm hne
      · rintro (hsome | ⟨_, hno⟩)
        · cases hsome
          exact .inl rfl
        · exact absurd hkey (hno row (mem_append_right _ (mem_singleton_self _)))
    · rw [find?_cons_of_neg (by simpa using hkey)]
      constructor
      · rintro (rfl | ⟨hlast | ⟨hmem, hno⟩, _⟩)
        · exact absurd rfl hkey
        · exact .inl hlast
        · refine .inr ⟨hmem, fun later hlat => ?_⟩
          rcases mem_append.mp hlat with hlat | hlat
          · exact hno later hlat
          · rw [mem_singleton.mp hlat]
            exact hkey
      · rintro (hlast | ⟨hmem, hno⟩)
        · exact .inr ⟨.inl hlast, fun h => hkey h.symm⟩
        · exact .inr ⟨.inr ⟨hmem, fun later hlat => hno later (mem_append_left _ hlat)⟩, fun h => hkey h.symm⟩

end

end Table
