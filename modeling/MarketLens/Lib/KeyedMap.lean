import Std.Data.TreeMap
import Mathlib.Data.List.Nodup
import Mathlib.Algebra.BigOperators.Group.List.Basic

/-!
# Ordered maps collected from keyed records

A program that compares two snapshots usually collects each of them into an
ordered map first, under a key the records carry themselves, and then walks the
maps in key order. This file is about that shape and about nothing else.

* `index key xs` is the collected map; a later record with the same key replaces
  an earlier one, and when the keys are distinct the map holds exactly `xs`.
* `foldl_toList_flatMap` is the frame rule of such a walk: when the output
  produced for one key only concerns that key, a run over the whole output seen
  from key `k` is a run over the output of `k`'s own entry.
-/

namespace KeyedMap

open Std List

variable {K V S C : Type}

/-- Items that leave the state alone contribute nothing to a run. -/
theorem foldl_inert (step : S → C → S) {items : List C} (h : ∀ c ∈ items, ∀ s, step s c = s)
    (s : S) : items.foldl step s = s := by
  induction items with
  | nil => rfl
  | cons c rest ih =>
    rw [foldl_cons, h c mem_cons_self]
    exact ih fun c' hc' => h c' (mem_cons_of_mem _ hc')

/-- Entries under other keys leave the state alone, so only `k`'s own entry is seen. -/
theorem foldl_flatMap_local [DecidableEq K] (step : S → C → S) (emit : K × V → List C) (k : K) :
    ∀ (entries : List (K × V)) (s : S), (entries.map Prod.fst).Nodup → (∀ e ∈ entries, e.1 ≠ k → ∀ s, (emit e).foldl step s = s) →
      (entries.flatMap emit).foldl step s = (entries.find? (fun e => e.1 = k)).elim s fun e => (emit e).foldl step s := by
  intro entries
  induction entries with
  | nil => intro s _ _; rfl
  | cons e rest ih =>
    intro s hnd hoth
    rw [map_cons, nodup_cons] at hnd
    rw [flatMap_cons, foldl_append]
    have htail : ∀ e' ∈ rest, e'.1 ≠ k → ∀ s, (emit e').foldl step s = s :=
      fun e' he' => hoth e' (mem_cons_of_mem _ he')
    by_cases hk : e.1 = k
    · rw [find?_cons_of_pos (by simpa using hk), ih _ hnd.2 htail]
      have hnone : rest.find? (fun e' => e'.1 = k) = none := by
        rw [find?_eq_none]
        intro e' he' heq
        have h : e'.1 = k := by simpa using heq
        exact hnd.1 (mem_map.mpr ⟨e', he', by rw [h, hk]⟩)
      rw [hnone]
      rfl
    · rw [find?_cons_of_neg (by simpa using hk), ih _ hnd.2 htail, hoth e mem_cons_self hk]

/-! ## What the collected map holds -/

variable [Ord K]

/-- Collect records into an ordered map under the key each one carries. -/
def index (key : V → K) (xs : List V) : TreeMap K V compare :=
  TreeMap.ofList (xs.map fun x => (key x, x))

variable [LawfulEqOrd K]

variable {key : V → K} {xs : List V}

theorem pairwise_index (hnd : (xs.map key).Nodup) :
    (xs.map fun x => (key x, x)).Pairwise (fun a b => ¬compare a.1 b.1 = Ordering.eq) := by
  rw [pairwise_map]
  rw [List.Nodup, pairwise_map] at hnd
  exact hnd.imp fun h heq => h (LawfulEqOrd.eq_of_compare heq)

variable [TransOrd K]

variable {k : K}

/-- With distinct keys, looking a key up finds exactly the record that carries it. -/
theorem getElem?_index (hnd : (xs.map key).Nodup) {x : V} : (index key xs)[k]? = some x ↔ x ∈ xs ∧ key x = k := by
  have found : ∀ y ∈ xs, (index key xs)[key y]? = some y := by
    intro y hy
    exact TreeMap.getElem?_ofList_of_mem (ReflCmp.compare_self) (pairwise_index hnd) (mem_map.mpr ⟨y, hy, rfl⟩)
  constructor
  · intro h
    have hmem : k ∈ index key xs := TreeMap.mem_iff_isSome_getElem?.mpr (by rw [h]; rfl)
    classical
    have hkeys : k ∈ (xs.map fun x => (key x, x)).map Prod.fst := by
      rw [index, TreeMap.mem_ofList] at hmem
      simpa using hmem
    obtain ⟨y, hy, rfl⟩ : ∃ y ∈ xs, key y = k := by
      simpa [mem_map, Function.comp_def] using hkeys
    rw [found y hy] at h
    cases h
    exact ⟨hy, rfl⟩
  · rintro ⟨hx, rfl⟩
    exact found x hx

theorem getElem?_index_eq_none (hnd : (xs.map key).Nodup) : (index key xs)[k]? = none ↔ ∀ x ∈ xs, key x ≠ k := by
  rw [Option.eq_none_iff_forall_ne_some]
  constructor
  · intro h x hx hk
    exact h x ((getElem?_index hnd).mpr ⟨hx, hk⟩)
  · intro h x hx
    obtain ⟨hmem, hk⟩ := (getElem?_index hnd).mp hx
    exact h x hmem hk

theorem contains_index (hnd : (xs.map key).Nodup) : (index key xs).contains k = true ↔ ∃ x ∈ xs, key x = k := by
  rw [TreeMap.contains_eq_isSome_getElem?, Option.isSome_iff_exists]
  exact ⟨fun ⟨x, h⟩ => ⟨x, (getElem?_index hnd).mp h⟩, fun ⟨x, h⟩ => ⟨x, (getElem?_index hnd).mpr h⟩⟩

theorem contains_index_eq_false (h : ∀ x ∈ xs, key x ≠ k) : (index key xs).contains k = false := by
  classical
  rw [index, TreeMap.contains_ofList, ← Bool.not_eq_true]
  intro hmem
  obtain ⟨x, hx, hk⟩ : ∃ x ∈ xs, key x = k := by simpa using hmem
  exact h x hx hk

theorem nodup_keys (m : TreeMap K V compare) : (m.toList.map Prod.fst).Nodup := by
  rw [List.Nodup, pairwise_map]
  refine TreeMap.distinct_keys_toList.imp ?_
  intro a b h heq
  exact h (by rw [heq]; exact ReflCmp.compare_self)

/-- With distinct keys, the map's values are the collected records, reordered. -/
theorem values_index_perm (hnd : (xs.map key).Nodup) : ((index key xs).toList.map Prod.snd).Perm xs := by
  have hkey : ∀ e ∈ (index key xs).toList, key e.2 = e.1 := by
    intro e he
    exact ((getElem?_index hnd).mp (TreeMap.mem_toList_iff_getElem?_eq_some.mp he)).2
  have hvals : ((index key xs).toList.map Prod.snd).Nodup := by
    refine List.Nodup.of_map key ?_
    have hmap : ((index key xs).toList.map Prod.snd).map key = (index key xs).toList.map Prod.fst := by
      rw [map_map]
      exact map_congr_left hkey
    rw [hmap]
    exact nodup_keys _
  rw [perm_ext_iff_of_nodup hvals (List.Nodup.of_map key hnd)]
  intro x
  constructor
  · intro h
    obtain ⟨⟨k, v⟩, hkv, rfl⟩ := mem_map.mp h
    exact ((getElem?_index hnd).mp (TreeMap.mem_toList_iff_getElem?_eq_some.mp hkv)).1
  · intro hx
    exact mem_map.mpr ⟨(key x, x), TreeMap.mem_toList_iff_getElem?_eq_some.mpr ((getElem?_index hnd).mpr ⟨hx, rfl⟩), rfl⟩

/-! ## Walking a map, seen from one key -/

theorem find?_toList [DecidableEq K] (m : TreeMap K V compare) (k : K) :
    m.toList.find? (fun e => e.1 = k) = m[k]?.map (fun v => (k, v)) := by
  cases hm : m[k]? with
  | none =>
    rw [Option.map_none, find?_eq_none]
    intro e he heq
    have h : e.1 = k := by simpa using heq
    have := TreeMap.mem_toList_iff_getElem?_eq_some.mp he
    rw [h, hm] at this
    exact absurd this (by simp)
  | some v =>
    have hmem : (k, v) ∈ m.toList := TreeMap.mem_toList_iff_getElem?_eq_some.mpr hm
    cases hf : m.toList.find? (fun e => e.1 = k) with
    | none =>
      rw [find?_eq_none] at hf
      exact absurd (hf (k, v) hmem) (by simp)
    | some e =>
      have hk : e.1 = k := by simpa using find?_some hf
      have he := TreeMap.mem_toList_iff_getElem?_eq_some.mp (mem_of_find?_eq_some hf)
      cases e
      simp_all

/--
**A walk over an ordered map, seen from one key, is that key's own entry.**

The hypothesis is locality: what the walk emits for another key does not move
the part of the state that `step` looks at.
-/
theorem foldl_toList_flatMap [DecidableEq K] (step : S → C → S) (emit : K × V → List C) (k : K) (m : TreeMap K V compare) (s : S)
    (hoth : ∀ e ∈ m.toList, e.1 ≠ k → ∀ s, (emit e).foldl step s = s) :
    (m.toList.flatMap emit).foldl step s = m[k]?.elim s fun v => (emit (k, v)).foldl step s := by
  rw [foldl_flatMap_local step emit k m.toList s (nodup_keys m) hoth, find?_toList]
  cases m[k]? <;> rfl

/-- A sum over an ordered map that only `k`'s entry contributes to. -/
theorem sum_toList_local [DecidableEq K] {M : Type} [AddCommMonoid M] (g : K × V → M) (k : K)
    (m : TreeMap K V compare) (hoth : ∀ e ∈ m.toList, e.1 ≠ k → g e = 0) :
    (m.toList.map g).sum = (m[k]?.map fun v => g (k, v)).getD 0 := by
  have h := foldl_toList_flatMap (fun a e => a + g e) (fun e => [e]) k m 0 (by
    intro e he hne s
    simp [hoth e he hne])
  rw [flatMap_singleton', ← foldl_map, ← sum_eq_foldl] at h
  rw [h]
  cases m[k]? <;> simp

end KeyedMap
