import Mathlib.Data.List.Nodup
import Mathlib.Data.List.Induction

/-!
# Least recently used, first out

A cache of bounded size that drops the key unused for longest. A log of uses puts
the keys it names in the order of their last uses (`recent`); a cache of `bound`
keys holds the last `bound` of them (`trim`). `trim_touch_trim` is why the cache
never needs the rest: using a key in what was kept, or adding one to it, leaves
the same keys as in the whole order.
-/

namespace Lru

open List

variable {K : Type} [DecidableEq K] {key : K} {order uses : List K} {bound : Nat}

/-- A use moves the key behind all others. -/
def touch (key : K) (order : List K) : List K := order.erase key ++ [key]

/-- The keys used so far, the one unused for longest first. -/
def recent (uses : List K) : List K := uses.foldl (fun order key => touch key order) []

omit [DecidableEq K] in
/-- What a cache of `bound` keys holds of an order. -/
def trim (bound : Nat) (order : List K) : List K := order.drop (order.length - bound)

/-! ## Using a key -/

theorem touch_of_not_mem (h : key ∉ order) : touch key order = order ++ [key] := by
  unfold touch
  rw [erase_of_not_mem h]

theorem mem_touch {k : K} : k ∈ touch key order ↔ k ∈ order ∨ k = key := by
  unfold touch
  rw [mem_append, mem_singleton]
  constructor
  · rintro (hk | hk)
    · exact .inl (mem_of_mem_erase hk)
    · exact .inr hk
  · rintro (hk | hk)
    · by_cases heq : k = key
      · exact .inr heq
      · exact .inl ((mem_erase_of_ne heq).mpr hk)
    · exact .inr hk

theorem nodup_touch (h : order.Nodup) : (touch key order).Nodup := by
  unfold touch
  rw [nodup_append]
  refine ⟨h.erase key, nodup_singleton key, ?_⟩
  intro k hk k' hk' heq
  rw [mem_singleton] at hk'
  rw [heq, hk'] at hk
  exact h.not_mem_erase hk

theorem recent_append (uses : List K) (key : K) : recent (uses ++ [key]) = touch key (recent uses) := by
  unfold recent
  rw [foldl_append]
  rfl

theorem mem_recent {k : K} : k ∈ recent uses ↔ k ∈ uses := by
  induction uses using reverseRecOn with
  | nil => exact Iff.rfl
  | append_singleton uses key ih => rw [recent_append, mem_touch, ih, mem_append, mem_singleton]

theorem nodup_recent : (recent uses).Nodup := by
  induction uses using reverseRecOn with
  | nil => exact nodup_nil
  | append_singleton uses key ih =>
    rw [recent_append]
    exact nodup_touch ih

/-! ## The order is that of the last uses -/

omit [DecidableEq K] in
/-- `later` has been used since the last use of `key`. -/
def UsedSince (uses : List K) (key later : K) : Prop :=
  ∃ before after, uses = before ++ after ∧ key ∉ after ∧ later ∈ after

omit [DecidableEq K] in
theorem UsedSince.append {key later used : K} (h : UsedSince uses key later) (hne : key ≠ used) :
    UsedSince (uses ++ [used]) key later := by
  obtain ⟨before, after, rfl, hkey, hlat⟩ := h
  refine ⟨before, after ++ [used], append_assoc _ _ _, ?_, mem_append_left _ hlat⟩
  rw [mem_append, mem_singleton]
  exact fun h => h.elim hkey hne

theorem recent_sorted (uses : List K) : (recent uses).Pairwise (UsedSince uses) := by
  induction uses using reverseRecOn with
  | nil => exact List.Pairwise.nil
  | append_singleton uses used ih =>
    rw [recent_append]
    unfold touch
    have hne : ∀ key ∈ (recent uses).erase used, key ≠ used := by
      intro key hkey heq
      rw [heq] at hkey
      exact nodup_recent.not_mem_erase hkey
    rw [pairwise_append]
    refine ⟨?_, pairwise_singleton _ _, ?_⟩
    · exact (ih.sublist erase_sublist).imp_of_mem fun hkey _ hsince => hsince.append (hne _ hkey)
    · intro key hkey later hlat
      rw [mem_singleton] at hlat
      subst hlat
      refine ⟨uses, [later], rfl, ?_, mem_singleton_self later⟩
      rw [mem_singleton]
      exact hne key hkey

/-! ## What a bounded cache keeps -/

omit [DecidableEq K] in
theorem length_trim : (trim bound order).length = min bound order.length := by
  unfold trim
  rw [length_drop]
  omega

omit [DecidableEq K] in
theorem trim_of_le (h : order.length ≤ bound) : trim bound order = order := by
  unfold trim
  rw [Nat.sub_eq_zero_of_le h, drop_zero]

omit [DecidableEq K] in
theorem trim_append {dropped : List K} (h : bound ≤ order.length) : trim bound (dropped ++ order) = trim bound order := by
  unfold trim
  rw [length_append, Nat.add_sub_assoc h, ← drop_drop, drop_left]

omit [DecidableEq K] in
/-- An order is what was dropped and what is kept; something was dropped only from a full cache. -/
theorem exists_dropped (bound : Nat) (order : List K) :
    ∃ dropped, order = dropped ++ trim bound order
      ∧ (dropped ≠ [] → (trim bound order).length = bound) := by
  refine ⟨order.take (order.length - bound), (take_append_drop _ order).symm, ?_⟩
  intro hdrpd
  have hlng : 0 < order.length - bound := by
    rcases Nat.eq_zero_or_pos (order.length - bound) with hzero | hpos
    · rw [hzero, take_zero] at hdrpd
      exact absurd rfl hdrpd
    · exact hpos
  rw [length_trim]
  omega

/-- **Using or adding a key in what was kept is as good as doing it in the whole order.** -/
theorem trim_touch_trim (hndp : order.Nodup) : trim bound (touch key (trim bound order)) = trim bound (touch key order) := by
  obtain ⟨dropped, hord, hfull⟩ := exists_dropped bound order
  generalize trim bound order = kept at hord hfull
  subst hord
  rcases eq_nil_or_concat' dropped with rfl | hdrpd
  · rw [nil_append]
  have hkept : kept.length = bound := by
    obtain ⟨_, _, rfl⟩ := hdrpd
    exact hfull (by simp)
  by_cases hkey : key ∈ dropped
  · have hnotin : key ∉ kept := fun hmem => (nodup_append.mp hndp).2.2 key hkey key hmem rfl
    have hfits : bound ≤ (kept ++ [key]).length := by
      rw [length_append]
      omega
    rw [touch_of_not_mem hnotin, touch, erase_append_left _ hkey, append_assoc, trim_append hfits]
  · rw [touch, touch, erase_append_right _ hkey, append_assoc]
    have herase : bound ≤ (kept.erase key ++ [key]).length := by
      rw [length_append, length_erase]
      split <;> simp only [length_singleton] <;> omega
    rw [trim_append herase]

/-- Using a key that was kept drops nothing. -/
theorem touch_trim (hndp : order.Nodup) (hkey : key ∈ trim bound order) :
    touch key (trim bound order) = trim bound (touch key order) := by
  rw [← trim_touch_trim hndp]
  refine (trim_of_le ?_).symm
  have hpos := length_pos_of_mem hkey
  have hle : (trim bound order).length ≤ bound := by
    rw [length_trim]
    exact Nat.min_le_left _ _
  unfold touch
  rw [length_append, length_erase_of_mem hkey, length_singleton]
  omega

/-! ## A cache over a log -/

/-- The cache holds the most recently used keys of the log, and as many of them as fit. -/
def Holds (bound : Nat) (uses cached : List K) : Prop := cached = trim bound (recent uses)

variable {cached : List K}

section Holds

variable (h : Holds bound uses cached)
include h

theorem Holds.hit (hkey : key ∈ cached) : Holds bound (uses ++ [key]) (touch key cached) := by
  unfold Holds at *
  rw [recent_append]
  subst h
  exact touch_trim nodup_recent hkey

theorem Holds.store : Holds bound (uses ++ [key]) (trim bound (touch key cached)) := by
  unfold Holds at *
  rw [recent_append, h]
  exact trim_touch_trim nodup_recent

theorem Holds.length_le : cached.length ≤ bound := by
  rw [h, length_trim]
  exact Nat.min_le_left _ _

/-- **The one evicted is the one unused for longest**: whatever is cached was used since, and the cache is full. -/
theorem Holds.evicted (hused : key ∈ uses)
    (hgone : key ∉ cached) : cached.length = bound ∧ ∀ later ∈ cached, UsedSince uses key later := by
  obtain ⟨dropped, hord, hfull⟩ := exists_dropped bound (recent uses)
  rw [← h] at hord hfull
  have hdrpd : key ∈ dropped := by
    have hmem := mem_recent.mpr hused
    rw [hord, mem_append] at hmem
    exact hmem.resolve_right hgone
  refine ⟨hfull (ne_nil_of_mem hdrpd), ?_⟩
  intro later hlat
  have hsrt := recent_sorted uses
  rw [hord, pairwise_append] at hsrt
  exact hsrt.2.2 key hdrpd later hlat

end Holds

end Lru
