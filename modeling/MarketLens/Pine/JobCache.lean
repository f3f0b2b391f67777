import Mathlib.Data.List.Perm.Basic
import MarketLens.Lib.Lru
import MarketLens.Pine.Jobs

/-!
# The cache of the job group is a least recently used one

The cache is kept twice, as a map from the keys to the elements of a list and as
that list, and each of `Do` and `storeLocked` updates both by hand. `Indexed` is
what relates the two. Under it a hit is `Lru.touch` on the keys of the list, and a
store is `Lru.touch` and `Lru.trim`.
-/

namespace MarketLens.Pine

open List Option AList Function

namespace RuntimeJobGroup

variable {T : Type} {g : RuntimeJobGroup T} {entries : AList fun _ : String => Nat}
  {order : List (CacheElement T)} {key : String} {value : T} {id : Nat}

/-- The keys of the list, the first to go in front. -/
def cachedKeys (order : List (CacheElement T)) : List String := order.map (·.value.key)

/-- The map leads from the key of each element of the list to that element, and nowhere else. -/
structure Indexed (entries : AList fun _ : String => Nat) (order : List (CacheElement T)) : Prop where
  found : ∀ key id, entries.lookup key = some id ↔ ∃ element ∈ order, element.id = id ∧ element.value.key = key
  keys : (cachedKeys order).Nodup
  ids : (order.map (·.id)).Nodup

theorem Indexed.mem_keys (h : Indexed entries order) : key ∈ entries.keys ↔ key ∈ cachedKeys order := by
  rw [← AList.mem_keys, ← AList.lookup_isSome, isSome_iff_exists]
  unfold cachedKeys
  rw [List.mem_map]
  constructor
  · rintro ⟨id, hid⟩
    obtain ⟨element, hmem, -, hkey⟩ := (h.found key id).mp hid
    exact ⟨element, hmem, hkey⟩
  · rintro ⟨element, hmem, hkey⟩
    exact ⟨element.id, (h.found key element.id).mpr ⟨element, hmem, rfl, hkey⟩⟩

/-- The map and the list are of one length. -/
theorem Indexed.length_keys (h : Indexed entries order) : entries.keys.length = order.length := by
  have hperm : entries.keys.Perm (cachedKeys order) :=
    (perm_ext_iff_of_nodup entries.keys_nodup h.keys).mpr fun key => h.mem_keys
  rw [hperm.length_eq, cachedKeys, length_map]

/-! ## Elements of the list -/

theorem eq_of_id {element element' : CacheElement T} (hids : (order.map (·.id)).Nodup) (hmem : element ∈ order)
    (hmem' : element' ∈ order) (hid : element.id = element'.id) : element = element' :=
  inj_on_of_nodup_map hids hmem hmem' hid

/-- Around an element the list holds no other of its identity. -/
theorem filter_id {element : CacheElement T} {before after : List (CacheElement T)}
    (hids : ((before ++ element :: after).map (·.id)).Nodup) :
    moveToBack (before ++ element :: after) element.id = before ++ after ++ [element] := by
  have hoth : ∀ other ∈ before ++ after, other.id ≠ element.id := by
    intro other hmem heq
    have hperm : (before ++ element :: after).Perm (element :: (before ++ after)) := perm_middle
    have hndp := (hperm.map (·.id)).nodup_iff.mp hids
    rw [map_cons, nodup_cons] at hndp
    exact hndp.1 (mem_map.mpr ⟨other, hmem, heq⟩)
  have hbef : ∀ other ∈ before, other.id ≠ element.id := fun other hmem => hoth other (mem_append_left _ hmem)
  have haft : ∀ other ∈ after, other.id ≠ element.id := fun other hmem => hoth other (mem_append_right _ hmem)
  unfold moveToBack
  rw [filter_append, filter_append, filter_cons_of_neg (by simp), filter_cons_of_pos (by simp)]
  rw [filter_eq_self.mpr (by simpa using hbef), filter_eq_self.mpr (by simpa using haft)]
  rw [filter_eq_nil_iff.mpr (by simpa using hbef), filter_eq_nil_iff.mpr (by simpa using haft)]
  rfl

theorem moveToBack_perm {element : CacheElement T} (hids : (order.map (·.id)).Nodup) (hmem : element ∈ order) :
    (moveToBack order element.id).Perm order := by
  obtain ⟨before, after, rfl⟩ := append_of_mem hmem
  rw [filter_id hids]
  exact (perm_append_singleton element _).trans perm_middle.symm

theorem cachedKeys_moveToBack {element : CacheElement T} (hids : (order.map (·.id)).Nodup)
    (hkeys : (cachedKeys order).Nodup) (hmem : element ∈ order) :
    cachedKeys (moveToBack order element.id) = Lru.touch element.value.key (cachedKeys order) := by
  obtain ⟨before, after, rfl⟩ := append_of_mem hmem
  have hnotin : element.value.key ∉ cachedKeys before := by
    intro hbef
    unfold cachedKeys at hkeys hbef
    rw [map_append, map_cons] at hkeys
    exact (nodup_append.mp hkeys).2.2 _ hbef _ mem_cons_self rfl
  rw [filter_id hids]
  unfold Lru.touch
  unfold cachedKeys at *
  rw [map_append, map_append, map_append, erase_append_right _ hnotin, map_cons, map_cons, erase_cons_head]
  rfl

theorem Indexed.perm {order' : List (CacheElement T)} (h : Indexed entries order) (hperm : order'.Perm order) :
    Indexed entries order' where
  found := by
    intro key id
    rw [h.found]
    exact ⟨fun ⟨e, hmem, he⟩ => ⟨e, hperm.mem_iff.mpr hmem, he⟩, fun ⟨e, hmem, he⟩ => ⟨e, hperm.mem_iff.mp hmem, he⟩⟩
  keys := (hperm.map _).nodup_iff.mpr h.keys
  ids := (hperm.map _).nodup_iff.mpr h.ids

/-! ## Storing a result -/

theorem Indexed.insert (h : Indexed entries order) (hfsh : ∀ element ∈ order, element.id < id)
    (hkey : entries.lookup key = none) :
    Indexed (entries.insert key id) (order ++ [{ id, value := { key, value } }]) := by
  have hnew : key ∉ cachedKeys order := by
    rw [← h.mem_keys, ← AList.mem_keys, ← AList.lookup_eq_none]
    exact hkey
  refine ⟨?_, ?_, ?_⟩
  · intro key' id'
    by_cases heq : key' = key
    · subst heq
      rw [lookup_insert, Option.some.injEq]
      constructor
      · rintro rfl
        exact ⟨_, mem_append_right _ (mem_singleton_self _), rfl, rfl⟩
      · rintro ⟨element, hmem, hid, hkey'⟩
        rcases mem_append.mp hmem with hold | hlast
        · exact absurd (List.mem_map.mpr ⟨element, hold, hkey'⟩) hnew
        rw [mem_singleton] at hlast
        rw [hlast] at hid
        exact hid
    · rw [lookup_insert_ne heq, h.found]
      constructor
      · rintro ⟨element, hmem, helement⟩
        exact ⟨element, mem_append_left _ hmem, helement⟩
      · rintro ⟨element, hmem, hid, hkey'⟩
        rcases mem_append.mp hmem with hold | hlast
        · exact ⟨element, hold, hid, hkey'⟩
        · rw [mem_singleton] at hlast
          rw [hlast] at hkey'
          exact absurd hkey'.symm heq
  · have hkeys := h.keys
    unfold cachedKeys at *
    rw [map_append]
    refine hkeys.append (nodup_singleton _) ?_
    rw [List.disjoint_comm, map_singleton, singleton_disjoint]
    exact hnew
  · rw [map_append]
    refine h.ids.append (nodup_singleton _) ?_
    rw [List.disjoint_comm, map_singleton, singleton_disjoint, List.mem_map]
    rintro ⟨element, hmem, hid⟩
    exact absurd (hfsh element hmem) (hid ▸ Nat.lt_irrefl _)

theorem Indexed.tail {oldest : CacheElement T} (h : Indexed entries (oldest :: order)) :
    Indexed (entries.erase oldest.value.key) order := by
  have hkeys := h.keys
  have hids := h.ids
  unfold cachedKeys at hkeys
  rw [map_cons, nodup_cons] at hkeys hids
  refine ⟨?_, hkeys.2, hids.2⟩
  intro key id
  by_cases heq : key = oldest.value.key
  · rw [heq, lookup_erase]
    constructor
    · intro hnone
      cases hnone
    · rintro ⟨element, hmem, -, hkey⟩
      exact absurd (List.mem_map.mpr ⟨element, hmem, hkey⟩) hkeys.1
  · rw [lookup_erase_ne heq, h.found]
    constructor
    · rintro ⟨element, hmem, hid, hkey⟩
      rcases mem_cons.mp hmem with rfl | hrest
      · exact absurd hkey.symm heq
      · exact ⟨element, hrest, hid, hkey⟩
    · rintro ⟨element, hmem, helement⟩
      exact ⟨element, mem_cons_of_mem _ hmem, helement⟩

/-- The loop drops what does not fit from the front, from the map and from the list alike. -/
theorem evict_spec (maxEntries : Nat) (h : Indexed entries order) :
    (evict maxEntries entries order).2 = order.drop (order.length - maxEntries)
      ∧ Indexed (evict maxEntries entries order).1 (evict maxEntries entries order).2 := by
  induction order generalizing entries with
  | nil => exact ⟨drop_nil.symm, h⟩
  | cons oldest rest ih =>
    have hlng := h.length_keys
    rw [length_cons] at hlng
    rw [evict]
    by_cases hfull : entries.keys.length > maxEntries
    · rw [if_pos hfull]
      obtain ⟨hkept, hindexed⟩ := ih h.tail
      have hdrop : (oldest :: rest).length - maxEntries = rest.length - maxEntries + 1 := by
        rw [length_cons]
        omega
      rw [hdrop, drop_succ_cons]
      exact ⟨hkept, hindexed⟩
    · rw [if_neg hfull]
      refine ⟨?_, h⟩
      have hdrop : (oldest :: rest).length - maxEntries = 0 := by
        rw [length_cons]
        omega
      rw [hdrop, drop_zero]

/-! ## The cache over its uses -/

/-- The map and the list agree, identities to come are fresh, and the keys are those last used. -/
structure CacheHolds (g : RuntimeJobGroup T) (uses : List String) : Prop where
  indexed : Indexed g.entries g.order
  fresh : ∀ element ∈ g.order, element.id < g.nextElement
  lru : Lru.Holds g.maxEntries uses (cachedKeys g.order)

variable {uses : List String}

theorem CacheHolds.element (h : CacheHolds g uses) (hlkup : g.entries.lookup key = some id) :
    ∃ element ∈ g.order, element.id = id ∧ element.value.key = key ∧ g.order.find? (·.id = id) = some element := by
  obtain ⟨element, hmem, hid, hkey⟩ := (h.indexed.found key id).mp hlkup
  refine ⟨element, hmem, hid, hkey, ?_⟩
  cases hfind : g.order.find? (·.id = id) with
  | none =>
    rw [find?_eq_none] at hfind
    exact absurd (decide_eq_true hid) (hfind element hmem)
  | some other =>
    have hoth : other.id = id := by simpa using find?_some hfind
    rw [eq_of_id h.indexed.ids (mem_of_find?_eq_some hfind) hmem (hoth.trans hid.symm)]

theorem CacheHolds.hit (h : CacheHolds g uses) (hlkup : g.entries.lookup key = some id) :
    CacheHolds { g with order := moveToBack g.order id } (uses ++ [key]) := by
  obtain ⟨element, hmem, rfl, rfl, -⟩ := h.element hlkup
  have hperm := moveToBack_perm h.indexed.ids hmem
  refine ⟨h.indexed.perm hperm, ?_, ?_⟩
  · exact fun other hoth => h.fresh other (hperm.mem_iff.mp hoth)
  · rw [cachedKeys_moveToBack h.indexed.ids h.indexed.keys hmem]
    exact h.lru.hit (mem_map.mpr ⟨element, hmem, rfl⟩)

theorem Indexed.replace (h : Indexed entries order) (hlkup : entries.lookup key = some id) (value : T) :
    Indexed entries (order.map fun element =>
        if element.id = id then { element with value := { key, value } } else element)
      ∧ cachedKeys (order.map fun element =>
        if element.id = id then { element with value := { key, value } } else element) = cachedKeys order := by
  obtain ⟨stored, hstrd, rfl, rfl⟩ := (h.found key id).mp hlkup
  have hkeys : cachedKeys (order.map fun element =>
      if element.id = stored.id then { element with value := { key := stored.value.key, value } } else element)
        = cachedKeys order := by
    unfold cachedKeys
    rw [List.map_map]
    refine map_congr_left fun element hmem => ?_
    rw [comp_apply]
    split
    · rename_i hid
      rw [eq_of_id h.ids hmem hstrd hid]
    · rfl
  have hids : (order.map fun element => if element.id = stored.id
      then { element with value := { key := stored.value.key, value } } else element).map (·.id) = order.map (·.id) := by
    rw [List.map_map]
    refine map_congr_left fun element _ => ?_
    rw [comp_apply]
    split <;> rfl
  refine ⟨⟨?_, hkeys ▸ h.keys, hids ▸ h.ids⟩, hkeys⟩
  intro key' id'
  rw [h.found]
  constructor
  · rintro ⟨element, hmem, hid, hkey⟩
    refine ⟨_, mem_map_of_mem hmem, ?_, ?_⟩
    · split <;> exact hid
    · split
      · rename_i heq
        rw [eq_of_id h.ids hmem hstrd heq] at hkey
        exact hkey
      · exact hkey
  · rintro ⟨other, hoth, hid, hkey⟩
    obtain ⟨element, hmem, rfl⟩ := mem_map.mp hoth
    refine ⟨element, hmem, ?_, ?_⟩
    · split at hid <;> exact hid
    · split at hkey
      · rename_i heq
        rw [eq_of_id h.ids hmem hstrd heq]
        exact hkey
      · exact hkey

/-- **Storing uses the key and drops the one unused for longest.** -/
theorem CacheHolds.store (h : CacheHolds g uses) (key : String) (value : T) :
    CacheHolds (g.storeLocked key value) (uses ++ [key])
      ∧ ∀ element ∈ (g.storeLocked key value).order, element.value = { key, value } ∨
        ∃ old ∈ g.order, element.value = old.value := by
  unfold storeLocked
  cases hlkup : g.entries.lookup key with
  | some id =>
    obtain ⟨hindexed, hkeys⟩ := h.indexed.replace hlkup value
    obtain ⟨stored, hstrd, hid, hkey⟩ := (hindexed.found key id).mp hlkup
    subst hid
    have hperm := moveToBack_perm hindexed.ids hstrd
    refine ⟨⟨hindexed.perm hperm, ?_, ?_⟩, ?_⟩
    · intro element hmem
      obtain ⟨old, hold, rfl⟩ := mem_map.mp (hperm.mem_iff.mp hmem)
      split <;> exact h.fresh old hold
    · have hmem : key ∈ cachedKeys g.order := by
        rw [← hkeys]
        exact mem_map.mpr ⟨stored, hstrd, hkey⟩
      rw [cachedKeys_moveToBack hindexed.ids hindexed.keys hstrd, hkeys, hkey]
      exact h.lru.hit hmem
    · intro element hmem
      obtain ⟨old, hold, rfl⟩ := mem_map.mp (hperm.mem_iff.mp hmem)
      split
      · exact .inl rfl
      · exact .inr ⟨old, hold, rfl⟩
  | none =>
    dsimp only
    have hindexed : Indexed (g.entries.insert key g.nextElement)
        (g.order ++ [{ id := g.nextElement, value := { key, value } }]) := h.indexed.insert h.fresh hlkup
    obtain ⟨hkept, hindexed'⟩ := evict_spec g.maxEntries hindexed
    have hsub : ∀ element ∈ (evict g.maxEntries (g.entries.insert key g.nextElement)
        (g.order ++ [{ id := g.nextElement, value := { key, value } }])).2,
        element ∈ g.order ∨ element = { id := g.nextElement, value := { key, value } } := by
      intro element hmem
      rw [hkept] at hmem
      rcases mem_append.mp (mem_of_mem_drop hmem) with hold | hnew
      · exact .inl hold
      · exact .inr (mem_singleton.mp hnew)
    refine ⟨⟨hindexed', ?_, ?_⟩, ?_⟩
    · intro element hmem
      rcases hsub element hmem with hold | rfl
      · exact Nat.lt_succ_of_lt (h.fresh element hold)
      · exact Nat.lt_succ_self _
    -- the key is new: it is touched, and the list is trimmed from the front
    · have hnew : key ∉ cachedKeys g.order := by
        rw [← h.indexed.mem_keys, ← AList.mem_keys, ← AList.lookup_eq_none]
        exact hlkup
      have hstore : Lru.Holds g.maxEntries (uses ++ [key])
          (Lru.trim g.maxEntries (Lru.touch key (cachedKeys g.order))) := h.lru.store
      rw [Lru.touch_of_not_mem hnew] at hstore
      rw [hkept]
      unfold Lru.trim at hstore
      unfold cachedKeys at *
      simpa using hstore
    · intro element hmem
      rcases hsub element hmem with hold | rfl
      · exact .inr ⟨element, hold, rfl⟩
      · exact .inl rfl

end RuntimeJobGroup

end MarketLens.Pine
