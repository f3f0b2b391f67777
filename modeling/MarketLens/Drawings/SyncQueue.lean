import Mathlib.Data.List.Basic
import MarketLens.Lib.Run

/-!
# The drawing outbox

Upserts and deletes wait under the ids of their drawings until a batch takes them. While it is in
flight newer ones may be queued; a batch that failed is merged back under them. What is persisted is
the queue over the batch that is in flight.
-/

namespace MarketLens.Drawings

open List Option

/-! ## The queue -/

inductive MutationKind where
  | upsert
  | delete
deriving DecidableEq

variable {K V : Type} [DecidableEq K]

/-- A local mutation of a drawing, numbered among those of its key. -/
structure Mutation (V : Type) where
  kind : MutationKind
  payload : V
  number : Nat
deriving DecidableEq

/-- `BackendDrawingWrite`, `BackendDrawingDelete`: what is sent of a mutation. -/
structure Item (V : Type) where
  payload : V
  expectedRevision : Option Nat
  number : Nat

def Item.mutation (kind : MutationKind) (item : Item V) : Mutation V := ⟨kind, item.payload, item.number⟩

/-- A map from the key of an item, which is its `clientId`. -/
abbrev Items (K V : Type) := List (K × Item V)

namespace Items

variable {items : Items K V} {k k' : K} {item : Item V}

def delete (k : K) (items : Items K V) : Items K V := items.filter (·.1 ≠ k)

def set (k : K) (item : Item V) (items : Items K V) : Items K V := (k, item) :: items.delete k

theorem lookup_filter (p : K → Bool) : (items.filter fun e => p e.1).lookup k = if p k then items.lookup k else none := by
  induction items with
  | nil => simp
  | cons e rest ih =>
    obtain ⟨key, item⟩ := e
    rw [filter_cons]
    by_cases hk : k = key
    · subst hk
      by_cases hp : p k <;> simp [hp, ih]
    · have hne : (k == key) = false := by simpa using hk
      by_cases hp : p key <;> simp [hp, ih, lookup_cons, hne]

@[simp] theorem lookup_delete : (items.delete k').lookup k = if k = k' then none else items.lookup k := by
  rw [delete, lookup_filter (decide <| · ≠ k')]
  simp

@[simp] theorem lookup_set : (items.set k' item).lookup k = if k = k' then some item else items.lookup k := by
  by_cases hk : k = k'
  · simp [set, hk]
  · have hne : (k == k') = false := by simpa using hk
    simp [set, lookup_cons, hne, hk]

theorem lookup_map {f : K → Item V → Item V} :
    List.lookup k (items.map fun e => (e.1, f e.1 e.2)) = (items.lookup k).map (f k) := by
  induction items with
  | nil => rfl
  | cons e rest ih =>
    obtain ⟨key, item⟩ := e
    by_cases hk : k = key
    · subst hk
      simp
    · have hne : (k == key) = false := by simpa using hk
      simp [lookup_cons, hne, ih]

end Items

/-- `BackendDrawingBatchRequest`, and the two maps of the queue. -/
structure Batch (K V : Type) where
  upserts : Items K V
  deletes : Items K V

namespace Batch

def empty : Batch K V := ⟨[], []⟩

def size (batch : Batch K V) : Nat := batch.upserts.length + batch.deletes.length

/-- The mutations the two maps hold of a key. -/
def held (batch : Batch K V) (k : K) : List (Mutation V) :=
  (batch.upserts.lookup k).toList.map (Item.mutation .upsert) ++ (batch.deletes.lookup k).toList.map (Item.mutation .delete)

def has (batch : Batch K V) (k : K) : Bool := (batch.upserts.lookup k).isSome || (batch.deletes.lookup k).isSome

/-- The items whose keys are in neither map. -/
def absent (batch : Batch K V) (items : Items K V) : Items K V := items.filter (!batch.has ·.1)

/-- The older items under the newer ones, the upserts first. -/
def merge (newer older : Batch K V) : Batch K V :=
  let first : Batch K V := { newer with upserts := newer.upserts ++ newer.absent older.upserts }
  { first with deletes := newer.deletes ++ first.absent older.deletes }

/-- `enqueueUpsert`, `enqueueDelete`: an item takes the place of what its key has in either map. -/
def enqueue (k : K) (kind : MutationKind) (item : Item V) (batch : Batch K V) : Batch K V :=
  match kind with
  | .upsert => ⟨batch.upserts.set k item, batch.deletes.delete k⟩
  | .delete => ⟨batch.upserts.delete k, batch.deletes.set k item⟩

/-- The items of a snapshot as the maps they are set into, where a later one takes the place of an earlier. -/
def maps (snapshot : Batch K V) : Batch K V := ⟨snapshot.upserts.reverse, snapshot.deletes.reverse⟩

/-- The items of a batch with those of another set over them, in each map. -/
def hydrate (batch found : Batch K V) : Batch K V := ⟨found.upserts ++ batch.upserts, found.deletes ++ batch.deletes⟩

def mapItems (f : K → Item V → Item V) (batch : Batch K V) : Batch K V :=
  ⟨batch.upserts.map fun e => (e.1, f e.1 e.2), batch.deletes.map fun e => (e.1, f e.1 e.2)⟩

/-- `rebasePendingToAcknowledgedRevisions`. -/
def rebase (revisions : K → Option Nat) : Batch K V → Batch K V :=
  mapItems fun k item => { item with expectedRevision := (revisions k).or item.expectedRevision }

end Batch

/-- How far the promise of a batch is: it is being sent, its `catch` is to run, or its `finally`. -/
inductive Chain (K V : Type) where
  | idle
  | sending (request : Batch K V)
  | failing (request : Batch K V)
  | settling

/-- `DrawingSyncQueue`, less its timer, with the local mutations and how many of a key are acknowledged. -/
structure Queue (K V : Type) where
  pending : Batch K V
  chain : Chain K V
  inFlightRequest : Option (Batch K V)
  retryAttempt : Nat
  persisted : Batch K V × Nat
  latest : K → Option (Mutation V)
  acked : K → Nat

namespace Queue

def new (K V : Type) : Queue K V := ⟨.empty, .idle, none, 0, (.empty, 0), fun _ => none, fun _ => 0⟩

def snapshot (q : Queue K V) : Batch K V × Nat := (q.pending.merge (q.inFlightRequest.getD .empty), q.retryAttempt)

def persist (q : Queue K V) : Queue K V := { q with persisted := q.snapshot }

/-- The number of the next mutation of the key. -/
def next (q : Queue K V) (k : K) : Nat := ((q.latest k).map Mutation.number).getD 0 + 1

/-- The latest mutation of the key is not acknowledged yet. -/
def unacknowledged (q : Queue K V) (k : K) : Bool := (q.latest k).any fun m => q.acked k < m.number

def enqueue (k : K) (kind : MutationKind) (payload : V) (expectedRevision : Option Nat) (q : Queue K V) : Queue K V :=
  { q with
    pending := q.pending.enqueue k kind ⟨payload, expectedRevision, q.next k⟩
    latest := Function.update q.latest k (some ⟨kind, payload, q.next k⟩) }.persist

/-- `hydrate`. An item of a key without a mutation that waits is one that is found again. -/
def hydrate (snapshot : Batch K V) (retryAttempt : Nat) (q : Queue K V) : Queue K V :=
  let found := snapshot.maps.mapItems fun k item => { item with number := q.next k }
  { q with
    pending := q.pending.hydrate found
    retryAttempt
    latest := fun k => if q.unacknowledged k then q.latest k else (found.held k).head?.or (q.latest k) }.persist

/-- `flushNow`, up to the request: it waits for the one that is in flight, and where it cannot send it persists. -/
def flush (canSend : Bool) (q : Queue K V) : Queue K V :=
  match q.chain with
  | .idle =>
    if !canSend then q.persist
    else if q.pending.size = 0 then q
    else { q with chain := .sending q.pending, inFlightRequest := some q.pending, pending := .empty }.persist
  | _ => q

/-- The response, and `then`: the error of a callback that throws goes to `catch`. -/
def answer (revisions : K → Option Nat) (throws : Bool) (q : Queue K V) : Option (Queue K V) :=
  match q.chain with
  | .sending request =>
    some { q with
      chain := if throws then .failing request else .settling
      retryAttempt := 0, inFlightRequest := none, pending := q.pending.rebase revisions
      acked := fun k => ((request.held k).map Mutation.number).headD (q.acked k) }
  | _ => none

/-- The request fails. -/
def reject (q : Queue K V) : Option (Queue K V) :=
  match q.chain with
  | .sending request => some { q with chain := .failing request }
  | _ => none

/-- `catch`, and later `finally`. -/
def settle (q : Queue K V) : Option (Queue K V) :=
  match q.chain with
  | .failing request =>
    some { q with
      pending := q.pending.merge request, retryAttempt := q.retryAttempt + 1, inFlightRequest := none, chain := .settling }
  | .settling => some { q with inFlightRequest := none, chain := .idle }.persist
  | _ => none

end Queue

inductive QueueAction (K V : Type) where
  | enqueue (k : K) (kind : MutationKind) (payload : V) (expectedRevision : Option Nat)
  | hydrate (snapshot : Batch K V) (retryAttempt : Nat)
  | flush (canSend : Bool)
  | answer (revisions : K → Option Nat) (throws : Bool)
  | reject
  | settle

def Queue.step (q : Queue K V) : QueueAction K V → Option (Queue K V)
  | .enqueue k kind payload expectedRevision => some (q.enqueue k kind payload expectedRevision)
  | .hydrate snapshot retryAttempt => some (q.hydrate snapshot retryAttempt)
  | .flush canSend => some (q.flush canSend)
  | .answer revisions throws => q.answer revisions throws
  | .reject => q.reject
  | .settle => q.settle

/-! ## The statement -/

/-- Nothing is lost: one mutation waits of each key, the persisted one is the latest unless that is acknowledged,
and none that is acknowledged waits. -/
structure Lossless (q : Queue K V) : Prop where
  exclusive : ∀ k, q.pending.upserts.lookup k = none ∨ q.pending.deletes.lookup k = none
  persisted : ∀ k m, q.latest k = some m → q.acked k < m.number → q.persisted.1.held k = [m]
  waits : ∀ k, ∀ m ∈ q.pending.held k, q.acked k < m.number

/-- A snapshot brings back keys with nothing unacknowledged, each once; a callback throws only where a newer
mutation waits of every key it was told of. -/
def Gentle (q : Queue K V) : QueueAction K V → Prop
  | .hydrate snapshot _ => ∀ k, (snapshot.maps.held k).length ≤ 1 ∧ (snapshot.maps.held k ≠ [] → q.unacknowledged k = false)
  | .answer _ true => ∀ request, q.chain = .sending request → ∀ k, request.held k ≠ [] → q.pending.held k ≠ []
  | _ => True

/-! ## One key -/

namespace Batch

variable {newer older batch snapshot : Batch K V} {k k' : K} {kind : MutationKind} {item : Item V}

theorem held_eq_nil : batch.held k = [] ↔ batch.upserts.lookup k = none ∧ batch.deletes.lookup k = none := by
  cases hups : batch.upserts.lookup k <;> cases hdele : batch.deletes.lookup k <;> simp [held, hups, hdele]

theorem held_enqueue : (batch.enqueue k' kind item).held k = if k = k' then [item.mutation kind] else batch.held k := by
  by_cases hk : k = k' <;> cases kind <;> simp [enqueue, held, hk]

theorem lookup_absent {items : Items K V} : (batch.absent items).lookup k = if batch.has k then none else items.lookup k := by
  rw [absent, Items.lookup_filter (!batch.has ·)]
  cases batch.has k <;> rfl

/-- A merge holds what the newer batch holds of a key, and of the others what the older one does. -/
theorem held_merge (hone : newer.held k = [] → (older.held k).length ≤ 1) :
    (newer.merge older).held k = if newer.held k = [] then older.held k else newer.held k := by
  cases hups : newer.upserts.lookup k with
  | some => simp [held, merge, lookup_append, lookup_absent, has, hups]
  | none =>
    cases hdele : newer.deletes.lookup k with
    | some => simp [held, merge, lookup_append, lookup_absent, has, hups, hdele]
    | none =>
      have hnone : newer.held k = [] := held_eq_nil.mpr ⟨hups, hdele⟩
      have hone := hone hnone
      rw [if_pos hnone]
      -- a key the older batch has as an upsert it does not have as a delete
      cases holder : older.upserts.lookup k <;> cases hdeld : older.deletes.lookup k
        <;> simp_all [-lookup_eq_none_iff, held, merge, lookup_append, lookup_absent, has]

theorem lookup_mapItems {f : K → Item V → Item V} : (batch.mapItems f).upserts.lookup k = (batch.upserts.lookup k).map (f k)
    ∧ (batch.mapItems f).deletes.lookup k = (batch.deletes.lookup k).map (f k) := ⟨Items.lookup_map, Items.lookup_map⟩

theorem held_mapItems {f : K → Item V → Item V} {g : Mutation V → Mutation V}
    (hf : ∀ kind item, (f k item).mutation kind = g (item.mutation kind)) : (batch.mapItems f).held k = (batch.held k).map g := by
  have hmutation (kind : MutationKind) : Item.mutation kind ∘ f k = g ∘ Item.mutation kind := funext (hf kind)
  simp [held, lookup_mapItems, toList_map, hmutation]

theorem held_rebase {revisions : K → Option Nat} : (batch.rebase revisions).held k = batch.held k :=
  (held_mapItems (g := id) fun _ _ => rfl).trans (map_id _)

@[simp] theorem held_empty : (empty : Batch K V).held k = [] := rfl

theorem held_hydrate (hnone : batch.held k = []) {found : Batch K V} : (batch.hydrate found).held k = found.held k := by
  simp only [held, hydrate, lookup_append, held_eq_nil.mp hnone, or_none]

theorem held_hydrate_absent {found : Batch K V} (hnone : found.held k = []) : (batch.hydrate found).held k = batch.held k := by
  simp only [held, hydrate, lookup_append, held_eq_nil.mp hnone, none_or]

end Batch

namespace Queue

variable {q q' : Queue K V} {k k' : K} {m : Mutation V}

/-- The mutations of a key in the batch that is in flight. -/
def sent (q : Queue K V) (k : K) : List (Mutation V) := (q.inFlightRequest.getD .empty).held k

/-- Where the latest mutation of a key is, and what the promise of a batch and the acknowledgements have to do with it. -/
structure Tracked (q : Queue K V) (k : K) : Prop where
  pending : q.pending.held k = [] ∨ ∃ m, q.pending.held k = [m] ∧ q.latest k = some m ∧ q.acked k < m.number
  sent : q.sent k = [] ∨ ∃ m l, q.sent k = [m] ∧ q.latest k = some l ∧ q.acked k < m.number
    ∧ (if q.pending.held k = [] then m = l else m.number < l.number)
  latest : ∀ m, q.latest k = some m → q.acked k < m.number → q.pending.held k = [m] ∨ q.pending.held k = [] ∧ q.sent k = [m]
  acked : q.acked k < q.next k
  sending : ∀ request, q.chain = .sending request → q.inFlightRequest = some request
  failing : ∀ request, q.chain = .failing request → q.inFlightRequest = some request
    ∨ q.inFlightRequest = none ∧ (request.held k ≠ [] → q.pending.held k ≠ [])
  resting : q.chain = .idle ∨ q.chain = .settling → q.inFlightRequest = none

/-- What is persisted of a key whose latest mutation is not acknowledged. -/
def Saved (q : Queue K V) (k : K) : Prop := ∀ m, q.latest k = some m → q.acked k < m.number → q.persisted.1.held k = [m]

namespace Tracked

theorem sent_length (h : q.Tracked k) : (q.sent k).length ≤ 1 := by
  obtain hnone | ⟨m, l, hsent, -⟩ := h.sent
  · simp [hnone]
  · simp [hsent]

/-- What a queue that keeps track persists is what it holds. -/
theorem saved_persist (h : q.Tracked k) : q.persist.Saved k := by
  intro m hlatest hacked
  have hsnp : q.snapshot.1.held k = if q.pending.held k = [] then q.sent k else q.pending.held k :=
    Batch.held_merge fun _ => h.sent_length
  change q.snapshot.1.held k = [m]
  obtain hpend | ⟨hpend, hsent⟩ := h.latest m hlatest hacked
  · rw [hsnp, hpend, if_neg (by simp)]
  · rw [hsnp, if_pos hpend, hsent]

omit [DecidableEq K] in
theorem next_of_latest {l : Mutation V} (hlatest : q.latest k = some l) : q.next k = l.number + 1 := by simp [next, hlatest]

/-- A mutation of the batch that is in flight is older than one that is queued now. -/
theorem sent_lt (h : q.Tracked k) (hsent : q.sent k = [m]) : m.number < q.next k ∧ q.acked k < m.number := by
  obtain hnone | ⟨m', l, hsent', hlatest, hacked, hord⟩ := h.sent
  · simp [hnone] at hsent
  · obtain rfl : m' = m := by simpa [hsent'] using hsent
    rw [next_of_latest hlatest]
    refine ⟨?_, hacked⟩
    split at hord
    · simp [hord]
    · omega

theorem same (h : q.Tracked k) (hpend : q'.pending.held k = q.pending.held k) (hlatest : q'.latest k = q.latest k)
    (hacked : q'.acked k = q.acked k) (hchain : q'.chain = q.chain) (hreq : q'.inFlightRequest = q.inFlightRequest) :
    q'.Tracked k := by
  have hsent : q'.sent k = q.sent k := by rw [Queue.sent, hreq, Queue.sent]
  have hnext : q'.next k = q.next k := by rw [next, hlatest, next]
  constructor
  · rw [hpend, hlatest, hacked]; exact h.pending
  · rw [hpend, hlatest, hacked, hsent]; exact h.sent
  · rw [hpend, hlatest, hacked, hsent]; exact h.latest
  · rw [hacked, hnext]; exact h.acked
  · rw [hchain, hreq]; exact h.sending
  · rw [hchain, hreq, hpend]; exact h.failing
  · rw [hchain, hreq]; exact h.resting

/-- A mutation that takes the place of what waits of its key is the latest of it. -/
theorem placed (h : q.Tracked k) (hpend : q'.pending.held k = [m]) (hlatest : q'.latest k = some m)
    (hnum : m.number = q.next k) (hacked : q'.acked = q.acked) (hchain : q'.chain = q.chain)
    (hreq : q'.inFlightRequest = q.inFlightRequest) : q'.Tracked k := by
  have hsent : q'.sent k = q.sent k := by rw [Queue.sent, hreq, Queue.sent]
  have hfsh : q.acked k < m.number := by rw [hnum]; exact h.acked
  refine ⟨.inr ⟨m, hpend, hlatest, by rwa [hacked]⟩, ?_, ?_, ?_, ?_, ?_, ?_⟩
  · obtain hnone | ⟨m', l, hsent', -⟩ := h.sent
    · exact .inl (hsent.trans hnone)
    · have hlt := h.sent_lt hsent'
      refine .inr ⟨m', m, hsent.trans hsent', hlatest, by rw [hacked]; exact hlt.2, ?_⟩
      rw [if_neg (by simp [hpend]), hnum]
      exact hlt.1
  · intro l hl _
    obtain rfl : m = l := some.inj (hlatest.symm.trans hl)
    exact .inl hpend
  · rw [next_of_latest hlatest, hacked]
    omega
  · rw [hchain, hreq]
    exact h.sending
  · rw [hchain, hreq]
    exact fun request hfailing => (h.failing request hfailing).imp_right fun hnone => ⟨hnone.1, fun _ => by simp [hpend]⟩
  · rw [hchain, hreq]
    exact h.resting

theorem enqueue (h : q.Tracked k) (kind : MutationKind) (payload : V) (expectedRevision : Option Nat) :
    (q.enqueue k' kind payload expectedRevision).Tracked k := by
  have hheld : (q.pending.enqueue k' kind ⟨payload, expectedRevision, q.next k'⟩).held k
      = if k = k' then [⟨kind, payload, q.next k'⟩] else q.pending.held k := Batch.held_enqueue
  by_cases hk : k = k'
  · subst hk
    exact h.placed (hheld.trans (if_pos rfl)) (Function.update_self ..) rfl rfl rfl rfl
  · exact h.same (hheld.trans (if_neg hk)) (Function.update_of_ne hk _ _) rfl rfl rfl

/-- A key with nothing unacknowledged neither waits nor is in flight. -/
theorem clear (h : q.Tracked k) (hacked : q.unacknowledged k = false) : q.pending.held k = [] ∧ q.sent k = [] := by
  refine ⟨h.pending.resolve_right ?_, h.sent.resolve_right ?_⟩
  · rintro ⟨m, -, hlatest, hlt⟩
    simp [unacknowledged, hlatest, hlt] at hacked
  · rintro ⟨m, l, -, hlatest, hlt, hord⟩
    have hle : m.number ≤ l.number := by
      split at hord
      · exact Nat.le_of_eq (congrArg Mutation.number hord)
      · exact Nat.le_of_lt hord
    simp [unacknowledged, hlatest] at hacked
    omega

theorem hydrate (h : q.Tracked k) {snapshot : Batch K V} {retryAttempt : Nat} (hok : Gentle q (.hydrate snapshot retryAttempt)) :
    (q.hydrate snapshot retryAttempt).Tracked k := by
  obtain ⟨hone, hacked⟩ := hok k
  let found := snapshot.maps.mapItems fun k item => { item with number := q.next k }
  have hheld : found.held k = (snapshot.maps.held k).map ({ · with number := q.next k }) := Batch.held_mapItems fun _ _ => rfl
  have hlatest : (q.hydrate snapshot retryAttempt).latest k
      = if q.unacknowledged k then q.latest k else (found.held k).head?.or (q.latest k) := rfl
  match hfnd : snapshot.maps.held k with
  | [] =>
    rw [hfnd] at hheld
    refine h.same (Batch.held_hydrate_absent hheld) ?_ rfl rfl rfl
    rw [hlatest, hheld]
    simp
  | [m] =>
    have hacked := hacked (by simp [hfnd])
    rw [hfnd] at hheld
    refine h.placed ((Batch.held_hydrate (h.clear hacked).1).trans hheld) ?_ rfl rfl rfl rfl
    rw [hlatest, hheld, hacked]
    rfl
  | _ :: _ :: _ => simp [hfnd] at hone

theorem flush (h : q.Tracked k) (canSend : Bool) : (q.flush canSend).Tracked k := by
  unfold Queue.flush
  split
  next hidle =>
    split
    · exact h.same rfl rfl rfl rfl rfl
    · split
      · exact h
      have hreq := h.resting (.inl hidle)
      constructor
      · exact .inl rfl
      · refine h.pending.imp_right ?_
        rintro ⟨m, hpend, hlatest, hacked⟩
        exact ⟨m, m, hpend, hlatest, hacked, rfl⟩
      · intro m hlatest hacked
        refine .inr ⟨rfl, (h.latest m hlatest hacked).resolve_right ?_⟩
        rintro ⟨-, hsent⟩
        simp [Queue.sent, hreq] at hsent
      · exact h.acked
      · exact fun request hsen => congrArg some (Chain.sending.inj hsen)
      · exact fun request hfailing => by cases hfailing
      · rintro (hresting | hresting) <;> cases hresting
  next => exact h

theorem reject (h : q.Tracked k) (hreject : q.reject = some q') : q'.Tracked k := by
  unfold Queue.reject at hreject
  split at hreject
  next request hsen =>
    cases hreject
    refine { h with sending := ?_, failing := ?_, resting := ?_ }
    · exact nofun
    · exact fun _ hfailing => .inl ((h.sending request hsen).trans (congrArg some (Chain.failing.inj hfailing)))
    · rintro (hresting | hresting) <;> cases hresting
  next => cases hreject

/-- Once a batch is answered its mutation of a key is acknowledged, and only a newer one still waits. -/
theorem answered (h : q.Tracked k) (acked : Nat) (hacked : acked = ((q.sent k).map Mutation.number).headD (q.acked k)) :
    acked < q.next k ∧ (q.pending.held k = [] ∨ ∃ m, q.pending.held k = [m] ∧ q.latest k = some m ∧ acked < m.number)
      ∧ ∀ m, q.latest k = some m → acked < m.number → q.pending.held k = [m] := by
  obtain hnone | ⟨m, l, hsent, hlatest, hlt, hord⟩ := h.sent
  · obtain rfl : acked = q.acked k := by simpa [hnone] using hacked
    refine ⟨h.acked, h.pending, fun m hlatest hlt => (h.latest m hlatest hlt).resolve_right ?_⟩
    simp [hnone]
  · obtain rfl : acked = m.number := by simpa [hsent] using hacked
    refine ⟨(h.sent_lt hsent).1, ?_, fun m' hlatest' hlt' => ?_⟩
    · refine h.pending.imp_right ?_
      rintro ⟨p, hpend, hlatest', -⟩
      obtain rfl : l = p := some.inj (hlatest.symm.trans hlatest')
      rw [if_neg (by simp [hpend])] at hord
      exact ⟨l, hpend, hlatest, hord⟩
    · obtain rfl : l = m' := some.inj (hlatest.symm.trans hlatest')
      obtain hpend | ⟨hpend, -⟩ := h.latest l hlatest (by omega)
      · exact hpend
      · rw [if_pos hpend] at hord
        exact absurd (congrArg Mutation.number hord) (Nat.ne_of_lt hlt')

theorem answer (h : q.Tracked k) {revisions : K → Option Nat} {throws : Bool} (hok : Gentle q (.answer revisions throws))
    (hans : q.answer revisions throws = some q') : q'.Tracked k := by
  unfold Queue.answer at hans
  split at hans
  next request hsen =>
    cases hans
    have hreq := h.sending request hsen
    have hheld : (q.pending.rebase revisions).held k = q.pending.held k := Batch.held_rebase
    have hsent : q.sent k = request.held k := by simp [Queue.sent, hreq]
    obtain ⟨hacked, hpend, hlatest⟩ := h.answered _ (by rw [hsent])
    constructor
    · rwa [hheld]
    · exact .inl rfl
    · rw [hheld]
      exact fun m hm hlt => .inl (hlatest m hm hlt)
    · exact hacked
    · cases throws <;> exact nofun
    · rw [hheld]
      cases throws with
      | false => exact nofun
      | true =>
        intro request' hfailing
        cases hfailing
        exact .inr ⟨rfl, hok request hsen k⟩
    · exact fun _ => rfl
  next => cases hans

/-- A batch that is merged back leaves of a key what waits, or what was in flight. -/
theorem held_merge (h : q.Tracked k) {request : Batch K V} (hfailing : q.chain = .failing request) :
    (q.pending.merge request).held k = if q.pending.held k = [] then q.sent k else q.pending.held k := by
  obtain hreq | ⟨hreq, hwaits⟩ := h.failing request hfailing
  · have hsent : q.sent k = request.held k := by simp [Queue.sent, hreq]
    rw [Batch.held_merge fun _ => hsent ▸ h.sent_length, hsent]
  · have hnone : q.pending.held k = [] → request.held k = [] := fun hpend => by_contra fun hne => hwaits hne hpend
    have hsent : q.sent k = [] := by simp [Queue.sent, hreq]
    rw [Batch.held_merge fun hpend => by simp [hnone hpend], hsent]
    split
    next hpend => exact hnone hpend
    next => rfl

theorem settle (h : q.Tracked k) (hsettle : q.settle = some q') : q'.Tracked k := by
  unfold Queue.settle at hsettle
  split at hsettle
  next request hfailing =>
    cases hsettle
    have hheld := h.held_merge hfailing
    constructor
    · rw [hheld]
      split
      next hpend =>
        refine h.sent.imp_right ?_
        rintro ⟨m, l, hsent, hlatest, hacked, hord⟩
        obtain rfl : m = l := by simpa [hpend] using hord
        exact ⟨m, hsent, hlatest, hacked⟩
      next => exact h.pending
    · exact .inl rfl
    · intro m hlatest hacked
      rw [hheld]
      obtain hpend | ⟨hpend, hsent⟩ := h.latest m hlatest hacked
      · exact .inl (by rw [hpend, if_neg (by simp)])
      · exact .inl (by rw [if_pos hpend, hsent])
    · exact h.acked
    · exact nofun
    · exact nofun
    · exact fun _ => rfl
  next hsettling =>
    cases hsettle
    have hreq := h.resting (.inr hsettling)
    have hsent : q.sent k = [] := by simp [Queue.sent, hreq]
    refine ⟨h.pending, .inl rfl, fun m hlatest hacked => .inl ((h.latest m hlatest hacked).resolve_right ?_), h.acked, ?_, ?_, fun _ => rfl⟩
    · simp [hsent]
    · exact nofun
    · exact nofun
  next => cases hsettle

/-- **Every gentle step keeps track of every key.** -/
theorem step (h : q.Tracked k) {a : QueueAction K V} (hok : Gentle q a) (hstep : q.step a = some q') : q'.Tracked k := by
  cases a with
  | enqueue k' kind payload expectedRevision =>
    cases hstep
    exact h.enqueue kind payload expectedRevision
  | hydrate =>
    cases hstep
    exact h.hydrate hok
  | flush canSend =>
    cases hstep
    exact h.flush canSend
  | answer => exact h.answer hok hstep
  | reject => exact h.reject hstep
  | settle => exact h.settle hstep

end Tracked

theorem flush_eq (canSend : Bool) : q.flush canSend = q ∨ ∃ q₁ : Queue K V, q.flush canSend = q₁.persist := by
  unfold flush
  split
  next =>
    split
    · exact .inr ⟨_, rfl⟩
    · split
      · exact .inl rfl
      · exact .inr ⟨_, rfl⟩
  next => exact .inl rfl

theorem Saved.kept (hsav : q.Saved k) (hpersisted : q'.persisted = q.persisted) (hlatest : q'.latest = q.latest)
    (hacked : q.acked k ≤ q'.acked k) : q'.Saved k := by
  intro m hm hlt
  rw [hpersisted]
  exact hsav m (hlatest ▸ hm) (Nat.lt_of_le_of_lt hacked hlt)

/-- A step persists the queue, or it leaves what is persisted as it is. -/
theorem Saved.step (hsav : q.Saved k) {a : QueueAction K V} (h : q.Tracked k) (h' : q'.Tracked k) (hstep : q.step a = some q') :
    q'.Saved k := by
  cases a with
  | enqueue | hydrate =>
    cases hstep
    exact h'.saved_persist
  | flush canSend =>
    cases hstep
    obtain hsame | ⟨q₁, hpersist⟩ := q.flush_eq canSend
    · rwa [hsame]
    · rw [hpersist] at h' ⊢
      exact h'.saved_persist
  | answer =>
    simp only [Queue.step, answer] at hstep
    split at hstep
    next request hsen =>
      cases hstep
      have hsent : q.sent k = request.held k := by simp [sent, h.sending request hsen]
      refine hsav.kept rfl rfl ?_
      obtain hnone | ⟨m, l, hheld, -, hacked, -⟩ := h.sent
      · simp [← hsent, hnone]
      · simpa [← hsent, hheld] using Nat.le_of_lt hacked
    next => cases hstep
  | reject =>
    simp only [Queue.step, reject] at hstep
    split at hstep
    next =>
      cases hstep
      exact hsav.kept rfl rfl (Nat.le_refl _)
    next => cases hstep
  | settle =>
    simp only [Queue.step, settle] at hstep
    split at hstep
    next =>
      cases hstep
      exact hsav.kept rfl rfl (Nat.le_refl _)
    next =>
      cases hstep
      exact h'.saved_persist
    next => cases hstep

theorem tracked_new : (Queue.new K V).Tracked k := by
  refine ⟨.inl rfl, .inl rfl, ?_, Nat.zero_lt_one, ?_, ?_, fun _ => rfl⟩
  all_goals exact nofun

/-- **In a run of gentle steps, edits and batches in any order, nothing is lost and nothing acknowledged comes back.** -/
theorem lossless_of_gentle (hrun : Runs.Reaches Queue.step Gentle (Queue.new K V) q) : Lossless q := by
  have hkept : ∀ k, q.Tracked k ∧ q.Saved k :=
    hrun.invariant (fun q => ∀ k, q.Tracked k ∧ q.Saved k) (fun _ => ⟨tracked_new, nofun⟩) fun q a q' h hok hstep k =>
        have h' := (h k).1.step hok hstep
        ⟨h', (h k).2.step (h k).1 h' hstep⟩
  refine ⟨fun k => ?_, fun k => (hkept k).2, fun k m hm => ?_⟩
  · obtain hnone | ⟨m, hpend, -⟩ := (hkept k).1.pending
    · exact .inl (Batch.held_eq_nil.mp hnone).1
    · by_contra hboth
      obtain ⟨hups, hdele⟩ := not_or.mp hboth
      obtain ⟨upsert, hups⟩ := ne_none_iff_exists'.mp hups
      obtain ⟨delete, hdele⟩ := ne_none_iff_exists'.mp hdele
      simp [Batch.held, hups, hdele] at hpend
  · obtain hnone | ⟨m', hpend, -, hacked⟩ := (hkept k).1.pending
    · simp [hnone] at hm
    · obtain rfl : m = m' := by simpa [hpend] using hm
      exact hacked

/-- A drawing is deleted while it is sent, and the batch fails. -/
theorem deleted_lossless : ∃ q : Queue Nat Nat, q.pending.held 1 = [⟨.delete, 0, 2⟩] ∧ Lossless q :=
  ⟨_, rfl, lossless_of_gentle (.step (.step (.step (.step (.step .refl (a := .enqueue 1 .upsert 7 none) trivial rfl)
    (a := .flush true) trivial rfl) (a := .enqueue 1 .delete 0 none) trivial rfl) (a := .reject) trivial rfl)
    (a := .settle) trivial rfl)⟩

/-- A callback throws, and the batch that was acknowledged waits again. -/
theorem thrown_waits : ∃ q, Runs.Reaches Queue.step Runs.always (Queue.new Nat Nat) q ∧ ¬ Lossless q :=
  ⟨_, .step (.step (.step (.step .refl (a := .enqueue 1 .upsert 7 none) trivial rfl) (a := .flush true) trivial rfl)
    (a := .answer (fun _ => some 1) true) trivial rfl) (a := .settle) trivial rfl,
    fun h => absurd (h.waits 1 ⟨.upsert, 7, 1⟩ (by decide)) (by decide)⟩

end Queue

end MarketLens.Drawings
