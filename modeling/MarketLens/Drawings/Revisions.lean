import MarketLens.Drawings.SyncQueue

/-!
# The revisions of drawings

The rows of a user's drawings, under their client ids, and one tab that edits them through its outbox. Every
write moves the revision of its row on, but a response lists only the rows that were upserted.
-/

namespace MarketLens.Drawings

open List Option Except Function Batch

variable {K V : Type} [DecidableEq K]

/-! ## The rows -/

structure Row (V : Type) where
  payload : V
  revision : Nat
  deleted : Bool

def Row.live (row : Row V) : Option V := if row.deleted then none else some row.payload

abbrev Rows (K V : Type) := K → Option (Row V)

inductive RepoError where
  | conflict
  | badRequest

/-- `$n::bigint IS NULL OR revision = $n`. -/
def Item.expects (item : Item V) (row : Row V) : Bool := item.expectedRevision.all (· = row.revision)

/-- `deleteByAnyID`, by a client id. -/
def deleteByAnyID (item : Item V) (row : Option (Row V)) : Except RepoError (Option (Row V)) :=
  if item.expectedRevision.any (· < 1) then .error .badRequest
  else
    match row.filter fun row => !row.deleted && item.expects row with
    | some row => .ok (some { row with deleted := true, revision := row.revision + 1 })
    | none => if item.expectedRevision.isSome then .error .conflict else .ok row

/-- `upsertDrawing`, of a write that is well formed but for its `expectedRevision`. -/
def upsertDrawing (item : Item V) (row : Option (Row V)) : Except RepoError (Option (Row V)) :=
  if item.expectedRevision.any (· < 1) then .error .badRequest
  else
    match row with
    | none => .ok (some ⟨item.payload, 1, false⟩)
    | some row => if item.expects row then .ok (some ⟨item.payload, row.revision + 1, false⟩) else .error .conflict

def writeRows (write : Item V → Option (Row V) → Except RepoError (Option (Row V))) (items : Items K V) (rows : Rows K V) :
    Except RepoError (Rows K V) :=
  items.foldlM (fun rows e => (write e.2 (rows e.1)).map (Function.update rows e.1)) rows

/-- `Repo.Batch`. -/
def Batch.commit (request : Batch K V) (rows : Rows K V) : Except RepoError (Rows K V) := do
  writeRows upsertDrawing request.upserts (← writeRows deleteByAnyID request.deletes rows)

/-! ## The tab -/

structure Tab (K V : Type) where
  queue : Queue K V
  rows : Rows K V
  acknowledged : K → Option Nat
  drawings : K → Option V

inductive TabAction (K V : Type) where
  | edit (k : K) (kind : MutationKind) (payload : V)
  | flush (canSend : Bool)
  | deliver
  | settle

def MutationKind.outcome (kind : MutationKind) (payload : V) : Option V :=
  match kind with
  | .upsert => some payload
  | .delete => none

namespace Tab

def new (K V : Type) : Tab K V := ⟨Queue.new K V, fun _ => none, fun _ => none, fun _ => none⟩

/-- `send` and its response, which has the rows of the upserts. -/
def deliver (t : Tab K V) (request : Batch K V) : Option (Tab K V) :=
  match request.commit t.rows with
  | .error _ => t.queue.reject.map ({ t with queue := · })
  | .ok rows =>
    let upserted k := (request.upserts.lookup k).bind fun _ => (rows k).map Row.revision
    (t.queue.answer upserted false).map ({ t with queue := ·, rows, acknowledged := fun k => (upserted k).or (t.acknowledged k) })

def step (t : Tab K V) : TabAction K V → Option (Tab K V)
  | .edit k kind payload => some { t with
      queue := t.queue.enqueue k kind payload (t.acknowledged k)
      drawings := Function.update t.drawings k (kind.outcome payload) }
  | .flush canSend => some { t with queue := t.queue.flush canSend }
  | .deliver =>
    match t.queue.chain with
    | .sending request => t.deliver request
    | _ => none
  | .settle => t.queue.settle.map ({ t with queue := · })

end Tab

/-! ## The statement -/

/-- What is being sent will be accepted, and once nothing waits the rows are the drawings. -/
structure Agrees (t : Tab K V) : Prop where
  accepted : ∀ request, t.queue.chain = .sending request → ∃ rows, request.commit t.rows = .ok rows
  same : t.queue.pending.size = 0 → t.queue.chain = .idle → ∀ k, (t.rows k).bind Row.live = t.drawings k

/-- No drawing is edited again once the delete of its row has been sent. -/
def Unreused (t : Tab K V) : TabAction K V → Prop
  | .edit k _ _ => (∀ row, t.rows k = some row → row.deleted = false)
      ∧ ∀ request, t.queue.chain = .sending request → (request.deletes.lookup k).isSome → t.rows k = none
  | _ => True

/-! ## A batch, key by key -/

section Batches

variable (write : Item V → Option (Row V) → Except RepoError (Option (Row V))) {items : Items K V} (rows : Rows K V)

/-- Writes of distinct keys that are accepted each are accepted together, and change the row of their key alone. -/
theorem writeRows_ok (hndp : (items.map Prod.fst).Nodup)
    (hok : ∀ k item, items.lookup k = some item → ∃ row, write item (rows k) = .ok row) :
    ∃ rows', writeRows write items rows = .ok rows' ∧ ∀ k, (items.lookup k = none → rows' k = rows k)
      ∧ ∀ item, items.lookup k = some item → write item (rows k) = .ok (rows' k) := by
  induction items generalizing rows with
  | nil => exact ⟨rows, rfl, fun k => ⟨fun _ => rfl, nofun⟩⟩
  | cons e rest ih =>
    obtain ⟨key, item⟩ := e
    obtain ⟨hfsh, hndp⟩ := nodup_cons.mp hndp
    obtain ⟨row, hrow⟩ := hok key item lookup_cons_self
    have hoth {k : K} (hk : k ≠ key) : ((key, item) :: rest).lookup k = rest.lookup k := by
      simp [lookup_cons, beq_eq_false_iff_ne.mpr hk]
    have hkey : rest.lookup key = none := by
      rw [lookup_eq_none_iff]
      rintro ⟨key', item'⟩ hmem
      exact bne_iff_ne.mpr fun heq => hfsh (mem_map.mpr ⟨_, hmem, heq.symm⟩)
    have hne {k : K} {item : Item V} (hlkup : rest.lookup k = some item) : k ≠ key := by
      rintro rfl
      simp [hkey] at hlkup
    obtain ⟨rows', hrest, hkept⟩ := ih (update rows key row) hndp fun k item hlkup => by
      rw [update_of_ne (hne hlkup)]
      exact hok k item ((hoth (hne hlkup)).trans hlkup)
    refine ⟨rows', ?_, fun k => ?_⟩
    · rw [writeRows, foldlM_cons, hrow]
      exact hrest
    · by_cases hk : k = key
      · subst hk
        rw [lookup_cons_self, (hkept k).1 hkey, update_self]
        refine ⟨(nomatch ·), fun item' hitem => ?_⟩
        rwa [← some.inj hitem]
      · have hkept := hkept k
        rwa [update_of_ne hk, ← hoth hk] at hkept

/-- A row that is not a tombstone, and the revision it is known by. -/
def Current (row : Option (Row V)) (revision : Option Nat) : Prop :=
  row.map Row.revision = revision ∧ ∀ r, row = some r → r.deleted = false ∧ 1 ≤ r.revision

variable {item : Item V} {row : Option (Row V)}

theorem upsertDrawing_ok (hrow : Current row item.expectedRevision) :
    upsertDrawing item row = .ok (some ⟨item.payload, row.elim 1 (·.revision + 1), false⟩) := by
  obtain ⟨hrev, hlive⟩ := hrow
  cases row with
  | none => simp [upsertDrawing, ← hrev]
  | some r => simp [upsertDrawing, Item.expects, ← hrev, Nat.ne_of_gt (hlive r rfl).2]

theorem deleteByAnyID_ok (hrow : Current row item.expectedRevision) :
    deleteByAnyID item row = .ok (row.map fun r => { r with deleted := true, revision := r.revision + 1 }) := by
  obtain ⟨hrev, hlive⟩ := hrow
  cases row with
  | none => simp [deleteByAnyID, ← hrev]
  | some r => simp [deleteByAnyID, Option.filter, Item.expects, ← hrev, Nat.ne_of_gt (hlive r rfl).2, (hlive r rfl).1]

/-- What a batch holds of a key expects a revision. -/
def Batch.Expects (batch : Batch K V) (k : K) (revision : Option Nat) : Prop :=
  ∀ item, batch.upserts.lookup k = some item ∨ batch.deletes.lookup k = some item → item.expectedRevision = revision

/-- The keys of each map are distinct. -/
def Batch.Distinct (batch : Batch K V) : Prop := (batch.upserts.map Prod.fst).Nodup ∧ (batch.deletes.map Prod.fst).Nodup

/-- What a batch makes of the row of a key. -/
structure Batch.Commits (request : Batch K V) (k : K) (row row' : Option (Row V)) : Prop where
  absent : request.held k = [] → row' = row
  upserted : ∀ item, request.upserts.lookup k = some item → row' = some ⟨item.payload, row.elim 1 (·.revision + 1), false⟩
  deleted : ∀ item, request.deletes.lookup k = some item → row' = row.map fun r => { r with deleted := true, revision := r.revision + 1 }

/-- **A batch that expects the revisions of the rows is accepted.** -/
theorem Batch.commit_ok {request : Batch K V} (hdist : request.Distinct)
    (hone : ∀ k, request.upserts.lookup k = none ∨ request.deletes.lookup k = none)
    (hrows : ∀ k, request.held k = [] ∨ ∃ revision, Current (rows k) revision ∧ request.Expects k revision) :
    ∃ rows', request.commit rows = .ok rows' ∧ ∀ k, request.Commits k (rows k) (rows' k) := by
  have hcurr {k : K} {item : Item V} (hitem : request.upserts.lookup k = some item ∨ request.deletes.lookup k = some item) :
      Current (rows k) item.expectedRevision := by
    obtain hnone | ⟨revision, hrow, hexpects⟩ := hrows k
    · obtain ⟨hupserts, hdeletes⟩ := held_eq_nil.mp hnone
      simp [hupserts, hdeletes] at hitem
    · rwa [hexpects item hitem]
  obtain ⟨mid, hdeletes, hmid⟩ := writeRows_ok deleteByAnyID rows hdist.2
    fun k item hitem => ⟨_, deleteByAnyID_ok (hcurr (.inr hitem))⟩
  have hmidrow {k : K} {item : Item V} (hitem : request.upserts.lookup k = some item) : mid k = rows k :=
    (hmid k).1 ((hone k).resolve_left (by simp [hitem]))
  obtain ⟨rows', hupserts, hkept⟩ := writeRows_ok upsertDrawing mid hdist.1
    fun k item hitem => ⟨_, upsertDrawing_ok (hmidrow hitem ▸ hcurr (.inl hitem))⟩
  refine ⟨rows', by rw [commit, hdeletes]; exact hupserts, fun k => ⟨fun hnone => ?_, fun item hitem => ?_, fun item hitem => ?_⟩⟩
  · obtain ⟨hups, hdele⟩ := held_eq_nil.mp hnone
    rw [(hkept k).1 hups, (hmid k).1 hdele]
  · have hwrite := (hkept k).2 item hitem
    rw [hmidrow hitem, upsertDrawing_ok (hcurr (.inl hitem))] at hwrite
    exact (ok.inj hwrite).symm
  · have hwrite := (hmid k).2 item hitem
    rw [deleteByAnyID_ok (hcurr (.inr hitem))] at hwrite
    rw [(hkept k).1 ((hone k).resolve_right (by simp [hitem])), ← ok.inj hwrite]

end Batches

/-! ## One key -/

def Queue.request (q : Queue K V) : Batch K V := q.inFlightRequest.getD .empty

namespace Tab

/-- The outcome of the mutation that is held, or else what there is without it. -/
def outcome (held : List (Mutation V)) (otherwise : Option V) : Option V :=
  held.head?.elim otherwise fun m => m.kind.outcome m.payload

/-- A key of a tab: its row and what is acknowledged of it agree, or the row is a tombstone and nothing of it is held. -/
structure Synced (t : Tab K V) (k : K) : Prop where
  tracked : t.queue.Tracked k
  row : Current (t.rows k) (t.acknowledged k)
    ∨ t.queue.pending.held k = [] ∧ t.queue.sent k = [] ∧ ∃ row, t.rows k = some row ∧ row.deleted = true
  request : t.queue.request.Expects k (t.acknowledged k)
  pending : t.queue.request.upserts.lookup k = none → t.queue.pending.Expects k (t.acknowledged k)
  doomed : t.queue.request.deletes.lookup k = none ∨ t.rows k = none ∨ t.queue.pending.held k = []
  drawing : t.drawings k = outcome (t.queue.pending.held k) (outcome (t.queue.sent k) ((t.rows k).bind Row.live))

/-- The keys of what waits and of what is sent are distinct, and no batch has failed. -/
structure Proper (t : Tab K V) : Prop where
  pending : t.queue.pending.Distinct
  request : t.queue.request.Distinct
  sending : ∀ request, t.queue.chain = .sending request → t.queue.request = request
  calm : ∀ request, t.queue.chain ≠ .failing request

variable {t t' : Tab K V} {k k' : K} {batch : Batch K V} {kind : MutationKind} {item : Item V} {revision : Option Nat}

theorem expects_enqueue : (batch.enqueue k kind item).Expects k item.expectedRevision := by
  cases kind <;> simp [enqueue, Batch.Expects]

theorem expects_enqueue_of_ne (hk : k ≠ k') : (batch.enqueue k' kind item).Expects k revision ↔ batch.Expects k revision := by
  cases kind <;> simp [enqueue, Batch.Expects, hk]

theorem expects_rebase {revisions : K → Option Nat} (hexpects : revisions k = none → batch.Expects k revision) :
    (batch.rebase revisions).Expects k ((revisions k).or revision) := by
  rintro item hitem
  obtain ⟨item', hitem', rfl⟩ : ∃ item', (batch.upserts.lookup k = some item' ∨ batch.deletes.lookup k = some item')
      ∧ { item' with expectedRevision := (revisions k).or item'.expectedRevision } = item := by
    simp only [rebase, lookup_mapItems, map_eq_some_iff] at hitem
    obtain ⟨item', h⟩ | ⟨item', h⟩ := hitem
    · exact ⟨item', .inl h.1, h.2⟩
    · exact ⟨item', .inr h.1, h.2⟩
  cases hrev : revisions k with
  | none => simpa using hexpects hrev item' hitem'
  | some => rfl

/-- What is sent is nothing, or the batch that is on its way. -/
theorem Proper.request_eq (h : t.Proper) (htracked : t.queue.Tracked k) :
    t.queue.request = .empty ∨ t.queue.chain = .sending t.queue.request := by
  cases hchain : t.queue.chain with
  | idle => exact .inl (by rw [Queue.request, htracked.resting (.inl hchain)]; rfl)
  | sending request => exact .inr (by rw [Queue.request, htracked.sending request hchain]; rfl)
  | failing request => exact absurd hchain (h.calm request)
  | settling => exact .inl (by rw [Queue.request, htracked.resting (.inr hchain)]; rfl)

theorem exclusive (hone : (batch.held k).length ≤ 1) : batch.upserts.lookup k = none ∨ batch.deletes.lookup k = none := by
  by_contra hboth
  obtain ⟨hups, hdele⟩ := not_or.mp hboth
  obtain ⟨upsert, hups⟩ := ne_none_iff_exists'.mp hups
  obtain ⟨delete, hdele⟩ := ne_none_iff_exists'.mp hdele
  simp [held, hups, hdele] at hone

namespace Synced

theorem edit (h : t.Synced k) (hprop : t.Proper) {payload : V} (hok : Unreused t (.edit k' kind payload))
    (hstep : t.step (.edit k' kind payload) = some t') : t'.Synced k := by
  cases hstep
  have htracked : (t.queue.enqueue k' kind payload (t.acknowledged k')).Tracked k := h.tracked.enqueue kind payload _
  have hheld : (t.queue.pending.enqueue k' kind ⟨payload, t.acknowledged k', t.queue.next k'⟩).held k
      = if k = k' then [⟨kind, payload, t.queue.next k'⟩] else t.queue.pending.held k := held_enqueue
  by_cases hk : k = k'
  · subst hk
    rw [if_pos rfl] at hheld
    refine ⟨htracked, .inl (h.row.resolve_right ?_), h.request, fun _ => expects_enqueue, ?_, ?_⟩
    · rintro ⟨-, -, row, hrow, hdeld⟩
      simp [hok.1 row hrow] at hdeld
    · obtain hemp | hsen := hprop.request_eq h.tracked
      · exact .inl (congrArg (·.deletes.lookup k) hemp)
      · rw [← not_isSome_iff_eq_none]
        exact (em _).symm.imp_right fun hdele => .inl (hok.2 _ hsen hdele)
    · refine (update_self ..).trans ?_
      change _ = outcome ((t.queue.pending.enqueue k kind ⟨payload, t.acknowledged k, t.queue.next k⟩).held k) _
      rw [hheld]
      rfl
  · rw [if_neg hk] at hheld
    refine ⟨htracked, ?_, h.request, fun hups => (expects_enqueue_of_ne hk).mpr (h.pending hups), ?_, ?_⟩
    · exact h.row.imp_right fun hgone => ⟨hheld.trans hgone.1, hgone.2⟩
    · exact h.doomed.imp_right (Or.imp_right hheld.trans)
    · refine (update_of_ne hk _ _).trans (h.drawing.trans ?_)
      change _ = outcome ((t.queue.pending.enqueue k' kind ⟨payload, t.acknowledged k', t.queue.next k'⟩).held k) _
      rw [hheld]
      rfl

theorem flush (h : t.Synced k) {canSend : Bool} (hstep : t.step (.flush canSend) = some t') : t'.Synced k := by
  cases hstep
  have htracked := h.tracked.flush canSend
  simp only [Queue.flush] at htracked ⊢
  split
  next hidle =>
    have hreq : t.queue.request = .empty := by rw [Queue.request, h.tracked.resting (.inl hidle)]; rfl
    have hsent : t.queue.sent k = [] := congrArg (·.held k) hreq
    rw [hidle] at htracked
    split
    next hcan =>
      simp only [hcan, if_true] at htracked
      exact { h with tracked := htracked }
    next hcan =>
      split
      next => exact h
      next hsize =>
        simp only [hcan, hsize, if_false] at htracked
        refine ⟨htracked, h.row.imp_right fun hgone => ⟨rfl, hgone.1, hgone.2.2⟩, ?_, ?_, .inr (.inr rfl), ?_⟩
        · exact h.pending (congrArg (·.upserts.lookup k) hreq)
        · rintro - item (hitem | hitem) <;> cases hitem
        · rw [h.drawing, hsent]
          rfl
  next => exact h

theorem settle (h : t.Synced k) (hprop : t.Proper) (hstep : t.step .settle = some t') : t'.Synced k := by
  obtain ⟨queue, hsettle, rfl⟩ := map_eq_some_iff.mp hstep
  have htracked := h.tracked.settle hsettle
  unfold Queue.settle at hsettle
  split at hsettle
  next request hfailing => exact absurd hfailing (hprop.calm request)
  next hsettling =>
    cases hsettle
    have hreq : t.queue.request = .empty := by rw [Queue.request, h.tracked.resting (.inr hsettling)]; rfl
    have hsent : t.queue.sent k = [] := congrArg (·.held k) hreq
    refine ⟨htracked, h.row.imp_right fun hgone => ⟨hgone.1, rfl, hgone.2.2⟩, ?_, ?_, .inl rfl, ?_⟩
    · rintro item (hitem | hitem) <;> cases hitem
    · exact fun _ => h.pending (congrArg (·.upserts.lookup k) hreq)
    · rw [h.drawing, hsent]
      rfl
  next => cases hsettle

theorem committed (h : t.Synced k) {request : Batch K V} (hreq : t.queue.request = request) {row : Option (Row V)}
    (hrow : request.Commits k (t.rows k) row) :
    (Current row (((request.upserts.lookup k).bind fun _ => row.map Row.revision).or (t.acknowledged k))
        ∨ t.queue.pending.held k = [] ∧ ∃ r, row = some r ∧ r.deleted = true)
      ∧ row.bind Row.live = outcome (request.held k) ((t.rows k).bind Row.live) := by
  cases hups : request.upserts.lookup k with
  | some item =>
    obtain rfl := hrow.upserted item hups
    refine ⟨.inl ⟨rfl, ?_⟩, ?_⟩
    · rintro _ ⟨⟩
      cases t.rows k <;> simp
    · simp only [held, hups]
      rfl
  | none =>
    cases hdele : request.deletes.lookup k with
    | none =>
      have hheld := held_eq_nil.mpr ⟨hups, hdele⟩
      rw [hrow.absent hheld, hheld]
      exact ⟨h.row.imp_right fun hgone => ⟨hgone.1, hgone.2.2⟩, rfl⟩
    | some item =>
      rw [hrow.deleted item hdele]
      cases hbef : t.rows k with
      | none =>
        have hcurr : Current (t.rows k) (t.acknowledged k) := h.row.resolve_right fun hgone => by simp [hbef] at hgone
        rw [hbef] at hcurr
        exact ⟨.inl hcurr, by simp only [held, hups, hdele]; rfl⟩
      | some =>
        refine ⟨.inr ⟨(h.doomed.resolve_left ?_).resolve_left ?_, _, rfl, rfl⟩, by simp only [held, hups, hdele]; rfl⟩
        · simp [hreq, hdele]
        · simp [hbef]

/-- What a tab sends is accepted, and its response leaves every key synced. -/
theorem deliver (h : ∀ k, t.Synced k) (hprop : t.Proper) {request : Batch K V} (hsen : t.queue.chain = .sending request) :
    ∃ rows, request.commit t.rows = .ok rows ∧ ∀ t', t.step .deliver = some t' → ∀ k, t'.Synced k := by
  have hreq := hprop.sending request hsen
  have hsent (k : K) : t.queue.sent k = request.held k := congrArg (·.held k) hreq
  -- every item of the request carries the revision of its row, or nothing was sent of the key
  obtain ⟨rows, hcmt, hrows⟩ := commit_ok t.rows (hreq ▸ hprop.request)
    (fun k => exclusive (hsent k ▸ (h k).tracked.sent_length)) fun k => by
      have hexpects := (h k).request
      rw [hreq] at hexpects
      obtain hrow | ⟨-, hnone, -⟩ := (h k).row
      · exact .inr ⟨_, hrow, hexpects⟩
      · exact .inl ((hsent k).symm.trans hnone)
  refine ⟨rows, hcmt, fun t' hstep k => ?_⟩
  obtain ⟨hrow, hlive⟩ := (h k).committed hreq (hrows k)
  simp only [step, hsen, Tab.deliver, hcmt] at hstep
  -- the response rebases what is pending on the rows it reports
  obtain ⟨queue, hans, rfl⟩ := map_eq_some_iff.mp hstep
  have htracked := (h k).tracked.answer (by trivial) hans
  simp only [Queue.answer, hsen] at hans
  cases hans
  have hheld (revisions : K → Option Nat) : (t.queue.pending.rebase revisions).held k = t.queue.pending.held k := held_rebase
  have hpend := (h k).pending
  rw [hreq] at hpend
  refine ⟨htracked, ?_, ?_, fun _ => expects_rebase fun hrev => hpend ?_, .inl rfl, ?_⟩
  · exact hrow.imp_right fun hgone => ⟨(hheld _).trans hgone.1, rfl, hgone.2⟩
  · rintro item (hitem | hitem) <;> cases hitem
  · by_contra hups
    obtain ⟨item, hitem⟩ := ne_none_iff_exists'.mp hups
    simp [hitem, (hrows k).upserted item hitem] at hrev
  · refine (h k).drawing.trans ?_
    change _ = outcome ((t.queue.pending.rebase _).held k) ((rows k).bind Row.live)
    rw [hheld, hsent, hlive]

end Synced

omit [DecidableEq K] in
theorem distinct_empty : (Batch.empty : Batch K V).Distinct := ⟨nodup_nil, nodup_nil⟩

theorem set_nodup {items : Items K V} (h : (items.map Prod.fst).Nodup) : ((items.set k item).map Prod.fst).Nodup := by
  refine nodup_cons.mpr ⟨?_, h.sublist (filter_sublist.map _)⟩
  simp [Items.delete]

namespace Proper

theorem step (h : t.Proper) (hsynced : ∀ k, t.Synced k) {a : TabAction K V} (hstep : t.step a = some t') : t'.Proper := by
  cases a with
  | edit k kind =>
    cases hstep
    refine ⟨?_, h.request, h.sending, h.calm⟩
    cases kind with
    | upsert => exact ⟨set_nodup h.pending.1, h.pending.2.sublist (filter_sublist.map _)⟩
    | delete => exact ⟨h.pending.1.sublist (filter_sublist.map _), set_nodup h.pending.2⟩
  | flush =>
    cases hstep
    unfold Queue.flush
    split
    next hidle =>
      split
      next => exact { h with }
      next =>
        split
        next => exact h
        next => exact ⟨distinct_empty, h.pending, fun _ hsen => Chain.sending.inj hsen, fun _ hfailing => by cases hfailing⟩
    next => exact h
  | deliver =>
    simp only [Tab.step] at hstep
    split at hstep
    next request hsen =>
      obtain ⟨rows, hcmt, -⟩ := Synced.deliver hsynced h hsen
      simp only [Tab.deliver, hcmt] at hstep
      obtain ⟨queue, hans, rfl⟩ := map_eq_some_iff.mp hstep
      simp only [Queue.answer, hsen] at hans
      cases hans
      refine ⟨?_, distinct_empty, fun _ hsen => ?_, fun _ hfailing => ?_⟩
      · simpa [Batch.Distinct, rebase, mapItems, comp_def] using h.pending
      · cases hsen
      · cases hfailing
    next => cases hstep
  | settle =>
    obtain ⟨queue, hsettle, rfl⟩ := map_eq_some_iff.mp hstep
    unfold Queue.settle at hsettle
    split at hsettle
    next request hfailing => exact absurd hfailing (h.calm request)
    next =>
      cases hsettle
      exact ⟨h.pending, distinct_empty, fun _ hsen => (by cases hsen), fun _ hfailing => by cases hfailing⟩
    next => cases hsettle

end Proper

theorem synced_step (h : ∀ k, t.Synced k) (hprop : t.Proper) {a : TabAction K V} (hok : Unreused t a)
    (hstep : t.step a = some t') : ∀ k, t'.Synced k := by
  cases a with
  | edit k => exact fun k => (h k).edit hprop hok hstep
  | flush => exact fun k => (h k).flush hstep
  | deliver =>
    cases hchain : t.queue.chain with
    | sending =>
      obtain ⟨-, -, hsynced⟩ := Synced.deliver h hprop hchain
      exact hsynced t' hstep
    | _ => simp [Tab.step, hchain] at hstep
  | settle => exact fun k => (h k).settle hprop hstep

theorem synced_new : (Tab.new K V).Synced k :=
  ⟨Queue.tracked_new, .inl ⟨rfl, nofun⟩, (by rintro _ (hnone | hnone) <;> cases hnone),
    (by rintro - _ (hnone | hnone) <;> cases hnone), .inl rfl, rfl⟩

/-- **A tab that does not edit a drawing again once its delete was sent never conflicts with itself, and its rows come to be
its drawings.** -/
theorem agrees_of_unreused (hrun : Runs.Reaches Tab.step Unreused (Tab.new K V) t) : Agrees t := by
  obtain ⟨hprop, hsynced⟩ := hrun.invariant (fun t => t.Proper ∧ ∀ k, t.Synced k)
    ⟨⟨distinct_empty, distinct_empty, nofun, nofun⟩, fun _ => synced_new⟩
    fun t a t' h hok hstep => ⟨h.1.step h.2 hstep, synced_step h.2 h.1 hok hstep⟩
  refine ⟨fun request hsen => ?_, fun hsize hidle k => ?_⟩
  · obtain ⟨rows, hcmt, -⟩ := Synced.deliver hsynced hprop hsen
    exact ⟨rows, hcmt⟩
  · obtain ⟨hupserts, hdeletes⟩ := Nat.add_eq_zero_iff.mp hsize
    have hpend : t.queue.pending.held k = [] := by
      rw [held, length_eq_zero_iff.mp hupserts, length_eq_zero_iff.mp hdeletes]
      rfl
    have hsent : t.queue.sent k = [] := by
      rw [Queue.sent, (hsynced k).tracked.resting (.inl hidle)]
      rfl
    rw [(hsynced k).drawing, hpend, hsent]
    rfl

/-- A drawing is created, changed while it is sent, and deleted. -/
theorem deleted_agrees : ∃ t : Tab Nat Nat, t.queue.chain = .settling ∧ (t.rows 1).bind Row.live = none ∧ (t.rows 1).isSome ∧ Agrees t :=
  ⟨_, rfl, rfl, rfl, agrees_of_unreused (.step (.step (.step (.step (.step (.step (.step .refl (a := .edit 1 .upsert 7)
    ⟨nofun, nofun⟩ rfl) (a := .flush true) trivial rfl)
    (a := .edit 1 .delete 0) ⟨nofun, (by rintro _ ⟨⟩ h; cases h)⟩ rfl) (a := .deliver) trivial rfl)
    (a := .settle) trivial rfl) (a := .flush true) trivial rfl) (a := .deliver) trivial rfl)⟩

/-- A drawing is deleted, and created again while its delete is sent. -/
theorem recreated_conflicts : ∃ t : Tab Nat Nat, Runs.Reaches Tab.step Runs.always (Tab.new Nat Nat) t ∧ ¬ Agrees t := by
  refine ⟨_, .step (.step (.step (.step (.step (.step (.step (.step (.step (.step .refl (a := .edit 1 .upsert 7) trivial rfl)
    (a := .flush true) trivial rfl) (a := .deliver) trivial rfl) (a := .settle) trivial rfl) (a := .edit 1 .delete 0) trivial rfl)
    (a := .flush true) trivial rfl) (a := .edit 1 .upsert 8) trivial rfl) (a := .deliver) trivial rfl) (a := .settle) trivial rfl)
    (a := .flush true) trivial rfl, fun h => ?_⟩
  obtain ⟨rows, hcmt⟩ := h.accepted _ rfl
  change error RepoError.conflict = .ok rows at hcmt
  cases hcmt

end Tab

end MarketLens.Drawings
