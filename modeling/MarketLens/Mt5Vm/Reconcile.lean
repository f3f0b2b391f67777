import Mathlib.Data.List.Dedup
import MarketLens.Mt5Vm.Readiness

/-!
# Stored rows and the plan

What a complete snapshot leaves of a family is decided twice: by the plan, which compares
key sets, and by the statements, which delete every row that does not carry the sequence
of the snapshot. They agree because no stored row is ahead of the family's sequence and
only a later sequence passes the fence (`rows_reconciled`), whatever worker, lease or
session submits.
-/

namespace MarketLens.Mt5Vm

open Table List Option Account PerFamily Store Fallible Relation World

variable {settings : Settings} {s s' : World} {act : Action}

/-! ## The plan -/

/-- The members of a `BTreeSet`, in order. -/
def btreeSet (keys : List String) : List String := keys.dedup.mergeSort fun a b => decide (a ≤ b)

variable {key : String}

theorem mem_btreeSet {keys : List String} : key ∈ btreeSet keys ↔ key ∈ keys := by
  unfold btreeSet
  rw [mem_mergeSort, mem_dedup]

/-- `ReconcilePlan`. -/
structure ReconcilePlan where
  upserts : List String
  deletes : List String
  advanceFreshness : Bool

/-- `reconcile_plan`. -/
def reconcilePlan (storedKeys snapshotKeys : List String) (result : SnapshotResult) : ReconcilePlan :=
  let upserts := btreeSet snapshotKeys
  let deletes := if result.isAuthoritative then (btreeSet storedKeys).filter fun key => !upserts.contains key else []
  ⟨upserts, deletes, result.isAuthoritative⟩

theorem mem_upserts {stored snapshot : List String} {result : SnapshotResult} :
    key ∈ (reconcilePlan stored snapshot result).upserts ↔ key ∈ snapshot := mem_btreeSet

theorem mem_deletes {stored snapshot : List String} {result : SnapshotResult} :
    key ∈ (reconcilePlan stored snapshot result).deletes ↔ result.isAuthoritative = true ∧ key ∈ stored ∧ key ∉ snapshot := by
  unfold reconcilePlan
  split
  · rename_i hcmpl
    simp [hcmpl, mem_btreeSet]
  · rename_i hnot
    simp [hnot]

/-! ## The reference -/

def RowObservation.stamped (sequence : Int) (row : RowObservation) : FamilyRow := ⟨row.key, row.columns, sequence⟩

def SnapshotSubmission.lastOf (request : SnapshotSubmission) (key : String) : Option FamilyRow :=
  (request.payload.rows.reverse.find? (·.key = key)).map (·.stamped request.syncSequence)

/-- The plan applied: deleted keys are gone, upserted keys have what the snapshot says. -/
def reconcile (stored : List FamilyRow) (request : SnapshotSubmission) : List FamilyRow :=
  let plan := reconcilePlan (stored.map (·.key)) (request.payload.rows.map (·.key)) request.result
  (stored.filter fun row => !plan.deletes.contains row.key && !plan.upserts.contains row.key)
    ++ plan.upserts.filterMap request.lastOf

/-- What a record of the transactions keeps of one. -/
inductive Entry where
  | accepted (request : SnapshotSubmission)
  /-- The account is deleted, with every row that is kept under it. -/
  | removed (accountId : AccountId)

/-- The accounts a transaction deletes, and the submission it accepts. -/
def entries (settings : Settings) (s : World) (act : Action) (s' : World) : List Entry :=
  (((s.accounts.map Account.accountId).filter fun accountId => !(s'.accounts.map Account.accountId).contains accountId).map .removed)
    ++ match act with
      | .snapshot envelope request =>
        match ingestSnapshot settings envelope request s with
        | .ok (_, .accepted) => [.accepted request]
        | _ => []
      | _ => []

def Entry.reconcile (accountId : AccountId) (family : SnapshotFamily) (stored : List FamilyRow) : Entry → List FamilyRow
  | .accepted request =>
    if request.accountId = accountId && request.family = family then Mt5Vm.reconcile stored request else stored
  | .removed deleted => if deleted = accountId then [] else stored

/-- The fold of the plan over the accepted submissions of the account and family. -/
def reference (accountId : AccountId) (family : SnapshotFamily) (log : List Entry) : List FamilyRow :=
  log.foldl (Entry.reconcile accountId family) []

variable {request : SnapshotSubmission} {row : FamilyRow}

theorem mem_lastOf :
    row ∈ (reconcilePlan [] (request.payload.rows.map (·.key)) request.result).upserts.filterMap request.lastOf
      ↔ request.lastOf row.key = some row := by
  rw [mem_filterMap]
  constructor
  · rintro ⟨key, _, hlast⟩
    have hkey : row.key = key := by
      obtain ⟨observed, hfnd, rfl⟩ := map_eq_some_iff.mp hlast
      have hsame := find?_some hfnd
      exact of_decide_eq_true hsame
    rw [hkey]
    exact hlast
  · intro hlast
    refine ⟨row.key, mem_upserts.mpr ?_, hlast⟩
    obtain ⟨observed, hfnd, hrow⟩ := map_eq_some_iff.mp hlast
    refine mem_map.mpr ⟨observed, mem_reverse.mp (mem_of_find?_eq_some hfnd), ?_⟩
    rw [← hrow]
    rfl

variable {stored : List FamilyRow}

/-- **What the plan leaves**: what the snapshot says last of a key, and, of a snapshot that is
not complete, the rows under other keys. -/
theorem mem_reconcile :
    row ∈ reconcile stored request ↔ request.lastOf row.key = some row
      ∨ (row ∈ stored ∧ request.result.isAuthoritative = false ∧ row.key ∉ request.payload.rows.map (·.key)) := by
  unfold reconcile
  rw [mem_append, mem_filter, or_comm]
  refine or_congr mem_lastOf ?_
  simp only [Bool.and_eq_true, Bool.not_eq_true', contains_eq_mem, decide_eq_false_iff_not, mem_deletes, mem_upserts]
  constructor
  · rintro ⟨hmem, hdeld, hupserted⟩
    refine ⟨hmem, ?_, hupserted⟩
    cases hcmpl : request.result.isAuthoritative with
    | false => rfl
    | true => exact absurd ⟨hcmpl, mem_map.mpr ⟨row, hmem, rfl⟩, hupserted⟩ hdeld
  · rintro ⟨hmem, hfrag, hupserted⟩
    refine ⟨hmem, fun hdeld => ?_, hupserted⟩
    rw [hfrag] at hdeld
    exact absurd hdeld.1 (by simp)

/-! ## The statements -/

theorem foldl_upsertRow (request : SnapshotSubmission) (stored : List FamilyRow) :
    request.payload.rows.foldl (upsertRow request.syncSequence) stored
      = (request.payload.rows.map (·.stamped request.syncSequence)).foldl (upsert FamilyRow.key) stored := by
  rw [foldl_map]
  rfl

theorem lastOf_eq (request : SnapshotSubmission) (key : String) :
    (request.payload.rows.map (·.stamped request.syncSequence)).reverse.find? (fun row => row.key = key) = request.lastOf key := by
  rw [← map_reverse, find?_map]
  rfl

theorem lastOf_sequence (h : request.lastOf key = some row) : row.syncSequence = request.syncSequence := by
  obtain ⟨observed, _, rfl⟩ := map_eq_some_iff.mp h
  rfl

def SnapshotSubmission.storedOver (request : SnapshotSubmission) (stored : List FamilyRow) : List FamilyRow :=
  let rows := request.payload.rows.foldl (upsertRow request.syncSequence) stored
  if request.result.isAuthoritative then rows.filter (·.syncSequence = request.syncSequence) else rows

theorem Account.storeRows_rows (hfam : request.payload.family = request.family)
    (hrows : request.family ≠ .account) (worker : Worker) (a : Account) :
    (a.storeRows request worker).rows = a.rows.set request.family (request.storedOver (a.rows.get request.family)) := by
  unfold storeRows SnapshotSubmission.storedOver
  cases hpld : request.payload with
  | account =>
    rw [hpld] at hfam
    exact absurd hfam.symm hrows
  | positions | pendingOrders | instruments => rfl

theorem Account.storeRows_rows_account (hfam : request.payload.family = request.family)
    (hacct : request.family = .account) (worker : Worker) (a : Account) : (a.storeRows request worker).rows = a.rows := by
  unfold storeRows
  cases hpld : request.payload with
  | account observed =>
    cases observed with
    | none | some => rfl
  | positions | pendingOrders | instruments =>
    rw [hpld, hacct] at hfam
    cases hfam

theorem nodup_storedOver (request : SnapshotSubmission) (h : (stored.map FamilyRow.key).Nodup) :
    ((request.storedOver stored).map FamilyRow.key).Nodup := by
  have hupserted : ((request.payload.rows.foldl (upsertRow request.syncSequence) stored).map FamilyRow.key).Nodup := by
    rw [foldl_upsertRow]
    exact nodup_foldl_upsert _ h
  unfold SnapshotSubmission.storedOver
  split
  · exact hupserted.sublist (filter_sublist.map _)
  · exact hupserted

/-- **Deleting by sequence is deleting by key**, over rows of earlier sequences. -/
theorem mem_storedOver (hearl : ∀ row ∈ stored, row.syncSequence < request.syncSequence) :
    row ∈ request.storedOver stored ↔ request.lastOf row.key = some row
      ∨ (row ∈ stored ∧ request.result.isAuthoritative = false ∧ row.key ∉ request.payload.rows.map (·.key)) := by
  have hupserted : row ∈ request.payload.rows.foldl (upsertRow request.syncSequence) stored
      ↔ request.lastOf row.key = some row ∨ (row ∈ stored ∧ row.key ∉ request.payload.rows.map (·.key)) := by
    rw [foldl_upsertRow, mem_foldl_upsert, lastOf_eq]
    refine or_congr Iff.rfl (and_congr Iff.rfl ?_)
    constructor
    · intro hno hmem
      obtain ⟨observed, hobs, hkey⟩ := mem_map.mp hmem
      exact hno _ (mem_map.mpr ⟨observed, hobs, rfl⟩) hkey
    · intro hno version hver hkey
      obtain ⟨observed, hobs, rfl⟩ := mem_map.mp hver
      exact hno (mem_map.mpr ⟨observed, hobs, hkey⟩)
  unfold SnapshotSubmission.storedOver
  split
  · rename_i hcmpl
    rw [mem_filter, hupserted, decide_eq_true_eq, hcmpl]
    constructor
    · rintro ⟨hlast | ⟨hmem, _⟩, hsequence⟩
      · exact .inl hlast
      · have := hearl row hmem
        omega
    · rintro (hlast | ⟨_, hfrag, _⟩)
      · exact ⟨.inl hlast, lastOf_sequence hlast⟩
      · cases hfrag
  · rename_i hfrag
    rw [hupserted, Bool.eq_false_iff.mpr hfrag]
    simp

/-! ## The invariant -/

structure Reconciled (log : List Entry) (a : Account) : Prop where
  keys : ∀ family, ((a.rows.get family).map FamilyRow.key).Nodup
  sequences : ∀ family, ∀ row ∈ a.rows.get family, row.syncSequence ≤ (a.syncStates.get family).syncSequence
  rows : ∀ family, family ≠ .account → ∀ row, row ∈ a.rows.get family ↔ row ∈ reference a.accountId family log

theorem Reconciled.of_same {log log' : List Entry} {a a' : Account} (h : Reconciled log a) (hid : a'.accountId = a.accountId)
    (hsame : Unobserved a a') (hlog : ∀ family, reference a.accountId family log' = reference a.accountId family log) :
    Reconciled log' a' where
  keys := by
    rw [hsame.rows]
    exact h.keys
  sequences := by
    rw [hsame.rows, hsame.1]
    exact h.sequences
  rows family hfam row := by
    rw [hsame.rows, hid, hlog]
    exact h.rows family hfam row

theorem reference_append (accountId : AccountId) (family : SnapshotFamily) (log new : List Entry) :
    reference accountId family (log ++ new) = new.foldl (Entry.reconcile accountId family) (reference accountId family log) :=
  foldl_append

variable {accountId : AccountId}

/-- Deleting other accounts leaves the reference of an account. -/
theorem foldl_removed {family : SnapshotFamily} {removed : List AccountId}
    (h : accountId ∉ removed) : (removed.map Entry.removed).foldl (Entry.reconcile accountId family) stored = stored := by
  induction removed with
  | nil => rfl
  | cons first rest ih =>
    rw [mem_cons, not_or] at h
    rw [map_cons, foldl_cons,
      show Entry.reconcile accountId family stored (.removed first) = stored from if_neg fun hsame => h.1 hsame.symm]
    exact ih h.2

/-- Deleting the account empties it. -/
theorem foldl_removed_self {family : SnapshotFamily} {removed : List AccountId} (h : accountId ∈ removed ∨ stored = []) :
    (removed.map Entry.removed).foldl (Entry.reconcile accountId family) stored = [] := by
  induction removed generalizing stored with
  | nil =>
    rcases h with hmem | hemp
    · cases hmem
    · exact hemp
  | cons first rest ih =>
    refine ih ?_
    by_cases hsame : first = accountId
    · exact .inr (if_pos hsame)
    · rw [show Entry.reconcile accountId family stored (.removed first) = stored from if_neg hsame]
      rcases h with hmem | hemp
      · rcases mem_cons.mp hmem with heq | hrest
        · exact absurd heq.symm hsame
        · exact .inl hrest
      · exact .inr hemp

/-! ## One transaction -/

def deletedBy (s s' : World) : List AccountId :=
  (s.accounts.map Account.accountId).filter fun accountId => !(s'.accounts.map Account.accountId).contains accountId

theorem mem_deletedBy :
    accountId ∈ deletedBy s s' ↔ accountId ∈ s.accounts.map Account.accountId ∧ accountId ∉ s'.accounts.map Account.accountId := by
  unfold deletedBy
  simp

theorem entries_of_other (hact : ∀ envelope request, act ≠ .snapshot envelope request) :
    entries settings s act s' = (deletedBy s s').map .removed := by
  cases act with
  | snapshot envelope request => exact absurd rfl (hact envelope request)
  | _ => exact append_nil _

theorem Unobserved.trans {a b c : Account} (h : Unobserved a b) (h' : Unobserved b c) : Unobserved a c :=
  ⟨h'.1.trans h.1, h'.2.trans h.2⟩

theorem chain_unobserved (hact : ∀ envelope request, act ≠ .snapshot envelope request) {a a' : Account}
    (h : ReflTransGen (Change s act) a a') : Unobserved a a' :=
  chain_keeps h (fun _ _ hsame hchg => hsame.trans (hchg.unobserved hact)) ⟨rfl, rfl⟩

/-- What the record says where an account is missing. -/
def Absent (log : List Entry) (s : World) : Prop :=
  ∀ accountId, accountId ∉ s.accounts.map Account.accountId → ∀ family, reference accountId family log = []

variable {log : List Entry}

theorem absent_removed (h : Absent log s) : Absent (log ++ (deletedBy s s').map .removed) s' := by
  intro accountId hnot family
  rw [reference_append]
  refine foldl_removed_self ?_
  by_cases hbef : accountId ∈ s.accounts.map Account.accountId
  · exact .inl (mem_deletedBy.mpr ⟨hbef, hnot⟩)
  · exact .inr (h accountId hbef family)

/-- Transactions that submit nothing leave the rows, or delete them with their account. -/
theorem reconciled_other (hsnd : Sound s) (h : ∀ a ∈ s.accounts, Reconciled log a) (habse : Absent log s)
    (hact : ∀ envelope request, act ≠ .snapshot envelope request) (hstep : step settings s act = some s') :
    ∀ a ∈ s'.accounts, Reconciled (log ++ entries settings s act s') a := by
  rw [entries_of_other hact]
  intro a' ha'
  have hkept : a'.accountId ∉ deletedBy s s' := fun hdeld =>
    (mem_deletedBy.mp hdeld).2 (mem_map.mpr ⟨a', ha', rfl⟩)
  rcases (step_descends hsnd.ids hstep).cases_mem ha' with ⟨a, ha, hchain⟩ | ⟨_, request, _, _, _, _, _, hnew, rfl⟩
  · have hid := chain_accountId hchain
    refine (h a ha).of_same hid (chain_unobserved hact hchain) fun family => ?_
    rw [reference_append, foldl_removed (hid ▸ hkept)]
  · -- an account that was not there has no rows, and the record has none for it
    have hbef : request.accountId ∉ s.accounts.map Account.accountId := by
      intro hmem
      obtain ⟨a, ha, hid⟩ := mem_map.mp hmem
      exact find?_eq_none.mp hnew a ha (decide_eq_true hid)
    refine ⟨fun family => ?_, fun family row hrow => ?_, fun family _ row => ?_⟩
    · simp [create]
    · simp [create] at hrow
    · show row ∈ (fill []).get family ↔ row ∈ reference request.accountId family _
      rw [reference_append, foldl_removed_self (.inr (habse request.accountId hbef family)), get_fill]

/-! ## Submissions -/

/-- A mismatch of the broker identity is recorded, and stores no row. -/
theorem Reconciled.mismatched {a : Account} (h : Reconciled log a) (worker : Worker) (code : Option String)
    (hnext : (a.syncStates.get request.family).syncSequence < request.syncSequence) :
    Reconciled log (a.recordSync request worker code) where
  keys := h.keys
  sequences family row hrow := by
    have hle := h.sequences family row hrow
    unfold recordSync
    by_cases hfam : family = request.family
    · subst hfam
      rw [get_set_self]
      exact hle.trans (le_of_lt hnext)
    · rw [get_set_of_ne _ hfam]
      exact hle
  rows := h.rows

/-- **An accepted submission stores what the plan says.** -/
theorem Reconciled.accepted {a : Account} (h : Reconciled log a)
    (worker : Worker) (hacct : request.accountId = a.accountId) (hfam : request.payload.family = request.family)
    (hnext : (a.syncStates.get request.family).syncSequence < request.syncSequence) :
    Reconciled (log ++ [.accepted request]) (a.accept request worker) := by
  have hstrd : (a.accept request worker).rows = (a.storeRows request worker).rows :=
    (updateFreshness_unobserved request worker _).rows
  have hsync := a.accept_syncStates request worker
  have hid : (a.accept request worker).accountId = a.accountId :=
    congrArg Connection.accountId (a.accept_keeps request worker).1
  have hreference : ∀ family, reference a.accountId family (log ++ [.accepted request])
      = if request.family = family then reconcile (reference a.accountId family log) request else reference a.accountId family log := by
    intro family
    rw [reference_append, foldl_cons, foldl_nil]
    simp [Entry.reconcile, hacct]
  -- the sequence of every stored row is behind the fence
  have hbelow : ∀ row ∈ a.rows.get request.family, row.syncSequence < request.syncSequence := fun row hrow =>
    lt_of_le_of_lt (h.sequences request.family row hrow) hnext
  by_cases hrows : request.family = .account
  · rw [storeRows_rows_account hfam hrows] at hstrd
    refine ⟨?_, fun family row hrow => ?_, fun family hoth row => ?_⟩
    · rw [hstrd]
      exact h.keys
    · rw [hstrd] at hrow
      rw [hsync]
      have hle := h.sequences family row hrow
      by_cases hsame : family = request.family
      · subst hsame
        rw [get_set_self]
        exact hle.trans (le_of_lt hnext)
      · rw [get_set_of_ne _ hsame]
        exact hle
    · rw [hstrd, hid, hreference, if_neg (by rw [hrows]; exact fun hsame => hoth hsame.symm)]
      exact h.rows family hoth row
  · rw [storeRows_rows hfam hrows] at hstrd
    refine ⟨fun family => ?_, fun family row hrow => ?_, fun family hoth row => ?_⟩
    · rw [hstrd]
      by_cases hsame : family = request.family
      · subst hsame
        rw [get_set_self]
        exact nodup_storedOver request (h.keys request.family)
      · rw [get_set_of_ne _ hsame]
        exact h.keys family
    · rw [hstrd] at hrow
      rw [hsync]
      by_cases hsame : family = request.family
      · subst hsame
        rw [get_set_self] at hrow ⊢
        rcases (mem_storedOver hbelow).mp hrow with hlast | ⟨hold, _⟩
        · exact le_of_eq (lastOf_sequence hlast)
        · exact le_of_lt (hbelow row hold)
      · rw [get_set_of_ne _ hsame] at hrow ⊢
        exact h.sequences family row hrow
    · rw [hstrd, hid, hreference]
      by_cases hsame : family = request.family
      · subst hsame
        rw [get_set_self, if_pos rfl, mem_storedOver hbelow, mem_reconcile]
        exact or_congr Iff.rfl (and_congr (h.rows request.family hoth row) Iff.rfl)
      · rw [get_set_of_ne _ hsame, if_neg fun heq => hsame heq.symm]
        exact h.rows family hoth row

/-- A snapshot that is accepted is the last entry of its account; one that is not leaves all rows. -/
theorem reconciled_snapshot (hsnd : Sound s) (h : ∀ a ∈ s.accounts, Reconciled log a) (habse : Absent log s) {envelope : Envelope}
    (hstep : step settings s (.snapshot envelope request) = some s') :
    (∀ a ∈ s'.accounts, Reconciled (log ++ entries settings s (.snapshot envelope request) s') a)
      ∧ Absent (log ++ entries settings s (.snapshot envelope request) s') s' := by
  obtain ⟨outcome, hing⟩ := fst_toOption hstep
  obtain ⟨worker, account, f, _, hmem, hunder, hnext, hfam, hcmt, hwrites⟩ := ingestSnapshot_ok hing
  obtain ⟨hname, _⟩ := underLease_account hunder
  obtain ⟨-, rfl⟩ := commitAccount_ok hcmt
  have hf : ∀ a : Account, (f a).accountId = a.accountId := by
    intro a
    rcases hwrites with ⟨-, -, rfl⟩ | ⟨-, -, rfl⟩
    · rfl
    · exact ((a.accept request worker).updateReadiness_keeps request worker s.workers s.now).1.trans
        (congrArg Connection.accountId (a.accept_keeps request worker).1)
  have hids : (updateWhere (fun a => a.accountId = request.accountId) f s.accounts).map Account.accountId
      = s.accounts.map Account.accountId := map_updateWhere hf _
  have hnone : deletedBy s { s with accounts := updateWhere (fun a => a.accountId = request.accountId) f s.accounts } = [] := by
    refine filter_eq_nil_iff.mpr fun accountId hbef => ?_
    rw [hids]
    simpa using hbef
  have hents : entries settings s (.snapshot envelope request)
      { s with accounts := updateWhere (fun a => a.accountId = request.accountId) f s.accounts }
      = if outcome = .accepted then [.accepted request] else [] := by
    unfold entries
    rw [show filter _ _ = [] from hnone]
    simp only [hing]
    cases outcome with
    | accepted | identityMismatch => rfl
  rw [hents]
  constructor
  · intro a' ha'
    rcases updateWhere_cases ha' with ⟨hold, hoth⟩ | ⟨old, hold, hsame, rfl⟩
    · -- another account
      refine (h a' hold).of_same rfl ⟨rfl, rfl⟩ fun family => ?_
      rw [reference_append]
      split
      · have hne : request.accountId ≠ a'.accountId := fun hid => of_decide_eq_false hoth hid.symm
        simp [Entry.reconcile, hne]
      · rfl
    -- the account of the snapshot
    · have hthis : old = account :=
        account_unique hsnd.ids hold hmem ((of_decide_eq_true hsame).trans hname.symm)
      subst hthis
      rcases hwrites with ⟨rfl, -, rfl⟩ | ⟨rfl, -, rfl⟩
      · rw [if_neg (by simp), append_nil]
        exact (h old hold).mismatched worker _ hnext
      · obtain ⟨hid, -, hunobserved⟩ := (old.accept request worker).updateReadiness_keeps request worker s.workers s.now
        exact ((h old hold).accepted worker hname.symm hfam hnext).of_same hid hunobserved fun _ => rfl
  · intro accountId hnot family
    rw [hids] at hnot
    rw [reference_append, habse accountId hnot family]
    split
    · have hne : request.accountId ≠ accountId := by
        rintro rfl
        exact hnot (mem_map.mpr ⟨account, hmem, hname⟩)
      simp [Entry.reconcile, hne]
    · rfl

/-! ## Whole runs -/

theorem reconciled_step (hsnd : Sound s) (h : ∀ a ∈ s.accounts, Reconciled log a) (habse : Absent log s)
    (hstep : step settings s act = some s') :
    (∀ a ∈ s'.accounts, Reconciled (log ++ entries settings s act s') a) ∧ Absent (log ++ entries settings s act s') s' := by
  by_cases hact : ∃ envelope request, act = .snapshot envelope request
  · obtain ⟨envelope, request, rfl⟩ := hact
    exact reconciled_snapshot hsnd h habse hstep
  · have hoth : ∀ envelope request, act ≠ .snapshot envelope request := fun envelope request hsame => hact ⟨envelope, request, hsame⟩
    refine ⟨reconciled_other hsnd h habse hoth hstep, ?_⟩
    rw [entries_of_other hoth]
    exact absent_removed habse

theorem rows_of_unaccepted {envelope : Envelope}
    (hnot : ¬∃ accepted, ingestSnapshot settings envelope request s = .ok (accepted, .accepted))
    (hstep : step settings s (.snapshot envelope request) = some s') :
    s'.accounts.map (fun a => (a.accountId, a.rows)) = s.accounts.map (fun a => (a.accountId, a.rows)) := by
  obtain ⟨outcome, hing⟩ := fst_toOption hstep
  cases outcome with
  | accepted => exact absurd ⟨s', hing⟩ hnot
  | identityMismatch =>
    obtain ⟨worker, account, f, _, _, _, _, _, hcmt, hwrites⟩ := ingestSnapshot_ok hing
    obtain ⟨-, rfl⟩ := commitAccount_ok hcmt
    rcases hwrites with ⟨-, -, rfl⟩ | ⟨haccp, -, -⟩
    · have hkept : ∀ a : Account, ((a.recordSync request worker (some "SYNC_IDENTITY_MISMATCH")).accountId,
          (a.recordSync request worker (some "SYNC_IDENTITY_MISMATCH")).rows) = (a.accountId, a.rows) := fun _ => rfl
      exact map_updateWhere hkept _
    · cases haccp

/-- **The rows of a family are the fold of the plan**, after every transaction of every history:
each key is stored once, the stored rows are those the plan leaves, snapshot by accepted
snapshot, and a submission that is not accepted leaves them all. -/
theorem rows_reconciled {log : List Entry} (h : Runs.Records (step settings) Runs.always (entries settings) World.empty s log) :
    (∀ a ∈ s.accounts, ∀ family, family ≠ .account → ((a.rows.get family).map FamilyRow.key).Nodup
        ∧ ∀ row, row ∈ a.rows.get family ↔ row ∈ reference a.accountId family log)
      ∧ ∀ envelope request s', (¬∃ accepted, ingestSnapshot settings envelope request s = .ok (accepted, .accepted)) →
        step settings s (.snapshot envelope request) = some s' →
        s'.accounts.map (fun a => (a.accountId, a.rows)) = s.accounts.map (fun a => (a.accountId, a.rows)) := by
  obtain ⟨-, hrows, -⟩ : Sound s ∧ (∀ a ∈ s.accounts, Reconciled log a) ∧ Absent log s := by
    refine h.invariant (fun s log => Sound s ∧ (∀ a ∈ s.accounts, Reconciled log a) ∧ Absent log s) ?_ ?_
    · refine ⟨sound_empty, forall_mem_nil _, fun _ _ _ => rfl⟩
    · rintro s act s' log ⟨hsnd, hrows, habse⟩ _ hstep
      obtain ⟨hrows', habsent'⟩ := reconciled_step hsnd hrows habse hstep
      exact ⟨sound_step hsnd hstep, hrows', habsent'⟩
  refine ⟨fun a ha family hfam => ?_, fun _ _ _ hnot hstep => rows_of_unaccepted hnot hstep⟩
  exact ⟨(hrows a ha).keys family, (hrows a ha).rows family hfam⟩

/-- Positions of the account `a1`, under its first lease. -/
def demoPositions (sequence : Int) (result : SnapshotResult) (rows : List RowObservation) : Action :=
  .snapshot ⟨"w1", 1, 1, 1⟩ ⟨"a1", 1, sequence, 1, .positions, result, none, .positions rows⟩

/-- Two complete snapshots with a partial one between them, whose second row overwrites its first. -/
def snapshotRun : List Action :=
  demoConnected [] ++
    [demoPositions 1 .complete [⟨"11", "buy", true⟩, ⟨"12", "buy", true⟩],
      demoPositions 4 .partially [⟨"13", "buy", true⟩, ⟨"13", "sell", true⟩],
      demoPositions 5 .complete [⟨"12", "sell", true⟩, ⟨"13", "buy", true⟩]]

theorem rows_reconciled_snapshotRun : ∃ (s : World) (log : List Entry), ∃ a ∈ s.accounts,
    a.rows.positions = [⟨"12", "sell", 5⟩, ⟨"13", "buy", 5⟩]
      ∧ (∀ row, row ∈ a.rows.get .positions ↔ row ∈ reference a.accountId .positions log) := by
  have hexec :
      ∃ final, Runs.execRecords (step demoSettings) (fun _ _ => true) (entries demoSettings)
        World.empty [] snapshotRun = some final
      ∧ ∃ a ∈ final.1.accounts, a.rows.positions = [⟨"12", "sell", 5⟩, ⟨"13", "buy", 5⟩] := by
    decide +kernel
  obtain ⟨⟨s, log⟩, hrun, a, ha, hstrd⟩ := hexec
  have hrecords := Runs.records_exec hrun
  exact ⟨s, log, a, ha, hstrd, ((rows_reconciled hrecords).1 a ha .positions (by decide)).2⟩

end MarketLens.Mt5Vm
