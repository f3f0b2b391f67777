import MarketLens.Mt5Vm.PlacementStatements
import MarketLens.Mt5Vm.Steps

/-!
# How many accounts a worker is given

A worker is meant to hold no more leases than it has room for. The placement query
counts them in a snapshot and locks the worker afterwards, and a heartbeat renews what
had not run out when it began; where the worker still has room when its row is locked,
the bound holds over every interleaving. That an account has one active lease, and that
its generations grow, holds without such a condition.

The argument is about one transaction at a time: `Fits` says what its versions may do to
the leases of the workers it holds, and a transaction that holds other rows cannot
disturb it (`Fits.around`).
-/

namespace MarketLens.Mt5Vm.Placement

open Table Versions List Option LeaseRow Store

/-! ## The statement -/

structure Placed (db : Database) : Prop where
  capacity : ∀ worker ∈ db.tables.workers, leased worker.workerId db.tables.now db.tables.leases ≤ room worker
  single : ∀ accountId, (db.tables.leases.countP fun row => row.accountId = accountId && row.lease.status = .active) ≤ 1
  generations : db.grants.Pairwise fun earlier later => earlier.1 = later.1 → earlier.2 < later.2

/-- A database nobody works on, its rows under unique keys and its workers within bounds. -/
structure Start (db : Database) : Prop where
  running : db.running = []
  grants : db.grants = []
  workers : (db.tables.workers.map Worker.workerId).Nodup
  leases : (db.tables.leases.map LeaseRow.accountId).Nodup
  capacity : ∀ worker ∈ db.tables.workers, leased worker.workerId db.tables.now db.tables.leases ≤ room worker

/-- The lease holds now, or the heartbeat claims it and began in time. -/
def renewable (worker : Worker) (startedAt now : Millis) (claims : List WorkerLeaseClaim) (row : LeaseRow) : Bool :=
  row.holds worker.workerId now || claims.any (claimed worker startedAt · row)

/-- A placement about to lock the worker, or a heartbeat, finds room by the leases committed now. -/
def finds (tables : Tables) (choice : String) (t : Transaction) : Bool :=
  match t.stage, t.call with
  | .workersSeen _ _, _ =>
    (tables.worker? choice).all fun worker => leased worker.workerId tables.now tables.leases < room worker
  | .begun, .heartbeat envelope claims =>
    match authenticateWorker envelope ⟨t.startedAt, 0, tables.workers, []⟩ with
    | .error _ => true
    | .ok worker => tables.leases.countP (renewable worker t.startedAt tables.now claims) ≤ room worker
  | _, _ => true

/-- When a placement locks a worker, and when a heartbeat does, the worker has room by the
leases that are committed then. -/
def roomy (db : Database) : Action → Bool
  | .advance id choice => (db.running.find? (·.id = id)).all (finds db.tables choice)
  | _ => true

def Roomy (db : Database) (action : Action) : Prop := roomy db action = true

/-! ## Leases that hold -/

variable {db db' : Database} {tables tables' : Tables} {t next : Transaction} {worker : Worker} {row : LeaseRow}
  {workerId : WorkerId}

theorem LeaseRow.holds_iff {time : Millis} : row.holds workerId time = true
      ↔ row.lease.workerId = workerId ∧ row.lease.status = .active ∧ time < row.lease.expiresAt := by
  simp [holds, Lease.valid]

/-- What holds at a time held before it. -/
theorem LeaseRow.holds_earlier {earlier later : Millis} (hle : earlier ≤ later) (h : row.holds workerId later = true) :
    row.holds workerId earlier = true := by
  obtain ⟨hwkr, hactv, htime⟩ := holds_iff.mp h
  exact holds_iff.mpr ⟨hwkr, hactv, lt_of_le_of_lt hle htime⟩

theorem claimed_iff {time : Millis} {claim : WorkerLeaseClaim} :
    claimed worker time claim row = true ↔
      row.accountId = claim.accountId ∧ row.lease.workerId = worker.workerId
        ∧ row.lease.workerSession = worker.sessionGeneration ∧ row.lease.generation = claim.leaseGeneration
        ∧ row.lease.status = .active ∧ time < row.lease.expiresAt := by
  simp [claimed, Lease.valid, and_assoc]

theorem renewable_active {startedAt now : Millis} {claims : List WorkerLeaseClaim}
    (h : renewable worker startedAt now claims row = true) :
    row.lease.workerId = worker.workerId ∧ row.lease.status = .active := by
  unfold renewable at h
  rcases Bool.or_eq_true_iff.mp h with hhld | hclmd
  · obtain ⟨hwkr, hactv, _⟩ := LeaseRow.holds_iff.mp hhld
    exact ⟨hwkr, hactv⟩
  · obtain ⟨claim, _, hclaim⟩ := any_eq_true.mp hclmd
    obtain ⟨_, hwkr, _, _, hactv, _⟩ := claimed_iff.mp hclaim
    exact ⟨hwkr, hactv⟩

/-! ## What a transaction may have written -/

namespace Tables

/-- The workers and leases as a commit of the transaction would leave them. -/
abbrev workersWith (tables : Tables) (t : Transaction) : List Worker := Versions.install Worker.workerId t.workers tables.workers

abbrev leasesWith (tables : Tables) (t : Transaction) : List LeaseRow := Versions.install LeaseRow.accountId t.leases tables.leases

end Tables

section
variable (tables : Tables) (t : Transaction)

/-- If the transaction committed now, the workers it holds would be within bounds. -/
def Bounded : Prop :=
  ∀ worker ∈ tables.workersWith t, worker.workerId ∈ t.heldWorkers →
    leased worker.workerId tables.now (tables.leasesWith t) ≤ room worker

/-- A hello has written a capacity the worker's leases were not counted against. -/
def Stage.settling : Stage → Bool
  | .enrolled _ | .expiring _ _ => true
  | _ => false

/-- The transaction made no lease active and changed no worker's room. -/
def Idle : Prop :=
  (∀ row ∈ t.leases, row.lease.status ≠ .active)
    ∧ ∀ worker ∈ t.workers, ∃ old ∈ tables.workers, old.workerId = worker.workerId ∧ room old = room worker

/-- What a transaction knows where it stands. -/
def StageFits : Stage → Prop
  | .begun | .accountsSeen _ | .accountHeld _ | .workersSeen _ _ => t.workers = [] ∧ t.leases = [] ∧ t.heldWorkers = []
  | .workerHeld _ worker =>
    t.workers = [] ∧ t.leases = [] ∧ t.heldWorkers = [worker.workerId] ∧ worker ∈ tables.workers
      ∧ leased worker.workerId tables.now tables.leases < room worker
  | .renewing worker claims _ =>
    t.workers = [] ∧ t.heldWorkers = [worker.workerId] ∧ worker ∈ tables.workers
      ∧ ∃ all : List WorkerLeaseClaim, claims ⊆ all
        ∧ tables.leases.countP (renewable worker t.startedAt tables.now all) ≤ room worker
        ∧ ∀ row ∈ t.leases, ∃ old ∈ tables.leases,
            old.accountId = row.accountId ∧ all.any (claimed worker t.startedAt · old) = true
  | .enrolled worker => t.workers = [worker] ∧ t.leases = [] ∧ t.heldWorkers = [worker.workerId]
  | .expiring worker accounts =>
    t.workers = [worker] ∧ t.heldWorkers = [worker.workerId] ∧ (∀ row ∈ t.leases, row.lease.status ≠ .active)
      ∧ ∀ row ∈ tables.leases, row.lease.workerId = worker.workerId → row.lease.status = .active →
          row.accountId ∈ accounts ∨ row.accountId ∈ t.leases.map LeaseRow.accountId
  | .offlining _ | .lapsing _ _ _ | .acknowledging _ => Idle tables t
  | .requeueing _ _ | .disconnecting | .done => True

end

structure Fits (tables : Tables) (t : Transaction) : Prop where
  workerKeys : (t.workers.map Worker.workerId).Nodup
  leaseKeys : (t.leases.map LeaseRow.accountId).Nodup
  workersHeld : ∀ worker ∈ t.workers, worker.workerId ∈ t.heldWorkers
  leasesHeld : ∀ row ∈ t.leases, row.accountId ∈ t.heldLeases
  active : ∀ row ∈ t.leases, row.lease.status = .active → row.lease.workerId ∈ t.heldWorkers
  bounded : t.stage.settling = false → Bounded tables t
  generation : ∀ row ∈ t.leases, t.granted = some (row.accountId, row.lease.generation)
    ∨ ∃ old ∈ tables.leases, old.accountId = row.accountId ∧ old.lease.generation = row.lease.generation
  granted : ∀ accountId generation, t.granted = some (accountId, generation) →
    (∃ row ∈ t.leases, row.accountId = accountId ∧ row.lease.generation = generation)
      ∧ ∀ old ∈ tables.leases, old.accountId = accountId → old.lease.generation < generation
  ungranted : t.stage ≠ .done → t.granted = none
  stage : StageFits tables t t.stage

/-- What a transaction knows at its stage, while it has granted nothing. -/
theorem Fits.at_stage {stage : Stage} (hfits : Fits tables t) (hat : t.stage = stage) (hne : stage ≠ .done) :
    StageFits tables t stage ∧ t.granted = none := by
  subst hat
  exact ⟨hfits.stage, hfits.ungranted hne⟩

theorem held_only (hheld : t.heldWorkers = [workerId]) : workerId ∈ t.heldWorkers := by
  rw [hheld]
  exact mem_singleton_self _

/-! ## Beside the others -/

/-- What others commit leaves a transaction the rows it holds, and gives its workers no lease. -/
structure Around (t : Transaction) (tables tables' : Tables) : Prop where
  keys : (tables'.leases.map LeaseRow.accountId).Nodup
  clock : tables.now ≤ tables'.now
  active : ∀ row ∈ tables'.leases, row.lease.status = .active → row.lease.workerId ∈ t.heldWorkers → row ∈ tables.leases
  lease : ∀ row : LeaseRow, row.accountId ∈ t.heldLeases → (row ∈ tables'.leases ↔ row ∈ tables.leases)
  worker : ∀ worker : Worker, worker.workerId ∈ t.heldWorkers → (worker ∈ tables'.workers ↔ worker ∈ tables.workers)

section Around

variable (h : Around t tables tables')
include h

theorem Around.leased_le (hheld : workerId ∈ t.heldWorkers) :
    leased workerId tables'.now tables'.leases ≤ leased workerId tables.now tables.leases := by
  refine countP_le h.keys fun row hrow hhld => ?_
  obtain ⟨hwkr, hactv, _⟩ := LeaseRow.holds_iff.mp hhld
  have hold := h.active row hrow hactv (by rw [hwkr]; exact hheld)
  exact ⟨row, hold, holds_earlier h.clock hhld, rfl⟩

theorem Around.renewable_le {startedAt : Millis} {claims : List WorkerLeaseClaim} (hheld : worker.workerId ∈ t.heldWorkers) :
    tables'.leases.countP (renewable worker startedAt tables'.now claims)
      ≤ tables.leases.countP (renewable worker startedAt tables.now claims) := by
  refine countP_le h.keys fun row hrow hrenewable => ?_
  obtain ⟨hwkr, hactv⟩ := renewable_active hrenewable
  have hold := h.active row hrow hactv (by rw [hwkr]; exact hheld)
  refine ⟨row, hold, ?_, rfl⟩
  unfold renewable at hrenewable ⊢
  rcases Bool.or_eq_true_iff.mp hrenewable with hhld | hclmd
  · rw [holds_earlier h.clock hhld, Bool.true_or]
  · rw [hclmd, Bool.or_true]

theorem Around.bounded (hfits : Fits tables t) (hbdd : Bounded tables t) : Bounded tables' t := by
  intro worker hwkr hheld
  have hbef : worker ∈ tables.workersWith t := by
    rcases mem_install.mp hwkr with ⟨hmem, hkey⟩ | hver
    · exact mem_install_of_not_mem ((h.worker worker hheld).mp hmem) hkey
    · exact mem_install.mpr (.inr hver)
  refine le_trans ?_ (hbdd worker hbef hheld)
  refine countP_le (nodup_install h.keys hfits.leaseKeys) fun row hrow hhld => ?_
  obtain ⟨hof, hactv, _⟩ := LeaseRow.holds_iff.mp hhld
  refine ⟨row, ?_, holds_earlier h.clock hhld, rfl⟩
  rcases mem_install.mp hrow with ⟨hmem, hkey⟩ | hver
  · exact mem_install_of_not_mem (h.active row hmem hactv (by rw [hof]; exact hheld)) hkey
  · exact mem_install.mpr (.inr hver)

theorem Around.idle (hfits : Fits tables t) (hidle : Idle tables t) : Idle tables' t := by
  refine ⟨hidle.1, fun worker hwkr => ?_⟩
  obtain ⟨old, hold, hkey, hroom⟩ := hidle.2 worker hwkr
  have hheld : old.workerId ∈ t.heldWorkers := by rw [hkey]; exact hfits.workersHeld worker hwkr
  exact ⟨old, (h.worker old hheld).mpr hold, hkey, hroom⟩

theorem Around.stage (hfits : Fits tables t) {stage : Stage} (hstg : StageFits tables t stage) : StageFits tables' t stage := by
  cases stage with
  | workerHeld account worker =>
    obtain ⟨hwkrs, hleases, hheld, hwkr, hroom⟩ := hstg
    have hmem := held_only hheld
    have hle := h.leased_le hmem
    exact ⟨hwkrs, hleases, hheld, (h.worker worker hmem).mpr hwkr, by omega⟩
  | renewing worker =>
    obtain ⟨hwkrs, hheld, hwkr, all, hall, hroom, hrows⟩ := hstg
    have hmem := held_only hheld
    refine ⟨hwkrs, hheld, (h.worker worker hmem).mpr hwkr, all, hall, le_trans (h.renewable_le hmem) hroom, ?_⟩
    intro row hrow
    obtain ⟨old, hold, hacct, hclmd⟩ := hrows row hrow
    have hkey : old.accountId ∈ t.heldLeases := by rw [hacct]; exact hfits.leasesHeld row hrow
    exact ⟨old, (h.lease old hkey).mpr hold, hacct, hclmd⟩
  | expiring worker =>
    obtain ⟨hwkrs, hheld, hrows, hleft⟩ := hstg
    have hmem := held_only hheld
    refine ⟨hwkrs, hheld, hrows, fun row hrow hof hactv => ?_⟩
    exact hleft row (h.active row hrow hactv (by rw [hof]; exact hmem)) hof hactv
  | begun | accountsSeen | accountHeld | workersSeen | enrolled =>
    exact hstg
  | offlining | lapsing | acknowledging => exact h.idle hfits hstg
  | requeueing | disconnecting | done => trivial

/-- **What others commit does not disturb a transaction.** -/
theorem Fits.around (hfits : Fits tables t) : Fits tables' t where
  workerKeys := hfits.workerKeys
  leaseKeys := hfits.leaseKeys
  workersHeld := hfits.workersHeld
  leasesHeld := hfits.leasesHeld
  active := hfits.active
  bounded hsttl := h.bounded hfits (hfits.bounded hsttl)
  generation row hrow := by
    rcases hfits.generation row hrow with hgra | ⟨old, hold, hacct, hgen⟩
    · exact .inl hgra
    · have hkey : old.accountId ∈ t.heldLeases := by rw [hacct]; exact hfits.leasesHeld row hrow
      exact .inr ⟨old, (h.lease old hkey).mpr hold, hacct, hgen⟩
  granted accountId generation hgra := by
    obtain ⟨⟨row, hrow, hacct, hgen⟩, hless⟩ := hfits.granted accountId generation hgra
    refine ⟨⟨row, hrow, hacct, hgen⟩, fun old hold hsame => ?_⟩
    have hkey : old.accountId ∈ t.heldLeases := by rw [hsame, ← hacct]; exact hfits.leasesHeld row hrow
    exact hless old ((h.lease old hkey).mp hold) hsame
  ungranted := hfits.ungranted
  stage := h.stage hfits hfits.stage

end Around

/-! ## Writing -/

/-- The committed rows: unique keys, and workers within bounds. -/
structure Sane (tables : Tables) : Prop where
  workerKeys : (tables.workers.map Worker.workerId).Nodup
  leaseKeys : (tables.leases.map LeaseRow.accountId).Nodup
  capacity : ∀ worker ∈ tables.workers, leased worker.workerId tables.now tables.leases ≤ room worker

/-- An idle transaction leaves the workers within bounds. -/
theorem Idle.bounded (h : Idle tables t) (hsane : Sane tables) (hkeys : (t.leases.map LeaseRow.accountId).Nodup) :
    Bounded tables t := by
  intro worker hwkr _
  have hle : leased worker.workerId tables.now (tables.leasesWith t) ≤ leased worker.workerId tables.now tables.leases := by
    refine countP_le (nodup_install hsane.leaseKeys hkeys) fun row hrow hhld => ?_
    rcases mem_install.mp hrow with ⟨hmem, _⟩ | hver
    · exact ⟨row, hmem, hhld, rfl⟩
    · exact absurd (LeaseRow.holds_iff.mp hhld).2.1 (h.1 row hver)
  refine le_trans hle ?_
  rcases mem_install.mp hwkr with ⟨hmem, _⟩ | hver
  · exact hsane.capacity worker hmem
  · obtain ⟨old, hold, hkey, hroom⟩ := h.2 worker hver
    have hcapacity := hsane.capacity old hold
    rw [hkey, hroom] at hcapacity
    exact hcapacity

theorem idle_of_nothing (hwkrs : t.workers = []) (hleases : t.leases = []) : Idle tables t := by
  constructor
  · intro row hrow
    rw [hleases] at hrow
    cases hrow
  · intro worker hwkr
    rw [hwkrs] at hwkr
    cases hwkr

theorem Idle.writeLease (h : Idle tables t) (hinact : row.lease.status ≠ .active) : Idle tables (t.writeLease row) :=
  ⟨all_written h.1 hinact, h.2⟩

theorem Idle.writeWorker {old : Worker} (h : Idle tables t) (hold : old ∈ tables.workers) (hkey : old.workerId = worker.workerId)
    (hroom : room old = room worker) : Idle tables (t.writeWorker worker) :=
  ⟨h.1, all_written h.2 ⟨old, hold, hkey, hroom⟩⟩

variable {old : LeaseRow} {accountId : AccountId}

namespace Fits

theorem at_ (h : Fits tables t) (stage : Stage) (hbdd : stage.settling = false → Bounded tables t)
    (hungr : stage ≠ .done → t.granted = none) (hstg : StageFits tables t stage) : Fits tables (t.at_ stage) :=
  { h with bounded := hbdd, ungranted := hungr, stage := hstg }

/-- Connections are none of its business. -/
theorem writeConnection {account : Connection} {stage : Stage} (h : Fits tables (t.at_ stage)) :
    Fits tables ((t.writeConnection account).at_ stage) := { h with }

theorem holdConnection {stage : Stage} (h : Fits tables (t.at_ stage)) :
    Fits tables ((t.holdConnection accountId).at_ stage) := { h with }

theorem holdLease (h : Fits tables t) (stage : Stage)
    (hbdd : stage.settling = false → Bounded tables t) (hungr : stage ≠ .done → t.granted = none)
    (hstg : StageFits tables (t.holdLease accountId) stage) : Fits tables ((t.holdLease accountId).at_ stage) :=
  { h with
    leasesHeld := fun version hver => mem_cons_of_mem _ (h.leasesHeld version hver)
    bounded := hbdd
    ungranted := hungr
    stage := hstg }

variable (stage : Stage) (hungr : t.granted = none)
include hungr

theorem holdWorker (h : Fits tables t) (hbdd : stage.settling = false → Bounded tables (t.holdWorker workerId))
    (hstg : StageFits tables (t.holdWorker workerId) stage) : Fits tables ((t.holdWorker workerId).at_ stage) :=
  { h with
    workersHeld := fun version hver => mem_cons_of_mem _ (h.workersHeld version hver)
    active := fun version hver hactv => mem_cons_of_mem _ (h.active version hver hactv)
    bounded := hbdd
    ungranted := fun _ => hungr
    stage := hstg }

theorem writeWorker (h : Fits tables t) (hbdd : stage.settling = false → Bounded tables (t.writeWorker worker))
    (hstg : StageFits tables (t.writeWorker worker) stage) : Fits tables ((t.writeWorker worker).at_ stage) :=
  { h with
    workerKeys := nodup_install h.workerKeys (by simp)
    workersHeld := all_written (fun version hmem => mem_cons_of_mem _ (h.workersHeld version hmem)) mem_cons_self
    active := fun version hver hactv => mem_cons_of_mem _ (h.active version hver hactv)
    bounded := hbdd
    ungranted := fun _ => hungr
    stage := hstg }

theorem writeLease (h : Fits tables t) (hold : old ∈ tables.leases)
    (hacct : old.accountId = row.accountId) (hgen : old.lease.generation = row.lease.generation)
    (hactv : row.lease.status = .active → row.lease.workerId ∈ t.heldWorkers)
    (hbdd : stage.settling = false → Bounded tables (t.writeLease row))
    (hstg : StageFits tables (t.writeLease row) stage) : Fits tables ((t.writeLease row).at_ stage) :=
  { h with
    leaseKeys := nodup_install h.leaseKeys (by simp)
    leasesHeld := all_written (fun version hmem => mem_cons_of_mem _ (h.leasesHeld version hmem)) mem_cons_self
    active := all_written h.active hactv
    bounded := hbdd
    generation := all_written h.generation (.inr ⟨old, hold, hacct, hgen⟩)
    granted := fun _ _ hgra => absurd (hungr.symm.trans hgra) (by simp)
    ungranted := fun _ => hungr
    stage := hstg }

end Fits

/-! ## One statement -/

/-- The transaction goes on, with rows nobody else held. -/
structure Advanced (db : Database) (t next : Transaction) : Prop where
  id : next.id = t.id
  workers : ∀ workerId ∈ next.heldWorkers, workerId ∈ t.heldWorkers ∨ db.workerHeld t workerId = false
  leases : ∀ accountId ∈ next.heldLeases, accountId ∈ t.heldLeases ∨ db.leaseHeld t accountId = false
  fits : Fits db.tables next

section
variable (hsane : Sane db.tables) (hfits : Fits db.tables t)
include hfits

/-- Nothing but the stage and the connections moves. -/
theorem advanced_at (stage : Stage) (hbdd : stage.settling = false → Bounded db.tables t)
    (hungr : stage ≠ .done → t.granted = none) (hstg : StageFits db.tables t stage) : Advanced db t (t.at_ stage) where
  id := rfl
  workers _ h := .inl h
  leases _ h := .inl h
  fits := hfits.at_ stage hbdd hungr hstg

/-- A stage that settles no worker and is not the last: what it promises, and the stages it can go on to. -/
theorem settled_at {stage : Stage} (hat : t.stage = stage) (hset : stage.settling = false) (hne : stage ≠ .done) :
    StageFits db.tables t stage ∧ t.granted = none ∧ Bounded db.tables t ∧
      ∀ stage', StageFits db.tables t stage' → Advanced db t (t.at_ stage') := by
  obtain ⟨hstg, hungr⟩ := hfits.at_stage hat hne
  have hbdd := hfits.bounded (hat ▸ hset)
  exact ⟨hstg, hungr, hbdd, fun stage' => advanced_at hfits stage' (fun _ => hbdd) fun _ => hungr⟩

/-- The last statement of a transaction that settles no worker. -/
theorem advanced_done (hset : t.stage.settling = false) : Advanced db t (t.at_ .done) :=
  advanced_at hfits .done (fun _ => hfits.bounded hset) (fun hne => absurd rfl hne) trivial

variable {account : Connection}

omit hfits in
theorem Advanced.writeConnection {stage : Stage} (h : Advanced db t (t.at_ stage)) :
    Advanced db t ((t.writeConnection account).at_ stage) :=
  ⟨rfl, h.workers, h.leases, h.fits.writeConnection⟩

variable {accountId : AccountId} {snapshot : Tables}

theorem takeAccount_advanced (hat : t.stage = .accountsSeen snapshot)
    (h : takeAccount db t snapshot accountId = .goes next) : Advanced db t next := by
  obtain ⟨hstg, -, -, hgoes⟩ := settled_at hfits hat rfl nofun
  unfold takeAccount at h
  split at h
  · rename_i account _ _
    split at h
    · cases h
      have hlooks := hgoes (.accountHeld account) hstg
      exact ⟨rfl, hlooks.workers, hlooks.leases, hlooks.fits.holdConnection⟩
    · cases h
  · cases h

include hsane

/-- A transaction that has written nothing takes a worker nobody holds. -/
theorem advanced_holdWorker (stage : Stage) (hidle : Idle db.tables t) (hungr : t.granted = none)
    (hfree : db.workerHeld t workerId = false) (hstg : StageFits db.tables (t.holdWorker workerId) stage) :
    Advanced db t ((t.holdWorker workerId).at_ stage) where
  id := rfl
  workers := forall_mem_cons.mpr ⟨.inr hfree, fun _ => .inl⟩
  leases _ h := .inl h
  fits := by
    have hidle' : Idle db.tables (t.holdWorker workerId) := hidle
    exact hfits.holdWorker stage hungr (fun _ => hidle'.bounded hsane hfits.leaseKeys) hstg

theorem takeWorker_advanced (hat : t.stage = .workersSeen account snapshot)
    (hroom : ∀ worker, db.tables.worker? workerId = some worker →
      leased worker.workerId db.tables.now db.tables.leases < room worker)
    (h : takeWorker db t account snapshot workerId = .goes next) : Advanced db t next := by
  obtain ⟨⟨hwkrs, hleases, hheld⟩, hungr⟩ := hfits.at_stage hat nofun
  unfold takeWorker at h
  split at h
  · rename_i worker _ hwkr
    split at h
    · rename_i hoffers
      cases h
      obtain ⟨hmem, hkey⟩ := lookup_some hwkr
      simp only [Bool.and_eq_true, Bool.not_eq_true'] at hoffers
      refine advanced_holdWorker hsane hfits (.workerHeld account worker) (idle_of_nothing hwkrs hleases) hungr hoffers.2 ?_
      refine ⟨hwkrs, hleases, ?_, hmem, hroom worker hwkr⟩
      show workerId :: t.heldWorkers = _
      rw [hheld, hkey]
    · cases h
  · cases h

variable {envelope : Envelope}

theorem lockWorker_advanced {stage : Worker → Stage} (hat : t.stage = .begun)
    (hstages : ∀ worker, authenticateWorker envelope ⟨t.startedAt, 0, db.tables.workers, []⟩ = .ok worker →
      worker ∈ db.tables.workers → t.workers = [] → t.leases = [] → t.heldWorkers = [] →
      StageFits db.tables (t.holdWorker worker.workerId) (stage worker))
    (h : lockWorker db t envelope stage = .goes next) : Advanced db t next := by
  obtain ⟨⟨hwkrs, hleases, hheld⟩, hungr⟩ := hfits.at_stage hat nofun
  unfold lockWorker at h
  split at h
  · cases h
  rename_i hfree
  split at h
  · cases h
  rename_i worker hauth
  cases h
  obtain ⟨hfnd, hkey, _⟩ := authenticateWorker_ok hauth
  have hmem : worker ∈ db.tables.workers := mem_of_find?_eq_some hfnd
  refine advanced_holdWorker hsane hfits (stage worker) (idle_of_nothing hwkrs hleases) hungr ?_
    (hstages worker hauth hmem hwkrs hleases hheld)
  rw [hkey]
  simpa using hfree

omit hsane in
theorem advanced_writeWorker (stage : Stage) (hfree : db.workerHeld t worker.workerId = false)
    (hbdd : stage.settling = false → Bounded db.tables (t.writeWorker worker)) (hungr : t.granted = none)
    (hstg : StageFits db.tables (t.writeWorker worker) stage) : Advanced db t ((t.writeWorker worker).at_ stage) where
  id := rfl
  workers := forall_mem_cons.mpr ⟨.inr hfree, fun _ => .inl⟩
  leases _ h := .inl h
  fits := hfits.writeWorker stage hungr hbdd hstg

omit hsane in
theorem advanced_writeLease (stage : Stage) (hold : old ∈ db.tables.leases)
    (hacct : old.accountId = row.accountId) (hgen : old.lease.generation = row.lease.generation)
    (hactv : row.lease.status = .active → row.lease.workerId ∈ t.heldWorkers)
    (hfree : db.leaseHeld t row.accountId = false)
    (hbdd : stage.settling = false → Bounded db.tables (t.writeLease row)) (hungr : t.granted = none)
    (hstg : StageFits db.tables (t.writeLease row) stage) : Advanced db t ((t.writeLease row).at_ stage) where
  id := rfl
  workers _ h := .inl h
  leases := forall_mem_cons.mpr ⟨.inr hfree, fun _ => .inl⟩
  fits := hfits.writeLease stage hungr hold hacct hgen hactv hbdd hstg

/-! ### Placing -/

omit hfits in
theorem grant_generation (hold : old ∈ db.tables.leases) (hacct : old.accountId = account.accountId) :
    old.lease.generation < (grant db t account worker).lease.generation := by
  unfold grant Tables.lease?
  cases hfnd : Versions.lookup accountId db.tables.leases account.accountId with
  | none => exact absurd hacct (lookup_none hfnd old hold)
  | some found =>
    obtain ⟨hmem, hkey⟩ := lookup_some hfnd
    have hsame : old = found := inj_on_of_nodup_map hsane.leaseKeys hold hmem (by rw [hacct, hkey])
    subst hsame
    simp

/-- The lease goes in under the lock of the worker whose leases were counted. -/
theorem insertLease_advanced (hat : t.stage = .workerHeld account worker)
    (h : insertLease db t account worker = .goes next) : Advanced db t next := by
  obtain ⟨⟨hwkrs, hleases, hheld, hwkr, hroom⟩, -⟩ := hfits.at_stage hat nofun
  unfold insertLease at h
  split at h
  · cases h
  rename_i hfree
  cases h
  have hversions : install accountId [grant db t account worker] t.leases = [grant db t account worker] := by
    rw [hleases]
    simp [install]
  -- the only lease the transaction writes is the one it grants
  have honly : ∀ version, version ∈ install accountId [grant db t account worker] t.leases →
      version = grant db t account worker := fun _ hver => mem_singleton.mp (hversions ▸ hver)
  refine ⟨rfl, fun _ => .inl, forall_mem_cons.mpr ⟨.inr ?_, fun _ => .inl⟩, ?_⟩
  · simpa [grant] using hfree
  · exact {
      workerKeys := hfits.workerKeys
      leaseKeys := nodup_install hfits.leaseKeys (by simp)
      workersHeld := hfits.workersHeld
      leasesHeld := by
        intro version hver
        rw [honly version hver]
        exact mem_cons_self
      active := by
        intro version hver _
        rw [honly version hver]
        show worker.workerId ∈ t.heldWorkers
        rw [hheld]
        exact mem_singleton_self _
      bounded := by
        intro _ other hoth hotherHeld
        have hmem : other ∈ db.tables.workers := by
          rcases mem_install.mp hoth with ⟨hmem, _⟩ | hver
          · exact hmem
          · exact absurd (show other ∈ t.workers from hver) (by simp [hwkrs])
        have hsame : other = worker := by
          refine inj_on_of_nodup_map hsane.workerKeys hmem hwkr ?_
          have : other.workerId ∈ t.heldWorkers := hotherHeld
          rw [hheld] at this
          exact mem_singleton.mp this
        subst hsame
        refine le_trans (countP_le_succ account.accountId
          (nodup_install hsane.leaseKeys (nodup_install hfits.leaseKeys (by simp)))
          fun lease hls hhld => ?_) hroom
        rcases mem_install.mp hls with ⟨hold, _⟩ | hver
        · exact .inr ⟨lease, hold, hhld, rfl⟩
        · rw [honly lease hver]
          exact .inl rfl
      generation := by
        intro version hver
        rw [honly version hver]
        exact .inl rfl
      granted := by
        intro accountId generation hgra
        cases hgra
        refine ⟨⟨grant db t account worker, ?_, rfl, rfl⟩, fun old hold hacct => grant_generation hsane hold hacct⟩
        show grant db t account worker ∈ install accountId [grant db t account worker] t.leases
        rw [hversions]
        exact mem_singleton_self _
      ungranted := fun hnot => absurd rfl hnot
      stage := trivial }

/-! ### Heartbeats -/

variable {claims : List WorkerLeaseClaim} {seen : List AccountId}

omit hfits in
theorem leased_of_renewing (hkeys : (t.leases.map LeaseRow.accountId).Nodup) (hstg : StageFits db.tables t (.renewing worker claims seen)) :
    leased worker.workerId db.tables.now (db.tables.leasesWith t) ≤ room worker := by
  obtain ⟨_, _, _, all, _, hroom, hrows⟩ := hstg
  refine le_trans (countP_le (nodup_install hsane.leaseKeys hkeys) fun row hrow hhld => ?_) hroom
  rcases mem_install.mp hrow with ⟨hmem, _⟩ | hver
  · exact ⟨row, hmem, by rw [renewable, hhld, Bool.true_or], rfl⟩
  · obtain ⟨old, hold, hacct, hclmd⟩ := hrows row hver
    exact ⟨old, hold, by rw [renewable, hclmd, Bool.or_true], hacct⟩

omit hfits in
theorem bounded_of_renewing (hkeys : (t.leases.map LeaseRow.accountId).Nodup)
    (hstg : StageFits db.tables t (.renewing worker claims seen)) :
    Bounded db.tables t := by
  have hleas := leased_of_renewing hsane hkeys hstg
  obtain ⟨hwkrs, hheld, hwkr, _⟩ := hstg
  intro other hoth hotherHeld
  have hmem : other ∈ db.tables.workers := by
    rcases mem_install.mp hoth with ⟨hmem, _⟩ | hver
    · exact hmem
    · rw [hwkrs] at hver
      cases hver
  rw [hheld] at hotherHeld
  have hsame : other = worker := inj_on_of_nodup_map hsane.workerKeys hmem hwkr (mem_singleton.mp hotherHeld)
  rw [hsame]
  exact hleas

theorem beginHeartbeat_advanced (hat : t.stage = .begun)
    (hroom : ∀ worker, authenticateWorker envelope ⟨t.startedAt, 0, db.tables.workers, []⟩ = .ok worker →
      db.tables.leases.countP (renewable worker t.startedAt db.tables.now claims) ≤ room worker)
    (h : beginHeartbeat db t envelope claims = .goes next) : Advanced db t next := by
  unfold beginHeartbeat at h
  split at h
  · cases h
  refine lockWorker_advanced hsane hfits hat (fun worker hauth hmem hwkrs hleases hheld => ?_) h
  refine ⟨hwkrs, ?_, hmem, claims, List.Subset.refl _, hroom worker hauth, fun row hrow => ?_⟩
  · show worker.workerId :: t.heldWorkers = _
    rw [hheld]
  · have hnone : row ∈ t.leases := hrow
    rw [hleases] at hnone
    cases hnone

theorem renew_advanced (hat : t.stage = .renewing worker claims seen)
    (h : renew db t worker seen claims = .goes next) : Advanced db t next := by
  obtain ⟨hstg, hungr⟩ := hfits.at_stage hat nofun
  have hleas := leased_of_renewing hsane hfits.leaseKeys hstg
  obtain ⟨hwkrs, hheld, hwkr, all, hall, hroom, hrows⟩ := hstg
  cases claims with
  | nil =>
    simp only [renew] at h
    cases h
    refine ⟨rfl, fun other hoth => .inl ?_, fun _ h => .inl h, hfits.writeWorker .done hungr (fun _ => ?_) trivial⟩
    · rw [hheld]
      rcases mem_cons.mp hoth with rfl | hmem
      · exact mem_singleton_self _
      · rw [hheld] at hmem
        exact hmem
    · intro other hoth hotherHeld
      have hid : other.workerId = worker.workerId := by
        rcases mem_cons.mp hotherHeld with heq | hmem
        · exact heq
        · rw [hheld] at hmem
          exact mem_singleton.mp hmem
      -- the worker's row is the version, of the room it had
      have hsame : room other = room worker := by
        rcases mem_install.mp hoth with ⟨_, hkey⟩ | hver
        · exfalso
          apply hkey
          rw [hid]
          exact mem_map.mpr ⟨_, mem_install.mpr (.inr (mem_singleton_self _)), rfl⟩
        · rcases mem_install.mp hver with ⟨hmem, _⟩ | hnew
          · rw [hwkrs] at hmem
            cases hmem
          · rw [mem_singleton.mp hnew]
            rfl
      rw [hid, hsame]
      exact hleas
  | cons claim rest =>
    simp only [renew] at h
    split at h
    · cases h
    split at h
    · cases h
    rename_i row hfnd
    split at h
    · cases h
    rename_i hclmd
    split at h
    · cases h
    rename_i hfree
    cases h
    simp only [Bool.not_eq_true, Bool.not_eq_false'] at hclmd hfree
    obtain ⟨hmem, hkey⟩ := lookup_some hfnd
    obtain ⟨_, hof, _, _, hactv, _⟩ := claimed_iff.mp hclmd
    have hnext : StageFits db.tables (t.writeLease (row.renewed t.startedAt))
        (.renewing worker rest (claim.accountId :: seen)) := by
      refine ⟨hwkrs, hheld, hwkr, all, fun c hc => hall (mem_cons_of_mem _ hc), hroom, fun version hver => ?_⟩
      rcases mem_install.mp hver with ⟨hold, _⟩ | hnew
      · exact hrows version hold
      · rw [mem_singleton.mp hnew]
        exact ⟨row, hmem, rfl, any_eq_true.mpr ⟨claim, hall mem_cons_self, hclmd⟩⟩
    refine advanced_writeLease hfits _ hmem rfl rfl (fun _ => ?_) (by rw [← hfree, ← hkey]; rfl) (fun _ => ?_) hungr hnext
    · show row.lease.workerId ∈ t.heldWorkers
      rw [hheld, hof]
      exact mem_singleton_self _
    · exact bounded_of_renewing hsane (nodup_install hfits.leaseKeys (by simp)) hnext

/-! ### Hellos -/

omit hsane in
theorem enroll_advanced {request : WorkerHelloRequest} {token : Nat} (hat : t.stage = .begun)
    (h : enroll db t request token = .goes next) : Advanced db t next := by
  obtain ⟨⟨hwkrs, hleases, hheld⟩, hungr⟩ := hfits.at_stage hat nofun
  unfold enroll at h
  split at h
  · cases h
  rename_i protocol _
  split at h
  · cases h
  rename_i hfree
  cases h
  refine advanced_writeWorker hfits _ (by simpa [Mt5Vm.enrolled] using hfree) nofun hungr ⟨?_, hleases, ?_⟩
  · show install Worker.workerId [_] t.workers = _
    rw [hwkrs]
    simp [install]
  · show _ :: t.heldWorkers = _
    rw [hheld]

omit hsane in
theorem seeLeases_advanced (hat : t.stage = .enrolled worker) (h : seeLeases db t worker = .goes next) : Advanced db t next := by
  obtain ⟨⟨hwkrs, hleases, hheld⟩, hungr⟩ := hfits.at_stage hat nofun
  cases h
  refine advanced_at hfits _ nofun (fun _ => hungr) ⟨hwkrs, hheld, ?_, ?_⟩
  · intro row hrow
    rw [hleases] at hrow
    cases hrow
  · intro row hrow hof hactv
    left
    refine mem_map.mpr ⟨row, mem_filter.mpr ⟨hrow, ?_⟩, rfl⟩
    simp [hof, hactv]

variable {accounts : List AccountId}

theorem expireLease_advanced (hat : t.stage = .expiring worker accounts)
    (h : expireLease db t worker accounts accountId = .goes next) : Advanced db t next := by
  obtain ⟨⟨hwkrs, hheld, hinact, hleft⟩, hungr⟩ := hfits.at_stage hat nofun
  -- where the chosen lease needs no version, it is not the worker's or not active
  have hskip : (∀ row, db.tables.lease? accountId = some row → ¬(row.lease.workerId = worker.workerId ∧ row.lease.status = .active)) →
      StageFits db.tables t (.expiring worker (accounts.filter (· ≠ accountId))) := by
    intro hoth
    refine ⟨hwkrs, hheld, hinact, fun row hrow hof hactv => ?_⟩
    rcases hleft row hrow hof hactv with hmem | hver
    · left
      refine mem_filter.mpr ⟨hmem, ?_⟩
      by_contra hsame
      have hsame : row.accountId = accountId := by simpa using hsame
      cases hfnd : db.tables.lease? accountId with
      | none => exact absurd hsame (lookup_none hfnd row hrow)
      | some found =>
        obtain ⟨hmem, hkey⟩ := lookup_some hfnd
        have heq : row = found := inj_on_of_nodup_map hsane.leaseKeys hrow hmem (by rw [hsame, hkey])
        exact hoth found hfnd (heq ▸ ⟨hof, hactv⟩)
    · exact .inr hver
  unfold expireLease at h
  split at h
  · cases h
  rename_i hfree
  simp only [Bool.or_eq_true, not_or, Bool.not_eq_true] at hfree
  split at h
  · rename_i hnone
    cases h
    refine advanced_at hfits _ nofun (fun _ => hungr) (hskip fun row hrow => ?_)
    rw [hnone] at hrow
    cases hrow
  · rename_i row hfnd
    obtain ⟨hmem, hkey⟩ := lookup_some hfnd
    split at h
    · cases h
      refine advanced_writeLease hfits _ hmem rfl rfl nofun (by rw [← hfree.2, ← hkey]; rfl) nofun hungr ⟨hwkrs, hheld, ?_, ?_⟩
      · intro version hver
        rcases mem_install.mp hver with ⟨hold, _⟩ | hnew
        · exact hinact version hold
        · rw [mem_singleton.mp hnew]
          simp [expired]
      · intro lease hls hof hactv
        by_cases hsame : lease.accountId = accountId
        · right
          exact mem_map.mpr ⟨row.expired, mem_install.mpr (.inr (mem_singleton_self _)),
            by rw [hsame, ← hkey]; rfl⟩
        · rcases hleft lease hls hof hactv with hacct | hver
          · exact .inl (mem_filter.mpr ⟨hacct, by simpa using hsame⟩)
          · obtain ⟨old, hold, heq⟩ := mem_map.mp hver
            refine .inr (mem_map.mpr ⟨old, mem_install.mpr (.inl ⟨hold, ?_⟩), heq⟩)
            simp only [map_cons, map_nil, mem_singleton]
            rw [heq]
            exact fun h => hsame (h.trans hkey)
    · rename_i hnot
      cases h
      refine advanced_at hfits _ nofun (fun _ => hungr) (hskip fun other hoth => ?_)
      rw [hfnd] at hoth
      cases hoth
      simpa using hnot

omit hsane in
theorem seeAccounts_advanced (hat : t.stage = .expiring worker []) (h : seeAccounts db t worker.workerId = .goes next) :
    Advanced db t next := by
  obtain ⟨⟨hwkrs, hheld, hinact, hleft⟩, hungr⟩ := hfits.at_stage hat nofun
  cases h
  refine advanced_at hfits _ (fun _ => ?_) (fun _ => hungr) trivial
  intro other hoth hotherHeld
  rw [hheld] at hotherHeld
  have hid : other.workerId = worker.workerId := mem_singleton.mp hotherHeld
  have hnone : leased other.workerId db.tables.now (db.tables.leasesWith t) = 0 := by
    refine countP_eq_zero.mpr fun row hrow hhld => ?_
    obtain ⟨hof, hactv, _⟩ := LeaseRow.holds_iff.mp hhld
    rcases mem_install.mp hrow with ⟨hmem, hkey⟩ | hver
    · rcases hleft row hmem (by rw [hof, hid]) hactv with hnil | hver
      · cases hnil
      · exact hkey hver
    · exact hinact row hver hactv
  omega

omit hsane in
theorem requeueAccount_advanced (hat : t.stage = .requeueing workerId accounts)
    (h : requeueAccount db t workerId accounts accountId = .goes next) : Advanced db t next := by
  obtain ⟨-, -, -, hgoes⟩ := settled_at hfits hat rfl nofun
  unfold requeueAccount at h
  split at h
  · cases h
  split at h
  · cases h
    exact hgoes _ trivial
  · split at h
    · cases h
      exact (hgoes (.requeueing workerId _) trivial).writeConnection
    · cases h
      exact hgoes _ trivial

/-! ### Sweeps -/

omit hsane in
theorem seeWorkers_advanced (hat : t.stage = .begun) (h : seeWorkers db t = .goes next) : Advanced db t next := by
  obtain ⟨⟨hwkrs, hleases, -⟩, -, -, hgoes⟩ := settled_at hfits hat rfl nofun
  cases h
  exact hgoes _ (idle_of_nothing hwkrs hleases)

theorem offlineWorker_advanced {workers : List WorkerId} (hat : t.stage = .offlining workers)
    (h : offlineWorker db t workers workerId = .goes next) : Advanced db t next := by
  obtain ⟨hidle, hungr, -, hgoes⟩ := settled_at hfits hat rfl nofun
  unfold offlineWorker at h
  split at h
  · cases h
  rename_i hfree
  simp only [Bool.or_eq_true, not_or, Bool.not_eq_true] at hfree
  split at h
  · cases h
    exact hgoes _ hidle
  · rename_i worker hfnd
    obtain ⟨hmem, hkey⟩ := lookup_some hfnd
    split at h
    · cases h
      have hidle' : Idle db.tables (t.writeWorker { worker with status := .offline }) := hidle.writeWorker hmem rfl rfl
      refine advanced_writeWorker hfits _ (by rw [← hfree.2, ← hkey]) (fun _ => hidle'.bounded hsane hfits.leaseKeys)
        hungr hidle'
    · cases h
      exact hgoes _ hidle

omit hsane in
theorem seeLapsed_advanced {workers : List WorkerId} (hat : t.stage = .offlining workers) (h : seeLapsed db t = .goes next) :
    Advanced db t next := by
  obtain ⟨hstg, -, -, hgoes⟩ := settled_at hfits hat rfl nofun
  cases h
  exact hgoes _ hstg

theorem lapseLease_advanced {lapsed : List (AccountId × Nat)} (hat : t.stage = .lapsing snapshot accounts lapsed)
    (h : lapseLease db t snapshot accounts lapsed accountId = .goes next) : Advanced db t next := by
  obtain ⟨hidle, hungr, -, hgoes⟩ := settled_at hfits hat rfl nofun
  unfold lapseLease at h
  split at h
  · cases h
  rename_i hfree
  simp only [Bool.not_eq_true] at hfree
  split at h
  · cases h
    exact hgoes _ hidle
  · rename_i row hfnd
    obtain ⟨hmem, hkey⟩ := lookup_some hfnd
    split at h
    · cases h
      have hidle' : Idle db.tables (t.writeLease row.expired) := hidle.writeLease (by simp [expired])
      exact advanced_writeLease hfits _ hmem rfl rfl nofun (by rw [← hfree, ← hkey]; rfl)
        (fun _ => hidle'.bounded hsane (nodup_install hfits.leaseKeys (by simp))) hungr hidle'
    · cases h
      exact hgoes _ hidle

omit hsane in
theorem requeueLapsed_advanced {lapsed : List (AccountId × Nat)} (hat : t.stage = .lapsing snapshot accounts lapsed)
    (h : requeueLapsed db t snapshot accounts lapsed accountId = .goes next) : Advanced db t next := by
  obtain ⟨hidle, -, -, hgoes⟩ := settled_at hfits hat rfl nofun
  unfold requeueLapsed at h
  split at h
  · cases h
  split at h
  · cases h
  split at h
  · cases h
    exact hgoes _ hidle
  · split at h
    · cases h
      exact (hgoes (.lapsing snapshot accounts (lapsed.filter (·.1 ≠ accountId))) hidle).writeConnection
    · cases h
      exact hgoes _ hidle

/-! ### Acknowledged stops -/

variable {request : AckRequest}

theorem beginAck_advanced (hat : t.stage = .begun) (h : beginAck db t envelope request = .goes next) : Advanced db t next := by
  unfold beginAck at h
  split at h
  · cases h
  refine lockWorker_advanced hsane hfits hat ?_ h
  intro worker _ _ hwkrs hleases _
  exact idle_of_nothing hwkrs hleases

theorem releaseLease_advanced {command : ControlCommand}
    (hat : t.stage = .acknowledging worker) (h : releaseLease db t worker request accountId command = .goes next) :
    Advanced db t next := by
  obtain ⟨hidle, hungr, hbdd, -⟩ := settled_at hfits hat rfl nofun
  unfold releaseLease at h
  split at h
  · cases h
  rename_i row hfnd
  obtain ⟨hmem, hkey⟩ := lookup_some hfnd
  split at h
  · cases h
  rename_i hfree
  simp only [Bool.not_eq_true] at hfree
  split at h
  · by_cases hsame : row.lease.release worker.workerId request.leaseGeneration = row.lease
    · simp only [if_pos hsame] at h
      cases h
      exact ⟨rfl, fun _ => .inl, forall_mem_cons.mpr ⟨.inr hfree, fun _ => .inl⟩,
        hfits.holdLease .disconnecting (fun _ => hbdd) (fun _ => hungr) trivial⟩
    · simp only [if_neg hsame] at h
      cases h
      have hreld : row.lease.release worker.workerId request.leaseGeneration = { row.lease with status := .released } := by
        unfold Lease.release at hsame ⊢
        split
        · rfl
        rename_i hnot
        rw [if_neg hnot] at hsame
        exact absurd rfl hsame
      rw [hreld]
      have hidle' : Idle db.tables (t.writeLease { row with lease := { row.lease with status := .released } }) :=
        hidle.writeLease (by simp)
      exact advanced_writeLease hfits .disconnecting hmem rfl rfl nofun
        (by rw [← hfree, ← hkey]) (fun _ => hidle'.bounded hsane (nodup_install hfits.leaseKeys (by simp)))
        hungr trivial
  · cases h

omit hsane in
theorem disconnectAccount_advanced (hat : t.stage = .disconnecting)
    (h : disconnectAccount db t request = .goes next) : Advanced db t next := by
  have hdone := advanced_done hfits (by rw [hat]; rfl)
  unfold disconnectAccount at h
  split at h
  · cases h
  split at h
  · cases h
    exact hdone
  · cases h
    exact hdone.writeConnection

/-- **One statement keeps what the transaction knows**, where it finds room. -/
theorem advance_advanced {choice : String} (hfinds : finds db.tables choice t = true) (h : advance db t choice = .goes next) :
    Advanced db t next := by
  have hungr : t.stage ≠ .done → t.granted = none := hfits.ungranted
  unfold advance at h
  split at h
  · rename_i hat _
    obtain ⟨hstg, -, -, hgoes⟩ := settled_at hfits hat rfl nofun
    cases h
    exact hgoes _ hstg
  · rename_i envelope claims hat hcall
    refine beginHeartbeat_advanced hsane hfits hat (fun worker hauth => ?_) h
    simpa [finds, hat, hcall, hauth] using hfinds
  · rename_i hat _
    exact enroll_advanced hfits hat h
  · rename_i hat _
    exact seeWorkers_advanced hfits hat h
  · rename_i hat _
    exact beginAck_advanced hsane hfits hat h
  · rename_i hat
    exact takeAccount_advanced hfits hat h
  · rename_i hat
    obtain ⟨hstg, -, -, hgoes⟩ := settled_at hfits hat rfl nofun
    cases h
    exact hgoes _ hstg
  · rename_i hat
    refine takeWorker_advanced hsane hfits hat (fun worker hwkr => ?_) h
    simpa [finds, hat, hwkr] using hfinds
  · rename_i hat
    exact insertLease_advanced hsane hfits hat h
  · rename_i hat
    exact renew_advanced hsane hfits hat h
  · rename_i hat
    exact seeLeases_advanced hfits hat h
  · rename_i hat
    exact seeAccounts_advanced hfits hat h
  · rename_i hat
    exact expireLease_advanced hsane hfits hat h
  · rename_i hat
    cases h
    exact advanced_done hfits (by rw [hat]; rfl)
  · rename_i hat
    exact requeueAccount_advanced hfits hat h
  · rename_i hat
    exact seeLapsed_advanced hfits hat h
  · rename_i hat
    exact offlineWorker_advanced hsane hfits hat h
  · rename_i hat
    cases h
    exact advanced_done hfits (by rw [hat]; rfl)
  · rename_i hat
    split at h
    · exact lapseLease_advanced hsane hfits hat h
    · exact requeueLapsed_advanced hfits hat h
  · rename_i hat _
    exact releaseLease_advanced hsane hfits hat h
  · rename_i hat _
    exact disconnectAccount_advanced hfits hat h
  · cases h

end

/-! ## Every transaction at once -/

/-- No two transactions hold one row. -/
def Apart {K : Type} (held : Transaction → List K) (running : List Transaction) : Prop :=
  ∀ t ∈ running, ∀ other ∈ running, t.id ≠ other.id → ∀ k ∈ held t, k ∉ held other

structure Coherent (db : Database) : Prop where
  sane : Sane db.tables
  workers : Apart Transaction.heldWorkers db.running
  leases : Apart Transaction.heldLeases db.running
  fits : ∀ t ∈ db.running, Fits db.tables t
  /-- What was granted is not above the generation the account is at. -/
  current : ∀ granted ∈ db.grants, ∃ row ∈ db.tables.leases, row.accountId = granted.1 ∧ granted.2 ≤ row.lease.generation
  generations : db.grants.Pairwise fun earlier later => earlier.1 = later.1 → earlier.2 < later.2

namespace Coherent

theorem of_start (h : Start db) : Coherent db where
  sane := ⟨h.workers, h.leases, h.capacity⟩
  workers t ht := by
    rw [h.running] at ht
    cases ht
  leases t ht := by
    rw [h.running] at ht
    cases ht
  fits t ht := by
    rw [h.running] at ht
    cases ht
  current granted hgra := by
    rw [h.grants] at hgra
    cases hgra
  generations := by
    rw [h.grants]
    exact List.Pairwise.nil

theorem placed (h : Coherent db) : Placed db where
  capacity := h.sane.capacity
  single accountId := by
    refine countP_le_length h.sane.leaseKeys [accountId] fun row _ hrow => ?_
    simp only [Bool.and_eq_true, decide_eq_true_eq] at hrow
    rw [hrow.1]
    exact mem_singleton_self _
  generations := h.generations

variable {other : Transaction}

/-- A row another transaction was not found to hold, it does not hold. -/
theorem not_held {K : Type} [DecidableEq K] {held : Transaction → List K} {k : K}
    (hfree : (db.running.any fun other => other.id ≠ t.id && (held other).contains k) = false)
    (hoth : other ∈ db.running) (hid : other.id ≠ t.id) : k ∉ held other := by
  intro hmem
  have hnone := any_eq_false.mp hfree other hoth
  simp [hid, hmem] at hnone

theorem apart_replace {K : Type} [DecidableEq K] {held : Transaction → List K} (hmem : t ∈ db.running) (hnext : next.id = t.id)
    (h : Apart held db.running)
    (hheld : ∀ k ∈ held next, k ∈ held t ∨ (db.running.any fun other => other.id ≠ t.id && (held other).contains k) = false) :
    Apart held (db.replace next).running := by
  have hcs : ∀ other ∈ (db.replace next).running, other ∈ db.running ∧ other.id ≠ t.id ∨ other = next := by
    intro other hoth
    rcases updateWhere_cases hoth with ⟨hold, hid⟩ | ⟨_, _, _, rfl⟩
    · rw [hnext] at hid
      exact .inl ⟨hold, by simpa using hid⟩
    · exact .inr rfl
  have happart : ∀ other ∈ db.running, other.id ≠ t.id → ∀ k ∈ held next, k ∉ held other := by
    intro other hoth hid k hk
    rcases hheld k hk with hbef | hfree
    · exact h t hmem other hoth (Ne.symm hid) k hbef
    · exact not_held hfree hoth hid
  intro first hfs second hsec hne k hk
  rcases hcs first hfs with ⟨hold, hid⟩ | rfl
  · rcases hcs second hsec with ⟨hoth, _⟩ | rfl
    · exact h first hold second hoth hne k hk
    · exact fun hoth => happart first hold hid k hoth hk
  · rcases hcs second hsec with ⟨hoth, hid⟩ | rfl
    · exact happart second hoth hid k hk
    · exact absurd rfl hne

theorem apart_cons {K : Type} {held : Transaction → List K} (hnone : held t = []) (h : Apart held db.running) :
    Apart held (t :: db.running) := by
  intro first hfs second hsec hne k hk hoth
  rcases mem_cons.mp hfs with rfl | hfs
  · exact absurd hk (hnone ▸ not_mem_nil)
  rcases mem_cons.mp hsec with rfl | hsec
  · exact absurd hoth (hnone ▸ not_mem_nil)
  · exact h first hfs second hsec hne k hk hoth

theorem replace (h : Coherent db) (hmem : t ∈ db.running) (hadvanced : Advanced db t next) : Coherent (db.replace next) :=
  { h with
    workers := apart_replace hmem hadvanced.id h.workers hadvanced.workers
    leases := apart_replace hmem hadvanced.id h.leases hadvanced.leases
    fits := by
      intro other hoth
      rcases updateWhere_cases hoth with ⟨hold, _⟩ | ⟨_, _, _, rfl⟩
      · exact h.fits other hold
      · exact hadvanced.fits }

theorem drop (h : Coherent db) (id : Nat) : Coherent (db.drop id) where
  __ := h
  workers t ht other hoth := h.workers t (mem_of_mem_filter ht) other (mem_of_mem_filter hoth)
  leases t ht other hoth := h.leases t (mem_of_mem_filter ht) other (mem_of_mem_filter hoth)
  fits t ht := h.fits t (mem_of_mem_filter ht)

theorem beginCall {id : Nat} {call : Call} (h : Coherent db) (hstep : beginCall db id call = some db') : Coherent db' := by
  unfold Placement.beginCall at hstep
  split at hstep
  · cases hstep
  cases hstep
  exact { h with
    workers := apart_cons rfl h.workers
    leases := apart_cons rfl h.leases
    fits := by
      intro t ht
      rcases mem_cons.mp ht with rfl | ht
      · exact {
          workerKeys := nodup_nil
          leaseKeys := nodup_nil
          workersHeld := nofun
          leasesHeld := nofun
          active := nofun
          bounded := fun _ worker _ hheld => by cases hheld
          generation := nofun
          granted := nofun
          ungranted := fun _ => rfl
          stage := ⟨rfl, rfl, rfl⟩ }
      · exact h.fits t ht }

/-- The clock goes on, or a connection changes. -/
theorem wait (h : Coherent db) (time : Millis) (connections : List Connection) :
    Coherent { db with tables := { db.tables with now := db.tables.now + time, connections } } where
  __ := h
  sane := { h.sane with
    capacity := by
      intro worker hwkr
      refine le_trans (countP_le h.sane.leaseKeys fun row hrow hhld => ?_) (h.sane.capacity worker hwkr)
      exact ⟨row, hrow, holds_earlier (Nat.le_add_right _ _) hhld, rfl⟩ }
  fits t ht := (h.fits t ht).around
    { keys := h.sane.leaseKeys
      clock := Nat.le_add_right _ _
      active := fun _ hrow _ _ => hrow
      lease := fun _ _ => Iff.rfl
      worker := fun _ _ => Iff.rfl }

/-- A commit gives the others' workers no lease, and leaves the others their rows. -/
theorem around (h : Coherent db) (hmem : t ∈ db.running) (hoth : other ∈ db.running)
    (hid : t.id ≠ other.id) : Around other db.tables (db.tables.installed t) where
  keys := nodup_install h.sane.leaseKeys (h.fits t hmem).leaseKeys
  clock := le_refl _
  active row hrow hactv hheld := by
    rcases mem_install.mp hrow with ⟨hold, _⟩ | hver
    · exact hold
    · exact absurd hheld (h.workers t hmem other hoth hid _ ((h.fits t hmem).active row hver hactv))
  lease row hheld := by
    refine mem_install_beside fun version hver hsame => ?_
    exact h.leases t hmem other hoth hid _ ((h.fits t hmem).leasesHeld version hver) (hsame ▸ hheld)
  worker worker hheld := by
    refine mem_install_beside fun version hver hsame => ?_
    exact h.workers t hmem other hoth hid _ ((h.fits t hmem).workersHeld version hver) (hsame ▸ hheld)

/-- The workers a transaction does not hold lose leases only; those it holds it has counted. -/
theorem sane_installed (h : Coherent db) (hmem : t ∈ db.running) (hsttl : t.stage.settling = false) :
    Sane (db.tables.installed t) where
  workerKeys := nodup_install h.sane.workerKeys (h.fits t hmem).workerKeys
  leaseKeys := nodup_install h.sane.leaseKeys (h.fits t hmem).leaseKeys
  capacity worker hwkr := by
    by_cases hheld : worker.workerId ∈ t.heldWorkers
    · exact (h.fits t hmem).bounded hsttl worker hwkr hheld
    · have hold : worker ∈ db.tables.workers := by
        rcases mem_install.mp hwkr with ⟨hold, _⟩ | hver
        · exact hold
        · exact absurd ((h.fits t hmem).workersHeld worker hver) hheld
      refine le_trans (countP_le (nodup_install h.sane.leaseKeys (h.fits t hmem).leaseKeys) fun row hrow hhld => ?_)
        (h.sane.capacity worker hold)
      refine ⟨row, ?_, hhld, rfl⟩
      rcases mem_install.mp hrow with ⟨hrow, _⟩ | hver
      · exact hrow
      · obtain ⟨hof, hactv, _⟩ := LeaseRow.holds_iff.mp hhld
        exact absurd (hof ▸ (h.fits t hmem).active row hver hactv) hheld

theorem generation_le (h : Coherent db) (hmem : t ∈ db.running) {old version : LeaseRow} (hold : old ∈ db.tables.leases)
    (hver : version ∈ t.leases) (hacct : version.accountId = old.accountId) :
    old.lease.generation ≤ version.lease.generation := by
  rcases (h.fits t hmem).generation version hver with hgra | ⟨other, hoth, hsame, hgen⟩
  · exact le_of_lt (((h.fits t hmem).granted _ _ hgra).2 old hold hacct.symm)
  · have heq : other = old := inj_on_of_nodup_map h.sane.leaseKeys hoth hold (hsame.trans hacct)
    rw [← heq, hgen]

theorem commit {id : Nat} (h : Coherent db) (hstep : commit db id = some db') : Coherent db' := by
  unfold Placement.commit at hstep
  obtain ⟨t, hfnd, hstep⟩ := bind_eq_some_iff.mp hstep
  have hmem : t ∈ db.running := mem_of_find?_eq_some hfnd
  have hid : t.id = id := by simpa using find?_some hfnd
  split at hstep
  · rename_i hdone
    cases hstep
    have hoths : ∀ other ∈ (db.drop id).running, other ∈ db.running ∧ t.id ≠ other.id := by
      intro other hoth
      obtain ⟨hold, hne⟩ := mem_filter.mp hoth
      refine ⟨hold, ?_⟩
      rw [hid]
      exact Ne.symm (by simpa using hne)
    exact {
      sane := h.sane_installed hmem (by rw [hdone]; rfl)
      workers := (h.drop id).workers
      leases := (h.drop id).leases
      fits := fun other hoth => (h.fits other (hoths other hoth).1).around
        (h.around hmem (hoths other hoth).1 (hoths other hoth).2)
      current := by
        intro granted hgra
        rcases mem_append.mp hgra with hbef | hnew
        · obtain ⟨row, hrow, hacct, hle⟩ := h.current granted hbef
          by_cases hkey : row.accountId ∈ t.leases.map accountId
          · obtain ⟨version, hver, hsame⟩ := mem_map.mp hkey
            exact ⟨version, mem_install.mpr (.inr hver), hsame.trans hacct, hle.trans (h.generation_le hmem hrow hver hsame)⟩
          · exact ⟨row, mem_install_of_not_mem hrow hkey, hacct, hle⟩
        · obtain ⟨⟨version, hver, hacct, hgen⟩, _⟩ :=
            (h.fits t hmem).granted granted.1 granted.2 (mem_toList.mp hnew)
          exact ⟨version, mem_install.mpr (.inr hver), hacct, le_of_eq hgen.symm⟩
      generations := by
        refine pairwise_append.mpr ⟨h.generations, ?_, fun earlier hearl later hlat hsame => ?_⟩
        · cases t.granted with
          | none => exact List.Pairwise.nil
          | some => exact pairwise_singleton _ _
        · obtain ⟨row, hrow, hacct, hle⟩ := h.current earlier hearl
          have hless := ((h.fits t hmem).granted later.1 later.2 (mem_toList.mp hlat)).2 row hrow (hacct.trans hsame)
          exact lt_of_le_of_lt hle hless }
  · cases hstep

/-- **Every step keeps it, where a lock of a worker finds room.** -/
theorem step {action : Action} (h : Coherent db) (hroomy : Roomy db action) (hstep : step db action = some db') : Coherent db' := by
  cases action with
  | begin => exact h.beginCall hstep
  | advance id choice =>
    simp only [Placement.step, advanceCall] at hstep
    obtain ⟨t, hfnd, hstep⟩ := bind_eq_some_iff.mp hstep
    have hmem : t ∈ db.running := mem_of_find?_eq_some hfnd
    have hfinds : finds db.tables choice t = true := by
      simpa [Roomy, roomy, hfnd] using hroomy
    split at hstep
    · rename_i next hadv
      cases hstep
      exact h.replace hmem (advance_advanced h.sane (h.fits t hmem) hfinds hadv)
    · cases hstep
      exact h.drop id
    · cases hstep
  | commit => exact h.commit hstep
  | abort id =>
    cases hstep
    exact h.drop id
  | wait time =>
    cases hstep
    exact h.wait time _
  | connectionChanged =>
    simp only [Placement.step] at hstep
    split at hstep
    · cases hstep
    · cases hstep
      exact h.wait 0 _

end Coherent

/-- **Placement keeps every worker within its room**, in every interleaving in which a worker
that is locked has room. -/
theorem placed_of_roomy {start : Database} (hstart : Start start) (h : Runs.Reaches step Roomy start db) : Placed db :=
  (h.invariant Coherent (Coherent.of_start hstart) fun _ _ _ hcoherent hroomy hstep => hcoherent.step hroomy hstep).placed

/-! ## A placement and a heartbeat, and two placements at once -/

def queuedAccount (accountId : AccountId) : Connection :=
  { userId := "owner-a", accountId, maskedLoginSuffix := none, persistence := .managed, status := .queued, revision := 1
    workerId := none, leaseGeneration := 0, requiredProtocolVersion := 1, requiredRuntimeVersion := none, identity := none
    server := none, reservation := none, removalRequestedAt := none, disconnectRequestedRevision := none }

/-- Two accounts wait, and nobody has enrolled. -/
def twoQueued : Database := ⟨⟨1000, [], [queuedAccount "account-a", queuedAccount "account-b"], []⟩, [], []⟩

theorem twoQueued_start : Start twoQueued where
  running := rfl
  grants := rfl
  workers := nodup_nil
  leases := nodup_nil
  capacity _ h := by cases h

def oneTerminal : WorkerHelloRequest :=
  { bootstrapToken := "bootstrap", workerId := "worker-01", protocolMin := 1, protocolMax := 1, agentVersion := "1.0.0"
    imageVersion := "1.0.0", runtimeVersion := "5.0.0", capacity := 1, region := "eu-west", capabilities := [] }

def enrolling : List Action :=
  [.begin 1 (.hello oneTerminal 7), .advance 1 "", .advance 1 "", .advance 1 "", .advance 1 "", .commit 1]

/-- The worker enrolls, gets an account and sends a heartbeat. -/
def placedOnce : List Action :=
  enrolling ++
    [.begin 2 .schedule, .advance 2 "", .advance 2 "account-a", .advance 2 "", .advance 2 "worker-01", .advance 2 "", .commit 2,
      .wait 5000, .begin 3 (.heartbeat ⟨"worker-01", 1, 1, 7⟩ [⟨"account-a", 1⟩]), .advance 3 "", .advance 3 "", .advance 3 "",
      .commit 3]

theorem placed_placedOnce : ∃ db, Runs.exec step roomy twoQueued placedOnce = some db
    ∧ leased "worker-01" 50000 db.tables.leases = 1 ∧ db.grants = [("account-a", 1)] ∧ Placed db := by
  have hsome : (Runs.exec step roomy twoQueued placedOnce).map
      (fun db => (leased "worker-01" 50000 db.tables.leases, db.grants)) = some (1, [("account-a", 1)]) := by
    decide +kernel
  obtain ⟨db, hexec, hfinal⟩ := map_eq_some_iff.mp hsome
  rw [Prod.mk.injEq] at hfinal
  exact ⟨db, hexec, hfinal.1, hfinal.2, placed_of_roomy twoQueued_start (Runs.reaches_of_exec (fun _ _ h => h) hexec)⟩

/-- Two placements count the leases of the worker before either commits, and lock it in turn. -/
def placedTwice : List Action :=
  enrolling ++
    [.begin 2 .schedule, .advance 2 "", .advance 2 "account-a", .begin 3 .schedule, .advance 3 "", .advance 3 "account-b",
      .advance 2 "", .advance 3 "", .advance 2 "worker-01", .advance 2 "", .commit 2, .advance 3 "worker-01", .advance 3 "",
      .commit 3]

/-- A worker for one account is given two. -/
theorem leased_beyond_room : ¬∀ start db, Start start → Runs.Reaches step Runs.always start db → Placed db := by
  intro hplaced
  have hsome : (Runs.exec step (fun _ _ => true) twoQueued placedTwice).map
      (fun db => db.tables.workers.all fun worker => leased worker.workerId db.tables.now db.tables.leases ≤ room worker)
      = some false := by
    decide +kernel
  obtain ⟨db, hrch, hover⟩ := Runs.reached_of_map hsome
  have hwthn : (db.tables.workers.all fun worker => leased worker.workerId db.tables.now db.tables.leases ≤ room worker) = true :=
    all_eq_true.mpr fun worker hwkr => by
      simpa using (hplaced twoQueued db twoQueued_start hrch).capacity worker hwkr
  rw [hwthn] at hover
  cases hover

end MarketLens.Mt5Vm.Placement
