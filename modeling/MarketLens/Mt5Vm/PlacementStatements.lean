import MarketLens.Lib.Run
import MarketLens.Lib.Versions
import MarketLens.Mt5Vm.Scheduler

/-!
# Placement, statement by statement

Gateways place accounts while workers say hello, send heartbeats and acknowledge
stops, and while sweeps run. Each of these is a transaction of several
statements, and between any two of them the others go on. A statement sees what
was committed when it started; `now()` is the time its transaction began; the
row it updates or locks is the latest committed one, checked once more, and while
another transaction holds it the statement waits, or passes it over where the
query skips locked rows.

What a transaction has written is kept as versions of rows until it commits. No
statement here meets a row its transaction has written before, the workers a
sweep joins apart.
-/

namespace MarketLens.Mt5Vm.Placement

open Store

/-- A row of `execution_mt5_vm_account_leases`, under its account. -/
structure LeaseRow where
  accountId : AccountId
  lease : Lease
deriving DecidableEq

/-- What is committed, and the clock. -/
structure Tables where
  now : Millis
  workers : List Worker
  connections : List Connection
  leases : List LeaseRow
deriving DecidableEq

/-- `LEAST(worker.capacity, 4)`. -/
def room (worker : Worker) : Nat := min worker.capacity mt5VmMaxScheduledTerminals

/-- The lease is the worker's, active, and not over at `time`. -/
def LeaseRow.holds (workerId : WorkerId) (time : Millis) (row : LeaseRow) : Bool :=
  row.lease.workerId = workerId && row.lease.valid time

/-- The active leases of the worker that are not over at `time`. -/
def leased (workerId : WorkerId) (time : Millis) (leases : List LeaseRow) : Nat := leases.countP (·.holds workerId time)

def Tables.worker? (tables : Tables) (workerId : WorkerId) : Option Worker := Versions.lookup Worker.workerId tables.workers workerId

def Tables.connection? (tables : Tables) (accountId : AccountId) : Option Connection :=
  Versions.lookup Connection.accountId tables.connections accountId

def Tables.lease? (tables : Tables) (accountId : AccountId) : Option LeaseRow :=
  Versions.lookup LeaseRow.accountId tables.leases accountId

/-- The worker takes the account, by the leases of the statement's snapshot. -/
def Tables.offers (snapshot : Tables) (startedAt : Millis) (account : Connection) (worker : Worker) : Bool :=
  worker.serving startedAt && worker.protocolVersion = account.requiredProtocolVersion
    && account.requiredRuntimeVersion.all (worker.runtimeVersion = ·)
    && leased worker.workerId startedAt snapshot.leases < room worker

/-! ## Transactions -/

/-- What a transaction was begun for. An acknowledgement carries the command row it finds. -/
inductive Call where
  | schedule
  | heartbeat (envelope : Envelope) (claims : List WorkerLeaseClaim)
  | hello (request : WorkerHelloRequest) (token : Nat)
  | sweep
  | stopAck (envelope : Envelope) (request : AckRequest) (accountId : AccountId) (command : ControlCommand)
deriving DecidableEq

/-- Where a transaction stands between two statements, or between two rows of one. -/
inductive Stage where
  | begun
  | accountsSeen (snapshot : Tables)
  | accountHeld (account : Connection)
  | workersSeen (account : Connection) (snapshot : Tables)
  | workerHeld (account : Connection) (worker : Worker)
  | renewing (worker : Worker) (claims : List WorkerLeaseClaim) (seen : List AccountId)
  | enrolled (worker : Worker)
  | expiring (worker : Worker) (accounts : List AccountId)
  | requeueing (workerId : WorkerId) (accounts : List AccountId)
  | offlining (workers : List WorkerId)
  | lapsing (snapshot : Tables) (accounts : List AccountId) (lapsed : List (AccountId × Nat))
  | acknowledging (worker : Worker)
  | disconnecting
  | done
deriving DecidableEq

structure Transaction where
  id : Nat
  /-- `now()`. -/
  startedAt : Millis
  call : Call
  stage : Stage
  heldWorkers : List WorkerId
  heldConnections : List AccountId
  heldLeases : List AccountId
  workers : List Worker
  connections : List Connection
  leases : List LeaseRow
  /-- The lease generation this placement grants. -/
  granted : Option (AccountId × Nat)

namespace Transaction

def at_ (stage : Stage) (t : Transaction) : Transaction := { t with stage }

def holdWorker (workerId : WorkerId) (t : Transaction) : Transaction := { t with heldWorkers := workerId :: t.heldWorkers }

def writeWorker (worker : Worker) (t : Transaction) : Transaction :=
  { t with
    heldWorkers := worker.workerId :: t.heldWorkers
    workers := Versions.install Worker.workerId [worker] t.workers }

def holdConnection (accountId : AccountId) (t : Transaction) : Transaction :=
  { t with heldConnections := accountId :: t.heldConnections }

def writeConnection (row : Connection) (t : Transaction) : Transaction :=
  { t with
    heldConnections := row.accountId :: t.heldConnections
    connections := Versions.install Connection.accountId [row] t.connections }

def holdLease (accountId : AccountId) (t : Transaction) : Transaction := { t with heldLeases := accountId :: t.heldLeases }

def writeLease (row : LeaseRow) (t : Transaction) : Transaction :=
  { t with
    heldLeases := row.accountId :: t.heldLeases
    leases := Versions.install LeaseRow.accountId [row] t.leases }

end Transaction

structure Database where
  tables : Tables
  running : List Transaction
  /-- The generations of the placements, in the order they committed. -/
  grants : List (AccountId × Nat)

namespace Database

section
variable (db : Database) (t : Transaction)

/-- Another transaction holds the worker's row. -/
def workerHeld (workerId : WorkerId) : Bool :=
  db.running.any fun other => other.id ≠ t.id && other.heldWorkers.contains workerId

def connectionHeld (accountId : AccountId) : Bool :=
  db.running.any fun other => other.id ≠ t.id && other.heldConnections.contains accountId

def leaseHeld (accountId : AccountId) : Bool :=
  db.running.any fun other => other.id ≠ t.id && other.heldLeases.contains accountId

end

end Database

inductive Outcome where
  | goes (t : Transaction)
  | fails
  | waits

/-! ## `schedule_one` -/

section
variable (db : Database) (t : Transaction)

/-- The first query takes a waiting account that nobody holds, if some worker has room for it.
Which one comes first in its order is left open. -/
def takeAccount (snapshot : Tables) (accountId : AccountId) : Outcome :=
  match snapshot.connection? accountId, db.tables.connection? accountId with
  | some seen, some account =>
    if seen.waiting && snapshot.workers.any (snapshot.offers t.startedAt seen)
        && account.waiting && snapshot.workers.any (snapshot.offers t.startedAt account)
        && !db.connectionHeld t accountId then
      .goes ((t.holdConnection accountId).at_ (.accountHeld account))
    else .waits
  | _, _ => .waits

/-- The second query takes a worker that nobody holds: its row is the latest one, the leases
are counted in the snapshot. -/
def takeWorker (account : Connection) (snapshot : Tables) (workerId : WorkerId) : Outcome :=
  match snapshot.worker? workerId, db.tables.worker? workerId with
  | some seen, some worker =>
    if snapshot.offers t.startedAt account seen && snapshot.offers t.startedAt account worker && !db.workerHeld t workerId then
      .goes ((t.holdWorker workerId).at_ (.workerHeld account worker))
    else .waits
  | _, _ => .waits

/-- The lease a placement grants over the account's latest. -/
def grant (account : Connection) (worker : Worker) : LeaseRow :=
  ⟨account.accountId, worker.workerId, worker.sessionGeneration,
    ((db.tables.lease? account.accountId).map (·.lease.generation)).getD 0 + 1, .active, t.startedAt + leaseTtl⟩

def insertLease (account : Connection) (worker : Worker) : Outcome :=
  if db.leaseHeld t account.accountId then .waits
  else
    let row := grant db t account worker
    let bound := { account with
      status := .provisioning, workerId := some worker.workerId, leaseGeneration := row.lease.generation
      revision := account.revision + 1 }
    .goes ({ (t.writeLease row).writeConnection bound with granted := some (account.accountId, row.lease.generation) }.at_ .done)

/-! ## `worker_heartbeat` -/

/-- `authenticate_worker`, which locks the worker's row. -/
def lockWorker (envelope : Envelope) (next : Worker → Stage) : Outcome :=
  if db.workerHeld t envelope.workerId then .waits
  else
    match authenticateWorker envelope ⟨t.startedAt, 0, db.tables.workers, []⟩ with
    | .error _ => .fails
    | .ok worker => .goes ((t.holdWorker worker.workerId).at_ (next worker))

def beginHeartbeat (envelope : Envelope) (claims : List WorkerLeaseClaim) : Outcome :=
  match validateSessionEnvelope envelope with
  | .error _ => .fails
  | .ok _ => lockWorker db t envelope (.renewing · claims [])

/-- The claim names a lease of the worker's session that is not over. -/
def claimed (worker : Worker) (time : Millis) (claim : WorkerLeaseClaim) (row : LeaseRow) : Bool :=
  row.accountId = claim.accountId && row.lease.workerId = worker.workerId
    && row.lease.workerSession = worker.sessionGeneration && row.lease.generation = claim.leaseGeneration
    && row.lease.valid time

def LeaseRow.renewed (startedAt : Millis) (row : LeaseRow) : LeaseRow :=
  { row with lease := { row.lease with expiresAt := startedAt + leaseTtl } }

/-- One round of the loop over the claims, or the statement behind it. -/
def renew (worker : Worker) (seen : List AccountId) : List WorkerLeaseClaim → Outcome
  | [] =>
    .goes ((t.writeWorker { worker with
      status := if worker.drain then .draining else .healthy
      heartbeatExpiresAt := t.startedAt + leaseTtl }).at_ .done)
  | claim :: rest =>
    if !validIdentifier claim.accountId 64 || claim.leaseGeneration = 0 || seen.contains claim.accountId then .fails
    else
      match db.tables.lease? claim.accountId with
      | none => .fails
      | some row =>
        if !claimed worker t.startedAt claim row then .fails
        else if db.leaseHeld t claim.accountId then .waits
        else .goes ((t.writeLease (row.renewed t.startedAt)).at_ (.renewing worker rest (claim.accountId :: seen)))

/-! ## `worker_hello` -/

def LeaseRow.expired (row : LeaseRow) : LeaseRow := { row with lease := { row.lease with status := .expired } }

def enroll (request : WorkerHelloRequest) (token : Nat) : Outcome :=
  match validateHello request with
  | .error _ => .fails
  | .ok protocol =>
    if db.workerHeld t request.workerId then .waits
    else
      let worker := enrolled request protocol token t.startedAt (db.tables.worker? request.workerId)
      .goes ((t.writeWorker worker).at_ (.enrolled worker))

/-- The active leases of the worker, as the statement that expires them finds them. -/
def seeLeases (worker : Worker) : Outcome :=
  .goes (t.at_ (.expiring worker
    ((db.tables.leases.filter fun row => row.lease.workerId = worker.workerId && row.lease.status = .active).map (·.accountId))))

/-- One of them, unless it is no longer the worker's or no longer active. -/
def expireLease (worker : Worker) (accounts : List AccountId) (accountId : AccountId) : Outcome :=
  if !accounts.contains accountId || db.leaseHeld t accountId then .waits
  else
    let next := Stage.expiring worker (accounts.filter (· ≠ accountId))
    match db.tables.lease? accountId with
    | none => .goes (t.at_ next)
    | some row =>
      if row.lease.workerId = worker.workerId && row.lease.status = .active then .goes ((t.writeLease row.expired).at_ next)
      else .goes (t.at_ next)

/-- The account is the worker's, and nobody asked it to disconnect. -/
def requeues (workerId : WorkerId) (row : Connection) : Bool :=
  row.workerId = some workerId && row.disconnectRequestedRevision.isNone

def seeAccounts (workerId : WorkerId) : Outcome :=
  .goes (t.at_ (.requeueing workerId ((db.tables.connections.filter (requeues workerId)).map (·.accountId))))

def requeueAccount (workerId : WorkerId) (accounts : List AccountId) (accountId : AccountId) : Outcome :=
  if !accounts.contains accountId || db.connectionHeld t accountId then .waits
  else
    let next := Stage.requeueing workerId (accounts.filter (· ≠ accountId))
    match db.tables.connection? accountId with
    | none => .goes (t.at_ next)
    | some row => if requeues workerId row then .goes ((t.writeConnection row.requeue).at_ next) else .goes (t.at_ next)

/-! ## `expire_stale_state` -/

/-- The heartbeat ran out and the worker is not offline yet. -/
def stale (time : Millis) (worker : Worker) : Bool := worker.heartbeatExpiresAt ≤ time && worker.status ≠ .offline

def seeWorkers : Outcome := .goes (t.at_ (.offlining ((db.tables.workers.filter (stale t.startedAt)).map (·.workerId))))

def offlineWorker (workers : List WorkerId) (workerId : WorkerId) : Outcome :=
  if !workers.contains workerId || db.workerHeld t workerId then .waits
  else
    let next := Stage.offlining (workers.filter (· ≠ workerId))
    match db.tables.worker? workerId with
    | none => .goes (t.at_ next)
    | some worker =>
      if stale t.startedAt worker then .goes ((t.writeWorker { worker with status := .offline }).at_ next)
      else .goes (t.at_ next)

/-- The second statement sees the workers the first one wrote. -/
def seeLapsed : Outcome :=
  let snapshot := { db.tables with workers := Versions.install Worker.workerId t.workers db.tables.workers }
  .goes (t.at_ (.lapsing snapshot
    ((snapshot.leases.filter (·.lease.lapsed snapshot.workers t.startedAt)).map (·.accountId)) []))

/-- The account still belongs to the lease that lapsed. -/
def lapsedWith (generation : Nat) (row : Connection) : Bool :=
  row.leaseGeneration = generation && row.disconnectRequestedRevision.isNone

section
variable (snapshot : Tables) (accounts : List AccountId) (lapsed : List (AccountId × Nat)) (accountId : AccountId)

def lapseLease :
    Outcome :=
  if db.leaseHeld t accountId then .waits
  else
    let rest := accounts.filter (· ≠ accountId)
    match db.tables.lease? accountId with
    | none => .goes (t.at_ (.lapsing snapshot rest lapsed))
    | some row =>
      if row.lease.lapsed snapshot.workers t.startedAt then
        .goes ((t.writeLease row.expired).at_ (.lapsing snapshot rest
          (if (snapshot.connection? accountId).any (lapsedWith row.lease.generation) then
            (accountId, row.lease.generation) :: lapsed
          else lapsed)))
      else .goes (t.at_ (.lapsing snapshot rest lapsed))

def requeueLapsed :
    Outcome :=
  match lapsed.find? (·.1 = accountId) with
  | none => .waits
  | some (_, generation) =>
    if db.connectionHeld t accountId then .waits
    else
      let next := Stage.lapsing snapshot accounts (lapsed.filter (·.1 ≠ accountId))
      match db.tables.connection? accountId with
      | none => .goes (t.at_ next)
      | some row =>
        if lapsedWith generation row then .goes ((t.writeConnection row.requeue).at_ next) else .goes (t.at_ next)

end

/-! ## `worker_ack` of a stop that succeeded -/

def beginAck (envelope : Envelope) (request : AckRequest) : Outcome :=
  match validateAck envelope request with
  | .error _ => .fails
  | .ok _ => lockWorker db t envelope .acknowledging

section
variable (worker : Worker) (request : AckRequest) (accountId : AccountId) (command : ControlCommand)

def acknowledges (row : LeaseRow) :
    Bool :=
  accountId = request.accountId && command.workerId = worker.workerId && command.workerSession = worker.sessionGeneration
    && command.leaseGeneration = request.leaseGeneration && row.lease.valid t.startedAt
    && command.kind = .stopAccount && request.ack = .succeeded && !command.status.concludedByAck
    && (ackTargetStatus command.status request.ack).isOk

/-- The lease is locked with the command, checked, and released if it is the one the command
was made under. -/
def releaseLease : Outcome :=
  match db.tables.lease? accountId with
  | none => .fails
  | some row =>
    if db.leaseHeld t accountId then .waits
    else if acknowledges t worker request accountId command row then
      let released := row.lease.release worker.workerId request.leaseGeneration
      .goes ((if released = row.lease then t.holdLease accountId else t.writeLease { row with lease := released }).at_
        .disconnecting)
    else .fails

end

def disconnectAccount (request : AckRequest) : Outcome :=
  if db.connectionHeld t request.accountId then .waits
  else
    match db.tables.connection? request.accountId with
    | none => .goes (t.at_ .done)
    | some row => .goes ((t.writeConnection (row.stop request.leaseGeneration)).at_ .done)

/-! ## Steps -/

/-- The next statement of the transaction, or the next row of one. Where a statement may take
one of several rows, `choice` is the key of the one it takes. -/
def advance (choice : String) : Outcome :=
  match t.stage, t.call with
  | .begun, .schedule => .goes (t.at_ (.accountsSeen db.tables))
  | .begun, .heartbeat envelope claims => beginHeartbeat db t envelope claims
  | .begun, .hello request token => enroll db t request token
  | .begun, .sweep => seeWorkers db t
  | .begun, .stopAck envelope request _ _ => beginAck db t envelope request
  | .accountsSeen snapshot, _ => takeAccount db t snapshot choice
  | .accountHeld account, _ => .goes (t.at_ (.workersSeen account db.tables))
  | .workersSeen account snapshot, _ => takeWorker db t account snapshot choice
  | .workerHeld account worker, _ => insertLease db t account worker
  | .renewing worker claims seen, _ => renew db t worker seen claims
  | .enrolled worker, _ => seeLeases db t worker
  | .expiring worker [], _ => seeAccounts db t worker.workerId
  | .expiring worker accounts, _ => expireLease db t worker accounts choice
  | .requeueing _ [], _ => .goes (t.at_ .done)
  | .requeueing workerId accounts, _ => requeueAccount db t workerId accounts choice
  | .offlining [], _ => seeLapsed db t
  | .offlining workers, _ => offlineWorker db t workers choice
  | .lapsing _ [] [], _ => .goes (t.at_ .done)
  | .lapsing snapshot accounts lapsed, _ =>
    if accounts.contains choice then lapseLease db t snapshot accounts lapsed choice
    else requeueLapsed db t snapshot accounts lapsed choice
  | .acknowledging worker, .stopAck _ request accountId command => releaseLease db t worker request accountId command
  | .disconnecting, .stopAck _ request _ _ => disconnectAccount db t request
  | _, _ => .waits

end

def Tables.installed (tables : Tables) (t : Transaction) : Tables :=
  { tables with
    workers := Versions.install Worker.workerId t.workers tables.workers
    connections := Versions.install Connection.accountId t.connections tables.connections
    leases := Versions.install LeaseRow.accountId t.leases tables.leases }

namespace Database

def drop (db : Database) (id : Nat) : Database := { db with running := db.running.filter (·.id ≠ id) }

def replace (db : Database) (t : Transaction) : Database :=
  { db with running := Table.updateWhere (·.id = t.id) (fun _ => t) db.running }

end Database

inductive Action where
  | begin (id : Nat) (call : Call)
  | advance (id : Nat) (choice : String)
  | commit (id : Nat)
  /-- The transaction is rolled back, or it found nothing to place. -/
  | abort (id : Nat)
  | wait (time : Millis)
  /-- Another path of the service writes a connection nobody holds. -/
  | connectionChanged (row : Connection)

def beginCall (db : Database) (id : Nat) (call : Call) : Option Database :=
  if db.running.any (·.id = id) then none
  else
    some { db with
      running := ⟨id, db.tables.now, call, .begun, [], [], [], [], [], [], none⟩ :: db.running }

def commit (db : Database) (id : Nat) : Option Database := do
  let t ← db.running.find? (·.id = id)
  if t.stage = .done then
    return { db.drop id with tables := db.tables.installed t, grants := db.grants ++ t.granted.toList }
  else none

def advanceCall (db : Database) (id : Nat) (choice : String) : Option Database := do
  let t ← db.running.find? (·.id = id)
  match advance db t choice with
  | .goes next => return db.replace next
  | .fails => return db.drop id
  | .waits => none

def step (db : Database) : Action → Option Database
  | .begin id call => beginCall db id call
  | .advance id choice => advanceCall db id choice
  | .commit id => commit db id
  | .abort id => some (db.drop id)
  | .wait time => some { db with tables := { db.tables with now := db.tables.now + time } }
  | .connectionChanged row =>
    if db.running.any (·.heldConnections.contains row.accountId) then none
    else some { db with tables := { db.tables with connections := Versions.install Connection.accountId [row] db.tables.connections } }

end MarketLens.Mt5Vm.Placement
