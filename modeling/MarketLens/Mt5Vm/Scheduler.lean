import MarketLens.Mt5Vm.Acks

/-!
# The scheduler

Each tick sweeps what has run out, in one transaction, and then places waiting accounts on
workers, each placement in a transaction of its own. Between them anything may commit.
-/

namespace MarketLens.Mt5Vm

open Store Fallible

/-! ## The sweep -/

/-- A worker whose heartbeat ran out is offline. -/
def Worker.expire (now : Millis) (worker : Worker) : Worker :=
  if worker.heartbeatExpiresAt ≤ now then { worker with status := .offline } else worker

/-- The lease is active but over: it ran out, or its worker or the worker's session did. -/
def Lease.lapsed (workers : List Worker) (now : Millis) (lease : Lease) : Bool :=
  lease.status = .active && workers.any fun worker =>
    worker.workerId = lease.workerId
      && (lease.expiresAt ≤ now || worker.status = .offline || worker.heartbeatExpiresAt ≤ now
        || worker.sessionGeneration ≠ lease.workerSession)

/-- Expire the account's lease if it lapsed, and requeue the account it still belongs to. -/
def Account.expireLease (workers : List Worker) (now : Millis) (account : Account) : Account :=
  match account.lease with
  | none => account
  | some lease =>
    if lease.lapsed workers now then
      let expired := { account with lease := some { lease with status := .expired } }
      if account.connection.leaseGeneration = lease.generation
          && account.connection.disconnectRequestedRevision.isNone then
        expired.connect Connection.requeue
      else expired
    else account

/-- Give up the pending commands that ran out or that no active lease carries. -/
def Account.fenceCommands (now : Millis) (account : Account) : Account :=
  account.updateCommands
    (fun command => command.status.pending
      && (command.expiresAt ≤ now || !account.lease.any (·.carries command now)))
    (fun command =>
      if command.expiresAt ≤ now then command.concluded .expired "COMMAND_EXPIRED" now
      else command.concluded .fenced "LEASE_FENCED" now)

/-- `expire_stale_state`. -/
def expireStaleState (s : World) : Except ApiError World := do
  let workers := s.workers.map (·.expire s.now)
  let s ← s.commit (s.accounts.map fun account => (account.expireLease workers s.now).fenceCommands s.now)
  return { s with workers }

/-! ## Placement -/

/-- The leases a worker holds that have not run out. -/
def World.activeLeases (s : World) (workerId : WorkerId) : Nat :=
  s.accounts.countP fun account => account.lease.any fun lease => lease.workerId = workerId && lease.valid s.now

/-- The worker may take the account: alive, of the protocol and runtime it requires, and with room. -/
def Worker.accepts (worker : Worker) (row : Connection) (s : World) : Bool :=
  worker.serving s.now && worker.protocolVersion = row.requiredProtocolVersion
    && row.requiredRuntimeVersion.all (worker.runtimeVersion = ·)
    && s.activeLeases worker.workerId < min worker.capacity mt5VmMaxScheduledTerminals

/-- The account waits for a worker. -/
def Connection.waiting (row : Connection) : Bool :=
  (row.status = .queued || row.status = .reconnecting) && row.workerId.isNone
    && row.disconnectRequestedRevision.isNone

/-- The lease a placement grants: the next generation of the account's. -/
def Account.grant (worker : Worker) (now : Millis) (account : Account) : Lease :=
  ⟨worker.workerId, worker.sessionGeneration, (account.lease.map Lease.generation).getD 0 + 1, .active,
    now + leaseTtl⟩

/-- Lease the account to the worker and queue its provisioning. -/
def Account.place (worker : Worker) (id : Nat) (now : Millis) (account : Account) : Account :=
  let lease := account.grant worker now
  let revision := account.connection.revision + 1
  { account with
    lease := some lease
    connection := { account.connection with
      status := .provisioning, workerId := some worker.workerId, leaseGeneration := lease.generation, revision }
    commands := account.commands ++ [.queued id lease worker.protocolVersion
      (provisionKey account.accountId lease.generation) .provisionAccount
      ⟨[(["connectionRevision"], toString revision)]⟩ (now + commandTtl)] }

/-- `schedule_one`, on the account and the worker it finds unlocked. A waiting account or a
worker that is not there is no placement; a provision key in use fails the statement. -/
def scheduleOne (accountId : AccountId) (workerId : WorkerId) (s : World) : Except ApiError World := do
  let account ← require (s.accounts.find? fun account => account.accountId = accountId && account.connection.waiting)
    internalError
  let worker ← require (s.workers.find? fun worker => worker.workerId = workerId && worker.accepts account.connection s)
    internalError
  refuseIf (s.keyTaken (provisionKey accountId (account.grant worker s.now).generation)) internalError
  let s ← s.commitAccount accountId (·.place worker s.nextId s.now)
  return { s with nextId := s.nextId + 1 }

end MarketLens.Mt5Vm
