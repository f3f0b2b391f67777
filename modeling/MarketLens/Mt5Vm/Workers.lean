import MarketLens.Mt5Vm.Tables

/-!
# The worker's requests

A worker says hello and gets a session, which fences whatever an earlier session of it
held. With the session it renews its leases, polls for commands and vouches for the
terminal process a bootstrap token was given to.
-/

namespace MarketLens.Mt5Vm

open Store Fallible

/-! ## Text checks -/

/-- `valid_identifier`. -/
def validIdentifier (value : String) (maximum : Nat) : Bool :=
  match value.toList with
  | [] => false
  | first :: rest =>
    rest.length < maximum && isAsciiAlphanumeric first
      && rest.all fun c => isAsciiAlphanumeric c || c = '_' || c = '-'

/-- `valid_version`. -/
def validVersion (value : String) : Bool :=
  match (trim value).toList with
  | [] => false
  | first :: rest =>
    rest.length < 64 && isAsciiAlphanumeric first
      && rest.all fun c => isAsciiAlphanumeric c || c = '.' || c = '_' || c = '-' || c = '+'

/-- What the gateway is configured with: the secrets of its callers, the keyed hash of broker
identities, and which gateway origins its URI parser takes. -/
structure Settings where
  bootstrapToken : Option String
  adminToken : String
  mac : String → Fingerprint
  validOrigin : String → Bool

/-- `require_bootstrap`. -/
def requireBootstrap (settings : Settings) (candidate : String) : Except ApiError Unit := do
  let expected ← require settings.bootstrapToken
    ⟨.serviceUnavailable, "MT5_VM_CONTROL_DISABLED", "MT5 VM worker enrollment is disabled"⟩
  refuseIf (candidate ≠ expected) ⟨.unauthorized, "UNAUTHORIZED", "MT5 VM worker bootstrap token is invalid"⟩

/-- `require_admin`. -/
def requireAdmin (settings : Settings) (candidate : String) : Except ApiError Unit :=
  refuseIf (candidate ≠ settings.adminToken) ⟨.unauthorized, "UNAUTHORIZED", "admin token is invalid"⟩

/-! ## Hello -/

/-- `WorkerHelloRequest`. -/
structure WorkerHelloRequest where
  bootstrapToken : String
  workerId : WorkerId
  protocolMin : Nat
  protocolMax : Nat
  agentVersion : String
  imageVersion : String
  runtimeVersion : String
  capacity : Nat
  region : String
  capabilities : List String
deriving DecidableEq

/-- `negotiate_protocol`. -/
def negotiateProtocol (protocolMin protocolMax : Nat) : Except ApiError Nat := do
  refuseIf (protocolMin = 0 || protocolMin > protocolMax
      || !(protocolMin ≤ mt5VmControlProtocolVersion && mt5VmControlProtocolVersion ≤ protocolMax))
    ⟨.conflict, "MT5_VM_PROTOCOL_UNSUPPORTED", "worker and control plane have no common protocol version"⟩
  return mt5VmControlProtocolVersion

/-- `validate_hello`. -/
def validateHello (request : WorkerHelloRequest) : Except ApiError Nat := do
  let protocol ← negotiateProtocol request.protocolMin request.protocolMax
  refuseIf (!validIdentifier request.workerId 64 || !validIdentifier request.region 64
      || !validVersion request.agentVersion || !validVersion request.imageVersion
      || !validVersion request.runtimeVersion
      || !(1 ≤ request.capacity && request.capacity ≤ mt5VmMaxScheduledTerminals)
      || request.capabilities.length > 32
      || request.capabilities.any fun capability => !validIdentifier capability 64)
    ⟨.badRequest, "MT5_VM_WORKER_HELLO_INVALID", "worker hello metadata or capacity is invalid"⟩
  return protocol

/-- `worker_substrate`. -/
def workerSubstrate (request : WorkerHelloRequest) : Substrate :=
  if request.capabilities.contains "bare_metal" then .bareMetal else .windowsVm

/-- The worker's row after a hello: a new session over whatever there was. -/
def enrolled (request : WorkerHelloRequest) (protocol token : Nat) (now : Millis) (old : Option Worker) : Worker :=
  { workerId := request.workerId
    protocolVersion := protocol
    sessionGeneration := (old.map Worker.sessionGeneration).getD 0 + 1
    sessionToken := token
    runtimeVersion := trim request.runtimeVersion
    capacity := request.capacity
    substrate := workerSubstrate request
    status := if old.any Worker.drain then .draining else .healthy
    drain := old.any Worker.drain
    heartbeatExpiresAt := now + leaseTtl }

/-- `INSERT INTO execution_mt5_vm_workers … ON CONFLICT (worker_id) DO UPDATE`. -/
def upsertWorker (worker : Worker) (workers : List Worker) : List Worker :=
  if workers.any (·.workerId = worker.workerId) then
    Table.updateWhere (·.workerId = worker.workerId) (fun _ => worker) workers
  else workers ++ [worker]

/-- The account goes back to the queue, or waits for credentials. -/
def Connection.requeue (row : Connection) : Connection :=
  { row with status := row.persistence.requeued, workerId := none, revision := row.revision + 1 }

/-- The lease runs out, if it is this worker's and active. -/
def Lease.expireOf (workerId : WorkerId) (lease : Lease) : Lease :=
  if lease.workerId = workerId && lease.status = .active then { lease with status := .expired } else lease

/-- A new session of a worker takes the account from the earlier ones. -/
def Account.replaceWorkerSession (workerId : WorkerId) (session : Nat) (now : Millis) (account : Account) :
    Account :=
  let account := account.updateCommands
    (fun command => command.workerId = workerId && command.workerSession < session && command.status.pending)
    (·.concluded .fenced "WORKER_SESSION_REPLACED" now)
  let account := { account with lease := account.lease.map (·.expireOf workerId) }
  if account.connection.workerId = some workerId && account.connection.disconnectRequestedRevision.isNone then
    account.connect Connection.requeue
  else account

/-- `WorkerHelloResponse`. -/
structure WorkerHelloResponse where
  protocolVersion : Nat
  sessionGeneration : Nat
  sessionToken : Nat

/-- `worker_hello`. -/
def workerHello (settings : Settings) (request : WorkerHelloRequest) (s : World) :
    Except ApiError (World × WorkerHelloResponse) := do
  requireBootstrap settings request.bootstrapToken
  let protocol ← validateHello request
  let worker := enrolled request protocol s.nextId s.now (s.worker? request.workerId)
  let s ← s.commit (s.accounts.map (·.replaceWorkerSession request.workerId worker.sessionGeneration s.now))
  return ({ s with workers := upsertWorker worker s.workers, nextId := s.nextId + 1 },
    ⟨protocol, worker.sessionGeneration, worker.sessionToken⟩)

/-! ## Worker sessions -/

/-- What every later request of a worker carries. -/
structure Envelope where
  workerId : WorkerId
  sessionGeneration : Nat
  protocolVersion : Nat
  token : Nat
deriving DecidableEq

/-- `validate_session_envelope`. -/
def validateSessionEnvelope (envelope : Envelope) : Except ApiError Unit :=
  refuseIf (!validIdentifier envelope.workerId 64 || envelope.sessionGeneration = 0
      || envelope.protocolVersion ≠ mt5VmControlProtocolVersion)
    ⟨.badRequest, "MT5_VM_WORKER_REQUEST_INVALID",
      "worker identity, session generation, or protocol is invalid"⟩

/-- `authenticate_worker`. -/
def authenticateWorker (envelope : Envelope) (s : World) : Except ApiError Worker := do
  let worker ← require (s.worker? envelope.workerId)
    ⟨.unauthorized, "UNAUTHORIZED", "MT5 VM worker session is invalid"⟩
  refuseIf (worker.protocolVersion ≠ envelope.protocolVersion
      || worker.sessionGeneration ≠ envelope.sessionGeneration
      || envelope.protocolVersion ≠ mt5VmControlProtocolVersion
      || worker.sessionToken ≠ envelope.token)
    ⟨.unauthorized, "UNAUTHORIZED", "MT5 VM worker session is fenced or invalid"⟩
  refuseIf (worker.heartbeatExpiresAt ≤ s.now)
    ⟨.conflict, "MT5_VM_WORKER_SESSION_EXPIRED", "worker heartbeat lease expired; enroll a new session"⟩
  return worker

/-! ## Heartbeat -/

/-- `WorkerLeaseClaim`. -/
structure WorkerLeaseClaim where
  accountId : AccountId
  leaseGeneration : Nat
deriving DecidableEq

/-- The claim names the account's lease, and the worker's session still holds it. -/
def WorkerLeaseClaim.holds (claim : WorkerLeaseClaim) (worker : Worker) (now : Millis) (account : Account) : Bool :=
  account.accountId = claim.accountId && account.lease.any fun lease =>
    lease.workerId = worker.workerId && lease.workerSession = worker.sessionGeneration
      && lease.generation = claim.leaseGeneration && lease.valid now

def renewLeases (worker : Worker) (now : Millis) :
    List WorkerLeaseClaim → List AccountId → List Account → Except ApiError (List Account)
  | [], _, accounts => .ok accounts
  | claim :: rest, seen, accounts => do
    refuseIf (!validIdentifier claim.accountId 64 || claim.leaseGeneration = 0 || seen.contains claim.accountId)
      ⟨.badRequest, "MT5_VM_HEARTBEAT_LEASE_INVALID", "heartbeat lease claims must be unique and valid"⟩
    refuseIf (!accounts.any (claim.holds worker now))
      ⟨.conflict, "MT5_VM_LEASE_FENCED", "heartbeat contains a stale or expired account lease"⟩
    renewLeases worker now rest (claim.accountId :: seen)
      (Table.updateWhere (claim.holds worker now)
        (fun account => { account with lease := account.lease.map ({ · with expiresAt := now + leaseTtl }) })
        accounts)

/-- `worker_heartbeat`. -/
def workerHeartbeat (envelope : Envelope) (claims : List WorkerLeaseClaim) (s : World) : Except ApiError World := do
  validateSessionEnvelope envelope
  let worker ← authenticateWorker envelope s
  refuseIf (claims.length > worker.capacity)
    ⟨.badRequest, "MT5_VM_HEARTBEAT_CAPACITY_EXCEEDED", "heartbeat reports more leases than worker capacity"⟩
  let accounts ← renewLeases worker s.now claims [] s.accounts
  return { s with
    accounts
    workers := Table.updateWhere (·.workerId = envelope.workerId)
      (fun worker => { worker with
        status := if worker.drain then .draining else .healthy
        heartbeatExpiresAt := s.now + leaseTtl }) s.workers }

/-! ## Poll -/

/-- The worker's commands that ran out are given up. -/
def Account.expireWorkerCommands (workerId : WorkerId) (now : Millis) (account : Account) : Account :=
  account.updateCommands
    (fun command => command.workerId = workerId && command.status.pending && command.expiresAt ≤ now)
    (·.concluded .expired "COMMAND_EXPIRED" now)

/-- The command may be given to the worker that polls, under the account's lease. -/
def ControlCommand.dispatchable (command : ControlCommand) (worker : Worker) (now : Millis) (lease : Option Lease) :
    Bool :=
  command.workerId = worker.workerId && command.workerSession = worker.sessionGeneration
    && command.protocolVersion = worker.protocolVersion
    && (command.status = .queued
      || (command.status = .dispatched && command.dispatchLeaseUntil.any fun until_ => until_ ≤ now))
    && now < command.expiresAt && lease.any (·.carries command now)

/-- The commands a poll takes: among those locked for it, the ones that may be given out. -/
def polled (worker : Worker) (chosen : List Nat) (limit : Nat) (s : World) : List Nat :=
  ((s.accounts.flatMap fun account =>
      (account.commands.filter (·.dispatchable worker s.now account.lease)).map ControlCommand.id).filter
    chosen.contains).take limit

/-- The assignment a provision command starts an EA for, if it is one on bare metal. -/
def Account.bootstrapFor (command : ControlCommand) (worker : Worker) (now : Millis) (token : Nat)
    (account : Account) : Option PairingToken := do
  let identity ← account.connection.identity
  let lease ← account.lease
  if worker.substrate = .bareMetal && worker.sessionGeneration = command.workerSession
      && 0 < account.connection.revision
      && account.connection.disconnectRequestedRevision.isNone && account.connection.workerId = some command.workerId
      && account.connection.leaseGeneration = command.leaseGeneration && lease.carries command now then
    some
      { token, expiresAt := min command.expiresAt (now + 120000), workerId := command.workerId
        workerSession := command.workerSession, leaseGeneration := command.leaseGeneration
        connectionRevision := account.connection.revision, identity, runtime := none, consumed := false }
  else none

/-- The token belongs to the assignment the command was made for. -/
def PairingToken.sameAssignment (token : PairingToken) (command : ControlCommand) : Bool :=
  token.workerId = command.workerId && token.workerSession = command.workerSession
    && token.leaseGeneration = command.leaseGeneration

/-- A provision command comes with a credential grant, when the account has credentials, and
then with a bootstrap token, which revokes the ones its assignment had. -/
def Account.bootstrap (worker : Worker) (now : Millis) (base : Nat) (account : Account) (command : ControlCommand) :
    Account :=
  if command.kind = .provisionAccount && account.registry.secretRef.isSome then
    let revoked := account.updateTokens (·.sameAssignment command) ({ · with consumed := true })
    { revoked with tokens := revoked.tokens ++ (account.bootstrapFor command worker now (base + command.id)).toList }
  else account

/-- Give out the commands taken, and what each of them comes with. -/
def Account.dispatch (worker : Worker) (taken : List Nat) (now : Millis) (base : Nat) (account : Account) : Account :=
  let given := account.updateCommands (fun command => taken.contains command.id)
    ({ · with status := .dispatched, dispatchLeaseUntil := some (now + 15000) })
  (given.commands.filter fun command => taken.contains command.id).foldl (Account.bootstrap worker now base) given

/-- `worker_poll`. Which of the waiting commands it finds unlocked is not up to it. -/
def workerPoll (envelope : Envelope) (maxCommands : Option Nat) (chosen : List Nat) (s : World) :
    Except ApiError (World × List ControlCommand) := do
  validateSessionEnvelope envelope
  let worker ← authenticateWorker envelope s
  let limit := max 1 (min (maxCommands.getD mt5VmMaxCommandsPerPoll) mt5VmMaxCommandsPerPoll)
  let swept := { s with accounts := s.accounts.map (·.expireWorkerCommands envelope.workerId s.now) }
  let taken := polled worker chosen limit swept
  let accounts := swept.accounts.map (·.dispatch worker taken s.now s.nextId)
  return ({ s with accounts, nextId := s.nextId + s.nextId },
    accounts.flatMap fun account => account.commands.filter fun command => taken.contains command.id)

/-! ## EA bootstrap binding -/

/-- `WorkerEaBootstrapBindRequest`. -/
structure BindRequest where
  accountId : AccountId
  leaseGeneration : Nat
  connectionRevision : Nat
  pairingToken : Nat
  runtime : RuntimeBinding

/-- The error of a binding that no assignment carries any more. -/
def bindingFenced : ApiError :=
  ⟨.conflict, "MANAGED_EA_RUNTIME_BINDING_FENCED", "managed EA runtime binding is no longer active"⟩

/-- The account's assignment is the one the request names, and the worker still serves it. -/
def BindRequest.assigned (request : BindRequest) (worker : Worker) (now : Millis) (account : Account) : Bool :=
  account.accountId = request.accountId
    && account.connection.workerId = some worker.workerId
    && account.connection.leaseGeneration = request.leaseGeneration
    && account.connection.revision = request.connectionRevision
    && account.connection.disconnectRequestedRevision.isNone
    && worker.substrate = .bareMetal && worker.serving now
    && account.lease.any fun lease =>
      lease.workerId = worker.workerId && lease.workerSession = worker.sessionGeneration
        && lease.generation = request.leaseGeneration && lease.valid now

/-- The token the request names, not consumed and not run out. -/
def BindRequest.names (request : BindRequest) (worker : Worker) (now : Millis) (token : PairingToken) : Bool :=
  token.token = request.pairingToken && !token.consumed && now < token.expiresAt
    && token.workerId = worker.workerId && token.workerSession = worker.sessionGeneration
    && token.leaseGeneration = request.leaseGeneration && token.connectionRevision = request.connectionRevision

/-- `worker_bind_ea_bootstrap`, with `execution_bind_mt5_managed_ea_bootstrap`. It answers
whether the token was bound to this process already. -/
def workerBindEaBootstrap (settings : Settings) (envelope : Envelope) (request : BindRequest) (s : World) :
    Except ApiError (World × Bool) := do
  validateSessionEnvelope envelope
  refuseIf (!validIdentifier request.accountId 64 || !validIdentifier request.runtime.slotId 64
      || request.leaseGeneration = 0 || request.connectionRevision = 0 || request.runtime.terminalPid = 0
      || !settings.validOrigin request.runtime.gatewayOrigin)
    ⟨.badRequest, "MANAGED_EA_RUNTIME_BINDING_INVALID", "managed EA runtime binding is invalid"⟩
  let worker ← authenticateWorker envelope s
  let account ← require (s.accounts.find? (request.assigned worker s.now)) bindingFenced
  let token ← require (account.tokens.find? (request.names worker s.now)) bindingFenced
  match token.runtime with
  | none =>
    return ({ s with
      accounts := Table.updateWhere (·.accountId = request.accountId)
        (·.updateTokens (·.token = token.token) ({ · with runtime := some request.runtime })) s.accounts }, false)
  | some runtime =>
    refuseIf (runtime ≠ request.runtime) bindingFenced
    return (s, true)

end MarketLens.Mt5Vm
