import MarketLens.Mt5Vm.Workers

/-!
# Acknowledgements and lifecycle commands

A worker acknowledges a command as received, succeeded or failed; the first terminal
acknowledgement has an effect on the account. An operator may queue commands of their own.
-/

namespace MarketLens.Mt5Vm

open Store Fallible

inductive AckKind where
  | received
  | succeeded
  | failed
deriving DecidableEq

/-- `WorkerCommandAckRequest`. The result is absent, an object, or text that is no object. -/
structure AckRequest where
  commandId : Nat
  accountId : AccountId
  leaseGeneration : Nat
  ack : AckKind
  result : Option (Option Payload)
  errorCode : Option String
deriving DecidableEq

/-- `valid_error_code`. -/
def validErrorCode (value : String) : Bool :=
  match value.toList with
  | [] => false
  | first :: rest =>
    rest.length < 64 && ('A' ≤ first && first ≤ 'Z')
      && rest.all fun c => ('A' ≤ c && c ≤ 'Z') || isAsciiDigit c || c = '_'

def ackConflict (message : String) : ApiError := ⟨.conflict, "MT5_VM_COMMAND_ACK_CONFLICT", message⟩

/-- `ack_target_status`. -/
def ackTargetStatus (current : ControlStatus) (ack : AckKind) : Except ApiError ControlStatus :=
  match current, ack with
  | .dispatched, .received | .received, .received => .ok .received
  | .dispatched, .succeeded | .received, .succeeded | .succeeded, .succeeded => .ok .succeeded
  | .dispatched, .failed | .received, .failed | .failed, .failed => .ok .failed
  | .succeeded, .received => .ok .succeeded
  | .failed, .received => .ok .failed
  | _, _ => .error (ackConflict "worker acknowledgement conflicts with durable command state")

/-- `status IN ('succeeded', 'failed')`. -/
def ControlStatus.concludedByAck : ControlStatus → Bool
  | .succeeded | .failed => true
  | _ => false

/-- What an accepted acknowledgement writes into the command. -/
def ControlCommand.acknowledged (command : ControlCommand) (target : ControlStatus) (request : AckRequest)
    (now : Millis) : ControlCommand :=
  { command with
    status := target
    receivedAt := command.receivedAt.or (some now)
    completedAt := if target.concludedByAck then some now else none
    dispatchLeaseUntil := if target.concludedByAck then none else command.dispatchLeaseUntil
    result := if target = .succeeded then request.result.join else command.result
    errorCode := if target = .failed then request.errorCode else command.errorCode }

/-! ## The effect of a terminal acknowledgement -/

/-- The account is still bound to the worker under the lease generation, and nobody asked it to
disconnect. -/
def Connection.assignedTo (row : Connection) (workerId : WorkerId) (leaseGeneration : Nat) : Bool :=
  row.workerId = some workerId && row.leaseGeneration = leaseGeneration && row.disconnectRequestedRevision.isNone

/-- `apply_terminal_ack`, of a failed command. -/
def Account.degrade (workerId : WorkerId) (leaseGeneration : Nat) (account : Account) : Account :=
  if account.connection.assignedTo workerId leaseGeneration then
    account.connect fun row => { row with status := .degraded, revision := row.revision + 1 }
  else account

section
variable (accountId : AccountId) (leaseGeneration : Nat)

/-- The idempotency key of the reconciliation a provisioning is followed by. -/
def reconcileKey : String :=
  "reconcile:" ++ accountId ++ ":" ++ toString leaseGeneration

def provisionKey : String :=
  "provision:" ++ accountId ++ ":" ++ toString leaseGeneration

def stopKey : String :=
  "stop:" ++ accountId ++ ":" ++ toString leaseGeneration

end

/-- Queue a command, unless the key is in use. -/
def Account.queueUnless (taken : Bool) (command : ControlCommand) (account : Account) : Account :=
  if taken then account else { account with commands := account.commands ++ [command] }

section
variable (request : AckRequest) (worker : Worker)

/-- The lease an acknowledgement speaks for. -/
def AckRequest.lease : Lease :=
  ⟨worker.workerId, worker.sessionGeneration, request.leaseGeneration, .active, 0⟩

/-- `apply_terminal_ack`, of a provisioning that succeeded. -/
def Account.provisioned (taken : Bool) (id : Nat) (now : Millis)
    (account : Account) : Account :=
  if account.connection.assignedTo worker.workerId request.leaseGeneration then
    (account.connect fun row => { row with status := .synchronizing, revision := row.revision + 1 }).queueUnless taken
      (.queued id (request.lease worker) worker.protocolVersion
        (reconcileKey request.accountId request.leaseGeneration) .reconcileAccount .empty (now + commandTtl))
  else account

/-- `apply_terminal_ack`, of a reconciliation that succeeded. On bare metal the revision stays. -/
def Account.reconciled (account : Account) : Account :=
  if account.connection.assignedTo worker.workerId request.leaseGeneration then
    account.connect fun row => { row with
      status := .synchronizing
      revision := if worker.substrate = .bareMetal then row.revision else row.revision + 1 }
  else account

end

def Lease.release (workerId : WorkerId) (generation : Nat) (lease : Lease) : Lease :=
  if lease.workerId = workerId && lease.generation = generation && lease.status = .active then
    { lease with status := .released }
  else lease

/-- The stopped account lets go of its worker, when its owner asked for that. -/
def Connection.stop (leaseGeneration : Nat) (row : Connection) : Connection :=
  if row.leaseGeneration = leaseGeneration
      && (row.disconnectRequestedRevision.isSome || row.removalRequestedAt.isSome) then
    { row with status := .disconnected, workerId := none }
  else row

/-- `apply_terminal_ack`, of a stop that succeeded. -/
def Account.stopped (workerId : WorkerId) (leaseGeneration : Nat) (now : Millis) (account : Account) : Account :=
  let account := { account with lease := account.lease.map (Lease.release workerId leaseGeneration) }
  let account := account.connect (·.stop leaseGeneration)
  let account := account.register ({ · with status := .offline, tradeAllowed := false })
  account.updateCommands
    (fun command => command.leaseGeneration = leaseGeneration && command.kind ≠ CommandKind.stopAccount
      && command.status.pending)
    (·.concluded .fenced "ACCOUNT_STOPPED" now)

/-- `apply_terminal_ack`. -/
def Account.applyTerminalAck (request : AckRequest) (worker : Worker) (kind : CommandKind) (target : ControlStatus)
    (taken : Bool) (id : Nat) (now : Millis) (account : Account) : Account :=
  if target = .failed then account.degrade worker.workerId request.leaseGeneration
  else match kind with
    | .provisionAccount => account.provisioned request worker taken id now
    | .reconcileAccount => account.reconciled request worker
    | .stopAccount => account.stopped worker.workerId request.leaseGeneration now

/-! ## worker_ack -/

/-- The checks on an acknowledgement before the database is asked. -/
def validateAck (envelope : Envelope) (request : AckRequest) : Except ApiError Unit := do
  validateSessionEnvelope envelope
  refuseIf (!validIdentifier request.accountId 64 || request.leaseGeneration = 0
      || request.result = some none
      || (request.result.join.any fun result => !result.isSafe)
      || (request.errorCode.any fun code => !validErrorCode code)
      || (request.ack = .received && request.result.isSome)
      || (request.ack = .failed && request.errorCode.isNone)
      || (request.ack ≠ .failed && request.errorCode.isSome))
    ⟨.badRequest, "MT5_VM_COMMAND_ACK_INVALID", "worker acknowledgement payload is invalid"⟩

def World.command? (s : World) (commandId : Nat) : Option (Account × Lease × ControlCommand) :=
  s.accounts.findSome? fun account => do
    let lease ← account.lease
    let command ← account.commands.find? (·.id = commandId)
    return (account, lease, command)

/-- The command, and the lease of its account, as an acknowledgement may speak for them. -/
def AckRequest.fence (request : AckRequest) (worker : Worker) (account : Account) (lease : Lease)
    (command : ControlCommand) (now : Millis) : Bool :=
  account.accountId = request.accountId && command.workerId = worker.workerId
    && command.workerSession = worker.sessionGeneration && command.leaseGeneration = request.leaseGeneration
    && lease.valid now

/-- `worker_ack`. It answers the command's status. -/
def workerAck (envelope : Envelope) (request : AckRequest) (s : World) : Except ApiError (World × ControlStatus) := do
  validateAck envelope request
  let worker ← authenticateWorker envelope s
  let (account, lease, command) ← require (s.command? request.commandId)
    ⟨.notFound, "MT5_VM_COMMAND_NOT_FOUND", "worker command was not found"⟩
  refuseIf (!request.fence worker account lease command s.now)
    ⟨.conflict, "MT5_VM_LEASE_FENCED", "worker acknowledgement belongs to a stale account lease"⟩
  let target ← ackTargetStatus command.status request.ack
  -- a `received` that comes late changes nothing
  if command.status.concludedByAck && request.ack = .received then
    return (s, command.status)
  refuseIf (command.status = .succeeded && command.result ≠ request.result.join)
    (ackConflict "duplicate success acknowledgement changed its result")
  refuseIf (command.status = .failed && command.errorCode ≠ request.errorCode)
    (ackConflict "duplicate failure acknowledgement changed its error code")
  let newlyTerminal := !command.status.concludedByAck && target.concludedByAck
  let taken := s.keyTaken (reconcileKey request.accountId request.leaseGeneration)
  let s ← s.commitAccount request.accountId fun account =>
    let account := account.updateCommands (·.id = request.commandId) (·.acknowledged target request s.now)
    if newlyTerminal then account.applyTerminalAck request worker command.kind target taken s.nextId s.now
    else account
  return ({ s with nextId := s.nextId + 1 }, target)

/-! ## Operator commands -/

/-- `AdminControlCommandRequest`. -/
structure AdminCommandRequest where
  ownerId : OwnerId
  accountId : AccountId
  leaseGeneration : Nat
  idempotencyKey : String
  kind : CommandKind
  payload : Option Payload
  expiresInSeconds : Option Nat

/-- The lease an operator's command is queued under: active, of the generation asked for, and
of a worker session that is alive. -/
def AdminCommandRequest.lease? (request : AdminCommandRequest) (s : World) : Option (Lease × Worker) := do
  let account ← s.accounts.find? (·.isOf request.ownerId request.accountId)
  let lease ← account.lease
  let worker ← s.worker? lease.workerId
  if lease.generation = request.leaseGeneration && lease.valid s.now
      && worker.sessionGeneration = lease.workerSession && s.now < worker.heartbeatExpiresAt then
    some (lease, worker)
  else none

/-- `queue_admin_command`. It answers the command's status and whether it was created. -/
def queueAdminCommand (settings : Settings) (adminToken : String) (request : AdminCommandRequest) (s : World) :
    Except ApiError (World × ControlStatus × Bool) := do
  requireAdmin settings adminToken
  let ttl := request.expiresInSeconds.getD 300
  refuseIf (!validIdentifier request.accountId 64 || request.leaseGeneration = 0
      || !(1 ≤ request.idempotencyKey.utf8ByteSize && request.idempotencyKey.utf8ByteSize ≤ 192)
      || request.idempotencyKey.toList.any isControl || request.kind = .provisionAccount
      || !(request.payload.any Payload.isSafe) || !(5 ≤ ttl && ttl ≤ 900))
    ⟨.badRequest, "MT5_VM_ADMIN_COMMAND_INVALID", "admin lifecycle command is invalid or contains sensitive data"⟩
  let (lease, worker) ← require (request.lease? s)
    ⟨.conflict, "MT5_VM_LEASE_UNAVAILABLE", "account has no active matching worker lease"⟩
  let payload := request.payload.getD .empty
  if s.keyTaken request.idempotencyKey then do
    let existing ← require
      (s.accounts.findSome? fun account =>
        (account.commands.find? (·.idempotencyKey = request.idempotencyKey)).map (account.accountId, ·))
      internalError
    refuseIf (existing.1 ≠ request.accountId || existing.2.leaseGeneration ≠ request.leaseGeneration
        || existing.2.kind ≠ request.kind || existing.2.payload ≠ payload)
      ⟨.conflict, "MT5_VM_IDEMPOTENCY_CONFLICT", "idempotency key belongs to a different lifecycle command"⟩
    return (s, existing.2.status, false)
  else
    let command := ControlCommand.queued s.nextId lease worker.protocolVersion request.idempotencyKey request.kind
      payload (s.now + ttl * 1000)
    return ({ s with
      nextId := s.nextId + 1
      accounts := Table.updateWhere (·.accountId = request.accountId) (·.queueUnless false command) s.accounts },
      .queued, true)

end MarketLens.Mt5Vm
