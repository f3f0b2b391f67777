import MarketLens.Store.Commands

/-!
# The tables of the managed terminals

Terminals the service runs itself live on workers. A worker enrolls a session; the
scheduler leases an account to it; the worker polls, runs and acknowledges lifecycle
commands, reports snapshots of the account, and starts an EA that pairs with a
bootstrap token of its own.

Every row the database keys by an account is deleted with the account, so the rows are
kept inside it: its connection, its registry entry, its one lease, its commands, its
bootstrap tokens, its EA sessions and what was observed of it. Identifiers and secrets
the database draws at random are numbers drawn in order: no two are equal.
-/

namespace MarketLens.Mt5Vm

open Store

abbrev WorkerId := String
abbrev AccountId := String
abbrev OwnerId := String

/-- A keyed hash of a broker identity, as its bytes. -/
abbrev Fingerprint := List Nat

def mt5VmControlProtocolVersion : Nat := 1
def mt5VmMaxScheduledTerminals : Nat := 4
def mt5VmMaxCommandsPerPoll : Nat := 16

/-- `LEASE_TTL_SECONDS`, also how long a heartbeat lasts. -/
def leaseTtl : Millis := 45000

/-- `DEFAULT_COMMAND_TTL_SECONDS`, and the life of the commands the service makes itself. -/
def commandTtl : Millis := 300000

/-! ## JSON objects -/

/-- A JSON object as its leaves, each under the keys that lead to it. -/
structure Payload where
  leaves : List (List String × String)
deriving DecidableEq

/-- `contains`, on characters. -/
def containsText (part : List Char) : List Char → Bool
  | [] => part.isEmpty
  | c :: rest => part.isPrefixOf (c :: rest) || containsText part rest

namespace Payload

def empty : Payload := ⟨[]⟩

/-- `payload_is_safe`: no key, letters and digits alone and in lower case, names a secret. -/
def isSafe (payload : Payload) : Bool :=
  payload.leaves.all fun (keys, _) => keys.all fun key =>
    let normalized := (key.toList.filter isAsciiAlphanumeric).map Char.toLower
    !(["login", "password", "secret", "credential", "token", "authorization"].any
      fun sensitive => containsText sensitive.toList normalized)

end Payload

/-! ## Workers -/

inductive WorkerStatus where
  | healthy
  | draining
  | offline
deriving DecidableEq

inductive Substrate where
  | windowsVm
  | bareMetal
deriving DecidableEq

/-- `execution_mt5_vm_workers`. -/
structure Worker where
  workerId : WorkerId
  protocolVersion : Nat
  sessionGeneration : Nat
  sessionToken : Nat
  runtimeVersion : String
  capacity : Nat
  substrate : Substrate
  status : WorkerStatus
  drain : Bool
  heartbeatExpiresAt : Millis
deriving DecidableEq

/-- The worker takes placements and may carry an account to `ready`. -/
def Worker.serving (worker : Worker) (now : Millis) : Bool :=
  worker.status = .healthy && !worker.drain && now < worker.heartbeatExpiresAt

/-! ## The connection of an account -/

inductive Persistence where
  | session
  | managed
deriving DecidableEq

inductive ConnectionStatus where
  | queued
  | provisioning
  | synchronizing
  | ready
  | degraded
  | reconnecting
  | credentialsRequired
  | unsupported
  | blocked
  | disconnected
deriving DecidableEq

/-- The statuses that hold the broker identity of an account. -/
def ConnectionStatus.live : ConnectionStatus → Bool
  | .disconnected | .credentialsRequired => false
  | _ => true

/-- The status an account whose worker is gone goes back to. -/
def Persistence.requeued : Persistence → ConnectionStatus
  | .managed => .reconnecting
  | .session => .credentialsRequired

/-- The pending columns of a credential reservation, which are set and cleared together. -/
structure Reservation where
  secretRef : String
  reservedAt : Millis
  identity : Fingerprint
  server : Fingerprint
deriving DecidableEq

/-- `execution_mt5_vm_accounts`, less its freshness columns. -/
structure Connection where
  userId : OwnerId
  accountId : AccountId
  maskedLoginSuffix : Option String
  persistence : Persistence
  status : ConnectionStatus
  revision : Nat
  workerId : Option WorkerId
  leaseGeneration : Nat
  requiredProtocolVersion : Nat
  requiredRuntimeVersion : Option String
  identity : Option Fingerprint
  server : Option Fingerprint
  reservation : Option Reservation
  removalRequestedAt : Option Millis
  disconnectRequestedRevision : Option Nat
deriving DecidableEq

/-- `COALESCE(pending_identity_fingerprint, identity_fingerprint)`. -/
def Connection.currentIdentity (row : Connection) : Option Fingerprint :=
  (row.reservation.map Reservation.identity).or row.identity

/-- `COALESCE(pending_server_fingerprint, server_fingerprint)`. -/
def Connection.currentServer (row : Connection) : Option Fingerprint :=
  (row.reservation.map Reservation.server).or row.server

/-- `execution_accounts`, as far as the connection of a managed terminal reads or writes it. -/
structure Registry where
  label : String
  status : AccountStatus
  tradeAllowed : Bool
  secretRef : Option String
  lastSeenAt : Option Millis
deriving DecidableEq

inductive LeaseStatus where
  | active
  | released
  | expired
deriving DecidableEq

/-- `execution_mt5_vm_account_leases`: one row for each account. -/
structure Lease where
  workerId : WorkerId
  workerSession : Nat
  generation : Nat
  status : LeaseStatus
  expiresAt : Millis
deriving DecidableEq

/-- The lease is active and has not run out. -/
def Lease.valid (lease : Lease) (now : Millis) : Bool :=
  lease.status = .active && now < lease.expiresAt

/-! ## Lifecycle commands -/

inductive CommandKind where
  | provisionAccount
  | stopAccount
  | reconcileAccount
deriving DecidableEq

inductive ControlStatus where
  | queued
  | dispatched
  | received
  | succeeded
  | failed
  | expired
  | fenced
deriving DecidableEq

/-- `status IN ('queued', 'dispatched', 'received')`. -/
def ControlStatus.pending : ControlStatus → Bool
  | .queued | .dispatched | .received => true
  | _ => false

/-- `execution_mt5_vm_control_commands`. -/
structure ControlCommand where
  id : Nat
  workerId : WorkerId
  workerSession : Nat
  leaseGeneration : Nat
  protocolVersion : Nat
  idempotencyKey : String
  kind : CommandKind
  payload : Payload
  status : ControlStatus
  expiresAt : Millis
  dispatchLeaseUntil : Option Millis
  receivedAt : Option Millis
  completedAt : Option Millis
  result : Option Payload
  errorCode : Option String
deriving DecidableEq

/-- The lease is the one the command was made under, and it is still active. -/
def Lease.carries (lease : Lease) (command : ControlCommand) (now : Millis) : Bool :=
  lease.workerId = command.workerId && lease.workerSession = command.workerSession
    && lease.generation = command.leaseGeneration && lease.valid now

/-- A command nobody has been given yet. -/
def ControlCommand.queued (id : Nat) (lease : Lease) (protocolVersion : Nat) (idempotencyKey : String)
    (kind : CommandKind) (payload : Payload) (expiresAt : Millis) : ControlCommand :=
  { id, workerId := lease.workerId, workerSession := lease.workerSession
    leaseGeneration := lease.generation, protocolVersion, idempotencyKey, kind, payload
    status := .queued, expiresAt, dispatchLeaseUntil := none, receivedAt := none
    completedAt := none, result := none, errorCode := none }

/-- Give a pending command up. -/
def ControlCommand.concluded (command : ControlCommand) (status : ControlStatus) (code : String)
    (now : Millis) : ControlCommand :=
  { command with status, completedAt := some now, dispatchLeaseUntil := none, errorCode := some code }

/-! ## EA bootstrap -/

/-- `EaManagedRuntimeBinding`: the terminal process a worker vouches for. -/
structure RuntimeBinding where
  slotId : String
  terminalPid : Nat
  gatewayOrigin : String
deriving DecidableEq

/-- `execution_pairing_tokens`, of a managed account. -/
structure PairingToken where
  token : Nat
  expiresAt : Millis
  workerId : WorkerId
  workerSession : Nat
  leaseGeneration : Nat
  connectionRevision : Nat
  identity : Fingerprint
  runtime : Option RuntimeBinding
  consumed : Bool
deriving DecidableEq

/-- `execution_ea_sessions`, of a managed account. -/
structure ManagedSession where
  token : Nat
  workerId : WorkerId
  workerSession : Nat
  leaseGeneration : Nat
  connectionRevision : Nat
  runtime : RuntimeBinding
  revoked : Bool
  expiresAt : Millis
  absoluteExpiresAt : Millis
  lastPollAt : Option Millis
deriving DecidableEq

/-! ## Observations -/

inductive SnapshotFamily where
  | account
  | positions
  | pendingOrders
  | instruments
deriving DecidableEq

inductive SnapshotResult where
  | complete
  | partially
  | failed
deriving DecidableEq

/-- `is_authoritative`. -/
def SnapshotResult.isAuthoritative (result : SnapshotResult) : Bool := result = .complete

/-- `execution_mt5_vm_sync_state`. -/
structure SyncState where
  syncSequence : Int
  lastResult : SnapshotResult
  lastErrorCode : Option String
  observedAt : Option Int
  lastCompleteSyncAt : Option Int
  workerId : Option WorkerId
  leaseGeneration : Nat
  workerSession : Nat
deriving DecidableEq

/-- A row as it is seeded, before anything is recorded in it. -/
def SyncState.seed : SyncState := ⟨0, .partially, none, none, none, none, 0, 0⟩

/-- `execution_mt5_vm_account_state`, as far as a readiness gate reads it. -/
structure AccountState where
  tradeAllowed : Bool
  observedLoginSuffix : Option String
  workerId : WorkerId
  leaseGeneration : Nat
  workerSession : Nat
  syncSequence : Int
deriving DecidableEq

/-- A row of the positions, pending orders or instruments of an account. -/
structure FamilyRow where
  key : String
  columns : String
  syncSequence : Int
deriving DecidableEq

/-- One value for each family. -/
structure PerFamily (A : Type) where
  account : A
  positions : A
  pendingOrders : A
  instruments : A
deriving DecidableEq

namespace PerFamily

variable {A : Type}

def get (table : PerFamily A) : SnapshotFamily → A
  | .account => table.account
  | .positions => table.positions
  | .pendingOrders => table.pendingOrders
  | .instruments => table.instruments

def set (table : PerFamily A) (family : SnapshotFamily) (value : A) : PerFamily A :=
  match family with
  | .account => { table with account := value }
  | .positions => { table with positions := value }
  | .pendingOrders => { table with pendingOrders := value }
  | .instruments => { table with instruments := value }

def fill (value : A) : PerFamily A := ⟨value, value, value, value⟩

@[simp] theorem get_fill (value : A) (family : SnapshotFamily) : (fill value).get family = value := by
  cases family <;> rfl

@[simp] theorem get_set_self (table : PerFamily A) (family : SnapshotFamily) (value : A) :
    (table.set family value).get family = value := by
  cases family <;> rfl

theorem get_set_of_ne (table : PerFamily A) {family other : SnapshotFamily} (h : other ≠ family) (value : A) :
    (table.set family value).get other = table.get other := by
  cases family <;> cases other <;> first | rfl | exact absurd rfl h

end PerFamily

/-- The freshness columns of `execution_mt5_vm_accounts`, which only snapshots write. -/
structure Freshness where
  lastAccountSyncAt : Option Millis
  lastPortfolioSyncAt : Option Millis
  lastInstrumentSyncAt : Option Millis
deriving DecidableEq

/-! ## Accounts -/

structure Account where
  connection : Connection
  freshness : Freshness
  registry : Registry
  lease : Option Lease
  commands : List ControlCommand
  tokens : List PairingToken
  sessions : List ManagedSession
  syncStates : PerFamily SyncState
  accountState : Option AccountState
  rows : PerFamily (List FamilyRow)
deriving DecidableEq

namespace Account

def accountId (account : Account) : AccountId := account.connection.accountId

def isOf (ownerId : OwnerId) (accountId : AccountId) (account : Account) : Bool :=
  account.connection.userId = ownerId && account.connection.accountId = accountId

section
variable (account : Account)

/-- What the account holds in the index of active identities. -/
def indexedIdentity : Option Fingerprint :=
  if account.connection.status.live then account.connection.currentIdentity else none

/-- Update the connection. -/
def connect (f : Connection → Connection) : Account :=
  { account with connection := f account.connection }

/-- Update the registry entry. -/
def register (f : Registry → Registry) : Account :=
  { account with registry := f account.registry }

def updateCommands (p : ControlCommand → Bool) (f : ControlCommand → ControlCommand) : Account :=
  { account with commands := Table.updateWhere p f account.commands }

def updateSessions (p : ManagedSession → Bool) (f : ManagedSession → ManagedSession) : Account :=
  { account with sessions := Table.updateWhere p f account.sessions }

/-- Update the bootstrap tokens that match. -/
def updateTokens (p : PairingToken → Bool) (f : PairingToken → PairingToken) : Account :=
  { account with tokens := Table.updateWhere p f account.tokens }

end

end Account

/-! ## The database -/

/-- The managed terminals of a database, at one moment of its clock. -/
structure World where
  now : Millis
  nextId : Nat
  workers : List Worker
  accounts : List Account
deriving DecidableEq

namespace World

/-- Nobody has enrolled and nothing is connected. -/
def empty : World := ⟨0, 1, [], []⟩

def worker? (s : World) (workerId : WorkerId) : Option Worker :=
  s.workers.find? (·.workerId = workerId)

def account? (s : World) (accountId : AccountId) : Option Account :=
  s.accounts.find? (·.accountId = accountId)

/-- Some command, of whatever account, has the idempotency key. -/
def keyTaken (s : World) (key : String) : Bool :=
  s.accounts.any fun account => account.commands.any (·.idempotencyKey = key)

/-- `execution_mt5_vm_accounts_active_identity_idx`: no two live accounts hold one identity. -/
def identitiesUnique (accounts : List Account) : Bool :=
  (accounts.filterMap Account.indexedIdentity).Nodup

/-- Commit new accounts, unless the identity index refuses them. -/
def commit (s : World) (accounts : List Account) : Except ApiError World :=
  if identitiesUnique accounts then .ok { s with accounts } else .error internalError

def commitAccount (s : World) (accountId : AccountId) (f : Account → Account) : Except ApiError World :=
  s.commit (Table.updateWhere (fun account => account.accountId = accountId) f s.accounts)

end World

end MarketLens.Mt5Vm
