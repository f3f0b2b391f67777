import Mathlib.Data.List.MinMax
import Mathlib.Data.List.Sort
import MarketLens.Domain.Ea
import MarketLens.Store.Commands
import MarketLens.Store.Copy

/-!
# Taking commands into the queue

Sessions, the durable enqueue of a routed command, and the order that is kept
until its terminal reconnects. Each function is one database transaction: it
either returns the tables it leaves behind or an error, and then nothing changed.
-/

namespace MarketLens.Commands

open Store Copier Fallible

def sessionTtl : Millis := 15 * 60 * 1000
def sessionAbsoluteTtl : Millis := 30 * 24 * 60 * 60 * 1000
def maxCommandsPerAccount : Nat := 128
def maxCommandsPerPoll : Nat := 16
def commandLease : Millis := 15 * 1000
def commandDeliveryTtl : Millis := 2 * 60 * 1000
def deferredOrderTtl : Millis := 5 * 60 * 1000
def maxDeferredActivationsPerEvent : Nat := 16
def eaPollFreshness : Millis := 15 * 1000

/-- Why the queue would not take a command. -/
inductive AdapterError where
  | accountOffline
  | backpressure
  | idempotencyConflict
  | rejected (reason : String)
  | transport (reason : String)

/-! ## EA versions -/

structure EaVersion where
  major : Nat
  minor : Nat
  patch : Nat

def minSupportedEaVersion : EaVersion := ⟨1, 26, 0⟩

/-- Lexicographic comparison of versions. -/
def EaVersion.atLeast (version least : EaVersion) : Bool :=
  version.major > least.major || (version.major = least.major
    && (version.minor > least.minor || (version.minor = least.minor
      && version.patch ≥ least.patch)))

/-- A decimal number that fits 32 bits. -/
def parseU32 (digits : List Char) : Option Nat :=
  if digits.isEmpty || !digits.all isAsciiDigit then none
  else
    let value := digits.foldl (fun n c => 10 * n + (c.toNat - '0'.toNat)) 0
    if value < 2 ^ 32 then some value else none

/-- `parse_ea_version`: `major.minor` or `major.minor.patch`, cut at a `-` or `+` suffix. -/
def parseEaVersion (value : String) : Option EaVersion :=
  let core := (trim value).toList.takeWhile fun c => c ≠ '-' && c ≠ '+'
  match core.splitOn '.' with
  | [major, minor] => do return ⟨← parseU32 major, ← parseU32 minor, 0⟩
  | [major, minor, patch] => do
    return ⟨← parseU32 major, ← parseU32 minor, ← parseU32 patch⟩
  | _ => none

def eaVersionSupported (value : Option String) : Bool :=
  (value.bind parseEaVersion).any fun version => version.atLeast minSupportedEaVersion

/-! ## Sessions -/

/-- Pair an EA: its account row is refreshed, and the new session is the only one left.
`assignment` is `none` for the user's own terminal; for one the service runs it says whether
the worker still holds the account's lease. -/
def createSession (accountId : String) (sessionId : Nat) (account : EaAccountSnapshot)
    (assignment : Option Bool) (now : Millis) (tables : CommandTables) :
    Except ApiError CommandTables := do
  refuseIf (assignment.any fun leased =>
      !leased || !tables.accounts.any fun row => row.id = accountId && row.connector ≠ .direct
        && row.connector.attached)
    ⟨.conflict, "MANAGED_EA_ASSIGNMENT_FENCED", "managed EA assignment is no longer active"⟩
  let status := if assignment.isSome then AccountStatus.connecting
    else if account.tradeAllowed then .ready else .blocked
  let paired := fun (row : AccountRow) => { row with
    status := status, tradeAllowed := account.tradeAllowed, eaVersion := account.eaVersion }
  let row : AccountRow := ⟨accountId, .direct, status, account.tradeAllowed, account.eaVersion⟩
  return { tables with
    accounts :=
      if tables.accounts.any (·.id = accountId) then
        Table.updateWhere (·.id = accountId) paired tables.accounts
      else tables.accounts ++ [row]
    sessions :=
      Table.updateWhere (·.accountId = accountId) (fun row => { row with revoked := true })
        tables.sessions
      ++ [⟨sessionId, accountId, false, now + sessionTtl, now + sessionAbsoluteTtl, none⟩] }

/-- The session is neither revoked nor expired. -/
def liveSession (session : EaSessionRow) (now : Millis) : Bool :=
  !session.revoked && session.expiresAt > now && session.absoluteExpiresAt > now

/-- What an authenticated request goes on with. -/
structure EaSession where
  sessionId : Nat
  accountId : String
deriving DecidableEq

/-- `authenticate`: a live session of an account that is not disabled, extended by a quarter
of an hour. `fenced` says that the worker of a managed terminal has lost it. -/
def authenticate (sessionId : Nat) (fenced : Bool) (now : Millis) (tables : CommandTables) :
    Except ApiError (EaSession × CommandTables) := do
  let session ← require
    (tables.sessions.find? fun row => row.id = sessionId && liveSession row now
      && tables.accounts.any (fun account => account.id = row.accountId
        && account.status ≠ .disabled) && !fenced)
    ⟨.unauthorized, "UNAUTHORIZED", "EA session is invalid or expired"⟩
  return (⟨session.id, session.accountId⟩,
    { tables with
      sessions := Table.updateWhere (·.id = sessionId)
        (fun row => { row with expiresAt := min row.absoluteExpiresAt (now + sessionTtl) })
        tables.sessions })

/-- `touch_account`: a heartbeat refreshes the account it is about. -/
def touchAccount (accountId : String) (account : EaAccountSnapshot) (tables : CommandTables) :
    Except ApiError CommandTables := do
  let touched := fun (row : AccountRow) => row.id = accountId && row.status ≠ .disabled
  refuseIf (!tables.accounts.any touched)
    ⟨.forbidden, "ACCOUNT_SESSION_MISMATCH", "EA account is not owned by this session"⟩
  return { tables with
    accounts := Table.updateWhere touched (fun row => { row with
      status := match row.connector with
        | .windowsVm _ => row.status
        | .direct => if account.tradeAllowed then .ready else .blocked
      tradeAllowed := account.tradeAllowed
      eaVersion := account.eaVersion }) tables.accounts }

/-! ## Enqueue -/

/-- A terminal of the account polled within the last fifteen seconds. -/
def connected (tables : CommandTables) (accountId : String) (now : Millis) : Bool :=
  tables.sessions.any fun session => session.accountId = accountId && liveSession session now
    && session.lastPollAt.any fun polled => polled + eaPollFreshness > now

/-- How many commands wait for the account. -/
def pendingCount (tables : CommandTables) (accountId : String) : Nat :=
  tables.commands.countP fun row => row.targetAccountId = accountId && row.pending

/-- `id ~ '^[A-Za-z0-9][A-Za-z0-9._:-]{0,127}$'`. -/
def wellFormedId (id : String) : Bool :=
  match id.toList with
  | [] => false
  | first :: rest => isAsciiAlphanumeric first && rest.length ≤ 127
    && rest.all fun c => isAsciiAlphanumeric c || c = '.' || c = '_' || c = ':' || c = '-'

/-- The rows a copier outbox row is joined with at the queue's boundary. -/
def copierGateRow (copier : CopyTables) (outbox : OutboxRow) :
    Option (CopyGroupRow × CopyTargetRow × WorkRow) := do
  let work ← copier.work.find? fun work =>
    work.groupId = outbox.groupId && work.id = outbox.workItemId
  let group ← copier.groups.find? (·.id = outbox.groupId)
  let target ← copier.targets.find? fun target =>
    target.groupId = outbox.groupId && target.accountId = outbox.targetAccountId
  return (group, target, work)

/-- The copier's second gate: a command of a work item passes only while the item is leased and
its group and target are enabled. -/
def copierEnqueueGate (copier : CopyTables) (accountId commandId : String) :
    Except AdapterError Unit :=
  let issuing := copier.outbox.filter fun outbox => outbox.targetAccountId = accountId
    && outbox.commandPayload.command.commandId = some commandId
  match issuing.argmax (·.createdAt) with
  | none => .ok ()
  | some latest =>
    let joined := issuing.filter fun outbox => outbox.groupId = latest.groupId
      && (copierGateRow copier outbox).isSome
    match (joined.argmax (·.createdAt)).bind (copierGateRow copier) with
    | none =>
      .error (.rejected "continuous copier work disappeared before durable enqueue")
    | some (group, target, work) => do
      refuseIf (!group.enabled || !target.enabled || work.status ≠ .leased)
        (.rejected "continuous copier work was superseded before durable enqueue")
      refuseIf ((group.runtimeStatus = .paused || group.runtimeStatus = .error)
          && !copierOperationAllowedWhilePaused work.operation work.payload.phase)
        .backpressure

/-- Store a target command under its parent, which is created unless it is there already. -/
def insertCommand (parent : ExecutionCommandRow) (row : TargetCommandRow)
    (tables : CommandTables) : Except AdapterError CommandTables := do
  let parents := Table.insertUnless (fun other => other.id = parent.id
    || other.idempotencyKey = parent.idempotencyKey) parent tables.parents
  refuseIf (!wellFormedId parent.id || !parent.sourceAccountId.all fun source =>
      tables.accounts.any (·.id = source))
    (.transport "command repository unavailable")
  -- primary key, the parent's foreign key, one command per account and parent, unique key
  refuseIf (!wellFormedId row.id || !parents.any (·.id = row.parentCommandId)
      || tables.commands.any fun other => other.id = row.id
        || (other.parentCommandId = row.parentCommandId
          && other.targetAccountId = row.targetAccountId)
        || other.idempotencyKey = row.idempotencyKey)
    (.transport "command repository unavailable")
  return { tables with parents := parents, commands := tables.commands ++ [row] }

/-- The row `enqueue` stores a command in. -/
def queuedRow (command : EaCommand) (id : String) (hid : command.commandId = some id)
    (parentId accountId key : String) (now : Millis) : TargetCommandRow where
  id := id
  parentCommandId := parentId
  targetAccountId := accountId
  idempotencyKey := key
  commandPayload := .issued command
  payload_id := hid
  status := .queued
  rejectCode := none
  rejectMessage := none
  brokerOrderId := none
  brokerDealId := none
  attemptCount := 0
  nextAttemptAt := now
  lease := none
  firstDeliveredAt := none
  terminalAckAt := none
  deliverBy := none
  createdAt := now

def parentRow (id : String) (sourceAccountId : Option String) : ExecutionCommandRow :=
  ⟨id, "parent:" ++ id, sourceAccountId, .routed⟩

/-- `enqueue`. -/
def enqueue (copier : CopyTables) (accountId : String) (command : EaCommand) (now : Millis)
    (tables : CommandTables) : Except AdapterError CommandTables := do
  let targetAccountId ← require command.targetAccount
    (.rejected "sync command requires a durable target envelope")
  refuseIf (targetAccountId ≠ accountId)
    (.rejected "command target does not match queue account")
  match hid : command.commandId with
  | none => .error (.rejected "command id is required for durable execution")
  | some id =>
    let key ← require command.idempotencyKey
      (.rejected "idempotency key is required for durable execution")
    let parentId ← require command.parentId
      (.rejected "parent command id is required for durable execution")
    let account ← require
      (tables.accounts.find? fun row => row.id = accountId && row.status ≠ .disabled)
      .accountOffline
    refuseIf (!connected tables accountId now) .accountOffline
    refuseIf (!eaVersionSupported account.eaVersion)
      (.rejected "MarketLensExecutionEA 1.26 or newer is required")
    copierEnqueueGate copier accountId id
    refuseIf (pendingCount tables accountId ≥ maxCommandsPerAccount) .backpressure
    match tables.commands.find? (·.idempotencyKey = key) with
    | some existing =>
      refuseIf (existing.commandPayload ≠ .issued command) .idempotencyConflict
      return tables
    | none =>
      insertCommand (parentRow parentId none)
        (queuedRow command id hid parentId accountId key now) tables

/-! ## Deferred orders -/

/-- The row `defer_order` stores an order in. -/
def waitingRow (intent : OrderIntent) (target : AdminOrderTarget) (now : Millis) :
    TargetCommandRow where
  id := childId intent.commandId target.accountId
  parentCommandId := intent.commandId
  targetAccountId := target.accountId
  idempotencyKey := childId intent.idempotencyKey target.accountId
  commandPayload := .deferred intent target
  payload_id := rfl
  status := .waiting
  rejectCode := none
  rejectMessage := none
  brokerOrderId := none
  brokerDealId := none
  attemptCount := 0
  nextAttemptAt := now
  lease := none
  firstDeliveredAt := none
  terminalAckAt := none
  deliverBy := some (now + deferredOrderTtl)
  createdAt := now

/-- `defer_order`: keep an order for a terminal that is away. -/
def deferOrder (intent : OrderIntent) (target : AdminOrderTarget) (now : Millis)
    (tables : CommandTables) : Except AdapterError CommandTables := do
  refuseIf (!tables.accounts.any fun account => account.id = target.accountId
      && account.status ≠ .disabled && account.connector.attached)
    .accountOffline
  refuseIf (pendingCount tables target.accountId ≥ maxCommandsPerAccount) .backpressure
  let row := waitingRow intent target now
  match tables.commands.find? (·.idempotencyKey = row.idempotencyKey) with
  | some existing =>
    refuseIf (existing.commandPayload ≠ .deferred intent target || existing.status ≠ .waiting
        || !existing.deliverBy.any (· > now))
      .idempotencyConflict
    return tables
  | none =>
    insertCommand (parentRow intent.commandId intent.sourceAccountId) row tables

end MarketLens.Commands
