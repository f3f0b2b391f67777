import MarketLens.Lib.Table
import MarketLens.Domain.Order

/-!
# The durable command queue's tables

Accounts, EA sessions, parent commands and target commands of one owner. A parent
is one order as the user gave it; it fans out into at most one target command for
each account. A target command's payload carries its id: either the command to
deliver, or the envelope of an order that waits for its terminal.

Times are milliseconds on the database clock.
-/

namespace MarketLens.Store

abbrev Millis := Nat

/-- `AdminOrderTarget`: one target of an order as submitted. -/
structure AdminOrderTarget where
  accountId : String
  allocation : CopyAllocation
  maxQuantity : Option Decimal
deriving DecidableEq

/-- `execution_mt5_vm_accounts`: the connection of a terminal the service runs itself. -/
structure ManagedTerminal where
  connectionRevision : Nat
  disconnectRequestedRevision : Option Nat
deriving DecidableEq

/-- `connector_kind`: the user's own terminal, or one the service runs on a worker. -/
inductive Connector where
  | direct
  | windowsVm (managed : Option ManagedTerminal)
deriving DecidableEq

/-- The terminal may take orders: it is the user's own, or nobody asked it to disconnect. -/
def Connector.attached : Connector → Bool
  | .direct => true
  | .windowsVm managed =>
    managed.any fun terminal => terminal.disconnectRequestedRevision.isNone

/-- `execution_accounts`, as far as delivery looks at it. -/
structure AccountRow where
  id : String
  connector : Connector
  status : AccountStatus
  tradeAllowed : Bool
  eaVersion : Option String
deriving DecidableEq

/-- `execution_ea_sessions`. -/
structure EaSessionRow where
  id : Nat
  accountId : String
  revoked : Bool
  expiresAt : Millis
  absoluteExpiresAt : Millis
  lastPollAt : Option Millis

inductive ParentStatus where
  | received
  | routing
  | routed
  | partiallyRejected
  | submitted
  | completed
  | failed
deriving DecidableEq

/-- The parent statuses after which nothing more is expected. -/
def ParentStatus.terminal : ParentStatus → Bool
  | .partiallyRejected | .completed | .failed => true
  | _ => false

/-- `execution_commands`. -/
structure ExecutionCommandRow where
  id : String
  idempotencyKey : String
  sourceAccountId : Option String
  status : ParentStatus

inductive TargetStatus where
  | waiting
  | ready
  | rejected
  | queued
  | submitted
  | accepted
  | partiallyFilled
  | filled
  | cancelled
  | failed
  | unknown
deriving DecidableEq

/-- The `command_payload` column: a command, or the order that waits for its terminal. -/
inductive TargetPayload where
  | issued (command : EaCommand)
  | deferred (intent : OrderIntent) (target : AdminOrderTarget)
deriving DecidableEq

/-- The id an order gets on one target account. -/
def childId (parent accountId : String) : String := parent ++ ":" ++ accountId

/-- The id a payload is stored under. -/
def TargetPayload.commandId : TargetPayload → Option String
  | .issued command => command.commandId
  | .deferred intent target => some (childId intent.commandId target.accountId)

/-- `execution_target_commands`. The row is stored under its payload's own id. -/
structure TargetCommandRow where
  id : String
  parentCommandId : String
  targetAccountId : String
  idempotencyKey : String
  commandPayload : TargetPayload
  payload_id : commandPayload.commandId = some id
  status : TargetStatus
  rejectCode : Option String
  rejectMessage : Option String
  brokerOrderId : Option String
  brokerDealId : Option String
  attemptCount : Nat
  nextAttemptAt : Millis
  lease : Option (Nat × Millis)
  firstDeliveredAt : Option Millis
  terminalAckAt : Option Millis
  deliverBy : Option Millis
  createdAt : Millis

/-- The command queue of one owner. -/
structure CommandTables where
  accounts : List AccountRow
  sessions : List EaSessionRow
  parents : List ExecutionCommandRow
  commands : List TargetCommandRow

def CommandTables.empty : CommandTables := ⟨[], [], [], []⟩

namespace TargetCommandRow

/-- The command has its final outcome. -/
def terminal (row : TargetCommandRow) : Bool := row.terminalAckAt.isSome

/-- The lease lets another poll take the command. -/
def leaseFree (row : TargetCommandRow) (now : Millis) : Bool :=
  row.lease.all fun lease => lease.2 ≤ now

/-- The row counts against its account's queue limit. -/
def pending (row : TargetCommandRow) : Bool :=
  !row.terminal && (row.status = .waiting || row.status = .ready || row.status = .queued
    || row.status = .submitted || row.status = .unknown)

/-- `ORDER BY created_at, id`. -/
def precedes (first second : TargetCommandRow) : Bool :=
  first.createdAt < second.createdAt
    || (first.createdAt = second.createdAt && first.id ≤ second.id)

end TargetCommandRow

namespace CommandTables

def targetsOf (tables : CommandTables) (parentId : String) : List TargetCommandRow :=
  tables.commands.filter (·.parentCommandId = parentId)

/-- Some target of the parent has no final outcome yet. -/
def hasOpenTarget (tables : CommandTables) (parentId : String) : Bool :=
  (tables.targetsOf parentId).any fun row => !row.terminal

/-- `UPDATE execution_commands SET status = … WHERE id = ANY(…)`. -/
def setParents (tables : CommandTables) (ids : List String) (status : String → ParentStatus) :
    CommandTables :=
  { tables with
    parents := Table.updateWhere (fun parent => ids.contains parent.id)
      (fun parent => { parent with status := status parent.id }) tables.parents }

end CommandTables

end MarketLens.Store
