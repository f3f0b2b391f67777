import MarketLens.Lib.Table
import MarketLens.Copier.Operations

/-!
# The copier's tables

The rows of one owner in the tables the continuous copier works with: groups and
their targets, the lifecycle inbox, the work items, the command outbox and the
links between source and target entities. Every statement of the gateway filters
on the owner, so one owner's rows are all a model of it needs.

A row id is the 128-bit number of its UUID; times are clock readings. A lease is
an owner together with its expiry, and a link's target a kind together with a
ticket: the columns that a CHECK constraint keeps both null or both set are one
optional pair.
-/

namespace MarketLens.Store

open MarketLens.Copier

abbrev Uuid := Nat
abbrev Time := Nat

/-- The text of a UUID, as it enters identities and metadata. -/
def uuidText (id : Uuid) : String := toString id

structure CopyGroupRow where
  id : Uuid
  name : String
  sourceAccountId : String
  enabled : Bool
  revision : Nat
  runtimeStatus : CopyGroupRuntimeStatus
  /-- The configuration column; absent when it does not decode. -/
  configuration : Option ContinuousCopyConfig
deriving DecidableEq

structure CopyTargetRow where
  groupId : Uuid
  accountId : String
  enabled : Bool
  revision : Nat
  runtimeStatus : CopyTargetRuntimeStatus
  /-- The configuration column; absent when it does not decode. -/
  configuration : Option ContinuousCopyTargetConfig
deriving DecidableEq

inductive InboxStatus where
  | pending
  | processed
  | ignored
deriving DecidableEq

/-- `execution_copy_lifecycle_inbox`: one source transition a group has taken in. -/
structure InboxRow where
  id : Uuid
  groupId : Uuid
  sourceAccountId : String
  sourceEventId : String
  eventType : String
  sourceEntityKind : EntityKind
  sourceEntityId : String
  payload : PortfolioChange
  occurredAtMs : Nat
  status : InboxStatus
deriving DecidableEq

/-- `CopierWorkPayload`: what a work item needs to be carried out. -/
structure CopierWorkPayload where
  change : PortfolioChange
  sourceAccountId : Option String
  groupConfig : ContinuousCopyConfig
  targetConfig : ContinuousCopyTargetConfig
  targetLeg : Option Nat
  phase : Option String
deriving DecidableEq

inductive WorkStatus where
  | pending
  | leased
  | retry
  | succeeded
  | deadLetter
  | superseded
deriving DecidableEq

/-- The statuses a work item can still be claimed in. -/
def WorkStatus.open : WorkStatus → Bool
  | .pending | .leased | .retry => true
  | _ => false

/-- A lease: its holder and when it runs out. -/
structure Lease where
  owner : Uuid
  expiresAt : Time
deriving DecidableEq

/-- `execution_copy_work_items`. -/
structure WorkRow where
  id : Uuid
  groupId : Uuid
  targetAccountId : String
  inboxEventId : Uuid
  operation : CopyOperation
  idempotencyKey : String
  payload : CopierWorkPayload
  status : WorkStatus
  attemptCount : Nat
  availableAt : Time
  lease : Option Lease
  lastError : Option String
  createdAt : Time
deriving DecidableEq

inductive OutboxStatus where
  | pending
  | publishing
  | published
  | acknowledged
  | retry
  | deadLetter
deriving DecidableEq

/-- The outbox statuses that still hold later work of the target back. -/
def OutboxStatus.open : OutboxStatus → Bool
  | .pending | .publishing | .published | .retry => true
  | _ => false

/-- The `command_payload` column: the command, and what a partial close leaves behind. -/
structure OutboxPayload where
  command : EaCommand
  copierSourceRemaining : Option Decimal
  copierTargetRemaining : Option Decimal
deriving DecidableEq

/-- `execution_copy_command_outbox`, unique by work item. -/
structure OutboxRow where
  groupId : Uuid
  targetAccountId : String
  workItemId : Uuid
  targetCommandId : Option String
  idempotencyKey : String
  commandType : String
  commandPayload : OutboxPayload
  status : OutboxStatus
  lastError : Option String
  createdAt : Time
deriving DecidableEq

/-- The command an outbox row stands for, issued or not. -/
def OutboxRow.commandId (row : OutboxRow) : Option String :=
  row.targetCommandId <|> row.commandPayload.command.commandId

inductive LinkStatus where
  | pending
  | active
  | closing
  | closed
  | cancelled
  | orphaned
  | error
deriving DecidableEq

/-- `NOT IN ('closed', 'cancelled', 'orphaned')`. -/
def LinkStatus.live : LinkStatus → Bool
  | .closed | .cancelled | .orphaned => false
  | _ => true

/-- `NOT IN ('closed', 'cancelled')`. -/
def LinkStatus.unfinished : LinkStatus → Bool
  | .closed | .cancelled => false
  | _ => true

/-- The metadata keys the copier reads. -/
structure LinkMetadata where
  commandId : Option String
  workItemId : Option Uuid
  lastCommandId : Option String
  lastWorkItemId : Option Uuid
  expectedTargetKind : Option EntityKind
  venueSymbol : Option String
  canonicalSymbol : Option String
  side : Option Side
  originatingPendingOrderId : Option String
  supersededReason : Option String
deriving DecidableEq

/-- `jsonb || jsonb`: the keys of the right object win. -/
def LinkMetadata.merge (old new : LinkMetadata) : LinkMetadata where
  commandId := new.commandId <|> old.commandId
  workItemId := new.workItemId <|> old.workItemId
  lastCommandId := new.lastCommandId <|> old.lastCommandId
  lastWorkItemId := new.lastWorkItemId <|> old.lastWorkItemId
  expectedTargetKind := new.expectedTargetKind <|> old.expectedTargetKind
  venueSymbol := new.venueSymbol <|> old.venueSymbol
  canonicalSymbol := new.canonicalSymbol <|> old.canonicalSymbol
  side := new.side <|> old.side
  originatingPendingOrderId := new.originatingPendingOrderId <|> old.originatingPendingOrderId
  supersededReason := new.supersededReason <|> old.supersededReason

def LinkMetadata.empty : LinkMetadata :=
  ⟨none, none, none, none, none, none, none, none, none, none⟩

/-- `execution_copy_links`: one leg of a source entity on one target. -/
structure LinkRow where
  groupId : Uuid
  sourceAccountId : String
  targetAccountId : String
  sourceEntityKind : EntityKind
  sourceEntityId : String
  targetLeg : Nat
  /-- The target entity, once its ticket is known. -/
  target : Option (EntityKind × String)
  lifecycleStatus : LinkStatus
  sourceQuantity : Option Decimal
  targetQuantity : Option Decimal
  lastSourceEventId : Option String
  revision : Nat
  metadata : LinkMetadata
  updatedAt : Time
deriving DecidableEq

def LinkRow.isLegOf (link : LinkRow) (groupId : Uuid) (targetAccountId : String)
    (kind : EntityKind) (entityId : String) : Bool :=
  link.groupId = groupId && link.targetAccountId = targetAccountId
    && link.sourceEntityKind = kind && link.sourceEntityId = entityId

/-- The links are one leg: a unique key allows no second one. -/
def LinkRow.sameLeg (link other : LinkRow) : Bool :=
  link.isLegOf other.groupId other.targetAccountId other.sourceEntityKind other.sourceEntityId
    && link.targetLeg = other.targetLeg

/-- The link carries the work item's id. -/
def LinkRow.taggedBy (link : LinkRow) (workId : Uuid) : Bool :=
  link.metadata.lastWorkItemId = some workId || link.metadata.workItemId = some workId

/-- `($n::integer IS NULL OR target_leg = $n)`. -/
def LinkRow.onLeg (link : LinkRow) (leg : Option Nat) : Bool :=
  leg.all (link.targetLeg = ·)

/-- The copier's tables of one owner. -/
structure CopyTables where
  groups : List CopyGroupRow
  targets : List CopyTargetRow
  inbox : List InboxRow
  work : List WorkRow
  outbox : List OutboxRow
  links : List LinkRow
deriving DecidableEq

end MarketLens.Store
