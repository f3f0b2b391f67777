import MarketLens.Store.Portfolio
import MarketLens.Domain.Ea
import MarketLens.Store.Copy

/-!
# Staging source changes

A complete snapshot of a source account is compared with the portfolio stored
before it. Each change a group copies becomes a row of the group's inbox, and for
every enabled target the work items of its operations, one for each leg concerned.

Row ids are drawn from a supply, as `gen_random_uuid()` hands them out: `randomId`
gives the ids in the order they are drawn, and nothing else is known about them.
-/

namespace MarketLens.Copier

open Std (TreeMap)
open Store

/-- The copier's tables, and how many row ids have been drawn. -/
structure Stage where
  tables : CopyTables
  drawn : Nat

/-- What staging takes from outside: hashing, serialization, the ids drawn, the ids of the target
commands that exist, and the transaction's time. -/
structure StageEnv where
  shortHash : String → String
  encodeChange : PortfolioChange → String
  randomId : Nat → Uuid
  issuedCommands : List String
  now : Time

/-! ## Fill evidence -/

/-- The order-to-position pairs the trade transactions of a batch report; a later one wins. -/
def pendingFillPositions (events : List EaEvent) : TreeMap String String compare :=
  events.foldl (fun evidence event =>
    match event with
    | .tradeTransaction transaction =>
      match transaction.brokerOrderId, transaction.brokerPositionId with
      | some orderId, some positionId => evidence.insert orderId positionId
      | _, _ => evidence
    | _ => evidence) ∅

/-! ## Superseding -/

/-- The operation a terminal change of a source entity makes obsolete. -/
def predecessorOperation : PortfolioChange → Option CopyOperation
  | .positionClosed _ => some .openMarket
  | .pendingReplaced _ _ | .pendingCancelled _ | .pendingFilled _ _ => some .placePending
  | _ => none

/-- The work item is an unissued predecessor of the change. -/
def obsoleteWork (env : StageEnv) (groupId : Uuid) (targetAccountId : String)
    (change : PortfolioChange) (operation : CopyOperation) (tables : CopyTables)
    (work : WorkRow) : Bool :=
  work.groupId = groupId && work.targetAccountId = targetAccountId
    && work.operation = operation && work.status.open
    && tables.inbox.any (fun inbox => inbox.id = work.inboxEventId && inbox.groupId = groupId
      && inbox.sourceEntityKind = copySourceEntityKind change
      && inbox.sourceEntityId = change.sourceResourceId)
    && !tables.outbox.any fun outbox => outbox.workItemId = work.id
      && outbox.commandId.any env.issuedCommands.contains

def supersedeReason (change : PortfolioChange) : String :=
  "superseded because source lifecycle advanced to " ++ change.kind ++ " before durable enqueue"

/-- `supersede_unissued_copier_predecessors`. -/
def supersedeUnissued (env : StageEnv) (groupId : Uuid) (targetAccountId : String)
    (change : PortfolioChange) (tables : CopyTables) : CopyTables :=
  match predecessorOperation change with
  | none => tables
  | some operation =>
    let obsolete := obsoleteWork env groupId targetAccountId change operation tables
    let ids := (tables.work.filter obsolete).map (·.id)
    { tables with
      work := Table.updateWhere obsolete
        (fun work => { work with
          status := .superseded, lastError := some (supersedeReason change), lease := none })
        tables.work
      outbox := Table.updateWhere
        (fun outbox => ids.contains outbox.workItemId && outbox.status ≠ .acknowledged)
        (fun outbox => { outbox with
          status := .deadLetter, lastError := some (supersedeReason change) })
        tables.outbox
      links := Table.updateWhere
        (fun link => link.groupId = groupId && link.targetAccountId = targetAccountId
          && link.metadata.workItemId.any ids.contains && link.lifecycleStatus = .pending
          && link.target.isNone)
        (fun link => { link with
          lifecycleStatus := .cancelled
          lastSourceEventId := some change.kind
          metadata := link.metadata.merge
            { LinkMetadata.empty with supersededReason := some (supersedeReason change) }
          revision := link.revision + 1
          updatedAt := env.now })
        tables.links }

/-! ## Target legs -/

/-- Two legs are carried by one target entity; a leg without one stands for itself. -/
def sameTarget (first second : LinkRow) : Bool :=
  match first.target, second.target with
  | none, none => first.targetLeg = second.targetLeg
  | some target, some other => target = other
  | _, _ => false

section
variable (groupId : Uuid) (targetAccountId : String) (change : PortfolioChange)

def liveLegs
    (tables : CopyTables) : List LinkRow :=
  tables.links.filter fun link =>
    link.isLegOf groupId targetAccountId (copySourceEntityKind change) change.sourceResourceId
      && link.lifecycleStatus.live

/-- `copier_work_target_legs`: every live leg for a partial close, the lowest leg of each target
entity for the other operations on existing entities. -/
def copierWorkTargetLegs
    (operation : CopyOperation) (tables : CopyTables) : List (Option Nat) :=
  if operation.isPlace then [none]
  else
    let live := liveLegs groupId targetAccountId change tables
    let chosen := if operation = .partialClose then live
      else live.filter fun link => live.all fun other =>
        !sameTarget link other || link.targetLeg ≤ other.targetLeg
    let legs := ((chosen.map (·.targetLeg)).dedup).insertionSort (· ≤ ·)
    if legs.isEmpty then [none] else legs.map some

end

/-! ## Work items -/

/-- `{:?}` of an optional leg. -/
def legText : Option Nat → String
  | none => "None"
  | some leg => "Some(" ++ toString leg ++ ")"

def sourceEventId (env : StageEnv) (groupId : Uuid) (sourceAccountId : String)
    (change : PortfolioChange) : String :=
  "snapshot:" ++ env.shortHash
    (uuidText groupId ++ ":" ++ sourceAccountId ++ ":" ++ change.kind ++ ":"
      ++ change.sourceResourceId ++ ":" ++ env.shortHash (env.encodeChange change))

def workIdempotencyKey (env : StageEnv) (groupId : Uuid) (targetAccountId eventId : String)
    (operation : CopyOperation) (operationIndex : Nat) (leg : Option Nat) : String :=
  "cpw:" ++ env.shortHash
    (uuidText groupId ++ ":" ++ targetAccountId ++ ":" ++ eventId ++ ":" ++ operation.name ++ ":"
      ++ toString operationIndex ++ ":" ++ legText leg)

/-- What the work items of one change on one target share. -/
structure WorkOrigin where
  group : CopyGroupRow
  sourceAccountId : String
  target : CopyTargetRow
  change : PortfolioChange
  eventId : String
  inboxId : Uuid

def groupConfigOf (group : CopyGroupRow) : ContinuousCopyConfig := group.configuration.getD {}

section
variable (env : StageEnv)

section
variable (origin : WorkOrigin) (operation : CopyOperation) (operationIndex : Nat)

def workRow (leg : Option Nat) (id : Uuid) : WorkRow where
  id := id
  groupId := origin.group.id
  targetAccountId := origin.target.accountId
  inboxEventId := origin.inboxId
  operation := operation
  idempotencyKey := workIdempotencyKey env origin.group.id origin.target.accountId
    origin.eventId operation operationIndex leg
  payload :=
    { change := origin.change
      sourceAccountId := some origin.sourceAccountId
      groupConfig := groupConfigOf origin.group
      targetConfig := origin.target.configuration.getD legacyCopyTargetConfig
      targetLeg := leg
      phase := none }
  status := .pending
  attemptCount := 0
  availableAt := env.now
  lease := none
  lastError := none
  createdAt := env.now

/-- Insert a work item, unless one with its key is there. -/
def stageWork (stage : Stage) (leg : Option Nat) : Stage :=
  let row := workRow env origin operation operationIndex leg (env.randomId stage.drawn)
  if stage.tables.work.any fun work => work.groupId = row.groupId
      && work.targetAccountId = row.targetAccountId
      && work.idempotencyKey = row.idempotencyKey then stage
  else ⟨{ stage.tables with work := stage.tables.work ++ [row] }, stage.drawn + 1⟩

end

/-- The work items of one operation, one for each leg. -/
def stageOperation (origin : WorkOrigin) (stage : Stage)
    (entry : CopyOperation × Nat) : Stage :=
  let legs := copierWorkTargetLegs origin.group.id origin.target.accountId origin.change entry.1
    stage.tables
  legs.foldl (stageWork env origin entry.1 entry.2) stage

/-- The work items of one change on one target. -/
def stageTarget (origin : WorkOrigin) (operations : List CopyOperation)
    (stage : Stage) : Stage :=
  let superseded :=
    supersedeUnissued env origin.group.id origin.target.accountId origin.change stage.tables
  operations.zipIdx.foldl (stageOperation env origin) ⟨superseded, stage.drawn⟩

/-! ## Changes -/

def inboxRow (group : CopyGroupRow) (sourceAccountId : String)
    (change : PortfolioChange) (id : Uuid) : InboxRow where
  id := id
  groupId := group.id
  sourceAccountId := sourceAccountId
  sourceEventId := sourceEventId env group.id sourceAccountId change
  eventType := change.kind
  sourceEntityKind := copySourceEntityKind change
  sourceEntityId := change.sourceResourceId
  payload := change
  occurredAtMs := max change.observedAtMs 1
  status := .pending

def enabledTargets (groupId : Uuid) (tables : CopyTables) : List CopyTargetRow :=
  (tables.targets.filter fun target => target.groupId = groupId && target.enabled).insertionSort
    fun first second => first.accountId ≤ second.accountId

def groupTakes (group : CopyGroupRow) (change : PortfolioChange) : Bool :=
  copyChangeAllowed change (groupConfigOf group)
    && (group.runtimeStatus ≠ .paused || copyChangeAllowedWhilePaused change)

/-- One round of the loop over the changes: nothing, when the change was taken in before. -/
def stageChange (group : CopyGroupRow) (sourceAccountId : String)
    (targets : List CopyTargetRow) (stage : Stage) (change : PortfolioChange) : Stage :=
  let inbox := inboxRow env group sourceAccountId change (env.randomId stage.drawn)
  if stage.tables.inbox.any fun row => row.groupId = inbox.groupId
      && row.sourceAccountId = inbox.sourceAccountId
      && row.sourceEventId = inbox.sourceEventId then stage
  else
    let taken : Stage :=
      ⟨{ stage.tables with inbox := stage.tables.inbox ++ [inbox] }, stage.drawn + 1⟩
    let operations :=
      copyWorkOperationsForRuntime change (groupConfigOf group) group.runtimeStatus
    let staged := targets.foldl (fun stage target =>
      stageTarget env ⟨group, sourceAccountId, target, change, inbox.sourceEventId, inbox.id⟩
        operations stage) taken
    let status := if staged.tables.work.length > taken.tables.work.length then InboxStatus.processed
      else .ignored
    let settled := Table.updateWhere (fun row : InboxRow => row.id = inbox.id)
      (fun row => { row with status := status }) staged.tables.inbox
    ⟨{ staged.tables with inbox := settled }, staged.drawn⟩

/-- One round of the loop over the groups. -/
def stageGroup (sourceAccountId : String) (changes : List PortfolioChange)
    (stage : Stage) (group : CopyGroupRow) : Stage :=
  let targets := enabledTargets group.id stage.tables
  let staged := (changes.filter (groupTakes group)).foldl
    (stageChange env group sourceAccountId targets) stage
  let groups := Table.updateWhere (fun row : CopyGroupRow => row.id = group.id && row.enabled)
    (fun row => { row with
      runtimeStatus := if row.runtimeStatus = .paused then .paused else .active })
    staged.tables.groups
  ⟨{ staged.tables with groups := groups }, staged.drawn⟩

def activeGroups (sourceAccountId : String) (tables : CopyTables) : List CopyGroupRow :=
  (tables.groups.filter fun group => group.sourceAccountId = sourceAccountId && group.enabled
    && group.runtimeStatus ≠ .error).insertionSort fun first second => first.id ≤ second.id

/-- `stage_continuous_copy_changes`. -/
def stageContinuousCopyChanges (sourceAccountId : String)
    (positions : List EaPositionSnapshot) (pendingOrders : List EaPendingOrderSnapshot)
    (events : List EaEvent) (portfolio : PortfolioTables) (stage : Stage) : Stage :=
  let groups := activeGroups sourceAccountId stage.tables
  let changes := diffPortfolio (portfolio.positionsOf sourceAccountId)
    (portfolio.pendingOrdersOf sourceAccountId) positions pendingOrders
    (pendingFillPositions events)
  if changes.isEmpty then stage
  else groups.foldl (stageGroup env sourceAccountId changes) stage

end

end MarketLens.Copier
