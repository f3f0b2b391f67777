import Mathlib.Data.List.MinMax
import MarketLens.Copier.Command

/-!
# Carrying out a work item

The transactions around the command of a work item. It is persisted in the outbox
together with the links it opens or concerns, then enqueued for its account, then
published: the outbox row records the id of the target command and the links of a
source entity that is gone are marked as closing. An item may also end without a
command, be superseded, adopt a fill, or fail.

Each function but the last is one transaction. It returns the tables it commits, or an
error and then nothing has changed.
-/

namespace MarketLens.Copier

open Store Fallible

/-! ## Persisting a command -/

def copierCommandType : EaCommand → String
  | .place _ => "place"
  | .modifyPosition _ => "modify_position"
  | .modifyPendingOrder _ => "modify_pending"
  | .closePosition _ => "close_position"
  | .cancelOrder _ => "cancel_pending"
  | .sync => "sync"

def copierSourceQuantity : PortfolioChange → Option Decimal
  | .positionOpened current => some current.quantity
  | .positionIncreased _ _ delta => some delta
  | .pendingFilled previous _ => some previous.quantity
  | .pendingCreated current
  | .pendingModified _ current
  | .pendingReplaced _ current => some current.quantity
  | _ => none

section Persist

variable (env : WorkEnv) (tables : CopyTables) (work : WorkRow)

/-- The volumes a partial close leaves on the two sides of its leg. -/
def remainingQuantities (command : EaCommand) : Option (Decimal × Decimal) :=
  match work.operation, command, work.payload.change with
  | .partialClose, .closePosition close, .positionReduced previous current delta => do
    let closed ← close.quantity
    let prior ← (((entityLinks tables work).filter fun link =>
      link.onLeg work.payload.targetLeg && link.lifecycleStatus.live
        && link.targetQuantity.isSome).insertionSort fun a b => legOrder a b).head?
    let held ← prior.targetQuantity
    let sourceRemaining := match prior.sourceQuantity with
      | some quantity =>
        if previous.quantity > 0 then max (quantity - delta * quantity / previous.quantity) 0
        else current.quantity
      | none => current.quantity
    return (sourceRemaining, max (held - closed) 0)
  | _, _, _ => none

def outboxRow (command : EaCommand) : OutboxRow :=
  let remaining := remainingQuantities tables work command
  { groupId := work.groupId
    targetAccountId := work.targetAccountId
    workItemId := work.id
    targetCommandId := none
    idempotencyKey :=
      "cpo:" ++ env.shortHash (uuidText work.id ++ ":" ++ work.idempotencyKey)
    commandType := if work.operation = .partialClose then "partial_close"
      else copierCommandType command
    commandPayload := ⟨command, remaining.map (·.1), remaining.map (·.2)⟩
    status := .pending
    lastError := none
    createdAt := env.now }

/-- The changes that open another leg of their source entity. -/
def opensLeg : PortfolioChange → Bool
  | .pendingReplaced .. | .pendingFilled .. | .positionIncreased .. => true
  | _ => false

/-- The leg the order's link gets: the one it has already, or the next free one. -/
def linkTargetLeg (order : RoutedOrder) : Nat :=
  let (kind, entityId) := copierLinkSourceIdentity work.payload.change work.operation
  if opensLeg work.payload.change then
    let legs := tables.links.filter (·.isLegOf work.groupId work.targetAccountId kind entityId)
    match legs.find? (·.metadata.commandId = some order.commandId) with
    | some link => link.targetLeg
    | none => (((legs.map (·.targetLeg)).max?).map (· + 1)).getD 0
  else work.payload.targetLeg.getD 0

def orderMetadata (order : RoutedOrder) : LinkMetadata :=
  { LinkMetadata.empty with
    commandId := some order.commandId
    venueSymbol := some order.venueSymbol
    canonicalSymbol := some order.canonicalSymbol
    side := some order.side
    workItemId := some work.id
    expectedTargetKind := some (if order.kind = .market then .position else .pendingOrder) }

/-- The link an order opens, before its ticket is known. -/
def orderLink (group : CopyGroupRow) (order : RoutedOrder) (leg : Nat) : LinkRow :=
  let (kind, entityId) := copierLinkSourceIdentity work.payload.change work.operation
  { groupId := work.groupId
    sourceAccountId := group.sourceAccountId
    targetAccountId := work.targetAccountId
    sourceEntityKind := kind
    sourceEntityId := entityId
    targetLeg := leg
    target := none
    lifecycleStatus := .pending
    sourceQuantity := copierSourceQuantity work.payload.change
    targetQuantity := some order.quantity
    lastSourceEventId := some work.payload.change.kind
    revision := 1
    metadata := orderMetadata work order
    updatedAt := env.now }

/-- `ON CONFLICT … DO UPDATE`: the leg that is there takes over the new order. -/
def reuseLink (new link : LinkRow) : LinkRow :=
  { link with
    lifecycleStatus := if link.lifecycleStatus = .active || link.lifecycleStatus = .closing
      then link.lifecycleStatus else .pending
    sourceQuantity := new.sourceQuantity
    targetQuantity := new.targetQuantity
    lastSourceEventId := new.lastSourceEventId
    metadata := link.metadata.merge new.metadata
    revision := link.revision + 1
    updatedAt := new.updatedAt }

/-- Insert a link, or reuse the leg that is there. -/
def upsertLink (new : LinkRow) (links : List LinkRow) : List LinkRow :=
  if links.any (·.sameLeg new) then Table.updateWhere (·.sameLeg new) (reuseLink new) links
  else links ++ [new]

/-- The legs a command that is not an order concerns. -/
def concerns (link : LinkRow) : Bool :=
  link.isLegOf work.groupId work.targetAccountId (copySourceEntityKind work.payload.change)
    work.payload.change.sourceResourceId
    && link.onLeg work.payload.targetLeg && link.lifecycleStatus.live

/-- A leg remembers the last command that concerned it. -/
def tagLink (commandId : String) (link : LinkRow) : LinkRow :=
  { link with
    metadata := link.metadata.merge
      { LinkMetadata.empty with lastCommandId := some commandId, lastWorkItemId := some work.id }
    lastSourceEventId := some work.payload.change.kind
    revision := link.revision + 1
    updatedAt := env.now }

def persistedLinks (group : CopyGroupRow) (command : EaCommand) : List LinkRow :=
  match command with
  | .place order =>
    upsertLink (orderLink env work group order (linkTargetLeg tables work order)) tables.links
  | command =>
    match command.commandId with
    | none => tables.links
    | some commandId =>
      Table.updateWhere (concerns work) (tagLink env work commandId) tables.links

/-- `persist_copier_outbox`. -/
def persistCopierOutbox (command : EaCommand) : Except CopierWorkError CopyTables := do
  let group ← require (tables.groups.find? fun group => group.id = work.groupId && group.enabled)
    (.permanent "COPY_GROUP_NOT_ACTIVE"
      "the copier group was disabled before its command could be persisted")
  refuseIf (group.runtimeStatus = .paused
      && !copierOperationAllowedWhilePaused work.operation work.payload.phase)
    (.retry "COPY_GROUP_PAUSED"
      "risk-increasing copier work was paused before command persistence")
  refuseIf (!tables.work.any fun row => row.id = work.id && row.groupId = work.groupId
      && row.status = .leased && tables.targets.any fun target => target.groupId = row.groupId
        && target.accountId = row.targetAccountId && target.enabled)
    (.permanent "COPY_WORK_SUPERSEDED"
      "the copier work item or target was superseded before command persistence")
  let row := outboxRow env tables work command
  -- another item holds the key
  refuseIf (tables.outbox.any fun other => other.workItemId ≠ row.workItemId
      && other.idempotencyKey = row.idempotencyKey) (.api internalError)
  refuseIf (tables.outbox.any fun other => other.workItemId = row.workItemId
      && other.commandPayload ≠ row.commandPayload)
    (.permanent "COPY_OUTBOX_IDEMPOTENCY_CONFLICT"
      "the copier work item already has a different immutable command payload")
  return { tables with
    outbox := Table.insertUnless (·.workItemId = row.workItemId) row tables.outbox
    links := persistedLinks env tables work group command }

end Persist

/-- What a persisted command was checked against, and what it leaves behind. -/
theorem persistCopierOutbox_ok {env : WorkEnv} {tables after : CopyTables} {work : WorkRow} {command : EaCommand}
    (h : persistCopierOutbox env tables work command = .ok after) : ∃ group,
    tables.groups.find? (fun group => group.id = work.groupId && group.enabled) = some group ∧
    (tables.work.any fun row => row.id = work.id && row.groupId = work.groupId
      && row.status = .leased && tables.targets.any fun target => target.groupId = row.groupId
        && target.accountId = row.targetAccountId && target.enabled) = true ∧
    after = { tables with
      outbox := Table.insertUnless (·.workItemId = work.id) (outboxRow env tables work command) tables.outbox
      links := persistedLinks env tables work group command } := by
  obtain ⟨group, hgrp, h⟩ := bind_ok.mp h
  obtain ⟨-, h⟩ := unit_bind_ok.mp h
  obtain ⟨hwork, h⟩ := unit_bind_ok.mp h
  obtain ⟨-, h⟩ := unit_bind_ok.mp h
  obtain ⟨-, h⟩ := unit_bind_ok.mp h
  rw [refuseIf_ok, Bool.not_eq_false'] at hwork
  exact ⟨group, require_ok.mp hgrp, hwork, (Except.ok.inj h).symm⟩

/-! ## Publishing a command -/

/-- The outbox row records the command that was issued for it. -/
def publishRow (targetCommandId : String) (row : OutboxRow) : OutboxRow :=
  { row with targetCommandId := some targetCommandId, status := .published }

/-- The changes after which the source entity, as it was, is gone. -/
def endsSource : PortfolioChange → Bool
  | .positionClosed _ | .pendingCancelled _ | .pendingReplaced _ _ => true
  | _ => false

def closeLink (now : Time) (link : LinkRow) : LinkRow :=
  { link with lifecycleStatus := .closing, revision := link.revision + 1, updatedAt := now }

section Publish

variable (env : WorkEnv) (tables : CopyTables)

def marksClosing (workId : Uuid) (change : PortfolioChange) (link : LinkRow) : Bool :=
  (tables.work.any fun row => row.id = workId
      && link.isLegOf row.groupId row.targetAccountId (copySourceEntityKind change)
        change.sourceResourceId)
    && link.taggedBy workId && link.lifecycleStatus.unfinished

/-- `publish_copier_outbox`. The target command has to exist: a foreign key says so. -/
def publishCopierOutbox (workId : Uuid) (targetCommandId : String) (change : PortfolioChange) :
    Except CopierWorkError CopyTables := do
  let publishes := fun (row : OutboxRow) => row.workItemId = workId && row.status.open
  refuseIf (tables.outbox.any publishes && !env.issuedCommands.contains targetCommandId)
    (.api internalError)
  return { tables with
    outbox := Table.updateWhere publishes (publishRow targetCommandId) tables.outbox
    work := Table.updateWhere
      (fun row => row.id = workId && (row.status = .leased || row.status = .succeeded))
      (fun row => { row with status := .succeeded, lease := none, lastError := none })
      tables.work
    links := if endsSource change then
        Table.updateWhere (marksClosing tables workId change) (closeLink env.now) tables.links
      else tables.links }

end Publish

/-! ## Other ends of a work item -/

section Ends

variable (env : WorkEnv) (tables : CopyTables) (work : WorkRow)

/-- `complete_continuous_copier_work`: there was nothing to do. -/
def completeContinuousCopierWork : CopyTables :=
  { tables with
    work := Table.updateWhere (fun row => row.id = work.id && row.status.open)
      (fun row => { row with status := .succeeded, lastError := none, lease := none })
      tables.work }

/-- `supersede_continuous_copier_work`. -/
def supersedeContinuousCopierWork (reason : String) : Except CopierWorkError CopyTables := do
  refuseIf (copierWorkTargetCommandExists tables work env.issuedCommands)
    (.retry "COPY_COMMAND_ALREADY_ISSUED"
      ("the stale copier work already has a durable target command and must reconcile "
        ++ "idempotently"))
  return { tables with
    work := Table.updateWhere (fun row => row.id = work.id && row.status.open)
      (fun row => { row with
        status := .superseded, lastError := some reason, lease := none }) tables.work
    outbox := Table.updateWhere
      (fun row => row.workItemId = work.id && row.status ≠ .published
        && row.status ≠ .acknowledged)
      (fun row => { row with status := .deadLetter, lastError := some reason }) tables.outbox
    links := Table.updateWhere
      (fun link => link.isLegOf work.groupId work.targetAccountId
          (copySourceEntityKind work.payload.change) work.payload.change.sourceResourceId
        && link.metadata.workItemId = some work.id && link.lifecycleStatus = .pending)
      (fun link => { link with
        lifecycleStatus := .cancelled
        lastSourceEventId := some work.payload.change.kind
        metadata := link.metadata.merge
          { LinkMetadata.empty with supersededReason := some reason }
        revision := link.revision + 1
        updatedAt := env.now }) tables.links }

/-- How often a work item is tried. -/
def maxWorkAttempts : Nat := 12

/-- The seconds before the next attempt. -/
def retrySeconds (attemptCount : Nat) : Nat := 2 ^ min attemptCount 8

/-- `fail_continuous_copier_work`. -/
def failContinuousCopierWork (attemptCount : Nat) (failure : CopierWorkError) : CopyTables :=
  let willRetry := failure.retryable && attemptCount < maxWorkAttempts
  if tables.work.any fun row => row.id = work.id && row.status.open then
    { tables with
      work := Table.updateWhere (fun row => row.id = work.id && row.status.open)
        (fun row => { row with
          status := if willRetry then .retry else .deadLetter
          availableAt := if willRetry then env.now + retrySeconds attemptCount * 1000
            else row.availableAt
          lastError := some failure.message
          lease := none }) tables.work
      outbox := Table.updateWhere
        (fun row => row.workItemId = work.id && row.status ≠ .published
          && row.status ≠ .acknowledged)
        (fun row => { row with
          status := if willRetry then .retry else .deadLetter
          lastError := some failure.message }) tables.outbox
      targets := Table.updateWhere
        (fun target => target.groupId = work.groupId && target.accountId = work.targetAccountId)
        (fun target => { target with
          runtimeStatus := if willRetry then .waiting else .error }) tables.targets
      groups := Table.updateWhere
        (fun group => group.id = work.groupId && group.runtimeStatus ≠ .paused)
        (fun group => { group with
          runtimeStatus := if willRetry then .degraded else .error }) tables.groups }
  else tables

/-- The link of a filled pending order moves to the position it became. -/
def adoptLink (previous : EaPendingOrderSnapshot) (position : EaPositionSnapshot)
    (candidate : String) (links : List LinkRow) (link : LinkRow) : LinkRow :=
  let legs := links.filter fun other => other.isLegOf link.groupId link.targetAccountId .position
    position.brokerPositionId && !other.sameLeg link
  { link with
    sourceEntityKind := .position
    sourceEntityId := position.brokerPositionId
    target := some (.position, candidate)
    targetLeg := if legs.any (·.targetLeg = link.targetLeg)
      then (((legs.map (·.targetLeg)).max?).map (· + 1)).getD 0 else link.targetLeg
    sourceQuantity := some previous.quantity
    lastSourceEventId := some "pending.filled"
    metadata := link.metadata.merge
      { LinkMetadata.empty with originatingPendingOrderId := some previous.brokerOrderId }
    lifecycleStatus := .active
    revision := link.revision + 1
    updatedAt := env.now }

def fillLink (previous : EaPendingOrderSnapshot) : Option LinkRow :=
  ((tables.links.filter fun link =>
    link.isLegOf work.groupId work.targetAccountId .pendingOrder previous.brokerOrderId
      && link.onLeg work.payload.targetLeg && link.lifecycleStatus.unfinished).insertionSort
        fun first second => first.targetLeg ≤ second.targetLeg).head?

/-- `reconcile_continuous_copy_target`, whose statements commit one by one, here with nothing between
them. `candidate` is the target position that the events and the portfolio of the target account suggest
for a link. -/
def reconcileContinuousCopyTarget (candidate : LinkRow → Option String) :
    Except CopierWorkError CopyTables :=
  match work.payload.change with
  | .pendingFilled previous position =>
    match fillLink tables work previous with
    | none => .ok (completeContinuousCopierWork tables work)
    | some link => do
      refuseIf (link.lifecycleStatus = .error || link.lifecycleStatus = .orphaned)
        (.retry "COPY_PENDING_FILL_LINK_UNRESOLVED"
          ("the target pending link is unresolved and requires reconciliation before fill "
            ++ "adoption"))
      refuseIf (link.target.any fun target =>
          (env.portfolio.pendingOrdersOf work.targetAccountId).any
            (·.brokerOrderId = target.2))
        (.retry "COPY_PENDING_FILL_WAIT"
          "source pending order filled while the target pending order is still open")
      let found ← require (candidate link)
        (.retry "COPY_PENDING_FILL_UNRESOLVED"
          "target pending fill has not appeared in its portfolio snapshot yet")
      return completeContinuousCopierWork { tables with
        links := Table.updateWhere (· = link)
          (adoptLink env previous position found tables.links) tables.links } work
  | _ => .ok (completeContinuousCopierWork tables work)

end Ends

/-! ## Claiming work -/

def isBefore (first second : WorkRow) : Bool :=
  first.createdAt < second.createdAt || first.createdAt = second.createdAt && first.id < second.id

/-- The earlier item of the target is not done yet, or its command is not settled. -/
def holdsBack (tables : CopyTables) (work prior : WorkRow) : Bool :=
  prior.groupId = work.groupId && prior.targetAccountId = work.targetAccountId && isBefore prior work
    && (prior.status.open || tables.outbox.any fun row => row.workItemId = prior.id && row.status.open)

def claimable (tables : CopyTables) (now : Time) (work : WorkRow) : Bool :=
  work.status.open && work.availableAt ≤ now && work.lease.all (·.expiresAt ≤ now)
    && tables.groups.any (fun group => group.id = work.groupId && group.enabled && group.runtimeStatus ≠ .error
      && (group.runtimeStatus ≠ .paused || copierOperationAllowedWhilePaused work.operation work.payload.phase))
    && tables.targets.any (fun target => target.groupId = work.groupId && target.accountId = work.targetAccountId
      && target.enabled)
    && !tables.work.any (holdsBack tables work)

/-- The claim of `process_continuous_copier_work`: the 32 earliest items, without those whose rows are `locked`. -/
def claimCopierWork (tables : CopyTables) (workerId : Uuid) (now : Time) (locked : List Uuid) : CopyTables :=
  let free := tables.work.filter fun work => claimable tables now work && !locked.contains work.id
  let candidates := (free.insertionSort fun first second => !isBefore second first).take 32
  { tables with
    work := Table.updateWhere (fun work => candidates.any (·.id = work.id))
      (fun work => { work with
        status := .leased, lease := some ⟨workerId, now + 30000⟩, attemptCount := work.attemptCount + 1 })
      tables.work }

end MarketLens.Copier
