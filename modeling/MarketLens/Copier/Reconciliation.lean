import MarketLens.Copier.Outbox
import MarketLens.Copier.Staging

/-!
# Comparing links with portfolios

A pass over a group reads its unfinished links with the portfolios of their accounts in one
statement and then writes each link by its id, whatever has become of it since. A row is never
deleted, so its place in the table stands for the id.
-/

namespace MarketLens.Copier

open Store

/-! ## Generated work -/

section Generated

variable (env : StageEnv) (group : CopyGroupRow) (target : CopyTargetRow) (link : LinkRow) (change : PortfolioChange)
  (operation : CopyOperation) (phase : String)

def generatedEventId : String :=
  phase ++ ":" ++ env.shortHash (uuidText group.id ++ ":" ++ target.accountId ++ ":" ++ operation.name ++ ":"
    ++ toString link.targetLeg ++ ":" ++ env.shortHash (env.encodeChange change))

def generatedWork (inboxId id : Uuid) : WorkRow :=
  let eventId := generatedEventId env group target link change operation phase
  let row := workRow env ⟨group, link.sourceAccountId, target, change, eventId, inboxId⟩ operation 0 (some link.targetLeg) id
  { row with
    idempotencyKey := "cpw:" ++ env.shortHash
      (eventId ++ ":" ++ target.accountId ++ ":" ++ operation.name ++ ":" ++ toString link.targetLeg)
    payload := { row.payload with phase := some phase } }

/-- `stage_generated_copier_work`: work for a change that no snapshot has shown. -/
def stageGeneratedCopierWork (stage : Stage) : Stage :=
  let inbox := { inboxRow env group link.sourceAccountId change (env.randomId stage.drawn) with
    sourceEventId := generatedEventId env group target link change operation phase
    eventType := "protection." ++ phase
    status := .processed }
  if stage.tables.inbox.any fun row => row.groupId = inbox.groupId
      && row.sourceAccountId = inbox.sourceAccountId && row.sourceEventId = inbox.sourceEventId then stage
  else
    let taken := { stage.tables with inbox := stage.tables.inbox ++ [inbox] }
    let row := generatedWork env group target link change operation phase inbox.id (env.randomId (stage.drawn + 1))
    if taken.work.any fun work => work.groupId = row.groupId && work.targetAccountId = row.targetAccountId
        && work.idempotencyKey = row.idempotencyKey then ⟨taken, stage.drawn + 1⟩
    else ⟨{ taken with work := taken.work ++ [row] }, stage.drawn + 2⟩

end Generated

/-! ## The pass -/

section Pass

variable (picture : CopyTables) (portfolio : PortfolioTables) (groupId : Uuid) (seen : LinkRow)

/-- The group and the target a link is read with, if the pass reads it. -/
def readWith : Option (CopyGroupRow × CopyTargetRow) :=
  if seen.groupId = groupId && seen.lifecycleStatus.unfinished then do
    let group ← picture.groups.find? (·.id = groupId)
    let target ← picture.targets.find? fun target => target.groupId = groupId && target.accountId = seen.targetAccountId
    return (group, target)
  else none

/-- `source_snapshot.is_some()`. -/
def sourcePresent : Bool :=
  match seen.sourceEntityKind with
  | .position => (portfolio.positionsOf seen.sourceAccountId).any (·.brokerPositionId = seen.sourceEntityId)
  | .pendingOrder => (portfolio.pendingOrdersOf seen.sourceAccountId).any (·.brokerOrderId = seen.sourceEntityId)

/-- What is there of the target, as the change that ends the source. -/
def targetEnd : Option PortfolioChange :=
  match seen.target with
  | none => none
  | some (.position, ticket) =>
    ((portfolio.positionsOf seen.targetAccountId).find? (·.brokerPositionId = ticket)).map fun position =>
      .positionClosed { position with brokerPositionId := seen.sourceEntityId }
  | some (.pendingOrder, ticket) =>
    ((portfolio.pendingOrdersOf seen.targetAccountId).find? (·.brokerOrderId = ticket)).map fun pending =>
      .pendingCancelled { pending with brokerOrderId := seen.sourceEntityId }

def lifecycleWorkPending : Bool :=
  picture.work.any fun work => work.groupId = seen.groupId && work.targetAccountId = seen.targetAccountId
    && work.status.open && (work.operation = .closePosition || work.operation = .cancelPending)
    && picture.inbox.any fun inbox => inbox.groupId = work.groupId && inbox.id = work.inboxEventId
      && inbox.sourceEntityKind = seen.sourceEntityKind && inbox.sourceEntityId = seen.sourceEntityId

/-- Where the source is gone and the target is there: nothing closes the target yet. -/
def queuesRepair : Bool := seen.lifecycleStatus ≠ .closing && !lifecycleWorkPending picture seen

def endedStatus (kind : EntityKind) : LinkStatus := if kind = .position then .closed else .cancelled

/-- The status of a link that was read as `seen` and is `current` now; a link whose target is being closed is
not written. -/
def reconciledStatus (current : LinkStatus) : Option LinkStatus :=
  match sourcePresent portfolio seen, (targetEnd portfolio seen).isSome with
  | true, true => some (if current = .closing then .closing else .active)
  | false, true => if queuesRepair picture seen then some .closing else none
  | true, false => some (if seen.lifecycleStatus = .closing then endedStatus seen.sourceEntityKind
      else if seen.target.isNone then .pending else .orphaned)
  | false, false => some (endedStatus seen.sourceEntityKind)

variable (env : StageEnv)

/-- The row at an index, as the pass leaves it. -/
def reconciledLink (index : Nat) (link : LinkRow) : LinkRow :=
  match (picture.links[index]?).filter fun seen => (readWith picture groupId seen).isSome with
  | none => link
  | some seen => match reconciledStatus picture portfolio seen link.lifecycleStatus with
    | none => link
    | some status =>
      { link with lifecycleStatus := status, revision := link.revision + 1, updatedAt := env.now }

/-- Stage the close of a target whose source is gone. -/
def stageRepair (stage : Stage) (seen : LinkRow) : Stage :=
  match readWith picture groupId seen, targetEnd portfolio seen with
  | some (group, target), some change =>
    if !sourcePresent portfolio seen && queuesRepair picture seen then
      stageGeneratedCopierWork env group target seen change
        (if seen.target.any (·.1 = .position) then .closePosition else .cancelPending) "reconciliation" stage
    else stage
  | _, _ => stage

/-- `ORDER BY target_account_id, source_entity_kind, source_entity_id, target_leg`. -/
def readBefore (first second : LinkRow) : Bool :=
  first.targetAccountId < second.targetAccountId || first.targetAccountId = second.targetAccountId
    && (first.sourceEntityKind = .pendingOrder && second.sourceEntityKind = .position
      || first.sourceEntityKind = second.sourceEntityKind && (first.sourceEntityId < second.sourceEntityId
        || first.sourceEntityId = second.sourceEntityId && first.targetLeg ≤ second.targetLeg))

/-- `mismatch_count = 0`. -/
def allPresent : Bool :=
  picture.links.all fun seen => (readWith picture groupId seen).isNone
    || sourcePresent portfolio seen && (targetEnd portfolio seen).isSome

/-- `reconcile_continuous_copy_group`. `picture` is what its first statement has read. -/
def reconcileContinuousCopyGroup (stage : Stage) : Stage :=
  let staged := (picture.links.insertionSort fun first second => readBefore first second).foldl
    (stageRepair picture portfolio groupId env) stage
  ⟨{ staged.tables with
    links := staged.tables.links.mapIdx (reconciledLink picture portfolio groupId env)
    groups := Table.updateWhere (·.id = groupId)
      (fun group => { group with
        runtimeStatus := if !group.enabled || group.runtimeStatus = .paused then group.runtimeStatus
          else if allPresent picture portfolio groupId then .active else .degraded })
      staged.tables.groups
    targets := Table.updateWhere (·.groupId = groupId)
      (fun target => { target with
        runtimeStatus := if !target.enabled then .inactive
          else if allPresent picture portfolio groupId then .active else .degraded })
      staged.tables.targets }, staged.drawn⟩

end Pass

end MarketLens.Copier
