import MarketLens.Engine.Route
import MarketLens.PropRisk.Pretrade
import MarketLens.Store.Commands
import MarketLens.Store.Copy

/-!
# What a work item asks of its target

Executing a work item starts by reading the links of its source entity. What it
finds decides between four outcomes: a command for the target account, completion
without a command, superseding the item, or adopting a fill. An order goes through
the order router and the pre-trade check, every other command is addressed to the
ticket of a link.

Each command carries an id derived from the item. The router derives the id of the
order from that one in turn.
-/

namespace MarketLens.Copier

open Store Fallible Engine PropRisk

/-- Why a work item could not be carried out, and whether another attempt may help. -/
structure CopierWorkError where
  code : String
  message : String
  retryable : Bool

def CopierWorkError.retry (code message : String) : CopierWorkError := ⟨code, message, true⟩

def CopierWorkError.permanent (code message : String) : CopierWorkError := ⟨code, message, false⟩

/-- `CopierWorkError::api`: a request that failed on the server's side may be repeated. -/
def CopierWorkError.api (error : ApiError) : CopierWorkError where
  code := error.code
  message := error.message
  retryable := error.status = .internalServerError || error.status = .tooManyRequests
    || error.status = .serviceUnavailable

/-- What carrying out a work item reads besides the copier's own tables. -/
structure WorkEnv where
  shortHash : String → String
  nowMs : Nat
  /-- The database time. -/
  now : Time
  /-- The ids of the target commands that exist. -/
  issuedCommands : List String
  /-- `load_route_target`: the account, policy and instrument rows of a target. -/
  loadRouteTarget : AdminOrderTarget → String → Side → Except ApiError (Option RouteTargetContext)
  /-- `source_equity`. -/
  sourceEquity : Option String → Except ApiError (Option Decimal)
  propRisk : PropRiskEnv
  propRiskTables : PropRiskTables
  portfolio : PortfolioTables
  instruments : String → InstrumentTable

/-! ## The links a work item is about -/

section Links

variable (tables : CopyTables) (work : WorkRow)

/-- The links of the change's source entity on the item's target. -/
def entityLinks : List LinkRow :=
  tables.links.filter (·.isLegOf work.groupId work.targetAccountId
    (copySourceEntityKind work.payload.change) work.payload.change.sourceResourceId)

/-- `ORDER BY target_leg, updated_at DESC`. -/
def legOrder (first second : LinkRow) : Bool :=
  first.targetLeg < second.targetLeg
    || (first.targetLeg = second.targetLeg && second.updatedAt ≤ first.updatedAt)

/-- The live links on the item's leg whose target is of this kind, in the order of their legs. -/
def targetLinks (kind : EntityKind) : List LinkRow :=
  ((entityLinks tables work).filter fun link => link.target.any (·.1 = kind)
    && link.onLeg work.payload.targetLeg && link.lifecycleStatus.live).insertionSort
      fun first second => legOrder first second

/-- `copier_target_entity_id`. -/
def copierTargetEntityId (kind : EntityKind) : Option String :=
  (targetLinks tables work kind).head?.bind fun link => link.target.map (·.2)

/-- `copier_target_quantity`. -/
def copierTargetQuantity (kind : EntityKind) : Option Decimal :=
  ((targetLinks tables work kind).filter fun link => link.targetQuantity.isSome).head?.bind
    (·.targetQuantity)

/-- `copier_target_link_exists`: an unfinished link has, or expects, a target of this kind. -/
def copierTargetLinkExists (kind : EntityKind) (leg : Option Nat) : Bool :=
  (entityLinks tables work).any fun link =>
    (match link.target with
      | some target => target.1 = kind
      | none => link.metadata.expectedTargetKind = some kind)
    && link.onLeg leg && link.lifecycleStatus.unfinished

/-- `ORDER BY updated_at DESC, target_leg`. -/
def latestOrder (first second : LinkRow) : Bool :=
  second.updatedAt < first.updatedAt
    || (first.updatedAt = second.updatedAt && first.targetLeg ≤ second.targetLeg)

/-- `copier_pending_fill_link_status`: the latest link of the position that came from the order. -/
def copierPendingFillLinkStatus (sourcePositionId sourcePendingOrderId : String) :
    Option LinkStatus :=
  ((tables.links.filter fun link =>
    link.isLegOf work.groupId work.targetAccountId .position sourcePositionId
      && link.metadata.originatingPendingOrderId = some sourcePendingOrderId
      && link.onLeg work.payload.targetLeg && link.lifecycleStatus.unfinished).insertionSort
        fun first second => latestOrder first second).head?.map (·.lifecycleStatus)

/-- `copier_source_link_history_exists`: some link was more than a superseded placeholder. -/
def copierSourceLinkHistoryExists : Bool :=
  (entityLinks tables work).any fun link => !(link.lifecycleStatus = .cancelled
    && link.target.isNone && link.metadata.supersededReason.isSome)

/-- `copier_work_target_command_exists`. -/
def copierWorkTargetCommandExists (issuedCommands : List String) : Bool :=
  tables.outbox.any fun outbox => outbox.workItemId = work.id
    && outbox.commandId.any issuedCommands.contains

end Links

/-! ## Orders -/

def copierReverseSide : Side → Side
  | .buy => .sell
  | .sell => .buy

def copierReverseKind : OrderKind → OrderKind
  | .market => .market
  | .limit => .stop
  | .stop => .limit

def copierCurrentPending : PortfolioChange → Except CopierWorkError EaPendingOrderSnapshot
  | .pendingModified _ current
  | .pendingReplaced _ current
  | .pendingCreated current => .ok current
  | _ => .error (.permanent "COPY_PENDING_PAYLOAD_INVALID"
    "pending-order operation requires a current pending snapshot")

structure OrderSource where
  canonicalSymbol : String
  side : Side
  kind : OrderKind
  quantity : Decimal
  entryPrice : Option Decimal
  stopLoss : Option Decimal
  takeProfit : Option Decimal

def marketSource (position : EaPositionSnapshot) (quantity : Decimal) : OrderSource :=
  ⟨position.canonicalSymbol, position.side, .market, quantity, none, position.stopLoss,
    position.takeProfit⟩

def orderSource (operation : CopyOperation) (change : PortfolioChange) :
    Except CopierWorkError OrderSource :=
  match operation, change with
  | .openMarket, .positionOpened current => .ok (marketSource current current.quantity)
  | .openMarket, .positionIncreased _ current delta => .ok (marketSource current delta)
  | .openMarket, .pendingFilled previous position => .ok (marketSource position previous.quantity)
  | .placePending, change => do
    let current ← copierCurrentPending change
    return ⟨current.canonicalSymbol, current.side, current.kind, current.quantity,
      some current.price, current.stopLoss, current.takeProfit⟩
  | _, _ => .error (.permanent "COPY_ORDER_PAYLOAD_INVALID"
    "copy order operation does not contain an orderable source snapshot")

/-- The side, the kind and the protection a target trades with. -/
def OrderSource.onTarget (source : OrderSource) (reverseTrade copyStopLossTakeProfit : Bool) :
    OrderSource :=
  let source := if copyStopLossTakeProfit then source
    else { source with stopLoss := none, takeProfit := none }
  if reverseTrade then { source with
    side := copierReverseSide source.side
    kind := copierReverseKind source.kind
    stopLoss := source.takeProfit
    takeProfit := source.stopLoss }
  else source

section
variable (change : PortfolioChange)

def copierOrderIntent (targetConfig : ContinuousCopyTargetConfig)
    (commandId idempotencyKey : String) (operation : CopyOperation)
    (sourceAccountId : Option String) (copyStopLossTakeProfit : Bool) :
    Except CopierWorkError OrderIntent := do
  let source ← orderSource operation change
  refuseIf (source.quantity ≤ 0)
    (.permanent "COPY_QUANTITY_INVALID" "source quantity must be positive")
  let order := source.onTarget targetConfig.reverseTrade copyStopLossTakeProfit
  return {
    commandId := commandId
    idempotencyKey := idempotencyKey
    sourceAccountId := sourceAccountId
    canonicalSymbol := order.canonicalSymbol
    side := order.side
    kind := order.kind
    -- the router owns the allocation, so the intent carries the source's own quantity
    sizing := .fixed order.quantity .lots
    limitPrice := if order.kind = .limit then order.entryPrice else none
    stopPrice := if order.kind = .stop then order.entryPrice else none
    stopLoss := order.stopLoss
    takeProfit := order.takeProfit }

/-! ## Changes of existing entities -/

def copierPositionProtection (reverseTrade : Bool) :
    Except CopierWorkError (Option Decimal × Option Decimal) :=
  match change with
  | .positionProtectionChanged _ current =>
    if reverseTrade then .ok (current.takeProfit, current.stopLoss)
    else .ok (current.stopLoss, current.takeProfit)
  | _ => .error (.permanent "COPY_PROTECTION_PAYLOAD_INVALID"
    "position protection operation requires a position protection change")

def copierPendingModification (reverseTrade : Bool) :
    Except CopierWorkError (Decimal × Option Decimal × Option Decimal) := do
  let current ← copierCurrentPending change
  if reverseTrade then return (current.price, current.takeProfit, current.stopLoss)
  else return (current.price, current.stopLoss, current.takeProfit)

/-- The share of the target's volume that the source has given up. -/
def copierPartialCloseQuantity (targetQuantity : Option Decimal) :
    Option Decimal :=
  match change with
  | .positionReduced previous _ delta =>
    if previous.quantity > 0 then do
      let target ← targetQuantity
      let scaled := min (delta * target / previous.quantity) target
      if scaled > 0 then some scaled else none
    else none
  | _ => none

end

/-! ## Carrying out a work item -/

/-- What a work item comes to. -/
inductive WorkPlan where
  | issue (command : EaCommand)
  | complete
  | supersede (reason : String)
  | reconcile
deriving DecidableEq

section Plan

variable (env : WorkEnv) (tables : CopyTables) (work : WorkRow)

/-- The id of the item's command. -/
def copierCommandId : String :=
  "cp:" ++ env.shortHash
    (uuidText work.groupId ++ ":" ++ uuidText work.id ++ ":" ++ work.operation.name)

def copierCommandKey : String := "cpc:" ++ env.shortHash work.idempotencyKey

/-- The source change is too old for new exposure. -/
def workStale : Bool :=
  copierWorkIsStale work.operation work.payload.change.observedAtMs env.nowMs
    work.payload.groupConfig.staleAfterMs

/-- The item is too old, and no command of it has been issued. -/
def abandoned : Bool :=
  workStale env work && !copierWorkTargetCommandExists tables work env.issuedCommands

/-- What a filled pending order comes to instead of a market order, if anything. -/
def planFill (previous : EaPendingOrderSnapshot) (position : EaPositionSnapshot) :
    Except CopierWorkError (Option WorkPlan) :=
  match copierPendingFillLinkStatus tables work position.brokerPositionId
      previous.brokerOrderId with
  | some status =>
    if status = .error || status = .orphaned then
      .error (.retry "COPY_PENDING_FILL_LINK_UNRESOLVED"
        "the pending-fill link is unresolved and cannot be replaced safely")
    else .ok (some .complete)
  | none =>
    -- Existing pending exposure is adopted, never duplicated by a market copy.
    if copierTargetLinkExists tables work .pendingOrder work.payload.targetLeg then
      .ok (some .reconcile)
    else if !copySourceFiltersMatch work.payload.change work.payload.groupConfig then
      .ok (some .complete)
    else if abandoned env tables work then
      .ok (some (.supersede "unlinked pending-fill market fallback exceeded staleAfterMs"))
    else .ok none

def pendingReplaceWait : CopierWorkError :=
  .retry "COPY_PENDING_REPLACE_WAIT"
    "replacement pending order is waiting for the prior target order to cancel"

/-- What the place half of a replaced order comes to instead of an order, if anything. -/
def planReplacement : Except CopierWorkError (Option WorkPlan) :=
  if copierTargetLinkExists tables work .pendingOrder none then .error pendingReplaceWait
  else if !copySourceFiltersMatch work.payload.change work.payload.groupConfig
      && !copierSourceLinkHistoryExists tables work then .ok (some .complete)
  else .ok none

/-- What stands in the way of an order. -/
def planBeforeOrder : Except CopierWorkError (Option WorkPlan) :=
  match work.operation, work.payload.change with
  | .openMarket, .pendingFilled previous position => planFill env tables work previous position
  | .placePending, .pendingReplaced _ _ => planReplacement tables work
  | _, _ => .ok none

/-- The outcome of the router. -/
def copierRoute (intent : OrderIntent) (sourceEquity : Option Decimal)
    (context : RouteTargetContext) : Except CopierWorkError RoutedOrder :=
  match (routeOrder intent sourceEquity [context]).getLast? with
  | none => .error (.permanent "COPY_ROUTE_EMPTY" "the route engine returned no target result")
  | some (.ready _ order) => .ok order
  | some (.rejected _ code message) => .error (.permanent code.name message)

/-- The outcome of the pre-trade check. -/
def copierPretrade (context : RouteTargetContext) (order : RoutedOrder) :
    Except CopierWorkError RoutedOrder := do
  let (outcome, _) ← (applyPropRiskPretrade env.propRisk env.now env.nowMs context order
    env.portfolio (env.instruments context.account.id) env.propRiskTables).mapError .api
  match outcome with
  | .rejected code message => .error (.permanent code.name message)
  | .passed order => return order

/-- The order of a place item. -/
def placeCommand : Except CopierWorkError EaCommand := do
  let config := work.payload.targetConfig
  let intent ← copierOrderIntent work.payload.change config (copierCommandId env work)
    (copierCommandKey env work) work.operation work.payload.sourceAccountId
    work.payload.groupConfig.copyStopLossTakeProfit
  let loaded ← (env.loadRouteTarget
    ⟨work.targetAccountId, config.allocation, config.maxQuantity⟩ intent.canonicalSymbol
    intent.side).mapError .api
  let context ← require loaded (.retry "TARGET_CONTEXT_UNAVAILABLE"
    "target account or fresh broker instrument metadata is unavailable")
  refuseIf (context.account.venueKind ≠ .metaTrader5)
    (.permanent "TARGET_TRANSPORT_UNAVAILABLE" "the target venue transport is not enabled")
  refuseIf (context.account.status = .offline || context.account.status = .connecting)
    (.retry "TARGET_OFFLINE"
      "target EA is offline; copier work will retry without issuing a stale command")
  let sourceEquity ← (env.sourceEquity intent.sourceAccountId).mapError .api
  let order ← copierRoute intent sourceEquity context
  let order ← copierPretrade env context order
  return .place { order with brokerMarginCap := config.protection.brokerMarginCap }

def planPlace : Except CopierWorkError WorkPlan := do
  match ← planBeforeOrder env tables work with
  | some plan => return plan
  | none =>
    let command ← placeCommand env work
    return .issue command

/-- A command for the ticket of a link: without a ticket the item waits for it, without a link
there is nothing to do. -/
def planOnTarget (kind : EntityKind) (waiting : String)
    (command : String → Except CopierWorkError EaCommand) : Except CopierWorkError WorkPlan :=
  match copierTargetEntityId tables work kind with
  | some ticket => do
    let command ← command ticket
    return .issue command
  | none =>
    if copierTargetLinkExists tables work kind work.payload.targetLeg then
      .error (.retry "COPY_LINK_PENDING" waiting)
    else .ok .complete

def modifyPositionCommand (ticket : String) : Except CopierWorkError EaCommand := do
  let (stopLoss, takeProfit) ← copierPositionProtection work.payload.change
    (work.payload.targetConfig.reverseTrade
      && work.payload.phase ≠ some targetProtectionPhase)
  return .modifyPosition ⟨copierCommandId env work, copierCommandKey env work,
    work.targetAccountId, ticket, stopLoss, takeProfit⟩

def modifyPendingCommand (ticket : String) : Except CopierWorkError EaCommand := do
  let (price, stopLoss, takeProfit) ← copierPendingModification work.payload.change
    work.payload.targetConfig.reverseTrade
  return .modifyPendingOrder ⟨copierCommandId env work, copierCommandKey env work,
    work.targetAccountId, ticket, price, stopLoss, takeProfit⟩

def closeCommand (quantity : Option Decimal) (ticket : String) : EaCommand :=
  .closePosition ⟨copierCommandId env work, copierCommandKey env work, work.targetAccountId,
    ticket, quantity, work.payload.groupConfig.maxSlippagePoints⟩

def partialCloseCommand (ticket : String) : Except CopierWorkError EaCommand := do
  let held ← require (copierTargetQuantity tables work .position)
    (.retry "COPY_LINK_QUANTITY_PENDING" "target position quantity is not reconciled yet")
  let quantity ← require (copierPartialCloseQuantity work.payload.change (some held))
    (.permanent "COPY_PARTIAL_CLOSE_INVALID"
      "partial-close work did not resolve a positive target quantity")
  return closeCommand env work (some quantity) ticket

def cancelCommand (ticket : String) : EaCommand :=
  .cancelOrder ⟨copierCommandId env work, copierCommandKey env work, work.targetAccountId,
    ticket⟩

/-- A configuration that does not pass its check ends the item. -/
def workConfigError (code : String) : Except String Unit → Except CopierWorkError Unit :=
  Except.mapError fun message => .permanent code message

/-- `execute_continuous_copier_work`, up to the effects of what it decides. -/
def planWork : Except CopierWorkError WorkPlan := do
  workConfigError "COPY_CONFIG_INVALID" work.payload.groupConfig.validate
  workConfigError "COPY_TARGET_CONFIG_INVALID" work.payload.targetConfig.validate
  let pendingFillMarket := match work.operation, work.payload.change with
    | .openMarket, .pendingFilled _ _ => true
    | _, _ => false
  if !pendingFillMarket && abandoned env tables work then
    return .supersede "risk-increasing copier work exceeded staleAfterMs"
  match work.operation with
  | .openMarket | .placePending => planPlace env tables work
  | .modifyPosition =>
    planOnTarget tables work .position "target position link has not been reconciled yet"
      (modifyPositionCommand env work)
  | .modifyPending =>
    planOnTarget tables work .pendingOrder
      "target pending-order link has not been reconciled yet" (modifyPendingCommand env work)
  | .partialClose =>
    planOnTarget tables work .position "target position link has not been reconciled yet"
      (partialCloseCommand env tables work)
  | .closePosition =>
    planOnTarget tables work .position "target position link has not been reconciled yet"
      fun ticket => .ok (closeCommand env work none ticket)
  | .cancelPending =>
    planOnTarget tables work .pendingOrder
      "target pending-order link is waiting for its broker ticket"
      fun ticket => .ok (cancelCommand env work ticket)
  | .reconcile => return .reconcile

end Plan

end MarketLens.Copier
