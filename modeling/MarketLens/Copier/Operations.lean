import MarketLens.Copier.Diff
import MarketLens.Domain.CopyConfig

/-!
# Which operations a source change asks of a target

The pure rules of the copier: whether a group copies a change, which link a
change is about, and the operations a target has to carry out for it, in order.
A replaced pending order is two operations, the cancel before the new place.
-/

namespace MarketLens.Copier

/-- The operation column of `execution_copy_work_items`. -/
inductive CopyOperation where
  | openMarket
  | placePending
  | modifyPosition
  | modifyPending
  | partialClose
  | closePosition
  | cancelPending
  | reconcile
deriving DecidableEq

def CopyOperation.name : CopyOperation → String
  | .openMarket => "open_market"
  | .placePending => "place_pending"
  | .modifyPosition => "modify_position"
  | .modifyPending => "modify_pending"
  | .partialClose => "partial_close"
  | .closePosition => "close_position"
  | .cancelPending => "cancel_pending"
  | .reconcile => "reconcile"

/-- The operations that place an order: they go through the order router. -/
def CopyOperation.isPlace : CopyOperation → Bool
  | .openMarket | .placePending => true
  | _ => false

/-- What a link is about on either side: an open position or a working order. -/
inductive EntityKind where
  | position
  | pendingOrder
deriving DecidableEq

/-- `copy_change_source_attributes`: the magic number and the comment of the source. -/
def copyChangeSourceAttributes : PortfolioChange → Int × String
  | .positionOpened current
  | .positionIncreased _ current _
  | .positionReduced _ current _
  | .positionProtectionChanged _ current => (current.magic, current.comment)
  | .positionClosed previous => (previous.magic, previous.comment)
  | .pendingCreated current
  | .pendingModified _ current
  | .pendingReplaced _ current => (current.magic, current.comment)
  | .pendingCancelled previous => (previous.magic, previous.comment)
  | .pendingFilled previous _ => (previous.magic, previous.comment)

section
variable (change : PortfolioChange)

def copySourceFiltersMatch (config : ContinuousCopyConfig) : Bool :=
  let (magic, comment) := copyChangeSourceAttributes change
  !config.sourceMagicFilter.any (· ≠ magic)
    && !config.sourceCommentPrefix.any fun pre => !comment.startsWith pre

/-- Whether the group copies this change at all. -/
def copyChangeAllowed (config : ContinuousCopyConfig) : Bool :=
  let sourceFilterMatches := copySourceFiltersMatch change config
  match change with
  | .positionOpened .. => sourceFilterMatches && config.copyMarketOrders
  | .positionIncreased .. =>
    sourceFilterMatches && config.copyMarketOrders && config.copyModifications
  | .positionReduced .. => config.copyPartialCloses
  -- Once exposure is linked, filters never suppress the risk-reducing lifecycle.
  | .positionClosed .. => true
  | .positionProtectionChanged .. => config.copyStopLossTakeProfit && config.copyModifications
  | .pendingCreated .. => sourceFilterMatches && config.copyPendingOrders
  | .pendingModified ..
  | .pendingReplaced .. => config.copyPendingOrders && config.copyModifications
  | .pendingCancelled .. => true
  | .pendingFilled .. => true

def copyChangeAllowedWhilePaused : PortfolioChange → Bool
  | .positionReduced ..
  | .positionClosed ..
  | .pendingCancelled ..
  | .pendingFilled .. => true
  | _ => false

def copySourceEntityKind : PortfolioChange → EntityKind
  | .positionOpened ..
  | .positionIncreased ..
  | .positionReduced ..
  | .positionClosed ..
  | .positionProtectionChanged .. => .position
  | .pendingCreated ..
  | .pendingModified ..
  | .pendingReplaced ..
  | .pendingCancelled ..
  | .pendingFilled .. => .pendingOrder

/-- A fill opened at market is linked to the position it became. -/
def copierLinkSourceIdentity (operation : CopyOperation) :
    EntityKind × String :=
  match operation, change with
  | .openMarket, .pendingFilled _ position => (.position, position.brokerPositionId)
  | _, _ => (copySourceEntityKind change, change.sourceResourceId)

/-- The operations a target carries out for a change, in order. -/
def copyWorkOperations (config : ContinuousCopyConfig) :
    List CopyOperation :=
  match change with
  | .positionOpened .. => if config.copyMarketOrders then [.openMarket] else []
  | .positionIncreased .. =>
    if config.copyMarketOrders && config.copyModifications then [.openMarket] else []
  | .positionReduced .. => if config.copyPartialCloses then [.partialClose] else []
  | .positionClosed .. => [.closePosition]
  | .positionProtectionChanged .. =>
    if config.copyStopLossTakeProfit && config.copyModifications then [.modifyPosition] else []
  | .pendingCreated .. => if config.copyPendingOrders then [.placePending] else []
  | .pendingModified .. =>
    if config.copyPendingOrders && config.copyModifications then [.modifyPending] else []
  | .pendingReplaced .. =>
    if config.copyPendingOrders && config.copyModifications then [.cancelPending, .placePending]
    else []
  | .pendingCancelled .. => [.cancelPending]
  | .pendingFilled .. => if config.copyMarketOrders then [.openMarket] else [.reconcile]

def copyWorkOperationsForRuntime (config : ContinuousCopyConfig)
    (runtimeStatus : CopyGroupRuntimeStatus) : List CopyOperation :=
  match runtimeStatus, change with
  -- An unlinked fill must not become new exposure while the group is paused.
  | .paused, .pendingFilled .. => [.reconcile]
  | _, _ => copyWorkOperations change config

end

def copierWorkIsStale (operation : CopyOperation) (observedAtMs currentTimeMs staleAfterMs : Nat) :
    Bool :=
  operation.isPlace && currentTimeMs - observedAtMs > staleAfterMs

/-- The `phase` a work payload may carry: only the protection sweep sets one. -/
def targetProtectionPhase : String := "target_protection"

def copierOperationAllowedWhilePaused (operation : CopyOperation) (phase : Option String) : Bool :=
  match operation with
  | .partialClose | .closePosition | .cancelPending | .reconcile => true
  | .modifyPosition => phase = some targetProtectionPhase
  | _ => false

end MarketLens.Copier
