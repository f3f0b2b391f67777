import MarketLens.Domain.Snapshot

/-!
# Orders, routes and EA commands

The records that travel from an order intent to one EA: the intent, the account
and instrument a target is routed against, the routed order, and the commands an
EA is polled with.
-/

namespace MarketLens

inductive VenueKind where
  | simulator
  | metaTrader5
  | binanceSpot
  | binanceUsdM
deriving DecidableEq

inductive AccountMode where
  | simulated
  | demo
  | live
  | unknown
deriving DecidableEq

inductive AccountStatus where
  | disabled
  | offline
  | connecting
  | ready
  | degraded
  | blocked
deriving DecidableEq

inductive QuantityUnit where
  | lots
  | baseUnits
  | contracts
  | quoteNotional
deriving DecidableEq

inductive OrderSizing where
  | fixed (quantity : Decimal) (unit : QuantityUnit)
  | riskPercent (basisPoints : Nat)
deriving DecidableEq

/-- How a copy target sizes an order. -/
inductive CopyAllocation where
  | sameQuantity
  | fixedQuantity (quantity : Decimal) (unit : QuantityUnit)
  | multiplier (multiplier : Decimal)
  | equityProportional (multiplier : Decimal)
  | riskPercent (basisPoints : Nat)
deriving DecidableEq

structure CopyTarget where
  accountId : String
  enabled : Bool
  allocation : CopyAllocation
  maxQuantity : Option Decimal

inductive BrokerMarginBasis where
  | equity
  | balance
deriving DecidableEq

/-- The broker-side margin gate an EA applies to a place command. -/
structure BrokerMarginCap where
  basis : BrokerMarginBasis
  basisPoints : Nat
  alert : Bool
deriving DecidableEq

/-- `OrderIntent`: what is to be placed, before any target is looked at. -/
structure OrderIntent where
  commandId : String
  idempotencyKey : String
  sourceAccountId : Option String
  canonicalSymbol : String
  side : Side
  kind : OrderKind
  sizing : OrderSizing
  limitPrice : Option Decimal
  stopPrice : Option Decimal
  stopLoss : Option Decimal
  takeProfit : Option Decimal
deriving DecidableEq

structure ExecutionAccount where
  id : String
  venueKind : VenueKind
  brokerCode : String
  status : AccountStatus
  balance : Option Decimal
  equity : Option Decimal
  tradeAllowed : Bool
  updatedAtMs : Nat

structure InstrumentSpec where
  canonicalSymbol : String
  venueSymbol : String
  quantityUnit : QuantityUnit
  quantityStep : Decimal
  minQuantity : Decimal
  maxQuantity : Decimal
  priceTick : Decimal
  tickValuePerQuantity : Option Decimal
  minStopDistance : Option Decimal
  tradeAllowed : Bool

structure RiskPolicy where
  maxRiskPerTradeBasisPoints : Nat
  maxOrderQuantity : Option Decimal
  requireStopLoss : Bool
  allowedSymbols : List String
  blockedSymbols : List String

structure RouteTargetContext where
  account : ExecutionAccount
  instrument : InstrumentSpec
  policy : RiskPolicy
  copyTarget : CopyTarget
  referencePrice : Option Decimal

inductive RouteWarning where
  | quantityCappedByTarget
  | quantityCappedByPolicy
  | quantityCappedByPropRisk
  | quantityFlooredToStep
deriving DecidableEq

inductive RouteRejectCode where
  | targetDisabled
  | accountNotReady
  | accountCannotTrade
  | symbolNotAllowed
  | symbolBlocked
  | symbolNotTradable
  | quantityUnitMismatch
  | quantityInvalid
  | quantityBelowMinimum
  | sourceEquityRequired
  | targetEquityRequired
  | stopLossRequired
  | entryPriceRequired
  | tickValueRequired
  | riskLimitExceeded
  | propRiskLocked
  | propRiskLimitExceeded
  | propRiskStateUnavailable
  | stopLossWrongSide
  | stopDistanceTooSmall
deriving DecidableEq

def RouteRejectCode.name : RouteRejectCode → String
  | .targetDisabled => "TARGET_DISABLED"
  | .accountNotReady => "ACCOUNT_NOT_READY"
  | .accountCannotTrade => "ACCOUNT_CANNOT_TRADE"
  | .symbolNotAllowed => "SYMBOL_NOT_ALLOWED"
  | .symbolBlocked => "SYMBOL_BLOCKED"
  | .symbolNotTradable => "SYMBOL_NOT_TRADABLE"
  | .quantityUnitMismatch => "QUANTITY_UNIT_MISMATCH"
  | .quantityInvalid => "QUANTITY_INVALID"
  | .quantityBelowMinimum => "QUANTITY_BELOW_MINIMUM"
  | .sourceEquityRequired => "SOURCE_EQUITY_REQUIRED"
  | .targetEquityRequired => "TARGET_EQUITY_REQUIRED"
  | .stopLossRequired => "STOP_LOSS_REQUIRED"
  | .entryPriceRequired => "ENTRY_PRICE_REQUIRED"
  | .tickValueRequired => "TICK_VALUE_REQUIRED"
  | .riskLimitExceeded => "RISK_LIMIT_EXCEEDED"
  | .propRiskLocked => "PROP_RISK_LOCKED"
  | .propRiskLimitExceeded => "PROP_RISK_LIMIT_EXCEEDED"
  | .propRiskStateUnavailable => "PROP_RISK_STATE_UNAVAILABLE"
  | .stopLossWrongSide => "STOP_LOSS_WRONG_SIDE"
  | .stopDistanceTooSmall => "STOP_DISTANCE_TOO_SMALL"

/-- `RoutedOrder`: one order for one target account. -/
structure RoutedOrder where
  parentCommandId : String
  commandId : String
  idempotencyKey : String
  targetAccountId : String
  brokerCode : String
  venueKind : VenueKind
  canonicalSymbol : String
  venueSymbol : String
  side : Side
  kind : OrderKind
  quantity : Decimal
  quantityUnit : QuantityUnit
  limitPrice : Option Decimal
  stopPrice : Option Decimal
  stopLoss : Option Decimal
  takeProfit : Option Decimal
  brokerMarginCap : Option BrokerMarginCap
  warnings : List RouteWarning
deriving DecidableEq

inductive TargetRouteResult where
  | ready (accountId : String) (order : RoutedOrder)
  | rejected (accountId : String) (code : RouteRejectCode) (message : String)
deriving DecidableEq

structure ModifyPositionCommand where
  commandId : String
  idempotencyKey : String
  targetAccountId : String
  brokerPositionId : String
  stopLoss : Option Decimal
  takeProfit : Option Decimal
deriving DecidableEq

structure ModifyPendingOrderCommand where
  commandId : String
  idempotencyKey : String
  targetAccountId : String
  brokerOrderId : String
  price : Decimal
  stopLoss : Option Decimal
  takeProfit : Option Decimal
deriving DecidableEq

structure ClosePositionCommand where
  commandId : String
  idempotencyKey : String
  targetAccountId : String
  brokerPositionId : String
  quantity : Option Decimal
  deviationPoints : Nat
deriving DecidableEq

structure CancelOrderCommand where
  commandId : String
  idempotencyKey : String
  targetAccountId : String
  brokerOrderId : String
deriving DecidableEq

inductive EaCommand where
  | place (order : RoutedOrder)
  | modifyPosition (command : ModifyPositionCommand)
  | modifyPendingOrder (command : ModifyPendingOrderCommand)
  | closePosition (command : ClosePositionCommand)
  | cancelOrder (command : CancelOrderCommand)
  | sync
deriving DecidableEq

/-- `command_id`: the id of the target command row a command is stored under. -/
def EaCommand.commandId : EaCommand → Option String
  | .place order => some order.commandId
  | .modifyPosition command => some command.commandId
  | .modifyPendingOrder command => some command.commandId
  | .closePosition command => some command.commandId
  | .cancelOrder command => some command.commandId
  | .sync => none

/-- `command_idempotency_key`. -/
def EaCommand.idempotencyKey : EaCommand → Option String
  | .place order => some order.idempotencyKey
  | .modifyPosition command => some command.idempotencyKey
  | .modifyPendingOrder command => some command.idempotencyKey
  | .closePosition command => some command.idempotencyKey
  | .cancelOrder command => some command.idempotencyKey
  | .sync => none

/-- `command_target_account`. -/
def EaCommand.targetAccount : EaCommand → Option String
  | .place order => some order.targetAccountId
  | .modifyPosition command => some command.targetAccountId
  | .modifyPendingOrder command => some command.targetAccountId
  | .closePosition command => some command.targetAccountId
  | .cancelOrder command => some command.targetAccountId
  | .sync => none

/-- `command_parent_id`: an order belongs to its intent, any other command to itself. -/
def EaCommand.parentId : EaCommand → Option String
  | .place order => some order.parentCommandId
  | .modifyPosition command => some command.commandId
  | .modifyPendingOrder command => some command.commandId
  | .closePosition command => some command.commandId
  | .cancelOrder command => some command.commandId
  | .sync => none

end MarketLens
