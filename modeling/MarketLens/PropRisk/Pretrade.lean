import MarketLens.Store.Portfolio
import MarketLens.PropRisk.Guard

/-!
# The pre-trade check

Every order for an account with enabled prop-risk settings passes here before it is
enqueued: the manual orders, the deferred ones when they are activated, and the
copier's. The check evaluates the account at the routed balance and equity, adds up
the risk at stop of the stored positions and pending orders, and rejects the order
or caps its quantity to what the budgets leave.
-/

namespace MarketLens.PropRisk

open Fallible Store

/-- `EA_POLL_FRESHNESS`, in milliseconds. -/
def eaPollFreshness : Nat := 15000

/-! ## Committed risk -/

/-- The instruments an account has reported, by venue symbol. -/
abbrev InstrumentTable := List InstrumentSpec

def InstrumentTable.find (instruments : InstrumentTable) (venueSymbol : String) :
    Option InstrumentSpec :=
  List.find? (·.venueSymbol = venueSymbol) instruments

/-- Price distance in money for one unit of quantity; unknown without a positive tick and value. -/
def riskPerQuantity (instrument : InstrumentSpec) (distance : Decimal) : Option Decimal :=
  match instrument.tickValuePerQuantity with
  | none => none
  | some tickValue =>
    if instrument.priceTick ≤ 0 || tickValue ≤ 0 then none
    else some (distance / instrument.priceTick * tickValue)

/-- What a position loses from its current price to its stop. -/
def positionRisk (instruments : InstrumentTable) (position : EaPositionSnapshot) :
    Option Decimal := do
  let instrument ← instruments.find position.venueSymbol
  let stop ← position.stopLoss
  let distance := match position.side with
    | .buy => positive (position.currentPrice - stop)
    | .sell => positive (stop - position.currentPrice)
  let risk ← riskPerQuantity instrument distance
  return risk * position.quantity

/-- What a pending order loses from its price to its stop, once filled. -/
def pendingOrderRisk (instruments : InstrumentTable) (order : EaPendingOrderSnapshot) :
    Option Decimal := do
  let instrument ← instruments.find order.venueSymbol
  let stop ← order.stopLoss
  let risk ← riskPerQuantity instrument |order.price - stop|
  return risk * order.quantity

/-- The sum of a list of risks, unknown when one of them is. -/
def totalRisk : List (Option Decimal) → Option Decimal
  | [] => some 0
  | risk :: rest => do
    let risk ← risk
    let total ← totalRisk rest
    return risk + total

/-- `committed_risk_at_stops`. -/
def committedRiskAtStops (accountId : String) (portfolio : PortfolioTables)
    (instruments : InstrumentTable) : Option Decimal :=
  totalRisk ((portfolio.positionsOf accountId).map (positionRisk instruments)
    ++ (portfolio.pendingOrdersOf accountId).map (pendingOrderRisk instruments))

/-! ## The check of one order -/

inductive PretradeOutcome where
  | rejected (code : RouteRejectCode) (message : String)
  | passed (order : RoutedOrder)
deriving DecidableEq

def entryPrice (context : RouteTargetContext) (order : RoutedOrder) : Option Decimal :=
  match order.kind with
  | .market => context.referencePrice
  | .limit => order.limitPrice
  | .stop => order.stopPrice

/-- What one unit of the order's quantity loses at its stop, if that can be told. -/
def orderRiskPerQuantity (context : RouteTargetContext) (order : RoutedOrder) : Option Decimal := do
  let entry ← entryPrice context order
  let stop ← order.stopLoss
  riskPerQuantity context.instrument |entry - stop|

/-- The verdict at the routed balance and equity. -/
def pretradeEvaluation (nowMs : Nat) (context : RouteTargetContext)
    (runtime : PropRiskRuntimeConfig) : PropRiskEvaluation :=
  let sample : GuardSample :=
    ⟨context.account.balance.getD 0, context.account.equity.getD 0, false, false⟩
  evaluatePropRisk runtime.rules runtime.actions
    (evaluationInput runtime sample (nowMs - context.account.updatedAtMs > eaPollFreshness))

section
variable (runtime : PropRiskRuntimeConfig)

def maxPerTrade : Decimal :=
  propRiskMoney runtime.initialBalance runtime.rules.maxRiskPerTradeBasisPoints

def maxOpenRisk : Decimal :=
  propRiskMoney runtime.initialBalance runtime.rules.maxTotalOpenRiskBasisPoints

def emergencyBuffer : Decimal :=
  propRiskMoney runtime.initialBalance runtime.rules.emergencyBufferBasisPoints

/-- The risk another order may add: the least of what the four budgets leave. -/
def safeRisk (evaluation : PropRiskEvaluation)
    (openRisk : Decimal) : Decimal :=
  min (maxPerTrade runtime) (min (maxOpenRisk runtime - openRisk)
    (min (evaluation.dailyLossRemaining - emergencyBuffer runtime - openRisk)
      (evaluation.maxLossRemaining - emergencyBuffer runtime - openRisk)))

end

def capQuantity (context : RouteTargetContext) (safeRisk riskPerQuantity : Decimal)
    (order : RoutedOrder) : PretradeOutcome :=
  if riskPerQuantity * order.quantity > safeRisk then
    let cappedQuantity := floorToStep (safeRisk / riskPerQuantity) context.instrument.quantityStep
    if cappedQuantity < context.instrument.minQuantity then
      .rejected .propRiskLimitExceeded
        "the remaining protected risk budget is below the broker minimum quantity"
    else
      .passed { order with
        quantity := cappedQuantity
        warnings := if order.warnings.contains .quantityCappedByPropRisk then order.warnings
          else order.warnings ++ [.quantityCappedByPropRisk] }
  else .passed order

/-- The check of an order against an account whose verdict opens new orders. -/
def checkBudgets (context : RouteTargetContext) (order : RoutedOrder)
    (runtime : PropRiskRuntimeConfig) (evaluation : PropRiskEvaluation)
    (committed : Option Decimal) : PretradeOutcome :=
  if runtime.rules.requireStopLoss && order.stopLoss.isNone then
    .rejected .stopLossRequired "prop risk guard requires a stop loss on every order"
  else
    let perQuantity := orderRiskPerQuantity context order
    if perQuantity.isNone && runtime.actions.failClosedOnStaleData then
      .rejected .propRiskStateUnavailable
        "prop risk guard cannot verify the order risk from fresh broker metadata"
    else
      match committed with
      | none =>
        if runtime.rules.requireStopLoss || runtime.actions.failClosedOnStaleData then
          .rejected .propRiskStateUnavailable
            ("prop risk guard cannot verify every existing position and pending order at its "
              ++ "stop")
        else .passed order
      | some openRisk =>
        let safe := safeRisk runtime evaluation openRisk
        if safe ≤ 0 || perQuantity.getD 0 ≤ 0 then
          .rejected .propRiskLimitExceeded
            "no protected drawdown budget remains for another order"
        else capQuantity context safe (perQuantity.getD 0) order

/-- What the settings in force make of an order. -/
def checkOrder (nowMs : Nat) (context : RouteTargetContext) (order : RoutedOrder)
    (committed : Option Decimal) (runtime : PropRiskRuntimeConfig) : PretradeOutcome :=
  if !runtime.stateExists && runtime.actions.failClosedOnStaleData then
    .rejected .propRiskStateUnavailable
      "prop risk guard is waiting for the first fresh account heartbeat"
  else
    let evaluation := pretradeEvaluation nowMs context runtime
    if !evaluation.canOpenNewOrders then
      .rejected .propRiskLocked ("prop risk guard blocked the order: "
        ++ (evaluation.reason.map PropRiskReason.name).getD "PROP_RISK_LOCKED")
    else checkBudgets context order runtime evaluation committed

/-- `apply_prop_risk_pretrade`: an account without enabled settings passes every order. -/
def applyPropRiskPretrade (env : PropRiskEnv) (now : Nat) (nowMs : Nat)
    (context : RouteTargetContext) (order : RoutedOrder) (portfolio : PortfolioTables)
    (instruments : InstrumentTable) (tables : PropRiskTables) :
    Except ApiError (PretradeOutcome × PropRiskTables) := do
  let (runtime, read) ← loadPropRiskRuntime env now (context.account.balance.getD 0) tables
  match runtime with
  | none => return (.passed order, read)
  | some runtime =>
    let committed := committedRiskAtStops context.account.id portfolio instruments
    return (checkOrder nowMs context order committed runtime, read)

theorem checkOrder_passed {nowMs : Nat} {context : RouteTargetContext}
    {order order' : RoutedOrder} {committed : Option Decimal} {runtime : PropRiskRuntimeConfig}
    (h : checkOrder nowMs context order committed runtime = .passed order') :
    ∃ quantity warnings, order' = { order with quantity := quantity, warnings := warnings } := by
  unfold checkOrder checkBudgets capQuantity at h
  dsimp only at h
  repeat' split at h
  all_goals first
    | (cases h; exact ⟨_, _, rfl⟩)
    | cases h

/-- The check is what the settings it reads make of the order. -/
theorem applyPropRiskPretrade_ok {env : PropRiskEnv} {now nowMs : Nat}
    {context : RouteTargetContext} {order : RoutedOrder} {portfolio : PortfolioTables}
    {instruments : InstrumentTable} {tables tables' : PropRiskTables} {outcome : PretradeOutcome}
    (h : applyPropRiskPretrade env now nowMs context order portfolio instruments tables = .ok (outcome, tables')) :
    ∃ runtime, loadPropRiskRuntime env now (context.account.balance.getD 0) tables = .ok (runtime, tables') ∧
      outcome = match runtime with
        | none => .passed order
        | some runtime => checkOrder nowMs context order
            (committedRiskAtStops context.account.id portfolio instruments) runtime := by
  obtain ⟨⟨runtime, read⟩, hload, h⟩ := bind_ok.mp h
  cases runtime with
  | none =>
    cases h
    exact ⟨none, hload, rfl⟩
  | some runtime =>
    cases h
    exact ⟨some runtime, hload, rfl⟩

end MarketLens.PropRisk
