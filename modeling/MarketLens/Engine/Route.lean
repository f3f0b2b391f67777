import MarketLens.Domain.Decimal
import MarketLens.Domain.Order

/-!
# The order router

`routeOrder` turns one intent into an order for each target account, or into the
reason why that account gets none. The targets are routed independently: one
account's rejection says nothing about another's order.

The order of a target is stored under an id of its own, derived from the intent's
id and the account.
-/

namespace MarketLens.Engine

open Fallible

abbrev RouteResult := Except (RouteRejectCode × String)

def basisPointsDenominator : Decimal := 10000

def toAsciiLower (c : Char) : Char :=
  if 'A' ≤ c && c ≤ 'Z' then Char.ofNat (c.toNat + 32) else c

/-- `eq_ignore_ascii_case`. -/
def equalIgnoreAsciiCase (first second : String) : Bool :=
  first.toList.map toAsciiLower = second.toList.map toAsciiLower

def containsSymbol (symbols : List String) (symbol : String) : Bool :=
  symbols.any fun candidate => equalIgnoreAsciiCase candidate symbol

section
variable (intent : OrderIntent)

/-- The price the order is expected to be entered at. -/
def entryPrice (target : RouteTargetContext) : Option Decimal :=
  match intent.kind with
  | .market => target.referencePrice
  | .limit => intent.limitPrice
  | .stop => intent.stopPrice

def wrongSide (side : Side) (stopLoss entry : Decimal) : Bool :=
  (side = .buy && entry ≤ stopLoss) || (side = .sell && stopLoss ≤ entry)

def validateProtectivePrices (target : RouteTargetContext) :
    RouteResult Unit :=
  match intent.stopLoss with
  | none => .ok ()
  | some stopLoss => do
    let entry ← require (entryPrice intent target) (.entryPriceRequired,
      "entry or fresh reference price is required to validate stop loss")
    refuseIf (wrongSide intent.side stopLoss entry)
      (.stopLossWrongSide, "stop loss is on the wrong side of the entry")
    refuseIf (target.instrument.minStopDistance.any fun minimum => |entry - stopLoss| < minimum)
      (.stopDistanceTooSmall, "stop loss is closer than the venue minimum distance")

/-! ## Sizing -/

def fixedTargetQuantity (quantity : Decimal) (unit targetUnit : QuantityUnit) :
    RouteResult Decimal := do
  refuseIf (unit ≠ targetUnit) (.quantityUnitMismatch,
    "fixed target quantity unit differs from the target venue")
  refuseIf (quantity ≤ 0) (.quantityInvalid, "fixed target quantity must be positive")
  return quantity

def fixedQuantity (targetUnit : QuantityUnit) : RouteResult Decimal :=
  match intent.sizing with
  | .fixed quantity unit =>
    if unit = targetUnit then .ok quantity
    else .error (.quantityUnitMismatch, "source and target quantity units differ")
  | .riskPercent _ =>
    .error (.quantityInvalid, "fixed copy allocation requires a fixed source quantity")

def riskSizedQuantity (basisPoints : Nat) (target : RouteTargetContext) :
    RouteResult Decimal := do
  let equity ← require target.account.equity
    (.targetEquityRequired, "target equity is required for risk sizing")
  let entry ← require (entryPrice intent target)
    (.entryPriceRequired, "entry or reference price is required for risk sizing")
  let stop ← require intent.stopLoss
    (.stopLossRequired, "stop loss is required for risk sizing")
  refuseIf (wrongSide intent.side stop entry)
    (.stopLossWrongSide, "stop loss is on the wrong side of the entry")
  let tickValue ← require target.instrument.tickValuePerQuantity
    (.tickValueRequired, "venue tick value is required for risk sizing")
  refuseIf (target.instrument.priceTick ≤ 0 || tickValue ≤ 0)
    (.tickValueRequired, "venue tick size and tick value must be positive")
  let riskMoney := equity * basisPoints / basisPointsDenominator
  let ticksToStop := |entry - stop| / target.instrument.priceTick
  refuseIf (ticksToStop ≤ 0) (.quantityInvalid, "stop distance must be positive")
  return riskMoney / (ticksToStop * tickValue)

section
variable (sourceEquity : Option Decimal)

def resolveQuantity
    (target : RouteTargetContext) : RouteResult Decimal :=
  let unit := target.instrument.quantityUnit
  match target.copyTarget.allocation with
  | .sameQuantity => fixedQuantity intent unit
  | .fixedQuantity quantity quantityUnit => fixedTargetQuantity quantity quantityUnit unit
  | .multiplier multiplier => do
    let quantity ← fixedQuantity intent unit
    return quantity * multiplier
  | .equityProportional multiplier => do
    let source ← require sourceEquity
      (.sourceEquityRequired, "source equity is required for proportional copying")
    let targetEquity ← require target.account.equity
      (.targetEquityRequired, "target equity is required for proportional copying")
    refuseIf (source ≤ 0 || targetEquity ≤ 0)
      (.targetEquityRequired, "source and target equity must be positive")
    let quantity ← fixedQuantity intent unit
    return quantity * (targetEquity / source) * multiplier
  | .riskPercent basisPoints => do
    refuseIf (basisPoints > target.policy.maxRiskPerTradeBasisPoints)
      (.riskLimitExceeded, "requested risk exceeds the target policy")
    riskSizedQuantity intent basisPoints target

/-- One cap: the quantity, and the warnings with this one when it was cut. -/
def capAt (maximum : Option Decimal) (warning : RouteWarning)
    (sized : Decimal × List RouteWarning) : Decimal × List RouteWarning :=
  match maximum with
  | none => sized
  | some maximum =>
    if sized.1 > maximum then (maximum, sized.2 ++ [warning]) else sized

section
variable (target : RouteTargetContext)

/-- The caps of the copy target, of the account's policy and of the venue, in this order. -/
def cappedQuantity (quantity : Decimal) :
    Decimal × List RouteWarning :=
  capAt (some target.instrument.maxQuantity) .quantityCappedByPolicy
    (capAt target.policy.maxOrderQuantity .quantityCappedByPolicy
      (capAt target.copyTarget.maxQuantity .quantityCappedByTarget (quantity, [])))

/-! ## Routing -/

/-- The account may be sent this order at all. -/
def checkTarget : RouteResult Unit := do
  refuseIf (!target.copyTarget.enabled) (.targetDisabled, "copy target is disabled")
  refuseIf (target.account.status ≠ .ready)
    (.accountNotReady, "target account is not ready")
  refuseIf (!target.account.tradeAllowed)
    (.accountCannotTrade, "target account does not allow trading")
  refuseIf (!target.instrument.tradeAllowed)
    (.symbolNotTradable, "instrument is not tradable at the target venue")
  refuseIf (!target.policy.allowedSymbols.isEmpty
      && !containsSymbol target.policy.allowedSymbols intent.canonicalSymbol)
    (.symbolNotAllowed, "instrument is not in the account allow-list")
  refuseIf (containsSymbol target.policy.blockedSymbols intent.canonicalSymbol)
    (.symbolBlocked, "instrument is blocked by the account risk policy")
  refuseIf (target.policy.requireStopLoss && intent.stopLoss.isNone)
    (.stopLossRequired, "target account requires a stop loss")
  validateProtectivePrices intent target

def routedOrder (quantity : Decimal)
    (warnings : List RouteWarning) : RoutedOrder :=
  let onTick := fun (price : Option Decimal) =>
    price.map fun price => roundToTick price target.instrument.priceTick
  { parentCommandId := intent.commandId
    commandId := intent.commandId ++ ":" ++ target.account.id
    idempotencyKey := intent.idempotencyKey ++ ":" ++ target.account.id
    targetAccountId := target.account.id
    brokerCode := target.account.brokerCode
    venueKind := target.account.venueKind
    canonicalSymbol := intent.canonicalSymbol
    venueSymbol := target.instrument.venueSymbol
    side := intent.side
    kind := intent.kind
    quantity := quantity
    quantityUnit := target.instrument.quantityUnit
    limitPrice := onTick intent.limitPrice
    stopPrice := onTick intent.stopPrice
    stopLoss := onTick intent.stopLoss
    takeProfit := onTick intent.takeProfit
    brokerMarginCap := none
    warnings := warnings }

/-- `route_target`, up to the shape of its answer. -/
def routeTo : RouteResult RoutedOrder := do
  checkTarget intent target
  let quantity ← resolveQuantity intent sourceEquity target
  let (normalized, warnings) := cappedQuantity target quantity
  let stepped := floorToStep normalized target.instrument.quantityStep
  let warnings := if stepped ≠ normalized then warnings ++ [.quantityFlooredToStep] else warnings
  refuseIf (stepped ≤ 0) (.quantityInvalid, "normalized quantity is not positive")
  refuseIf (stepped < target.instrument.minQuantity)
    (.quantityBelowMinimum, "normalized quantity is below the venue minimum")
  return routedOrder intent target stepped warnings

def routeTarget : TargetRouteResult :=
  match routeTo intent sourceEquity target with
  | .ok order => .ready target.account.id order
  | .error (code, message) => .rejected target.account.id code message

end

def routeOrder
    (targets : List RouteTargetContext) : List TargetRouteResult :=
  targets.map (routeTarget intent sourceEquity)

end

end

/-! ## What a routed order is -/

variable {intent : OrderIntent} {sourceEquity : Option Decimal} {target : RouteTargetContext}

theorem routeTarget_ok {accountId : String} {order : RoutedOrder}
    (h : routeTarget intent sourceEquity target = .ready accountId order) :
    accountId = target.account.id ∧ checkTarget intent target = .ok () ∧
      ∃ sized, resolveQuantity intent sourceEquity target = .ok sized ∧ ∃ warnings,
        let quantity := floorToStep (cappedQuantity target sized).1 target.instrument.quantityStep
        order = routedOrder intent target quantity warnings ∧ 0 < quantity ∧ target.instrument.minQuantity ≤ quantity := by
  unfold routeTarget at h
  cases hroute : routeTo intent sourceEquity target with
  | error =>
    rw [hroute] at h
    cases h
  | ok =>
    rw [hroute] at h
    injection h with hacct hord
    obtain ⟨hcheck, hroute⟩ := unit_bind_ok.mp hroute
    obtain ⟨sized, hsized, hroute⟩ := bind_ok.mp hroute
    obtain ⟨hpos, hroute⟩ := unit_bind_ok.mp hroute
    obtain ⟨hminimum, hroute⟩ := unit_bind_ok.mp hroute
    cases hroute
    have hpos := of_decide_eq_false (refuseIf_ok.mp hpos)
    have hminimum := of_decide_eq_false (refuseIf_ok.mp hminimum)
    exact ⟨hacct.symm, hcheck, sized, hsized, _, hord.symm, not_le.mp hpos, not_lt.mp hminimum⟩

/-! ## The quantity of a routed order -/

/-- The one price is below the other, and no closer than the venue's minimum. -/
def Below (minimum : Option Decimal) (low high : Decimal) : Prop :=
  low < high ∧ ∀ distance, minimum = some distance → distance ≤ |high - low|

/-- Between two prices there are as many boundaries of the rounding as the minimum has ticks, and at least one. -/
def RoundsBelow (tick : Decimal) (minimum : Option Decimal) (low high : Decimal) : Prop :=
  if tick ≤ 0 then Below minimum low high
  else ∃ units : ℤ, RoundsDown (low / tick) units
    ∧ ¬ RoundsDown (high / tick) (units + max 1 (minimum.elim 1 fun distance => ⌈distance / tick⌉) - 1)

def Ordered (side : Side) (relation : Decimal → Decimal → Prop) (losing winning : Decimal) : Prop :=
  match side with
  | .buy => relation losing winning
  | .sell => relation winning losing

def Protected (side : Side) (relation : Decimal → Decimal → Prop) (entry : Decimal) (stopLoss takeProfit : Option Decimal) : Prop :=
  (∀ stop, stopLoss = some stop → Ordered side relation stop entry)
    ∧ ∀ profit, takeProfit = some profit → Ordered side relation entry profit

theorem below_round_iff {tick : Decimal} {minimum : Option Decimal} {low high : Decimal} :
    Below minimum (roundToTick low tick) (roundToTick high tick) ↔ RoundsBelow tick minimum low high := by
  unfold RoundsBelow
  split
  next htick => rw [roundToTick, roundToTick, if_pos htick, if_pos htick]
  next htick =>
    have hpos : 0 < tick := not_le.mp htick
    let low' := roundHalfEven (low / tick)
    let high' := roundHalfEven (high / tick)
    let ticks := max 1 (minimum.elim 1 fun distance => ⌈distance / tick⌉)
    have hdiff : (high' : Decimal) * tick - low' * tick = ((high' - low' : ℤ) : Decimal) * tick := by push_cast; ring
    have hbelow : Below minimum (roundToTick low tick) (roundToTick high tick) ↔ ticks ≤ high' - low' := by
      rw [roundToTick, roundToTick, if_neg htick, if_neg htick, Below, mul_lt_mul_iff_left₀ hpos, hdiff, max_le_iff, Int.cast_lt,
        show roundHalfEven (low / tick) < roundHalfEven (high / tick) ↔ 1 ≤ high' - low' by omega]
      refine and_congr_right fun hone => ?_
      have hnonneg : (0 : Decimal) ≤ ((high' - low' : ℤ) : Decimal) := by exact_mod_cast (by omega : 0 ≤ high' - low')
      rw [abs_of_nonneg (mul_nonneg hnonneg hpos.le)]
      cases minimum with
      | none => exact iff_of_true nofun hone
      | some distance =>
        change _ ↔ ⌈distance / tick⌉ ≤ _
        rw [Int.ceil_le, div_le_iff₀ hpos]
        exact ⟨fun h => h distance rfl, fun h _ hdistance => Option.some.inj hdistance ▸ h⟩
    rw [hbelow]
    simp only [← roundHalfEven_le_iff]
    constructor
    · exact fun h => ⟨low', le_rfl, by omega⟩
    · rintro ⟨units, hlow, hhigh⟩
      omega

/-- **The protection of a routed order keeps to the venue's rule exactly when enough boundaries of the rounding lie between the
prices of the intent.** -/
theorem routed_protected_iff {accountId : String} {order : RoutedOrder}
    (h : routeTarget intent sourceEquity target = .ready accountId order) :
    (∀ entry, entryPrice intent target = some entry → Protected order.side (Below target.instrument.minStopDistance)
        (roundToTick entry target.instrument.priceTick) order.stopLoss order.takeProfit)
      ↔ ∀ entry, entryPrice intent target = some entry → Protected intent.side
        (RoundsBelow target.instrument.priceTick target.instrument.minStopDistance) entry intent.stopLoss intent.takeProfit := by
  obtain ⟨-, -, _, -, warnings, rfl, -⟩ := routeTarget_ok h
  have hordd (losing winning : Decimal) :
      Ordered intent.side (Below target.instrument.minStopDistance) (roundToTick losing target.instrument.priceTick)
          (roundToTick winning target.instrument.priceTick)
        ↔ Ordered intent.side (RoundsBelow target.instrument.priceTick target.instrument.minStopDistance) losing winning := by
    cases intent.side with
    | buy | sell => exact below_round_iff
  simp only [Protected, routedOrder, Option.map_eq_some_iff, forall_exists_index, and_imp, forall_apply_eq_imp_iff₂, hordd]

def limitIntent (price stop : Decimal) : OrderIntent :=
  ⟨"c1", "k1", none, "EURUSD", .buy, .limit, .fixed 1 .lots, some price, none, some stop, none⟩

/-- An account that may trade on a grid of whole prices. -/
def wholeTarget (allocation : CopyAllocation) : RouteTargetContext :=
  ⟨⟨"mt5-a", .metaTrader5, "broker", .ready, some 1000, some 1000, true, 0⟩,
    ⟨"EURUSD", "EURUSD", .lots, 1 / 10, 1 / 10, 100, 1, some 1, none, true⟩,
    ⟨500, none, true, [], []⟩, ⟨"mt5-a", true, allocation, some 5⟩, none⟩

/-- Prices on the grid keep their protection. -/
theorem whole_prices_protected : ∃ order, routeTarget (limitIntent 10 8) none (wholeTarget .sameQuantity) = .ready "mt5-a" order ∧
    ∀ entry, entryPrice (limitIntent 10 8) (wholeTarget .sameQuantity) = some entry →
      Protected order.side (Below none) (roundToTick entry 1) order.stopLoss order.takeProfit := by
  have hroute : routeTarget (limitIntent 10 8) none (wholeTarget .sameQuantity)
      = .ready "mt5-a" (routedOrder (limitIntent 10 8) (wholeTarget .sameQuantity) 1 []) := by decide +kernel
  refine ⟨_, hroute, (routed_protected_iff hroute).mpr ?_⟩
  rintro _ ⟨⟩
  refine ⟨?_, nofun⟩
  rintro _ ⟨⟩
  change RoundsBelow 1 none 8 10
  rw [RoundsBelow, if_neg (by norm_num)]
  exact ⟨8, by unfold RoundsDown; norm_num, by unfold RoundsDown; norm_num⟩

/-- A stop within a tick of the entry is rounded onto it. -/
theorem near_stop_unprotected :
    ∃ order, routeTarget (limitIntent (104 / 10) (96 / 10)) none (wholeTarget .sameQuantity)
      = .ready "mt5-a" order ∧ ¬ ∀ entry, entryPrice (limitIntent (104 / 10) (96 / 10)) (wholeTarget .sameQuantity) = some entry →
    Protected order.side (Below none) (roundToTick entry 1) order.stopLoss order.takeProfit := by
  refine ⟨routedOrder (limitIntent (104 / 10) (96 / 10)) (wholeTarget .sameQuantity) 1 [], by decide +kernel, fun h => ?_⟩
  have hbelow := ((h _ rfl).1 _ rfl).1
  exact absurd hbelow (by decide +kernel)

/-! ## The risk of a routed order -/

def lossBetween (instrument : InstrumentSpec) (tickValue entry stop quantity : Decimal) : Decimal :=
  |entry - stop| / instrument.priceTick * tickValue * quantity

/-- The entry is rounded away from the stop: nine are lost where five may be. -/
theorem widened_stop_risk :
    ∃ order, routeTarget (limitIntent (115 / 10) (104 / 10)) none (wholeTarget (.riskPercent 50))
      = .ready "mt5-a" order ∧
    ¬ lossBetween (wholeTarget (.riskPercent 50)).instrument 1 (roundToTick (115 / 10) 1) (roundToTick (104 / 10) 1) order.quantity
      ≤ 1000 * (50 : Nat) / basisPointsDenominator :=
  ⟨routedOrder (limitIntent (115 / 10) (104 / 10)) (wholeTarget (.riskPercent 50)) (45 / 10) [.quantityFlooredToStep],
    by decide +kernel, by decide +kernel⟩

end MarketLens.Engine
