import MarketLens.Domain.Text

/-!
# What an EA reports about its portfolio

The open positions and pending orders of one MT5 account as the EA sends them,
and the checks `accept_events` runs over each of them before anything is stored.
-/

namespace MarketLens

open Fallible

inductive Side where
  | buy
  | sell
deriving DecidableEq

inductive OrderKind where
  | market
  | limit
  | stop
deriving DecidableEq

/-- `EaPositionSnapshot`: one open position, under the broker's ticket. -/
structure EaPositionSnapshot where
  brokerPositionId : String
  canonicalSymbol : String
  venueSymbol : String
  side : Side
  quantity : Decimal
  openPrice : Decimal
  currentPrice : Decimal
  stopLoss : Option Decimal
  takeProfit : Option Decimal
  profit : Decimal
  swap : Decimal
  commission : Decimal
  magic : Int
  comment : String
  openedAtMs : Nat
  observedAtMs : Nat
deriving DecidableEq

/-- `EaPendingOrderSnapshot`: one working limit or stop order. -/
structure EaPendingOrderSnapshot where
  brokerOrderId : String
  canonicalSymbol : String
  venueSymbol : String
  side : Side
  kind : OrderKind
  quantity : Decimal
  price : Decimal
  stopLoss : Option Decimal
  takeProfit : Option Decimal
  magic : Int
  comment : String
  createdAtMs : Nat
  observedAtMs : Nat
deriving DecidableEq

/-- `u64::MAX`, where `saturating_add` stops. -/
def u64Max : Nat := 2 ^ 64 - 1

def saturatingAdd (a b : Nat) : Nat := min (a + b) u64Max

/-- An observation is at most a minute ahead of the gateway clock. -/
def validateSnapshotTime (nowMs observedAtMs : Nat) : Except ApiError Unit :=
  refuseIf (observedAtMs = 0 || observedAtMs > saturatingAdd nowMs 60000)
    ⟨.badRequest, "PORTFOLIO_TIME_INVALID", "portfolio observation time is invalid"⟩

def isNegative (value : Option Decimal) : Bool :=
  value.any (· < 0)

def validatePositionSnapshot (nowMs : Nat) (position : EaPositionSnapshot) :
    Except ApiError Unit := do
  validateBrokerTicket "brokerPositionId" position.brokerPositionId
  validatePlainText "canonicalSymbol" position.canonicalSymbol 1 64
  validatePlainText "venueSymbol" position.venueSymbol 1 64
  validatePlainText "comment" position.comment 0 128
  refuseIf
    (position.quantity ≤ 0 || position.openPrice ≤ 0 || position.currentPrice < 0
      || isNegative position.stopLoss || isNegative position.takeProfit)
    ⟨.badRequest, "POSITION_SNAPSHOT_INVALID", "position quantity or prices are invalid"⟩
  validateSnapshotTime nowMs position.observedAtMs

def validatePendingOrderSnapshot (nowMs : Nat) (order : EaPendingOrderSnapshot) :
    Except ApiError Unit := do
  validateBrokerTicket "brokerOrderId" order.brokerOrderId
  validatePlainText "canonicalSymbol" order.canonicalSymbol 1 64
  validatePlainText "venueSymbol" order.venueSymbol 1 64
  validatePlainText "comment" order.comment 0 128
  refuseIf
    (order.kind = .market || order.quantity ≤ 0 || order.price ≤ 0
      || isNegative order.stopLoss || isNegative order.takeProfit)
    ⟨.badRequest, "PENDING_ORDER_SNAPSHOT_INVALID",
      "pending order type, quantity, or prices are invalid"⟩
  validateSnapshotTime nowMs order.observedAtMs

end MarketLens
