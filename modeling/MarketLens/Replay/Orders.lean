import MarketLens.Replay.Trading

/-!
# Trade commands and the trading projection

The commands of the replay trade panel, and the projection of the ledger that a
session snapshot carries. A market order and a close fill at once, at the close of
the row under the cursor; every other order waits for a row to be revealed.
-/

namespace MarketLens.Replay

open Fallible Table

/-! ## Request bodies -/

/-- `strings.ToLower` as far as an ASCII word can tell: two letters outside ASCII lower into it. -/
def lowerChar (c : Char) : Char :=
  if c.toNat = 0x212A then 'k' else if c.toNat = 0x130 then 'i' else c.toLower

/-- A word of a request, trimmed and in lower case. -/
def lowered (value : String) : String := String.ofList ((trim value).toList.map lowerChar)

/-- The payload of `place_order`; an id that is left out is `none`. -/
structure PlaceBody where
  clientOrderId : String
  trackId : Option Uuid
  side : String
  orderType : String
  quantity : Decimal
  limitPrice : Option Decimal
  stopPrice : Option Decimal
  takeProfit : Option Decimal
  stopLoss : Option Decimal
deriving DecidableEq

/-- The payload of `update_order`. -/
structure UpdateBody where
  orderId : Option Uuid
  stopLoss : Option Decimal
  takeProfit : Option Decimal
deriving DecidableEq

/-- The payload of `close_position`. -/
structure CloseBody where
  positionId : Option Uuid
  trackId : Option Uuid
  fraction : Decimal
  quantity : Option Decimal
deriving DecidableEq

def parseSide (value : String) : Option Side :=
  match lowered value with
  | "buy" | "long" => some .buy
  | "sell" | "short" => some .sell
  | _ => none

def parseOrderType (value : String) : Option OrderType :=
  match lowered value with
  | "" | "market" => some .market
  | "limit" => some .limit
  | "stop" => some .stop
  | "stop_limit" => some .stopLimit
  | _ => none

/-- The price an order type cannot do without, as the refusal names it. -/
def missingPrice (body : PlaceBody) : OrderType → Option String
  | .market => none
  | .limit => if body.limitPrice.any validPrice then none else some "limitPrice is required"
  | .stop => if body.stopPrice.any validPrice then none else some "stopPrice is required"
  | .stopLimit =>
    if body.stopPrice.any validPrice && body.limitPrice.any validPrice then none
    else some "stopPrice and limitPrice are required"

/-- The price a bracket is measured against: the close for a market order. -/
def entryPrice (body : PlaceBody) (close : Decimal) : OrderType → Decimal
  | .market => close
  | .limit | .stopLimit => body.limitPrice.getD close
  | .stop => body.stopPrice.getD close

def wrongSideOfEntry : ReplayError :=
  .badRequest "stop loss/take profit are on the wrong side of entry"

/-- What a trade command knows of the market: the track, the clock and the row under the cursor. -/
structure MarketView where
  trackId : Uuid
  symbol : String
  simulatedTime : Int
  bar : Bar

namespace Ledger

variable (ledger : Ledger)

/-! ## Commands -/

/-- `place`. -/
def place (view : MarketView) (payload : Option PlaceBody) :
    Except ReplayError (List EventDraft × Ledger) := do
  let body ← require payload (.badRequest "invalid place_order payload")
  let clientOrderId := trim body.clientOrderId
  let side ← require (parseSide body.side) (.badRequest "invalid replay order")
  refuseIf (clientOrderId = "" || 200 < clientOrderId.utf8ByteSize || body.quantity ≤ 0)
    (.badRequest "invalid replay order")
  let orderType ← require (parseOrderType body.orderType) (.badRequest "unsupported order type")
  match missingPrice body orderType with
  | some message => .error (.badRequest message)
  | none =>
    refuseIf (!validBracket side (entryPrice body view.bar.close orderType) body.stopLoss
      body.takeProfit) wrongSideOfEntry
    refuseIf (body.trackId.any (· ≠ view.trackId))
      (.badRequest "order track does not belong to the session")
    let (orderId, placed) ← ledger.insertOrder ⟨0, view.trackId, clientOrderId, side, orderType,
      .pending, toUnits body.quantity, 0, body.limitPrice, body.stopPrice, body.takeProfit,
      body.stopLoss, view.simulatedTime⟩
    let created := EventDraft.orderCreated orderId clientOrderId view.trackId
    if orderType = .market then do
      let (filled, final) ← placed.fillOrder ⟨orderId, view.trackId, view.symbol, side,
        toUnits body.quantity, view.bar.close, view.bar.seq, view.simulatedTime, body.stopLoss,
        body.takeProfit⟩
      return (created :: filled, final)
    else return ([created], placed)

/-- `cancel`. -/
def cancel (orderId : Option Uuid) : Except ReplayError (List EventDraft × Ledger) := do
  let orderId ← require orderId (.badRequest "orderId is required")
  let cancellable (order : OrderRow) : Bool := order.id = orderId && order.status.active
  refuseIf (!ledger.orders.any cancellable) .notFound
  return ([.orderCancelled orderId], { ledger with
    orders := updateWhere cancellable (fun order => { order with status := .cancelled })
      ledger.orders })

/-- The side and the entry a bracket update is checked against: those of the track's position
while it is open. -/
def bracketReference (order : OrderRow) : Side × Option Decimal :=
  match ledger.positions.find? fun p => p.trackId = order.trackId with
  | none => (order.side, order.limitPrice.orElse fun _ => order.stopPrice)
  | some p =>
    (if 0 < p.netQuantity then .buy else if p.netQuantity < 0 then .sell else order.side,
      if p.averagePrice ≠ 0 then some p.averagePrice
      else order.limitPrice.orElse fun _ => order.stopPrice)

/-- `updateBracket`. -/
def updateBracket (payload : Option UpdateBody) : Except ReplayError (List EventDraft × Ledger) := do
  let body ← require payload (.badRequest "orderId is required")
  let orderId ← require body.orderId (.badRequest "orderId is required")
  refuseIf (!(body.stopLoss.all validPrice && body.takeProfit.all validPrice))
    (.badRequest "bracket prices must be positive")
  let order ← require (ledger.orders.find? fun order => order.id = orderId) .notFound
  let (side, entry) := ledger.bracketReference order
  refuseIf (entry.any fun entry => !validBracket side entry body.stopLoss body.takeProfit)
    wrongSideOfEntry
  refuseIf (order.status = .cancelled) .notFound
  return ([.orderUpdated orderId body.stopLoss body.takeProfit], { ledger with
    orders := updateWhere (fun row => row.id = orderId)
      (fun row => { row with stopLoss := body.stopLoss, takeProfit := body.takeProfit }) ledger.orders
    positions := updateWhere (fun p => p.trackId = order.trackId && p.netQuantity ≠ 0)
      (fun p => { p with stopLoss := body.stopLoss, takeProfit := body.takeProfit })
      ledger.positions })

/-- How much of a position a close request takes. -/
def closeQuantity (body : CloseBody) (netQuantity : Int) : Decimal :=
  let held := volume |netQuantity|
  match body.quantity with
  | some quantity => min held quantity
  | none => if 0 < body.fraction && body.fraction ≤ 1 then held * body.fraction else held

/-- `closePosition`; `version` is the session's before the command. -/
def closePosition (view : MarketView) (version : Nat) (payload : Option CloseBody) :
    Except ReplayError (List EventDraft × Ledger) := do
  let body ← require payload (.badRequest "positionId is required")
  let positionId ← require body.positionId (.badRequest "positionId is required")
  let p ← require (ledger.positions.find? fun p => p.id = positionId) .notFound
  refuseIf (p.trackId ≠ view.trackId || body.trackId.any (· ≠ view.trackId))
    (.badRequest "position track does not belong to the selected chart")
  refuseIf (|volume p.netQuantity| < dust) (.badRequest "position is already flat")
  refuseIf (closeQuantity body p.netQuantity ≤ 0) (.badRequest "invalid close quantity")
  let qty := toUnits (closeQuantity body p.netQuantity)
  let clientOrderId := s!"close:{positionId}:{version}"
  let (orderId, placed) ← ledger.insertOrder (closingOrder p clientOrderId qty view.simulatedTime)
  let (filled, final) ← placed.fillOrder ⟨orderId, p.trackId, p.symbol, closingSide p.netQuantity,
    qty, view.bar.close, view.bar.seq, view.simulatedTime, none, none⟩
  return (.orderCreated orderId clientOrderId p.trackId :: filled, final)

end Ledger

/-! ## Projection -/

/-- `ReplayAccount`. -/
structure ReplayAccount where
  baseCurrency : String
  startingEquity : Decimal
  balance : Decimal
  equity : Decimal
deriving DecidableEq

def AccountRow.projected (account : AccountRow) : ReplayAccount :=
  ⟨account.baseCurrency, account.startingEquity, account.balance, account.equity⟩

/-- `TradingSnapshot`. -/
structure TradingSnapshot where
  account : ReplayAccount
  orders : List OrderRow
  fills : List FillRow
  positions : List PositionRow
deriving DecidableEq

/-- `loadTradingSnapshot`. -/
def loadTradingSnapshot (ledger : Ledger) : Option TradingSnapshot :=
  ledger.account.map fun account => {
    account := account.projected
    orders := ledger.orders.mergeSort fun a b =>
      a.submittedAt < b.submittedAt || (a.submittedAt = b.submittedAt && a.id ≤ b.id)
    fills := ledger.fills.mergeSort fun a b =>
      a.simulatedAt < b.simulatedAt || (a.simulatedAt = b.simulatedAt && a.id ≤ b.id)
    positions := ledger.positions.mergeSort fun a b =>
      a.symbol < b.symbol || (a.symbol = b.symbol && a.id ≤ b.id) }

end MarketLens.Replay
