import MarketLens.Replay.Ledger

/-!
# Fills, marks and trade commands

What moves the ledger: a fill, the trigger rules that decide on one for a revealed
row, the mark at its close, and the commands of the trade panel. Rows are processed
in order; on each the brackets of the open positions come first, then the working
orders by submission, then the mark.
-/

namespace MarketLens.Replay

open Fallible Table

/-! ## Fills -/

/-- The row an insert into `replay_positions` starts with. -/
def emptyPosition (id trackId : Uuid) (symbol : String) : PositionRow :=
  ⟨id, trackId, symbol, 0, 0, 0, 0, none, none⟩

/-- The change a fill makes to the net quantity. -/
def Side.signed (side : Side) (qty : Int) : Int :=
  match side with
  | .buy => qty
  | .sell => -qty

/-- The row a fill leaves and the profit it realizes. -/
def PositionRow.filled (p : PositionRow) (side : Side) (qty : Int) (price : Decimal)
    (sl tp : Option Decimal) : PositionRow × Decimal :=
  let signed := side.signed qty
  let old := p.netQuantity
  let next := old + signed
  if old = 0 || sameSign old signed then
    let total := volume |old| + volume qty
    ({ p with
      netQuantity := next
      averagePrice := (p.averagePrice * volume |old| + price * volume qty) / total
      unrealizedPnl := 0
      stopLoss := sl.orElse fun _ => p.stopLoss
      takeProfit := tp.orElse fun _ => p.takeProfit }, 0)
  else
    let closed := min |old| qty
    let realized := (price - p.averagePrice) * volume closed
    let realized := if old < 0 then -realized else realized
    let p := { p with realizedPnl := p.realizedPnl + realized, unrealizedPnl := 0 }
    if |volume next| < dust then
      ({ p with netQuantity := 0, averagePrice := 0, stopLoss := none, takeProfit := none }, realized)
    else if !sameSign old next then
      ({ p with netQuantity := next, averagePrice := price, stopLoss := sl, takeProfit := tp },
        realized)
    else ({ p with netQuantity := next }, realized)

namespace Ledger

variable (ledger : Ledger)

/-- The position a fill of a track applies to, inserted when it is the first. -/
def positionFor (trackId : Uuid) (symbol : String) : Except ReplayError (PositionRow × Ledger) :=
  match ledger.positions.find? fun p => p.trackId = trackId && p.symbol = symbol with
  | some p => .ok (p, ledger)
  | none => do
    refuseIf (ledger.positions.any fun p => p.id = ledger.nextId) .database
    let p := emptyPosition ledger.nextId trackId symbol
    return (p, { ledger with positions := ledger.positions ++ [p], uuids := ledger.drawn })

/-- `applyPositionFill`. -/
def applyPositionFill (trackId : Uuid) (symbol : String) (side : Side) (qty : Int) (price : Decimal)
    (sl tp : Option Decimal) : Except ReplayError ((PositionRow × Decimal) × Ledger) := do
  let (p, ledger) ← ledger.positionFor trackId symbol
  let (filled, realized) := p.filled side qty price sl tp
  return ((filled, realized), { ledger with
    positions := updateWhere (fun row => row.id = p.id) (fun _ => filled) ledger.positions })

/-- A fill about to be made: the order, its market, and what it takes at which price. -/
structure FillRequest where
  orderId : Uuid
  trackId : Uuid
  symbol : String
  side : Side
  qty : Int
  price : Decimal
  seq : Nat
  «at» : Int
  sl : Option Decimal
  tp : Option Decimal

/-- The fill inserted, and its order filled whole. -/
def recordFill (row : FillRow) : Ledger :=
  { ledger with
    fills := ledger.fills ++ [row]
    orders := updateWhere (fun order => order.id = row.orderId)
      (fun order => { order with filledQuantity := order.quantity, status := .filled }) ledger.orders
    uuids := ledger.drawn }

/-- `balance = balance + amount`. -/
def book (amount : Decimal) : Ledger :=
  { ledger with account := ledger.account.map fun account =>
      { account with balance := account.balance + amount } }

/-- `fillOrder`: an order is filled once on a row, and then whole. -/
def fillOrder (fill : FillRequest) : Except ReplayError (List EventDraft × Ledger) := do
  refuseIf (fill.qty ≤ 0 || fill.price ≤ 0) (.badRequest "invalid fill")
  let commission ← ledger.commission fill.qty
  if ledger.fills.any fun row => row.orderId = fill.orderId && row.datasetSeq = fill.seq then
    return ([], ledger)
  refuseIf (ledger.fills.any fun row => row.id = ledger.nextId) .database
  let row : FillRow := ⟨ledger.nextId, fill.orderId, fill.trackId, fill.seq, fill.at, fill.price,
    fill.qty, commission⟩
  let ((position, realized), moved) ← (ledger.recordFill row).applyPositionFill fill.trackId
    fill.symbol fill.side fill.qty fill.price fill.sl fill.tp
  return ([.orderFilled fill.orderId fill.price fill.qty, .fillCreated row, .positionUpdated position,
    .accountUpdated realized], (moved.book (realized - commission)).refreshEquity)

/-! ## Revealed rows -/

/-- `markToMarket`. -/
def markToMarket (trackId : Uuid) (bar : Bar) : Ledger :=
  let open_ (p : PositionRow) : Bool := p.trackId = trackId && p.netQuantity ≠ 0
  let mark (p : PositionRow) : Decimal := (bar.close - p.averagePrice) * volume p.netQuantity
  refreshEquity { ledger with
    positions := updateWhere open_ (fun p => { p with unrealizedPnl := mark p }) ledger.positions }

end Ledger

/-- `triggerPrice`: where a working order fills on a row, if it does. -/
def triggerPrice (order : OrderRow) (bar : Bar) : Option Decimal :=
  match order.orderType, order.side with
  | .market, _ => none
  | .limit, .buy => order.limitPrice.bind fun limit =>
      if bar.low ≤ limit then some (min bar.open limit) else none
  | .limit, .sell => order.limitPrice.bind fun limit =>
      if limit ≤ bar.high then some (max bar.open limit) else none
  | .stop, .buy => order.stopPrice.bind fun stop =>
      if stop ≤ bar.high then some (max bar.open stop) else none
  | .stop, .sell => order.stopPrice.bind fun stop =>
      if bar.low ≤ stop then some (min bar.open stop) else none
  | .stopLimit, .buy => order.stopPrice.bind fun stop => order.limitPrice.bind fun limit =>
      if stop ≤ bar.high && bar.low ≤ limit then some limit else none
  | .stopLimit, .sell => order.stopPrice.bind fun stop => order.limitPrice.bind fun limit =>
      if bar.low ≤ stop && limit ≤ bar.high then some limit else none

/-- `gapOrLevel`. -/
def gapOrLevel (open_ level : Decimal) (up : Bool) : Decimal :=
  if up && level < open_ then open_
  else if !up && open_ < level then open_
  else level

/-- `bracketPrice`: where a row takes a position out, and by which bracket. -/
def bracketPrice (p : PositionRow) (bar : Bar) : Option (Decimal × String) :=
  let bull := bar.open ≤ bar.close
  if 0 < p.netQuantity then
    match p.stopLoss.filter (bar.low ≤ ·), p.takeProfit.filter (· ≤ bar.high) with
    | some sl, some tp =>
      if bull then some (gapOrLevel bar.open sl false, "stop_loss")
      else some (gapOrLevel bar.open tp true, "take_profit")
    | some sl, none => some (gapOrLevel bar.open sl false, "stop_loss")
    | none, some tp => some (gapOrLevel bar.open tp true, "take_profit")
    | none, none => none
  else if p.netQuantity < 0 then
    match p.stopLoss.filter (· ≤ bar.high), p.takeProfit.filter (bar.low ≤ ·) with
    | some sl, some tp =>
      if bull then some (gapOrLevel bar.open tp false, "take_profit")
      else some (gapOrLevel bar.open sl true, "stop_loss")
    | some sl, none => some (gapOrLevel bar.open sl true, "stop_loss")
    | none, some tp => some (gapOrLevel bar.open tp false, "take_profit")
    | none, none => none
  else none

namespace Ledger

/-- The side that takes a position down. -/
def closingSide (netQuantity : Int) : Side := if netQuantity < 0 then .buy else .sell

/-- An order for the whole or a part of a position, at the market. -/
def closingOrder (p : PositionRow) (clientOrderId : String) (quantity : Int) (submittedAt : Int) :
    OrderRow :=
  ⟨0, p.trackId, clientOrderId, closingSide p.netQuantity, .market, .pending, quantity, 0, none, none,
    none, none, submittedAt⟩

/-- The client id of the order a bracket places; one row takes a position out once. -/
def bracketClientId (p : PositionRow) (bar : Bar) : String := s!"bracket:{p.id}:{bar.seq}"

/-- The body of `processBrackets` for one position. -/
def processBracket (bar : Bar) (ledger : Ledger) (p : PositionRow) :
    Except ReplayError (List EventDraft × Ledger) :=
  match bracketPrice p bar with
  | none => .ok ([], ledger)
  | some (price, kind) =>
    if ledger.orders.any fun row => row.clientOrderId = bracketClientId p bar then .ok ([], ledger)
    else do
      let (orderId, placed) ← ledger.insertOrder
        (closingOrder p (bracketClientId p bar) |p.netQuantity| bar.openTime)
      let (filled, closed) ← placed.fillOrder ⟨orderId, p.trackId, p.symbol,
        closingSide p.netQuantity, |p.netQuantity|, price, bar.seq, bar.openTime, none, none⟩
      return (.bracketOrderCreated orderId kind :: filled, closed)

def openPositions (ledger : Ledger) (trackId : Uuid) : List PositionRow :=
  (ledger.positions.filter fun p => p.trackId = trackId && p.netQuantity ≠ 0).mergeSort
    fun a b => a.id ≤ b.id

/-- `processBrackets`. -/
def processBrackets (ledger : Ledger) (trackId : Uuid) (bar : Bar) :
    Except ReplayError (List EventDraft × Ledger) :=
  Journal.collect (processBracket bar) ledger (ledger.openPositions trackId)

def processOrder (symbol : String) (bar : Bar) (ledger : Ledger) (order : OrderRow) :
    Except ReplayError (List EventDraft × Ledger) :=
  match triggerPrice order bar with
  | none => .ok ([], ledger)
  | some price => ledger.fillOrder ⟨order.id, order.trackId, symbol, order.side,
      order.quantity - order.filledQuantity, price, bar.seq, bar.openTime, order.stopLoss,
      order.takeProfit⟩

/-- The body of `processRows` for one row. -/
def processRow (trackId : Uuid) (symbol : String) (ledger : Ledger) (bar : Bar) :
    Except ReplayError (List EventDraft × Ledger) := do
  let (brackets, ledger) ← ledger.processBrackets trackId bar
  let (fills, ledger) ← Journal.collect (processOrder symbol bar) ledger (ledger.pendingOrders trackId)
  return (brackets ++ fills, ledger.markToMarket trackId bar)

/-- `processRows`: a track with nothing at work is not marked either. -/
def processRows (ledger : Ledger) (trackId : Uuid) (symbol : String) (rows : List Bar) :
    Except ReplayError (List EventDraft × Ledger) :=
  if ledger.hasActiveMarketState trackId then
    Journal.collect (processRow trackId symbol) ledger rows
  else .ok ([], ledger)

end Ledger

end MarketLens.Replay
