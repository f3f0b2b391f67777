import Mathlib.Data.Rat.Floor
import MarketLens.Lib.Journal
import MarketLens.Lib.Table
import MarketLens.Replay.Aggregation

/-!
# The trading ledger of a replay session

The account, orders, fills, positions and equity points of one session, as rows,
and the operations that write them. Every operation returns the events it drafts
and the ledger it leaves; an error leaves the transaction, and so the ledger, as
it was.

Quantities are integers in units of 10⁻¹⁰, the scale of the `numeric(28,10)`
columns they live in. Prices and money are exact. The ids that `gen_random_uuid`
will draw are part of the state.
-/

namespace MarketLens.Replay

open Fallible Table

abbrev Uuid := Nat

inductive ReplayError where
  | badRequest (message : String)
  | notFound
  | dataUnavailable (firstAvailable lastAvailable : Int) (slot : Nat) (symbol : String)
      (chartTimeframe : Timeframe)
  | unsupportedReplayInterval (message : String)
  | versionConflict (currentVersion : Nat)
  | sessionBusy
  | sessionClosed
  | rewindRequiresFork
  /-- A source row out of sequence in the aggregation. -/
  | aggregation
  /-- A statement the database refuses, or a row that has to be there and is not. -/
  | database

/-! ## Rows -/

inductive Side where
  | buy
  | sell
deriving DecidableEq

inductive OrderType where
  | market
  | limit
  | stop
  | stopLimit
deriving DecidableEq

inductive OrderStatus where
  | pending
  | partiallyFilled
  | filled
  | cancelled
  | rejected
deriving DecidableEq

/-- `status IN ('pending', 'partially_filled')`. -/
def OrderStatus.active : OrderStatus → Bool
  | .pending | .partiallyFilled => true
  | .filled | .cancelled | .rejected => false

/-- A row of `replay_orders`. -/
structure OrderRow where
  id : Uuid
  trackId : Uuid
  clientOrderId : String
  side : Side
  orderType : OrderType
  status : OrderStatus
  quantity : Int
  filledQuantity : Int
  limitPrice : Option Decimal
  stopPrice : Option Decimal
  takeProfit : Option Decimal
  stopLoss : Option Decimal
  submittedAt : Int
deriving DecidableEq

/-- A row of `replay_fills`. -/
structure FillRow where
  id : Uuid
  orderId : Uuid
  trackId : Uuid
  datasetSeq : Nat
  simulatedAt : Int
  price : Decimal
  quantity : Int
  commission : Decimal
deriving DecidableEq

/-- A row of `replay_positions`. -/
structure PositionRow where
  id : Uuid
  trackId : Uuid
  symbol : String
  netQuantity : Int
  averagePrice : Decimal
  realizedPnl : Decimal
  unrealizedPnl : Decimal
  stopLoss : Option Decimal
  takeProfit : Option Decimal
deriving DecidableEq

/-- The commission model of an account: a kind, empty for none, and the rate its text denotes. -/
structure CommissionModel where
  kind : String
  value : Option Decimal
deriving DecidableEq

/-- A row of `replay_accounts`. -/
structure AccountRow where
  baseCurrency : String
  startingEquity : Decimal
  balance : Decimal
  equity : Decimal
  commissionModel : CommissionModel
deriving DecidableEq

/-- A row of `replay_equity_points`. -/
structure EquityPoint where
  eventSeq : Nat
  simulatedAt : Int
  balance : Decimal
  equity : Decimal
  drawdown : Decimal

/-- The rows of one session, and the ids its inserts will draw. -/
@[ext] structure Ledger where
  account : Option AccountRow
  orders : List OrderRow
  fills : List FillRow
  positions : List PositionRow
  equityPoints : List EquityPoint
  uuids : Nat → Uuid

/-- `insertReplayAccount`, on a new session. -/
def Ledger.create (baseCurrency : String) (startingEquity : Decimal) (commission : CommissionModel)
    (uuids : Nat → Uuid) : Ledger :=
  ⟨some ⟨baseCurrency, startingEquity, startingEquity, startingEquity, commission⟩, [], [], [], [],
    uuids⟩

/-- A session prepared without trading. -/
def Ledger.disabled (uuids : Nat → Uuid) : Ledger := ⟨none, [], [], [], [], uuids⟩

/-! ## Quantities and prices -/

/-- The decimal a quantity column denotes. -/
def volume (units : Int) : Decimal := units / 10 ^ 10

/-- A number as a `numeric(28,10)` column keeps it: ten decimals, halves away from zero. -/
def toUnits (value : Decimal) : Int :=
  if value < 0 then -⌊-value * 10 ^ 10 + 1 / 2⌋ else ⌊value * 10 ^ 10 + 1 / 2⌋

/-- Below this a quantity counts as none. -/
def dust : Decimal := 1 / 10 ^ 12

/-- `sameSign`. -/
def sameSign (a b : Int) : Bool := (0 < a && 0 < b) || (a < 0 && b < 0)

/-- `validPrice` of a price that is given. -/
def validPrice (value : Decimal) : Bool := 0 < value

/-- `validBracket`. -/
def validBracket (side : Side) (entry : Decimal) (stopLoss takeProfit : Option Decimal) : Bool :=
  stopLoss.all validPrice && takeProfit.all validPrice &&
    match side with
    | .buy => stopLoss.all (· < entry) && takeProfit.all (entry < ·)
    | .sell => stopLoss.all (entry < ·) && takeProfit.all (· < entry)

/-! ## Events -/

inductive SessionStatus where
  | preparing
  | paused
  | playing
  | completed
  | closed
  | failed
deriving DecidableEq

/-- What a command appends to the event log of its session. -/
inductive EventDraft where
  | barUpsert (trackId : Uuid) (bar : ReplayBar)
  | barsBatch (trackId : Uuid) (bars : List ReplayBar)
  | cursorAdvanced (trackId : Uuid) (cursorSeq : Nat) (visibleThrough : Int)
  | trackReset (trackId : Uuid) (cursorSeq : Nat) (visibleThrough : Int)
  | stateChanged (status : SessionStatus) (speed : Decimal) (pauseReason : Option String)
      (replayIntervalSeconds : Nat)
  | orderCreated (orderId : Uuid) (clientOrderId : String) (trackId : Uuid)
  | bracketOrderCreated (orderId : Uuid) (reason : String)
  | orderCancelled (orderId : Uuid)
  | orderUpdated (orderId : Uuid) (stopLoss takeProfit : Option Decimal)
  | orderFilled (orderId : Uuid) (price : Decimal) (quantity : Int)
  | fillCreated (fill : FillRow)
  | positionUpdated (position : PositionRow)
  | accountUpdated (realizedDelta : Decimal)
  | tradingReset (simulatedAt : Int)

/-- The `event_type` of a draft. -/
def EventDraft.typ : EventDraft → String
  | .barUpsert .. => "track.bar.upsert"
  | .barsBatch .. => "track.bars.batch"
  | .cursorAdvanced .. => "cursor.advanced"
  | .trackReset .. => "track.reset"
  | .stateChanged .. => "state.changed"
  | .orderCreated .. | .bracketOrderCreated .. => "order.created"
  | .orderCancelled .. => "order.cancelled"
  | .orderUpdated .. => "order.updated"
  | .orderFilled .. => "order.filled"
  | .fillCreated .. => "fill.created"
  | .positionUpdated .. => "position.updated"
  | .accountUpdated .. => "account.updated"
  | .tradingReset .. => "trading.reset"

/-- The test of `tradeChangedInDrafts` on one draft: `order.*`, the fill, position and account
events, and the reset. -/
def EventDraft.isTrade : EventDraft → Bool
  | .barUpsert .. | .barsBatch .. | .cursorAdvanced .. | .trackReset .. | .stateChanged .. => false
  | .orderCreated .. | .bracketOrderCreated .. | .orderCancelled .. | .orderUpdated ..
  | .orderFilled .. | .fillCreated .. | .positionUpdated .. | .accountUpdated ..
  | .tradingReset .. => true

/-- `tradeChangedInDrafts`. -/
def tradeChangedInDrafts (drafts : List EventDraft) : Bool := drafts.any EventDraft.isTrade

/-! ## Statements -/

namespace Ledger

variable (ledger : Ledger)

/-- The id an insert draws. -/
def nextId : Uuid := ledger.uuids 0

/-- The source of ids after a draw. -/
def drawn : Nat → Uuid := fun n => ledger.uuids (n + 1)

/-- `ledgerRuntime.enabled`. -/
def enabled : Bool := ledger.account.isSome

/-- `ledgerRuntime.hasFills`. -/
def hasFills : Bool := !ledger.fills.isEmpty

/-- `INSERT INTO replay_orders`; `order` is the row up to its id. -/
def insertOrder (order : OrderRow) : Except ReplayError (Uuid × Ledger) := do
  refuseIf (ledger.orders.any fun row => row.clientOrderId = order.clientOrderId) .database
  refuseIf (order.quantity ≤ 0 || ledger.orders.any fun row => row.id = ledger.nextId) .database
  return (ledger.nextId, { ledger with
    orders := ledger.orders ++ [{ order with id := ledger.nextId }]
    uuids := ledger.drawn })

/-- `equity = balance + sum(unrealized_pnl)`. -/
def refreshEquity : Ledger :=
  { ledger with account := ledger.account.map fun account =>
      { account with equity := account.balance + (ledger.positions.map (·.unrealizedPnl)).sum } }

/-- `commissionFromModel`. -/
def commissionFromModel (model : CommissionModel) (quantity : Int) : Except ReplayError Decimal :=
  if model.kind = "" then .ok 0
  else match model.value with
    | none => .error (.badRequest "invalid commission model")
    | some value =>
      if value < 0 then .error (.badRequest "invalid commission model")
      else if model.kind ≠ "per_unit" then .error (.badRequest "unsupported commission model")
      else .ok (value * volume quantity)

/-- `ledgerRuntime.commission`. -/
def commission (quantity : Int) : Except ReplayError Decimal := do
  let account ← require ledger.account .database
  commissionFromModel account.commissionModel quantity

/-- `ledgerRuntime.reset`: the fills go with their orders. -/
def reset (at_ : Int) : List EventDraft × Ledger :=
  ([.tradingReset at_], { ledger with
    orders := []
    fills := ledger.fills.filter fun fill => !ledger.orders.any fun order => order.id = fill.orderId
    account := ledger.account.map fun account =>
      { account with balance := account.startingEquity, equity := account.startingEquity } })

/-- `ledgerRuntime.hasActiveMarketState`. -/
def hasActiveMarketState (trackId : Uuid) : Bool :=
  ledger.orders.any (fun order => order.trackId = trackId && order.status.active) ||
    ledger.positions.any fun position => position.trackId = trackId && position.netQuantity ≠ 0

/-- `ledgerRuntime.pendingOrders`: by submission, then by client id. -/
def pendingOrders (trackId : Uuid) : List OrderRow :=
  (ledger.orders.filter fun order => order.trackId = trackId && order.status.active).mergeSort
    fun a b => a.submittedAt < b.submittedAt ||
      (a.submittedAt = b.submittedAt && a.clientOrderId ≤ b.clientOrderId)

end Ledger

end MarketLens.Replay
