import MarketLens.Replay.Orders

/-!
# The report of a replay

What `buildReplayReport` derives from the rows of a session: trades opened and
closed, rebuilt from the fills one track at a time, and the worst point of the
equity curve. The positions are not asked.
-/

namespace MarketLens.Replay

/-- `reportPositionState`; the zero value has no position. -/
structure ReportPositionState where
  net : Decimal
  average : Decimal
  entryCommission : Decimal
deriving DecidableEq

def ReportPositionState.flat : ReportPositionState := ⟨0, 0, 0⟩

/-- `sameSign`, of quantities that are no longer counted in units. -/
def sameDirection (a b : Decimal) : Bool := (0 < a && 0 < b) || (a < 0 && b < 0)

/-- `applyReportFill`: the state, and the profit of the trade it closed if it closed one. -/
def applyReportFill (state : ReportPositionState) (side : Side) (price quantity commission : Decimal) :
    ReportPositionState × Option Decimal :=
  let signed := match side with
    | .buy => quantity
    | .sell => -quantity
  if state.net = 0 || sameDirection state.net signed then
    let total := |state.net| + quantity
    (⟨state.net + signed, (state.average * |state.net| + price * quantity) / total,
      state.entryCommission + commission⟩, none)
  else
    let closedQuantity := min |state.net| quantity
    let entryCommission := state.entryCommission * closedQuantity / |state.net|
    let exitCommission := commission * closedQuantity / quantity
    let gross := (price - state.average) * closedQuantity
    let pnl := (if state.net < 0 then -gross else gross) - (entryCommission + exitCommission)
    let next := state.net + signed
    if |next| < dust then (.flat, some pnl)
    else if !sameDirection state.net next then
      (⟨next, price, commission - exitCommission⟩, some pnl)
    else (⟨next, state.average, state.entryCommission - entryCommission⟩, some pnl)

/-- The trades counted so far, and the state of each track. -/
structure ReportTally where
  states : Uuid → ReportPositionState
  closedTrades : Nat
  winningTrades : Nat
  losingTrades : Nat

def ReportTally.none : ReportTally := ⟨fun _ => .flat, 0, 0, 0⟩

/-- The body of the loop over the fills. -/
def ReportTally.after (tally : ReportTally) (row : FillRow × OrderRow) : ReportTally :=
  let (fill, order) := row
  let (state, closed) := applyReportFill (tally.states fill.trackId) order.side fill.price
    (volume fill.quantity) fill.commission
  let states := fun id => if id = fill.trackId then state else tally.states id
  match closed with
  | .none => { tally with states := states }
  | some pnl =>
    if 0 < pnl then
      ⟨states, tally.closedTrades + 1, tally.winningTrades + 1, tally.losingTrades⟩
    else ⟨states, tally.closedTrades + 1, tally.winningTrades, tally.losingTrades + 1⟩

/-- The order of `buildReplayReport`. -/
def Ledger.reportBefore (a b : FillRow × OrderRow) : Bool :=
  a.1.simulatedAt < b.1.simulatedAt || (a.1.simulatedAt = b.1.simulatedAt &&
    (a.1.datasetSeq < b.1.datasetSeq || (a.1.datasetSeq = b.1.datasetSeq &&
      a.2.clientOrderId ≤ b.2.clientOrderId)))

def Ledger.reportRows (ledger : Ledger) : List (FillRow × OrderRow) :=
  (ledger.fills.flatMap fun fill =>
    (ledger.orders.filter fun order => order.id = fill.orderId).map fun order => (fill, order)).mergeSort reportBefore

/-- `ReplayReport`. -/
structure ReplayReport where
  account : ReplayAccount
  fills : List FillRow
  closedTrades : Nat
  winningTrades : Nat
  losingTrades : Nat
  netPnl : Decimal
  maxDrawdown : Decimal

/-- `buildReplayReport`. -/
def buildReplayReport (ledger : Ledger) : Except ReplayError ReplayReport := do
  let trading ← Fallible.require (loadTradingSnapshot ledger) .notFound
  let tally := ledger.reportRows.foldl ReportTally.after .none
  return {
    account := trading.account
    fills := trading.fills
    closedTrades := tally.closedTrades
    winningTrades := tally.winningTrades
    losingTrades := tally.losingTrades
    netPnl := trading.account.balance - trading.account.startingEquity
    maxDrawdown := ((ledger.equityPoints.map (·.drawdown)).max?).getD 0 }

end MarketLens.Replay
