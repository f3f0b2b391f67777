import MarketLens.Lib.KeyedMap
import MarketLens.Domain.Snapshot

/-!
# The copier's portfolio diff

`diffPortfolio` compares the portfolio a source account had with the one its EA
has just reported, and lists the transitions a copier has to replay: positions
opened, increased, reduced, closed or re-protected, pending orders created,
modified, replaced, cancelled or filled.

A pending order that has vanished is ambiguous. It was filled only if a trade
transaction says so, and then its volume is already part of some position's
increase; `unmatchedPositionIncrease` is the exposure nobody has claimed yet.
-/

namespace MarketLens.Copier

open Std

/-- One transition of a source portfolio. -/
inductive PortfolioChange where
  | positionOpened (current : EaPositionSnapshot)
  | positionIncreased (previous current : EaPositionSnapshot) (delta : Decimal)
  | positionReduced (previous current : EaPositionSnapshot) (delta : Decimal)
  | positionClosed (previous : EaPositionSnapshot)
  | positionProtectionChanged (previous current : EaPositionSnapshot)
  | pendingCreated (current : EaPendingOrderSnapshot)
  | pendingModified (previous current : EaPendingOrderSnapshot)
  | pendingReplaced (previous current : EaPendingOrderSnapshot)
  | pendingCancelled (previous : EaPendingOrderSnapshot)
  | pendingFilled (previous : EaPendingOrderSnapshot) (position : EaPositionSnapshot)
deriving DecidableEq

def PortfolioChange.sourceResourceId : PortfolioChange → String
  | .positionOpened current
  | .positionIncreased _ current _
  | .positionReduced _ current _
  | .positionProtectionChanged _ current => current.brokerPositionId
  | .positionClosed previous => previous.brokerPositionId
  | .pendingCreated current
  | .pendingModified _ current
  | .pendingReplaced _ current => current.brokerOrderId
  | .pendingCancelled previous
  | .pendingFilled previous _ => previous.brokerOrderId

def PortfolioChange.kind : PortfolioChange → String
  | .positionOpened .. => "position.opened"
  | .positionIncreased .. => "position.increased"
  | .positionReduced .. => "position.reduced"
  | .positionClosed .. => "position.closed"
  | .positionProtectionChanged .. => "position.protection_changed"
  | .pendingCreated .. => "pending.created"
  | .pendingModified .. => "pending.modified"
  | .pendingReplaced .. => "pending.replaced"
  | .pendingCancelled .. => "pending.cancelled"
  | .pendingFilled .. => "pending.filled"

def PortfolioChange.observedAtMs : PortfolioChange → Nat
  | .positionOpened current
  | .positionIncreased _ current _
  | .positionReduced _ current _
  | .positionProtectionChanged _ current => current.observedAtMs
  | .positionClosed previous => previous.observedAtMs
  | .pendingCreated current
  | .pendingModified _ current
  | .pendingReplaced _ current => current.observedAtMs
  | .pendingCancelled previous => previous.observedAtMs
  | .pendingFilled _ position => position.observedAtMs

abbrev PositionMap := TreeMap String EaPositionSnapshot compare
abbrev PendingMap := TreeMap String EaPendingOrderSnapshot compare

def positionMap (positions : List EaPositionSnapshot) : PositionMap :=
  KeyedMap.index (·.brokerPositionId) positions

def pendingMap (orders : List EaPendingOrderSnapshot) : PendingMap :=
  KeyedMap.index (·.brokerOrderId) orders

/-- The volume a position held before, zero when it is new. -/
def previousQuantity (previousPositions : PositionMap) (positionId : String) : Decimal :=
  (previousPositions[positionId]?.map (·.quantity)).getD 0

/-- Newly available exposure per position, where there is any. -/
def positionIncreases (previousPositions currentPositions : PositionMap) :
    TreeMap String Decimal compare :=
  currentPositions.filterMap fun positionId current =>
    let increase := current.quantity - previousQuantity previousPositions positionId
    if increase > 0 then some increase else none

/-- The loop state while vanished pending orders are correlated with fills. -/
structure FillScan where
  unmatchedPositionIncrease : TreeMap String Decimal compare
  changes : List PortfolioChange

/-- One round of the loop over the previous pending orders. -/
def FillScan.visit (currentPositions : PositionMap) (currentPending : PendingMap)
    (pendingFillPositions : TreeMap String String compare)
    (scan : FillScan) (entry : String × EaPendingOrderSnapshot) : FillScan :=
  let (orderId, previous) := entry
  if currentPending.contains orderId then scan
  else
    -- Only the trade transaction's order→position identity is fill evidence.
    match pendingFillPositions[orderId]?.bind fun positionId =>
        currentPositions[positionId]?.map (positionId, ·) with
    | some (positionId, position) =>
      let available := (scan.unmatchedPositionIncrease[positionId]?).getD 0
      let filledQuantity := if available > 0 then min previous.quantity available
        else previous.quantity
      { unmatchedPositionIncrease :=
          scan.unmatchedPositionIncrease.modify positionId (· - filledQuantity)
        changes := scan.changes ++
          [.pendingFilled { previous with quantity := filledQuantity } position] }
    | none => { scan with changes := scan.changes ++ [.pendingCancelled previous] }

/-- What a position that was not there before adds to the diff. -/
def openedChanges (unmatched : TreeMap String Decimal compare) (previousPositions : PositionMap)
    (entry : String × EaPositionSnapshot) : List PortfolioChange :=
  let (positionId, current) := entry
  if previousPositions.contains positionId then []
  else
    let remaining := unmatched[positionId]?.getD 0
    if remaining ≤ 0 then [] else [.positionOpened { current with quantity := remaining }]

/-- What a position that was there before adds to the diff. -/
def positionChanges (unmatched : TreeMap String Decimal compare) (currentPositions : PositionMap)
    (entry : String × EaPositionSnapshot) : List PortfolioChange :=
  let (positionId, previous) := entry
  match currentPositions[positionId]? with
  | none => [.positionClosed previous]
  | some current =>
    let unmatchedIncrease := unmatched[positionId]?.getD 0
    (if current.quantity > previous.quantity ∧ unmatchedIncrease > 0 then
      [.positionIncreased previous current unmatchedIncrease]
    else if current.quantity < previous.quantity then
      [.positionReduced previous current (previous.quantity - current.quantity)]
    else []) ++
    (if current.stopLoss ≠ previous.stopLoss ∨ current.takeProfit ≠ previous.takeProfit then
      [.positionProtectionChanged previous current]
    else [])

/-- What a pending order of the new portfolio adds to the diff. -/
def pendingChanges (previousPending : PendingMap) (entry : String × EaPendingOrderSnapshot) :
    List PortfolioChange :=
  let (orderId, current) := entry
  match previousPending[orderId]? with
  | none => [.pendingCreated current]
  | some previous =>
    if current.quantity ≠ previous.quantity ∨ current.kind ≠ previous.kind then
      [.pendingReplaced previous current]
    else if current.price ≠ previous.price ∨ current.stopLoss ≠ previous.stopLoss
        ∨ current.takeProfit ≠ previous.takeProfit then
      [.pendingModified previous current]
    else []

def diffPortfolio (previousPositions : List EaPositionSnapshot)
    (previousPending : List EaPendingOrderSnapshot)
    (currentPositions : List EaPositionSnapshot)
    (currentPending : List EaPendingOrderSnapshot)
    (pendingFillPositions : TreeMap String String compare) : List PortfolioChange :=
  let previousPositions := positionMap previousPositions
  let currentPositions := positionMap currentPositions
  let previousPending := pendingMap previousPending
  let currentPending := pendingMap currentPending
  let scan := previousPending.toList.foldl
    (FillScan.visit currentPositions currentPending pendingFillPositions)
    ⟨positionIncreases previousPositions currentPositions, []⟩
  let unmatched := scan.unmatchedPositionIncrease
  scan.changes
    ++ currentPositions.toList.flatMap (openedChanges unmatched previousPositions)
    ++ previousPositions.toList.flatMap (positionChanges unmatched currentPositions)
    ++ currentPending.toList.flatMap (pendingChanges previousPending)

end MarketLens.Copier
