import MarketLens.Copier.Diff

/-!
# What a portfolio is, and what a change does to it

The abstract side of the copier: a portfolio is a finite table of positions and
a finite table of working orders, and each transition acts on one ticket of each
table. `applyChanges` is the meaning the diff is judged against; nothing here
looks at how `diffPortfolio` finds the transitions.
-/

namespace MarketLens.Copier

open PortfolioChange

/-- What copying preserves of a position: its volume and its protection. -/
structure PositionState where
  quantity : Decimal
  stopLoss : Option Decimal
  takeProfit : Option Decimal

/-- What copying preserves of a pending order. -/
structure PendingState where
  kind : OrderKind
  quantity : Decimal
  price : Decimal
  stopLoss : Option Decimal
  takeProfit : Option Decimal

def positionState (position : EaPositionSnapshot) : PositionState :=
  ⟨position.quantity, position.stopLoss, position.takeProfit⟩

def pendingState (order : EaPendingOrderSnapshot) : PendingState :=
  ⟨order.kind, order.quantity, order.price, order.stopLoss, order.takeProfit⟩

/-- A portfolio by ticket. -/
@[ext] structure Portfolio where
  position : String → Option PositionState
  pending : String → Option PendingState

/-- The portfolio two reported lists denote. -/
def portfolioOf (positions : List EaPositionSnapshot) (orders : List EaPendingOrderSnapshot) :
    Portfolio where
  position id := (positions.find? (·.brokerPositionId = id)).map positionState
  pending id := (orders.find? (·.brokerOrderId = id)).map pendingState

/-- New volume on a ticket: it joins the position, or opens it as reported. -/
def addVolume (quantity : Decimal) (reported : EaPositionSnapshot) :
    Option PositionState → PositionState
  | none => ⟨quantity, reported.stopLoss, reported.takeProfit⟩
  | some held => { held with quantity := held.quantity + quantity }

/-- What one change does to the position under ticket `id`. -/
def stepPosition (id : String) (held : Option PositionState) :
    PortfolioChange → Option PositionState
  | .positionOpened current =>
    if current.brokerPositionId = id then some (addVolume current.quantity current held) else held
  | .positionIncreased _ current delta =>
    if current.brokerPositionId = id then some (addVolume delta current held) else held
  | .positionReduced _ current delta =>
    if current.brokerPositionId = id then
      held.map fun position => { position with quantity := position.quantity - delta }
    else held
  | .positionClosed previous => if previous.brokerPositionId = id then none else held
  | .positionProtectionChanged _ current =>
    if current.brokerPositionId = id then
      held.map fun position =>
        { position with stopLoss := current.stopLoss, takeProfit := current.takeProfit }
    else held
  | .pendingFilled previous position =>
    if position.brokerPositionId = id then some (addVolume previous.quantity position held)
    else held
  | _ => held

/-- What one change does to the pending order under ticket `id`. -/
def stepPending (id : String) (held : Option PendingState) :
    PortfolioChange → Option PendingState
  | .pendingCreated current
  | .pendingReplaced _ current =>
    if current.brokerOrderId = id then some (pendingState current) else held
  | .pendingModified _ current =>
    if current.brokerOrderId = id then
      held.map fun order =>
        { order with
          price := current.price
          stopLoss := current.stopLoss
          takeProfit := current.takeProfit }
    else held
  | .pendingCancelled previous
  | .pendingFilled previous _ => if previous.brokerOrderId = id then none else held
  | _ => held

def PortfolioChange.positionTicket : PortfolioChange → Option String
  | .positionOpened current
  | .positionIncreased _ current _
  | .positionReduced _ current _
  | .positionProtectionChanged _ current => some current.brokerPositionId
  | .positionClosed previous => some previous.brokerPositionId
  | .pendingFilled _ position => some position.brokerPositionId
  | _ => none

def PortfolioChange.pendingTicket : PortfolioChange → Option String
  | .pendingCreated current
  | .pendingModified _ current
  | .pendingReplaced _ current => some current.brokerOrderId
  | .pendingCancelled previous
  | .pendingFilled previous _ => some previous.brokerOrderId
  | _ => none

variable {id : String} {change : PortfolioChange}

theorem stepPosition_other (h : change.positionTicket ≠ some id) (held : Option PositionState) :
    stepPosition id held change = held := by
  cases change <;>
    simp only [positionTicket, ne_eq, Option.some.injEq] at h <;>
    simp only [stepPosition, h, if_false]

theorem stepPending_other (h : change.pendingTicket ≠ some id) (held : Option PendingState) :
    stepPending id held change = held := by
  cases change <;>
    simp only [pendingTicket, ne_eq, Option.some.injEq] at h <;>
    simp only [stepPending, h, if_false]

def Portfolio.apply (portfolio : Portfolio) (change : PortfolioChange) : Portfolio where
  position id := stepPosition id (portfolio.position id) change
  pending id := stepPending id (portfolio.pending id) change

section
variable (changes : List PortfolioChange) (portfolio : Portfolio)

def applyChanges : Portfolio :=
  changes.foldl Portfolio.apply portfolio

/-- Applying a list of changes acts ticket by ticket. -/
theorem applyChanges_position (id : String) :
    (applyChanges changes portfolio).position id = changes.foldl (stepPosition id) (portfolio.position id) := by
  induction changes generalizing portfolio with
  | nil => rfl
  | cons change rest ih => exact ih (portfolio.apply change)

theorem applyChanges_pending (id : String) :
    (applyChanges changes portfolio).pending id = changes.foldl (stepPending id) (portfolio.pending id) := by
  induction changes generalizing portfolio with
  | nil => rfl
  | cons change rest ih => exact ih (portfolio.apply change)

end

/-! ## The premises and the ledger of a diff -/

/-- The two portfolios a diff compares, each with distinct tickets. -/
structure PortfolioPair where
  previousPositions : List EaPositionSnapshot
  previousPending : List EaPendingOrderSnapshot
  currentPositions : List EaPositionSnapshot
  currentPending : List EaPendingOrderSnapshot
  previousPositions_nodup : (previousPositions.map (·.brokerPositionId)).Nodup
  previousPending_nodup : (previousPending.map (·.brokerOrderId)).Nodup
  currentPositions_nodup : (currentPositions.map (·.brokerPositionId)).Nodup
  currentPending_nodup : (currentPending.map (·.brokerOrderId)).Nodup

namespace PortfolioPair

section
variable (pair : PortfolioPair)

def previous : Portfolio :=
  portfolioOf pair.previousPositions pair.previousPending

def current : Portfolio :=
  portfolioOf pair.currentPositions pair.currentPending

/-- The diff of the pair under the given fill evidence. -/
def diff (evidence : Std.TreeMap String String compare) :
    List PortfolioChange :=
  diffPortfolio pair.previousPositions pair.previousPending pair.currentPositions
    pair.currentPending evidence

/-- A pending order that the current portfolio no longer has. -/
def Vanished (order : EaPendingOrderSnapshot) : Prop :=
  order ∈ pair.previousPending ∧ ∀ other ∈ pair.currentPending,
    other.brokerOrderId ≠ order.brokerOrderId

/-- How much larger a current position is than it was. -/
def increase (position : EaPositionSnapshot) : Decimal :=
  max 0 (position.quantity
    - ((pair.previous.position position.brokerPositionId).map (·.quantity)).getD 0)

def attributed (evidence : Std.TreeMap String String compare)
    (positionId : String) : List EaPendingOrderSnapshot :=
  pair.previousPending.filter fun order =>
    pair.currentPending.all (·.brokerOrderId ≠ order.brokerOrderId)
      ∧ evidence[order.brokerOrderId]? = some positionId

end

/--
The fill evidence is consistent with the two snapshots: what it attributes to a
current position fits that position's increase. Volumes are positive where the
diff depends on it, as `validatePositionSnapshot` and
`validatePendingOrderSnapshot` make them.
-/
structure EvidenceFits (pair : PortfolioPair) (evidence : Std.TreeMap String String compare) :
    Prop where
  /-- A position that was not there before holds some volume. -/
  opened : ∀ position ∈ pair.currentPositions,
    pair.previous.position position.brokerPositionId = none → 0 < position.quantity
  /-- An order attributed to a current position asked for some volume. -/
  positive : ∀ position ∈ pair.currentPositions,
    ∀ order ∈ pair.attributed evidence position.brokerPositionId, 0 < order.quantity
  /-- The attributed volume is part of the increase. -/
  fits : ∀ position ∈ pair.currentPositions,
    ((pair.attributed evidence position.brokerPositionId).map (·.quantity)).sum
      ≤ pair.increase position

end PortfolioPair

/-- The volume one change books on a position ticket as filled. -/
def filledOn (positionId : String) : PortfolioChange → Decimal
  | .pendingFilled previous position =>
    if position.brokerPositionId = positionId then previous.quantity else 0
  | _ => 0

/-- The volume one change books on a position ticket as opened or increased. -/
def grownOn (positionId : String) : PortfolioChange → Decimal
  | .positionOpened current =>
    if current.brokerPositionId = positionId then current.quantity else 0
  | .positionIncreased _ current delta =>
    if current.brokerPositionId = positionId then delta else 0
  | _ => 0

def settles (orderId : String) : PortfolioChange → Bool
  | .pendingFilled previous _ => previous.brokerOrderId = orderId
  | .pendingCancelled previous => previous.brokerOrderId = orderId
  | _ => false

theorem filledOn_other (h : change.positionTicket ≠ some id) : filledOn id change = 0 := by
  cases change <;>
    simp only [positionTicket, ne_eq, Option.some.injEq] at h <;>
    simp only [filledOn, h, if_false]

theorem grownOn_other (h : change.positionTicket ≠ some id) : grownOn id change = 0 := by
  cases change <;>
    simp only [positionTicket, ne_eq, Option.some.injEq] at h <;>
    simp only [grownOn, h, if_false]

theorem settles_other (h : change.pendingTicket ≠ some id) : settles id change = false := by
  cases change <;>
    simp only [pendingTicket, ne_eq, Option.some.injEq] at h <;>
    simp [settles, h]

end MarketLens.Copier
