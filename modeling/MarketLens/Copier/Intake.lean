import MarketLens.Copier.Staging
import MarketLens.Copier.DiffProof

/-!
# Taking in an EA's batch

`accept_events` stores what one batch brings in three transactions: the portfolio,
the instruments, and the events. Staging for the copier belongs to the first, the
trade transactions that tell a fill from a cancellation to the third.

What the handler calls besides, and what else its transactions write, is in
`IntakeServices`: any functions of the copier's tables and of the rest of the
database, that may refuse.
-/

namespace MarketLens.Copier

open Fallible Store

/-- What the handler works on: the stored portfolios, the copier's tables, and the rest. -/
structure Intake (R : Type) where
  portfolio : PortfolioTables
  stage : Stage
  rest : R

/-- The parts of the handler that neither read nor write a stored portfolio. -/
structure IntakeServices (R : Type) where
  /-- `validate_session_account_identity`. -/
  validateIdentity : EaAccountSnapshot → Except ApiError Unit
  touchAccount : EaAccountSnapshot → R → Except ApiError R
  /-- `evaluate_and_apply_prop_risk_guard`; a failure is only logged. -/
  guard : EaAccountSnapshot → List EaPositionSnapshot → List EaPendingOrderSnapshot → Stage × R → Stage × R
  /-- `stage_continuous_copy_protection` and `stage_due_copier_reconciliations`. -/
  stageProtection : List EaInstrumentSnapshot → List EaPositionSnapshot → List EaPendingOrderSnapshot →
    Stage × R → Except ApiError (Stage × R)
  writeInstruments : List EaInstrumentSnapshot → Stage × R → Except ApiError (Stage × R)
  /-- The outcomes of commands and the links they settle. -/
  recordEvents : List EaEvent → Stage × R → Except ApiError (Stage × R)
  advanceReadiness : Stage × R → Except ApiError (Stage × R)
  activateDeferred : Stage × R → Except ApiError (Stage × R)

variable {R : Type} (services : IntakeServices R) (env : StageEnv) (nowMs : Nat) (accountId : String)

/-- Run a service on everything but the portfolios. -/
def Intake.serve (intake : Intake R) (service : Stage × R → Except ApiError (Stage × R)) :
    Except ApiError (Intake R) := do
  let served ← service (intake.stage, intake.rest)
  return { intake with stage := served.1, rest := served.2 }

/-- The changes `stage_continuous_copy_changes` goes through; without a group it goes through none. -/
def stagedChanges (positions : List EaPositionSnapshot) (pendingOrders : List EaPendingOrderSnapshot)
    (events : List EaEvent) (intake : Intake R) : List PortfolioChange :=
  if (activeGroups accountId intake.stage.tables).isEmpty then []
  else diffPortfolio (intake.portfolio.positionsOf accountId) (intake.portfolio.pendingOrdersOf accountId)
    positions pendingOrders (pendingFillPositions events)

section
variable (instruments : List EaInstrumentSnapshot) (positions : List EaPositionSnapshot)
  (pendingOrders : List EaPendingOrderSnapshot) (portfolioSnapshotComplete : Bool) (events : List EaEvent) (intake : Intake R)

def stageSnapshot : Except ApiError (Intake R) :=
  if portfolioSnapshotComplete then
    let stage := stageContinuousCopyChanges env accountId positions pendingOrders events intake.portfolio intake.stage
    { intake with stage }.serve (services.stageProtection instruments positions pendingOrders)
  else .ok intake

/-- `persist_database_payload`, with the changes it stages for the copier. -/
def persistDatabasePayload : Except ApiError (Intake R × List PortfolioChange) := do
  if instruments.isEmpty && positions.isEmpty && pendingOrders.isEmpty && !portfolioSnapshotComplete
      && events.isEmpty then
    return (intake, [])
  refuseIf (positions.length > 500 || pendingOrders.length > 500)
    ⟨.payloadTooLarge, "PORTFOLIO_SNAPSHOT_TOO_LARGE", "portfolio snapshot exceeds the per-account safety limit"⟩
  let staged := if portfolioSnapshotComplete then stagedChanges accountId positions pendingOrders events intake else []
  let intake ← stageSnapshot services env accountId instruments positions pendingOrders portfolioSnapshotComplete events
    intake
  instruments.forM (validateInstrumentSnapshot nowMs)
  let intake ← intake.serve (services.writeInstruments instruments)
  positions.forM (validatePositionSnapshot nowMs)
  pendingOrders.forM (validatePendingOrderSnapshot nowMs)
  let intake := { intake with
    portfolio := intake.portfolio.persist accountId positions pendingOrders portfolioSnapshotComplete }
  let intake ← intake.serve (services.recordEvents events)
  return (intake, staged)

end

/-- `accept_events`, with the changes it stages for the copier. -/
def acceptEvents (batch : EaEventBatch) (intake : Intake R) : Except ApiError (Intake R × List PortfolioChange) := do
  refuseIf (batch.protocolVersion ≠ executionProtocolVersion)
    ⟨.conflict, "PROTOCOL_VERSION_UNSUPPORTED", "EA and gateway protocol versions do not match"⟩
  services.validateIdentity batch.account
  let batch := normalizeLegacyEaClockSkew batch nowMs
  validateEventBatchEnvelope batch
  batch.positions.forM (validatePositionSnapshot nowMs)
  batch.pendingOrders.forM (validatePendingOrderSnapshot nowMs)
  let rest ← services.touchAccount batch.account intake.rest
  -- the portfolio is committed before the rest of the batch is looked at
  let portfolio ← persistDatabasePayload services env nowMs accountId [] batch.positions batch.pendingOrders
    batch.portfolioSnapshotComplete [] { intake with rest }
  let guarded := services.guard batch.account batch.positions batch.pendingOrders
    (portfolio.1.stage, portfolio.1.rest)
  batch.instruments.forM (validateInstrumentSnapshot nowMs)
  let instruments ← persistDatabasePayload services env nowMs accountId batch.instruments [] [] false []
    { portfolio.1 with stage := guarded.1, rest := guarded.2 }
  batch.events.forM (validateEaEvent nowMs)
  let events ← normalizeEvents env.shortHash batch.events
  let recorded ← persistDatabasePayload services env nowMs accountId [] [] [] false events instruments.1
  let ready ← recorded.1.serve services.advanceReadiness
  let activated ← ready.serve services.activateDeferred
  return (activated, portfolio.2 ++ instruments.2 ++ recorded.2)

end MarketLens.Copier
