import MarketLens.Domain.Order

/-!
# Copy group and copy target configuration

The versioned behaviour a copy group owns, the protection and allocation of each
of its targets, and the checks both pass before a copier works with them.
-/

namespace MarketLens

open Fallible

inductive CopyGroupRuntimeStatus where
  | inactive
  | starting
  | active
  | paused
  | degraded
  | error
deriving DecidableEq

inductive CopyTargetRuntimeStatus where
  | inactive
  | connecting
  | active
  | waiting
  | degraded
  | error
deriving DecidableEq

/-- `ContinuousCopyConfig`: which source transitions a group copies. -/
structure ContinuousCopyConfig where
  copyMarketOrders : Bool := true
  copyPendingOrders : Bool := true
  copyStopLossTakeProfit : Bool := true
  copyModifications : Bool := true
  copyPartialCloses : Bool := true
  sourceMagicFilter : Option Int := none
  sourceCommentPrefix : Option String := none
  maxSlippagePoints : Nat := 30
  staleAfterMs : Nat := 30000
  reconciliationIntervalMs : Nat := 5000
deriving DecidableEq

def ContinuousCopyConfig.validate (config : ContinuousCopyConfig) : Except String Unit := do
  refuseIf (config.staleAfterMs = 0) "copier stale event window must be positive"
  refuseIf (config.reconciliationIntervalMs = 0) "copier reconciliation interval must be positive"

def BrokerMarginCap.validate (cap : BrokerMarginCap) : Except String Unit :=
  refuseIf (!(1 ≤ cap.basisPoints && cap.basisPoints ≤ 10000))
    "broker margin cap must be between 1 and 10000 basis points"

/-- `CopyProtectionConfig`, with the reviewed safety baseline as its defaults. -/
structure CopyProtectionConfig where
  brokerMarginCap : Option BrokerMarginCap := some ⟨.balance, 3500, false⟩
  maxDrawdownBasisPoints : Option Nat := none
  trailingStopPoints : Nat := 0
  trailingStepPoints : Nat := 5
  trailingStartPoints : Nat := 0
  breakevenTriggerPoints : Nat := 0
  breakevenOffsetPoints : Nat := 1
deriving DecidableEq

def CopyProtectionConfig.validate (config : CopyProtectionConfig) : Except String Unit := do
  (match config.brokerMarginCap with
    | some cap => cap.validate
    | none => .ok ())
  refuseIf (config.maxDrawdownBasisPoints.any fun points => !(1 ≤ points && points ≤ 10000))
    "copy target maximum drawdown must be between 1 and 10000 basis points"
  refuseIf (config.trailingStopPoints > 0 && config.trailingStepPoints = 0)
    "copy target trailing step must be positive when trailing is enabled"

/-- `ContinuousCopyTargetConfig`: sizing, symbol mapping and protection of one target. -/
structure ContinuousCopyTargetConfig where
  allocation : CopyAllocation
  maxQuantity : Option Decimal
  reverseTrade : Bool
  symbolMapping : List (String × String)
  protection : CopyProtectionConfig
deriving DecidableEq

def CopyAllocation.validate : CopyAllocation → Except String Unit
  | .sameQuantity => .ok ()
  | .fixedQuantity quantity _ => refuseIf (quantity ≤ 0) "fixed copy quantity must be positive"
  | .multiplier value
  | .equityProportional value =>
    refuseIf (value ≤ 0) "copy allocation multiplier must be positive"
  | .riskPercent basisPoints =>
    refuseIf (!(1 ≤ basisPoints && basisPoints ≤ 10000))
      "copy risk allocation must be between 1 and 10000 basis points"

def ContinuousCopyTargetConfig.validate (config : ContinuousCopyTargetConfig) :
    Except String Unit := do
  refuseIf (config.maxQuantity.any (· ≤ 0)) "copy target maximum quantity must be positive"
  config.allocation.validate
  config.protection.validate

/-- `legacy_copy_target_config` of a row that carries only the account and an undecodable
configuration: every column it asks for is absent. -/
def legacyCopyTargetConfig : ContinuousCopyTargetConfig where
  allocation := .sameQuantity
  maxQuantity := none
  reverseTrade := false
  symbolMapping := []
  protection := {}

/-- The configurations the gateway falls back to pass their own checks. -/
theorem default_configs_valid : ContinuousCopyConfig.validate {} = .ok () ∧ legacyCopyTargetConfig.validate = .ok () := by
  refine ⟨by decide, ?_⟩
  simp [legacyCopyTargetConfig, ContinuousCopyTargetConfig.validate, CopyAllocation.validate,
    CopyProtectionConfig.validate, BrokerMarginCap.validate, refuseIf, bind, Except.bind]

end MarketLens
