import MarketLens.Domain.Decimal
import MarketLens.Domain.Order

/-!
# Prop-firm risk rules and their evaluation

The rules and automated actions of a prop-risk assignment, and the evaluator that
turns one account sample into a verdict. The loss limits are sized by the initial
balance, their floors placed by the daily and the maximum-loss reference; the
verdict locks at the first condition that holds, in the order they are tested.

Amounts of money are exact; only the best-day ratio is rounded, to whole basis
points, halves to even.
-/

namespace MarketLens.PropRisk

open Fallible Option

inductive PropRiskDailyLossReference where
  | startOfDayBalance
  | initialBalance
deriving DecidableEq

inductive PropRiskMaxLossMode where
  | static
  | endOfDayTrailing
deriving DecidableEq

inductive PropRiskHistoryQuality where
  | trackedSinceGuardEnabled
  | authoritative

structure PropRiskRules where
  dailyLossLimitBasisPoints : Nat
  maxLossLimitBasisPoints : Nat
  dailyLossReference : PropRiskDailyLossReference
  maxLossMode : PropRiskMaxLossMode
  maxRiskPerTradeBasisPoints : Nat
  maxTotalOpenRiskBasisPoints : Nat
  requireStopLoss : Bool
  warningBufferBasisPoints : Nat
  emergencyBufferBasisPoints : Nat
  dailyProfitTargetBasisPoints : Option Nat
  profitTargetBasisPoints : Option Nat
  bestDayLimitBasisPoints : Option Nat
  minimumTradingDays : Option Nat
deriving DecidableEq

structure PropRiskActions where
  blockNewOrders : Bool
  cancelPendingOrders : Bool
  closeOpenPositions : Bool
  lockAfterProfitTarget : Bool
  failClosedOnStaleData : Bool
deriving DecidableEq

inductive PropRiskStatus where
  | «protected»
  | warning
  | locked
  | breached
deriving DecidableEq

inductive PropRiskReason where
  | dailyLossWarning
  | maxLossWarning
  | dailyLossSafetyBuffer
  | maxLossSafetyBuffer
  | dailyLossLimitBreached
  | maxLossLimitBreached
  | dailyProfitTargetReached
  | unprotectedExposure
  | telemetryStale
  | stateUnavailable
deriving DecidableEq

def PropRiskReason.name : PropRiskReason → String
  | .dailyLossWarning => "DAILY_LOSS_WARNING"
  | .maxLossWarning => "MAX_LOSS_WARNING"
  | .dailyLossSafetyBuffer => "DAILY_LOSS_SAFETY_BUFFER"
  | .maxLossSafetyBuffer => "MAX_LOSS_SAFETY_BUFFER"
  | .dailyLossLimitBreached => "DAILY_LOSS_LIMIT_BREACHED"
  | .maxLossLimitBreached => "MAX_LOSS_LIMIT_BREACHED"
  | .dailyProfitTargetReached => "DAILY_PROFIT_TARGET_REACHED"
  | .unprotectedExposure => "UNPROTECTED_EXPOSURE"
  | .telemetryStale => "TELEMETRY_STALE"
  | .stateUnavailable => "STATE_UNAVAILABLE"

/-- `PropRiskEvaluationInput`: one account sample with what the day and its history say. -/
structure PropRiskEvaluationInput where
  initialBalance : Decimal
  dayStartBalance : Decimal
  maxLossReferenceBalance : Decimal
  currentDayMinEquity : Decimal
  historicalMaxLossResult : Decimal
  priorPositiveDaysProfit : Decimal
  priorBestDayProfit : Decimal
  historyQuality : PropRiskHistoryQuality
  tradingDays : Option Nat
  hasOpenPositions : Bool
  balance : Decimal
  equity : Decimal
  previouslyLockedReason : Option PropRiskReason
  telemetryStale : Bool
  unprotectedExposure : Bool

structure PropRiskEvaluation where
  modelVersion : Nat
  historyQuality : PropRiskHistoryQuality
  status : PropRiskStatus
  reason : Option PropRiskReason
  canOpenNewOrders : Bool
  shouldCancelPendingOrders : Bool
  shouldCloseOpenPositions : Bool
  dailyLossLimit : Decimal
  dailyLossUsed : Decimal
  dailyLossRemaining : Decimal
  maxLossLimit : Decimal
  maxLossUsed : Decimal
  maxLossRemaining : Decimal
  maxLossReferenceBalance : Decimal
  dailyLossResult : Decimal
  maxLossResult : Decimal
  dailyProfitTarget : Option Decimal
  dailyProfitRemaining : Option Decimal
  profitTarget : Option Decimal
  profitTargetResult : Option Decimal
  profitTargetRemaining : Option Decimal
  profitTargetMet : Option Bool
  positiveDaysProfit : Option Decimal
  bestDayProfit : Option Decimal
  bestDayRatioBasisPoints : Option Nat
  bestDayMet : Option Bool
  minimumTradingDays : Option Nat
  tradingDays : Option Nat
  balance : Decimal
  equity : Decimal

def propRiskBasisPointsDenominator : Nat := 10000

/-- A share, in basis points that may be absent, is at least one and at most the whole. -/
def outsideBasisPoints (value : Option Nat) : Bool :=
  value.any fun points => points = 0 || points > propRiskBasisPointsDenominator

def PropRiskRules.validate (rules : PropRiskRules) : Except String Unit := do
  refuseIf (rules.dailyLossLimitBasisPoints = 0
      || rules.dailyLossLimitBasisPoints > propRiskBasisPointsDenominator)
    "daily loss limit must be between 1 and 10000 basis points"
  refuseIf (rules.maxLossLimitBasisPoints = 0
      || rules.maxLossLimitBasisPoints > propRiskBasisPointsDenominator)
    "maximum loss limit must be between 1 and 10000 basis points"
  refuseIf (rules.maxRiskPerTradeBasisPoints = 0
      || rules.maxRiskPerTradeBasisPoints > rules.dailyLossLimitBasisPoints)
    "per-trade risk must be positive and no greater than the daily limit"
  refuseIf (rules.maxTotalOpenRiskBasisPoints = 0
      || rules.maxTotalOpenRiskBasisPoints > rules.dailyLossLimitBasisPoints
      || rules.maxTotalOpenRiskBasisPoints < rules.maxRiskPerTradeBasisPoints)
    "total open risk must fit between the per-trade and daily limits"
  refuseIf (rules.emergencyBufferBasisPoints > rules.warningBufferBasisPoints
      || rules.warningBufferBasisPoints ≥ rules.dailyLossLimitBasisPoints
      || rules.warningBufferBasisPoints ≥ rules.maxLossLimitBasisPoints)
    "risk buffers must fit inside both loss limits"
  refuseIf (outsideBasisPoints rules.dailyProfitTargetBasisPoints)
    "daily profit target must be between 1 and 10000 basis points"
  refuseIf (outsideBasisPoints rules.profitTargetBasisPoints)
    "profit target must be between 1 and 10000 basis points"
  refuseIf (outsideBasisPoints rules.bestDayLimitBasisPoints)
    "best-day limit must be between 1 and 10000 basis points"
  refuseIf (rules.minimumTradingDays.any fun days => days = 0 || days > 365)
    "minimum trading days must be between 1 and 365"

/-- `prop_risk_money`: a share of a balance, in basis points. -/
def propRiskMoney (balance : Decimal) (basisPoints : Nat) : Decimal :=
  balance * basisPoints / propRiskBasisPointsDenominator

def positive (value : Decimal) : Decimal := if value > 0 then value else 0

def nonPositive (value : Decimal) : Decimal := if value < 0 then value else 0

/-- `to_u32`: nothing below zero or past 32 bits. -/
def toU32 (value : Int) : Option Nat :=
  if 0 ≤ value && value < 2 ^ 32 then some value.toNat else none

/-- `should_repair_legacy_prop_risk_daily_lock`. -/
def shouldRepairLegacyPropRiskDailyLock (rules : PropRiskRules) (actions : PropRiskActions)
    (initialBalance dayStartBalance minEquity : Decimal) (reason : PropRiskReason) : Bool :=
  if actions.lockAfterProfitTarget
      || !(reason = .dailyLossLimitBreached || reason = .dailyLossSafetyBuffer) then false
  else
    let dailyLossLimit := propRiskMoney initialBalance rules.dailyLossLimitBasisPoints
    let maxLossLimit := propRiskMoney initialBalance rules.maxLossLimitBasisPoints
    let emergencyBuffer := propRiskMoney initialBalance rules.emergencyBufferBasisPoints
    minEquity > dayStartBalance - dailyLossLimit + emergencyBuffer
      && minEquity > initialBalance - maxLossLimit + emergencyBuffer

/-! ## The verdict -/

section Verdict

variable (rules : PropRiskRules) (actions : PropRiskActions) (input : PropRiskEvaluationInput)

def dailyLossReferenceBalance : Decimal :=
  match rules.dailyLossReference with
  | .startOfDayBalance => input.dayStartBalance
  | .initialBalance => input.initialBalance

def maxLossReference : Decimal :=
  match rules.maxLossMode with
  | .static => input.initialBalance
  | .endOfDayTrailing =>
    if input.maxLossReferenceBalance > input.initialBalance then input.maxLossReferenceBalance
    else input.initialBalance

/-- What the equity stands above the daily floor. -/
def dailyLossRemaining : Decimal :=
  input.equity - (dailyLossReferenceBalance rules input
    - propRiskMoney input.initialBalance rules.dailyLossLimitBasisPoints)

/-- What the equity stands above the maximum-loss floor. -/
def maxLossRemaining : Decimal :=
  input.equity - (maxLossReference rules input
    - propRiskMoney input.initialBalance rules.maxLossLimitBasisPoints)

def dailyProfitTarget : Option Decimal :=
  rules.dailyProfitTargetBasisPoints.map (propRiskMoney input.initialBalance)

/-- The first condition that locks the account, with its status. -/
def lockVerdict : Option (PropRiskStatus × PropRiskReason) :=
  let emergencyBuffer := propRiskMoney input.initialBalance rules.emergencyBufferBasisPoints
  if let some reason := input.previouslyLockedReason then some (.locked, reason)
  else if input.telemetryStale && actions.failClosedOnStaleData then some (.locked, .telemetryStale)
  else if rules.requireStopLoss && input.unprotectedExposure then
    some (.locked, .unprotectedExposure)
  else if maxLossRemaining rules input ≤ 0 then some (.breached, .maxLossLimitBreached)
  else if dailyLossRemaining rules input ≤ 0 then some (.breached, .dailyLossLimitBreached)
  else if maxLossRemaining rules input ≤ emergencyBuffer then some (.locked, .maxLossSafetyBuffer)
  else if dailyLossRemaining rules input ≤ emergencyBuffer then
    some (.locked, .dailyLossSafetyBuffer)
  else if actions.lockAfterProfitTarget && (dailyProfitTarget rules input).any
      fun target => input.equity - input.dayStartBalance ≥ target then
    some (.locked, .dailyProfitTargetReached)
  else none

/-- The warning an unlocked account still gets. -/
def warningReason : Option PropRiskReason :=
  let warningBuffer := propRiskMoney input.initialBalance rules.warningBufferBasisPoints
  if maxLossRemaining rules input ≤ warningBuffer then some .maxLossWarning
  else if dailyLossRemaining rules input ≤ warningBuffer then some .dailyLossWarning
  else none

/-- The measurements of a verdict, locked or not. -/
def measure (status : PropRiskStatus) (reason : Option PropRiskReason) (canOpenNewOrders
    shouldCancelPendingOrders shouldCloseOpenPositions : Bool) : PropRiskEvaluation :=
  let observedMinEquity := if input.currentDayMinEquity < input.equity then
    input.currentDayMinEquity else input.equity
  let liveMaxLossResult := nonPositive (observedMinEquity - maxLossReference rules input)
  let profitTarget := rules.profitTargetBasisPoints.map (propRiskMoney input.initialBalance)
  let profitResult := input.balance - input.initialBalance
  let currentPositiveDayProfit := positive (input.balance - input.dayStartBalance)
  let positiveDaysProfit := rules.bestDayLimitBasisPoints.map fun _ =>
    input.priorPositiveDaysProfit + currentPositiveDayProfit
  let bestDayProfit := rules.bestDayLimitBasisPoints.map fun _ =>
    if input.priorBestDayProfit > currentPositiveDayProfit then input.priorBestDayProfit
    else currentPositiveDayProfit
  let bestDayRatio := bestDayProfit.bind fun bestDay => positiveDaysProfit.map fun positiveDays =>
    if positiveDays ≤ 0 then 0
    else min ((toU32 (roundHalfEven (bestDay * propRiskBasisPointsDenominator / positiveDays))).getD
      propRiskBasisPointsDenominator) propRiskBasisPointsDenominator
  { modelVersion := 2
    historyQuality := input.historyQuality
    status := status
    reason := reason
    canOpenNewOrders := canOpenNewOrders
    shouldCancelPendingOrders := shouldCancelPendingOrders
    shouldCloseOpenPositions := shouldCloseOpenPositions
    dailyLossLimit := propRiskMoney input.initialBalance rules.dailyLossLimitBasisPoints
    dailyLossUsed := positive (dailyLossReferenceBalance rules input - input.equity)
    dailyLossRemaining := dailyLossRemaining rules input
    maxLossLimit := propRiskMoney input.initialBalance rules.maxLossLimitBasisPoints
    maxLossUsed := positive (maxLossReference rules input - input.equity)
    maxLossRemaining := maxLossRemaining rules input
    maxLossReferenceBalance := maxLossReference rules input
    dailyLossResult := nonPositive (observedMinEquity - dailyLossReferenceBalance rules input)
    maxLossResult := if input.historicalMaxLossResult < liveMaxLossResult then
      input.historicalMaxLossResult else liveMaxLossResult
    dailyProfitTarget := dailyProfitTarget rules input
    dailyProfitRemaining := (dailyProfitTarget rules input).map fun target =>
      positive (target - (input.equity - input.dayStartBalance))
    profitTarget := profitTarget
    profitTargetResult := profitTarget.map fun _ => profitResult
    profitTargetRemaining := profitTarget.map fun target => positive (target - profitResult)
    profitTargetMet := profitTarget.map fun target =>
      decide (profitResult ≥ target) && !input.hasOpenPositions
    positiveDaysProfit := positiveDaysProfit
    bestDayProfit := bestDayProfit
    bestDayRatioBasisPoints := bestDayRatio
    bestDayMet := rules.bestDayLimitBasisPoints.map fun limit =>
      positiveDaysProfit.any (· > 0) && bestDayRatio.any (· ≤ limit)
    minimumTradingDays := rules.minimumTradingDays
    tradingDays := input.tradingDays
    balance := input.balance
    equity := input.equity }

/-- `evaluate_prop_risk`. -/
def evaluatePropRisk : PropRiskEvaluation :=
  match lockVerdict rules actions input with
  | some (status, reason) =>
    measure rules input status (some reason) (!actions.blockNewOrders)
      actions.cancelPendingOrders actions.closeOpenPositions
  | none =>
    let reason := warningReason rules input
    measure rules input (if reason.isSome then .warning else .«protected») reason true false false

/-- The verdict locks the account: `Locked` or `Breached`. -/
def PropRiskEvaluation.locks (evaluation : PropRiskEvaluation) : Bool :=
  evaluation.status = .locked || evaluation.status = .breached

theorem lockVerdict_status {status : PropRiskStatus} {reason : PropRiskReason}
    (h : lockVerdict rules actions input = some (status, reason)) :
    status = .locked ∨ status = .breached := by
  unfold lockVerdict at h
  grind

theorem evaluatePropRisk_locks : (evaluatePropRisk rules actions input).locks = (lockVerdict rules actions input).isSome := by
  unfold evaluatePropRisk
  cases hverdict : lockVerdict rules actions input with
  | some verdict =>
    obtain ⟨status, reason⟩ := verdict
    rcases lockVerdict_status rules actions input hverdict with rfl | rfl
    · rfl
    · rfl
  | none =>
    cases warningReason rules input with
    | some | none => rfl

theorem evaluatePropRisk_blocks (hlocks : (lockVerdict rules actions input).isSome = true)
    (hblk : actions.blockNewOrders = true) :
    (evaluatePropRisk rules actions input).canOpenNewOrders = false := by
  obtain ⟨⟨status, reason⟩, hverdict⟩ := isSome_iff_exists.mp hlocks
  unfold evaluatePropRisk
  rw [hverdict]
  simp only [measure, hblk, Bool.not_true]

/-- What the account sample alone locks, any further evidence locks too. -/
theorem lockVerdict_mono {input' : PropRiskEvaluationInput}
    (hsame : maxLossRemaining rules input' = maxLossRemaining rules input ∧
      dailyLossRemaining rules input' = dailyLossRemaining rules input ∧
      dailyProfitTarget rules input' = dailyProfitTarget rules input ∧
      input'.equity - input'.dayStartBalance = input.equity - input.dayStartBalance ∧
      input'.initialBalance = input.initialBalance)
    (hprv : input.previouslyLockedReason = input'.previouslyLockedReason)
    (hstale : input.telemetryStale = false) (hexposure : input.unprotectedExposure = false)
    (h : (lockVerdict rules actions input).isSome = true) :
    (lockVerdict rules actions input').isSome = true := by
  obtain ⟨hmax, hdaily, htgt, hprofit, hinitial⟩ := hsame
  unfold lockVerdict at h ⊢
  rw [hstale, hexposure, hprv, ← hmax, ← hdaily, ← htgt, ← hprofit, ← hinitial] at h
  grind

/-! ## How grave a verdict is -/

/-- `ok < warning < locked < breached`. -/
def PropRiskStatus.severity : PropRiskStatus → Nat
  | .«protected» => 0
  | .warning => 1
  | .locked => 2
  | .breached => 3

/-- The account is locked whatever its equity is. -/
def lockedAnyway : Bool :=
  input.previouslyLockedReason.isSome || (input.telemetryStale && actions.failClosedOnStaleData)
    || (rules.requireStopLoss && input.unprotectedExposure)

/-- Either loss limit leaves no more than an amount. -/
def leavesAtMost (amount : Decimal) : Prop := maxLossRemaining rules input ≤ amount ∨ dailyLossRemaining rules input ≤ amount

instance (amount : Decimal) : Decidable (leavesAtMost rules input amount) := inferInstanceAs (Decidable (_ ∨ _))

theorem severity_eq (hprofit : actions.lockAfterProfitTarget = false) :
    (evaluatePropRisk rules actions input).status.severity =
      if lockedAnyway rules actions input then 2
      else if leavesAtMost rules input 0 then 3
      else if leavesAtMost rules input (propRiskMoney input.initialBalance rules.emergencyBufferBasisPoints) then 2
      else if leavesAtMost rules input (propRiskMoney input.initialBalance rules.warningBufferBasisPoints) then 1 else 0 := by
  have hstat : (evaluatePropRisk rules actions input).status = match lockVerdict rules actions input with
      | some (status, _) => status
      | none => if (warningReason rules input).isSome then .warning else .«protected» := by
    unfold evaluatePropRisk
    cases lockVerdict rules actions input <;> rfl
  rw [hstat]
  cases hany : lockedAnyway rules actions input with
  | true =>
    simp only [lockedAnyway, Bool.or_eq_true] at hany
    cases hprv : input.previouslyLockedReason with
    | some => simp [lockVerdict, hprv, PropRiskStatus.severity]
    | none =>
      simp only [hprv, isSome_none, Bool.false_eq_true, false_or] at hany
      simp only [lockVerdict, hprv, if_true]
      by_cases hstale : (input.telemetryStale && actions.failClosedOnStaleData) = true
      · rw [if_pos hstale]
        rfl
      · rw [if_neg hstale, if_pos (hany.resolve_left hstale)]
        rfl
  | false =>
    simp only [lockedAnyway, Bool.or_eq_false_iff, isSome_eq_false_iff, isNone_iff_eq_none] at hany
    obtain ⟨⟨hprv, hstale⟩, hexposure⟩ := hany
    simp only [lockVerdict, warningReason, leavesAtMost, hprv, hstale, hexposure, hprofit, Bool.false_and]
    grind [PropRiskStatus.severity]

/-- The lower of two equities never gets the milder verdict. -/
theorem severity_mono (hprofit : actions.lockAfterProfitTarget = false) {equity : Decimal} (hle : equity ≤ input.equity) :
    (evaluatePropRisk rules actions input).status.severity
      ≤ (evaluatePropRisk rules actions { input with equity := equity }).status.severity := by
  have hsame : lockedAnyway rules actions { input with equity := equity } = lockedAnyway rules actions input := rfl
  have hleaves (amount : Decimal) (h : leavesAtMost rules input amount) : leavesAtMost rules { input with equity := equity } amount :=
    h.imp (fun h => (sub_le_sub_right hle _).trans h) fun h => (sub_le_sub_right hle _).trans h
  rw [severity_eq rules actions input hprofit, severity_eq rules actions _ hprofit, hsame]
  have hbreach := hleaves 0
  have hbuffer := hleaves (propRiskMoney input.initialBalance rules.emergencyBufferBasisPoints)
  have hwarning := hleaves (propRiskMoney input.initialBalance rules.warningBufferBasisPoints)
  grind

/-- What the verdict reports of the two limits is what they leave. -/
theorem evaluatePropRisk_remaining : (evaluatePropRisk rules actions input).dailyLossRemaining = dailyLossRemaining rules input
    ∧ (evaluatePropRisk rules actions input).maxLossRemaining = maxLossRemaining rules input := by
  unfold evaluatePropRisk
  cases lockVerdict rules actions input <;> exact ⟨rfl, rfl⟩

/-- **The lower of two equities never gets the milder verdict, nor is it unlocked where the higher one is locked; and an account
that is not locked stands above both emergency floors.** -/
theorem evaluatePropRisk_danger (hprofit : actions.lockAfterProfitTarget = false) :
    (∀ equity ≤ input.equity, (evaluatePropRisk rules actions input).status.severity
          ≤ (evaluatePropRisk rules actions { input with equity := equity }).status.severity ∧
        ((evaluatePropRisk rules actions input).locks = true →
          (evaluatePropRisk rules actions { input with equity := equity }).locks = true)) ∧
    ((evaluatePropRisk rules actions input).locks = false →
      propRiskMoney input.initialBalance rules.emergencyBufferBasisPoints < (evaluatePropRisk rules actions input).dailyLossRemaining ∧
        propRiskMoney input.initialBalance rules.emergencyBufferBasisPoints
          < (evaluatePropRisk rules actions input).maxLossRemaining) := by
  have hlocks (evaluation : PropRiskEvaluation) : evaluation.locks = true ↔ 2 ≤ evaluation.status.severity := by
    unfold PropRiskEvaluation.locks
    cases evaluation.status <;> decide
  refine ⟨fun equity hle => ?_, fun hunlocked => ?_⟩
  · have hmono := severity_mono rules actions input hprofit hle
    exact ⟨hmono, by rw [hlocks, hlocks]; exact fun h => h.trans hmono⟩
  · obtain ⟨hdaily, hmax⟩ := evaluatePropRisk_remaining rules actions input
    rw [hdaily, hmax]
    rw [evaluatePropRisk_locks] at hunlocked
    unfold lockVerdict at hunlocked
    grind

/-- An account at ninety-six thousand of a hundred thousand is locked no less than one at ninety-seven. -/
theorem danger_at_equity :
    let rules : PropRiskRules := ⟨500, 1000, .startOfDayBalance, .static, 300, 300, true, 100, 50, none, none, none, none⟩
    let input : PropRiskEvaluationInput :=
      ⟨100000, 100000, 100000, 100000, 0, 0, 0, .authoritative, none, false, 100000, 97000, none, false, false⟩
    (evaluatePropRisk rules ⟨true, true, true, false, true⟩ input).status.severity
      ≤ (evaluatePropRisk rules ⟨true, true, true, false, true⟩ { input with equity := 96000 }).status.severity :=
  ((evaluatePropRisk_danger _ _ _ rfl).1 96000 (by decide +kernel)).1

/-! ## Locks for a loss -/

def PropRiskReason.ofLoss : PropRiskReason → Bool
  | .dailyLossSafetyBuffer | .maxLossSafetyBuffer | .dailyLossLimitBreached | .maxLossLimitBreached => true
  | _ => false

/-- Above both emergency floors nothing locks for a loss. -/
theorem no_lossReason (hprv : input.previouslyLockedReason = none) (hinitial : 0 ≤ input.initialBalance)
    (h : ¬ leavesAtMost rules input (propRiskMoney input.initialBalance rules.emergencyBufferBasisPoints)) :
    (evaluatePropRisk rules actions input).reason.any PropRiskReason.ofLoss = false := by
  have hbuffer : 0 ≤ propRiskMoney input.initialBalance rules.emergencyBufferBasisPoints :=
    div_nonneg (mul_nonneg hinitial (Nat.cast_nonneg _)) (Nat.cast_nonneg _)
  obtain ⟨hmax, hdaily⟩ := not_or.mp h
  have hlock : ∀ status reason, lockVerdict rules actions input = some (status, reason) → reason.ofLoss = false := by
    unfold lockVerdict
    rw [hprv]
    grind [PropRiskReason.ofLoss]
  have hwarning : ∀ reason, warningReason rules input = some reason → reason.ofLoss = false := by
    unfold warningReason
    grind [PropRiskReason.ofLoss]
  unfold evaluatePropRisk
  cases hverdict : lockVerdict rules actions input with
  | some verdict => exact hlock verdict.1 verdict.2 hverdict
  | none =>
    cases hreason : warningReason rules input with
    | some reason => exact hwarning reason hreason
    | none => rfl

/-- At an emergency floor, or below it, an account that nothing else locks is locked for a loss. -/
theorem lossReason (hprv : input.previouslyLockedReason = none) (hstale : input.telemetryStale = false)
    (hexposure : input.unprotectedExposure = false)
    (h : leavesAtMost rules input (propRiskMoney input.initialBalance rules.emergencyBufferBasisPoints)) :
    (evaluatePropRisk rules actions input).reason.any PropRiskReason.ofLoss = true := by
  have hlock : ∃ status reason, lockVerdict rules actions input = some (status, reason) ∧ reason.ofLoss = true := by
    unfold lockVerdict
    simp only [hprv, hstale, hexposure, Bool.false_and, Bool.and_false, Bool.false_eq_true, if_false]
    split
    next => exact ⟨_, _, rfl, rfl⟩
    next =>
      split
      next => exact ⟨_, _, rfl, rfl⟩
      next =>
        split
        next => exact ⟨_, _, rfl, rfl⟩
        next hmax => exact ⟨_, _, if_pos (h.resolve_left hmax), rfl⟩
  obtain ⟨status, reason, hverdict, hloss⟩ := hlock
  unfold evaluatePropRisk
  rw [hverdict]
  exact hloss

end Verdict

end MarketLens.PropRisk
