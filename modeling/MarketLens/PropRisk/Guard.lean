import MarketLens.Lib.Table
import MarketLens.Domain.Ea
import MarketLens.PropRisk.Evaluate

/-!
# The prop-risk guard of one account

The settings a user assigns to an account, the state the guard keeps for each
trading day, and the three who work with them: a settings save, the heartbeat that
evaluates every account sample, and the pre-trade check, which reads what the
heartbeat last wrote. The heartbeat reads the settings and the day's row in one
statement and writes its verdict in another.

One account of one owner. `tradingDay` is the date a time falls on in a time zone,
as the database computes it; the times of the statements are database time.
-/

namespace MarketLens.PropRisk

open Fallible

/-! ## Tables -/

inductive PropRiskCapitalMode where
  | referenceBalances
  | manual

/-- `execution_prop_risk_profiles`: one version of a catalog profile. -/
structure PropRiskProfileTemplate where
  id : String
  version : Nat
  providerCode : String
  programCode : String
  displayName : String
  timezone : String
  rulesLocked : Bool
  capitalMode : PropRiskCapitalMode
  referenceBalances : List Nat
  rules : PropRiskRules
  actions : PropRiskActions
  active : Bool

/-- `execution_prop_risk_assignments`. -/
structure AssignmentRow where
  enabled : Bool
  profileId : String
  profileVersion : Nat
  providerCode : String
  programCode : String
  displayName : String
  timezone : String
  initialBalance : Decimal
  rules : PropRiskRules
  actions : PropRiskActions
  updatedAt : Nat
deriving DecidableEq

/-- `execution_prop_risk_daily_state`, unique by trading day. -/
structure DailyStateRow where
  tradingDay : Nat
  dayStartBalance : Decimal
  lastBalance : Decimal
  lastEquity : Decimal
  minEquity : Decimal
  status : PropRiskStatus
  reason : Option PropRiskReason
  locked : Bool
  evaluation : PropRiskEvaluation
  evaluatedAt : Nat

/-- A `prop_risk.locked` entry of the audit log. -/
structure LockAuditRow where
  tradingDay : Nat
  status : PropRiskStatus
  reason : Option PropRiskReason
  equity : Decimal
  occurredAt : Nat

/-- The guard's tables, of one account; the audit log is in the order it was written. -/
structure PropRiskTables where
  catalog : List PropRiskProfileTemplate
  assignment : Option AssignmentRow
  days : List DailyStateRow
  lockAudits : List LockAuditRow

/-- What the guard takes from outside: the date of a time in a zone, the zones that exist, and
the lower case of a text. -/
structure PropRiskEnv where
  tradingDay : String → Nat → Nat
  timezoneExists : String → Bool
  toLowercase : String → String

/-! ## Profiles -/

def newestProfile : List PropRiskProfileTemplate → Option PropRiskProfileTemplate
  | [] => none
  | profile :: rest =>
    match newestProfile rest with
    | some newer => if newer.version > profile.version then some newer else some profile
    | none => some profile

/-- `prop_risk_profile`: the given version, or else the newest active one. -/
def propRiskProfile (catalog : List PropRiskProfileTemplate) (profileId : String)
    (profileVersion : Option Nat) : Option PropRiskProfileTemplate :=
  newestProfile (catalog.filter fun profile => profile.id = profileId
    && profileVersion.all (profile.version = ·) && (profileVersion.isSome || profile.active))

/-- How far a balance is from a reference, in shares of the reference. -/
def relativeDeviation (requestedBalance : Decimal) (reference : Nat) : Decimal :=
  |requestedBalance - reference| / reference

/-- The closer of two references, the larger one when they are equally close. -/
def closerReference (requestedBalance : Decimal) (left right : Nat) : Nat :=
  if relativeDeviation requestedBalance left < relativeDeviation requestedBalance right then left
  else if relativeDeviation requestedBalance right < relativeDeviation requestedBalance left then
    right
  else max left right

/-- `resolve_profile_initial_balance`. -/
def resolveProfileInitialBalance (profile : PropRiskProfileTemplate) (requestedBalance : Decimal) :
    Except ApiError Decimal :=
  match profile.capitalMode with
  | .manual => .ok requestedBalance
  | .referenceBalances =>
    match profile.referenceBalances.filter (· > 0) with
    | [] => .error internalError
    | first :: rest => .ok (rest.foldl (closerReference requestedBalance) first : Nat)

/-- The first of two references is closer, or as close and no smaller. -/
def Beats (requestedBalance : Decimal) (reference other : Nat) : Prop :=
  relativeDeviation requestedBalance reference ≤ relativeDeviation requestedBalance other ∧
    (relativeDeviation requestedBalance reference = relativeDeviation requestedBalance other → other ≤ reference)

section References

variable {requestedBalance : Decimal} {left right reference : Nat} {references : List Nat}

theorem Beats.trans {other : Nat} (h : Beats requestedBalance left right) (h' : Beats requestedBalance right other) :
    Beats requestedBalance left other := by
  refine ⟨h.1.trans h'.1, fun heq => ?_⟩
  have hmid := le_antisymm h.1 (heq ▸ h'.1)
  exact (h'.2 (hmid.symm.trans heq)).trans (h.2 hmid)

end References

/-! ## What the history says -/

def greatest (values : List Decimal) : Option Decimal := values.max?

def least (values : List Decimal) : Option Decimal := values.min?

section
variable (days : List DailyStateRow)

/-- The days before a trading day. -/
def priorDays (day : Nat) : List DailyStateRow :=
  days.filter (·.tradingDay < day)

def highestPriorEodBalance (today : Nat) : Option Decimal :=
  greatest ((priorDays days today).map (·.lastBalance))

/-- `GREATEST(last_balance - day_start_balance, 0)` of every day before today. -/
def priorProfits (today : Nat) : List Decimal :=
  (priorDays days today).map fun day => max (day.lastBalance - day.dayStartBalance) 0

def historicalStaticMaxLossResult (initialBalance : Decimal) :
    Decimal :=
  (least (days.map fun day => day.minEquity - initialBalance)).getD 0

def historicalEodMaxLossResult (initialBalance : Decimal) : Decimal :=
  (least (days.map fun day => day.minEquity - max initialBalance
    ((highestPriorEodBalance days day.tradingDay).getD initialBalance))).getD 0

end

/-! ## Reading the settings -/

/-- `PropRiskRuntimeConfig`. -/
structure PropRiskRuntimeConfig where
  initialBalance : Decimal
  rules : PropRiskRules
  actions : PropRiskActions
  tradingDay : Nat
  dayStartBalance : Decimal
  maxLossReferenceBalance : Decimal
  currentDayMinEquity : Option Decimal
  historicalMaxLossResult : Decimal
  priorPositiveDaysProfit : Decimal
  priorBestDayProfit : Decimal
  previouslyLockedReason : Option PropRiskReason
  stateExists : Bool

def resolvePropRiskDayStartBalance (storedDayStartBalance : Option Decimal)
    (currentBalance : Decimal) : Decimal :=
  storedDayStartBalance.getD currentBalance

def matchesLegacyPropRiskDailyFloor (rules : PropRiskRules) (initialBalance lastEquity : Decimal)
    (evaluation : PropRiskEvaluation) : Bool :=
  let dailyLossLimit := propRiskMoney initialBalance rules.dailyLossLimitBasisPoints
  evaluation.dailyLossLimit = dailyLossLimit && evaluation.equity = lastEquity
    && evaluation.dailyLossRemaining = lastEquity - (initialBalance - dailyLossLimit)

def matchesLegacyPropRiskLockEvent (rules : PropRiskRules) (initialBalance : Decimal)
    (reason : PropRiskReason) (lockedEquity : Decimal) : Bool :=
  let legacyDailyFloor :=
    initialBalance - propRiskMoney initialBalance rules.dailyLossLimitBasisPoints
  let emergencyBuffer := propRiskMoney initialBalance rules.emergencyBufferBasisPoints
  match reason with
  | .dailyLossLimitBreached => lockedEquity ≤ legacyDailyFloor
  | .dailyLossSafetyBuffer =>
    lockedEquity > legacyDailyFloor && lockedEquity ≤ legacyDailyFloor + emergencyBuffer
  | _ => false

/-- The audit entry that first locked the day for its present reason, where that is a daily loss. -/
def lockAudit (state : DailyStateRow) (audits : List LockAuditRow) : Option LockAuditRow :=
  if state.locked && (state.reason = some .dailyLossLimitBreached
      || state.reason = some .dailyLossSafetyBuffer) then
    audits.find? fun audit => audit.tradingDay = state.tradingDay && audit.reason = state.reason
  else none

def PropRiskTables.dayState (tables : PropRiskTables) (day : Nat) : Option DailyStateRow :=
  tables.days.find? (·.tradingDay = day)

section
variable (assignment : AssignmentRow) (state : DailyStateRow)

/-- The day was evaluated after the settings were last saved. -/
def stateFresh : Bool :=
  state.evaluatedAt > assignment.updatedAt

/-- The reason a lock that is still in force gives, as read with the settings. -/
def previouslyLocked :
    Option PropRiskReason :=
  if state.locked && stateFresh assignment state then
    some (state.evaluation.reason.getD .stateUnavailable)
  else none

/-- The lock is one the former daily floor made and the present one would not have. -/
def repairCandidate
    (audits : List LockAuditRow) (reconciled : Bool) (initialBalance : Decimal) : Bool :=
  match previouslyLocked assignment state, lockAudit state audits with
  | some reason, some audit =>
    !reconciled && stateFresh assignment state && audit.occurredAt ≥ assignment.updatedAt
      && state.reason = some reason
      && matchesLegacyPropRiskDailyFloor assignment.rules initialBalance state.lastEquity
        state.evaluation
      && matchesLegacyPropRiskLockEvent assignment.rules initialBalance reason audit.equity
      && shouldRepairLegacyPropRiskDailyLock assignment.rules assignment.actions initialBalance
        state.dayStartBalance state.minEquity reason
  | _, _ => false

end

/-- A sample of the day whose lock is repaired, at an equity the day may still have: its own floors are those of the row and
of the given maximum-loss reference. -/
structure SampleOf (state : DailyStateRow) (initialBalance reference : Decimal) (input : PropRiskEvaluationInput) : Prop where
  initial : input.initialBalance = initialBalance
  dayStart : input.dayStartBalance = state.dayStartBalance
  reference : input.maxLossReferenceBalance = reference
  unlocked : input.previouslyLockedReason = none
  equity : state.minEquity ≤ input.equity

/-- **A repaired lock stays away exactly when the minimum of the day also stood above the floors of the reference balances that
the repair does not look at.** -/
theorem repair_sound_iff {assignment : AssignmentRow} {state : DailyStateRow} {audits : List LockAuditRow} {reconciled : Bool}
    {initialBalance reference : Decimal} (hinitial : 0 ≤ initialBalance)
    (h : repairCandidate assignment state audits reconciled initialBalance = true) :
    (∀ input, SampleOf state initialBalance reference input →
        (evaluatePropRisk assignment.rules assignment.actions input).reason.any PropRiskReason.ofLoss = false)
      ↔ (assignment.rules.dailyLossReference = .startOfDayBalance ∨ initialBalance
            - propRiskMoney initialBalance assignment.rules.dailyLossLimitBasisPoints
            + propRiskMoney initialBalance assignment.rules.emergencyBufferBasisPoints < state.minEquity)
        ∧ (assignment.rules.maxLossMode = .static ∨ reference ≤ initialBalance ∨ reference
            - propRiskMoney initialBalance assignment.rules.maxLossLimitBasisPoints
            + propRiskMoney initialBalance assignment.rules.emergencyBufferBasisPoints < state.minEquity) := by
  have hrepair : ∃ reason, shouldRepairLegacyPropRiskDailyLock assignment.rules assignment.actions initialBalance
      state.dayStartBalance state.minEquity reason = true := by
    unfold repairCandidate at h
    split at h
    next reason audit _ _ =>
      simp only [Bool.and_eq_true] at h
      exact ⟨reason, h.2⟩
    next => cases h
  obtain ⟨reason, hrepair⟩ := hrepair
  unfold shouldRepairLegacyPropRiskDailyLock at hrepair
  split at hrepair
  next => cases hrepair
  next =>
    simp only [Bool.and_eq_true, decide_eq_true_eq] at hrepair
    obtain ⟨hdaily, hmax⟩ := hrepair
    have hfloors {input : PropRiskEvaluationInput} (hsample : SampleOf state initialBalance reference input) :
        ¬ leavesAtMost assignment.rules input (propRiskMoney input.initialBalance assignment.rules.emergencyBufferBasisPoints)
          ↔ maxLossReference assignment.rules input - propRiskMoney initialBalance assignment.rules.maxLossLimitBasisPoints
                + propRiskMoney initialBalance assignment.rules.emergencyBufferBasisPoints < input.equity
            ∧ dailyLossReferenceBalance assignment.rules input
                - propRiskMoney initialBalance assignment.rules.dailyLossLimitBasisPoints
                + propRiskMoney initialBalance assignment.rules.emergencyBufferBasisPoints < input.equity := by
      rw [leavesAtMost, maxLossRemaining, dailyLossRemaining, hsample.initial, not_or, not_le, not_le]
      exact and_congr ⟨fun h => by linarith, fun h => by linarith⟩ ⟨fun h => by linarith, fun h => by linarith⟩
    constructor
    · intro hsnd
      -- the recorded minimum itself is the sample closest to a loss
      let lowest : PropRiskEvaluationInput := ⟨initialBalance, state.dayStartBalance, reference, 0, 0, 0, 0, .authoritative, none,
        false, 0, state.minEquity, none, false, false⟩
      have hlowest : SampleOf state initialBalance reference lowest := ⟨rfl, rfl, rfl, rfl, le_rfl⟩
      have habo := (hfloors hlowest).mp fun hleaves => by
        have hloss := lossReason assignment.rules assignment.actions lowest rfl rfl rfl hleaves
        rw [hsnd lowest hlowest] at hloss
        cases hloss
      constructor
      · cases hreference : assignment.rules.dailyLossReference with
        | startOfDayBalance => exact .inl rfl
        | initialBalance =>
          refine .inr ?_
          simpa [dailyLossReferenceBalance, hreference, lowest] using habo.2
      · cases hmode : assignment.rules.maxLossMode with
        | static => exact .inl rfl
        | endOfDayTrailing =>
          refine .inr ((le_or_gt reference initialBalance).imp_right fun hgt => ?_)
          simpa [maxLossReference, hmode, hgt, lowest] using habo.1
    -- the repair saw the floors of the opening balance; the others come from the condition
    · rintro ⟨hdailyMode, hmaxMode⟩ input hsample
      refine no_lossReason assignment.rules assignment.actions input hsample.unlocked (hsample.initial ▸ hinitial)
        ((hfloors hsample).mpr ⟨?_, ?_⟩)
      · refine lt_of_lt_of_le ?_ hsample.equity
        unfold maxLossReference
        rw [hsample.initial, hsample.reference]
        split
        next => exact hmax
        next hmode =>
          rcases hmaxMode with hstatic | hle | hlt
          · rw [hmode] at hstatic
            cases hstatic
          · rw [if_neg (not_lt.mpr hle)]
            exact hmax
          · split
            next => exact hlt
            next => exact hmax
      · refine lt_of_lt_of_le ?_ hsample.equity
        unfold dailyLossReferenceBalance
        rw [hsample.initial, hsample.dayStart]
        split
        next => exact hdaily
        next hmode =>
          rw [hmode] at hdailyMode
          exact hdailyMode.resolve_left PropRiskDailyLossReference.noConfusion

/-! A day that opened at 98 000 of 100 000 fell to 94 000. -/

def fallenAssignment (reference : PropRiskDailyLossReference) : AssignmentRow :=
  ⟨true, "custom_prop_firm", 1, "custom", "custom", "Custom prop firm", "UTC", 100000,
    ⟨500, 1000, reference, .static, 300, 300, true, 100, 50, none, none, none, none⟩, ⟨true, true, true, false, true⟩, 1⟩

def fallenInput : PropRiskEvaluationInput :=
  ⟨100000, 98000, 100000, 94000, 0, 0, 0, .trackedSinceGuardEnabled, none, false, 98000, 94000, none, false, false⟩

/-- The day as the floor of the initial balance locked it. -/
def fallenDay : DailyStateRow :=
  let assignment := fallenAssignment .initialBalance
  ⟨0, 98000, 98000, 94000, 94000, .breached, some .dailyLossLimitBreached, true,
    evaluatePropRisk assignment.rules assignment.actions fallenInput, 3⟩

def fallenAudits : List LockAuditRow := [⟨0, .breached, some .dailyLossLimitBreached, 94000, 2⟩]

/-- Under the floor of the day's start the lock is false, and stays away. -/
theorem fallen_day_repaired : (evaluatePropRisk (fallenAssignment .startOfDayBalance).rules
    (fallenAssignment .startOfDayBalance).actions fallenInput).reason.any PropRiskReason.ofLoss = false := by
  have hrepair : repairCandidate (fallenAssignment .startOfDayBalance) fallenDay fallenAudits false 100000 = true := by
    decide +kernel
  exact (@repair_sound_iff _ _ _ _ _ 100000 (by decide) hrepair).mpr ⟨.inl rfl, .inl rfl⟩ _ ⟨rfl, rfl, rfl, rfl, le_rfl⟩

/-- Under the floor of the initial balance the lock is a true one, and is lifted all the same. -/
theorem true_lock_repaired :
    repairCandidate (fallenAssignment .initialBalance) fallenDay fallenAudits false 100000 = true ∧
      SampleOf fallenDay 100000 100000 fallenInput ∧
      (evaluatePropRisk (fallenAssignment .initialBalance).rules (fallenAssignment .initialBalance).actions fallenInput).reason
        = some .dailyLossLimitBreached :=
  ⟨by decide +kernel, ⟨rfl, rfl, rfl, rfl, le_rfl⟩, by decide +kernel⟩

/-- The row of a day whose false lock is lifted; it counts as evaluated when the settings were
saved. -/
def repairDay (assignment : AssignmentRow) (state : DailyStateRow) : DailyStateRow :=
  { state with
    locked := false
    status := .«protected»
    reason := none
    evaluatedAt := assignment.updatedAt }

/-- The initial balance in force: the stored one, or what the assigned profile makes of it. -/
def resolvedInitialBalance (catalog : List PropRiskProfileTemplate) (assignment : AssignmentRow) :
    Except ApiError Decimal :=
  match propRiskProfile catalog assignment.profileId (some assignment.profileVersion) with
  | some profile => resolveProfileInitialBalance profile assignment.initialBalance
  | none => .ok assignment.initialBalance

/-- `load_prop_risk_runtime`: nothing without enabled settings. Reading them may store a
reconciled initial balance, and lift a false lock. -/
def loadPropRiskRuntime (env : PropRiskEnv) (now : Nat) (currentBalance : Decimal)
    (tables : PropRiskTables) : Except ApiError (Option PropRiskRuntimeConfig × PropRiskTables) :=
  match tables.assignment.filter (·.enabled) with
  | none => .ok (none, tables)
  | some assignment => do
    let today := env.tradingDay assignment.timezone now
    let state := tables.dayState today
    let initialBalance ← resolvedInitialBalance tables.catalog assignment
    let reconciled := initialBalance ≠ assignment.initialBalance
    let assigned := { assignment with initialBalance := initialBalance }
    let repaired := state.any fun state =>
      repairCandidate assignment state tables.lockAudits reconciled initialBalance
    let days := if repaired then
        Table.updateWhere (·.tradingDay = today) (repairDay assignment) tables.days
      else tables.days
    let previous := if repaired then none else state.bind (previouslyLocked assignment)
    let runtime : PropRiskRuntimeConfig :=
      { initialBalance := initialBalance
        rules := assignment.rules
        actions := assignment.actions
        tradingDay := today
        dayStartBalance :=
          resolvePropRiskDayStartBalance (state.map (·.dayStartBalance)) currentBalance
        maxLossReferenceBalance := match assignment.rules.maxLossMode with
          | .static => initialBalance
          | .endOfDayTrailing => ((highestPriorEodBalance tables.days today).filter
              (· > initialBalance)).getD initialBalance
        currentDayMinEquity := state.map (·.minEquity)
        historicalMaxLossResult := match assignment.rules.maxLossMode with
          | .static => historicalStaticMaxLossResult tables.days assignment.initialBalance
          | .endOfDayTrailing => historicalEodMaxLossResult tables.days assignment.initialBalance
        priorPositiveDaysProfit := (priorProfits tables.days today).sum
        priorBestDayProfit := (greatest (priorProfits tables.days today)).getD 0
        previouslyLockedReason := previous
        stateExists := state.isSome && !reconciled }
    return (some runtime, { tables with assignment := some assigned, days := days })

/-! ## The heartbeat -/

/-- What a heartbeat tells the guard. -/
structure GuardSample where
  balance : Decimal
  equity : Decimal
  hasOpenPositions : Bool
  unprotectedExposure : Bool

/-- What the evaluator is asked, by the heartbeat and by the pre-trade check. -/
def evaluationInput (runtime : PropRiskRuntimeConfig) (sample : GuardSample)
    (telemetryStale : Bool) : PropRiskEvaluationInput where
  initialBalance := runtime.initialBalance
  dayStartBalance := runtime.dayStartBalance
  maxLossReferenceBalance := runtime.maxLossReferenceBalance
  currentDayMinEquity := runtime.currentDayMinEquity.getD sample.equity
  historicalMaxLossResult := runtime.historicalMaxLossResult
  priorPositiveDaysProfit := runtime.priorPositiveDaysProfit
  priorBestDayProfit := runtime.priorBestDayProfit
  historyQuality := .trackedSinceGuardEnabled
  tradingDays := none
  hasOpenPositions := sample.hasOpenPositions
  balance := sample.balance
  equity := sample.equity
  previouslyLockedReason := runtime.previouslyLockedReason
  telemetryStale := telemetryStale
  unprotectedExposure := sample.unprotectedExposure

def proposedDay (now : Nat) (runtime : PropRiskRuntimeConfig) (sample : GuardSample) :
    DailyStateRow :=
  let evaluation := evaluatePropRisk runtime.rules runtime.actions
    (evaluationInput runtime sample false)
  { tradingDay := runtime.tradingDay
    dayStartBalance := runtime.dayStartBalance
    lastBalance := sample.balance
    lastEquity := sample.equity
    minEquity := sample.equity
    status := evaluation.status
    reason := evaluation.reason
    locked := evaluation.locks
    evaluation := evaluation
    evaluatedAt := now }

/-- `ON CONFLICT DO UPDATE`: a lock stays, and only what locks again replaces what a locked row
says; a proposal from another baseline changes nothing. -/
def mergeDay (proposed stored : DailyStateRow) : DailyStateRow :=
  let sameBaseline := stored.dayStartBalance = proposed.dayStartBalance
  if sameBaseline && (!stored.locked || proposed.locked) then
    { proposed with minEquity := min stored.minEquity proposed.minEquity }
  else { stored with locked := stored.locked || (sameBaseline && proposed.locked) }

/-- Insert the proposed row, or merge it into the day's. -/
def upsertDay (proposed : DailyStateRow) (days : List DailyStateRow) : List DailyStateRow :=
  if days.any (·.tradingDay = proposed.tradingDay) then
    Table.updateWhere (·.tradingDay = proposed.tradingDay) (mergeDay proposed) days
  else days ++ [proposed]

/-- How one attempt of the heartbeat to write its verdict ends. -/
inductive GuardAttempt where
  /-- The day's row as it now is. -/
  | persisted (state : DailyStateRow)
  /-- Another heartbeat has fixed the baseline; evaluate again against it. -/
  | baselineChanged (runtime : PropRiskRuntimeConfig)

/-- One round of the loop of `evaluate_and_apply_prop_risk_guard`, after its settings were read.
The first round that finds another baseline reads them again. -/
def guardAttempt (env : PropRiskEnv) (now : Nat) (sample : GuardSample) (first : Bool)
    (runtime : PropRiskRuntimeConfig) (tables : PropRiskTables) :
    Except ApiError (GuardAttempt × PropRiskTables) := do
  refuseIf (tables.assignment.isNone || runtime.dayStartBalance ≤ 0) internalError
  let proposed := proposedDay now runtime sample
  let written := { tables with days := upsertDay proposed tables.days }
  let state := (written.dayState runtime.tradingDay).getD proposed
  if state.dayStartBalance = runtime.dayStartBalance then
    let audits := if state.locked && runtime.previouslyLockedReason.isNone then
        tables.lockAudits ++ [⟨runtime.tradingDay, state.evaluation.status,
          state.evaluation.reason, state.evaluation.equity, now⟩]
      else tables.lockAudits
    return (.persisted state, { written with lockAudits := audits })
  else if first then
    let (reloaded, read) ← loadPropRiskRuntime env now sample.balance written
    match reloaded with
    | some runtime => return (.baselineChanged runtime, read)
    | none => .error ⟨.conflict, "PROP_RISK_ASSIGNMENT_CHANGED",
        "prop risk settings changed during evaluation; retry"⟩
  else .error ⟨.conflict, "PROP_RISK_BASELINE_CHANGED",
    "prop risk daily baseline changed during evaluation; retry"⟩

/-- `evaluate_and_apply_prop_risk_guard` with nothing else going on: the day's row as the
heartbeat leaves it, or nothing without enabled settings. -/
def evaluateAndApplyPropRiskGuard (env : PropRiskEnv) (now : Nat) (sample : GuardSample)
    (tables : PropRiskTables) : Except ApiError (Option DailyStateRow × PropRiskTables) := do
  let (runtime, read) ← loadPropRiskRuntime env now sample.balance tables
  match runtime with
  | none => return (none, read)
  | some runtime =>
    let (outcome, written) ← guardAttempt env now sample true runtime read
    match outcome with
    | .persisted state => return (some state, written)
    | .baselineChanged runtime =>
      let (outcome, rewritten) ← guardAttempt env now sample false runtime written
      match outcome with
      | .persisted state => return (some state, rewritten)
      | .baselineChanged _ => .error internalError

/-! ## Saving the settings -/

/-- `PropRiskUpdateRequest`. -/
structure PropRiskUpdateRequest where
  accountId : String
  enabled : Bool
  profileId : String
  initialBalance : Decimal
  timezone : String
  rules : PropRiskRules
  actions : PropRiskActions
  displayName : Option String
  providerCode : Option String
  programCode : Option String

def validPropIdentifier (value : String) (minLen maxLen : Nat) : Bool :=
  let characters := (trim value).toList
  minLen ≤ (trim value).utf8ByteSize && (trim value).utf8ByteSize ≤ maxLen
    && characters.zipIdx.all fun (character, index) =>
      ('a' ≤ character && character ≤ 'z') || isAsciiDigit character
        || (index > 0 && (character = '_' || character = '-'))

/-- What a profile with locked rules keeps of a request: sizing, buffers and the daily target. -/
def lockedRules (profile requested : PropRiskRules) : PropRiskRules :=
  { profile with
    maxRiskPerTradeBasisPoints := requested.maxRiskPerTradeBasisPoints
    maxTotalOpenRiskBasisPoints := requested.maxTotalOpenRiskBasisPoints
    requireStopLoss := requested.requireStopLoss
    warningBufferBasisPoints := requested.warningBufferBasisPoints
    emergencyBufferBasisPoints := requested.emergencyBufferBasisPoints
    dailyProfitTargetBasisPoints := requested.dailyProfitTargetBasisPoints }

/-- The settings a request asks for under a profile. -/
def requestedAssignment (env : PropRiskEnv) (now : Nat) (request : PropRiskUpdateRequest)
    (profile : PropRiskProfileTemplate) (initialBalance : Decimal) :
    Except ApiError AssignmentRow :=
  let assigned : AssignmentRow :=
    { enabled := request.enabled
      profileId := profile.id
      profileVersion := profile.version
      providerCode := profile.providerCode
      programCode := profile.programCode
      displayName := profile.displayName
      timezone := profile.timezone
      initialBalance := initialBalance
      rules := lockedRules profile.rules request.rules
      actions := request.actions
      updatedAt := now }
  if profile.rulesLocked then .ok assigned
  else do
    let providerCode := env.toLowercase (trim (request.providerCode.getD profile.providerCode))
    let programCode := env.toLowercase (trim (request.programCode.getD profile.programCode))
    refuseIf (!validPropIdentifier providerCode 2 32 || !validPropIdentifier programCode 2 64)
      ⟨.badRequest, "PROP_RISK_PROFILE_INVALID",
        "profile identifiers contain unsupported characters"⟩
    let displayName := trim (request.displayName.getD profile.displayName)
    validatePlainText "displayName" displayName 1 120
    return { assigned with
      providerCode := providerCode
      programCode := programCode
      displayName := displayName
      timezone := trim request.timezone
      rules := request.rules }

/-- `update_prop_risk_guard`. `ownsAccount` is the owner's claim on an account in use. -/
def updatePropRiskGuard (env : PropRiskEnv) (now : Nat) (ownsAccount : Bool)
    (request : PropRiskUpdateRequest) (tables : PropRiskTables) :
    Except ApiError PropRiskTables := do
  validateIdentifier "accountId" request.accountId 96
  refuseIf (request.initialBalance ≤ 0)
    ⟨.badRequest, "PROP_RISK_INITIAL_BALANCE_INVALID", "initial balance must be positive"⟩
  let profile ← require (propRiskProfile tables.catalog (trim request.profileId) none)
    ⟨.badRequest, "PROP_RISK_PROFILE_UNKNOWN", "profile must reference an active catalog entry"⟩
  let initialBalance ← resolveProfileInitialBalance profile request.initialBalance
  let assigned ← requestedAssignment env now request profile initialBalance
  (match assigned.rules.validate with
    | .ok () => .ok ()
    | .error message => .error ⟨.badRequest, "PROP_RISK_RULES_INVALID", message⟩)
  refuseIf (!env.timezoneExists assigned.timezone)
    ⟨.badRequest, "PROP_RISK_TIMEZONE_INVALID", "timezone must be a valid IANA timezone"⟩
  refuseIf (!ownsAccount)
    ⟨.notFound, "TARGET_ACCOUNT_NOT_FOUND", "target account was not found for this owner"⟩
  return { tables with assignment := some assigned }

end MarketLens.PropRisk
