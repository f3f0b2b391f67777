import Mathlib.Data.Rat.Floor
import MarketLens.Alerts.Model

/-!
# The technical evaluator of the alerts

Whether a market observation fires an alert: a pure function of the condition,
the immutable geometry of the target and one or two observations.
-/

namespace MarketLens.Alerts

open Fallible

/-! ## Observations -/

/-- `normalizeEpochSeconds`: milliseconds are taken for what they are. -/
def normalizeEpochSeconds (value : ℚ) : ℚ := if 100000000000 ≤ value then value / 1000 else value

/-- `normalizeEvidencePoint`. -/
def normalizeEvidencePoint (point : TechnicalEvidencePoint) : Option TechnicalEvidencePoint :=
  let timestamp := normalizeEpochSeconds point.timestamp
  if validPrice point.price && 0 < timestamp && timestamp ≤ 253402300799 then some { point with timestamp } else none

/-- `normalizeTriggerInput`, with the observation it is about. -/
def normalizeTriggerInput (input : TriggerInput) : Except StoreError (TriggerInput × TechnicalEvidencePoint) := do
  let current ← require input.current (.badRequest "current market evidence is required")
  let current ← require (normalizeEvidencePoint current) (.badRequest "current market evidence is invalid")
  let previous ← validateOptional
    (fun previous => require ((normalizeEvidencePoint previous).filter (·.timestamp ≤ current.timestamp))
      (.badRequest "previous market evidence is invalid or out of order"))
    input.previous
  refuseIf (input.armingRevision ≤ 0) (.badRequest "armingRevision is required")
  refuseIf (input.triggerPrice.any (!validPrice ·)) (.badRequest "triggerPrice must be greater than zero")
  refuseIf (input.targetPrice.any (!validPrice ·)) (.badRequest "targetPrice must be greater than zero")
  .ok ({ input with current := some current, previous }, current)

/-- `technicalTargetAt`: the band at a time, or why there is none. -/
inductive TargetAt where
  | active (lower upper : ℚ)
  | inactive (reason : String)

structure TechnicalEvaluation where
  triggered : Bool
  targetPrice : ℚ
  active : Bool
  reason : String

def evaluated (triggered : Bool) (targetPrice : ℚ) : TechnicalEvaluation := ⟨triggered, targetPrice, true, ""⟩

/-- `lineTargetAt`. -/
def lineTargetAt (platform : Platform) (target : DynamicLineTarget) (marketTime : ℚ) : TargetAt :=
  let timestamp := normalizeEpochSeconds marketTime
  let start := target.a.time
  let stop := target.b.time
  if !validPrice target.a.price || !validPrice target.b.price || start = stop then .inactive "invalid"
  else if target.domain = "segment" && timestamp < min start stop then .inactive "before-domain"
  else if target.domain = "segment" && max start stop < timestamp then .inactive "expired"
  else if target.domain = "ray" && start < stop && timestamp < start then .inactive "before-domain"
  else if target.domain = "ray" && stop < start && start < timestamp then .inactive "expired"
  else
    let ratio := (timestamp - start) / (stop - start)
    let price :=
      if target.interpolation = "log" then
        platform.exp (platform.log target.a.price + (platform.log target.b.price - platform.log target.a.price) * ratio)
      else target.a.price + (target.b.price - target.a.price) * ratio
    if validPrice price then .active price price else .inactive "invalid"

/-- `targetAt`. -/
def targetAt (platform : Platform) (target : TechnicalAlertTarget) (marketTime : ℚ) : TargetAt :=
  if target.kind = "fixed-price" then
    match target.price with
    | some price => if validPrice price then .active price price else .inactive "invalid"
    | none => .inactive "invalid"
  else if target.kind = "dynamic-line" then
    match target.a, target.b with
    | some a, some b =>
      lineTargetAt platform
        { version := target.version, kind := target.kind, a, b, domain := target.domain, interpolation := target.interpolation }
        marketTime
    | _, _ => .inactive "invalid"
  else if target.kind = "dynamic-channel" then
    match target.boundaryA, target.boundaryB with
    | none, _ => .inactive "invalid"
    | some boundaryA, boundaryB =>
      match lineTargetAt platform boundaryA marketTime, boundaryB.map (lineTargetAt platform · marketTime) with
      | .inactive reason, _ => .inactive reason
      | _, none => .inactive "invalid"
      | _, some (.inactive reason) => .inactive reason
      | .active lowerA upperA, some (.active lowerB upperB) => .active (min lowerA lowerB) (max upperA upperB)
  else .inactive "invalid"

/-- `channelLocation`. -/
inductive Location where
  | below
  | inside
  | above
deriving DecidableEq

def channelLocation (price lower upper : ℚ) : Location :=
  if price < lower then .below else if upper < price then .above else .inside

/-- `boundaryForChannel`. -/
def boundaryForChannel (operator : String) (lower upper price : ℚ) : ℚ :=
  if operator = "cross-upper-up" || operator = "cross-upper-down" then upper
  else if operator = "cross-lower-up" || operator = "cross-lower-down" then lower
  else if |price - lower| ≤ |price - upper| then lower
  else upper

def bandBefore (platform : Platform) (target : TechnicalAlertTarget) (previous : Option TechnicalEvidencePoint) :
    Option (TechnicalEvidencePoint × ℚ × ℚ) := do
  let before ← previous.bind normalizeEvidencePoint
  match targetAt platform target before.timestamp with
  | .active lower upper => some (before, lower, upper)
  | .inactive _ => none

def evaluateLine (condition : String) (before : Option (TechnicalEvidencePoint × ℚ × ℚ)) (price targetPrice : ℚ) :
    TechnicalEvaluation :=
  if condition = "above" then evaluated (targetPrice ≤ price) targetPrice
  else if condition = "below" then evaluated (price ≤ targetPrice) targetPrice
  else
    match before with
    | none => evaluated false targetPrice
    | some (before, lower, _) =>
      let triggered :=
        if condition = "crossDown" then 0 < before.price - lower && price - targetPrice ≤ 0
        else condition = "crossUp" && before.price - lower < 0 && 0 ≤ price - targetPrice
      evaluated triggered targetPrice

def evaluateChannel (operator : String) (before : Option (TechnicalEvidencePoint × ℚ × ℚ)) (price lower upper : ℚ) :
    TechnicalEvaluation :=
  let targetPrice := boundaryForChannel operator lower upper price
  let location := channelLocation price lower upper
  if operator = "inside" then evaluated (location = .inside) targetPrice
  else if operator = "outside" then evaluated (location ≠ .inside) targetPrice
  else
    match before with
    | none => evaluated false targetPrice
    | some (before, lowerBefore, upperBefore) =>
      let locationBefore := channelLocation before.price lowerBefore upperBefore
      if operator = "enter" then evaluated (locationBefore ≠ .inside && location = .inside) targetPrice
      else if operator = "exit" then evaluated (locationBefore = .inside && location ≠ .inside) targetPrice
      else
        let isUpper := operator = "cross-upper-up" || operator = "cross-upper-down"
        let boundaryBefore := if isUpper then upperBefore else lowerBefore
        let boundaryNow := if isUpper then upper else lower
        let triggered :=
          if operator = "cross-upper-down" || operator = "cross-lower-down" then
            0 < before.price - boundaryBefore && price - boundaryNow ≤ 0
          else
            (operator = "cross-upper-up" || operator = "cross-lower-up")
              && before.price - boundaryBefore < 0 && 0 ≤ price - boundaryNow
        evaluated triggered boundaryNow

/-- `evaluateTechnicalAlert`. -/
def evaluateTechnicalAlert (platform : Platform) (condition : String) (target : TechnicalAlertTarget)
    (previous : Option TechnicalEvidencePoint) (current : TechnicalEvidencePoint) : TechnicalEvaluation :=
  match normalizeEvidencePoint current with
  | none => ⟨false, 0, false, "invalid"⟩
  | some current =>
    match targetAt platform target current.timestamp with
    | .inactive reason => ⟨false, 0, false, reason⟩
    | .active lower upper =>
      let before := bandBefore platform target previous
      if target.kind ≠ "dynamic-channel" then evaluateLine condition before current.price lower
      else evaluateChannel target.operator before current.price lower upper

/-- `fixedTechnicalTarget`. -/
def fixedTechnicalTarget (price : ℚ) : TechnicalAlertTarget :=
  { version := 1, kind := "fixed-price", price := some price, a := none, b := none, domain := "", interpolation := ""
    boundaryA := none, boundaryB := none, operator := "" }

/-- `evidenceTimestamp`, in the microseconds the database keeps: nanoseconds to the nearest, then cut. -/
def evidenceTimestamp (value : ℚ) : Int :=
  let seconds := normalizeEpochSeconds value
  let nanoseconds := ⌊seconds⌋ * 1000000000 + ⌊(seconds - ⌊seconds⌋) * 1000000000 + 1 / 2⌋
  nanoseconds / 1000

/-- `nearlyEqual`. -/
def nearlyEqual (a b : ℚ) : Bool :=
  let scale := max 1 (max |a| |b|)
  |a - b| ≤ max (5000001 / 10 ^ 15) (scale / 10 ^ 9)

/-- What a `numeric(20, 8)` column keeps of a positive number. -/
def numeric8 (value : ℚ) : ℚ := ⌊value * 10 ^ 8 + 1 / 2⌋ / 10 ^ 8

/-- A stored price is nearly the price. -/
theorem nearlyEqual_numeric8 (value : ℚ) : nearlyEqual (numeric8 value) value = true := by
  have hlow : (⌊value * 10 ^ 8 + 1 / 2⌋ : ℚ) ≤ value * 10 ^ 8 + 1 / 2 := Int.floor_le _
  have hhigh : value * 10 ^ 8 + 1 / 2 < ⌊value * 10 ^ 8 + 1 / 2⌋ + 1 := Int.lt_floor_add_one _
  have hdistance : |numeric8 value - value| ≤ 5000001 / 10 ^ 15 := by
    unfold numeric8
    rw [abs_le]
    constructor
    · linarith
    · linarith
  unfold nearlyEqual
  rw [decide_eq_true_eq]
  exact le_trans hdistance (le_max_left _ _)

end MarketLens.Alerts
