import MarketLens.Domain.Text

/-!
# Alerts, their targets and what a request may ask

The rows and requests of the alert store with their validators. A double is the
number it stands for (none is infinite or NaN); the functions of the language's
libraries are parameters (`Platform`).
-/

namespace MarketLens.Alerts

open Fallible

/-- A 128-bit identifier, in the order the database compares them. -/
abbrev Uuid := Nat

inductive StoreError where
  | notFound
  | badRequest (message : String)
  | alreadyTriggered
  /-- A stored target that no longer passes its own validator. -/
  | invalidStored (error : StoreError)
  /-- A statement the database refused. -/
  | failed (message : String)
deriving DecidableEq

/-- `Error()`. -/
def StoreError.text : StoreError → String
  | .notFound => "alerts: not found"
  | .badRequest message => "alerts: bad request: " ++ message
  | .alreadyTriggered => "alerts: bad request: trigger already persisted"
  | .invalidStored error => "invalid stored technical target: " ++ error.text
  | .failed message => message

/-- The library functions the alerts use: `math.Log`, `math.Exp`, `strconv.Quote`,
`strings.ToUpper`, `pgtype.UUID.Scan` and the text of an identifier. -/
structure Platform where
  log : ℚ → ℚ
  exp : ℚ → ℚ
  quote : String → String
  toUpper : String → String
  scanUUID : String → Option Uuid
  uuidString : Uuid → String

def MaxHistory : Nat := 200
def MaxNoteLen : Nat := 500

inductive AlertStatus where
  | active
  | triggered
  | expired
deriving DecidableEq

structure Channels where
  sound : Bool
  browser : Bool
  push : Bool
  telegram : Bool
  discord : Bool
deriving DecidableEq

structure ChannelPatch where
  sound : Option Bool
  browser : Option Bool
  push : Option Bool
  telegram : Option Bool
  discord : Option Bool

structure AlertSource where
  kind : String
  drawingId : String
  drawingTool : String
  targetId : String
  targetLabel : String
  snapshotAt : ℚ
deriving DecidableEq

structure TechnicalAlertPoint where
  time : ℚ
  price : ℚ
deriving DecidableEq

structure DynamicLineTarget where
  version : Int
  kind : String
  a : TechnicalAlertPoint
  b : TechnicalAlertPoint
  domain : String
  interpolation : String
deriving DecidableEq

structure TechnicalAlertTarget where
  version : Int
  kind : String
  price : Option ℚ
  a : Option TechnicalAlertPoint
  b : Option TechnicalAlertPoint
  domain : String
  interpolation : String
  boundaryA : Option DynamicLineTarget
  boundaryB : Option DynamicLineTarget
  operator : String
deriving DecidableEq

structure CreateInput where
  clientId : String
  symbol : String
  condition : String
  price : ℚ
  note : String
  recurring : Bool
  enabled : Option Bool
  locked : Bool
  channels : Option Channels
  source : Option AlertSource
  technicalTarget : Option TechnicalAlertTarget

structure PatchInput where
  symbol : Option String
  condition : Option String
  price : Option ℚ
  note : Option String
  status : Option String
  enabled : Option Bool
  locked : Option Bool
  recurring : Option Bool
  channels : Option ChannelPatch
  technicalTarget : Option TechnicalAlertTarget

structure TechnicalEvidencePoint where
  price : ℚ
  timestamp : ℚ
deriving DecidableEq

structure TriggerInput where
  triggerPrice : Option ℚ
  targetPrice : Option ℚ
  previous : Option TechnicalEvidencePoint
  current : Option TechnicalEvidencePoint
  armingRevision : Int
deriving DecidableEq

def badRequest {α : Type} (message : String) : Except StoreError α := .error (.badRequest message)

def validPrice (price : ℚ) : Bool := 0 < price

def validCondition (condition : String) : Bool := ["above", "below", "crossUp", "crossDown"].contains condition

def validChannelOperator (operator : String) : Bool :=
  ["cross-upper-up", "cross-upper-down", "cross-lower-up", "cross-lower-down", "enter", "exit", "inside", "outside"].contains operator

/-! ## Targets -/

def float64Epsilon : ℚ := 1 / 2 ^ 52

section
variable (platform : Platform)

/-- `parallelChannelSlopes`. -/
def parallelChannelSlopes (a b : DynamicLineTarget) : Bool :=
  let price (value : ℚ) : ℚ := if a.interpolation = "log" then platform.log value else value
  let aSlope := (price a.b.price - price a.a.price) / (a.b.time - a.a.time)
  let bSlope := (price b.b.price - price b.a.price) / (b.b.time - b.a.time)
  let scale := max 1 (max |aSlope| |bSlope|)
  |aSlope - bSlope| ≤ float64Epsilon * 64 * scale

/-- `validateDynamicLineTarget`: the line with its texts trimmed. -/
def validateDynamicLineTarget (target : DynamicLineTarget) : Except StoreError DynamicLineTarget :=
  if target.version ≠ 1 || trim target.kind ≠ "dynamic-line" then badRequest "dynamic line version and kind are invalid"
  else
    let target := { target with kind := "dynamic-line", domain := trim target.domain, interpolation := trim target.interpolation }
    if target.a.time ≤ 0 || target.b.time ≤ 0 || target.a.time = target.b.time || !validPrice target.a.price
        || !validPrice target.b.price then
      badRequest "dynamic line anchors are invalid"
    else if !(["segment", "ray", "infinite"].contains target.domain) then
      badRequest ("unsupported dynamic line domain " ++ platform.quote target.domain)
    else if !(["linear", "log"].contains target.interpolation) then
      badRequest ("unsupported dynamic line interpolation " ++ platform.quote target.interpolation)
    else .ok target

/-- The target of a fixed price, which has nothing else. -/
def validateFixedPrice (target : TechnicalAlertTarget) : Except StoreError TechnicalAlertTarget :=
  if !target.price.any validPrice || target.a.isSome || target.b.isSome || target.domain ≠ "" || target.interpolation ≠ ""
      || target.boundaryA.isSome || target.boundaryB.isSome || target.operator ≠ "" then
    badRequest "fixed-price technicalTarget is invalid"
  else .ok target

def validateDynamicLine (target : TechnicalAlertTarget) : Except StoreError TechnicalAlertTarget :=
  match target.a, target.b with
  | some a, some b =>
    if target.price.isSome || target.boundaryA.isSome || target.boundaryB.isSome || target.operator ≠ "" then
      badRequest "dynamic-line technicalTarget is invalid"
    else do
      let line ← validateDynamicLineTarget platform
        { version := target.version, kind := target.kind, a, b, domain := target.domain, interpolation := target.interpolation }
      .ok { target with domain := line.domain, interpolation := line.interpolation }
  | _, _ => badRequest "dynamic-line technicalTarget is invalid"

def boundaryError (boundary : String) : Except StoreError DynamicLineTarget → Except StoreError DynamicLineTarget
  | .error error => badRequest (boundary ++ ": " ++ error.text)
  | .ok line => .ok line

/-- The target of a channel: two lines over the same anchors, and parallel. -/
def validateDynamicChannel (target : TechnicalAlertTarget) : Except StoreError TechnicalAlertTarget :=
  match target.boundaryA, target.boundaryB with
  | some boundaryA, some boundaryB =>
    if target.price.isSome || target.a.isSome || target.b.isSome || target.domain ≠ "" || target.interpolation ≠ ""
        || !validChannelOperator target.operator then
      badRequest "dynamic-channel technicalTarget is invalid"
    else do
      let boundaryA ← boundaryError "boundaryA" (validateDynamicLineTarget platform boundaryA)
      let boundaryB ← boundaryError "boundaryB" (validateDynamicLineTarget platform boundaryB)
      refuseIf (boundaryA.domain ≠ boundaryB.domain || boundaryA.interpolation ≠ boundaryB.interpolation)
        (.badRequest "channel boundaries must share domain and interpolation")
      refuseIf (boundaryA.a.time ≠ boundaryB.a.time || boundaryA.b.time ≠ boundaryB.b.time
          || !parallelChannelSlopes platform boundaryA boundaryB)
        (.badRequest "channel boundaries must use the same time anchors and be parallel")
      .ok { target with boundaryA := some boundaryA, boundaryB := some boundaryB }
  | _, _ => badRequest "dynamic-channel technicalTarget is invalid"

/-- `validateTechnicalTarget` of a target: the target with its texts trimmed. -/
def validateTechnicalTarget (target : TechnicalAlertTarget) : Except StoreError TechnicalAlertTarget :=
  let target := { target with
    kind := trim target.kind, domain := trim target.domain, interpolation := trim target.interpolation
    operator := trim target.operator }
  if target.version ≠ 1 then badRequest "technicalTarget version must be 1"
  else if target.kind = "fixed-price" then validateFixedPrice target
  else if target.kind = "dynamic-line" then validateDynamicLine platform target
  else if target.kind = "dynamic-channel" then validateDynamicChannel platform target
  else badRequest ("unsupported technicalTarget kind " ++ platform.quote target.kind)

/-- A validator of what a request may leave out. -/
def validateOptional {α : Type} (validate : α → Except StoreError α) : Option α → Except StoreError (Option α)
  | none => .ok none
  | some value => do
    let value ← validate value
    .ok (some value)

/-! ## Requests -/

/-- `validateAlertSource`. -/
def validateAlertSource (source : AlertSource) : Except StoreError AlertSource :=
  let source := { source with
    kind := trim source.kind, drawingId := trim source.drawingId, drawingTool := trim source.drawingTool
    targetId := trim source.targetId, targetLabel := trim source.targetLabel }
  if source.kind ≠ "drawing" || source.drawingId = "" || source.drawingTool = "" || source.targetId = ""
      || source.targetLabel = "" || source.snapshotAt ≤ 0 then
    badRequest "drawing alert source is invalid"
  else .ok source

/-- `normalizeCreate`: the defaults filled in. -/
def normalizeCreate (input : CreateInput) : Except StoreError CreateInput := do
  let input := { input with
    clientId := trim input.clientId, symbol := platform.toUpper (trim input.symbol), condition := trim input.condition
    note := trim input.note }
  refuseIf (input.symbol = "") (.badRequest "symbol is required")
  refuseIf (!validCondition input.condition) (.badRequest ("unsupported condition " ++ platform.quote input.condition))
  refuseIf (!validPrice input.price) (.badRequest "price must be greater than zero")
  refuseIf (MaxNoteLen < input.note.length) (.badRequest ("note exceeds " ++ toString MaxNoteLen ++ " characters"))
  let source ← validateOptional validateAlertSource input.source
  let technicalTarget ← validateOptional (validateTechnicalTarget platform) input.technicalTarget
  .ok { input with
    enabled := some (input.enabled.getD true), channels := some (input.channels.getD ⟨true, false, false, false, false⟩)
    source, technicalTarget }

def normalizeSymbol (symbol : String) : Except StoreError String :=
  if platform.toUpper (trim symbol) = "" then badRequest "symbol cannot be empty" else .ok (platform.toUpper (trim symbol))

def normalizeCondition (condition : String) : Except StoreError String :=
  if !validCondition (trim condition) then badRequest ("unsupported condition " ++ platform.quote (trim condition))
  else .ok (trim condition)

def normalizePrice (price : ℚ) : Except StoreError ℚ :=
  if !validPrice price then badRequest "price must be greater than zero" else .ok price

def normalizeNote (note : String) : Except StoreError String :=
  if MaxNoteLen < (trim note).length then badRequest ("note exceeds " ++ toString MaxNoteLen ++ " characters")
  else .ok (trim note)

def normalizeStatus (status : String) : Except StoreError String :=
  if trim status ≠ "active" && trim status ≠ "expired" then
    badRequest "status patch only supports active or expired; use the trigger endpoint for triggered"
  else .ok (trim status)

/-- `normalizePatch`. -/
def normalizePatch (input : PatchInput) : Except StoreError PatchInput := do
  let symbol ← validateOptional (normalizeSymbol platform) input.symbol
  let condition ← validateOptional (normalizeCondition platform) input.condition
  let price ← validateOptional normalizePrice input.price
  let note ← validateOptional normalizeNote input.note
  let status ← validateOptional normalizeStatus input.status
  let technicalTarget ← validateOptional (validateTechnicalTarget platform) input.technicalTarget
  .ok { input with symbol, condition, price, note, status, technicalTarget }

end

end MarketLens.Alerts
