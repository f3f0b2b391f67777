import MarketLens.Lib.Run
import MarketLens.Lib.Table
import MarketLens.Alerts.Evaluator

/-!
# The alert store

The tables of alerts and of their events, and the statements of the calls that
write them. Creating, patching and deleting an alert is one statement; it waits
while a running trigger holds the row. A trigger is a transaction: it locks the
row, decides, prunes the history and commits, and what it writes is seen by the
others from then on. Clearing the history is a statement that waits for the rows
a running prune deletes, so that it starts at one time and ends at another.

What was answered, and which alerts were edited, is kept in order in a journal.
-/

namespace MarketLens.Alerts

open Fallible

/-- A row of `alerts`. -/
structure Alert where
  id : Uuid
  userId : Uuid
  clientId : Option String
  symbol : String
  condition : String
  price : ℚ
  note : String
  status : AlertStatus
  enabled : Bool
  locked : Bool
  recurring : Bool
  channels : Channels
  triggerPrice : Option ℚ
  triggeredAt : Option Int
  source : Option AlertSource
  technicalTarget : Option TechnicalAlertTarget
  armingRevision : Int
deriving DecidableEq

/-- A row of `alert_events`; those of before the arming revisions have none. -/
structure EventRow where
  id : Uuid
  alertId : Option Uuid
  alertRef : String
  userId : Uuid
  symbol : String
  condition : String
  targetPrice : ℚ
  triggerPrice : ℚ
  triggeredAt : Int
  delivered : Bool
  armingRevision : Option Int
deriving DecidableEq

/-- An event as it is returned. -/
structure Event where
  id : Uuid
  alertId : String
  symbol : String
  condition : String
  targetPrice : ℚ
  triggerPrice : ℚ
  triggeredAt : Int
  delivered : Bool
  armingRevision : Int
deriving DecidableEq

/-- `scanEvent`. -/
def scanEvent (row : EventRow) : Event :=
  { id := row.id, alertId := row.alertRef, symbol := row.symbol, condition := row.condition, targetPrice := row.targetPrice
    triggerPrice := row.triggerPrice, triggeredAt := row.triggeredAt, delivered := row.delivered
    armingRevision := row.armingRevision.getD 0 }

/-- A call of `Trigger`: whose alert, named how, and the evidence. -/
structure TriggerRequest where
  userId : Uuid
  ref : String
  input : TriggerInput
deriving DecidableEq

/-- What a call of `Trigger` returns. -/
inductive Answer where
  | new (item : Alert) (event : Event)
  | already (event : Event)
  | refused (error : StoreError)
deriving DecidableEq

inductive Entry where
  | answered (request : TriggerRequest) (answer : Answer)
  /-- The alert was created anew, patched or deleted. -/
  | edited (alertId : Uuid)
deriving DecidableEq

/-- What a running trigger has written, unseen by the others. -/
inductive Progress where
  | locked
  | written (item : Alert) (event : EventRow)
  | pruned (item : Alert) (event : EventRow) (deleted : List Uuid)
deriving DecidableEq

structure Running where
  request : TriggerRequest
  input : TriggerInput
  current : TechnicalEvidencePoint
  row : Alert
  progress : Progress

structure Store where
  alerts : List Alert
  events : List EventRow
  running : List Running
  /-- The histories being cleared, as the rows each statement saw. -/
  clearing : List (List Uuid)
  /-- Every identifier handed out. -/
  issued : List Uuid
  journal : List Entry

/-! ## Statements -/

section
variable (platform : Platform)

/-- `splitRef`. -/
def splitRef (ref : String) : Option Uuid × String :=
  if trim ref = "" then (none, "")
  else
    match platform.scanUUID (trim ref) with
    | some id => (some id, "")
    | none => (none, trim ref)

/-- The condition that names an alert of a user. -/
def isReferred (userId : Uuid) (ref : String) (row : Alert) : Bool :=
  let (refUUID, refClientID) := splitRef platform ref
  row.userId = userId && (refUUID = some row.id || (refClientID ≠ "" && row.clientId = some refClientID))

def findAlert (store : Store) (userId : Uuid) (ref : String) : Option Alert :=
  store.alerts.find? (isReferred platform userId ref)

/-- The row is held by a running trigger. -/
def isHeld (store : Store) (alertId : Uuid) : Bool := store.running.any (·.row.id = alertId)

/-- A value as a `numeric(20, 8)` column keeps it. -/
def numericColumn (value : ℚ) : Except StoreError ℚ :=
  if 10 ^ 12 ≤ numeric8 value then .error (.failed "numeric field overflow") else .ok (numeric8 value)

/-- `price numeric(20, 8) CHECK (price > 0)`. -/
def priceColumn (value : ℚ) : Except StoreError ℚ := do
  let value ← numericColumn value
  refuseIf (value ≤ 0) (.failed "alerts_price_check")
  .ok value

/-- The row `Create` inserts. -/
def createdRow (id userId : Uuid) (input : CreateInput) (price : ℚ) : Alert :=
  { id, userId, clientId := if input.clientId = "" then none else some input.clientId
    symbol := input.symbol, condition := input.condition, price, note := input.note, status := .active
    enabled := input.enabled.getD true, locked := input.locked, recurring := input.recurring
    channels := input.channels.getD ⟨true, false, false, false, false⟩, triggerPrice := none, triggeredAt := none
    source := input.source, technicalTarget := input.technicalTarget, armingRevision := 1 }

/-- The `CASE` of `Create`. -/
def createRearms (row excluded : Alert) : Bool :=
  row.symbol ≠ excluded.symbol || row.condition ≠ excluded.condition || row.price ≠ excluded.price
    || row.recurring ≠ excluded.recurring
    || (excluded.technicalTarget.isSome && row.technicalTarget ≠ excluded.technicalTarget)

/-- `ON CONFLICT … DO UPDATE`: a row that is there takes over what the new one would be. -/
def upsertedRow (row excluded : Alert) : Alert :=
  { row with
    symbol := excluded.symbol, condition := excluded.condition, price := excluded.price, note := excluded.note
    enabled := excluded.enabled, locked := excluded.locked, recurring := excluded.recurring, channels := excluded.channels
    source := row.source.or excluded.source
    technicalTarget := excluded.technicalTarget.or row.technicalTarget
    armingRevision := row.armingRevision + if createRearms row excluded then 1 else 0 }

/-- The rows an inserted one runs into, by the unique index on the client's identifier. -/
def sameClient (excluded row : Alert) : Bool :=
  row.userId = excluded.userId && row.clientId.isSome && row.clientId = excluded.clientId

/-- `Create`, with the identifier a new row gets. -/
def create (userId : Uuid) (input : CreateInput) (id : Uuid) (store : Store) : Option Store :=
  match normalizeCreate platform input with
  | .error _ => some store
  | .ok input =>
    match priceColumn input.price with
    | .error _ => some store
    | .ok price =>
      let excluded := createdRow id userId input price
      match store.alerts.find? (sameClient excluded) with
      | some row =>
        if isHeld store row.id then none
        else some { store with
          alerts := Table.updateWhere (·.id = row.id) (upsertedRow · excluded) store.alerts
          journal := store.journal ++ [.edited row.id] }
      | none =>
        if store.issued.contains id then none
        else some { store with alerts := store.alerts ++ [excluded], issued := id :: store.issued }

def patchedStatus (status : Option String) (old : AlertStatus) : AlertStatus :=
  match status with
  | none => old
  | some status => if status = "active" then .active else .expired

/-- The `CASE` of `Patch`. -/
def patchRearms (input : PatchInput) (row : Alert) : Bool :=
  input.symbol.any (row.symbol ≠ ·) || input.condition.any (row.condition ≠ ·)
    || input.price.any (row.price ≠ ·) || input.recurring.any (row.recurring ≠ ·)
    || (input.technicalTarget.isSome && row.technicalTarget ≠ input.technicalTarget)
    || (input.status = some "active" && row.status ≠ .active)

/-- The row `Patch` leaves; `price` is as the column keeps it. -/
def patchedRow (input : PatchInput) (price : Option ℚ) (row : Alert) : Alert :=
  { row with
    armingRevision := row.armingRevision + if patchRearms input row then 1 else 0
    symbol := input.symbol.getD row.symbol
    condition := input.condition.getD row.condition
    price := price.getD row.price
    note := input.note.getD row.note
    status := patchedStatus input.status row.status
    enabled := input.enabled.getD row.enabled
    locked := input.locked.getD row.locked
    recurring := input.recurring.getD row.recurring
    channels :=
      { sound := (input.channels.bind (·.sound)).getD row.channels.sound
        browser := (input.channels.bind (·.browser)).getD row.channels.browser
        push := (input.channels.bind (·.push)).getD row.channels.push
        telegram := (input.channels.bind (·.telegram)).getD row.channels.telegram
        discord := (input.channels.bind (·.discord)).getD row.channels.discord }
    technicalTarget := input.technicalTarget.or row.technicalTarget
    triggerPrice := if input.status.isSome then none else row.triggerPrice
    triggeredAt := if input.status.isSome then none else row.triggeredAt }

/-- `Patch`. -/
def patch (userId : Uuid) (ref : String) (input : PatchInput) (store : Store) : Option Store :=
  match normalizePatch platform input with
  | .error _ => some store
  | .ok input =>
    match findAlert platform store userId ref, validateOptional priceColumn input.price with
    | some row, .ok price =>
      if isHeld store row.id then none
      else some { store with
        alerts := Table.updateWhere (·.id = row.id) (patchedRow input price) store.alerts
        journal := store.journal ++ [.edited row.id] }
    | _, _ => some store

/-- `ON DELETE SET NULL`. -/
def forgetAlert (alertId : Uuid) : List EventRow → List EventRow :=
  Table.updateWhere (·.alertId = some alertId) fun row => { row with alertId := none }

/-- `Delete`. -/
def delete (userId : Uuid) (ref : String) (store : Store) : Option Store :=
  match findAlert platform store userId ref with
  | none => some store
  | some row =>
    if isHeld store row.id then none
    else some { store with
      alerts := store.alerts.filter (·.id ≠ row.id)
      events := forgetAlert row.id store.events
      journal := store.journal ++ [.edited row.id] }

/-- `ORDER BY triggered_at DESC, id DESC`. -/
def isNewer (a b : EventRow) : Bool := b.triggeredAt < a.triggeredAt || (a.triggeredAt = b.triggeredAt && b.id ≤ a.id)

def newestFirst (events : List EventRow) : List EventRow := events.mergeSort isNewer

/-! ## A trigger -/

/-- Refuse a call, or answer it, without having written anything. -/
def Store.answer (store : Store) (request : TriggerRequest) (answer : Answer) : Store :=
  { store with journal := store.journal ++ [.answered request answer] }

/-- `Trigger` up to the lock on the row. -/
def beginTrigger (request : TriggerRequest) (store : Store) : Option Store :=
  match normalizeTriggerInput request.input with
  | .error error => some (store.answer request (.refused error))
  | .ok (input, current) =>
    match findAlert platform store request.userId request.ref with
    | none => some (store.answer request (.refused .notFound))
    | some row =>
      if isHeld store row.id then none
      else if input.armingRevision ≠ row.armingRevision then
        some (store.answer request (.refused (.badRequest "stale armingRevision")))
      else some { store with running := ⟨request, input, current, row, .locked⟩ :: store.running }

end

/-- What a trigger does once it holds the row: answer, or fire with these prices. -/
inductive Decision where
  | answer (answer : Answer)
  | fire (targetPrice : ℚ)

/-- The answer for an alert that has fired: its canonical event, or one of before the revisions. -/
def decideTriggered (events : List EventRow) (row : Alert) : Answer :=
  match (newestFirst (events.filter fun event => event.alertId = some row.id && event.armingRevision = some row.armingRevision)).head? with
  | some event => .already (scanEvent event)
  | none =>
    match (newestFirst (events.filter fun event => event.alertId = some row.id && event.armingRevision = none)).head? with
    | some event => .already (scanEvent event)
    | none => .refused (.badRequest "triggered alert is missing its canonical event")

section
variable (platform : Platform)

/-- The target of the row, validated again. -/
def storedTarget (row : Alert) : Except StoreError TechnicalAlertTarget :=
  match row.technicalTarget with
  | none => .ok (fixedTechnicalTarget row.price)
  | some target => (validateTechnicalTarget platform target).mapError .invalidStored

/-- The price of the target, if the evidence fires the alert. -/
def evaluateTrigger (row : Alert) (input : TriggerInput) (current : TechnicalEvidencePoint) :
    Except StoreError ℚ := do
  let target ← storedTarget platform row
  let evaluation := evaluateTechnicalAlert platform row.condition target input.previous current
  refuseIf (!evaluation.active) (.badRequest ("technical target is not active (" ++ evaluation.reason ++ ")"))
  refuseIf (!evaluation.triggered) (.badRequest "market evidence does not satisfy the alert")
  refuseIf (input.triggerPrice.any (!nearlyEqual · current.price)) (.badRequest "triggerPrice does not match current evidence")
  refuseIf (input.targetPrice.any (!nearlyEqual · evaluation.targetPrice))
    (.badRequest "targetPrice does not match immutable technical target")
  .ok evaluation.targetPrice

def isAttempt (row : Alert) (triggeredAt : Int) (event : EventRow) : Bool :=
  event.alertId = some row.id && event.armingRevision = some row.armingRevision && event.triggeredAt = triggeredAt

/-- The decision on an alert that has not fired. -/
def decideAttempt (events : List EventRow) (running : Running) : Decision :=
  match evaluateTrigger platform running.row running.input running.current with
  | .error error => .answer (.refused error)
  | .ok targetPrice =>
    match events.find? (isAttempt running.row (evidenceTimestamp running.current.timestamp)) with
    | some event =>
      if !nearlyEqual event.triggerPrice running.current.price || !nearlyEqual event.targetPrice targetPrice then
        .answer (.refused (.badRequest "trigger attempt identity collision"))
      else .answer (.already (scanEvent event))
    | none =>
      if !running.row.enabled || running.row.status ≠ .active then
        .answer (.refused (.badRequest "only enabled active alerts can be triggered"))
      else .fire targetPrice

def decideTrigger (events : List EventRow) (running : Running) : Decision :=
  if running.row.status = .triggered then .answer (decideTriggered events running.row)
  else decideAttempt platform events running

/-- `alertRef`. -/
def alertRef (item : Alert) : String := (item.clientId.filter (· ≠ "")).getD (platform.uuidString item.id)

/-- The row the trigger's `UPDATE` leaves. -/
def firedRow (row : Alert) (triggerPrice : ℚ) (triggeredAt : Int) : Alert :=
  { row with
    status := if row.recurring then .active else .triggered
    triggerPrice := some triggerPrice, triggeredAt := some triggeredAt }

def firedEvent (item : Alert) (eventId : Uuid) (targetPrice triggerPrice : ℚ) (triggeredAt : Int) : EventRow :=
  { id := eventId, alertId := some item.id, alertRef := alertRef platform item, userId := item.userId, symbol := item.symbol
    condition := item.condition, targetPrice, triggerPrice, triggeredAt, delivered := false
    armingRevision := some item.armingRevision }

def writeTrigger (running : Running) (eventId : Uuid) (targetPrice : ℚ) :
    Except StoreError (Alert × EventRow) := do
  let triggeredAt := evidenceTimestamp running.current.timestamp
  let triggerPrice ← numericColumn running.current.price
  let targetPrice ← numericColumn targetPrice
  let item := firedRow running.row triggerPrice triggeredAt
  .ok (item, firedEvent platform item eventId targetPrice triggerPrice triggeredAt)

def Store.runningOn (store : Store) (alertId : Uuid) : Option Running := store.running.find? (·.row.id = alertId)

/-- The trigger of the alert is over. -/
def Store.release (store : Store) (alertId : Uuid) : Store :=
  { store with running := store.running.filter (·.row.id ≠ alertId) }

/-- The trigger of the alert has come further. -/
def Store.progressTo (store : Store) (alertId : Uuid) (progress : Progress) : Store :=
  { store with running := Table.updateWhere (·.row.id = alertId) (fun running => { running with progress }) store.running }

/-- The trigger that holds the row reads the history, and answers or writes. Nobody else adds to
the events of the row, so that its reads and its writes are at one time. -/
def decide (alertId eventId : Uuid) (store : Store) : Option Store := do
  let running ← store.runningOn alertId
  if running.progress ≠ .locked || store.issued.contains eventId then none
  else
    match decideTrigger platform store.events running with
    | .answer answer => some ((store.release alertId).answer running.request answer)
    | .fire targetPrice =>
      match writeTrigger platform running eventId targetPrice with
      | .error error => some ((store.release alertId).answer running.request (.refused error))
      | .ok (item, event) =>
        some { store.progressTo alertId (.written item event) with issued := eventId :: store.issued }

end

/-- The rows of the user's history a prune deletes: all but the newest. -/
def prunedIds (userId : Uuid) (events : List EventRow) : List Uuid :=
  ((newestFirst (events.filter (·.userId = userId))).drop MaxHistory).map (·.id)

/-- The `DELETE` of a trigger, which sees the event it has inserted. -/
def prune (alertId : Uuid) (store : Store) : Option Store := do
  let running ← store.runningOn alertId
  match running.progress with
  | .written item event =>
    some (store.progressTo alertId (.pruned item event (prunedIds running.row.userId (store.events ++ [event]))))
  | _ => none

/-- `Commit`. -/
def commit (alertId : Uuid) (store : Store) : Option Store := do
  let running ← store.runningOn alertId
  match running.progress with
  | .pruned item event deleted =>
    some { (store.release alertId).answer running.request (.new item (scanEvent event)) with
      alerts := Table.updateWhere (·.id = alertId) (fun _ => item) store.alerts
      events := (store.events ++ [event]).filter (!deleted.contains ·.id) }
  | _ => none

/-! ## Steps -/

inductive Action where
  | create (userId : Uuid) (input : CreateInput) (id : Uuid)
  | patch (userId : Uuid) (ref : String) (input : PatchInput)
  | delete (userId : Uuid) (ref : String)
  | beginTrigger (request : TriggerRequest)
  | decide (alertId eventId : Uuid)
  | prune (alertId : Uuid)
  | commit (alertId : Uuid)
  /-- The database failed the transaction, and the call with it. -/
  | abort (alertId : Uuid)
  /-- `ClearHistory`, from the rows it sees to the end of the statement. -/
  | clearHistory (userId : Uuid)
  | historyCleared (ids : List Uuid)

def step (platform : Platform) (store : Store) : Action → Option Store
  | .create userId input id => create platform userId input id store
  | .patch userId ref input => patch platform userId ref input store
  | .delete userId ref => delete platform userId ref store
  | .beginTrigger request => beginTrigger platform request store
  | .decide alertId eventId => decide platform alertId eventId store
  | .prune alertId => prune alertId store
  | .commit alertId => commit alertId store
  | .abort alertId => some (store.release alertId)
  | .clearHistory userId =>
    some { store with clearing := (store.events.filter (·.userId = userId)).map (·.id) :: store.clearing }
  | .historyCleared ids =>
    if store.clearing.contains ids then
      some { store with
        events := store.events.filter (!ids.contains ·.id)
        clearing := store.clearing.erase ids }
    else none

end MarketLens.Alerts
