import MarketLens.Domain.Order

/-!
# EA event batches

What an EA posts to the gateway: its account, instruments and portfolio, and the
events it has buffered. The checks are the ones `accept_events` runs, in its
order; `normalizeEvents` drops exact repeats and refuses two different outcomes
for one broker event.
-/

namespace MarketLens

open Fallible

structure EaAccountSnapshot where
  login : String
  broker : String
  server : String
  mode : AccountMode
  currency : String
  balance : Decimal
  equity : Decimal
  margin : Decimal
  freeMargin : Decimal
  leverage : Nat
  tradeAllowed : Bool
  terminalBuild : Nat
  eaVersion : Option String

structure EaInstrumentSnapshot where
  spec : InstrumentSpec
  bid : Option Decimal
  ask : Option Decimal
  observedAtMs : Nat

/-- The fields of a `tradeTransaction` event. -/
structure TradeTransaction where
  externalEventId : Option String
  eventSequence : Option Nat
  brokerOrderId : Option String
  brokerDealId : Option String
  brokerPositionId : Option String
  brokerPositionById : Option String
  transactionType : String
  transactionTimeMs : Option Nat
  orderState : Option String
  orderType : Option String
  dealEntry : Option String
  dealType : Option String
  canonicalSymbol : Option String
  venueSymbol : Option String
  side : Option Side
  quantity : Option Decimal
  remainingQuantity : Option Decimal
  price : Option Decimal
  stopLoss : Option Decimal
  takeProfit : Option Decimal
  magic : Option Int
  comment : Option String
  reason : Option String
  occurredAtMs : Nat
deriving DecidableEq

inductive EaEvent where
  | commandAccepted (commandId : String) (brokerOrderId brokerDealId : Option String)
      (retcode : Nat) (message : String) (occurredAtMs : Nat)
  | commandRejected (commandId : String) (retcode : Nat) (message : String) (occurredAtMs : Nat)
  | commandUnknown (commandId : String) (message : String) (occurredAtMs : Nat)
  | tradeTransaction (transaction : TradeTransaction)
deriving DecidableEq

structure EaEventBatch where
  protocolVersion : Nat
  account : EaAccountSnapshot
  instruments : List EaInstrumentSnapshot
  positions : List EaPositionSnapshot
  pendingOrders : List EaPendingOrderSnapshot
  portfolioSnapshotComplete : Bool
  events : List EaEvent

def executionProtocolVersion : Nat := 1
def maxEaEventsPerBatch : Nat := 128
def maxLegacyEaClockSkewMs : Nat := 24 * 60 * 60 * 1000

/-! ## Legacy clock skew -/

/-- A timestamp more than a minute but at most a day ahead becomes the receipt time. -/
def normalizeTimestamp (receivedAtMs timestamp : Nat) : Nat :=
  if timestamp > saturatingAdd receivedAtMs 60000
      && timestamp ≤ saturatingAdd receivedAtMs maxLegacyEaClockSkewMs then
    receivedAtMs
  else timestamp

def EaEvent.normalizeClock (receivedAtMs : Nat) : EaEvent → EaEvent
  | .commandAccepted id order deal retcode message occurredAtMs =>
    .commandAccepted id order deal retcode message (normalizeTimestamp receivedAtMs occurredAtMs)
  | .commandRejected id retcode message occurredAtMs =>
    .commandRejected id retcode message (normalizeTimestamp receivedAtMs occurredAtMs)
  | .commandUnknown id message occurredAtMs =>
    .commandUnknown id message (normalizeTimestamp receivedAtMs occurredAtMs)
  | .tradeTransaction transaction =>
    .tradeTransaction { transaction with
      occurredAtMs := normalizeTimestamp receivedAtMs transaction.occurredAtMs }

def normalizeLegacyEaClockSkew (batch : EaEventBatch) (receivedAtMs : Nat) : EaEventBatch where
  protocolVersion := batch.protocolVersion
  account := batch.account
  instruments := batch.instruments.map fun instrument =>
    { instrument with observedAtMs := normalizeTimestamp receivedAtMs instrument.observedAtMs }
  positions := batch.positions.map fun position =>
    { position with observedAtMs := normalizeTimestamp receivedAtMs position.observedAtMs }
  pendingOrders := batch.pendingOrders.map fun order =>
    { order with observedAtMs := normalizeTimestamp receivedAtMs order.observedAtMs }
  portfolioSnapshotComplete := batch.portfolioSnapshotComplete
  events := batch.events.map (EaEvent.normalizeClock receivedAtMs)

/-! ## Checks -/

def validateAccountSnapshot (account : EaAccountSnapshot) : Except ApiError Unit := do
  validatePlainText "broker" account.broker 1 128
  validatePlainText "server" account.server 1 128
  refuseIf (account.login.isEmpty || account.login.utf8ByteSize > 20
      || !account.login.toList.all isAsciiDigit)
    ⟨.badRequest, "ACCOUNT_LOGIN_INVALID", "MT5 login must contain 1 to 20 digits"⟩
  refuseIf (account.currency.isEmpty || account.currency.utf8ByteSize > 12
      || !account.currency.toList.all isAsciiAlphanumeric)
    ⟨.badRequest, "ACCOUNT_CURRENCY_INVALID",
      "account currency must be 1 to 12 letters or digits"⟩
  refuseIf (account.mode = .simulated || account.mode = .unknown)
    ⟨.badRequest, "ACCOUNT_MODE_INVALID", "MT5 EA account must be Demo or Live"⟩
  refuseIf (account.leverage = 0 || account.terminalBuild = 0 || account.margin < 0)
    ⟨.badRequest, "ACCOUNT_SNAPSHOT_INVALID",
      "MT5 leverage/build must be positive and margin cannot be negative"⟩

def validateEventBatchEnvelope (batch : EaEventBatch) : Except ApiError Unit := do
  validateAccountSnapshot batch.account
  refuseIf (batch.instruments.length > 64 || batch.positions.length > 500
      || batch.pendingOrders.length > 500 || batch.events.length > maxEaEventsPerBatch)
    ⟨.payloadTooLarge, "EA_BATCH_TOO_LARGE", "EA heartbeat exceeds the per-batch item limit"⟩

def validateInstrumentSnapshot (nowMs : Nat) (instrument : EaInstrumentSnapshot) :
    Except ApiError Unit := do
  validatePlainText "canonicalSymbol" instrument.spec.canonicalSymbol 1 64
  validatePlainText "venueSymbol" instrument.spec.venueSymbol 1 64
  refuseIf (instrument.spec.quantityStep ≤ 0 || instrument.spec.minQuantity ≤ 0
      || instrument.spec.maxQuantity < instrument.spec.minQuantity
      || instrument.spec.priceTick ≤ 0)
    ⟨.badRequest, "INSTRUMENT_SPEC_INVALID",
      "instrument quantity and price increments are invalid"⟩
  (match instrument.bid, instrument.ask with
    | some bid, some ask =>
      refuseIf (bid < 0 || ask < bid)
        ⟨.badRequest, "INSTRUMENT_QUOTE_INVALID", "instrument quote is invalid"⟩
    | _, _ => .ok ())
  refuseIf (instrument.observedAtMs = 0
      || instrument.observedAtMs > saturatingAdd nowMs 60000)
    ⟨.badRequest, "INSTRUMENT_TIME_INVALID", "instrument observation time is invalid"⟩

def validateEventTime (nowMs occurredAtMs : Nat) : Except ApiError Unit :=
  refuseIf (occurredAtMs = 0 || occurredAtMs > saturatingAdd nowMs 60000)
    ⟨.badRequest, "EA_EVENT_TIME_INVALID", "EA event time is invalid"⟩

def validateEaEvent (nowMs : Nat) : EaEvent → Except ApiError Unit
  | .commandAccepted commandId brokerOrderId brokerDealId _ message occurredAtMs => do
    validateIdentifier "commandId" commandId 128
    validateOptionalTicket "brokerOrderId" brokerOrderId
    validateOptionalTicket "brokerDealId" brokerDealId
    validatePlainText "message" message 0 512
    validateEventTime nowMs occurredAtMs
  | .commandRejected commandId _ message occurredAtMs
  | .commandUnknown commandId message occurredAtMs => do
    validateIdentifier "commandId" commandId 128
    validatePlainText "message" message 1 512
    validateEventTime nowMs occurredAtMs
  | .tradeTransaction transaction => do
    validateOptionalTicket "brokerOrderId" transaction.brokerOrderId
    validateOptionalTicket "brokerDealId" transaction.brokerDealId
    validateOptionalTicket "brokerPositionId" transaction.brokerPositionId
    validatePlainText "transactionType" transaction.transactionType 1 64
    validateEventTime nowMs transaction.occurredAtMs

/-! ## Identities and repeats -/

section Identity

-- `short_hash`: the first twelve bytes of a SHA-256, in hexadecimal.
variable (shortHash : String → String)

def eventIdentity : EaEvent → String
  | .commandAccepted commandId .. => "command:" ++ commandId ++ ":accepted"
  | .commandRejected commandId .. => "command:" ++ commandId ++ ":rejected"
  | .commandUnknown commandId _ occurredAtMs =>
    "command:" ++ commandId ++ ":unknown:" ++ toString occurredAtMs
  | .tradeTransaction transaction =>
    "transaction:" ++ shortHash
      (transaction.brokerOrderId.getD "" ++ ":" ++ transaction.brokerDealId.getD "" ++ ":"
        ++ transaction.brokerPositionId.getD "" ++ ":" ++ transaction.transactionType ++ ":"
        ++ toString transaction.occurredAtMs)

/-- The events without exact repeats, first occurrences kept in order. -/
def uniqueEvents (events : List EaEvent) : List EaEvent :=
  events.foldl (fun unique event => if unique.contains event then unique else unique ++ [event]) []

def normalizeEvents (events : List EaEvent) : Except ApiError (List EaEvent) := do
  let unique := uniqueEvents events
  refuseIf (decide ¬(unique.map (eventIdentity shortHash)).Nodup)
    ⟨.conflict, "EA_EVENT_CONFLICT",
      "EA event batch contains conflicting outcomes for one broker event"⟩
  return unique

end Identity

end MarketLens
