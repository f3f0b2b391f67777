import MarketLens.Mt5Vm.Snapshots

/-!
# The history of an account

A worker submits the closed orders or the deals of a window of time. The rows are
stored under their broker tickets, and of each family one row says which window was
asked for and through when it is covered.

A time comes as milliseconds and is stored in microseconds, the resolution of a
`timestamptz`. The database computes it in double precision, which is exact for
every time of a window that passes the checks.
-/

namespace MarketLens.Mt5Vm

open Store Fallible

/-! ## Submissions -/

inductive HistoryFamily where
  | ordersHistory
  | deals
deriving DecidableEq

/-- `HistoryOrderObservation`: its ticket and its times. The other columns are one text, and
`refusal` is the error of a column that does not parse, is out of range or breaks a check of its
table, if there is one. -/
structure HistoryOrderObservation where
  brokerTicket : String
  placedAtMs : Option Int
  doneAtMs : Option Int
  columns : String
  refusal : Option ApiError
deriving DecidableEq

/-- `DealObservation`. -/
structure DealObservation where
  brokerTicket : String
  occurredAtMs : Int
  columns : String
  refusal : Option ApiError
deriving DecidableEq

/-- `HistoryPayload`. -/
inductive HistoryPayload where
  | ordersHistory (orders : List HistoryOrderObservation)
  | deals (deals : List DealObservation)
deriving DecidableEq

def HistoryPayload.family : HistoryPayload → HistoryFamily
  | .ordersHistory _ => .ordersHistory
  | .deals _ => .deals

def HistoryPayload.length : HistoryPayload → Nat
  | .ordersHistory rows => rows.length
  | .deals rows => rows.length

/-- `HistorySubmission`, less what its envelope carries. -/
structure HistorySubmission where
  accountId : AccountId
  leaseGeneration : Nat
  syncSequence : Int
  observedAtMs : Int
  fromMs : Int
  toMs : Int
  coveredThroughMs : Option Int
  family : HistoryFamily
  result : SnapshotResult
  errorCode : Option String
  cursor : Option String
  payload : HistoryPayload
deriving DecidableEq

def maxHistoryWindowMs : Int := 31 * 24 * 60 * 60 * 1000

/-- `validate_history_shape`. -/
def validateHistoryShape (envelope : Envelope) (request : HistorySubmission) (now : Millis) : Except ApiError Unit := do
  refuseIf (envelope.protocolVersion = 0 || envelope.sessionGeneration = 0 || request.leaseGeneration = 0
      || request.syncSequence ≤ 0 || request.observedAtMs ≤ 0
      || (trim envelope.workerId).isEmpty || envelope.workerId.utf8ByteSize > 64
      || (trim request.accountId).isEmpty || request.accountId.utf8ByteSize > 96
      || request.fromMs ≤ 0 || request.toMs ≤ request.fromMs || request.toMs - request.fromMs > maxHistoryWindowMs
      || (request.cursor.any fun value => value.utf8ByteSize > 256)
      || (request.errorCode.any fun code => !validErrorCode code))
    (invalidSnapshot "history envelope is invalid")
  refuseIf (request.observedAtMs > (now : Int) + 30000 || request.toMs > (now : Int) + 30000)
    (invalidSnapshot "history time is in the future")
  refuseIf (request.payload.family ≠ request.family || request.payload.length > 4096)
    (invalidSnapshot "history payload is invalid")
  if request.result.isAuthoritative then
    refuseIf (request.errorCode.isSome
        || !(request.coveredThroughMs.any fun value => request.fromMs ≤ value && value ≤ request.toMs))
      (invalidSnapshot "complete history coverage is invalid")
  else
    refuseIf request.coveredThroughMs.isSome (invalidSnapshot "non-authoritative history cannot advance coverage")

/-! ## The tables -/

/-- `to_timestamp(ms / 1000.0)`, in microseconds. -/
def toTimestamp (ms : Int) : Int := ms * 1000

/-- `char_length(broker_ticket) BETWEEN 1 AND 64 AND broker_ticket ~ '^[A-Za-z0-9_-]+$'`. -/
def validTicket (ticket : String) : Bool :=
  1 ≤ ticket.length && ticket.length ≤ 64
    && ticket.toList.all fun c => isAsciiAlphanumeric c || c = '_' || c = '-'

/-- A table under the primary key `(account_id, broker_ticket)`, of which every ticket passes its
check. -/
structure BrokerTable (Row : Type) (key : Row → AccountId × String) where
  rows : List Row
  unique : (rows.map key).Nodup
  tickets : ∀ row ∈ rows, validTicket (key row).2 = true

namespace BrokerTable

variable {Row : Type} {key : Row → AccountId × String}

def empty : BrokerTable Row key := ⟨[], List.nodup_nil, List.forall_mem_nil _⟩

/-- `INSERT … ON CONFLICT (account_id, broker_ticket) DO UPDATE`, refused when the ticket is. -/
def upsert (table : BrokerTable Row key) (row : Row) : Except ApiError (BrokerTable Row key) :=
  if h : validTicket (key row).2 = true then
    .ok
      { rows := Table.upsert key table.rows row
        unique := Table.nodup_upsert table.unique
        tickets := by
          intro other hother
          rcases Table.mem_upsert.mp hother with rfl | ⟨hold, _⟩
          · exact h
          · exact table.tickets other hold }
  else .error internalError

end BrokerTable

/-- `execution_mt5_vm_history_orders`. -/
structure HistoryOrder where
  userId : OwnerId
  accountId : AccountId
  brokerTicket : String
  placedAt : Option Int
  doneAt : Option Int
  columns : String
  syncSequence : Int
  observedAt : Int

def HistoryOrder.key (row : HistoryOrder) : AccountId × String := (row.accountId, row.brokerTicket)

/-- `execution_mt5_vm_deals`. -/
structure Deal where
  userId : OwnerId
  accountId : AccountId
  brokerTicket : String
  occurredAt : Int
  columns : String
  syncSequence : Int
  observedAt : Int

def Deal.key (row : Deal) : AccountId × String := (row.accountId, row.brokerTicket)

/-- `execution_mt5_vm_history_coverage`. -/
structure Coverage where
  userId : OwnerId
  accountId : AccountId
  family : HistoryFamily
  requestedFrom : Int
  requestedTo : Int
  coveredThrough : Option Int
  lastResult : SnapshotResult
  lastErrorCode : Option String
  cursor : Option String
  workerId : WorkerId
  leaseGeneration : Nat
  workerSession : Nat
  syncSequence : Int
  observedAt : Int

/-- The primary key. -/
def Coverage.key (row : Coverage) : AccountId × HistoryFamily := (row.accountId, row.family)

structure HistoryStore where
  orders : BrokerTable HistoryOrder HistoryOrder.key
  deals : BrokerTable Deal Deal.key
  coverage : List Coverage

namespace HistoryStore

def empty : HistoryStore := ⟨.empty, .empty, []⟩

def coverage? (store : HistoryStore) (key : AccountId × HistoryFamily) : Option Coverage :=
  store.coverage.find? (·.key = key)

end HistoryStore

/-! ## Storing a submission -/

/-- The upserts of a payload, one after another. -/
def upsertAll {Row Observation : Type} {key : Row → AccountId × String} (refusal : Observation → Option ApiError)
    (row : Observation → Row) : List Observation → BrokerTable Row key → Except ApiError (BrokerTable Row key)
  | [], table => .ok table
  | observation :: rest, table => do
    match refusal observation with
    | some error => .error error
    | none => do
      let table ← table.upsert (row observation)
      upsertAll refusal row rest table

/-- `upsert_history_rows`. -/
def upsertHistoryRows (userId : OwnerId) (request : HistorySubmission) (store : HistoryStore) :
    Except ApiError HistoryStore :=
  match request.payload with
  | .ordersHistory orders => do
    let table ← upsertAll HistoryOrderObservation.refusal
      (fun order => ⟨userId, request.accountId, order.brokerTicket, order.placedAtMs.map toTimestamp,
        order.doneAtMs.map toTimestamp, order.columns, request.syncSequence, toTimestamp request.observedAtMs⟩)
      orders store.orders
    return { store with orders := table }
  | .deals deals => do
    let table ← upsertAll
      (fun deal => if deal.occurredAtMs ≤ 0 then some (invalidSnapshot "deal event time is invalid") else deal.refusal)
      (fun deal => ⟨userId, request.accountId, deal.brokerTicket, toTimestamp deal.occurredAtMs, deal.columns,
        request.syncSequence, toTimestamp request.observedAtMs⟩)
      deals store.deals
    return { store with deals := table }

/-- The row of a submission, as it is inserted. -/
def excludedCoverage (userId : OwnerId) (worker : Worker) (request : HistorySubmission) : Coverage :=
  { userId
    accountId := request.accountId
    family := request.family
    requestedFrom := toTimestamp request.fromMs
    requestedTo := toTimestamp request.toMs
    coveredThrough := request.coveredThroughMs.map toTimestamp
    lastResult := request.result
    lastErrorCode := request.errorCode
    cursor := request.cursor
    workerId := worker.workerId
    leaseGeneration := request.leaseGeneration
    workerSession := worker.sessionGeneration
    syncSequence := request.syncSequence
    observedAt := toTimestamp request.observedAtMs }

/-- The `CASE` of `covered_through`. -/
def mergedThrough (row excluded : Coverage) : Option Int :=
  if excluded.lastResult ≠ .complete then row.coveredThrough
  else match row.coveredThrough with
    | none => excluded.coveredThrough
    | some through =>
      if excluded.requestedFrom ≤ through then some (excluded.coveredThrough.elim through (max through)) else some through

/-- `ON CONFLICT (account_id, family) DO UPDATE`. -/
def mergedCoverage (row excluded : Coverage) : Coverage :=
  { excluded with
    requestedFrom := min row.requestedFrom excluded.requestedFrom
    requestedTo := max row.requestedTo excluded.requestedTo
    coveredThrough := mergedThrough row excluded }

/-- The checks of `execution_mt5_vm_history_coverage` on a row. -/
def Coverage.allowed (row : Coverage) : Bool :=
  row.requestedFrom < row.requestedTo
    && (row.coveredThrough.all fun through => row.requestedFrom ≤ through && through ≤ row.requestedTo)
    && row.cursor.all fun cursor => 1 ≤ cursor.length && cursor.length ≤ 256

/-- `record_history_coverage`. -/
def recordHistoryCoverage (userId : OwnerId) (worker : Worker) (request : HistorySubmission) (store : HistoryStore) :
    Except ApiError HistoryStore := do
  let excluded := excludedCoverage userId worker request
  let row := (store.coverage? excluded.key).elim excluded fun row => mergedCoverage row excluded
  refuseIf (!row.allowed) internalError
  return { store with coverage := Table.upsert Coverage.key store.coverage row }

/-- The account whose active lease the submission is made under. -/
def HistorySubmission.leased (request : HistorySubmission) (worker : Worker) (now : Millis) (account : Account) : Bool :=
  account.accountId = request.accountId && account.lease.any fun lease =>
    lease.valid now && lease.workerId = worker.workerId && lease.workerSession = worker.sessionGeneration
      && lease.generation = request.leaseGeneration

/-- `ingest_history`, in the world its transaction sees. -/
def ingestHistory (s : World) (envelope : Envelope) (request : HistorySubmission) (store : HistoryStore) :
    Except ApiError HistoryStore := do
  validateHistoryShape envelope request s.now
  validateSessionEnvelope envelope
  let worker ← authenticateWorker envelope s
  let account ← require (s.accounts.find? (request.leased worker s.now)) staleLease
  refuseIf ((store.coverage? (request.accountId, request.family)).any fun row => request.syncSequence ≤ row.syncSequence)
    (rejectionError "SYNC_REPLAYED_SEQUENCE")
  let store ← upsertHistoryRows account.connection.userId request store
  recordHistoryCoverage account.connection.userId worker request store

end MarketLens.Mt5Vm
