import MarketLens.Mt5Vm.Connections
import MarketLens.Domain.Ea

/-!
# Snapshots and readiness

A worker reports an account in four families. A report of the account itself carries the
broker identity the terminal is logged in to, which must be the registered one. Two gates
carry an account to `ready` once all four families are complete under its current lease:
one for Windows machines, taken on every complete report, and one for bare metal, taken
on every complete report and on every EA event.
-/

namespace MarketLens.Mt5Vm

open Store Fallible

/-! ## Submissions -/

/-- `AccountObservation`, as far as it is checked for identity or read by a gate. Whether the
money columns parse and pass the checks of their table is one bit. -/
structure AccountObservation where
  tradeAllowed : Bool
  observedServer : String
  observedLoginSuffix : Option String
  wellFormed : Bool

/-- A position, pending order or instrument: its key, its other columns, and whether they parse
and pass the checks of their table. -/
structure RowObservation where
  key : String
  columns : String
  wellFormed : Bool

/-- `SnapshotPayload`. -/
inductive SnapshotPayload where
  | account (account : Option AccountObservation)
  | positions (positions : List RowObservation)
  | pendingOrders (pendingOrders : List RowObservation)
  | instruments (instruments : List RowObservation)

namespace SnapshotPayload

def family : SnapshotPayload → SnapshotFamily
  | .account _ => .account
  | .positions _ => .positions
  | .pendingOrders _ => .pendingOrders
  | .instruments _ => .instruments

def observation : SnapshotPayload → Option AccountObservation
  | .account observed => observed
  | _ => none

/-- The rows as they are bound: an instrument is stored under its symbol without the blanks
around it. -/
def rows : SnapshotPayload → List RowObservation
  | .account _ => []
  | .positions rows | .pendingOrders rows => rows
  | .instruments rows => rows.map fun row => { row with key := trim row.key }

end SnapshotPayload

/-- `SnapshotSubmission`. -/
structure SnapshotSubmission where
  accountId : AccountId
  leaseGeneration : Nat
  syncSequence : Int
  observedAtMs : Int
  family : SnapshotFamily
  result : SnapshotResult
  errorCode : Option String
  payload : SnapshotPayload

def invalidSnapshot (message : String) : ApiError := ⟨.badRequest, "MT5_VM_SNAPSHOT_INVALID", message⟩

/-- `rejection_error`. -/
def rejectionError (code : String) : ApiError := ⟨.conflict, code, "MT5 VM snapshot was fenced"⟩

def staleLease : ApiError := rejectionError "SYNC_STALE_LEASE"

/-- `validate_snapshot_shape`. -/
def validateSnapshotShape (envelope : Envelope) (request : SnapshotSubmission) (now : Millis) : Except ApiError Unit := do
  refuseIf (envelope.protocolVersion = 0 || envelope.sessionGeneration = 0 || request.leaseGeneration = 0
      || request.syncSequence ≤ 0 || request.observedAtMs ≤ 0
      || (trim envelope.workerId).isEmpty || envelope.workerId.utf8ByteSize > 64
      || (trim request.accountId).isEmpty || request.accountId.utf8ByteSize > 96
      || (request.errorCode.any fun code => !validErrorCode code))
    (invalidSnapshot "snapshot envelope is invalid")
  refuseIf (request.observedAtMs > (now : Int) + 30000) (invalidSnapshot "snapshot observation time is in the future")
  refuseIf ((request.payload.observation.toList.length + request.payload.rows.length) > 4096)
    (invalidSnapshot "snapshot row limit exceeded")
  refuseIf (request.payload.family ≠ request.family) (invalidSnapshot "snapshot family does not match payload")
  refuseIf (request.result = .complete && request.errorCode.isSome)
    (invalidSnapshot "complete snapshot cannot carry an error")

section
variable (request : SnapshotSubmission)

/-- `fence_snapshot`, under a lease whose holder the envelope was matched against. -/
def fenceSnapshot (stored : SyncState) : Except ApiError Unit :=
  refuseIf (request.syncSequence ≤ stored.syncSequence) (rejectionError "SYNC_REPLAYED_SEQUENCE")

/-! ## Broker identity -/

/-- ASCII letters in lower case. -/
def asciiLower (value : String) : String :=
  String.ofList (value.toList.map fun c => if 'A' ≤ c && c ≤ 'Z' then Char.ofNat (c.toNat + 32) else c)

/-- `mt5_server_fingerprint`. -/
def mt5ServerFingerprint (settings : Settings) (server : String) : Fingerprint :=
  settings.mac ("server\x00" ++ asciiLower (trim server))

/-- `mt5_identity_fingerprint`. -/
def mt5IdentityFingerprint (settings : Settings) (login server : String) : Fingerprint :=
  settings.mac (asciiLower (trim server) ++ "\x00" ++ trim login)

/-- `fingerprint_identity_matches`. -/
def fingerprintIdentityMatches (settings : Settings) (registeredServer : Option Fingerprint)
    (registeredSuffix : Option String) (account : AccountObservation) : Bool :=
  registeredServer = some (mt5ServerFingerprint settings account.observedServer)
    && registeredSuffix.all fun expected =>
      account.observedLoginSuffix.any fun observed => trim observed = trim expected

/-! ## What a submission writes -/

/-- `record_sync_result`. -/
def SyncState.record (worker : Worker) (errorCode : Option String)
    (state : SyncState) : SyncState :=
  { syncSequence := request.syncSequence
    lastResult := request.result
    lastErrorCode := errorCode
    observedAt := some request.observedAtMs
    lastCompleteSyncAt := if request.result = .complete then some request.observedAtMs else state.lastCompleteSyncAt
    workerId := some worker.workerId
    leaseGeneration := request.leaseGeneration
    workerSession := worker.sessionGeneration }

def Account.recordSync (worker : Worker) (errorCode : Option String)
    (account : Account) : Account :=
  { account with
    syncStates := account.syncStates.set request.family
      ((account.syncStates.get request.family).record request worker errorCode) }

/-- Insert or update a row by its key. -/
def upsertRow (sequence : Int) (rows : List FamilyRow) (row : RowObservation) : List FamilyRow :=
  if rows.any (·.key = row.key) then
    Table.updateWhere (·.key = row.key) (fun _ => ⟨row.key, row.columns, sequence⟩) rows
  else rows ++ [⟨row.key, row.columns, sequence⟩]

/-- `upsert_snapshot_rows` and, of a complete report, `delete_absent_rows`. -/
def Account.storeRows (worker : Worker) (account : Account) : Account :=
  match request.payload with
  | .account none => account
  | .account (some observed) =>
    { account with
      accountState := some ⟨observed.tradeAllowed, observed.observedLoginSuffix, worker.workerId,
        request.leaseGeneration, worker.sessionGeneration, request.syncSequence⟩ }
  | payload =>
    let rows := payload.rows.foldl (upsertRow request.syncSequence) (account.rows.get request.family)
    { account with
      rows := account.rows.set request.family
        (if request.result.isAuthoritative then rows.filter (·.syncSequence = request.syncSequence) else rows) }

/-- The state was recorded complete under the assignment. -/
def SyncState.completeUnder (workerId : WorkerId) (leaseGeneration workerSession : Nat) (state : SyncState) : Bool :=
  state.lastResult = .complete && state.workerId = some workerId && state.leaseGeneration = leaseGeneration
    && state.workerSession = workerSession

/-- The older of the two portfolio families, when both are complete under the assignment. -/
def Account.portfolioAnchor (leaseGeneration : Nat) (worker : Worker) (account : Account) : Option Millis :=
  let positions := account.syncStates.positions
  let pendingOrders := account.syncStates.pendingOrders
  if positions.completeUnder worker.workerId leaseGeneration worker.sessionGeneration
      && pendingOrders.completeUnder worker.workerId leaseGeneration worker.sessionGeneration then
    Option.map₂ (fun a b => (min a b).toNat) positions.lastCompleteSyncAt pendingOrders.lastCompleteSyncAt
  else none

def Account.freshnessAfter (worker : Worker) (account : Account) : Freshness :=
  match request.family with
  | .positions | .pendingOrders =>
    { account.freshness with lastPortfolioSyncAt := account.portfolioAnchor request.leaseGeneration worker }
  | .account =>
    if request.result.isAuthoritative then
      { account.freshness with lastAccountSyncAt := some request.observedAtMs.toNat }
    else account.freshness
  | .instruments =>
    if request.result.isAuthoritative then
      { account.freshness with lastInstrumentSyncAt := some request.observedAtMs.toNat }
    else account.freshness

/-- `update_freshness_anchor`. -/
def Account.updateFreshness (worker : Worker) (account : Account) : Account :=
  if account.connection.workerId = some worker.workerId
      && account.connection.leaseGeneration = request.leaseGeneration then
    { account with freshness := account.freshnessAfter request worker }
  else account

/-! ## The gates -/

/-- All four families are complete under the assignment. -/
def Account.familiesComplete (workerId : WorkerId) (leaseGeneration workerSession : Nat) (account : Account) : Bool :=
  let complete (state : SyncState) : Bool := state.completeUnder workerId leaseGeneration workerSession
  complete account.syncStates.account && complete account.syncStates.positions
    && complete account.syncStates.pendingOrders && complete account.syncStates.instruments

/-- The gate of `update_readiness` on Windows machines. -/
def Account.readyOnWindows (worker : Worker) (now : Millis) (account : Account) : Bool :=
  account.connection.assignedTo worker.workerId request.leaseGeneration
    && worker.substrate ≠ .bareMetal && worker.serving now
    && (account.accountState.any fun state =>
      state.leaseGeneration = account.connection.leaseGeneration && state.workerSession = worker.sessionGeneration)
    && account.familiesComplete worker.workerId request.leaseGeneration worker.sessionGeneration

/-- The statuses `execution_advance_mt5_managed_readiness` starts from. -/
def ConnectionStatus.advancing : ConnectionStatus → Bool
  | .queued | .provisioning | .synchronizing | .degraded | .reconnecting | .ready => true
  | _ => false

/-- The session is of the account's assignment and revision, and alive. -/
def ManagedSession.current (session : ManagedSession) (row : Connection) (worker : Worker) (now : Millis) : Bool :=
  session.workerId = worker.workerId && session.workerSession = worker.sessionGeneration
    && session.leaseGeneration = row.leaseGeneration && session.connectionRevision = row.revision
    && !session.revoked && now < session.expiresAt && now < session.absoluteExpiresAt

/-- `EA_POLL_FRESHNESS`. -/
def eaPollFreshness : Millis := 15000

/-- The gate of `execution_advance_mt5_managed_readiness`. -/
def Account.readyOnBareMetal (worker : Worker) (now : Millis) (account : Account) : Bool :=
  let row := account.connection
  row.workerId = some worker.workerId && row.status.advancing && row.identity.isSome && row.server.isSome
    && row.disconnectRequestedRevision.isNone
    && account.registry.status ≠ .disabled && account.registry.tradeAllowed
    && (account.registry.lastSeenAt.any fun seen => now < seen + 60000)
    && worker.substrate = .bareMetal && worker.serving now
    && (account.lease.any fun lease =>
      lease.workerId = worker.workerId && lease.workerSession = worker.sessionGeneration
        && lease.generation = row.leaseGeneration && lease.valid now)
    && (account.sessions.any fun session =>
      session.current row worker now && session.lastPollAt.any fun at_ => now < at_ + eaPollFreshness)
    && (account.accountState.any fun state =>
      state.workerId = worker.workerId && state.leaseGeneration = row.leaseGeneration
        && state.workerSession = worker.sessionGeneration && state.tradeAllowed
        && state.observedLoginSuffix = row.maskedLoginSuffix)
    && account.familiesComplete worker.workerId row.leaseGeneration worker.sessionGeneration

/-- `connection_status = 'ready'`, with its revision. -/
def Connection.becomeReady (row : Connection) : Connection :=
  { row with status := .ready, revision := row.revision + 1 }

/-- `execution_advance_mt5_managed_readiness`. The sessions of the assignment move with the
revision. -/
def Account.advanceReadiness (workers : List Worker) (now : Millis) (account : Account) : Account :=
  match workers.find? (fun worker => account.connection.workerId = some worker.workerId) with
  | none => account
  | some worker =>
    if account.readyOnBareMetal worker now then
      let account := account.register ({ · with status := .ready })
      if account.connection.status = .ready then account
      else
        (account.updateSessions
          (fun session => session.workerId = worker.workerId && session.workerSession = worker.sessionGeneration
            && session.leaseGeneration = account.connection.leaseGeneration
            && session.connectionRevision = account.connection.revision && !session.revoked)
          ({ · with connectionRevision := account.connection.revision + 1 })).connect Connection.becomeReady
    else account

/-- `update_readiness`. -/
def Account.updateReadiness (worker : Worker) (workers : List Worker) (now : Millis)
    (account : Account) : Account :=
  if request.result.isAuthoritative then
    let account :=
      if account.readyOnWindows request worker now then account.connect Connection.becomeReady else account
    account.advanceReadiness workers now
  else account

end

/-! ## ingest_snapshot -/

/-- What became of a submission that passed the fences. -/
inductive SnapshotOutcome where
  | accepted
  | identityMismatch
deriving DecidableEq

/-- The submission names the account's active lease. -/
def SnapshotSubmission.underLease (request : SnapshotSubmission) (worker : Worker) (now : Millis)
    (account : Account) : Bool :=
  account.accountId = request.accountId && account.lease.any fun lease =>
    lease.valid now && lease.workerId = worker.workerId && lease.workerSession = worker.sessionGeneration
      && lease.generation = request.leaseGeneration

/-- `ingest_snapshot`. A submission of another identity is recorded, and then answered with
`SYNC_IDENTITY_MISMATCH`. -/
def ingestSnapshot (settings : Settings) (envelope : Envelope) (request : SnapshotSubmission) (s : World) :
    Except ApiError (World × SnapshotOutcome) := do
  validateSnapshotShape envelope request s.now
  validateSessionEnvelope envelope
  let worker ← authenticateWorker envelope s
  let account ← require (s.accounts.find? (request.underLease worker s.now)) staleLease
  fenceSnapshot request (account.syncStates.get request.family)
  -- an account without a registered server cannot be compared at all
  refuseIf (request.payload.observation.isSome && account.connection.server.isNone) internalError
  let mismatch := request.payload.observation.any fun observed =>
    !fingerprintIdentityMatches settings account.connection.server account.connection.maskedLoginSuffix observed
  if mismatch then
    let s ← s.commitAccount request.accountId (·.recordSync request worker (some "SYNC_IDENTITY_MISMATCH"))
    return (s, .identityMismatch)
  else do
    refuseIf (!(request.payload.observation.all AccountObservation.wellFormed
        && request.payload.rows.all RowObservation.wellFormed))
      internalError
    let s ← s.commitAccount request.accountId fun account =>
      let account := account.storeRows request worker
      let account := account.recordSync request worker request.errorCode
      let account := account.updateFreshness request worker
      account.updateReadiness request worker s.workers s.now
    return (s, .accepted)

end MarketLens.Mt5Vm
