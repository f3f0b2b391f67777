import MarketLens.Lib.Truth
import MarketLens.Mt5Vm.Scheduler

/-!
# The owner's requests

Credentials reach the vault in three steps: the connection is reserved for a secret
reference, the secret is written, and the reservation is activated, or aborted when the
secret could not be written. An owner also reconnects, disconnects and removes accounts.
-/

namespace MarketLens.Mt5Vm

open Store Fallible

/-! ## Text checks -/

def isLowerHexDigit (c : Char) : Bool := isAsciiDigit c || ('a' ≤ c && c ≤ 'f')

def isHexDigit (c : Char) : Bool := isLowerHexDigit c || ('A' ≤ c && c ≤ 'F')

/-- `valid_secret_ref`. -/
def validSecretRef (value : String) : Bool :=
  let text := value.toList
  text.length = 36 && text.take 4 = "mt5-".toList && (text.drop 4).all isLowerHexDigit

/-- `valid_label`. -/
def validLabel (value : String) : Bool :=
  let value := trim value
  !value.isEmpty && value.utf8ByteSize ≤ 80 && !value.toList.any isControl

/-- `valid_suffix`. -/
def validSuffix (value : String) : Bool :=
  value = "****" || (value.toList.length = 4 && value.toList.all isAsciiDigit)

def hexDigit (c : Char) : Nat :=
  if isAsciiDigit c then c.toNat - 48 else if 'a' ≤ c then c.toNat - 87 else c.toNat - 55

def hexBytes : List Char → List Nat
  | high :: low :: rest => (16 * hexDigit high + hexDigit low) :: hexBytes rest
  | _ => []

/-- `decode_identity_fingerprint`. -/
def decodeIdentityFingerprint (value : String) : Option Fingerprint :=
  if value.toList.length = 64 && value.toList.all isHexDigit then some (hexBytes value.toList) else none

/-! ## Requests and answers -/

/-- `ReserveRequest`, and `ActivateRequest`. The persistence is one of the two there are. -/
structure ReserveRequest where
  ownerId : OwnerId
  accountId : AccountId
  label : String
  server : String
  maskedLoginSuffix : String
  identityFingerprint : String
  serverFingerprint : String
  persistence : Persistence
  secretRef : String
  expectedRevision : Nat

/-- `AbortRequest`. -/
structure AbortRequest where
  ownerId : OwnerId
  accountId : AccountId
  secretRef : String
  previousSecretRef : Option String
  expectedRevision : Nat
  created : Bool

/-- `RevisionRequest`. -/
structure RevisionRequest where
  ownerId : OwnerId
  accountId : AccountId
  expectedRevision : Nat

/-- `FinalizeDeleteRequest`. -/
structure FinalizeDeleteRequest where
  ownerId : OwnerId
  accountId : AccountId
  secretRef : Option String
  pendingSecretRef : Option String
  expectedRevision : Nat

/-- `AccountView`, as far as it is read off a request's effect. -/
structure AccountView where
  connectionStatus : ConnectionStatus
  connectionRevision : Nat
  secretRef : Option String
  previousSecretRef : Option String
  created : Bool
  ready : Bool

def accountNotFound : ApiError := ⟨.notFound, "MT5_VM_ACCOUNT_NOT_FOUND", "MT5 VM account was not found"⟩

def revisionConflict (message : String) : ApiError := ⟨.conflict, "MT5_VM_ACCOUNT_REVISION_CONFLICT", message⟩

/-- `validate_reserve`. The fingerprints are decoded once they are known to be well formed. -/
def validateReserve (request : ReserveRequest) : Except ApiError (Fingerprint × Fingerprint) := do
  let invalid : ApiError := ⟨.badRequest, "MT5_VM_CONNECTION_INVALID", "MT5 connection metadata is invalid"⟩
  refuseIf (!validIdentifier request.accountId 96 || !validLabel request.label || !request.server.isEmpty
      || !validSuffix request.maskedLoginSuffix || !validSecretRef request.secretRef) invalid
  let identity ← require (decodeIdentityFingerprint request.identityFingerprint) invalid
  let server ← require (decodeIdentityFingerprint request.serverFingerprint) invalid
  return (identity, server)

/-- `lock_identity_and_reject_conflict`. -/
def rejectIdentityConflict (identity : Fingerprint) (accountId : AccountId) (s : World) : Except ApiError Unit :=
  refuseIf (s.accounts.any fun account =>
      account.accountId ≠ accountId && account.connection.status.live
        && account.connection.currentIdentity = some identity)
    ⟨.conflict, "MT5_VM_IDENTITY_CONFLICT", "MT5 account already has an active managed connection"⟩

/-! ## Reserving -/

inductive ReservationRetryDecision where
  | active
  | waitForOwner
  | recoverPending
  | claimFresh
deriving DecidableEq

/-- `reservation_retry_decision`. -/
def reservationRetryDecision (hasActiveSecret hasPendingSecret pendingIsFresh : Bool) : ReservationRetryDecision :=
  if hasPendingSecret then (if pendingIsFresh then .waitForOwner else .recoverPending)
  else if hasActiveSecret then .active
  else .claimFresh

/-- A reservation is fresh for thirty seconds. -/
def Reservation.fresh (reservation : Reservation) (now : Millis) : Bool := now < reservation.reservedAt + 30000

/-- The registry entry of an account whose credentials are on their way. -/
def Registry.connecting (entry : Registry) : Registry := { entry with status := .connecting, tradeAllowed := false }

/-- A new account, blocked until its credentials are there. -/
def Account.create (request : ReserveRequest) (identity server : Fingerprint) (now : Millis) : Account :=
  { connection :=
      { userId := request.ownerId, accountId := request.accountId
        maskedLoginSuffix := some request.maskedLoginSuffix, persistence := request.persistence
        status := .blocked, revision := 1, workerId := none, leaseGeneration := 0
        requiredProtocolVersion := 1, requiredRuntimeVersion := none
        identity := some identity, server := some server
        reservation := some ⟨request.secretRef, now, identity, server⟩
        removalRequestedAt := none, disconnectRequestedRevision := none }
    freshness := ⟨none, none, none⟩
    registry := ⟨trim request.label, .connecting, false, none, none⟩
    lease := none, commands := [], tokens := [], sessions := []
    syncStates := .fill .seed, accountState := none, rows := .fill [] }

/-- Take over a reservation its owner left: it is fresh again, and the account is blocked. -/
def Connection.recoverReservation (now : Millis) (row : Connection) : Connection :=
  { row with
    reservation := row.reservation.map ({ · with reservedAt := now })
    revision := row.revision + 1, status := .blocked }

section
variable (secretRef : String) (identity server : Fingerprint) (now : Millis) (row : Connection)

/-- Reserve an account that has no credentials. -/
def Connection.claimReservation : Connection :=
  { row with reservation := some ⟨secretRef, now, identity, server⟩, revision := row.revision + 1, status := .blocked }

/-- Reserve the account for other credentials. Its status stays what it was. -/
def Connection.replaceReservation : Connection :=
  { row with reservation := some ⟨secretRef, now, identity, server⟩, revision := row.revision + 1 }

end

def workerFence : ApiError := revisionConflict "MT5 account changed or is still bound to a worker"

/-- `reserve_account`, of a request made before: the same request again, or its owner gave up. -/
def reserveAgain (request : ReserveRequest) (identity server : Fingerprint) (account : Account) (s : World) :
    Except ApiError (World × AccountView) := do
  let row := account.connection
  refuseIf (row.currentIdentity ≠ some identity || row.currentServer ≠ some server
      || row.maskedLoginSuffix ≠ some request.maskedLoginSuffix || row.persistence ≠ request.persistence)
    ⟨.conflict, "MT5_VM_REQUEST_ID_CONFLICT",
      "MT5 request id was already used for different connection metadata"⟩
  let decision := reservationRetryDecision account.registry.secretRef.isSome row.reservation.isSome
    (row.reservation.any (·.fresh s.now))
  refuseIf (row.workerId.isSome && decision ≠ .active) workerFence
  match decision with
  | .active | .waitForOwner => return (s, ⟨row.status, row.revision, none, none, false, true⟩)
  | .recoverPending =>
    let s ← s.commitAccount request.accountId fun account =>
      (account.connect (·.recoverReservation s.now)).register Registry.connecting
    return (s, ⟨.blocked, row.revision + 1, row.reservation.map Reservation.secretRef, account.registry.secretRef,
      false, false⟩)
  | .claimFresh =>
    let s ← s.commitAccount request.accountId fun account =>
      (account.connect (·.claimReservation request.secretRef identity server s.now)).register Registry.connecting
    return (s, ⟨.blocked, row.revision + 1, some request.secretRef, account.registry.secretRef, false, false⟩)

section
variable (settings : Settings) (adminToken : String)

/-- `reserve_account`. -/
def reserveAccount (request : ReserveRequest) (s : World) :
    Except ApiError (World × AccountView) := do
  requireAdmin settings adminToken
  let (identity, server) ← validateReserve request
  rejectIdentityConflict identity request.accountId s
  match s.accounts.find? (·.isOf request.ownerId request.accountId) with
  | some account =>
    if request.expectedRevision = 0 then reserveAgain request identity server account s
    else do
      refuseIf (account.connection.revision ≠ request.expectedRevision || account.connection.workerId.isSome
          || account.connection.reservation.isSome) workerFence
      let s ← s.commitAccount request.accountId
        (·.connect (·.replaceReservation request.secretRef identity server s.now))
      return (s, ⟨.blocked, request.expectedRevision + 1, none, account.registry.secretRef, false, false⟩)
  | none =>
    refuseIf (request.expectedRevision ≠ 0) (revisionConflict "MT5 account does not exist at the expected revision")
    -- the id is taken by another owner's account
    refuseIf (s.account? request.accountId).isSome internalError
    let s ← s.commit (s.accounts ++ [.create request identity server s.now])
    return (s, ⟨.blocked, 1, none, none, true, false⟩)

/-! ## Activating and aborting -/

/-- Queue the account with the credentials reserved for it. -/
def Connection.activate (request : ReserveRequest) (identity server : Fingerprint) (row : Connection) : Connection :=
  { row with
    maskedLoginSuffix := some request.maskedLoginSuffix, identity := some identity, server := some server
    persistence := request.persistence, status := .queued, revision := row.revision + 1, reservation := none
    removalRequestedAt := none, disconnectRequestedRevision := none }

/-- `activate_account`. -/
def activateAccount (request : ReserveRequest) (s : World) :
    Except ApiError (World × AccountView) := do
  requireAdmin settings adminToken
  let (identity, server) ← validateReserve request
  refuseIf (request.expectedRevision = 0)
    ⟨.badRequest, "MT5_VM_ACCOUNT_REVISION_INVALID", "expectedRevision is required"⟩
  rejectIdentityConflict identity request.accountId s
  let account ← require (s.accounts.find? (·.isOf request.ownerId request.accountId)) accountNotFound
  let row := account.connection
  refuseIf (row.revision ≠ request.expectedRevision || row.workerId.isSome
      || row.reservation.map Reservation.secretRef ≠ some request.secretRef
      || row.reservation.map Reservation.identity ≠ some identity
      || row.reservation.map Reservation.server ≠ some server)
    (revisionConflict "MT5 credential reservation is no longer current")
  let s ← s.commitAccount request.accountId fun account =>
    (account.connect (·.activate request identity server)).register fun entry =>
      { entry with
        label := trim request.label, secretRef := some request.secretRef, status := .connecting
        tradeAllowed := false }
  return (s, ⟨.queued, row.revision + 1, none, none, false, false⟩)

/-- Give the reservation up. -/
def Connection.abort (row : Connection) : Connection := { row with reservation := none, revision := row.revision + 1 }

/-- `abort_account`. -/
def abortAccount (request : AbortRequest) (s : World) :
    Except ApiError World := do
  requireAdmin settings adminToken
  refuseIf (!validIdentifier request.accountId 96 || !validSecretRef request.secretRef
      || request.expectedRevision = 0 || (request.previousSecretRef.any fun value => !validSecretRef value))
    ⟨.badRequest, "MT5_VM_ABORT_INVALID", "MT5 credential reservation compensation is invalid"⟩
  let account ← require (s.accounts.find? (·.isOf request.ownerId request.accountId)) accountNotFound
  refuseIf (account.connection.reservation.map Reservation.secretRef ≠ some request.secretRef
      || account.connection.revision ≠ request.expectedRevision
      || account.registry.secretRef ≠ request.previousSecretRef)
    ⟨.conflict, "MT5_VM_ABORT_CONFLICT", "MT5 credential reservation changed before compensation"⟩
  if request.created then
    s.commit (s.accounts.filter fun account => account.accountId ≠ request.accountId)
  else s.commitAccount request.accountId (·.connect Connection.abort)

/-! ## Reconnecting -/

section
variable (request : RevisionRequest)

/-- `validate_revision_request`. -/
def validateRevisionRequest : Except ApiError Unit :=
  refuseIf (!validIdentifier request.accountId 96 || request.expectedRevision = 0)
    ⟨.badRequest, "MT5_VM_ACCOUNT_REVISION_INVALID", "accountId or expectedRevision is invalid"⟩

/-- Queue the account again. -/
def Connection.reconnect (row : Connection) : Connection :=
  { row with
    status := .reconnecting, revision := row.revision + 1
    removalRequestedAt := none, disconnectRequestedRevision := none }

def ConnectionStatus.connected : ConnectionStatus → Bool
  | .queued | .provisioning | .synchronizing | .ready | .reconnecting | .unsupported => true
  | _ => false

/-- `reconnect_account`. -/
def reconnectAccount (s : World) :
    Except ApiError (World × AccountView) := do
  requireAdmin settings adminToken
  validateRevisionRequest request
  let account ← require (s.accounts.find? (·.isOf request.ownerId request.accountId)) accountNotFound
  let row := account.connection
  refuseIf (row.revision ≠ request.expectedRevision || row.workerId.isSome || row.reservation.isSome
      || row.persistence ≠ .managed || account.registry.secretRef.isNone || row.status.connected)
    ⟨.conflict, "MT5_VM_RECONNECT_CONFLICT", "MT5 account cannot reconnect from its current state"⟩
  let identity ← require row.identity
    ⟨.conflict, "MT5_VM_IDENTITY_REQUIRED", "MT5 account credentials must be supplied again"⟩
  rejectIdentityConflict identity request.accountId s
  let s ← s.commitAccount request.accountId fun account =>
    (account.connect Connection.reconnect).register Registry.connecting
  return (s, ⟨.reconnecting, row.revision + 1, none, none, false, false⟩)

/-! ## Disconnecting -/

/-- The stop command of the account's lease, when a live worker session still holds it. -/
def Account.stopCommand? (s : World) (account : Account) : Option ControlCommand := do
  let lease ← account.lease
  let worker ← s.worker? lease.workerId
  if lease.generation = account.connection.leaseGeneration && lease.valid s.now
      && worker.sessionGeneration = lease.workerSession && s.now < worker.heartbeatExpiresAt then
    some (.queued s.nextId lease worker.protocolVersion
      (stopKey account.accountId account.connection.leaseGeneration) .stopAccount .empty (s.now + commandTtl))
  else none

def Account.queueStop (command : Option ControlCommand) (taken : Bool) (account : Account) : Account :=
  match command with
  | none => account
  | some command => account.queueUnless taken command

/-- `v_first_request`: no disconnect is recorded, and the revision is the expected one. -/
def Connection.firstDisconnect (expectedRevision : Int) (row : Connection) : Bool :=
  row.disconnectRequestedRevision.isNone && row.revision = expectedRevision

/-- The guard of `execution_fence_mt5_managed_disconnect`, `NOT v_first_request AND NOT (v_disconnect_revision =
p_expected_revision AND v_current_revision = p_expected_revision + 1)`. -/
def Connection.disconnectGuard (expectedRevision : Int) (row : Connection) : Truth :=
  .and (.not (some (row.firstDisconnect expectedRevision)))
    (.not (.and (.eq (row.disconnectRequestedRevision.map Int.ofNat) expectedRevision)
      (some (row.revision = expectedRevision + 1))))

def Connection.fenceDisconnect (expectedRevision : Nat) (firstRequest : Bool) (row : Connection) : Connection :=
  { row with
    status := if row.workerId.isSome then .degraded else .disconnected
    revision := if firstRequest then row.revision + 1 else row.revision
    disconnectRequestedRevision := row.disconnectRequestedRevision.or (some expectedRevision) }

/-- The rows a disconnect writes: sessions, tokens and commands are given up with the connection. -/
def Account.fenceDisconnect (expectedRevision : Nat) (firstRequest : Bool) (stop : Option ControlCommand)
    (taken : Bool) (now : Millis) (account : Account) : Account :=
  let account := if account.connection.workerId.isSome then account.queueStop stop taken else account
  let account := account.updateSessions (fun _ => true) ({ · with revoked := true })
  let account := account.updateTokens (fun _ => true) ({ · with consumed := true })
  let account := account.updateCommands
    (fun command => command.kind ≠ CommandKind.stopAccount && command.status.pending)
    (·.concluded .fenced "ACCOUNT_DISCONNECTED" now)
  let account := account.register ({ · with status := .offline, tradeAllowed := false })
  account.connect (·.fenceDisconnect expectedRevision firstRequest)

/-- `disconnect_account`, with `execution_fence_mt5_managed_disconnect`. -/
def disconnectAccount (s : World) :
    Except ApiError (World × AccountView) := do
  requireAdmin settings adminToken
  validateRevisionRequest request
  let account ← require (s.accounts.find? (·.isOf request.ownerId request.accountId)) accountNotFound
  let row := account.connection
  let firstRequest := row.firstDisconnect request.expectedRevision
  refuseIf (row.disconnectGuard request.expectedRevision = some true) (revisionConflict "MT5 account revision changed")
  let stop := account.stopCommand? s
  let taken := s.keyTaken (stopKey request.accountId row.leaseGeneration)
  let s ← s.commitAccount request.accountId
    (·.fenceDisconnect request.expectedRevision firstRequest stop taken s.now)
  return ({ s with nextId := s.nextId + 1 },
    ⟨if row.workerId.isSome then .degraded else .disconnected,
      if firstRequest then row.revision + 1 else row.revision, none, none, false, false⟩)

/-! ## Removing -/

/-- The connection after a removal was asked for. -/
def Connection.prepareDelete (stopping : Bool) (now : Millis) (row : Connection) : Connection :=
  { row with
    removalRequestedAt := row.removalRequestedAt.or (some now)
    status := if stopping then .degraded else .disconnected
    revision := row.revision + 1
    workerId := if stopping then row.workerId else none }

/-- `prepare_delete_account`, with `queue_stop_if_active`: the account keeps its worker while a
stop command of its lease generation is there, whatever became of that command. -/
def prepareDeleteAccount (s : World) :
    Except ApiError (World × AccountView) := do
  requireAdmin settings adminToken
  validateRevisionRequest request
  let account ← require (s.accounts.find? (·.isOf request.ownerId request.accountId)) accountNotFound
  let row := account.connection
  refuseIf (row.revision ≠ request.expectedRevision) (revisionConflict "MT5 account revision changed")
  let stop := account.stopCommand? s
  let taken := s.keyTaken (stopKey request.accountId row.leaseGeneration)
  let stopping := row.workerId.isSome && (stop.isSome || taken)
  let s ← s.commitAccount request.accountId fun account =>
    let account := if row.workerId.isSome then account.queueStop stop taken else account
    account.connect (·.prepareDelete stopping s.now)
  return ({ s with nextId := s.nextId + 1 },
    ⟨if stopping then .degraded else .disconnected, row.revision + 1, none, none, false, !stopping⟩)

end

/-- `finalize_delete_account`. -/
def finalizeDeleteAccount (request : FinalizeDeleteRequest) (s : World) :
    Except ApiError World := do
  requireAdmin settings adminToken
  refuseIf (!validIdentifier request.accountId 96 || request.expectedRevision = 0
      || (request.secretRef.any fun value => !validSecretRef value)
      || (request.pendingSecretRef.any fun value => !validSecretRef value))
    ⟨.badRequest, "MT5_VM_REMOVE_INVALID", "MT5 account removal request is invalid"⟩
  let removable (account : Account) : Bool :=
    account.isOf request.ownerId request.accountId && account.connection.revision = request.expectedRevision
      && account.connection.workerId.isNone && account.connection.removalRequestedAt.isSome
      && account.registry.secretRef = request.secretRef
      && account.connection.reservation.map Reservation.secretRef = request.pendingSecretRef
  refuseIf (!s.accounts.any removable)
    ⟨.conflict, "MT5_VM_REMOVE_CONFLICT", "MT5 account is not ready for final removal"⟩
  s.commit (s.accounts.filter fun account => !removable account)

end

end MarketLens.Mt5Vm
