import MarketLens.Mt5Vm.Snapshots
import MarketLens.Commands.Queue

/-!
# The EA of a managed terminal

The EA a worker starts pairs with the bootstrap token it was given and gets a session of
the account's assignment. Its later requests authenticate the session, and then poll for
commands, refresh the account's registry entry and knock at the readiness gate, each in a
transaction of its own.
-/

namespace MarketLens.Mt5Vm

open Store Fallible

/-- `EaSessionRequest`. -/
structure EaSessionRequest where
  pairingToken : Nat
  agentId : String
  runtime : Option RuntimeBinding
  account : EaAccountSnapshot

/-- `validate_session_request`. -/
def validateSessionRequest (settings : Settings) (request : EaSessionRequest) : Except ApiError Unit := do
  validatePlainText "agentId" request.agentId 1 200
  match request.runtime with
  | none => pure ()
  | some binding =>
    validateIdentifier "slotId" binding.slotId 64
    refuseIf (binding.terminalPid = 0 || !settings.validOrigin binding.gatewayOrigin)
      ⟨.badRequest, "MANAGED_EA_RUNTIME_BINDING_INVALID", "managed EA runtime binding is invalid"⟩
  validateAccountSnapshot request.account

/-- The token an EA pairs with: not consumed, not run out, and bound to the EA's own process. -/
def EaSessionRequest.pairs (request : EaSessionRequest) (now : Millis) (token : PairingToken) : Bool :=
  token.token = request.pairingToken && !token.consumed && now < token.expiresAt
    && token.runtime.isSome && token.runtime = request.runtime

/-- The account is still in the assignment and at the revision the token was issued for. -/
def PairingToken.assigned (token : PairingToken) (workers : List Worker) (now : Millis) (account : Account) : Bool :=
  let row := account.connection
  row.assignedTo token.workerId token.leaseGeneration && row.revision = token.connectionRevision
    && row.identity = some token.identity
    && (workers.any fun worker =>
      worker.workerId = token.workerId && worker.sessionGeneration = token.workerSession
        && worker.substrate = .bareMetal)
    && account.lease.any fun lease =>
      lease.workerId = token.workerId && lease.workerSession = token.workerSession
        && lease.generation = token.leaseGeneration && lease.valid now

def PairingToken.session (token : PairingToken) (runtime : RuntimeBinding) (id : Nat) (now : Millis) : ManagedSession :=
  { token := id, workerId := token.workerId, workerSession := token.workerSession
    leaseGeneration := token.leaseGeneration, connectionRevision := token.connectionRevision, runtime
    revoked := false, expiresAt := now + Commands.sessionTtl
    absoluteExpiresAt := now + Commands.sessionAbsoluteTtl, lastPollAt := none }

/-- The rows a pairing writes: the token is consumed and its session is the only one left. -/
def Account.pair (token : PairingToken) (runtime : RuntimeBinding) (tradeAllowed : Bool) (id : Nat) (now : Millis)
    (account : Account) : Account :=
  let account := account.updateTokens (·.token = token.token) ({ · with consumed := true })
  let account := account.register ({ · with status := .connecting, tradeAllowed, lastSeenAt := some now })
  let account := account.connect ({ · with status := .synchronizing })
  let account := account.updateSessions (fun _ => true) ({ · with revoked := true })
  { account with sessions := account.sessions ++ [token.session runtime id now] }

/-- `create_database_session`, of a managed account. -/
def createManagedSession (settings : Settings) (request : EaSessionRequest) (s : World) : Except ApiError World := do
  validateSessionRequest settings request
  let unauthorized : ApiError := ⟨.unauthorized, "UNAUTHORIZED", "EA pairing token is invalid or expired"⟩
  let account ← require (s.accounts.find? fun account => account.tokens.any (request.pairs s.now)) unauthorized
  let token ← require (account.tokens.find? (request.pairs s.now)) unauthorized
  let runtime ← require token.runtime unauthorized
  refuseIf (mt5IdentityFingerprint settings request.account.login request.account.server ≠ token.identity)
    ⟨.conflict, "MANAGED_EA_IDENTITY_MISMATCH",
      "managed EA terminal identity does not match the reserved account"⟩
  refuseIf (!token.assigned s.workers s.now account)
    ⟨.conflict, "MANAGED_EA_ASSIGNMENT_FENCED", "managed EA assignment is no longer active"⟩
  let s ← s.commitAccount account.accountId (·.pair token runtime request.account.tradeAllowed s.nextId s.now)
  return { s with nextId := s.nextId + 1 }

/-- The session is alive, and the assignment and revision it was paired for are the account's. -/
def ManagedSession.authenticates (session : ManagedSession) (token : Nat) (workers : List Worker) (now : Millis)
    (account : Account) : Bool :=
  session.token = token && account.registry.status ≠ .disabled
    && workers.any fun worker =>
      account.connection.workerId = some worker.workerId && session.current account.connection worker now
        && account.connection.disconnectRequestedRevision.isNone && worker.serving now
        && account.lease.any fun lease =>
          lease.workerId = worker.workerId && lease.workerSession = worker.sessionGeneration
            && lease.generation = account.connection.leaseGeneration && lease.valid now

/-- `authenticate`, of a managed session: it lasts another quarter of an hour. -/
def authenticateSession (token : Nat) (s : World) : Except ApiError World := do
  refuseIf (!s.accounts.any fun account => account.sessions.any (·.authenticates token s.workers s.now account))
    ⟨.unauthorized, "UNAUTHORIZED", "EA session is invalid or expired"⟩
  return { s with
    accounts := s.accounts.map fun account =>
      account.updateSessions (·.authenticates token s.workers s.now account)
        (fun session => { session with expiresAt := min session.absoluteExpiresAt (s.now + Commands.sessionTtl) }) }

/-- The liveness a command poll records in its session. -/
def recordEaPoll (token : Nat) (s : World) : Except ApiError World := do
  let polls (session : ManagedSession) : Bool := session.token = token && !session.revoked
  refuseIf (!s.accounts.any fun account => account.sessions.any polls)
    ⟨.unauthorized, "UNAUTHORIZED", "EA session was revoked during command polling"⟩
  return { s with
    accounts := s.accounts.map (·.updateSessions polls ({ · with lastPollAt := some s.now })) }

section
variable (ownerId : OwnerId) (accountId : AccountId)

/-- `touch_account`. -/
def touchAccount (tradeAllowed : Bool) (s : World) :
    Except ApiError World := do
  let touched (account : Account) : Bool := account.isOf ownerId accountId && account.registry.status ≠ .disabled
  refuseIf (!s.accounts.any touched)
    ⟨.forbidden, "ACCOUNT_SESSION_MISMATCH", "EA account is not owned by this session"⟩
  return { s with
    accounts := Table.updateWhere touched
      (·.register ({ · with tradeAllowed, lastSeenAt := some s.now })) s.accounts }

/-- `advance_managed_ea_readiness_after_event`. -/
def advanceAfterEvent (s : World) : Except ApiError World :=
  s.commit (Table.updateWhere (·.isOf ownerId accountId) (·.advanceReadiness s.workers s.now) s.accounts)

/-- The rows of a managed account that `manage_account` writes: its sessions are revoked, or
deleted with what the account is removed from. -/
def Account.manage (remove : Bool) (account : Account) : Account :=
  let account := account.updateSessions (fun _ => true) ({ · with revoked := true })
  let account := if remove then { account with sessions := [] } else account
  account.register fun entry => { entry with
    status := if remove then .disabled else .offline
    tradeAllowed := if remove then false else entry.tradeAllowed
    lastSeenAt := if remove then none else entry.lastSeenAt }

/-- `manage_account`, of an account no copier group keeps from being removed. -/
def manageAccount (remove : Bool) (s : World) : Except ApiError World := do
  let managed (account : Account) : Bool := account.isOf ownerId accountId && account.registry.status ≠ .disabled
  refuseIf (!s.accounts.any managed)
    ⟨.notFound, "TARGET_ACCOUNT_NOT_FOUND", "target account was not found for this owner"⟩
  return { s with accounts := Table.updateWhere managed (·.manage remove) s.accounts }

end

end MarketLens.Mt5Vm
