import MarketLens.Mt5Vm.Protocol

/-!
# What a transaction can do to an account

Every transaction changes each account by a chain of small changes. What a change does to
the connection and the lease is one of a dozen moves, each with the guard the statement
has; everything else an account keeps is either left alone or changed in one of four ways
that have a reason of their own. Invariants are proved move by move.
-/

namespace MarketLens.Mt5Vm

open Store Fallible

/-! ## Moves of the connection and the lease -/

/-- Why a bound account gets another status and `bump` more revisions. Whether the gate of bare
metal may be why is `gate`: it moves the sessions of the account too. -/
inductive Advance (s : World) (act : Action) (gate : Bool) (row : Connection) : ConnectionStatus → Nat → Prop where
  | degrade {envelope : Envelope} {request : AckRequest} {found : Account × Lease × ControlCommand}
      (hact : act = .ack envelope request) (haccount : request.accountId = row.accountId)
      (hack : request.ack = .failed) (hcommand : s.command? request.commandId = some found)
      (hopen : found.2.2.status.concludedByAck = false)
      (hassigned : row.assignedTo envelope.workerId request.leaseGeneration = true) : Advance s act gate row .degraded 1
  | provision {envelope : Envelope} {request : AckRequest} {found : Account × Lease × ControlCommand}
      (hact : act = .ack envelope request) (haccount : request.accountId = row.accountId)
      (hack : request.ack = .succeeded) (hcommand : s.command? request.commandId = some found)
      (hopen : found.2.2.status.concludedByAck = false) (hkind : found.2.2.kind = .provisionAccount)
      (hassigned : row.assignedTo envelope.workerId request.leaseGeneration = true) :
      Advance s act gate row .synchronizing 1
  | reconcile {envelope : Envelope} {request : AckRequest} {worker : Worker} (hact : act = .ack envelope request)
      (hworker : s.worker? envelope.workerId = some worker)
      (hassigned : row.assignedTo worker.workerId request.leaseGeneration = true) :
      Advance s act gate row .synchronizing (if worker.substrate = .bareMetal then 0 else 1)
  | pair {request : EaSessionRequest} {workerId : WorkerId} {leaseGeneration : Nat} (hact : act = .pairEa request)
      (hassigned : row.assignedTo workerId leaseGeneration = true) : Advance s act gate row .synchronizing 0
  | windows {envelope : Envelope} {request : SnapshotSubmission} {worker : Worker}
      (hact : act = .snapshot envelope request) (hworker : s.worker? envelope.workerId = some worker)
      (hsubstrate : worker.substrate ≠ .bareMetal)
      (hassigned : row.assignedTo worker.workerId request.leaseGeneration = true) : Advance s act gate row .ready 1
  | bareMetal {workerId : WorkerId} (hgate : gate = true) (hbound : row.workerId = some workerId)
      (hopen : row.disconnectRequestedRevision = none) : Advance s act gate row .ready 1

/-- A stop command would reach the session that holds the lease. -/
def stoppable (s : World) (row : Connection) (lease : Option Lease) : Bool :=
  lease.any fun lease => (s.worker? lease.workerId).any fun worker =>
    lease.generation = row.leaseGeneration && lease.valid s.now
      && worker.sessionGeneration = lease.workerSession && s.now < worker.heartbeatExpiresAt

/-- A removal of the account leaves it bound. -/
def stopsFirst (s : World) (row : Connection) (lease : Option Lease) : Bool :=
  row.workerId.isSome && (stoppable s row lease || s.keyTaken (stopKey row.accountId row.leaseGeneration))

/-- What one statement can do to a connection and the account's lease. -/
inductive Move (s : World) (act : Action) (gate : Bool) (row : Connection) (lease : Option Lease) :
    Connection → Option Lease → Prop where
  | keep : Move s act gate row lease row lease
  | renew {held : Lease} (expiresAt : Millis) (hlease : lease = some held) :
      Move s act gate row lease row (some { held with expiresAt })
  | fence {request : WorkerHelloRequest} (hact : act = .hello request) :
      Move s act gate row lease
        (if row.workerId = some request.workerId && row.disconnectRequestedRevision.isNone then row.requeue else row)
        (lease.map (Lease.expireOf request.workerId))
  | lapse {held : Lease} (hact : act = .sweep) (hlease : lease = some held)
      (hlapsed : held.lapsed (s.workers.map (·.expire s.now)) s.now = true) :
      Move s act gate row lease
        (if row.leaseGeneration = held.generation && row.disconnectRequestedRevision.isNone then row.requeue else row)
        (some { held with status := .expired })
  | place {worker : Worker} (hact : act = .place row.accountId worker.workerId) (hwaiting : row.waiting = true)
      (hworker : worker ∈ s.workers) (haccepts : worker.accepts row s = true) :
      Move s act gate row lease
        { row with
          status := .provisioning, workerId := some worker.workerId
          leaseGeneration := (lease.map Lease.generation).getD 0 + 1, revision := row.revision + 1 }
        (some ⟨worker.workerId, worker.sessionGeneration, (lease.map Lease.generation).getD 0 + 1, .active,
          s.now + leaseTtl⟩)
  | advance {status : ConnectionStatus} {bump : Nat} {held : Lease} (hadvance : Advance s act gate row status bump)
      (hlease : lease = some held) (hvalid : held.valid s.now = true) :
      Move s act gate row lease { row with status, revision := row.revision + bump } lease
  | stop {envelope : Envelope} {request : AckRequest} {held : Lease} {found : Account × Lease × ControlCommand}
      (hact : act = .ack envelope request) (haccount : request.accountId = row.accountId)
      (hack : request.ack = .succeeded) (hcommand : s.command? request.commandId = some found)
      (hkind : found.2.2.kind = .stopAccount) (hopen : found.2.2.status.concludedByAck = false)
      (hlease : lease = some held) (hvalid : held.valid s.now = true) :
      Move s act gate row lease (row.stop request.leaseGeneration)
        (lease.map (Lease.release envelope.workerId request.leaseGeneration))
  | recover {adminToken : String} {request : ReserveRequest} (hact : act = .reserve adminToken request)
      (haccount : request.accountId = row.accountId) (hfirst : request.expectedRevision = 0)
      (hunbound : row.workerId = none) (hreserved : row.reservation.isSome = true)
      (hstale : row.reservation.any (·.fresh s.now) = false) :
      Move s act gate row lease (row.recoverReservation s.now) lease
  | claim {adminToken : String} {request : ReserveRequest} {identity server : Fingerprint}
      (hact : act = .reserve adminToken request) (haccount : request.accountId = row.accountId)
      (hfirst : request.expectedRevision = 0)
      (hidentity : decodeIdentityFingerprint request.identityFingerprint = some identity)
      (hunbound : row.workerId = none) (hreserved : row.reservation = none) (hown : row.identity = some identity)
      (hsecretless : ∀ a ∈ s.accounts, a.accountId = row.accountId → a.registry.secretRef = none)
      (hsecret : validSecretRef request.secretRef = true) :
      Move s act gate row lease (row.claimReservation request.secretRef identity server s.now) lease
  | replace {adminToken : String} {request : ReserveRequest} {identity server : Fingerprint}
      (hact : act = .reserve adminToken request) (haccount : request.accountId = row.accountId)
      (hlater : request.expectedRevision ≠ 0)
      (hidentity : decodeIdentityFingerprint request.identityFingerprint = some identity)
      (hunbound : row.workerId = none) (hreserved : row.reservation = none)
      (hsecret : validSecretRef request.secretRef = true) :
      Move s act gate row lease (row.replaceReservation request.secretRef identity server s.now) lease
  | activate {adminToken : String} {request : ReserveRequest} {identity server : Fingerprint}
      (hact : act = .activate adminToken request) (haccount : request.accountId = row.accountId)
      (hidentity : decodeIdentityFingerprint request.identityFingerprint = some identity)
      (hunbound : row.workerId = none) (hreserved : row.reservation.map Reservation.identity = some identity) :
      Move s act gate row lease (row.activate request identity server) lease
  | abort {adminToken : String} {request : AbortRequest} (hact : act = .abort adminToken request)
      (haccount : request.accountId = row.accountId) (hcreated : request.created = false) :
      Move s act gate row lease row.abort lease
  | reconnect {adminToken : String} {request : RevisionRequest} (hact : act = .reconnect adminToken request)
      (haccount : request.accountId = row.accountId)
      (hunbound : row.workerId = none) (hreserved : row.reservation = none) :
      Move s act gate row lease row.reconnect lease
  | disconnect {adminToken : String} {request : RevisionRequest} {firstRequest : Bool}
      (hact : act = .disconnect adminToken request) (haccount : request.accountId = row.accountId) :
      Move s act gate row lease (row.fenceDisconnect request.expectedRevision firstRequest) lease
  | prepareDelete {adminToken : String} {request : RevisionRequest} {stopping : Bool}
      (hact : act = .prepareDelete adminToken request) (haccount : request.accountId = row.accountId)
      (hstopping : stopping = stopsFirst s row lease) :
      Move s act gate row lease (row.prepareDelete stopping s.now) lease

/-! ## Changes of an account -/

/-- The session was there before, as alive and of the same assignment and revision. -/
def ManagedSession.continues (session old : ManagedSession) : Prop :=
  old.revoked = false ∧ old.workerId = session.workerId ∧ old.workerSession = session.workerSession
    ∧ old.leaseGeneration = session.leaseGeneration ∧ old.connectionRevision = session.connectionRevision

structure Frame (before after : Account) : Prop where
  secret : after.registry.secretRef = before.registry.secretRef
  provisions : ∀ command ∈ after.commands, command.kind = .provisionAccount →
    ∃ old ∈ before.commands, old.id = command.id ∧ old.kind = command.kind
  sessions : ∀ session ∈ after.sessions, session.revoked = false → ∃ old ∈ before.sessions, session.continues old

def Account.stored (a : Account) : Option AccountState × PerFamily (List FamilyRow) := (a.accountState, a.rows)

/-- What was observed of the account stays what it was. -/
def Unobserved (before after : Account) : Prop :=
  after.syncStates = before.syncStates ∧ after.stored = before.stored

theorem Unobserved.accountState {before after : Account} (h : Unobserved before after) :
    after.accountState = before.accountState := congrArg Prod.fst h.2

theorem Unobserved.rows {before after : Account} (h : Unobserved before after) : after.rows = before.rows :=
  congrArg Prod.snd h.2

/-- The account is as the transaction found it, up to its commands and what is observed of it. -/
def Untouched (s : World) (a : Account) : Prop :=
  ∃ origin ∈ s.accounts, origin.connection = a.connection ∧ origin.lease = a.lease ∧ origin.sessions = a.sessions

/-- The transaction asks the readiness gate of bare metal. -/
def Action.knocks : Action → Bool
  | .snapshot _ _ | .advanceEa _ _ => true
  | _ => false

/-- What one statement, or a few that go together, can do to an account. -/
inductive Change (s : World) (act : Action) : Account → Account → Prop where
  | keep {a a' : Account} (hframe : Frame a a') (hconnection : a'.connection = a.connection)
      (hlease : a'.lease = a.lease) (hobserved : Unobserved a a') : Change s act a a'
  | renew {a : Account} {held : Lease} (expiresAt : Millis) (hlease : a.lease = some held) :
      Change s act a { a with lease := some { held with expiresAt } }
  | move {a a' : Account} (horigin : Untouched s a) (hframe : Frame a a') (hobserved : Unobserved a a')
      (hmove : Move s act false a.connection a.lease a'.connection a'.lease) : Change s act a a'
  | activate {a a' : Account} {adminToken : String} {request : ReserveRequest} {identity server : Fingerprint}
      (hact : act = .activate adminToken request) (ha : a ∈ s.accounts) (haccount : request.accountId = a.accountId)
      (hidentity : decodeIdentityFingerprint request.identityFingerprint = some identity)
      (hunbound : a.connection.workerId = none)
      (hreserved : a.connection.reservation.map Reservation.identity = some identity)
      (hsecret : validSecretRef request.secretRef = true)
      (hactivated : a' = (a.connect (·.activate request identity server)).register fun entry =>
        { entry with
          label := trim request.label, secretRef := some request.secretRef, status := .connecting
          tradeAllowed := false }) : Change s act a a'
  | place {a : Account} {worker : Worker} (hact : act = .place a.accountId worker.workerId)
      (hwaiting : a.connection.waiting = true) (hworker : worker ∈ s.workers)
      (haccepts : worker.accepts a.connection s = true) : Change s act a (a.place worker s.nextId s.now)
  | pair {a : Account} {request : EaSessionRequest} {token : PairingToken} {runtime : RuntimeBinding}
      {tradeAllowed : Bool} (hact : act = .pairEa request) (hassigned : token.assigned s.workers s.now a = true) :
      Change s act a (a.pair token runtime tradeAllowed s.nextId s.now)
  | observe {a a' : Account} {envelope : Envelope} {request : SnapshotSubmission}
      (hact : act = .snapshot envelope request) (hframe : Frame a a') (hconnection : a'.connection = a.connection)
      (hlease : a'.lease = a.lease) : Change s act a a'
  | ready {a : Account} {worker : Worker} (hgate : act.knocks = true)
      (hworker : s.workers.find? (fun worker => a.connection.workerId = some worker.workerId) = some worker)
      (hready : a.readyOnBareMetal worker s.now = true) : Change s act a (a.advanceReadiness s.workers s.now)

end MarketLens.Mt5Vm
