import MarketLens.Lib.Run
import MarketLens.Lib.Table
import MarketLens.TradeAuth.Service

/-!
# The transactions of one user, statement by statement

Each call of the service is a transaction of several statements. A statement sees
what has committed and what its own transaction has written; what it writes is
seen by the others from the commit on. `SELECT … FOR UPDATE` and `UPDATE` take the
row and hold it to the end; they wait while another transaction holds it, and
take nothing when there is no row. An inserted row is held too, but nobody sees
it to wait for it, except another insert of the same key. A delete removes at the
commit the rows it saw.
-/

namespace MarketLens.TradeAuth

open Fallible

inductive Call where
  | authorize (sessionId operation payload password rawUnlockToken : String)
  | configure (idToken : String) (enabled : Bool) (newPassword currentPassword : String)
  | lock (sessionId : String)
  | confirmPasswordRecovery (idToken code newPassword : String)
deriving DecidableEq

inductive Answer where
  | authorized (authorization : Authorization)
  | status (status : SecurityStatus)
  | locked
  | refused (error : TradeError)
deriving DecidableEq

/-- How far a transaction is: the last statement that has run. -/
inductive Stage where
  | begun
  | settingsInserted
  | rowRead
  | settingsWritten
  | sessionsDeleted
  | codeDeleted
  | done (answer : Answer)
deriving DecidableEq

/-- What a transaction has written to the recovery code. -/
inductive CodeWrite where
  | delete
  | attempts (failedAttempts : Nat)
deriving DecidableEq

/-- What a transaction has written, unseen by the others. -/
structure Writes where
  settings : Option Settings := none
  /-- The settings or the password are changed by a configuration or a recovery. -/
  change : Bool := false
  deletedSessions : Option (List Nat) := none
  deletedAuthorizations : Option (List Nat) := none
  refreshed : Option (Nat × Int) := none
  session : Option UnlockSession := none
  authorization : Option TradeAuthorization := none
  code : Option CodeWrite := none
deriving DecidableEq

structure Transaction where
  id : Nat
  call : Call
  stage : Stage
  /-- The transaction holds the row of the settings, or has inserted it. -/
  holdsSettings : Bool
  holdsCode : Bool
  /-- The settings as the transaction read them. -/
  settings : Option Settings
  /-- How many changes of the settings had committed by then. -/
  readAt : Nat
  writes : Writes
deriving DecidableEq

structure Store where
  settings : Option Settings
  sessions : List UnlockSession
  authorizations : List TradeAuthorization
  code : Option RecoveryCode
  running : List Transaction
  /-- How many changes of the settings have committed. -/
  changes : Nat
  answers : List (Nat × Answer)

/-- What a statement takes from outside: the clock, random values and fresh keys. -/
structure Ambient where
  now : Int
  salt : String
  rawToken : String
  rawUnlockToken : String
  id : Nat
  unlockId : Nat

/-- What comes of a statement: it waits, the transaction goes on, or it is rolled back and the
call answered. -/
inductive Outcome where
  | waits
  | goes (transaction : Transaction)
  | ends (answer : Answer)

def Store.settingsHeld (store : Store) (id : Nat) : Bool := store.running.any fun other => other.id ≠ id && other.holdsSettings

def Store.codeHeld (store : Store) (id : Nat) : Bool := store.running.any fun other => other.id ≠ id && other.holdsCode

/-! ## Authorize -/

section
variable (service : Service)

/-- The session `refreshTradeUnlock` finds. -/
def unlockedSession (sessions : List UnlockSession) (sessionId rawUnlockToken : String) (now : Int) :
    Option UnlockSession := do
  let hash ← opaqueTokenHash service rawUnlockToken
  sessions.find? fun session => session.sessionId = sessionId && session.tokenHash = hash && now < session.expiresAt
    && now - tradeUnlockIdleTTL < session.lastUsedAt

section
variable (transaction : Transaction) (sessionId operation payload : String) (ambient : Ambient) (method : VerificationMethod)

def issued : TradeAuthorization :=
  { id := ambient.id, sessionId, operation, payload, tokenHash := service.sha256 ambient.rawToken
    expiresAt := ambient.now + service.authorizationTTL, consumedAt := none, verificationMethod := method
    readAt := transaction.readAt }

/-- The last statements of a call that has passed: the authorization is inserted. -/
def issue (unlockToken : String) (writes : Writes) : Outcome :=
  .goes { transaction with
    stage := .done (.authorized ⟨ambient.rawToken, (ambient.now + service.authorizationTTL) / 1000, unlockToken⟩)
    writes := { writes with authorization := some (issued service transaction sessionId operation payload ambient method) } }

end

/-- A wrong password: the attempt is counted, and that commits. -/
def wrongPassword (transaction : Transaction) (settings : Settings) (now : Int) : Outcome :=
  let failedAttempts := settings.failedAttempts + 1
  let lockDuration := passwordLockDuration failedAttempts
  .goes { transaction with
    stage := .done (.refused (if 0 < lockDuration then .passwordLocked else .passwordInvalid))
    writes := { settings := some { settings with
      failedAttempts, lockedUntil := if 0 < lockDuration then some (now + lockDuration) else none } } }

/-- The session a right password unlocks. -/
def unlocks (transaction : Transaction) (sessionId : String) (ambient : Ambient) : UnlockSession :=
  { id := ambient.unlockId, sessionId, tokenHash := service.sha256 ambient.rawUnlockToken
    expiresAt := ambient.now + tradeUnlockAbsoluteTTL, lastUsedAt := ambient.now, readAt := transaction.readAt }

/-- `Authorize` after it has read the settings. -/
def authorizeWith (sessions : List UnlockSession) (transaction : Transaction)
    (sessionId operation payload password rawUnlockToken : String) (ambient : Ambient) : Outcome :=
  match transaction.settings.filter (·.enabled) with
  | none => issue service transaction sessionId operation payload ambient .disabled "" {}
  | some settings =>
    match unlockedSession service sessions sessionId rawUnlockToken ambient.now with
    | some session =>
      issue service transaction sessionId operation payload ambient .session "" { refreshed := some (session.id, ambient.now) }
    | none =>
      if settings.lockedUntil.any (ambient.now < ·) then .ends (.refused .passwordLocked)
      else if password = "" then .ends (.refused .passwordRequired)
      else
        match settings.passwordHash with
        | none => .ends (.refused (.failed "tradeauth: enabled trade password has no hash"))
        | some hash =>
          match service.verifyTradePassword password hash with
          | .error message => .ends (.refused (.failed ("tradeauth: verify password hash: " ++ message)))
          | .ok false => wrongPassword transaction settings ambient.now
          | .ok true =>
            issue service transaction sessionId operation payload ambient .password ambient.rawUnlockToken
              { settings := some { settings with failedAttempts := 0, lockedUntil := none }
                session := some (unlocks service transaction sessionId ambient) }

section
variable (store : Store)

/-- `Authorize`: the settings are read for update, and the rest follows. -/
def authorize (transaction : Transaction)
    (sessionId operation payload password rawUnlockToken : String) (ambient : Ambient) : Outcome :=
  match transaction.stage with
  | .begun =>
    if store.settings.isSome && store.settingsHeld transaction.id then .waits
    else .goes { transaction with
      stage := .rowRead, holdsSettings := store.settings.isSome, settings := store.settings, readAt := store.changes }
  | .rowRead => authorizeWith service store.sessions transaction sessionId operation payload password rawUnlockToken ambient
  | _ => .waits

/-! ## The statements that revoke -/

/-- `DELETE FROM trade_unlock_sessions`, of all sessions or one. -/
def deleteSessions (transaction : Transaction) (sessionId : Option String) (stage : Stage) : Outcome :=
  .goes { transaction with
    stage
    writes := { transaction.writes with
      deletedSessions := some ((store.sessions.filter fun session => sessionId.all (session.sessionId = ·)).map (·.id)) } }

/-- `DELETE FROM trade_authorizations … consumed_at IS NULL`, of all sessions or one. -/
def deleteAuthorizations (transaction : Transaction) (sessionId : Option String) (answer : Answer) : Outcome :=
  .goes { transaction with
    stage := .done answer
    writes := { transaction.writes with
      deletedAuthorizations := some ((store.authorizations.filter fun authorization =>
        sessionId.all (authorization.sessionId = ·) && authorization.consumedAt.isNone).map (·.id)) } }

/-- `DELETE FROM trade_password_recovery_codes`. -/
def deleteCode (transaction : Transaction) (stage : Stage) : Outcome :=
  if store.code.isSome && store.codeHeld transaction.id then .waits
  else .goes { transaction with
    stage
    holdsCode := transaction.holdsCode || store.code.isSome
    writes := { transaction.writes with code := some .delete } }

/-! ## Configure, Lock, ConfirmPasswordRecovery -/

/-- `Configure` on the settings it has read for update. -/
def configureWith (transaction : Transaction) (settings : Settings) (enabled : Bool)
    (newPassword currentPassword : String) (ambient : Ambient) : Outcome :=
  if settings.enabled = enabled && newPassword = "" then .ends (.status ⟨settings.enabled, settings.passwordHash.isSome⟩)
  else
    match verifyCurrentPasswordForConfiguration service settings.enabled enabled newPassword settings.passwordHash currentPassword with
    | .error error => .ends (.refused error)
    | .ok () =>
      let nextHash := if newPassword = "" then .ok settings.passwordHash
        else (hashTradePassword service ambient.salt newPassword).map some
      match nextHash with
      | .error error => .ends (.refused error)
      | .ok nextHash =>
        if enabled && nextHash.isNone then .ends (.refused .passwordNotConfigured)
        else .goes { transaction with
          stage := .settingsWritten
          writes := { settings := some ⟨enabled, nextHash, 0, none⟩, change := true } }

/-- The row `Configure` inserts. -/
def initialSettings : Settings := ⟨false, none, 0, none⟩

/-- `Configure`. -/
def configure (transaction : Transaction) (enabled : Bool)
    (newPassword currentPassword : String) (ambient : Ambient) : Outcome :=
  match transaction.stage with
  | .begun =>
    match store.settings with
    | some _ => .goes { transaction with stage := .settingsInserted }
    | none =>
      if store.settingsHeld transaction.id then .waits
      else .goes { transaction with stage := .settingsInserted, holdsSettings := true, settings := some initialSettings }
  | .settingsInserted =>
    if transaction.holdsSettings then .goes { transaction with stage := .rowRead }
    else
      match store.settings with
      | none => .ends (.refused (.failed "no rows in result set"))
      | some settings =>
        if store.settingsHeld transaction.id then .waits
        else .goes { transaction with stage := .rowRead, holdsSettings := true, settings := some settings }
  | .rowRead =>
    match transaction.settings with
    | none => .waits
    | some settings => configureWith service transaction settings enabled newPassword currentPassword ambient
  | .settingsWritten => deleteSessions store transaction none .sessionsDeleted
  | .sessionsDeleted => deleteCode store transaction .codeDeleted
  | .codeDeleted =>
    deleteAuthorizations store transaction none
      (.status ⟨enabled, (transaction.writes.settings.bind (·.passwordHash)).isSome⟩)
  | .done _ => .waits

/-- `Lock`. -/
def lock (transaction : Transaction) (sessionId : String) : Outcome :=
  match transaction.stage with
  | .begun => deleteSessions store transaction (some sessionId) .sessionsDeleted
  | .sessionsDeleted => deleteAuthorizations store transaction (some sessionId) .locked
  | _ => .waits

def checkCode (transaction : Transaction) (stored : RecoveryCode) (code : String) (now : Int) : Outcome :=
  let transaction := { transaction with holdsCode := true }
  if stored.expiresAt ≤ now then
    .goes { transaction with stage := .done (.refused .recoveryCodeExpired), writes := { code := some .delete } }
  else if stored.codeHash ≠ service.recoveryCodeHash code then
    if recoveryMaxFailedChecks ≤ stored.failedAttempts + 1 then
      .goes { transaction with stage := .done (.refused .recoveryAttemptsExceeded), writes := { code := some .delete } }
    else
      .goes { transaction with
        stage := .done (.refused .recoveryCodeInvalid), writes := { code := some (.attempts (stored.failedAttempts + 1)) } }
  else .goes { transaction with stage := .rowRead }

/-- `ConfirmPasswordRecovery`. -/
def confirmPasswordRecovery (transaction : Transaction) (code newPassword : String)
    (ambient : Ambient) : Outcome :=
  match transaction.stage with
  | .begun =>
    match store.code with
    | none => .ends (.refused .recoveryCodeInvalid)
    | some stored =>
      if store.codeHeld transaction.id then .waits else checkCode service transaction stored code ambient.now
  | .rowRead =>
    match hashTradePassword service ambient.salt newPassword with
    | .error error => .ends (.refused error)
    | .ok newHash =>
      match store.settings.filter (·.passwordHash.isSome) with
      | none => .ends (.refused .passwordNotConfigured)
      | some settings =>
        if store.settingsHeld transaction.id then .waits
        else .goes { transaction with
          stage := .settingsWritten, holdsSettings := true, settings := some settings
          writes :=
            { settings := some { settings with passwordHash := some newHash, failedAttempts := 0, lockedUntil := none }
              change := true } }
  | .settingsWritten => deleteCode store transaction .codeDeleted
  | .codeDeleted => deleteSessions store transaction none .sessionsDeleted
  | .sessionsDeleted =>
    deleteAuthorizations store transaction none (.status ⟨(transaction.writes.settings.map (·.enabled)).getD false, true⟩)
  | _ => .waits

/-! ## Steps -/

/-- What a call checks before its transaction begins. -/
def precheck : Call → Except TradeError Unit
  | .authorize _ operation payload _ _ => service.validateOperationPayload operation payload
  | .configure idToken _ _ _ => (service.verifyUserIdentity idToken).map fun _ => ()
  | .lock _ => .ok ()
  | .confirmPasswordRecovery idToken code newPassword => do
    refuseIf (!service.recoveryEmail || service.recoveryHashKey.utf8ByteSize < 32) .recoveryUnavailable
    refuseIf (!validRecoveryCode code) .recoveryCodeInvalid
    validateTradePassword service newPassword
    let user ← service.verifyUserIdentity idToken
    refuseIf (!user.emailVerified || trim user.email = "") .recoveryEmailUnverified

def statement (transaction : Transaction) (ambient : Ambient) : Outcome :=
  match transaction.call with
  | .authorize sessionId operation payload password rawUnlockToken =>
    authorize service store transaction sessionId operation payload password rawUnlockToken ambient
  | .configure _ enabled newPassword currentPassword => configure service store transaction enabled newPassword currentPassword ambient
  | .lock sessionId => lock store transaction sessionId
  | .confirmPasswordRecovery _ code newPassword => confirmPasswordRecovery service store transaction code newPassword ambient

def Store.transaction (id : Nat) : Option Transaction := store.running.find? (·.id = id)

/-- The transaction is over, and its call answered. -/
def Store.over (id : Nat) (answer : Answer) : Store :=
  { store with running := store.running.filter (·.id ≠ id), answers := store.answers ++ [(id, answer)] }

def beginCall (id : Nat) (call : Call) : Option Store :=
  if store.running.any (·.id = id) then none
  else
    match precheck service call with
    | .error error => some { store with answers := store.answers ++ [(id, .refused error)] }
    | .ok () =>
      some { store with
        running :=
          { id, call, stage := .begun, holdsSettings := false, holdsCode := false, settings := none, readAt := 0, writes := {} }
            :: store.running }

def advance (id : Nat) (ambient : Ambient) : Option Store := do
  let transaction ← store.transaction id
  match statement service store transaction ambient with
  | .waits => none
  | .goes next => some { store with running := Table.updateWhere (·.id = id) (fun _ => next) store.running }
  | .ends answer => some (store.over id answer)

end

end

/-- `INSERT … ON CONFLICT (user_id, session_id) DO UPDATE`. -/
def upsertSession (sessions : List UnlockSession) (new : UnlockSession) : List UnlockSession :=
  if sessions.any (·.sessionId = new.sessionId) then
    Table.updateWhere (·.sessionId = new.sessionId)
      (fun row => { row with
        tokenHash := new.tokenHash, expiresAt := new.expiresAt, lastUsedAt := new.lastUsedAt, readAt := new.readAt }) sessions
  else sessions ++ [new]

def Writes.sessionsAfter (writes : Writes) (sessions : List UnlockSession) : List UnlockSession :=
  let kept := sessions.filter fun session => !(writes.deletedSessions.getD []).contains session.id
  let refreshed := Table.updateWhere (fun session => writes.refreshed.any (·.1 = session.id))
    (fun session => { session with lastUsedAt := (writes.refreshed.map (·.2)).getD session.lastUsedAt }) kept
  match writes.session with
  | none => refreshed
  | some session => upsertSession refreshed session

/-- The authorizations after the writes: one consumed in the meantime is not deleted. -/
def Writes.authorizationsAfter (writes : Writes) (authorizations : List TradeAuthorization) : List TradeAuthorization :=
  (authorizations.filter fun authorization =>
    !(authorization.consumedAt.isNone && (writes.deletedAuthorizations.getD []).contains authorization.id))
    ++ writes.authorization.toList

def Writes.codeAfter (writes : Writes) (code : Option RecoveryCode) : Option RecoveryCode :=
  match writes.code with
  | none => code
  | some .delete => none
  | some (.attempts failedAttempts) => code.map fun code => { code with failedAttempts }

/-- The transaction commits, and the call is answered. -/
def commit (store : Store) (id : Nat) : Option Store := do
  let transaction ← store.transaction id
  match transaction.stage with
  | .done answer =>
    some { store.over id answer with
      settings := transaction.writes.settings.or store.settings
      sessions := transaction.writes.sessionsAfter store.sessions
      authorizations := transaction.writes.authorizationsAfter store.authorizations
      code := transaction.writes.codeAfter store.code
      changes := store.changes + if transaction.writes.change then 1 else 0 }
  | _ => none

inductive Action where
  | beginCall (id : Nat) (call : Call)
  | advance (id : Nat) (ambient : Ambient)
  | commit (id : Nat)
  /-- The database or the caller gives a transaction up. -/
  | abort (id : Nat)
  /-- An authorization is used. -/
  | consume (authorizationId : Nat) (now : Int)
  /-- The deletes that follow an authorization: what expired or was consumed long ago. -/
  | cleanUp (now : Int)
  /-- A recovery code is stored, or taken back. -/
  | recoveryCode (code : Option RecoveryCode)

def step (service : Service) (store : Store) : Action → Option Store
  | .beginCall id call => beginCall service store id call
  | .advance id ambient => advance service store id ambient
  | .commit id => commit store id
  | .abort id => some { store with running := store.running.filter (·.id ≠ id) }
  | .consume authorizationId now =>
    some { store with
      authorizations := Table.updateWhere
        (fun authorization => authorization.id = authorizationId && authorization.consumedAt.isNone && now < authorization.expiresAt)
        (fun authorization => { authorization with consumedAt := some now }) store.authorizations }
  | .cleanUp now =>
    some { store with
      authorizations := store.authorizations.filter fun authorization =>
        !(authorization.expiresAt < now - hour || authorization.consumedAt.any (· < now - hour))
      sessions := store.sessions.filter fun session => !(session.expiresAt < now || session.lastUsedAt < now - 2 * hour) }
  | .recoveryCode code =>
    if store.running.any (·.holdsCode) then none else some { store with code }

end MarketLens.TradeAuth
