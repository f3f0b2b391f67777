import MarketLens.Domain.Text

/-!
# The trade security service

What the service keeps for one user, and the parts of its calls that touch no
table: password policy, lock-out, opaque tokens, what a configuration must prove.
Times are in microseconds. Hashing, identity checks and the shape of an operation
payload are parameters.
-/

namespace MarketLens.TradeAuth

open Fallible

inductive TradeError where
  | passwordRequired
  | passwordInvalid
  | passwordLocked
  | passwordNotConfigured
  | passwordPolicy (message : String)
  | authorizationRejected (message : String)
  | recoveryUnavailable
  | recoveryEmailUnverified
  | recoveryCodeInvalid
  | recoveryCodeExpired
  | recoveryAttemptsExceeded
  | failed (message : String)
deriving DecidableEq

/-- `auth.User`, as a recovery looks at it. -/
structure User where
  email : String
  emailVerified : Bool

/-- The service with what it is built from. -/
structure Service where
  userId : String
  authorizationTTL : Int
  /-- Whether an email sender is configured. -/
  recoveryEmail : Bool
  recoveryHashKey : String
  verifyUserIdentity : String → Except TradeError User
  validateOperationPayload : String → String → Except TradeError Unit
  toLower : String → String
  sha256 : String → String
  /-- Argon2id of a password with a salt, encoded. -/
  encodePassword : String → String → String
  verifyTradePassword : String → String → Except String Bool
  /-- `recoveryCodeHash` of the user's code. -/
  recoveryCodeHash : String → String

def second : Int := 1000000
def minute : Int := 60 * second
def hour : Int := 60 * minute

def minTradePasswordRunes : Nat := 8
def maxTradePasswordRunes : Nat := 128
def maxTradePasswordBytes : Nat := 512
def tradeUnlockAbsoluteTTL : Int := 12 * hour
def tradeUnlockIdleTTL : Int := 2 * hour
def recoveryCodeDigits : Nat := 6
def recoveryMaxFailedChecks : Nat := 5

def commonTradePasswordValues : List String :=
  ["12345678", "123456789", "1234567890", "abcdefgh", "admin123", "letmein123", "password", "password1", "password123",
    "qwerty123", "trading123", "welcome123"]

/-- The row of `trade_security_settings`. -/
structure Settings where
  enabled : Bool
  passwordHash : Option String
  failedAttempts : Nat
  lockedUntil : Option Int
deriving DecidableEq

/-- A row of `trade_unlock_sessions`. `readAt` is kept for the proofs: how many changes of the
settings had committed when the issuing call read them. -/
structure UnlockSession where
  id : Nat
  sessionId : String
  tokenHash : String
  expiresAt : Int
  lastUsedAt : Int
  readAt : Nat
deriving DecidableEq

inductive VerificationMethod where
  | disabled
  | password
  | session
deriving DecidableEq

/-- A row of `trade_authorizations`, with the `readAt` of the issuing call. -/
structure TradeAuthorization where
  id : Nat
  sessionId : String
  operation : String
  payload : String
  tokenHash : String
  expiresAt : Int
  consumedAt : Option Int
  verificationMethod : VerificationMethod
  readAt : Nat
deriving DecidableEq

/-- The row of `trade_password_recovery_codes`. -/
structure RecoveryCode where
  codeHash : String
  failedAttempts : Nat
  expiresAt : Int

structure SecurityStatus where
  enabled : Bool
  configured : Bool
deriving DecidableEq

structure Authorization where
  token : String
  expiresAtMs : Int
  unlockToken : String
deriving DecidableEq

/-- `validateTradePassword`; a string of the model is valid UTF-8. -/
def validateTradePassword (service : Service) (password : String) : Except TradeError Unit :=
  if maxTradePasswordBytes < password.utf8ByteSize then .error (.passwordPolicy "password is too long")
  else if password.length < minTradePasswordRunes || maxTradePasswordRunes < password.length then
    .error (.passwordPolicy ("password must contain between " ++ toString minTradePasswordRunes ++ " and "
      ++ toString maxTradePasswordRunes ++ " characters"))
  else if commonTradePasswordValues.contains (service.toLower password) then
    .error (.passwordPolicy "choose a less common password")
  else .ok ()

/-- `hashTradePassword`. -/
def hashTradePassword (service : Service) (salt password : String) : Except TradeError String := do
  validateTradePassword service password
  .ok (service.encodePassword password salt)

/-- `passwordLockDuration`. -/
def passwordLockDuration (failedAttempts : Nat) : Int :=
  if failedAttempts < 5 then 0
  else min (30 * second * 2 ^ min (failedAttempts - 5) 5) (15 * minute)

/-- `opaqueTokenHash`. -/
def opaqueTokenHash (service : Service) (raw : String) : Option String :=
  if raw.utf8ByteSize = 43 && raw.toList.all fun c =>
      ('a' ≤ c && c ≤ 'z') || ('A' ≤ c && c ≤ 'Z') || ('0' ≤ c && c ≤ '9') || c = '-' || c = '_' then
    some (service.sha256 raw)
  else none

/-- `validRecoveryCode`. -/
def validRecoveryCode (code : String) : Bool :=
  code.utf8ByteSize = recoveryCodeDigits && code.toList.all fun c => '0' ≤ c && c ≤ '9'

/-- `verifyCurrentPasswordForConfiguration`. -/
def verifyCurrentPasswordForConfiguration (service : Service) (currentEnabled nextEnabled : Bool) (newPassword : String)
    (currentHash : Option String) (currentPassword : String) : Except TradeError Unit :=
  if !currentEnabled || (nextEnabled && newPassword = "") then .ok ()
  else if currentPassword = "" then .error .passwordRequired
  else
    match currentHash with
    | none => .error (.failed "tradeauth: enabled trade password has no hash")
    | some hash =>
      match service.verifyTradePassword currentPassword hash with
      | .error message => .error (.failed ("tradeauth: verify current password hash: " ++ message))
      | .ok true => .ok ()
      | .ok false => .error .passwordInvalid

end MarketLens.TradeAuth
