import MarketLens.TradeAuth.Transactions

/-!
# Security changes revoke what was issued before

A configuration or a recovery that commits leaves no unlock session and no unused
authorization from a call that had read the settings before it. The row of the
settings is what holds such a call and the change apart, so this takes the row to
be there: a call that found none holds nothing, and must not commit once a
configuration that creates the row has gone past its deletes (`Covered`).
-/

namespace MarketLens.TradeAuth

open List Table

variable {service : Service} {store store' : Store}

/-! ## What is promised -/

structure Revoked (store : Store) : Prop where
  /-- Every unused authorization is from a call that read the settings after the last change. -/
  authorizations : ∀ authorization ∈ store.authorizations, authorization.consumedAt = none →
    authorization.readAt = store.changes
  /-- So is every unlock session. -/
  sessions : ∀ session ∈ store.sessions, session.readAt = store.changes
  /-- Under protection no unused authorization says that protection is disabled. -/
  disabled : ∀ authorization ∈ store.authorizations, authorization.consumedAt = none →
    authorization.verificationMethod = .disabled → ∀ settings, store.settings = some settings → settings.enabled = false

/-- A call that found no settings commits an authorization only while there are none still, and no
change under way has deleted the authorizations it saw. -/
def Covered (store : Store) : Action → Prop
  | .commit id =>
    ∀ transaction authorization, store.transaction id = some transaction →
      transaction.writes.authorization = some authorization → transaction.settings = none →
      store.settings = none ∧ ∀ other ∈ store.running, other.writes.change = true → other.writes.deletedAuthorizations = none
  | _ => True

/-- Nothing running, no change counted, and nothing left from before the last change. -/
structure Start (store : Store) : Prop where
  running : store.running = []
  changes : store.changes = 0
  revoked : Revoked store

/-! ## What a transaction has written by now -/

/-- Nothing that matters to the settings or to what is issued, but for deletes. -/
structure Quiet (writes : Writes) : Prop where
  change : writes.change = false
  settings : writes.settings = none
  authorization : writes.authorization = none
  session : writes.session = none

/-- A change of the settings, under the lock on the row. -/
structure Changes (transaction : Transaction) : Prop where
  holds : transaction.holdsSettings = true
  change : transaction.writes.change = true
  settings : transaction.writes.settings.isSome = true
  authorization : transaction.writes.authorization = none
  session : transaction.writes.session = none

structure Issues (transaction : Transaction) : Prop where
  change : transaction.writes.change = false
  deletedSessions : transaction.writes.deletedSessions = none
  deletedAuthorizations : transaction.writes.deletedAuthorizations = none
  settings : ∀ written, transaction.writes.settings = some written →
    ∃ settings, transaction.settings = some settings ∧ written.enabled = settings.enabled
  authorization : ∀ authorization, transaction.writes.authorization = some authorization →
    authorization.readAt = transaction.readAt
      ∧ (authorization.verificationMethod = .disabled → ∀ settings, transaction.settings = some settings → settings.enabled = false)
  session : ∀ session, transaction.writes.session = some session →
    session.readAt = transaction.readAt ∧ transaction.settings.isSome = true

section
variable (transaction : Transaction)

def AuthorizeForm : Prop :=
  match transaction.stage with
  | .begun => Quiet transaction.writes ∧ transaction.holdsSettings = false
  | .rowRead => Quiet transaction.writes
  | .done _ => Issues transaction
  | _ => False

def ConfigureForm : Prop :=
  match transaction.stage with
  | .begun => Quiet transaction.writes ∧ transaction.holdsSettings = false
  | .settingsInserted => Quiet transaction.writes
  | .rowRead => Quiet transaction.writes ∧ transaction.holdsSettings = true
  | .settingsWritten => Changes transaction
  | .sessionsDeleted => Changes transaction ∧ transaction.writes.deletedSessions.isSome = true
  | .codeDeleted => Changes transaction ∧ transaction.writes.deletedSessions.isSome = true
  | .done _ => Changes transaction ∧ transaction.writes.deletedSessions.isSome = true
      ∧ transaction.writes.deletedAuthorizations.isSome = true

def LockForm : Prop := Quiet transaction.writes ∧ transaction.holdsSettings = false

def RecoveryForm : Prop :=
  match transaction.stage with
  | .begun => Quiet transaction.writes ∧ transaction.holdsSettings = false
  | .settingsInserted => False
  | .rowRead => Quiet transaction.writes ∧ transaction.holdsSettings = false
  | .settingsWritten => Changes transaction
  | .codeDeleted => Changes transaction
  | .sessionsDeleted => Changes transaction ∧ transaction.writes.deletedSessions.isSome = true
  | .done _ => Quiet transaction.writes ∨ (Changes transaction ∧ transaction.writes.deletedSessions.isSome = true
      ∧ transaction.writes.deletedAuthorizations.isSome = true)

def Form : Prop :=
  match transaction.call with
  | .authorize .. => AuthorizeForm transaction
  | .configure .. => ConfigureForm transaction
  | .lock _ => LockForm transaction
  | .confirmPasswordRecovery .. => RecoveryForm transaction

/-- The call of an authorization has read the settings. -/
def Transaction.hasRead : Bool :=
  match transaction.call, transaction.stage with
  | .authorize .., .begun => false
  | .authorize .., _ => true
  | _, _ => false

end

/-- What the call read: no settings, before any change; or the settings it still holds. -/
def Seen (store : Store) (transaction : Transaction) : Prop :=
  (transaction.settings = none ∧ transaction.readAt = 0)
    ∨ (transaction.holdsSettings = true ∧ transaction.readAt = store.changes
        ∧ ∃ settings, transaction.settings = some settings ∧ store.settings = some settings)

/-- A running transaction, against the tables. -/
structure Fits (store : Store) (transaction : Transaction) : Prop where
  form : Form transaction
  seen : transaction.hasRead = true → Seen store transaction
  sessions : ∀ ids, transaction.writes.change = true → transaction.writes.deletedSessions = some ids →
    ∀ session ∈ store.sessions, session.id ∈ ids
  authorizations : ∀ ids, transaction.writes.change = true → transaction.writes.deletedAuthorizations = some ids →
    ∀ authorization ∈ store.authorizations, authorization.consumedAt = none → authorization.id ∈ ids

structure Sound (store : Store) : Prop where
  ids : (store.running.map (·.id)).Nodup
  holder : ∀ first ∈ store.running, ∀ second ∈ store.running, first.holdsSettings = true → second.holdsSettings = true →
    first.id = second.id
  fits : ∀ transaction ∈ store.running, Fits store transaction
  unset : store.settings = none → store.changes = 0
  revoked : Revoked store

/-! ## What a commit writes -/

theorem Form.commits {transaction : Transaction} {answer : Answer} (h : Form transaction) (hdone : transaction.stage = .done answer) :
    Quiet transaction.writes
      ∨ (Changes transaction ∧ transaction.writes.deletedSessions.isSome = true
          ∧ transaction.writes.deletedAuthorizations.isSome = true)
      ∨ (Issues transaction ∧ transaction.hasRead = true) := by
  unfold Form at h
  split at h
  · rename_i hcall
    unfold AuthorizeForm at h
    rw [hdone] at h
    refine .inr (.inr ⟨h, ?_⟩)
    unfold Transaction.hasRead
    rw [hcall, hdone]
  · unfold ConfigureForm at h
    rw [hdone] at h
    exact .inr (.inl h)
  · exact .inl h.1
  · unfold RecoveryForm at h
    rw [hdone] at h
    rcases h with h | h
    · exact .inl h
    · exact .inr (.inl h)

variable {writes : Writes} {sessions : List UnlockSession}

/-- Deletes and refreshes leave sessions that were there, under their own keys. -/
theorem sessionsAfter_mem {session : UnlockSession}
    (hnone : writes.session = none) (h : session ∈ writes.sessionsAfter sessions) :
    ∃ old ∈ sessions, session.id = old.id ∧ session.readAt = old.readAt := by
  unfold Writes.sessionsAfter at h
  rw [hnone] at h
  rcases updateWhere_cases h with ⟨hold, _⟩ | ⟨old, hold, _, rfl⟩
  · exact ⟨session, mem_of_mem_filter hold, rfl, rfl⟩
  · exact ⟨old, mem_of_mem_filter hold, rfl, rfl⟩

theorem upsertSession_mem {new session : UnlockSession}
    (h : session ∈ upsertSession sessions new) : session ∈ sessions ∨ session.readAt = new.readAt := by
  unfold upsertSession at h
  split at h
  · rcases updateWhere_cases h with ⟨hold, _⟩ | ⟨_, _, _, rfl⟩
    · exact .inl hold
    · exact .inr rfl
  · rcases mem_append.mp h with hold | hnew
    · exact .inl hold
    · rw [mem_singleton.mp hnew]
      exact .inr rfl

/-- A session after a commit was there before, or is from the call that commits. -/
theorem sessionsAfter_readAt {session : UnlockSession} (h : session ∈ writes.sessionsAfter sessions) :
    (∃ old ∈ sessions, session.readAt = old.readAt) ∨ ∃ new, writes.session = some new ∧ session.readAt = new.readAt := by
  unfold Writes.sessionsAfter at h
  split at h
  · rcases updateWhere_cases h with ⟨hold, _⟩ | ⟨old, hold, _, rfl⟩
    · exact .inl ⟨session, mem_of_mem_filter hold, rfl⟩
    · exact .inl ⟨old, mem_of_mem_filter hold, rfl⟩
  · rename_i new hnew
    rcases upsertSession_mem h with hold | hreadAt
    · rcases updateWhere_cases hold with ⟨hkept, _⟩ | ⟨old, hkept, _, rfl⟩
      · exact .inl ⟨session, mem_of_mem_filter hkept, rfl⟩
      · exact .inl ⟨old, mem_of_mem_filter hkept, rfl⟩
    · exact .inr ⟨new, hnew, hreadAt⟩

theorem authorizationsAfter_mem {authorizations : List TradeAuthorization} {authorization : TradeAuthorization}
    (h : authorization ∈ writes.authorizationsAfter authorizations) :
    (authorization ∈ authorizations
        ∧ ∀ ids, writes.deletedAuthorizations = some ids → authorization.consumedAt = none → authorization.id ∉ ids)
      ∨ writes.authorization = some authorization := by
  rcases mem_append.mp h with hold | hnew
  · obtain ⟨hmem, hkept⟩ := mem_filter.mp hold
    refine .inl ⟨hmem, ?_⟩
    intro ids hids hunus hin
    rw [hids, hunus] at hkept
    simp [hin] at hkept
  · exact .inr (by simpa using hnew)

/-- A change leaves no session. -/
theorem sessionsAfter_deleted {ids : List Nat} (hnone : writes.session = none)
    (hids : writes.deletedSessions = some ids) (hall : ∀ session ∈ sessions, session.id ∈ ids) :
    writes.sessionsAfter sessions = [] := by
  unfold Writes.sessionsAfter
  rw [hnone, hids]
  have hkept : (sessions.filter fun session => !((some ids).getD []).contains session.id) = [] := by
    rw [filter_eq_nil_iff]
    intro session hsess
    simp [hall session hsess]
  rw [hkept]
  rfl

end MarketLens.TradeAuth
