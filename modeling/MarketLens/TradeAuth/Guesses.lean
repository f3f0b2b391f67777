import Mathlib.Tactic.Linarith
import MarketLens.TradeAuth.Revocation

/-!
# Comparing the trade password

Where the calls compare a submitted password with the stored hash, and what they
write of the settings for it. A call that authorizes counts a wrong password under
the lock on the row of the settings, and puts the counter back for a right one; a
configuration compares without a look at the lock and without counting.
-/

namespace MarketLens.TradeAuth

open List Option Bool Table Runs

variable {service : Service} {store store' : Store}

/-! ## Comparisons -/

/-- The comparison of a submitted password with the stored hash that the next statement of a transaction makes, and
whether they match. -/
def Transaction.comparison (service : Service) (sessions : List UnlockSession) (transaction : Transaction) (now : Int) :
    Option Bool :=
  match transaction.stage, transaction.call with
  | .rowRead, .authorize sessionId _ _ password rawUnlockToken =>
    (transaction.settings.filter (·.enabled)).bind fun settings =>
      if (unlockedSession service sessions sessionId rawUnlockToken now).isSome then none
      else if settings.lockedUntil.any (now < ·) || password = "" then none
      else settings.passwordHash.bind fun hash => (service.verifyTradePassword password hash).toOption
  | .rowRead, .configure _ enabled newPassword currentPassword =>
    transaction.settings.bind fun settings =>
      if settings.enabled = enabled && newPassword = "" then none
      else if !settings.enabled || (enabled && newPassword = "") || currentPassword = "" then none
      else settings.passwordHash.bind fun hash => (service.verifyTradePassword currentPassword hash).toOption
  | _, _ => none

/-- `locked_until` lies in the future. -/
def Store.lockedAt (store : Store) (now : Int) : Bool := store.settings.any fun settings => settings.lockedUntil.any (now < ·)

/-- `failed_attempts`. -/
def Store.failedAttempts (store : Store) : Nat := (store.settings.map (·.failedAttempts)).getD 0

/-- The transaction has compared wrongly and raised the counter, unseen by the others. -/
def Transaction.counting (transaction : Transaction) : Bool :=
  match transaction.settings, transaction.writes.settings with
  | some settings, some written => settings.failedAttempts < written.failedAttempts
  | _, _ => false

/-- The password of the call matches the stored hash, or the call is the confirmation of a recovery. -/
def Proven (service : Service) (call : Call) (settings : Settings) : Prop :=
  match call with
  | .authorize _ _ _ password _ =>
    ∃ hash, settings.passwordHash = some hash ∧ service.verifyTradePassword password hash = .ok true
  | .configure _ _ _ currentPassword =>
    ∃ hash, settings.passwordHash = some hash ∧ service.verifyTradePassword currentPassword hash = .ok true
  | .lock _ => False
  | .confirmPasswordRecovery .. => True

/-! ## What is promised -/

/-- A store, and when the comparisons since `failed_attempts` was last lowered have failed, the last one first. -/
structure Watched where
  store : Store
  failures : List Int

def failure (service : Service) (store : Store) : Action → Option Int
  | .advance id ambient =>
    (store.transaction id).bind fun transaction =>
      if transaction.comparison service store.sessions ambient.now = some false then some ambient.now else none
  | _ => none

def Watched.step (service : Service) (watched : Watched) (action : Action) : Option Watched :=
  (TradeAuth.step service watched.store action).map fun store =>
    { store
      failures :=
        if store.failedAttempts < watched.store.failedAttempts then []
        else (failure service watched.store action).toList ++ watched.failures }

/-- The times are those of wrong comparisons that were counted, and each after the fifth is a lock period of half a
minute or more after the one before. -/
structure Bounded (watched : Watched) : Prop where
  /-- Every failure is in the counter, or in that of the transaction under way. -/
  counted : watched.failures.length =
    watched.store.failedAttempts + if watched.store.running.any (·.counting) then 1 else 0
  /-- More than five take as many lock periods. -/
  spaced : ∀ n, watched.failures.length = 5 + n →
    ∃ fifth last, watched.failures[n]? = some fifth ∧ watched.failures.head? = some last ∧ fifth + 30 * second * n ≤ last

/-- A step compares only while the password is not locked, and puts the counter back only for a proof. -/
structure Guards (service : Service) (before : Store) (action : Action) (after : Store) : Prop where
  unlocked : ∀ id ambient transaction, action = .advance id ambient → before.transaction id = some transaction →
    (transaction.comparison service before.sessions ambient.now).isSome = true → before.lockedAt ambient.now = false
  proven : after.failedAttempts < before.failedAttempts → ∃ id transaction settings, action = .commit id ∧
    before.transaction id = some transaction ∧ before.settings = some settings ∧ Proven service transaction.call settings

/-- A configuration compares a right password only, and not while it is locked; and no call is given up between its
wrong comparison and the commit. -/
def Careful (service : Service) (store : Store) : Action → Prop
  | .advance id ambient => ∀ transaction idToken enabled newPassword currentPassword, store.transaction id = some transaction →
      transaction.call = .configure idToken enabled newPassword currentPassword →
      transaction.comparison service store.sessions ambient.now = none ∨
        (transaction.comparison service store.sessions ambient.now = some true ∧ store.lockedAt ambient.now = false)
  | .abort id => ∀ transaction, store.transaction id = some transaction → transaction.counting = false
  | _ => True

/-! ## What a transaction writes -/

def Call.authorizes : Call → Bool
  | .authorize .. => true
  | _ => false

/-- What becomes of the settings a call has read. -/
inductive Wrote (service : Service) (call : Call) (settings written : Settings) : Prop where
  | counted (now : Int) : call.authorizes = true → settings.enabled = true → written.enabled = true →
      written.failedAttempts = settings.failedAttempts + 1 →
      (0 < passwordLockDuration written.failedAttempts →
        written.lockedUntil = some (now + passwordLockDuration written.failedAttempts)) → Wrote service call settings written
  | cleared : written.failedAttempts = 0 → written.lockedUntil = none →
      (settings.enabled = false ∨ Proven service call settings) → Wrote service call settings written

/-- A running transaction, against the settings that have committed. -/
structure Kept (service : Service) (settings : Option Settings) (transaction : Transaction) : Prop where
  /-- What it has read it holds, so that it is what there is, or the row it has inserted itself. -/
  seen : ∀ read, transaction.settings = some read → transaction.holdsSettings = true ∧
    (settings = some read ∨ (settings = none ∧ read = initialSettings))
  late : transaction.writes.settings.isSome = true →
    transaction.stage ≠ .begun ∧ transaction.stage ≠ .settingsInserted ∧ transaction.stage ≠ .rowRead
  wrote : ∀ written, transaction.writes.settings = some written →
    ∃ read, transaction.settings = some read ∧ Wrote service transaction.call read written

structure Orderly (service : Service) (store : Store) : Prop where
  ids : (store.running.map (·.id)).Nodup
  holder : ∀ first ∈ store.running, ∀ other ∈ store.running, first.holdsSettings = true → other.holdsSettings = true →
    first.id = other.id
  kept : ∀ transaction ∈ store.running, Kept service store.settings transaction
  disabled : ∀ settings, store.settings = some settings → settings.enabled = false →
    settings.failedAttempts = 0 ∧ settings.lockedUntil = none

theorem thirty_le_passwordLockDuration {failedAttempts : Nat} (h : 5 ≤ failedAttempts) :
    30 * second ≤ passwordLockDuration failedAttempts := by
  unfold passwordLockDuration
  rw [if_neg (by omega)]
  refine le_min ?_ (by decide)
  have hpow : (1 : Int) ≤ 2 ^ min (failedAttempts - 5) 5 := one_le_pow₀ (by decide)
  have hsec : (0 : Int) ≤ 30 * second := by decide
  calc 30 * second = 30 * second * 1 := (mul_one _).symm
    _ ≤ 30 * second * 2 ^ min (failedAttempts - 5) 5 := mul_le_mul_of_nonneg_left hpow hsec

variable {settings : Option Settings} {transaction : Transaction}

theorem Kept.counting (h : Kept service settings transaction) (hcounting : transaction.counting = true) :
    transaction.holdsSettings = true ∧ ∃ read written, settings = some read ∧ transaction.settings = some read ∧
      transaction.writes.settings = some written ∧ written.enabled = true ∧ written.failedAttempts = read.failedAttempts + 1 := by
  unfold Transaction.counting at hcounting
  split at hcounting
  · rename_i read written hread hwritten
    rw [decide_eq_true_eq] at hcounting
    obtain ⟨hhld, hsame⟩ := h.seen read hread
    obtain ⟨read', hread', hwrote⟩ := h.wrote written hwritten
    rw [hread] at hread'
    cases hread'
    cases hwrote with
    | counted now _ henab hwritten' hfail =>
      rcases hsame with hsame | ⟨_, hinitial⟩
      · exact ⟨hhld, read, written, hsame, hread, hwritten, hwritten', hfail⟩
      · rw [hinitial] at henab
        cases henab
    | cleared => omega
  · cases hcounting

theorem Kept.not_counting (h : Kept service settings transaction)
    (hfree : transaction.holdsSettings = false) : transaction.counting = false := by
  by_contra hcounting
  rw [not_eq_false] at hcounting
  rw [(h.counting hcounting).1] at hfree
  cases hfree

theorem Orderly.counting_unique {transaction other : Transaction} (h : Orderly service store) (hmem : transaction ∈ store.running)
    (hoth : other ∈ store.running) (hhld : transaction.holdsSettings = true) (hne : other.id ≠ transaction.id) :
    other.counting = false := by
  refine (h.kept other hoth).not_counting ?_
  by_contra hheld
  rw [not_eq_false] at hheld
  exact hne (h.holder other hoth transaction hmem hheld hhld)

/-! ## One statement -/

section Statement

variable {transaction next : Transaction} {sessions : List UnlockSession} {ambient : Ambient}
  {sessionId operation payload password rawUnlockToken idToken newPassword currentPassword : String} {enabled : Bool}

/-- The statement after the read counts a comparison that failed, and clears the count on a proof only. -/
theorem authorizeWith_compared (hstg : transaction.stage = .rowRead)
    (hcall : transaction.call = .authorize sessionId operation payload password rawUnlockToken)
    (h : authorizeWith service sessions transaction sessionId operation payload password rawUnlockToken ambient = .goes next) :
    (∃ answer, next.stage = .done answer) ∧ next.id = transaction.id ∧ next.call = transaction.call ∧
      next.settings = transaction.settings ∧ next.holdsSettings = transaction.holdsSettings ∧
      ((transaction.comparison service sessions ambient.now = some false ∧ ∃ settings written, transaction.settings = some settings ∧
          settings.enabled = true ∧ settings.lockedUntil.any (ambient.now < ·) = false ∧ next.writes.settings = some written ∧
          written.enabled = true ∧ written.failedAttempts = settings.failedAttempts + 1 ∧
          (0 < passwordLockDuration written.failedAttempts →
            written.lockedUntil = some (ambient.now + passwordLockDuration written.failedAttempts))) ∨
        (transaction.comparison service sessions ambient.now ≠ some false ∧
          ∀ written, next.writes.settings = some written → ∃ settings, transaction.settings = some settings ∧
            written.failedAttempts = 0 ∧ written.lockedUntil = none ∧ Proven service transaction.call settings)) := by
  have hcompare : transaction.comparison service sessions ambient.now =
      (transaction.settings.filter (·.enabled)).bind fun settings =>
        if (unlockedSession service sessions sessionId rawUnlockToken ambient.now).isSome then none
        else if settings.lockedUntil.any (ambient.now < ·) || password = "" then none
        else settings.passwordHash.bind fun hash => (service.verifyTradePassword password hash).toOption := by
    unfold Transaction.comparison
    rw [hstg, hcall]
  unfold authorizeWith at h
  split at h
  · -- without protection there is nothing to compare
    rename_i hdisa
    cases h
    refine ⟨⟨_, rfl⟩, rfl, rfl, rfl, rfl, .inr ⟨?_, fun written hwritten => by cases hwritten⟩⟩
    rw [hcompare, hdisa]
    simp
  · rename_i settings henab
    obtain ⟨hsett, hon⟩ := filter_eq_some_iff.mp henab
    rw [henab, bind_some] at hcompare
    split at h
    · -- an unlocked session stands for the password
      rename_i session hsess
      cases h
      refine ⟨⟨_, rfl⟩, rfl, rfl, rfl, rfl, .inr ⟨?_, fun written hwritten => by cases hwritten⟩⟩
      rw [hcompare, hsess]
      simp
    · rename_i hnone
      rw [hnone] at hcompare
      split at h
      · cases h
      rename_i hopen
      split at h
      · cases h
      rename_i hpassword
      split at h
      · cases h
      rename_i hash hhash
      have hveri : transaction.comparison service sessions ambient.now =
          (service.verifyTradePassword password hash).toOption := by
        rw [hcompare, hhash]
        simp [hopen, hpassword]
      split at h
      · cases h
      · -- a wrong password: one more failure, and the lock that it earns
        rename_i hverify
        rw [hverify] at hveri
        cases h
        refine ⟨⟨_, rfl⟩, rfl, rfl, rfl, rfl, .inl ⟨hveri, settings, _, hsett, by simpa using hon,
          by simpa using hopen, rfl, by simpa using hon, rfl, ?_⟩⟩
        intro hpos
        exact if_pos hpos
      · rename_i hverify
        rw [hverify] at hveri
        cases h
        refine ⟨⟨_, rfl⟩, rfl, rfl, rfl, rfl, .inr ⟨?_, ?_⟩⟩
        · rw [hveri]
          simp [Except.toOption]
        · intro written hwritten
          cases hwritten
          refine ⟨settings, hsett, rfl, rfl, ?_⟩
          unfold Proven
          rw [hcall]
          exact ⟨hash, hhash, hverify⟩

theorem authorizeWith_ends {answer : Answer} (hstg : transaction.stage = .rowRead)
    (hcall : transaction.call = .authorize sessionId operation payload password rawUnlockToken)
    (h : authorizeWith service sessions transaction sessionId operation payload password rawUnlockToken ambient = .ends answer) :
    transaction.comparison service sessions ambient.now = none := by
  unfold Transaction.comparison
  rw [hstg, hcall]
  unfold authorizeWith at h
  split at h
  · cases h
  rename_i settings henab
  dsimp only
  rw [henab, bind_some]
  split at h
  · cases h
  rename_i hnone
  rw [hnone]
  split at h
  · rename_i hlkd
    simp [hlkd]
  · split at h
    · rename_i hpassword
      simp [hpassword]
    · split at h
      · rename_i hhash
        simp [hhash]
      · rename_i hash hhash
        split at h
        · rename_i message hverify
          simp [hhash, hverify, Except.toOption]
        · cases h
        · cases h

/-- A configuration goes on to write only where its comparison, if it makes one, succeeds. -/
theorem configureWith_compared (sessions : List UnlockSession) {settings : Settings} (hstg : transaction.stage = .rowRead)
    (hcall : transaction.call = .configure idToken enabled newPassword currentPassword)
    (hsett : transaction.settings = some settings)
    (h : configureWith service transaction settings enabled newPassword currentPassword ambient = .goes next) :
    transaction.comparison service sessions ambient.now ≠ some false ∧
      ∃ written, next = { transaction with stage := .settingsWritten, writes := { settings := some written, change := true } } ∧
        written.failedAttempts = 0 ∧ written.lockedUntil = none ∧
        (settings.enabled = false ∨ Proven service transaction.call settings) := by
  have hcompare : transaction.comparison service sessions ambient.now =
      if settings.enabled = enabled && newPassword = "" then none
      else if !settings.enabled || (enabled && newPassword = "") || currentPassword = "" then none
      else settings.passwordHash.bind fun hash => (service.verifyTradePassword currentPassword hash).toOption := by
    unfold Transaction.comparison
    rw [hstg, hcall, hsett]
    rfl
  unfold configureWith at h
  split at h
  · cases h
  rename_i hchgs
  rw [if_neg hchgs] at hcompare
  split at h
  · cases h
  rename_i hveri
  have hproof : transaction.comparison service sessions ambient.now ≠ some false ∧
      (settings.enabled = false ∨ Proven service transaction.call settings) := by
    unfold verifyCurrentPasswordForConfiguration at hveri
    split at hveri
    · rename_i hfree
      refine ⟨?_, .inl ?_⟩
      · rw [hcompare, if_pos (by rw [hfree]; rfl)]
        simp
      · -- Under protection nothing but the same again is without a new password.
        by_contra hon
        rw [not_eq_false] at hon
        simp only [hon, Bool.not_true, Bool.false_or, Bool.and_eq_true, decide_eq_true_eq] at hfree hchgs
        exact hchgs ⟨hfree.1.symm, hfree.2⟩
    · rename_i hguarded
      rw [Bool.not_eq_true] at hguarded
      split at hveri
      · cases hveri
      rename_i hgiven
      split at hveri
      · cases hveri
      rename_i hash hhash
      have hverify : transaction.comparison service sessions ambient.now =
          (service.verifyTradePassword currentPassword hash).toOption := by
        rw [hcompare, hguarded, hhash]
        simp [hgiven]
      split at hveri
      · cases hveri
      · rename_i hright
        refine ⟨by rw [hverify, hright]; simp [Except.toOption], .inr ?_⟩
        unfold Proven
        rw [hcall]
        exact ⟨hash, hhash, hright⟩
      · cases hveri
  dsimp only at h
  split at h
  · cases h
  split at h
  · cases h
  · cases h
    exact ⟨hproof.1, _, rfl, rfl, rfl, hproof.2⟩

/-- A statement that goes on, under the lock it says. -/
structure Goes (service : Service) (store : Store) (transaction next : Transaction) : Prop where
  id : next.id = transaction.id
  call : next.call = transaction.call
  kept : Kept service store.settings next
  lock : next.holdsSettings = true → transaction.holdsSettings = true ∨ store.settingsHeld transaction.id = false

theorem Kept.unwritten (h : Kept service settings transaction)
    (hear : transaction.stage = .begun ∨ transaction.stage = .settingsInserted ∨ transaction.stage = .rowRead) :
    transaction.writes.settings = none := by
  cases hwritten : transaction.writes.settings with
  | none => rfl
  | some =>
    obtain ⟨hbegun, hins, hread⟩ := h.late (by rw [hwritten]; rfl)
    rcases hear with hstg | hstg | hstg
    · exact absurd hstg hbegun
    · exact absurd hstg hins
    · exact absurd hstg hread

theorem kept_of_unwritten (hnone : transaction.writes.settings = none)
    (hseen : ∀ read, transaction.settings = some read → transaction.holdsSettings = true ∧
      (settings = some read ∨ (settings = none ∧ read = initialSettings))) : Kept service settings transaction where
  seen := hseen
  late := by
    intro hsome
    rw [hnone] at hsome
    cases hsome
  wrote := by
    intro written hwritten
    rw [hnone] at hwritten
    cases hwritten

/-- A statement that leaves the settings, and what was written of them, alone. -/
theorem Kept.goes (h : Kept service store.settings transaction) (hid : next.id = transaction.id)
    (hcall : next.call = transaction.call) (hhld : next.holdsSettings = transaction.holdsSettings)
    (hsett : next.settings = transaction.settings) (hwrites : next.writes.settings = transaction.writes.settings)
    (hlate : next.stage ≠ .begun ∧ next.stage ≠ .settingsInserted ∧ next.stage ≠ .rowRead) : Goes service store transaction next where
  id := hid
  call := hcall
  kept := by
    refine ⟨?_, fun _ => hlate, ?_⟩
    · rw [hsett, hhld]
      exact h.seen
    · rw [hsett, hwrites, hcall]
      exact h.wrote
  lock := by
    intro hnext
    rw [hhld] at hnext
    exact .inl hnext

section Kept

variable (hkept : Kept service store.settings transaction)
include hkept

theorem authorize_goes (hcall : transaction.call = .authorize sessionId operation payload password rawUnlockToken)
    (h : authorize service store transaction sessionId operation payload password rawUnlockToken ambient = .goes next) :
    Goes service store transaction next := by
  unfold authorize at h
  cases hstg : transaction.stage with
  | begun =>
    rw [hstg] at h
    dsimp only at h
    split at h
    · cases h
    rename_i hfree
    cases h
    refine ⟨rfl, rfl, kept_of_unwritten (hkept.unwritten (.inl hstg)) ?_, ?_⟩
    · intro read hread
      have hsome : store.settings = some read := hread
      exact ⟨by show store.settings.isSome = true; rw [hsome]; rfl, .inl hsome⟩
    · intro hhld
      have hsome : store.settings.isSome = true := hhld
      rw [hsome, Bool.true_and, Bool.not_eq_true] at hfree
      exact .inr hfree
  | rowRead =>
    rw [hstg] at h
    dsimp only at h
    obtain ⟨⟨answer, hdone⟩, hid, hsame, hsett, hhld, hcompare⟩ := authorizeWith_compared hstg hcall h
    refine ⟨hid, hsame, ⟨?_, ?_, ?_⟩, ?_⟩
    · rw [hsett, hhld]
      exact hkept.seen
    · intro _
      rw [hdone]
      exact ⟨nofun, nofun, nofun⟩
    · intro written hwritten
      rw [hsett, hsame]
      rcases hcompare with ⟨_, settings, written', hread, hon, _, hwritten', hon', hfail, hlocks⟩ | ⟨_, hcleared⟩
      · rw [hwritten] at hwritten'
        cases hwritten'
        exact ⟨settings, hread, .counted ambient.now (by rw [hcall]; rfl) hon hon' hfail hlocks⟩
      · obtain ⟨settings, hread, hzero, hunlocked, hproven⟩ := hcleared written hwritten
        exact ⟨settings, hread, .cleared hzero hunlocked (.inr hproven)⟩
    · intro hnext
      rw [hhld] at hnext
      exact .inl hnext
  | _ =>
    rw [hstg] at h
    cases h

theorem configure_goes (hcall : transaction.call = .configure idToken enabled newPassword currentPassword)
    (h : configure service store transaction enabled newPassword currentPassword ambient = .goes next) :
    Goes service store transaction next := by
  unfold configure at h
  cases hstg : transaction.stage with
  | begun =>
    rw [hstg] at h
    dsimp only at h
    have hnone := hkept.unwritten (.inl hstg)
    split at h
    · cases h
      exact ⟨rfl, rfl, kept_of_unwritten hnone hkept.seen, fun hhld => .inl hhld⟩
    · rename_i hunset
      split at h
      · cases h
      rename_i hfree
      cases h
      refine ⟨rfl, rfl, kept_of_unwritten hnone ?_, fun _ => .inr (by simpa using hfree)⟩
      intro read hread
      cases hread
      exact ⟨rfl, .inr ⟨hunset, rfl⟩⟩
  | settingsInserted =>
    rw [hstg] at h
    dsimp only at h
    have hnone := hkept.unwritten (.inr (.inl hstg))
    split at h
    · cases h
      exact ⟨rfl, rfl, kept_of_unwritten hnone hkept.seen, fun hhld => .inl hhld⟩
    · split at h
      · cases h
      rename_i settings hset
      split at h
      · cases h
      rename_i hfree
      cases h
      refine ⟨rfl, rfl, kept_of_unwritten hnone ?_, fun _ => .inr (by simpa using hfree)⟩
      intro read hread
      cases hread
      exact ⟨rfl, .inl hset⟩
  | rowRead =>
    rw [hstg] at h
    dsimp only at h
    split at h
    · cases h
    rename_i settings hsett
    obtain ⟨_, written, rfl, hzero, hunlocked, hproof⟩ := configureWith_compared [] hstg hcall hsett h
    refine ⟨rfl, rfl, ⟨hkept.seen, fun _ => ⟨nofun, nofun, nofun⟩, ?_⟩, fun hhld => .inl hhld⟩
    intro written' hwritten
    cases hwritten
    exact ⟨settings, hsett, .cleared hzero hunlocked hproof⟩
  | settingsWritten | codeDeleted =>
    rw [hstg] at h
    cases h
    exact hkept.goes rfl rfl rfl rfl rfl ⟨nofun, nofun, nofun⟩
  | sessionsDeleted =>
    rw [hstg] at h
    dsimp only at h
    unfold deleteCode at h
    split at h
    · cases h
    · cases h
      exact hkept.goes rfl rfl rfl rfl rfl ⟨nofun, nofun, nofun⟩
  | done =>
    rw [hstg] at h
    cases h

theorem lock_goes (h : lock store transaction sessionId = .goes next) : Goes service store transaction next := by
  unfold lock at h
  cases hstg : transaction.stage with
  | begun | sessionsDeleted =>
    rw [hstg] at h
    cases h
    exact hkept.goes rfl rfl rfl rfl rfl ⟨nofun, nofun, nofun⟩
  | _ =>
    rw [hstg] at h
    cases h

end Kept

variable {now : Int}

theorem checkCode_unwritten {stored : RecoveryCode} {code : String} (hnone : transaction.writes.settings = none)
    (h : checkCode service transaction stored code now = .goes next) :
    next.id = transaction.id ∧ next.call = transaction.call ∧ next.settings = transaction.settings ∧
      next.holdsSettings = transaction.holdsSettings ∧ next.writes.settings = none := by
  unfold checkCode at h
  dsimp only at h
  split at h
  · cases h
    exact ⟨rfl, rfl, rfl, rfl, rfl⟩
  · split at h
    · split at h <;> cases h <;> exact ⟨rfl, rfl, rfl, rfl, rfl⟩
    · cases h
      exact ⟨rfl, rfl, rfl, rfl, hnone⟩

theorem confirmPasswordRecovery_goes {code : String} (hkept : Kept service store.settings transaction)
    (hcall : transaction.call = .confirmPasswordRecovery idToken code newPassword)
    (h : confirmPasswordRecovery service store transaction code newPassword ambient = .goes next) :
    Goes service store transaction next := by
  unfold confirmPasswordRecovery at h
  cases hstg : transaction.stage with
  | begun =>
    rw [hstg] at h
    dsimp only at h
    split at h
    · cases h
    split at h
    · cases h
    obtain ⟨hid, hsame, hsett, hhld, hnone⟩ := checkCode_unwritten (hkept.unwritten (.inl hstg)) h
    refine ⟨hid, hsame, kept_of_unwritten hnone ?_, ?_⟩
    · rw [hsett, hhld]
      exact hkept.seen
    · intro hnext
      rw [hhld] at hnext
      exact .inl hnext
  | rowRead =>
    rw [hstg] at h
    dsimp only at h
    split at h
    · cases h
    split at h
    · cases h
    rename_i settings hset
    split at h
    · cases h
    rename_i hfree
    cases h
    refine ⟨rfl, rfl, ⟨?_, fun _ => ⟨nofun, nofun, nofun⟩, ?_⟩, fun _ => .inr (by simpa using hfree)⟩
    · intro read hread
      cases hread
      exact ⟨rfl, .inl (filter_eq_some_iff.mp hset).1⟩
    · intro written hwritten
      cases hwritten
      refine ⟨settings, rfl, .cleared rfl rfl (.inr ?_)⟩
      unfold Proven
      dsimp only
      rw [hcall]
      exact trivial
  | settingsWritten =>
    rw [hstg] at h
    dsimp only at h
    unfold deleteCode at h
    split at h
    · cases h
    · cases h
      exact hkept.goes rfl rfl rfl rfl rfl ⟨nofun, nofun, nofun⟩
  | codeDeleted | sessionsDeleted =>
    rw [hstg] at h
    cases h
    exact hkept.goes rfl rfl rfl rfl rfl ⟨nofun, nofun, nofun⟩
  | _ =>
    rw [hstg] at h
    cases h

/-- **One statement** keeps what is known of its transaction. -/
theorem statement_goes (hkept : Kept service store.settings transaction)
    (h : statement service store transaction ambient = .goes next) : Goes service store transaction next := by
  unfold statement at h
  split at h
  · rename_i hcall
    exact authorize_goes hkept hcall h
  · rename_i hcall
    exact configure_goes hkept hcall h
  · exact lock_goes hkept h
  · rename_i hcall
    exact confirmPasswordRecovery_goes hkept hcall h

/-! ### What a statement has compared -/

theorem comparison_of_stage (h : transaction.stage ≠ .rowRead) : transaction.comparison service sessions now = none := by
  unfold Transaction.comparison
  split
  · rename_i hstg _
    exact absurd hstg h
  · rename_i hstg _
    exact absurd hstg h
  · rfl

/-- The calls that take a password. -/
def Call.compares : Call → Bool
  | .authorize .. => true
  | .configure .. => true
  | _ => false

theorem comparison_of_call (h : transaction.call.compares = false) : transaction.comparison service sessions now = none := by
  unfold Transaction.comparison
  split
  · rename_i _ hcall
    rw [hcall] at h
    cases h
  · rename_i _ hcall
    rw [hcall] at h
    cases h
  · rfl

theorem comparison_open (hcall : transaction.call = .authorize sessionId operation payload password rawUnlockToken)
    (h : (transaction.comparison service sessions now).isSome = true) :
    ∃ settings, transaction.settings = some settings ∧ settings.enabled = true ∧ settings.lockedUntil.any (now < ·) = false := by
  by_cases hstg : transaction.stage = .rowRead
  · unfold Transaction.comparison at h
    rw [hstg, hcall] at h
    dsimp only at h
    cases hfilter : transaction.settings.filter (·.enabled) with
    | none =>
      rw [hfilter] at h
      cases h
    | some settings =>
      obtain ⟨hsett, hon⟩ := filter_eq_some_iff.mp hfilter
      refine ⟨settings, hsett, by simpa using hon, ?_⟩
      rw [hfilter, bind_some] at h
      by_contra hlkd
      rw [not_eq_false] at hlkd
      simp [hlkd] at h
  · rw [comparison_of_stage hstg] at h
    cases h

theorem Goes.not_counting (h : Goes service store transaction next) (hcall : transaction.call.authorizes = false) :
    next.counting = false := by
  by_contra hcounting
  rw [not_eq_false] at hcounting
  obtain ⟨_, read, written, _, hread, hwritten, _, hfail⟩ := h.kept.counting hcounting
  obtain ⟨read', hread', hwrote⟩ := h.kept.wrote written hwritten
  cases hwrote with
  | counted now hauthorizes =>
    rw [h.call, hcall] at hauthorizes
    cases hauthorizes
  | cleared => omega

/-- **A statement counts a failure** exactly where it compares the password and it is wrong. -/
theorem statement_compared (hkept : Kept service store.settings transaction)
    (h : statement service store transaction ambient = .goes next) :
    (transaction.comparison service store.sessions ambient.now = some false ∧ ∃ settings written,
        transaction.settings = some settings ∧ next.settings = some settings ∧ settings.enabled = true ∧
        settings.lockedUntil.any (ambient.now < ·) = false ∧ next.writes.settings = some written ∧
        written.failedAttempts = settings.failedAttempts + 1 ∧
        (0 < passwordLockDuration written.failedAttempts →
          written.lockedUntil = some (ambient.now + passwordLockDuration written.failedAttempts))) ∨
      (transaction.comparison service store.sessions ambient.now ≠ some false ∧ next.counting = false) := by
  have hgoes := statement_goes hkept h
  unfold statement at h
  split at h
  · rename_i hcall
    unfold authorize at h
    cases hstg : transaction.stage with
    | begun =>
      rw [hstg] at h
      dsimp only at h
      split at h
      · cases h
      cases h
      refine .inr ⟨?_, ?_⟩
      · rw [comparison_of_stage (by rw [hstg]; exact nofun)]
        simp
      · unfold Transaction.counting
        dsimp only
        rw [hkept.unwritten (.inl hstg)]
        split
        · rename_i hsome
          cases hsome
        · rfl
    | rowRead =>
      rw [hstg] at h
      dsimp only at h
      obtain ⟨_, _, _, hsett, _, hcompare⟩ := authorizeWith_compared hstg hcall h
      rcases hcompare with ⟨hwrong, settings, written, hread, hon, hopen, hwritten, _, hfail, hlocks⟩ | ⟨hright, hcleared⟩
      · exact .inl ⟨hwrong, settings, written, hread, hsett.trans hread, hon, hopen, hwritten, hfail, hlocks⟩
      -- a right password clears the count, and what counts would have raised it
      · refine .inr ⟨hright, ?_⟩
        by_contra hcounting
        rw [not_eq_false] at hcounting
        obtain ⟨_, read, written, _, _, hwritten, _, hfail⟩ := hgoes.kept.counting hcounting
        obtain ⟨_, _, hzero, _⟩ := hcleared written hwritten
        omega
    | _ =>
      rw [hstg] at h
      cases h
  · rename_i hcall
    refine .inr ⟨?_, hgoes.not_counting (by rw [hcall]; rfl)⟩
    by_cases hstg : transaction.stage = .rowRead
    · unfold configure at h
      rw [hstg] at h
      dsimp only at h
      split at h
      · cases h
      · rename_i settings hsett
        exact (configureWith_compared store.sessions hstg hcall hsett h).1
    · rw [comparison_of_stage hstg]
      simp
  · rename_i hcall
    refine .inr ⟨?_, hgoes.not_counting (by rw [hcall]; rfl)⟩
    rw [comparison_of_call (by rw [hcall]; rfl)]
    simp
  · rename_i hcall
    refine .inr ⟨?_, hgoes.not_counting (by rw [hcall]; rfl)⟩
    rw [comparison_of_call (by rw [hcall]; rfl)]
    simp

theorem statement_ends {answer : Answer}
    (hcall : ∀ idToken enabled newPassword currentPassword,
      transaction.call ≠ .configure idToken enabled newPassword currentPassword)
    (h : statement service store transaction ambient = .ends answer) :
    transaction.comparison service store.sessions ambient.now = none := by
  by_cases hstg : transaction.stage = .rowRead
  · unfold statement at h
    split at h
    · rename_i hauthorize
      unfold authorize at h
      rw [hstg] at h
      exact authorizeWith_ends hstg hauthorize h
    · rename_i hconfigure
      exact absurd hconfigure (hcall _ _ _ _)
    · rename_i hlock
      exact comparison_of_call (by rw [hlock]; rfl)
    · rename_i hconfirm
      exact comparison_of_call (by rw [hconfirm]; rfl)
  · exact comparison_of_stage hstg

end Statement

/-! ## One step -/

theorem Orderly.fewer (h : Orderly service store) (hrng : store'.running.Sublist store.running)
    (hsett : store'.settings = store.settings) : Orderly service store' where
  ids := h.ids.sublist (hrng.map _)
  holder := fun first hfs other hoth => h.holder first (hrng.subset hfs) other (hrng.subset hoth)
  kept := by
    intro transaction hmem
    rw [hsett]
    exact h.kept transaction (hrng.subset hmem)
  disabled := by
    rw [hsett]
    exact h.disabled

theorem Orderly.oneHolder (h : Orderly service store) : OneHolder store.running := ⟨h.ids, h.holder⟩

variable {id : Nat}

theorem Orderly.begun {call : Call} (h : Orderly service store) (hfsh : store.running.any (·.id = id) = false) :
    Orderly service { store with
      running :=
        { id, call, stage := .begun, holdsSettings := false, holdsCode := false, settings := none, readAt := 0, writes := {} }
          :: store.running } where
  ids := (h.oneHolder.begun hfsh rfl).ids
  holder := (h.oneHolder.begun hfsh rfl).holder
  kept := by
    intro transaction hmem
    rcases mem_cons.mp hmem with rfl | hold
    · exact kept_of_unwritten rfl fun read hread => by cases hread
    · exact h.kept transaction hold
  disabled := h.disabled

theorem Orderly.advanced {transaction next : Transaction} (h : Orderly service store)
    (htx : store.transaction id = some transaction) (hgoes : Goes service store transaction next) :
    Orderly service { store with running := updateWhere (·.id = id) (fun _ => next) store.running } := by
  have hone := h.oneHolder.advanced htx hgoes.lock hgoes.id
  refine ⟨hone.ids, hone.holder, ?_, h.disabled⟩
  intro other hoth
  rcases advanced_cases hoth with ⟨hold, _⟩ | rfl
  · exact h.kept other hold
  · exact hgoes.kept

/-- A commit of written settings leaves nobody who has read others. -/
theorem Orderly.committed (h : Orderly service store) (htx : store.transaction id = some transaction)
    (hrng : store'.running = store.running.filter (·.id ≠ id))
    (hsett : store'.settings = transaction.writes.settings.or store.settings) : Orderly service store' := by
  obtain ⟨hmem, hid⟩ := transaction_mem htx
  cases hwritten : transaction.writes.settings with
  | none =>
    rw [hwritten, none_or] at hsett
    exact h.fewer (by rw [hrng]; exact filter_sublist) hsett
  | some written =>
    rw [hwritten, some_or] at hsett
    have hkept := h.kept transaction hmem
    obtain ⟨read, hread, hwrote⟩ := hkept.wrote written hwritten
    obtain ⟨hhld, _⟩ := hkept.seen read hread
    have hfewer : store'.running.Sublist store.running := by rw [hrng]; exact filter_sublist
    refine ⟨h.ids.sublist (hfewer.map _), fun first hfs other hoth =>
      h.holder first (hfewer.subset hfs) other (hfewer.subset hoth), ?_, ?_⟩
    · intro other hoth
      rw [hrng] at hoth
      obtain ⟨hold, hne⟩ := mem_filter.mp hoth
      have hnone : ∀ read', other.settings = some read' → False := by
        intro read' hread'
        have hsame := h.holder other hold transaction hmem ((h.kept other hold).seen read' hread').1 hhld
        rw [hsame, hid] at hne
        simp at hne
      refine ⟨fun read' hread' => (hnone read' hread').elim, (h.kept other hold).late, ?_⟩
      intro written' hwritten'
      obtain ⟨read', hread', _⟩ := (h.kept other hold).wrote written' hwritten'
      exact (hnone read' hread').elim
    · intro settings hsome hdisa
      rw [hsett] at hsome
      cases hsome
      cases hwrote with
      | counted now _ _ hon =>
        rw [hon] at hdisa
        cases hdisa
      | cleared hzero hunlocked => exact ⟨hzero, hunlocked⟩

theorem commit_settings (h : commit store id = some store') :
    ∃ transaction, store.transaction id = some transaction ∧ store'.running = store.running.filter (·.id ≠ id) ∧
      store'.settings = transaction.writes.settings.or store.settings := by
  unfold commit at h
  obtain ⟨transaction, htx, h⟩ := bind_eq_some_iff.mp h
  split at h
  · cases h
    exact ⟨transaction, htx, rfl, rfl⟩
  · cases h

/-- What a step does to the transactions and the settings. -/
inductive Moves (service : Service) (store : Store) : Action → Store → Prop where
  | same (action : Action) (store' : Store) : failure service store action = none → (∀ id, action ≠ .abort id) →
      store'.running = store.running → store'.settings = store.settings → Moves service store action store'
  | begun (id : Nat) (call : Call) : store.running.any (·.id = id) = false → Moves service store (.beginCall id call) { store with
      running :=
        { id, call, stage := .begun, holdsSettings := false, holdsCode := false, settings := none, readAt := 0, writes := {} }
          :: store.running }
  | gone (id : Nat) (ambient : Ambient) (transaction next : Transaction) : store.transaction id = some transaction →
      statement service store transaction ambient = .goes next → Moves service store (.advance id ambient)
        { store with running := Table.updateWhere (·.id = id) (fun _ => next) store.running }
  | ended (id : Nat) (ambient : Ambient) (transaction : Transaction) (answer : Answer) : store.transaction id = some transaction →
      statement service store transaction ambient = .ends answer → Moves service store (.advance id ambient) (store.over id answer)
  | committed (id : Nat) (transaction : Transaction) (store' : Store) : store.transaction id = some transaction →
      store'.running = store.running.filter (·.id ≠ id) → store'.settings = transaction.writes.settings.or store.settings →
      Moves service store (.commit id) store'
  | aborted (id : Nat) : Moves service store (.abort id) { store with running := store.running.filter (·.id ≠ id) }

/-- **What a step does.** -/
theorem step_moves {action : Action} (h : step service store action = some store') : Moves service store action store' := by
  cases action with
  | beginCall id call =>
    simp only [step, beginCall] at h
    split at h
    · cases h
    rename_i hfsh
    split at h
    · cases h
      exact .same _ _ rfl (fun _ => Action.noConfusion) rfl rfl
    · cases h
      exact .begun id call (by simpa using hfsh)
  | advance id ambient =>
    simp only [step, advance] at h
    obtain ⟨transaction, htx, h⟩ := bind_eq_some_iff.mp h
    split at h
    · cases h
    · rename_i next hgoes
      cases h
      exact .gone id ambient transaction next htx hgoes
    · rename_i answer hends
      cases h
      exact .ended id ambient transaction answer htx hends
  | commit id =>
    obtain ⟨transaction, htx, hrng, hsett⟩ := commit_settings h
    exact .committed id transaction store' htx hrng hsett
  | abort id =>
    cases h
    exact .aborted id
  | consume | cleanUp =>
    cases h
    exact .same _ _ rfl (fun _ => Action.noConfusion) rfl rfl
  | recoveryCode =>
    simp only [step] at h
    split at h
    · cases h
    · cases h
      exact .same _ _ rfl (fun _ => Action.noConfusion) rfl rfl

/-- **Every step keeps the transactions in order.** -/
theorem Orderly.step {action : Action} (h : Orderly service store) (hstep : TradeAuth.step service store action = some store') :
    Orderly service store' := by
  cases step_moves hstep with
  | same _ _ _ _ hrng hsett => exact h.fewer (by rw [hrng]) hsett
  | begun id call hfsh => exact h.begun hfsh
  | gone id ambient transaction next htx hgoes =>
    exact h.advanced htx (statement_goes (h.kept transaction (transaction_mem htx).1) hgoes)
  | ended | aborted => exact h.fewer filter_sublist rfl
  | committed id transaction _ htx hrng hsett => exact h.committed htx hrng hsett

end MarketLens.TradeAuth
