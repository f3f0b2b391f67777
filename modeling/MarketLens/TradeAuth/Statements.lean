import MarketLens.TradeAuth.Forms

/-!
# A statement keeps a transaction in form

What the statements of the four calls write, one call at a time: an authorization
is issued from the settings that were read, a change is made under the lock on
the settings, and its deletes see every row there is.
-/

namespace MarketLens.TradeAuth

open List Option Transaction

variable {service : Service} {store : Store}

/-! ## One statement -/

/-- What a statement of a call leaves of the transaction, and whose lock it takes. -/
structure Next (store : Store) (transaction next : Transaction) : Prop where
  id : next.id = transaction.id
  call : next.call = transaction.call
  fits : Fits store next
  lock : next.holdsSettings = true → transaction.holdsSettings = true ∨ store.settingsHeld transaction.id = false

theorem Fits.of_unchanged {transaction : Transaction} (hform : Form transaction)
    (hseen : transaction.hasRead = true → Seen store transaction) (hchg : transaction.writes.change = false) :
    Fits store transaction := by
  refine ⟨hform, hseen, ?_, ?_⟩
  · intro ids htrue
    rw [hchg] at htrue
    cases htrue
  · intro ids htrue
    rw [hchg] at htrue
    cases htrue

theorem Fits.of_undeleted {transaction : Transaction} (hform : Form transaction)
    (hseen : transaction.hasRead = true → Seen store transaction) (hsess : transaction.writes.deletedSessions = none)
    (hauthz : transaction.writes.deletedAuthorizations = none) : Fits store transaction := by
  refine ⟨hform, hseen, fun ids _ hids => ?_, fun ids _ hids => ?_⟩
  · rw [hsess] at hids
    cases hids
  · rw [hauthz] at hids
    cases hids

variable {transaction next : Transaction} {ambient : Ambient}

theorem authorizeWith_goes {sessions : List UnlockSession} {sessionId operation payload password rawUnlockToken : String}
    (h : authorizeWith service sessions transaction sessionId operation payload password rawUnlockToken ambient = .goes next) :
    (∃ answer, next.stage = .done answer) ∧ Issues next ∧ next.id = transaction.id ∧ next.call = transaction.call
      ∧ next.settings = transaction.settings ∧ next.readAt = transaction.readAt
      ∧ next.holdsSettings = transaction.holdsSettings := by
  unfold authorizeWith at h
  split at h
  · rename_i hdisa
    cases h
    refine ⟨⟨_, rfl⟩, ⟨rfl, rfl, rfl, nofun, ?_, nofun⟩, rfl, rfl, rfl, rfl, rfl⟩
    intro authorization hauthz
    cases hauthz
    refine ⟨rfl, fun _ settings hsett => ?_⟩
    have hfilter := filter_eq_none_iff.mp hdisa settings hsett
    simpa using hfilter
  · rename_i settings henab
    obtain ⟨hsett, _⟩ := filter_eq_some_iff.mp henab
    split at h
    · cases h
      refine ⟨⟨_, rfl⟩, ⟨rfl, rfl, rfl, nofun, ?_, nofun⟩, rfl, rfl, rfl, rfl, rfl⟩
      intro authorization hauthz
      cases hauthz
      exact ⟨rfl, nofun⟩
    · split at h
      · cases h
      split at h
      · cases h
      split at h
      · cases h
      split at h
      · cases h
      · cases h
        refine ⟨⟨_, rfl⟩, ⟨rfl, rfl, rfl, ?_, nofun, nofun⟩, rfl, rfl, rfl, rfl, rfl⟩
        intro written hwritten
        cases hwritten
        exact ⟨settings, hsett, rfl⟩
      · cases h
        refine ⟨⟨_, rfl⟩, ⟨rfl, rfl, rfl, ?_, ?_, ?_⟩, rfl, rfl, rfl, rfl, rfl⟩
        · intro written hwritten
          cases hwritten
          exact ⟨settings, hsett, rfl⟩
        · intro authorization hauthz
          cases hauthz
          exact ⟨rfl, nofun⟩
        · intro session hsess
          cases hsess
          exact ⟨rfl, by rw [hsett]; rfl⟩

theorem authorize_next {sessionId operation payload password rawUnlockToken : String}
    (hcall : transaction.call = .authorize sessionId operation payload password rawUnlockToken)
    (hfits : Fits store transaction) (hunset : store.settings = none → store.changes = 0)
    (h : authorize service store transaction sessionId operation payload password rawUnlockToken ambient = .goes next) :
    Next store transaction next := by
  have hform := hfits.form
  unfold Form at hform
  rw [hcall] at hform
  unfold authorize at h
  split at h
  · rename_i hstg
    have hquiet : Quiet transaction.writes ∧ transaction.holdsSettings = false := by
      unfold AuthorizeForm at hform
      rw [hstg] at hform
      exact hform
    split at h
    · cases h
    rename_i hfree
    cases h
    refine ⟨rfl, rfl, .of_unchanged ?_ ?_ hquiet.1.change, ?_⟩
    · unfold Form
      dsimp only
      rw [hcall]
      exact hquiet.1
    · intro _
      cases hsett : store.settings with
      | none => exact .inl ⟨rfl, hunset hsett⟩
      | some settings =>
        exact .inr ⟨rfl, rfl, settings, rfl, hsett⟩
    · intro hhld
      refine .inr ?_
      have hsome : store.settings.isSome = true := hhld
      rw [hsome] at hfree
      simpa using hfree
  · rename_i hstg
    obtain ⟨⟨answer, hdone⟩, hissues, hid, hcall', hsett, hreadAt, hhld⟩ := authorizeWith_goes h
    have hread : transaction.hasRead = true := by
      unfold hasRead
      rw [hcall, hstg]
    refine ⟨hid, hcall', .of_unchanged ?_ ?_ hissues.change, ?_⟩
    · unfold Form
      rw [hcall', hcall]
      show AuthorizeForm next
      unfold AuthorizeForm
      rw [hdone]
      exact hissues
    · intro _
      have hseen := hfits.seen hread
      unfold Seen at hseen ⊢
      rw [hsett, hreadAt, hhld]
      exact hseen
    · intro hhld'
      rw [hhld] at hhld'
      exact .inl hhld'
  · cases h

/-- A call that reads no settings it would have to see again, and the form it keeps. -/
structure Plain (transaction : Transaction) (form : Transaction → Prop) : Prop where
  form : ∀ other : Transaction, other.call = transaction.call → form other → Form other
  unread : ∀ other : Transaction, other.call = transaction.call → other.hasRead = false

section Plain

variable {form : Transaction → Prop} (h : Plain transaction form)
include h

theorem Plain.seen (hcall : next.call = transaction.call) (hread : next.hasRead = true) : Seen store next := by
  rw [h.unread next hcall] at hread
  cases hread

theorem Plain.quietly (hid : next.id = transaction.id) (hcall : next.call = transaction.call) (hform : form next)
    (hquiet : Quiet next.writes)
    (hlock : next.holdsSettings = true → transaction.holdsSettings = true ∨ store.settingsHeld transaction.id = false) :
    Next store transaction next :=
  ⟨hid, hcall, .of_unchanged (h.form next hcall hform) (h.seen hcall) hquiet.change, hlock⟩

theorem Plain.deletesCode {stage : Stage} (hfits : Fits store transaction) (hhld : transaction.holdsSettings = true)
    (hgoes : deleteCode store transaction stage = .goes next)
    (hform : ∀ holdsCode code, form { transaction with stage, holdsCode, writes := { transaction.writes with code } }) :
    Next store transaction next := by
  unfold deleteCode at hgoes
  split at hgoes
  · cases hgoes
  · cases hgoes
    exact ⟨rfl, rfl, ⟨h.form _ rfl (hform _ _), h.seen rfl, hfits.sessions, hfits.authorizations⟩, fun _ => .inl hhld⟩

variable (hfits : Fits store transaction) (hhld : transaction.holdsSettings = true) (hform : form next)
include hfits hhld hform

theorem Plain.deletesSessions {stage : Stage} (hgoes : deleteSessions store transaction none stage = .goes next) :
    Next store transaction next := by
  unfold deleteSessions at hgoes
  cases hgoes
  refine ⟨rfl, rfl, ⟨h.form _ rfl hform, h.seen rfl, ?_, hfits.authorizations⟩, fun _ => .inl hhld⟩
  intro ids _ hids session hsess
  cases hids
  exact mem_map.mpr ⟨session, mem_filter.mpr ⟨hsess, rfl⟩, rfl⟩

theorem Plain.deletesAuthorizations {answer : Answer} (hgoes : deleteAuthorizations store transaction none answer = .goes next) :
    Next store transaction next := by
  unfold deleteAuthorizations at hgoes
  cases hgoes
  refine ⟨rfl, rfl, ⟨h.form _ rfl hform, h.seen rfl, hfits.sessions, ?_⟩, fun _ => .inl hhld⟩
  intro ids _ hids authorization hauthz hunus
  cases hids
  refine mem_map.mpr ⟨authorization, mem_filter.mpr ⟨hauthz, ?_⟩, rfl⟩
  rw [hunus]
  rfl

end Plain

theorem Changes.deleting (h : Changes transaction)
    (hhld : next.holdsSettings = transaction.holdsSettings) (hchg : next.writes.change = transaction.writes.change)
    (hsett : next.writes.settings = transaction.writes.settings)
    (hauthz : next.writes.authorization = transaction.writes.authorization)
    (hsess : next.writes.session = transaction.writes.session) : Changes next :=
  ⟨hhld.trans h.holds, hchg.trans h.change, by rw [hsett]; exact h.settings, hauthz.trans h.authorization, hsess.trans h.session⟩

theorem configureWith_goes {settings : Settings} {enabled : Bool} {newPassword currentPassword : String}
    (h : configureWith service transaction settings enabled newPassword currentPassword ambient = .goes next) :
    ∃ written, next = { transaction with
      stage := .settingsWritten
      writes := { settings := some written, change := true } } := by
  unfold configureWith at h
  split at h
  · cases h
  split at h
  · cases h
  dsimp only at h
  split at h
  · cases h
  split at h
  · cases h
  · cases h
    exact ⟨_, rfl⟩

theorem configure_next {idToken newPassword currentPassword : String} {enabled : Bool}
    (hcall : transaction.call = .configure idToken enabled newPassword currentPassword)
    (hfits : Fits store transaction)
    (h : configure service store transaction enabled newPassword currentPassword ambient = .goes next) :
    Next store transaction next := by
  have hplain : Plain transaction ConfigureForm := by
    constructor <;> intro other hsame <;> simp [Form, hasRead, hsame, hcall]
  have hform := hfits.form
  unfold Form at hform
  rw [hcall] at hform
  unfold ConfigureForm at hform
  unfold configure at h
  cases hstg : transaction.stage with
  | begun =>
    rw [hstg] at h hform
    dsimp only at h hform
    split at h
    · cases h
      exact hplain.quietly rfl rfl hform.1 hform.1 fun hhld => .inl hhld
    · split at h
      · cases h
      rename_i hfree
      cases h
      exact hplain.quietly rfl rfl hform.1 hform.1 fun _ => .inr (by simpa using hfree)
  | settingsInserted =>
    rw [hstg] at h hform
    dsimp only at h hform
    split at h
    · rename_i hhld
      cases h
      exact hplain.quietly rfl rfl ⟨hform, hhld⟩ hform fun _ => .inl hhld
    · split at h
      · cases h
      split at h
      · cases h
      rename_i hfree
      cases h
      exact hplain.quietly rfl rfl ⟨hform, rfl⟩ hform fun _ => .inr (by simpa using hfree)
  | rowRead =>
    rw [hstg] at h hform
    dsimp only at h hform
    split at h
    · cases h
    · obtain ⟨written, rfl⟩ := configureWith_goes h
      exact ⟨rfl, rfl, .of_undeleted (hplain.form _ rfl ⟨hform.2, rfl, rfl, rfl, rfl⟩) (hplain.seen rfl) rfl rfl, fun hhld => .inl hhld⟩
  | settingsWritten =>
    rw [hstg] at h hform
    exact hplain.deletesSessions hfits hform.holds (by cases h; exact ⟨hform.deleting rfl rfl rfl rfl rfl, rfl⟩) h
  | sessionsDeleted =>
    rw [hstg] at h hform
    exact hplain.deletesCode hfits hform.1.holds h fun _ _ => ⟨hform.1.deleting rfl rfl rfl rfl rfl, hform.2⟩
  | codeDeleted =>
    rw [hstg] at h hform
    exact hplain.deletesAuthorizations hfits hform.1.holds
      (by cases h; exact ⟨hform.1.deleting rfl rfl rfl rfl rfl, hform.2, rfl⟩) h
  | done =>
    rw [hstg] at h
    cases h

theorem lock_next {sessionId : String} (hcall : transaction.call = .lock sessionId)
    (hfits : Fits store transaction) (h : lock store transaction sessionId = .goes next) : Next store transaction next := by
  have hform := hfits.form
  unfold Form at hform
  rw [hcall] at hform
  have hnext : next.id = transaction.id ∧ next.call = transaction.call ∧ next.holdsSettings = transaction.holdsSettings
      ∧ Quiet next.writes := by
    unfold lock at h
    split at h
    · unfold deleteSessions at h
      cases h
      exact ⟨rfl, rfl, rfl, hform.1.change, hform.1.settings, hform.1.authorization, hform.1.session⟩
    · unfold deleteAuthorizations at h
      cases h
      exact ⟨rfl, rfl, rfl, hform.1.change, hform.1.settings, hform.1.authorization, hform.1.session⟩
    · cases h
  obtain ⟨hid, hsame, hhld, hquiet⟩ := hnext
  have hplain : Plain transaction LockForm := by
    constructor <;> intro other hsame <;> simp [Form, hasRead, hsame, hcall]
  exact hplain.quietly hid hsame ⟨hquiet, hhld.trans hform.2⟩ hquiet fun htrue => .inl (hhld ▸ htrue)

theorem checkCode_goes {stored : RecoveryCode} {code : String} {now : Int}
    (hquiet : Quiet transaction.writes) (h : checkCode service transaction stored code now = .goes next) :
    next.id = transaction.id ∧ next.call = transaction.call ∧ next.holdsSettings = transaction.holdsSettings
      ∧ Quiet next.writes ∧ (next.stage = .rowRead ∨ ∃ answer, next.stage = .done answer) := by
  unfold checkCode at h
  dsimp only at h
  split at h
  · cases h
    exact ⟨rfl, rfl, rfl, ⟨rfl, rfl, rfl, rfl⟩, .inr ⟨_, rfl⟩⟩
  · split at h
    · split at h
      · cases h
        exact ⟨rfl, rfl, rfl, ⟨rfl, rfl, rfl, rfl⟩, .inr ⟨_, rfl⟩⟩
      · cases h
        exact ⟨rfl, rfl, rfl, ⟨rfl, rfl, rfl, rfl⟩, .inr ⟨_, rfl⟩⟩
    · cases h
      exact ⟨rfl, rfl, rfl, hquiet, .inl rfl⟩

theorem confirmPasswordRecovery_next {idToken code newPassword : String}
    (hcall : transaction.call = .confirmPasswordRecovery idToken code newPassword) (hfits : Fits store transaction)
    (h : confirmPasswordRecovery service store transaction code newPassword ambient = .goes next) :
    Next store transaction next := by
  have hplain : Plain transaction RecoveryForm := by
    constructor <;> intro other hsame <;> simp [Form, hasRead, hsame, hcall]
  have hform := hfits.form
  unfold Form at hform
  rw [hcall] at hform
  unfold RecoveryForm at hform
  unfold confirmPasswordRecovery at h
  cases hstg : transaction.stage with
  | begun =>
    rw [hstg] at h hform
    dsimp only at h hform
    split at h
    · cases h
    split at h
    · cases h
    obtain ⟨hid, hsame, hhld, hquiet, hstages⟩ := checkCode_goes hform.1 h
    refine hplain.quietly hid hsame ?_ hquiet fun htrue => .inl (hhld ▸ htrue)
    unfold RecoveryForm
    rcases hstages with hnext | ⟨answer, hnext⟩
    · rw [hnext]
      exact ⟨hquiet, hhld.trans hform.2⟩
    · rw [hnext]
      exact .inl hquiet
  | settingsInserted =>
    rw [hstg] at hform
    exact hform.elim
  | rowRead =>
    rw [hstg] at h hform
    dsimp only at h hform
    split at h
    · cases h
    split at h
    · cases h
    split at h
    · cases h
    rename_i hfree
    cases h
    exact ⟨rfl, rfl, .of_undeleted (hplain.form _ rfl ⟨rfl, rfl, rfl, rfl, rfl⟩) (hplain.seen rfl) rfl rfl,
      fun _ => .inr (by simpa using hfree)⟩
  | settingsWritten =>
    rw [hstg] at h hform
    exact hplain.deletesCode hfits hform.holds h fun _ _ => hform.deleting rfl rfl rfl rfl rfl
  | codeDeleted =>
    rw [hstg] at h hform
    exact hplain.deletesSessions hfits hform.holds (by cases h; exact ⟨hform.deleting rfl rfl rfl rfl rfl, rfl⟩) h
  | sessionsDeleted =>
    rw [hstg] at h hform
    exact hplain.deletesAuthorizations hfits hform.1.holds
      (by cases h; exact .inr ⟨hform.1.deleting rfl rfl rfl rfl rfl, hform.2, rfl⟩) h
  | done =>
    rw [hstg] at h
    cases h

/-- **One statement** takes a transaction on, under the locks it says. -/
theorem statement_next (hfits : Fits store transaction) (hunset : store.settings = none → store.changes = 0)
    (h : statement service store transaction ambient = .goes next) : Next store transaction next := by
  unfold statement at h
  split at h
  · rename_i hcall
    exact authorize_next hcall hfits hunset h
  · rename_i hcall
    exact configure_next hcall hfits h
  · rename_i hcall
    exact lock_next hcall hfits h
  · rename_i hcall
    exact confirmPasswordRecovery_next hcall hfits h

end MarketLens.TradeAuth
