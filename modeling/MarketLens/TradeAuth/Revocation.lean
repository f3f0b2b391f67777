import MarketLens.TradeAuth.Statements

/-!
# Commits and runs

The lock on the settings keeps a call that has read them and a change apart, so a
change that commits leaves nothing of what was issued before. A call that found
no settings holds no lock: it is the one case the runs have to be clear of.
-/

namespace MarketLens.TradeAuth

open List Option Bool Table

variable {service : Service} {store store' : Store}

/-! ## One step -/

variable {transaction : Transaction}

theorem transaction_mem {id : Nat} (h : store.transaction id = some transaction) :
    transaction ∈ store.running ∧ transaction.id = id := by
  unfold Store.transaction at h
  exact ⟨mem_of_find?_eq_some h, by simpa using find?_some h⟩

structure OneHolder (running : List Transaction) : Prop where
  ids : (running.map (·.id)).Nodup
  holder : ∀ first ∈ running, ∀ other ∈ running, first.holdsSettings = true → other.holdsSettings = true → first.id = other.id

theorem advanced_cases {id : Nat} {next other : Transaction} (h : other ∈ updateWhere (·.id = id) (fun _ => next) store.running) :
    (other ∈ store.running ∧ other.id ≠ id) ∨ other = next := by
  rcases updateWhere_cases h with ⟨hold, hne⟩ | ⟨_, _, _, rfl⟩
  · exact .inl ⟨hold, by simpa using hne⟩
  · exact .inr rfl

/-- One that begins holds nothing. -/
theorem OneHolder.begun {running : List Transaction} (h : OneHolder running)
    (hfsh : running.any (·.id = transaction.id) = false) (hfree : transaction.holdsSettings = false) :
    OneHolder (transaction :: running) where
  ids := by
    rw [map_cons, nodup_cons]
    refine ⟨fun hmem => ?_, h.ids⟩
    obtain ⟨other, hoth, hsame⟩ := mem_map.mp hmem
    have hne := any_eq_false.mp hfsh other hoth
    simp [hsame] at hne
  holder := by
    intro first hfs other hoth hhld hhld'
    rcases mem_cons.mp hfs with rfl | hfs
    · rw [hfree] at hhld
      cases hhld
    · rcases mem_cons.mp hoth with rfl | hoth
      · rw [hfree] at hhld'
        cases hhld'
      · exact h.holder first hfs other hoth hhld hhld'

section Advanced

variable {id : Nat} {transaction next : Transaction} (h : OneHolder store.running)
  (htx : store.transaction id = some transaction)
  (hlock : next.holdsSettings = true → transaction.holdsSettings = true ∨ store.settingsHeld transaction.id = false)
include h htx hlock

theorem OneHolder.alone {other : Transaction} (hoth : other ∈ store.running) (hne : other.id ≠ id)
    (hhld : next.holdsSettings = true) : other.holdsSettings = false := by
  obtain ⟨hmem, hid⟩ := transaction_mem htx
  by_contra hheld
  rw [not_eq_false] at hheld
  rcases hlock hhld with hown | hfree
  · exact hne ((h.holder other hoth transaction hmem hheld hown).trans hid)
  · unfold Store.settingsHeld at hfree
    have hfalse := any_eq_false.mp hfree other hoth
    rw [hid, hheld] at hfalse
    simp [hne] at hfalse

theorem OneHolder.advanced (hsame : next.id = transaction.id) :
    OneHolder (updateWhere (·.id = id) (fun _ => next) store.running) where
  ids := by
    have hmap : (updateWhere (·.id = id) (fun _ => next) store.running).map (·.id) = store.running.map (·.id) :=
      map_updateWhere_of (fun old hold => by
        have hid : old.id = id := by simpa using hold
        rw [hsame, (transaction_mem htx).2, hid]) store.running
    rw [hmap]
    exact h.ids
  holder := by
    intro first hfs other hoth hhld hhld'
    rcases advanced_cases hfs with ⟨hold, hne⟩ | rfl <;> rcases advanced_cases hoth with ⟨hold', hne'⟩ | heq
    · exact h.holder first hold other hold' hhld hhld'
    · rw [heq] at hhld'
      rw [h.alone htx hlock hold hne hhld'] at hhld
      cases hhld
    · rw [h.alone htx hlock hold' hne' hhld] at hhld'
      cases hhld'
    · rw [heq]

end Advanced

theorem Sound.oneHolder (h : Sound store) : OneHolder store.running := ⟨h.ids, h.holder⟩

theorem Form.change_holds (h : Form transaction) (hchg : transaction.writes.change = true) :
    transaction.holdsSettings = true := by
  have hquiet : ¬ Quiet transaction.writes := by
    intro hquiet
    rw [hquiet.change] at hchg
    cases hchg
  unfold Form at h
  split at h
  · unfold AuthorizeForm at h
    split at h
    · exact absurd h.1 hquiet
    · exact absurd h hquiet
    · rw [h.change] at hchg
      cases hchg
    · exact h.elim
  · unfold ConfigureForm at h
    split at h
    · exact absurd h.1 hquiet
    · exact absurd h hquiet
    · exact h.2
    · exact h.holds
    · exact h.1.holds
    · exact h.1.holds
    · exact h.1.holds
  · exact absurd h.1 hquiet
  · unfold RecoveryForm at h
    split at h
    · exact absurd h.1 hquiet
    · exact h.elim
    · exact absurd h.1 hquiet
    · exact h.holds
    · exact h.holds
    · exact h.1.holds
    · rcases h with h | h
      · exact absurd h hquiet
      · exact h.1.holds

theorem Fits.fewer (h : Fits store transaction) (hsett : store'.settings = store.settings)
    (hchgs : store'.changes = store.changes)
    (hsesss : ∀ session ∈ store'.sessions, ∃ old ∈ store.sessions, session.id = old.id)
    (hauthzs : ∀ authorization ∈ store'.authorizations, authorization.consumedAt = none →
      authorization ∈ store.authorizations) : Fits store' transaction where
  form := h.form
  seen := by
    intro hread
    have hseen := h.seen hread
    unfold Seen at hseen ⊢
    rw [hsett, hchgs]
    exact hseen
  sessions := by
    intro ids hchg hids session hsess
    obtain ⟨old, hold, hid⟩ := hsesss session hsess
    rw [hid]
    exact h.sessions ids hchg hids old hold
  authorizations := fun ids hchg hids authorization hauthz hunus =>
    h.authorizations ids hchg hids authorization (hauthzs authorization hauthz hunus) hunus

/-- Other transactions and answers over the same rows. -/
theorem Sound.rerun (h : Sound store) {running : List Transaction} {answers : List (Nat × Answer)}
    (hone : OneHolder running) (hfits : ∀ transaction ∈ running, Fits store transaction) :
    Sound { store with running, answers } where
  ids := hone.ids
  holder := hone.holder
  fits := fun transaction htx =>
    (hfits transaction htx).fewer rfl rfl (fun session hsess => ⟨session, hsess, rfl⟩) fun _ hauthz _ => hauthz
  unset := h.unset
  revoked := ⟨h.revoked.authorizations, h.revoked.sessions, h.revoked.disabled⟩

/-- A transaction less. -/
theorem Sound.without (h : Sound store) (id : Nat) : Sound { store with running := store.running.filter (·.id ≠ id) } :=
  h.rerun ⟨h.ids.sublist (filter_sublist.map _), fun first hfs second hsec =>
    h.holder first (mem_of_mem_filter hfs) second (mem_of_mem_filter hsec)⟩
    fun transaction htx => h.fits transaction (mem_of_mem_filter htx)

/-- Answers are not part of what is promised. -/
theorem Sound.answered (h : Sound store) (answers : List (Nat × Answer)) : Sound { store with answers } :=
  h.rerun h.oneHolder h.fits

/-- Rows that are used up or cleaned away. -/
theorem Sound.fewer (h : Sound store) {sessions : List UnlockSession} {authorizations : List TradeAuthorization}
    (hsesss : ∀ session ∈ sessions, session ∈ store.sessions)
    (hauthzs : ∀ authorization ∈ authorizations, authorization.consumedAt = none → authorization ∈ store.authorizations) :
    Sound { store with sessions, authorizations } where
  ids := h.ids
  holder := h.holder
  fits := fun transaction htx =>
    (h.fits transaction htx).fewer rfl rfl (fun session hsess => ⟨session, hsesss session hsess, rfl⟩) hauthzs
  unset := h.unset
  revoked :=
    ⟨fun authorization hmem hunus => h.revoked.authorizations authorization (hauthzs authorization hmem hunus) hunus,
      fun session hmem => h.revoked.sessions session (hsesss session hmem),
      fun authorization hmem hunus => h.revoked.disabled authorization (hauthzs authorization hmem hunus) hunus⟩

theorem Sound.begun {id : Nat} {call : Call} (h : Sound store) (hfsh : store.running.any (·.id = id) = false) :
    Sound { store with
      running :=
        { id, call, stage := .begun, holdsSettings := false, holdsCode := false, settings := none, readAt := 0, writes := {} }
          :: store.running } := by
  refine h.rerun (h.oneHolder.begun hfsh rfl) fun transaction htx => ?_
  rcases mem_cons.mp htx with rfl | hold
  · refine .of_unchanged ?_ ?_ rfl
    · unfold Form
      cases call with
      | authorize | configure | lock | confirmPasswordRecovery => exact ⟨⟨rfl, rfl, rfl, rfl⟩, rfl⟩
    · intro hread
      unfold Transaction.hasRead at hread
      cases call <;> cases hread
  · exact h.fits transaction hold

theorem Sound.advanced {id : Nat} {transaction next : Transaction} (h : Sound store)
    (htx : store.transaction id = some transaction) (hnext : Next store transaction next) :
    Sound { store with running := updateWhere (·.id = id) (fun _ => next) store.running } := by
  refine h.rerun (h.oneHolder.advanced htx hnext.lock hnext.id) fun other hmem => ?_
  rcases advanced_cases hmem with ⟨hold, _⟩ | rfl
  · exact h.fits other hold
  · exact hnext.fits

/-! ## A commit -/

def committed (store : Store) (transaction : Transaction) (answers : List (Nat × Answer)) : Store :=
  { settings := transaction.writes.settings.or store.settings
    sessions := transaction.writes.sessionsAfter store.sessions
    authorizations := transaction.writes.authorizationsAfter store.authorizations
    code := transaction.writes.codeAfter store.code
    running := store.running.filter (·.id ≠ transaction.id)
    changes := store.changes + if transaction.writes.change then 1 else 0
    answers }

theorem Sound.others_free {transaction other : Transaction} (h : Sound store) (hmem : transaction ∈ store.running)
    (hhld : transaction.holdsSettings = true) (hoth : other ∈ store.running.filter (·.id ≠ transaction.id)) :
    other.holdsSettings = false ∧ other.writes.change = false := by
  obtain ⟨hold, hne⟩ := mem_filter.mp hoth
  have hne' : other.id ≠ transaction.id := by simpa using hne
  have hfree : other.holdsSettings = false := by
    cases hcase : other.holdsSettings with
    | false => rfl
    | true => exact absurd (h.holder other hold transaction hmem hcase hhld) hne'
  refine ⟨hfree, ?_⟩
  cases hcase : other.writes.change with
  | false => rfl
  | true =>
    have hheld := (h.fits other hold).form.change_holds hcase
    rw [hfree] at hheld
    cases hheld

/-- A call that holds nothing and changes nothing fits whatever the tables have become. -/
theorem Fits.free (h : Fits store transaction) (hfree : transaction.holdsSettings = false)
    (hchg : transaction.writes.change = false) : Fits store' transaction := by
  refine .of_unchanged h.form (fun hread => ?_) hchg
  rcases h.seen hread with hnone | ⟨hhld, _⟩
  · exact .inl hnone
  · rw [hfree] at hhld
    cases hhld

variable {answers : List (Nat × Answer)}

/-- A commit that changes no settings keeps what is promised, of what it issues too. -/
theorem Sound.committed_unchanged (h : Sound store) (hchg : transaction.writes.change = false)
    (hfits : ∀ other ∈ store.running.filter (·.id ≠ transaction.id), Fits (committed store transaction answers) other)
    (hkeeps : ∀ written, transaction.writes.settings = some written →
      ∃ settings, store.settings = some settings ∧ written.enabled = settings.enabled)
    (hissued : ∀ issued, transaction.writes.authorization = some issued → issued.readAt = store.changes ∧
      (issued.verificationMethod = .disabled → ∀ settings, store.settings = some settings → settings.enabled = false))
    (hsess : ∀ session, transaction.writes.session = some session → session.readAt = store.changes) :
    Sound (committed store transaction answers) := by
  have hchgs : (committed store transaction answers).changes = store.changes := by
    unfold committed
    rw [hchg]
    rfl
  have hwith := h.without transaction.id
  refine ⟨hwith.ids, hwith.holder, hfits, ?_, ?_, ?_, ?_⟩
  · intro hnone
    rw [hchgs]
    exact h.unset (or_eq_none_iff.mp hnone).2
  · intro authorization hin hunus
    rw [hchgs]
    rcases authorizationsAfter_mem hin with ⟨hold, _⟩ | hnew
    · exact h.revoked.authorizations authorization hold hunus
    · exact (hissued authorization hnew).1
  · intro session hin
    rw [hchgs]
    rcases sessionsAfter_readAt hin with ⟨old, hold, hsame⟩ | ⟨new, hnew, hsame⟩
    · rw [hsame]
      exact h.revoked.sessions old hold
    · rw [hsame]
      exact hsess new hnew
  · intro authorization hin hunus hmeth after haft
    have hback : ∃ settings, store.settings = some settings ∧ after.enabled = settings.enabled := by
      rcases or_eq_some_iff.mp haft with hwritten | ⟨_, hstrd⟩
      · exact hkeeps after hwritten
      · exact ⟨after, hstrd, rfl⟩
    obtain ⟨settings, hstrd, henab⟩ := hback
    rw [henab]
    rcases authorizationsAfter_mem hin with ⟨hold, _⟩ | hnew
    · exact h.revoked.disabled authorization hold hunus hmeth settings hstrd
    · exact (hissued authorization hnew).2 hmeth settings hstrd

theorem Sound.committed_quiet (h : Sound store)
    (hquiet : Quiet transaction.writes) : Sound (committed store transaction answers) := by
  refine h.committed_unchanged hquiet.change (fun other hoth => ?_) ?_ ?_ ?_
  · refine ((h.without transaction.id).fits other hoth).fewer ?_ ?_ (fun session hsess => ?_) fun authorization hmem _ => ?_
    · unfold committed
      rw [hquiet.settings]
      rfl
    · unfold committed
      rw [hquiet.change]
      rfl
    · obtain ⟨old, hold, hid, _⟩ := sessionsAfter_mem hquiet.session hsess
      exact ⟨old, hold, hid⟩
    · rcases authorizationsAfter_mem hmem with ⟨hold, _⟩ | hnew
      · exact hold
      · rw [hquiet.authorization] at hnew
        cases hnew
  · rw [hquiet.settings]
    exact nofun
  · rw [hquiet.authorization]
    exact nofun
  · rw [hquiet.session]
    exact nofun

/-- A change leaves nothing unused. -/
theorem Sound.committed_change (h : Sound store) (hmem : transaction ∈ store.running) (hchgs : Changes transaction)
    (hdeld : transaction.writes.deletedSessions.isSome = true)
    (hdeld' : transaction.writes.deletedAuthorizations.isSome = true) : Sound (committed store transaction answers) := by
  have hfits := h.fits transaction hmem
  obtain ⟨sessionIds, hsessionIds⟩ := isSome_iff_exists.mp hdeld
  obtain ⟨authorizationIds, hauthorizationIds⟩ := isSome_iff_exists.mp hdeld'
  have hsesss : (committed store transaction answers).sessions = [] :=
    sessionsAfter_deleted hchgs.session hsessionIds (hfits.sessions sessionIds hchgs.change hsessionIds)
  have hunus : ∀ authorization ∈ (committed store transaction answers).authorizations, authorization.consumedAt ≠ none := by
    intro authorization hin hunus
    rcases authorizationsAfter_mem hin with ⟨hold, hkept⟩ | hnew
    · exact hkept authorizationIds hauthorizationIds hunus
        (hfits.authorizations authorizationIds hchgs.change hauthorizationIds authorization hold hunus)
    · rw [hchgs.authorization] at hnew
      cases hnew
  have hwith := h.without transaction.id
  refine ⟨hwith.ids, hwith.holder, ?_, ?_, ?_, ?_, ?_⟩
  · intro other hoth
    obtain ⟨hfree, hchg⟩ := h.others_free hmem hchgs.holds hoth
    exact (hwith.fits other hoth).free hfree hchg
  · intro hnone
    obtain ⟨written, hwritten⟩ := isSome_iff_exists.mp hchgs.settings
    unfold committed at hnone
    rw [hwritten] at hnone
    cases hnone
  · exact fun authorization hin hconsumed => absurd hconsumed (hunus authorization hin)
  · intro session hsess
    rw [hsesss] at hsess
    cases hsess
  · exact fun authorization hin hconsumed => absurd hconsumed (hunus authorization hin)

/-- What a call issues that found no settings, while there are none still. -/
theorem Sound.committed_unset (h : Sound store)
    (hissues : Issues transaction) (hnone : transaction.settings = none) (hreadAt : transaction.readAt = 0)
    (hcov : ∀ authorization, transaction.writes.authorization = some authorization →
      store.settings = none ∧ ∀ other ∈ store.running, other.writes.change = true → other.writes.deletedAuthorizations = none) :
    Sound (committed store transaction answers) := by
  have hwritten : transaction.writes.settings = none := by
    cases hcase : transaction.writes.settings with
    | none => rfl
    | some written =>
      obtain ⟨settings, hsett, _⟩ := hissues.settings written hcase
      rw [hnone] at hsett
      cases hsett
  have hsess : transaction.writes.session = none := by
    cases hcase : transaction.writes.session with
    | none => rfl
    | some session =>
      have hsome := (hissues.session session hcase).2
      rw [hnone] at hsome
      cases hsome
  cases hauthz : transaction.writes.authorization with
  | none => exact h.committed_quiet ⟨hissues.change, hwritten, hauthz, hsess⟩
  | some issued =>
    obtain ⟨hunset, hoths⟩ := hcov issued hauthz
    refine h.committed_unchanged hissues.change (fun other hoth => ?_) ?_ (fun made hmade => ⟨?_, ?_⟩) ?_
    · have hfits := (h.without transaction.id).fits other hoth
      refine ⟨hfits.form, fun hread => ?_, fun ids hchg hids session hmem => ?_, fun ids hchg hids => ?_⟩
      · have hseen := hfits.seen hread
        unfold Seen committed at *
        rw [hwritten, hissues.change]
        exact hseen
      · obtain ⟨old, hold, hid, _⟩ := sessionsAfter_mem hsess hmem
        rw [hid]
        exact hfits.sessions ids hchg hids old hold
      · rw [hoths other (mem_of_mem_filter hoth) hchg] at hids
        cases hids
    · rw [hwritten]
      exact nofun
    · rw [(hissues.authorization made hmade).1, hreadAt, h.unset hunset]
    · rw [hunset]
      exact fun _ => nofun
    · rw [hsess]
      exact nofun

theorem Sound.committed_locked {settings : Settings} (h : Sound store)
    (hmem : transaction ∈ store.running) (hissues : Issues transaction) (hhld : transaction.holdsSettings = true)
    (hreadAt : transaction.readAt = store.changes) (hread : transaction.settings = some settings)
    (hstrd : store.settings = some settings) : Sound (committed store transaction answers) := by
  refine h.committed_unchanged hissues.change (fun other hoth => ?_) (fun written hwritten => ?_) (fun issued hauthz => ?_)
    fun session hsess => (hissues.session session hsess).1.trans hreadAt
  · obtain ⟨hfree, hchg⟩ := h.others_free hmem hhld hoth
    exact ((h.without transaction.id).fits other hoth).free hfree hchg
  · obtain ⟨seen, hseen, henab⟩ := hissues.settings written hwritten
    rw [hread] at hseen
    cases hseen
    exact ⟨settings, hstrd, henab⟩
  · obtain ⟨hat, hdisa⟩ := hissues.authorization issued hauthz
    refine ⟨hat.trans hreadAt, fun hmeth found hfnd => hdisa hmeth found ?_⟩
    rw [hread, ← hstrd, hfnd]

theorem Sound.commit {id : Nat} (h : Sound store) (hcov : Covered store (.commit id))
    (hcmt : commit store id = some store') : Sound store' := by
  unfold TradeAuth.commit at hcmt
  obtain ⟨transaction, htx, hcmt⟩ := bind_eq_some_iff.mp hcmt
  obtain ⟨hmem, hid⟩ := transaction_mem htx
  split at hcmt
  · rename_i answer hdone
    cases hcmt
    have hfits := h.fits transaction hmem
    have hsnd : Sound (committed store transaction (store.answers ++ [(id, answer)])) := by
      rcases hfits.form.commits hdone with hquiet | ⟨hchgs, hdeld, hdeld'⟩ | ⟨hissues, hread⟩
      · exact h.committed_quiet hquiet
      · exact h.committed_change hmem hchgs hdeld hdeld'
      · rcases hfits.seen hread with ⟨hnone, hzero⟩ | ⟨hhld, hreadAt, settings, hsett, hstrd⟩
        · exact h.committed_unset hissues hnone hzero fun authorization hauthz =>
            hcov transaction authorization htx hauthz hnone
        · exact h.committed_locked hmem hissues hhld hreadAt hsett hstrd
    unfold committed at hsnd
    rw [hid] at hsnd
    exact hsnd
  · cases hcmt

/-! ## Runs -/

theorem sound_start (h : Start store) (hunset : store.settings = none → store.changes = 0) : Sound store where
  ids := by
    rw [h.running]
    exact nodup_nil
  holder := by
    intro first hfs
    rw [h.running] at hfs
    cases hfs
  fits := by
    intro transaction htx
    rw [h.running] at htx
    cases htx
  unset := hunset
  revoked := h.revoked

/-- **Every step keeps what holds all along.** -/
theorem Sound.step {action : Action} (h : Sound store) (hcov : Covered store action)
    (hstep : step service store action = some store') : Sound store' := by
  cases action with
  | beginCall =>
    simp only [TradeAuth.step, beginCall] at hstep
    split at hstep
    · cases hstep
    rename_i hfsh
    split at hstep
    · cases hstep
      exact h.answered _
    · cases hstep
      exact h.begun (by simpa using hfsh)
  | advance id =>
    simp only [TradeAuth.step, advance] at hstep
    obtain ⟨transaction, htx, hstep⟩ := bind_eq_some_iff.mp hstep
    split at hstep
    · cases hstep
    · rename_i next hnext
      cases hstep
      exact h.advanced htx (statement_next (h.fits transaction (transaction_mem htx).1) h.unset hnext)
    · cases hstep
      exact (h.without id).answered _
  | commit => exact h.commit hcov hstep
  | abort id =>
    cases hstep
    exact h.without id
  | consume =>
    cases hstep
    refine h.fewer (fun _ hsess => hsess) ?_
    intro authorization hmem hunus
    rcases updateWhere_cases hmem with ⟨hold, _⟩ | ⟨_, _, _, rfl⟩
    · exact hold
    · cases hunus
  | cleanUp =>
    cases hstep
    exact h.fewer (fun _ hsess => mem_of_mem_filter hsess) fun _ hauthz _ => mem_of_mem_filter hauthz
  | recoveryCode =>
    simp only [TradeAuth.step] at hstep
    split at hstep
    · cases hstep
    cases hstep
    exact ⟨h.ids, h.holder, fun transaction htx => (h.fits transaction htx).fewer rfl rfl
        (fun session hsess => ⟨session, hsess, rfl⟩) fun _ hauthz _ => hauthz,
      h.unset, ⟨h.revoked.authorizations, h.revoked.sessions, h.revoked.disabled⟩⟩

/-- **Security changes revoke what was issued before them**, in every interleaving in which no
call that found no settings commits past the configuration that creates them. -/
theorem revoked_of_covered {start : Store} (hstart : Start start)
    (h : Runs.Reaches (step service) Covered start store) : Revoked store :=
  (h.invariant Sound (sound_start hstart fun _ => hstart.changes) fun _ _ _ hsound hcovered hstep =>
    hsound.step hcovered hstep).revoked

/-! ## A call before a change, and one across it -/

/-- `Covered`, as it is computed. -/
def isCovered (store : Store) : Action → Bool
  | .commit id =>
    (store.transaction id).all fun transaction =>
      transaction.writes.authorization.isNone || transaction.settings.isSome
        || (store.settings.isNone && store.running.all fun other => !other.writes.change || other.writes.deletedAuthorizations.isNone)
  | _ => true

theorem covered_of_isCovered (action : Action) (h : isCovered store action = true) : Covered store action := by
  cases action with
  | commit =>
    intro transaction authorization htx hauthz hnone
    simp only [isCovered, htx, all_some, hauthz, hnone, isNone_some, isSome_none,
      Bool.or_false, Bool.false_or, Bool.and_eq_true, Option.isNone_iff_eq_none, List.all_eq_true, Bool.or_eq_true,
      not_eq_true'] at h
    refine ⟨h.1, fun other hoth hchg => ?_⟩
    rcases h.2 other hoth with hfalse | hdeld
    · rw [hchg] at hfalse
      cases hfalse
    · exact hdeld
  | _ => trivial

/-- The service as it is for one password, one salt and one token, all zero bytes. -/
def zeroService : Service :=
  { userId := "trader"
    authorizationTTL := minute
    recoveryEmail := false
    recoveryHashKey := ""
    verifyUserIdentity := fun _ => .ok ⟨"", false⟩
    validateOperationPayload := fun _ _ => .ok ()
    toLower := id
    sha256 := fun _ => "0f007385b6f9d4b7eeb2748605afe1a984a0a3bfa3f014d09e2a784ce9e5cd1a"
    encodePassword := fun _ _ =>
      "$argon2id$v=19$m=19456,t=2,p=1$AAAAAAAAAAAAAAAAAAAAAA$hbX5BcR4VcARguIF6etTj3ZuB9aUAnozWKXV8K60XcU"
    verifyTradePassword := fun password _ => .ok (password = "correct horse battery")
    recoveryCodeHash := id }

def zeroAmbient : Ambient :=
  { now := 1700000000000000, salt := "", rawToken := "AAAAAAAAAAAAAAAAAAAAAAAAAAAAAAAAAAAAAAAAAAA"
    rawUnlockToken := "AAAAAAAAAAAAAAAAAAAAAAAAAAAAAAAAAAAAAAAAAAA", id := 1, unlockId := 2 }

def marketOrder : Call := .authorize "session" "command" "\x7b\"command\":1\x7d" "" ""

def protect : Call := .configure "identity" true "correct horse battery" ""

def unprotect : Call := .configure "identity" false "" "correct horse battery"

def emptyStore (settings : Option Settings) : Store := ⟨settings, [], [], none, [], 0, []⟩

theorem emptyStore_start (settings : Option Settings) : Start (emptyStore settings) where
  running := rfl
  changes := rfl
  revoked := ⟨nofun, nofun, nofun⟩

/-- A configuration from its first statement to its commit. -/
def configured (id : Nat) : List Action :=
  [.advance id zeroAmbient, .advance id zeroAmbient, .advance id zeroAmbient, .advance id zeroAmbient, .advance id zeroAmbient,
    .advance id zeroAmbient, .commit id]

/-- After protection was enabled and disabled a call authorizes a command without a password, and protection is enabled. -/
def authorizedBefore : List Action :=
  .beginCall 3 protect :: configured 3 ++ .beginCall 4 unprotect :: configured 4 ++
    [.beginCall 1 marketOrder, .advance 1 zeroAmbient, .advance 1 zeroAmbient, .commit 1, .beginCall 2 protect] ++ configured 2

theorem revoked_authorizedBefore : ∃ store,
    Runs.exec (step zeroService) isCovered (emptyStore none) authorizedBefore = some store
      ∧ store.changes = 3 ∧ Revoked store := by
  have hsome : (Runs.exec (step zeroService) isCovered (emptyStore none) authorizedBefore).map (·.changes) = some 3 := by
    decide +kernel
  obtain ⟨store, hexec, hchgs⟩ := map_eq_some_iff.mp hsome
  exact ⟨store, hexec, hchgs, revoked_of_covered (emptyStore_start none)
    (Runs.reaches_of_exec (fun _ action => covered_of_isCovered action) hexec)⟩

/-- A call has found no settings; protection is enabled; the call goes on. -/
def authorizedAcross : List Action :=
  [.beginCall 1 marketOrder, .advance 1 zeroAmbient, .beginCall 2 protect] ++ configured 2 ++ [.advance 1 zeroAmbient, .commit 1]

/-- Under protection there is an unused authorization that says protection is disabled. -/
def outlived (store : Store) : Bool :=
  store.settings.any (·.enabled)
    && store.authorizations.any fun authorization =>
      authorization.consumedAt.isNone && authorization.verificationMethod = .disabled

theorem not_revoked_of_outlived (h : outlived store = true) : ¬ Revoked store := by
  intro hrevoked
  unfold outlived at h
  simp only [Bool.and_eq_true, Option.any_eq_true, List.any_eq_true, Option.isNone_iff_eq_none, decide_eq_true_eq] at h
  obtain ⟨⟨settings, hsett, henab⟩, authorization, hmem, hunus, hmeth⟩ := h
  have hdisa := hrevoked.disabled authorization hmem hunus hmeth settings hsett
  rw [henab] at hdisa
  cases hdisa

/-- **A "disabled" authorization outlives the enabling of protection.** -/
theorem outlives_protection :
    ¬ ∀ start store, Start start → Runs.Reaches (step zeroService) Runs.always start store → Revoked store := by
  intro hall
  have hsome : (Runs.exec (step zeroService) (fun _ _ => true) (emptyStore none) authorizedAcross).map outlived = some true := by
    decide +kernel
  obtain ⟨store, hreaches, houtlived⟩ := Runs.reached_of_map hsome
  exact not_revoked_of_outlived houtlived (hall (emptyStore none) store (emptyStore_start none) hreaches)

end MarketLens.TradeAuth
