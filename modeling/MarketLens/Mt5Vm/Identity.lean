import MarketLens.Mt5Vm.Invariants

/-!
# One live terminal for a broker identity

The identity index sees one identity of an account: the one it reserves, and the one it is
registered under only while it reserves none. `identity_exclusive`: as long as no account
takes up an identity that a live account is registered under or reserves, no two accounts
registered under one identity are bound, and no abort is refused by the index.
-/

namespace MarketLens.Mt5Vm

open List Option Bool Table Runs Account Connection Store Fallible Relation World

variable {settings : Settings} {s s' : World} {act : Action} {gate : Bool}

/-! ## The identities of an account -/

/-- The identity an account is registered under, and the one it reserves. -/
def Connection.identities (row : Connection) : List Fingerprint :=
  row.identity.toList ++ (row.reservation.map Reservation.identity).toList

/-- A live account keeps its identities from the others. -/
def Connection.holds (row : Connection) (identity : Fingerprint) : Bool :=
  row.status.live && row.identities.contains identity

def World.free (s : World) (accountId : AccountId) (identity : Fingerprint) : Bool :=
  s.accounts.all fun a => a.accountId = accountId || !a.connection.holds identity

/-- The sweep queues the account again, whatever status it is in. -/
def Account.revived (s : World) (a : Account) : Bool :=
  a.connection.disconnectRequestedRevision.isNone && a.connection.persistence = .managed && a.lease.any fun held =>
    a.connection.leaseGeneration = held.generation && held.lapsed (s.workers.map (·.expire s.now)) s.now

/-- The request takes over an account nobody has given credentials yet, or a stale reservation. -/
def Account.takenOver (s : World) (a : Account) : Bool :=
  let decision := reservationRetryDecision a.registry.secretRef.isSome a.connection.reservation.isSome
    (a.connection.reservation.any (·.fresh s.now))
  decision = .recoverPending || decision = .claimFresh

/-- The identities the account takes up by the transaction. -/
def Account.takes (s : World) (act : Action) (a : Account) : List Fingerprint :=
  match act with
  | .reserve _ request =>
    if a.accountId = request.accountId then
      if request.expectedRevision = 0 then (if a.takenOver s then a.connection.identities else [])
      else if a.connection.status.live then (decodeIdentityFingerprint request.identityFingerprint).toList
      else []
    else []
  | .activate _ request =>
    if a.accountId = request.accountId then (decodeIdentityFingerprint request.identityFingerprint).toList else []
  | .reconnect _ request => if a.accountId = request.accountId then a.connection.identity.toList else []
  | .sweep => if a.revived s then a.connection.identities else []
  | _ => []

def createdIdentity (s : World) : Action → Option Fingerprint
  | .reserve _ request =>
    if (s.account? request.accountId).isNone then decodeIdentityFingerprint request.identityFingerprint else none
  | _ => none

/-- No account takes up an identity that a live account has, or that another takes up with it. -/
def takesFree (s : World) (act : Action) : Bool :=
  (createdIdentity s act).all (fun identity => s.accounts.all fun a => !a.connection.holds identity)
    && s.accounts.all fun a => (a.takes s act).all fun identity =>
      s.free a.accountId identity && s.accounts.all fun b => b.accountId = a.accountId || !(b.takes s act).contains identity

/-! ## The invariant -/

/-- No identity is held by two accounts. -/
def Exclusive (accounts : List Account) : Prop :=
  ∀ a ∈ accounts, ∀ b ∈ accounts, a.accountId ≠ b.accountId → ∀ identity,
    a.connection.holds identity = true → b.connection.holds identity = true → False

variable {identity : Fingerprint}

theorem holds_iff {row : Connection} :
    row.holds identity = true ↔ row.status.live = true
      ∧ (row.identity = some identity ∨ row.reservation.map Reservation.identity = some identity) := by
  simp [holds, identities]

theorem indexedIdentity_holds {a : Account} (h : a.indexedIdentity = some identity) : a.connection.holds identity = true := by
  unfold indexedIdentity at h
  split at h
  · rename_i hlive
    refine holds_iff.mpr ⟨hlive, ?_⟩
    unfold currentIdentity at h
    cases hresv : a.connection.reservation.map Reservation.identity with
    | none =>
      rw [hresv] at h
      exact .inl h
    | some =>
      rw [hresv] at h
      exact .inr h
  · cases h

variable {accounts : List Account}

theorem Exclusive.unique (h : Exclusive accounts)
    (hids : (accounts.map Account.accountId).Nodup) : identitiesUnique accounts = true := by
  rw [identitiesUnique_iff hids]
  intro a ha b hb hoth identity hident hident'
  exact h a ha b hb hoth identity (indexedIdentity_holds hident) (indexedIdentity_holds hident')

theorem holds_of {row row' : Connection} (h : row'.holds identity = true)
    (hlive : row'.status.live = true → row.status.live = true) (hident : row'.identity = row.identity)
    (hresvn : row'.reservation = row.reservation) : row.holds identity = true := by
  obtain ⟨hlive', hnam⟩ := holds_iff.mp h
  rw [hident, hresvn] at hnam
  exact holds_iff.mpr ⟨hlive hlive', hnam⟩

theorem mem_identities {row : Connection} :
    identity ∈ row.identities ↔ row.identity = some identity ∨ row.reservation.map Reservation.identity = some identity := by
  simp [identities]

/-- **What an account holds after a move it held before, or takes up.** -/
theorem Move.holds {a : Account} {row' : Connection} {lease' : Option Lease} (ha : a ∈ s.accounts)
    (hmove : Move s act gate a.connection a.lease row' lease') (hasg : Assigned a.connection a.lease)
    (h : row'.holds identity = true) : a.connection.holds identity = true ∨ identity ∈ a.takes s act := by
  have hbnd : ∀ workerId, a.connection.workerId = some workerId → a.connection.status.live = true := hasg.live
  cases hmove with
  | keep | renew => exact .inl h
  | fence =>
    refine .inl ?_
    split at h
    · rename_i hrequ
      rw [and_eq_true, decide_eq_true_eq] at hrequ
      exact holds_of h (fun _ => hbnd _ hrequ.1) rfl rfl
    · exact h
  | @lapse held hact hls hlaps =>
    -- Only a managed account is live again after a lapse: it takes up its identity.
    split at h
    · rename_i hrequ
      rw [and_eq_true, decide_eq_true_eq] at hrequ
      obtain ⟨hlive, hnam⟩ := holds_iff.mp h
      have hmanaged : a.connection.persistence = .managed := by
        cases hpersistence : a.connection.persistence with
        | managed => rfl
        | session =>
          rw [requeue, hpersistence] at hlive
          cases hlive
      refine .inr ?_
      subst hact
      have hrevived : a.revived s = true := by
        rw [revived, hrequ.2, hmanaged, hls, any_some, hlaps, hrequ.1]
        simp
      rw [takes, if_pos hrevived]
      exact mem_identities.mpr hnam
    · exact .inl h
  | place hact hwtg =>
    simp only [waiting, and_eq_true, or_eq_true, decide_eq_true_eq] at hwtg
    refine .inl (holds_of h (fun _ => ?_) rfl rfl)
    rcases hwtg.1.1 with hqueu | hreconnecting
    · rw [hqueu]
      rfl
    · rw [hreconnecting]
      rfl
  | advance hadv =>
    obtain ⟨workerId, hwkr⟩ := hadv.bound
    exact .inl (holds_of h (fun _ => hbnd workerId hwkr.1) rfl rfl)
  | stop =>
    refine .inl ?_
    unfold Connection.stop at h
    split at h
    · cases (holds_iff.mp h).1
    · exact h
  | recover hact hacct hfs hunb hresv hstale =>
    refine .inr ?_
    subst hact
    have htak : a.takenOver s = true := by
      rw [takenOver, hresv, hstale]
      rfl
    have hname : a.accountId = _ := hacct.symm
    rw [takes, if_pos hname, if_pos hfs, if_pos htak]
    have hnam := (holds_iff.mp h).2
    unfold recoverReservation at hnam
    rw [Option.map_map] at hnam
    exact mem_identities.mpr hnam
  | @claim adminToken request claimed server hact hacct hfs hident hunb hresv hown hsecretless =>
    refine .inr ?_
    subst hact
    have htak : a.takenOver s = true := by
      rw [takenOver, hresv, hsecretless a ha rfl]
      rfl
    have hname : a.accountId = _ := hacct.symm
    rw [takes, if_pos hname, if_pos hfs, if_pos htak]
    refine mem_identities.mpr (.inl ?_)
    rcases (holds_iff.mp h).2 with hsame | hsame
    · exact hsame
    · rw [hown]
      exact hsame
  | @replace adminToken request reserved server hact hacct hlat hident =>
    obtain ⟨hlive, hnam⟩ := holds_iff.mp h
    rcases hnam with hsame | hsame
    · exact .inl (holds_iff.mpr ⟨hlive, .inl hsame⟩)
    · refine .inr ?_
      subst hact
      have hname : a.accountId = _ := hacct.symm
      rw [takes, if_pos hname, if_neg hlat, if_pos (show a.connection.status.live = true from hlive), hident]
      exact mem_singleton.mpr (some.inj hsame).symm
  | @activate adminToken request registered server hact hacct hident =>
    refine .inr ?_
    subst hact
    have hname : a.accountId = _ := hacct.symm
    rw [takes, if_pos hname, hident]
    rcases (holds_iff.mp h).2 with hsame | hsame
    · exact mem_singleton.mpr (some.inj hsame).symm
    · cases hsame
  | abort =>
    obtain ⟨hlive, hnam⟩ := holds_iff.mp h
    rcases hnam with hsame | hsame
    · exact .inl (holds_iff.mpr ⟨hlive, .inl hsame⟩)
    · cases hsame
  | reconnect hact hacct hunb hresv =>
    refine .inr ?_
    subst hact
    have hname : a.accountId = _ := hacct.symm
    rw [takes, if_pos hname]
    rcases (holds_iff.mp h).2 with hsame | hsame
    · exact mem_toList.mpr hsame
    · rw [show (Connection.reconnect a.connection).reservation = none from hresv] at hsame
      cases hsame
  | disconnect =>
    refine .inl (holds_of h (fun hlive => ?_) rfl rfl)
    cases hwkr : a.connection.workerId with
    | none =>
      rw [Connection.fenceDisconnect, hwkr] at hlive
      cases hlive
    | some workerId => exact hbnd workerId hwkr
  | @prepareDelete adminToken request stopping hact hacct hstopping =>
    refine .inl (holds_of h (fun hlive => ?_) rfl rfl)
    cases stopping with
    | false => cases hlive
    | true =>
      have hwkr := (and_eq_true_iff.mp hstopping.symm).1
      obtain ⟨workerId, hwkr⟩ := isSome_iff_exists.mp hwkr
      exact hbnd workerId hwkr

/-! ## Runs -/

structure Sourced (s : World) (act : Action) (origin a : Account) : Prop where
  account : a.accountId = origin.accountId
  assigned : Assigned a.connection a.lease
  holds : ∀ identity, a.connection.holds identity = true →
    origin.connection.holds identity = true ∨ identity ∈ origin.takes s act

theorem Sourced.same {origin a a' : Account} (h : Sourced s act origin a) (hasg : Assigned a'.connection a'.lease)
    (hacct : a'.accountId = a.accountId)
    (hhld : ∀ identity, a'.connection.holds identity = true → a.connection.holds identity = true) :
    Sourced s act origin a' :=
  ⟨hacct.trans h.account, hasg, fun identity hident => h.holds identity (hhld identity hident)⟩

theorem Change.sourced (hids : (s.accounts.map Account.accountId).Nodup) {origin a a' : Account}
    (horig : origin ∈ s.accounts) (h : Sourced s act origin a) (hchg : Change s act a a') :
    Sourced s act origin a' := by
  have hmvd := hchg.moved
  have hasg := hmvd.assigned h.assigned
  have hacct := hchg.accountId
  have hkept : a'.connection = a.connection → Sourced s act origin a' := by
    intro hconn
    refine h.same hasg hacct fun identity hident => ?_
    rw [hconn] at hident
    exact hident
  have hlive : (a.connection.status.live = true) → a'.connection.identity = a.connection.identity →
      a'.connection.reservation = a.connection.reservation → Sourced s act origin a' :=
    fun hlive hident hresvn => h.same hasg hacct fun identity hhld => holds_of hhld (fun _ => hlive) hident hresvn
  cases hchg with
  | keep hfrm hconn | observe hact hfrm hconn => exact hkept hconn
  | renew => exact hkept rfl
  | move hfnd hfrm hobs hmove =>
    obtain ⟨found, hfnd, hconn, hls, -⟩ := hfnd
    -- the account found is the origin itself
    have hsame : found = origin := by
      refine account_unique hids hfnd horig (Eq.trans ?_ h.account)
      rw [Account.accountId, hconn]
      rfl
    subst hsame
    rw [← hconn, ← hls] at hmove
    refine ⟨hacct.trans h.account, hasg, fun identity hident => ?_⟩
    have horiginal := h.assigned
    rw [← hconn, ← hls] at horiginal
    exact hmove.holds hfnd horiginal hident
  | activate hact ha hacct' hident =>
    have hsame : a = origin := account_unique hids ha horig h.account
    subst hsame
    exact ⟨hacct.trans h.account, hasg, fun identity hident => hmvd.holds ha h.assigned hident⟩
  | place hact hwtg =>
    simp only [waiting, and_eq_true, or_eq_true, decide_eq_true_eq] at hwtg
    refine hlive ?_ rfl rfl
    rcases hwtg.1.1 with hstat | hstat
    · rw [hstat]
      rfl
    · rw [hstat]
      rfl
  | pair hact htoken =>
    simp only [PairingToken.assigned, assignedTo, and_eq_true, decide_eq_true_eq] at htoken
    exact hlive (h.assigned.live _ htoken.1.1.1.1.1.1) rfl rfl
  | ready hgate hwkr =>
    rcases a.advanceReadiness_connection hwkr with hsame | ⟨hrdy', hbnd⟩
    · exact hkept hsame
    · rw [hrdy'] at hlive
      exact hlive (h.assigned.live _ hbnd) rfl rfl

structure Created (s : World) (act : Action) (a : Account) : Prop where
  account : ∃ adminToken request, act = .reserve adminToken request ∧ a.accountId = request.accountId
  holds : ∀ identity, a.connection.holds identity = true → createdIdentity s act = some identity
  alone : ∀ b ∈ s.accounts, b.takes s act = []

/-- An account after a transaction, by where its identities come from. -/
theorem Descent.sourced (hsnd : Sound s) (h : Descent s act accounts) {a' : Account}
    (ha' : a' ∈ accounts) : (∃ a ∈ s.accounts, Sourced s act a a') ∨ Created s act a' := by
  rcases h.cases_mem ha' with ⟨a, ha, hchain⟩ | ⟨adminToken, request, identity, server, hact, hident, -, hnew, rfl⟩
  · refine .inl ⟨a, ha, chain_keeps hchain (fun b b' hb hchg => hchg.sourced hsnd.ids ha hb) ?_⟩
    exact ⟨rfl, hsnd.assigned a ha, fun _ hhld => .inl hhld⟩
  · subst hact
    refine .inr ⟨⟨adminToken, request, rfl, rfl⟩, fun held hhld => ?_, fun b hb => ?_⟩
    · have hcreates : createdIdentity s (.reserve adminToken request) = some identity := by
        rw [createdIdentity, hnew]
        exact hident
      rw [hcreates]
      rcases (holds_iff.mp hhld).2 with hsame | hsame
      · exact hsame
      · exact hsame
    · have hoth : b.accountId ≠ request.accountId := by
        have hnone := find?_eq_none.mp hnew b hb
        simpa using hnone
      rw [takes, if_neg hoth]

/-- What the condition says: an identity taken up is nobody else's. -/
theorem takesFree_spec (hok : takesFree s act = true) {a b : Account} (ha : a ∈ s.accounts) (hb : b ∈ s.accounts)
    (hoth : a.accountId ≠ b.accountId) (hident : identity ∈ a.takes s act) :
    b.connection.holds identity = false ∧ identity ∉ b.takes s act := by
  rw [takesFree, and_eq_true] at hok
  have htakes := all_eq_true.mp (all_eq_true.mp hok.2 a ha) identity hident
  rw [and_eq_true] at htakes
  have hhld := all_eq_true.mp htakes.1 b hb
  have hboth := all_eq_true.mp htakes.2 b hb
  constructor
  · simpa [Ne.symm hoth] using hhld
  · simpa [Ne.symm hoth] using hboth

/-- A created account shares nothing with the ones that were there. -/
theorem Created.exclusive (hok : takesFree s act = true) {a' b b' : Account} (h : Created s act a') (hb : b ∈ s.accounts)
    (hsrc : Sourced s act b b') (hhld : a'.connection.holds identity = true)
    (hhld' : b'.connection.holds identity = true) : False := by
  rw [takesFree, and_eq_true, h.holds identity hhld, all_some] at hok
  rcases hsrc.holds identity hhld' with hheld | htakes
  · have hnot := all_eq_true.mp hok.1 b hb
    rw [hheld] at hnot
    cases hnot
  · rw [h.alone b hb] at htakes
    cases htakes

theorem exclusive_step (hsnd : Sound s) (h : Exclusive s.accounts) (hok : takesFree s act = true)
    (hstep : step settings s act = some s') : Exclusive s'.accounts := by
  have hdescent := step_descends hsnd.ids hstep
  intro a' ha' b' hb' hoth identity hhld hhld'
  rcases hdescent.sourced hsnd ha' with ⟨a, ha, hsrc⟩ | hcrtd
  · rcases hdescent.sourced hsnd hb' with ⟨b, hb, hsrc'⟩ | hcrtd
    · rw [hsrc.account, hsrc'.account] at hoth
      rcases hsrc.holds identity hhld with hheld | htakes
      · rcases hsrc'.holds identity hhld' with hheld' | htakes'
        · exact h a ha b hb hoth identity hheld hheld'
        · rw [(takesFree_spec hok hb ha (Ne.symm hoth) htakes').1] at hheld
          cases hheld
      · rcases hsrc'.holds identity hhld' with hheld' | htakes'
        · rw [(takesFree_spec hok ha hb hoth htakes).1] at hheld'
          cases hheld'
        · exact (takesFree_spec hok ha hb hoth htakes).2 htakes'
    · exact hcrtd.exclusive hok ha hsrc hhld' hhld
  · rcases hdescent.sourced hsnd hb' with ⟨b, hb, hsrc'⟩ | hcrtd'
    · exact hcrtd.exclusive hok hb hsrc' hhld hhld'
    · obtain ⟨_, request, hact, hname⟩ := hcrtd.account
      obtain ⟨_, request', hact', hname'⟩ := hcrtd'.account
      cases hact.symm.trans hact'
      exact hoth (hname.trans hname'.symm)

/-! ## Aborts -/

/-- Giving a reservation up leaves the accounts exclusive. -/
theorem Exclusive.abort (h : Exclusive accounts) (accountId : AccountId) :
    Exclusive (updateWhere (fun a => a.accountId = accountId) (·.connect Connection.abort) accounts) := by
  have hshrinks : ∀ a' ∈ updateWhere (fun a => a.accountId = accountId) (·.connect Connection.abort) accounts,
      ∃ a ∈ accounts, a'.accountId = a.accountId
        ∧ ∀ identity, a'.connection.holds identity = true → a.connection.holds identity = true := by
    intro a' ha'
    rcases updateWhere_cases ha' with ⟨hold, -⟩ | ⟨a, ha, -, rfl⟩
    · exact ⟨a', hold, rfl, fun _ hhld => hhld⟩
    · refine ⟨a, ha, rfl, fun identity hhld => ?_⟩
      obtain ⟨hlive, hnam⟩ := holds_iff.mp hhld
      rcases hnam with hsame | hsame
      · exact holds_iff.mpr ⟨hlive, .inl hsame⟩
      · cases hsame
  intro a' ha' b' hb' hoth identity hhld hhld'
  obtain ⟨a, ha, hname, hheld⟩ := hshrinks a' ha'
  obtain ⟨b, hb, hname', hheld'⟩ := hshrinks b' hb'
  rw [hname, hname'] at hoth
  exact h a ha b hb hoth identity (hheld identity hhld) (hheld' identity hhld')

theorem commit_refused (h : s.commit accounts = .error internalError) : identitiesUnique accounts = false := by
  unfold World.commit at h
  split at h
  · cases h
  · rename_i huniq
    exact eq_false_iff.mpr huniq

theorem abort_not_refused (hsnd : Sound s) (h : Exclusive s.accounts) (adminToken : String) (request : AbortRequest) :
    abortAccount settings adminToken request s ≠ .error internalError := by
  intro hrefd
  rw [abortAccount, bind_error] at hrefd
  rcases hrefd with hadmin | ⟨-, -, hrefd⟩
  · simp [requireAdmin, internalError] at hadmin
  rw [bind_error] at hrefd
  rcases hrefd with hinvalid | ⟨-, -, hrefd⟩
  · simp [internalError] at hinvalid
  rw [bind_error] at hrefd
  rcases hrefd with hmissing | ⟨account, -, hrefd⟩
  · simp [accountNotFound, internalError] at hmissing
  rw [bind_error] at hrefd
  rcases hrefd with hchgd | ⟨-, -, hrefd⟩
  · simp [internalError] at hchgd
  split at hrefd
  · have huniq := hsnd.unique
    have hrefd := commit_refused hrefd
    simp only [World.identitiesUnique, decide_eq_true_eq, decide_eq_false_iff_not] at huniq hrefd
    exact hrefd (huniq.sublist (filter_sublist.filterMap _))
  · have hnam : (updateWhere (fun a => a.accountId = request.accountId) (·.connect Connection.abort)
        s.accounts).map Account.accountId = s.accounts.map Account.accountId := by
      refine map_updateWhere (fun a => ?_) _
      rfl
    have huniq := (h.abort request.accountId).unique (by rw [hnam]; exact hsnd.ids)
    rw [commit_refused hrefd] at huniq
    cases huniq

/-! ## The result -/

/-- The account is bound to a worker, and leased to it. -/
def Account.engaged (a : Account) : Bool :=
  a.connection.workerId.isSome && a.lease.any fun held => held.status = .active

theorem exclusive_reachable (h : Reaches (step settings) (fun s act => takesFree s act = true) World.empty s) :
    Exclusive s.accounts := by
  refine h.invariant_along (fun s => Exclusive s.accounts) (fun _ h => absurd h not_mem_nil) ?_
  intro s act s' hrun hexclusive hok hstep
  exact exclusive_step (sound_reachable hrun) hexclusive hok hstep

/-- **One live terminal for a broker identity**: no two accounts registered under one identity
are bound under active leases, and no abort fails because another account took the identity. -/
theorem identity_exclusive (h : Runs.Reaches (step settings) (fun s act => takesFree s act = true) World.empty s) :
    (∀ a ∈ s.accounts, ∀ b ∈ s.accounts, a.accountId ≠ b.accountId → a.connection.identity.isSome = true →
        a.connection.identity = b.connection.identity → ¬(a.engaged = true ∧ b.engaged = true))
      ∧ ∀ adminToken request, abortAccount settings adminToken request s ≠ .error internalError := by
  have hsnd := sound_reachable h
  have hexclusive := exclusive_reachable h
  refine ⟨?_, fun adminToken request => abort_not_refused hsnd hexclusive adminToken request⟩
  rintro a ha b hb hoth hregistered hsame ⟨heng, hengaged'⟩
  obtain ⟨identity, hident⟩ := isSome_iff_exists.mp hregistered
  have hlive : ∀ c ∈ s.accounts, c.engaged = true → c.connection.identity = some identity →
      c.connection.holds identity = true := by
    intro c hc hc' hident
    rw [engaged, and_eq_true] at hc'
    obtain ⟨workerId, hwkr⟩ := isSome_iff_exists.mp hc'.1
    exact holds_iff.mpr ⟨(hsnd.assigned c hc).live workerId hwkr, .inl hident⟩
  exact hexclusive a ha b hb hoth identity (hlive a ha heng hident) (hlive b hb hengaged' (hsame ▸ hident))

/-- The account `1002` of the broker `demo`. -/
def otherReserve (accountId : AccountId) (expectedRevision : Nat) : ReserveRequest :=
  { demoReserve accountId expectedRevision with
    maskedLoginSuffix := "1002"
    identityFingerprint := "64656d6f003130303200000000000000" ++ "00000000000000000000000000000000" }

/-- Two bound accounts, of two identities. -/
theorem identity_exclusive_two : ∃ s : World, s.accounts.length = 2 ∧ (∀ a ∈ s.accounts, a.engaged = true) ∧
    (∀ a ∈ s.accounts, ∀ b ∈ s.accounts, a.accountId ≠ b.accountId → a.connection.identity ≠ b.connection.identity) ∧
    ∀ adminToken request, abortAccount demoSettings adminToken request s ≠ .error internalError := by
  have hexec : ∃ s : World, Runs.exec (step demoSettings) takesFree World.empty
      (demoConnected [] ++ [.reserve "admin" (otherReserve "a2" 0), .activate "admin" (otherReserve "a2" 1),
        .place "a2" "w1"]) = some s
      ∧ s.accounts.length = 2 ∧ ∀ a ∈ s.accounts, a.engaged = true ∧ a.connection.identity.isSome = true := by
    decide +kernel
  obtain ⟨s, hrun, hlng, heng⟩ := hexec
  obtain ⟨hexclusive, haborts⟩ := identity_exclusive (Runs.reaches_of_exec (fun _ _ hallw => hallw) hrun)
  refine ⟨s, hlng, fun a ha => (heng a ha).1, fun a ha b hb hoth hsame => ?_, haborts⟩
  exact hexclusive a ha b hb hoth (heng a ha).2 hsame ⟨(heng a ha).1, (heng b hb).1⟩

/-- An account is queued under an identity and reserves another one; then a second account is
connected under the first identity, and the scheduler places both. -/
def doubledRun : List Action :=
  [.hello (demoHello "w1" []), .reserve "admin" (demoReserve "a1" 0), .activate "admin" (demoReserve "a1" 1),
    .reserve "admin" (otherReserve "a1" 2), .reserve "admin" (demoReserve "a2" 0), .activate "admin" (demoReserve "a2" 1),
    .place "a1" "w1", .place "a2" "w1"]

theorem identity_doubled :
    ¬ ∀ (settings : Settings) (s : World), Runs.Reaches (step settings) Runs.always World.empty s →
      (∀ a ∈ s.accounts, ∀ b ∈ s.accounts, a.accountId ≠ b.accountId → a.connection.identity.isSome = true →
          a.connection.identity = b.connection.identity → ¬(a.engaged = true ∧ b.engaged = true))
        ∧ ∀ adminToken request, abortAccount settings adminToken request s ≠ .error internalError := by
  intro h
  have hexec : ∃ s : World, Runs.exec (step demoSettings) (fun _ _ => true) World.empty doubledRun = some s
      ∧ ∃ a ∈ s.accounts, ∃ b ∈ s.accounts, a.accountId ≠ b.accountId ∧ a.connection.identity.isSome = true
        ∧ a.connection.identity = b.connection.identity ∧ a.engaged = true ∧ b.engaged = true := by
    decide +kernel
  obtain ⟨s, hrun, a, ha, b, hb, hoth, hregistered, hsame, heng⟩ := hexec
  exact (h demoSettings s (Runs.reaches_exec hrun)).1 a ha b hb hoth hregistered hsame heng

end MarketLens.Mt5Vm
