import MarketLens.Mt5Vm.Invariants

/-!
# A reservation belongs to its owner

`reservation_kept`: whatever the scheduler, the workers and the EAs do after credentials
were reserved for an account, the account stays unbound and at the revision returned, and
both the activation and the abort of the reservation succeed. A reservation is written into
the row of an account that may still be queued, or whose last lease may still be active;
the condition says it is not, and that no other account can come to hold what it needs.
-/

namespace MarketLens.Mt5Vm

open Table Runs List Nat Connection Account Store Fallible Relation World

variable {settings : Settings} {s s' : World} {act : Action} {gate : Bool}

/-! ## Background transactions -/

/-- The transaction is a request about the connection of an account. -/
def Action.isRequest : Action → Bool
  | .reserve _ _ | .activate _ _ | .abort _ _ | .reconnect _ _ | .disconnect _ _ | .prepareDelete _ _
  | .finalizeDelete _ _ => true
  | _ => false

theorem Action.keeps_of_background (hback : act.isRequest = false) (accountId : AccountId) : act.deletes accountId = false := by
  cases act with
  | abort | finalizeDelete => cases hback
  | _ => rfl

/-- The account is live, or a sweep can make it so. -/
def competes (row : Connection) (lease : Option Lease) : Bool :=
  row.status.live
    || (row.disconnectRequestedRevision.isNone && row.persistence = .managed && !leaseless lease)

variable {row row' : Connection} {lease lease' : Option Lease}

/-- **In the background no account comes to compete for an identity.** -/
theorem Move.competes (hmove : Move s act gate row lease row' lease')
    (hasg : Assigned row lease) (hback : act.isRequest = false) :
    (competes row' lease' = true → competes row lease = true) ∧ row'.currentIdentity = row.currentIdentity := by
  have hlive : row.status.live = true → Mt5Vm.competes row lease = true := by
    intro hlive
    rw [Mt5Vm.competes, hlive]
    rfl
  -- A lease that is not newly active lets nobody compete who did not before.
  have hless : ∀ lease', (∀ held', lease' = some held' → held'.status = .active →
      ∃ held, lease = some held ∧ held.status = .active) → Mt5Vm.competes row lease' = true →
      Mt5Vm.competes row lease = true := by
    intro lease' hls h
    unfold Mt5Vm.competes at h ⊢
    cases hleaseless : leaseless lease with
    | false =>
      rw [Bool.or_eq_true, Bool.and_eq_true] at h
      rw [Bool.not_false, Bool.and_true, Bool.or_eq_true]
      exact h.imp id And.left
    | true =>
      rw [leaseless_of_inactive hls hleaseless] at h
      exact h
  cases hmove with
  | keep => exact ⟨id, rfl⟩
  | renew expiresAt hls =>
    refine ⟨hless _ ?_, rfl⟩
    rintro held' hheld' hactv
    cases hheld'
    exact ⟨_, hls, hactv⟩
  | fence =>
    split
    · rename_i hrequ
      rw [Bool.and_eq_true, decide_eq_true_eq] at hrequ
      exact ⟨fun _ => hlive (hasg.live _ hrequ.1), rfl⟩
    · exact ⟨hless _ expireOf_active, rfl⟩
  | @lapse held hact hls hlaps =>
    split
    · rename_i hrequ
      rw [Bool.and_eq_true] at hrequ
      refine ⟨fun h => ?_, rfl⟩
      simp only [Lease.lapsed, Bool.and_eq_true] at hlaps
      cases hpersistence : row.persistence with
      | session =>
        rw [Mt5Vm.competes, requeue, hpersistence] at h
        simp [Persistence.requeued, ConnectionStatus.live] at h
      | managed =>
        rw [Mt5Vm.competes, hpersistence, hrequ.2, leaseless, hls, Option.any_some, hlaps.1]
        simp
    · refine ⟨hless _ ?_, rfl⟩
      rintro held' hheld' hactv
      cases hheld'
      cases hactv
  | place hact hwtg =>
    refine ⟨fun _ => hlive ?_, rfl⟩
    simp only [waiting, Bool.and_eq_true, Bool.or_eq_true, decide_eq_true_eq] at hwtg
    rcases hwtg.1.1 with hstat | hstat
    · rw [hstat]
      rfl
    · rw [hstat]
      rfl
  | advance hadv =>
    obtain ⟨workerId, hbnd, -⟩ := hadv.bound
    exact ⟨fun _ => hlive (hasg.live workerId hbnd), rfl⟩
  | @stop envelope request =>
    unfold Connection.stop
    split
    · refine ⟨fun h => hless (lease.map (Lease.release envelope.workerId request.leaseGeneration)) release_active ?_, rfl⟩
      unfold Mt5Vm.competes at h ⊢
      rw [Bool.or_eq_true] at h ⊢
      rcases h with h | h
      · cases h
      · exact .inr h
    · exact ⟨hless _ release_active, rfl⟩
  | recover hact | claim hact | replace hact | activate hact | abort hact | reconnect hact
  | disconnect hact | prepareDelete hact => subst hact; cases hback

/-! ## The account reserved -/

/-- The account is unbound, and neither the scheduler nor the sweep takes it up. -/
structure Steady (row : Connection) (lease : Option Lease) : Prop where
  unbound : row.workerId = none
  quiet : row.disconnectRequestedRevision.isSome = true
    ∨ (leaseless lease = true ∧ row.status ≠ .queued ∧ row.status ≠ .reconnecting)

/-- **In the background a steady account keeps its row**, up to a stop that concludes its disconnect. -/
theorem Move.steady (hmove : Move s act gate row lease row' lease') (h : Steady row lease) (hback : act.isRequest = false) :
    row' = { row with status := row'.status }
      ∧ (row'.status = row.status ∨ (row'.status = .disconnected ∧ leaseless lease = false))
      ∧ (leaseless lease = true → leaseless lease' = true) := by
  cases hmove with
  | keep => exact ⟨rfl, .inl rfl, id⟩
  | renew expiresAt hls =>
    refine ⟨rfl, .inl rfl, leaseless_of_inactive ?_⟩
    rintro held' hheld' hactv
    cases hheld'
    exact ⟨_, hls, hactv⟩
  | fence =>
    rw [if_neg (by simp [h.unbound])]
    exact ⟨rfl, .inl rfl, leaseless_of_inactive expireOf_active⟩
  | lapse hact hls hlaps =>
    -- the lease is active, so it is the disconnect that keeps the account
    have hdisc : row.disconnectRequestedRevision.isSome = true := by
      rcases h.quiet with hdisc | ⟨hleaseless, -⟩
      · exact hdisc
      · simp only [Lease.lapsed, Bool.and_eq_true] at hlaps
        simp [leaseless, hls, hlaps.1] at hleaseless
    rw [if_neg (by simp [Option.isSome_iff_ne_none.mp hdisc])]
    refine ⟨rfl, .inl rfl, leaseless_of_inactive ?_⟩
    rintro held' hheld' hactv
    cases hheld'
    cases hactv
  | place hact hwtg =>
    simp only [waiting, Bool.and_eq_true, Bool.or_eq_true, decide_eq_true_eq, Option.isNone_iff_eq_none] at hwtg
    rcases h.quiet with hdisc | ⟨-, hidle⟩
    · rw [hwtg.2] at hdisc
      cases hdisc
    · exact absurd hwtg.1.1 (not_or.mpr hidle)
  | advance hadv =>
    obtain ⟨workerId, hbnd, -⟩ := hadv.bound
    rw [h.unbound] at hbnd
    cases hbnd
  | stop hact hacct hack hcmd hkind hopen hls hval =>
    have hleas : leaseless lease = false := by
      simp only [Lease.valid, Bool.and_eq_true] at hval
      simp [leaseless, hls, of_decide_eq_true hval.1]
    unfold Connection.stop
    split
    · refine ⟨?_, .inr ⟨rfl, hleas⟩, leaseless_of_inactive release_active⟩
      rw [← h.unbound]
    · exact ⟨rfl, .inl rfl, leaseless_of_inactive release_active⟩
  | recover hact | claim hact | replace hact | activate hact | abort hact | reconnect hact
  | disconnect hact | prepareDelete hact => subst hact; cases hback

/-- The readiness gate writes no secret reference. -/
theorem Account.advanceReadiness_secret (workers : List Worker) (now : Millis) (a : Account) :
    (a.advanceReadiness workers now).registry.secretRef = a.registry.secretRef := by
  unfold advanceReadiness
  split
  · rfl
  split
  · dsimp only
    split
    · rfl
    · rfl
  · rfl

variable {a a' : Account}

/-- In the background no secret reference is written. -/
theorem Change.secret (hchg : Change s act a a') (hback : act.isRequest = false) :
    a'.registry.secretRef = a.registry.secretRef := by
  cases hchg with
  | keep hfrm | move horig hfrm | observe hact hfrm => exact hfrm.secret
  | renew | place | pair => rfl
  | activate hact => subst hact; cases hback
  | ready => exact a.advanceReadiness_secret s.workers s.now

structure Reserved (start a : Account) : Prop where
  /-- The row is the same, up to its status. -/
  row : a.connection = { start.connection with status := a.connection.status }
  secret : a.registry.secretRef = start.registry.secretRef
  steady : Steady a.connection a.lease
  /-- An account that was not live holds no identity. -/
  dead : start.connection.status.live = false → a.connection.status.live = false
  /-- And one that was live, without a lease, keeps its own. -/
  alive : start.connection.status.live = true → leaseless start.lease = true →
    a.connection.status.live = true ∧ leaseless a.lease = true

variable {a : Account}

theorem Reserved.refl (h : Steady a.connection a.lease) : Reserved a a :=
  ⟨rfl, rfl, h, id, fun hlive hleaseless => ⟨hlive, hleaseless⟩⟩

theorem Change.reserved {start a a' : Account} (hchg : Change s act a a') (h : Reserved start a)
    (hback : act.isRequest = false) : Reserved start a' := by
  obtain ⟨hrow, hstat, hleaseless⟩ := hchg.moved.steady h.steady hback
  refine ⟨?_, (hchg.secret hback).trans h.secret, ⟨?_, ?_⟩, ?_, ?_⟩
  · rw [hrow, h.row]
  · rw [hrow]
    exact h.steady.unbound
  · rcases h.steady.quiet with hdisc | ⟨hless, hidle⟩
    · rw [hrow]
      exact .inl hdisc
    · rcases hstat with hsame | ⟨-, hleas⟩
      · rw [hsame]
        exact .inr ⟨hleaseless hless, hidle⟩
      · rw [hless] at hleas
        cases hleas
  · intro hdead
    rcases hstat with hsame | ⟨hdisconnected, -⟩
    · rw [hsame]
      exact h.dead hdead
    · rw [hdisconnected]
      rfl
  · intro hlive hless
    obtain ⟨hlive', hless'⟩ := h.alive hlive hless
    rcases hstat with hsame | ⟨-, hleas⟩
    · rw [hsame]
      exact ⟨hlive', hleaseless hless'⟩
    · rw [hless'] at hleas
      cases hleas

/-! ## Background runs -/

def Uncontested (s : World) (accountId : AccountId) (identity : Fingerprint) : Prop :=
  ∀ b ∈ s.accounts, b.accountId ≠ accountId → competes b.connection b.lease = true →
    b.connection.currentIdentity ≠ some identity

variable {accountId : AccountId} {identity : Fingerprint}

theorem uncontested_step (hsnd : Sound s) (hback : act.isRequest = false) (hstep : step settings s act = some s')
    (h : Uncontested s accountId identity) :
    Uncontested s' accountId identity := by
  intro b' hb' hoth hcompetes
  rcases (step_descends hsnd.ids hstep).cases_mem hb' with ⟨b, hb, hchain⟩ | ⟨_, _, _, _, hact, -⟩
  · have hkept : Assigned b'.connection b'.lease ∧ (competes b'.connection b'.lease = true → competes b.connection b.lease = true)
        ∧ b'.connection.currentIdentity = b.connection.currentIdentity := by
      refine chain_keeps (P := fun c => Assigned c.connection c.lease
        ∧ (competes c.connection c.lease = true → competes b.connection b.lease = true)
        ∧ c.connection.currentIdentity = b.connection.currentIdentity) hchain ?_ ⟨hsnd.assigned b hb, id, rfl⟩
      rintro c c' ⟨hasg, hcompetes, hsame⟩ hchg
      obtain ⟨hcompetes', hsame'⟩ := hchg.moved.competes hasg hback
      exact ⟨hchg.moved.assigned hasg, hcompetes ∘ hcompetes', hsame'.trans hsame⟩
    rw [chain_accountId hchain] at hoth
    rw [hkept.2.2]
    exact h b hb hoth (hkept.2.1 hcompetes)
  · subst hact
    cases hback

theorem reserved_run {start : Account} (hsnd : Sound s) (hstart : start ∈ s.accounts)
    (hsteady : Steady start.connection start.lease)
    (hrun : Reaches (step settings) (fun _ act => act.isRequest = false) s s') :
    Sound s' ∧ (∃ a ∈ s'.accounts, Reserved start a)
      ∧ ∀ accountId identity, Uncontested s accountId identity → Uncontested s' accountId identity := by
  refine hrun.invariant (fun s' => Sound s' ∧ (∃ a ∈ s'.accounts, Reserved start a)
    ∧ ∀ accountId identity, Uncontested s accountId identity → Uncontested s' accountId identity) ?_ ?_
  · exact ⟨hsnd, ⟨start, hstart, .refl hsteady⟩, fun _ _ => id⟩
  · rintro s act s' ⟨hsnd, ⟨a, ha, hresv⟩, hfree⟩ hback hstep
    refine ⟨sound_step hsnd hstep, ?_, fun accountId identity h =>
      uncontested_step hsnd hback hstep (hfree accountId identity h)⟩
    obtain ⟨a', ha', hchain⟩ := (step_descends hsnd.ids hstep).survivor ha (act.keeps_of_background hback _)
    exact ⟨a', ha', chain_keeps hchain (fun b b' hb hchg => hchg.reserved hb hback) hresv⟩

/-! ## Secret references -/

structure WellReferenced (a : Account) : Prop where
  reserved : ∀ reservation, a.connection.reservation = some reservation → validSecretRef reservation.secretRef = true
  active : ∀ secretRef, a.registry.secretRef = some secretRef → validSecretRef secretRef = true

theorem Move.referenced (hmove : Move s act gate row lease row' lease')
    (h : ∀ reservation, row.reservation = some reservation → validSecretRef reservation.secretRef = true) :
    ∀ reservation, row'.reservation = some reservation → validSecretRef reservation.secretRef = true := by
  cases hmove with
  | fence | lapse =>
    split
    · exact h
    · exact h
  | stop =>
    unfold Connection.stop
    split
    · exact h
    · exact h
  | recover =>
    intro reservation hresvn
    obtain ⟨old, hold, rfl⟩ := Option.map_eq_some_iff.mp hresvn
    exact h old hold
  | claim hact hacct hfs hident hunb hresv hown hsecretless hscrt
  | replace hact hacct hlat hident hunb hresv hscrt =>
    intro reservation hresvn
    cases hresvn
    exact hscrt
  | activate | abort =>
    intro reservation hresvn
    cases hresvn
  | _ => exact h

theorem Change.referenced (hchg : Change s act a a') (h : WellReferenced a) : WellReferenced a' := by
  refine ⟨hchg.moved.referenced h.reserved, ?_⟩
  intro secretRef hsecretRef
  cases hchg with
  | keep hfrm | move horig hfrm | observe hact hfrm =>
    exact h.active _ (hfrm.secret ▸ hsecretRef)
  | renew | place | pair => exact h.active _ hsecretRef
  | activate hact ha hacct hident hunb hresv hscrt hactvd =>
    subst hactvd
    cases hsecretRef
    exact hscrt
  | ready => exact h.active _ ((a.advanceReadiness_secret s.workers s.now) ▸ hsecretRef)

theorem wellReferenced_reachable {ok : World → Action → Prop} (h : Reaches (step settings) ok World.empty s) :
    ∀ a ∈ s.accounts, WellReferenced a := by
  refine h.invariant_along (fun s => ∀ a ∈ s.accounts, WellReferenced a) (forall_mem_nil _) ?_
  intro s act s' hrun hreferenced _ hstep a' ha'
  rcases (step_descends (sound_reachable hrun).ids hstep).cases_mem ha' with
    ⟨a, ha, hchain⟩ | ⟨adminToken, request, identity, server, -, -, hscrt, -, rfl⟩
  · exact chain_keeps hchain (fun b b' hb hchg => hchg.referenced hb) (hreferenced a ha)
  · refine ⟨?_, ?_⟩
    · intro reservation hresvn
      cases hresvn
      exact hscrt
    · intro secretRef hsecretRef
      cases hsecretRef

/-! ## The reservation -/

/-- The secret reference the caller writes its credentials under. -/
def AccountView.secretOf (view : AccountView) (request : ReserveRequest) : String := view.secretRef.getD request.secretRef

/-- The account as the reservation returned in `view` leaves it. -/
structure ReservationMade (request : ReserveRequest) (view : AccountView) (identity server : Fingerprint) (s : World)
    (a : Account) : Prop where
  account : a.accountId = request.accountId
  owner : a.connection.userId = request.ownerId
  unbound : a.connection.workerId = none
  revision : a.connection.revision = view.connectionRevision
  positive : view.connectionRevision ≠ 0
  reservation : a.connection.reservation = some ⟨view.secretOf request, s.now, identity, server⟩
  secret : a.registry.secretRef = view.previousSecretRef
  /-- What the condition on the state before is about. -/
  before : (view.created = true ∧ a.connection.status = .blocked ∧ a.lease = none
        ∧ ∀ old ∈ s.accounts, old.accountId ≠ request.accountId)
      ∨ ∃ old ∈ s.accounts, old.accountId = request.accountId ∧ a.lease = old.lease
        ∧ a.connection.identity = old.connection.identity
        ∧ a.connection.disconnectRequestedRevision = old.connection.disconnectRequestedRevision
        ∧ a.connection.status = if request.expectedRevision = 0 then .blocked else old.connection.status

/-- What an update of the account that is there leaves. -/
theorem commitAccount_made {f : Account → Account} (hcmt : s.commitAccount accountId f = .ok s')
    {account : Account} (hmem : account ∈ s.accounts) (hname : account.accountId = accountId) :
    f account ∈ s'.accounts
      ∧ ∀ b ∈ s'.accounts, b.accountId ≠ accountId → (∀ a, (f a).accountId = a.accountId) → b ∈ s.accounts := by
  obtain ⟨-, rfl⟩ := commitAccount_ok hcmt
  refine ⟨updated_mem hmem (decide_eq_true hname), fun b hb hoth hkept => ?_⟩
  rcases updateWhere_cases hb with ⟨hold, -⟩ | ⟨old, -, hmat, rfl⟩
  · exact hold
  · exact absurd ((hkept old).trans (of_decide_eq_true hmat)) hoth

variable {request : ReserveRequest} {identity server : Fingerprint} {view : AccountView}

/-- A request made before that writes something: it recovers a stale reservation, or claims
the account. -/
theorem reserveAgain_made {account : Account} (hmem : account ∈ s.accounts) (howner : account.connection.userId = request.ownerId)
    (hname : account.accountId = request.accountId) (hfs : request.expectedRevision = 0)
    (h : reserveAgain request identity server account s = .ok (s', view)) (hnew : s' ≠ s) :
    ∃ a ∈ s'.accounts, ReservationMade request view identity server s a
      ∧ ∀ b ∈ s'.accounts, b.accountId ≠ request.accountId → b ∈ s.accounts := by
  rw [reserveAgain, unit_bind_ok, unit_bind_ok, refuseIf_ok, refuseIf_ok] at h
  obtain ⟨hsame, hfen, h⟩ := h
  simp only [Bool.or_eq_false_iff, decide_eq_false_iff_not, Decidable.not_not] at hsame
  obtain ⟨⟨⟨hident, hserver⟩, -⟩, -⟩ := hsame
  split at h
  · cases h
    exact absurd rfl hnew
  · cases h
    exact absurd rfl hnew
  · rename_i hdecision
    obtain ⟨mid, hcmt, hsame'⟩ := bind_ok.mp h
    cases hsame'
    have hunb : account.connection.workerId = none := by
      rw [hdecision] at hfen
      simpa using hfen
    obtain ⟨reservation, hresvn⟩ := Option.isSome_iff_exists.mp (retryDecision_recover hdecision).1
    rw [currentIdentity, hresvn] at hident
    rw [currentServer, hresvn] at hserver
    cases hident
    cases hserver
    obtain ⟨hmade, hoths⟩ := commitAccount_made hcmt hmem hname
    refine ⟨_, hmade, ?_, fun b hb hoth => hoths b hb hoth fun _ => rfl⟩
    refine ⟨hname, howner, hunb, rfl, succ_ne_zero _, ?_, rfl, .inr ⟨account, hmem, hname, rfl, rfl, rfl, ?_⟩⟩
    · show account.connection.reservation.map _ = _
      rw [AccountView.secretOf, hresvn]
      rfl
    · rw [if_pos hfs]
      rfl
  · rename_i hdecision
    obtain ⟨mid, hcmt, hsame'⟩ := bind_ok.mp h
    cases hsame'
    have hunb : account.connection.workerId = none := by
      rw [hdecision] at hfen
      simpa using hfen
    obtain ⟨hmade, hoths⟩ := commitAccount_made hcmt hmem hname
    refine ⟨_, hmade, ?_, fun b hb hoth => hoths b hb hoth fun _ => rfl⟩
    refine ⟨hname, howner, hunb, rfl, succ_ne_zero _, rfl, rfl, .inr ⟨account, hmem, hname, rfl, rfl, rfl, ?_⟩⟩
    rw [if_pos hfs]
    rfl

variable {adminToken : String}

/-- **What every reservation that was returned leaves behind.** -/
theorem reserveAccount_made (h : reserveAccount settings adminToken request s = .ok (s', view)) (hnew : s' ≠ s) :
    ∃ identity server a, requireAdmin settings adminToken = .ok () ∧ validateReserve request = .ok (identity, server)
      ∧ rejectIdentityConflict identity request.accountId s = .ok () ∧ a ∈ s'.accounts
      ∧ ReservationMade request view identity server s a
      ∧ ∀ b ∈ s'.accounts, b.accountId ≠ request.accountId → b ∈ s.accounts := by
  rw [reserveAccount, unit_bind_ok, bind_ok] at h
  obtain ⟨hadmin, ⟨identity, server⟩, hval, h⟩ := h
  obtain ⟨hconflict, h⟩ := unit_bind_ok.mp h
  have hmade : (∃ a ∈ s'.accounts, ReservationMade request view identity server s a
      ∧ ∀ b ∈ s'.accounts, b.accountId ≠ request.accountId → b ∈ s.accounts) := by
    split at h
    -- the account is there: reserved again before anything was decided, or taken up at its revision
    · rename_i account hfnd
      obtain ⟨hmem, hname⟩ := isOf_of_find hfnd
      have howner : account.connection.userId = request.ownerId := by
        have hisOf := find?_some hfnd
        simp only [isOf, Bool.and_eq_true, decide_eq_true_eq] at hisOf
        exact hisOf.1
      split at h
      · rename_i hfs
        exact reserveAgain_made hmem howner hname hfs h hnew
      · rename_i hlat
        rw [unit_bind_ok, refuseIf_ok, bind_ok] at h
        obtain ⟨hfree, mid, hcmt, hsame⟩ := h
        cases hsame
        simp only [Bool.or_eq_false_iff, decide_eq_false_iff_not, Decidable.not_not, Option.isSome_eq_false_iff,
          Option.isNone_iff_eq_none] at hfree
        obtain ⟨⟨hrev, hunb⟩, -⟩ := hfree
        obtain ⟨hmade, hoths⟩ := commitAccount_made hcmt hmem hname
        refine ⟨_, hmade, ?_, fun b hb hoth => hoths b hb hoth fun _ => rfl⟩
        refine ⟨hname, howner, hunb, ?_, succ_ne_zero _, rfl, rfl, .inr ⟨account, hmem, hname, rfl, rfl, rfl, ?_⟩⟩
        · show account.connection.revision + 1 = request.expectedRevision + 1
          rw [hrev]
        · rw [if_neg hlat]
          rfl
    · rw [unit_bind_ok, unit_bind_ok, refuseIf_ok, refuseIf_ok, bind_ok] at h
      obtain ⟨-, hnone, mid, hcmt, hsame⟩ := h
      cases hsame
      obtain ⟨-, rfl⟩ := commit_ok hcmt
      rw [Option.isSome_eq_false_iff, Option.isNone_iff_eq_none] at hnone
      refine ⟨.create request identity server s.now, mem_append_right _ (mem_singleton.mpr rfl), ?_, ?_⟩
      · refine ⟨rfl, rfl, rfl, rfl, one_ne_zero, rfl, rfl, .inl ⟨rfl, rfl, rfl, fun old hold hsame => ?_⟩⟩
        exact find?_eq_none.mp hnone old hold (decide_eq_true hsame)
      · intro b hb hoth
        rcases mem_append.mp hb with hold | hcrtd
        · exact hold
        · cases mem_singleton.mp hcrtd
          exact absurd rfl hoth
  obtain ⟨a, ha, hmade, hoths⟩ := hmade
  exact ⟨identity, server, a, hadmin, hval, hconflict, ha, hmade, hoths⟩

/-! ## Activating and aborting -/

theorem rejectIdentityConflict_ok :
    rejectIdentityConflict identity accountId s = .ok () ↔ ∀ b ∈ s.accounts, b.accountId ≠ accountId →
      b.connection.status.live = true → b.connection.currentIdentity ≠ some identity := by
  rw [rejectIdentityConflict, refuseIf_ok, any_eq_false]
  refine forall₂_congr fun b hb => ?_
  simp

theorem indexedIdentity_some :
    a.indexedIdentity = some identity ↔ a.connection.status.live = true ∧ a.connection.currentIdentity = some identity := by
  unfold indexedIdentity
  split
  · rename_i hlive
    simp [hlive]
  · rename_i hdead
    simp [hdead]

theorem find?_isOf (hids : (s.accounts.map Account.accountId).Nodup) (ha : a ∈ s.accounts)
    {ownerId : OwnerId} (howner : a.connection.userId = ownerId) (hname : a.accountId = accountId) :
    s.accounts.find? (·.isOf ownerId accountId) = some a := by
  have hsome : (s.accounts.find? (·.isOf ownerId accountId)).isSome = true := by
    rw [find?_isSome]
    refine ⟨a, ha, ?_⟩
    rw [isOf, howner, show a.connection.accountId = accountId from hname]
    simp
  obtain ⟨found, hfnd⟩ := Option.isSome_iff_exists.mp hsome
  obtain ⟨hmem, hsame⟩ := isOf_of_find hfnd
  rw [hfnd, account_unique hids hmem ha (hsame.trans hname.symm)]

/-- A reservation that is still there, of an identity nobody else holds, can be activated. -/
theorem activate_succeeds (hsnd : Sound s) {reservedAt : Millis}
    (hadmin : requireAdmin settings adminToken = .ok ()) (hval : validateReserve request = .ok (identity, server))
    (hpos : request.expectedRevision ≠ 0)
    (hconflict : rejectIdentityConflict identity request.accountId s = .ok ()) (ha : a ∈ s.accounts)
    (howner : a.connection.userId = request.ownerId) (hname : a.accountId = request.accountId)
    (hrev : a.connection.revision = request.expectedRevision) (hunb : a.connection.workerId = none)
    (hresvn : a.connection.reservation = some ⟨request.secretRef, reservedAt, identity, server⟩) :
    ∃ answer, activateAccount settings adminToken request s = .ok answer := by
  have hfree : ∀ b ∈ s.accounts, b.accountId ≠ request.accountId → b.indexedIdentity ≠ some identity := by
    intro b hb hoth hident
    obtain ⟨hlive, hcurr⟩ := indexedIdentity_some.mp hident
    exact rejectIdentityConflict_ok.mp hconflict b hb hoth hlive hcurr
  obtain ⟨mid, hcmt⟩ := commitAccount_succeeds
    (f := fun account => (account.connect (·.activate request identity server)).register fun entry =>
      { entry with
        label := trim request.label, secretRef := some request.secretRef, status := .connecting
        tradeAllowed := false })
    hsnd.ids hsnd.unique request.accountId (fun _ => rfl) (by
      intro c hc hname' b hb hoth taken htak
      obtain ⟨-, hcurr⟩ := indexedIdentity_some.mp htak
      cases hcurr
      exact hfree b hb hoth)
  refine ⟨(mid, ⟨.queued, a.connection.revision + 1, none, none, false, false⟩), ?_⟩
  rw [activateAccount, unit_bind_ok, bind_ok]
  refine ⟨hadmin, (identity, server), hval, ?_⟩
  rw [unit_bind_ok, unit_bind_ok, refuseIf_ok, bind_ok]
  refine ⟨decide_eq_false hpos, hconflict, a, ?_, ?_⟩
  · rw [require_ok]
    exact find?_isOf hsnd.ids ha howner hname
  · rw [unit_bind_ok, refuseIf_ok, bind_ok]
    refine ⟨?_, mid, hcmt, rfl⟩
    simp [hrev, hunb, hresvn]

/-- A reservation that is still there can be given up, unless the account would hold again
what somebody else holds by now. -/
theorem abort_succeeds (hsnd : Sound s) {request : AbortRequest}
    (hadmin : requireAdmin settings adminToken = .ok ()) (hidentifier : validIdentifier request.accountId 96 = true)
    (hscrt : validSecretRef request.secretRef = true) (hpos : request.expectedRevision ≠ 0)
    (hprv : ∀ secretRef, request.previousSecretRef = some secretRef → validSecretRef secretRef = true)
    (ha : a ∈ s.accounts) (howner : a.connection.userId = request.ownerId) (hname : a.accountId = request.accountId)
    (hresvn : a.connection.reservation.map Reservation.secretRef = some request.secretRef)
    (hrev : a.connection.revision = request.expectedRevision)
    (hregi : a.registry.secretRef = request.previousSecretRef)
    (hfree : request.created = false → a.connection.status.live = true → ∀ identity,
      a.connection.identity = some identity → ∀ b ∈ s.accounts, b.accountId ≠ request.accountId →
      b.indexedIdentity ≠ some identity) :
    ∃ after, abortAccount settings adminToken request s = .ok after := by
  have hcmt : ∃ after, (if request.created then
      s.commit (s.accounts.filter fun account => account.accountId ≠ request.accountId)
      else s.commitAccount request.accountId (·.connect abort)) = .ok after := by
    cases hcrtd : request.created with
    | true =>
      have hrest : identitiesUnique (s.accounts.filter fun account => account.accountId ≠ request.accountId) = true := by
        have huniq := hsnd.unique
        simp only [identitiesUnique, decide_eq_true_eq] at huniq ⊢
        exact huniq.sublist (filter_sublist.filterMap _)
      rw [if_pos rfl, commit, if_pos hrest]
      exact ⟨_, rfl⟩
    | false =>
      refine commitAccount_succeeds hsnd.ids hsnd.unique request.accountId (fun _ => rfl) ?_
      intro c hc hname' b hb hoth identity hident
      have hsame : c = a := account_unique hsnd.ids hc ha (hname'.trans hname.symm)
      subst hsame
      obtain ⟨hlive, hcurr⟩ := indexedIdentity_some.mp hident
      exact hfree hcrtd hlive identity hcurr b hb hoth
  obtain ⟨after, haft⟩ := hcmt
  refine ⟨after, ?_⟩
  rw [abortAccount, unit_bind_ok, unit_bind_ok, refuseIf_ok, bind_ok]
  refine ⟨hadmin, ?_, a, ?_, ?_⟩
  · have hprv' : (request.previousSecretRef.any fun value => !validSecretRef value) = false := by
      cases hsome : request.previousSecretRef with
      | none => rfl
      | some secretRef => simp [hprv secretRef hsome]
    simp [hidentifier, hscrt, hpos, hprv']
  · rw [require_ok]
    exact find?_isOf hsnd.ids ha howner hname
  · rw [unit_bind_ok, refuseIf_ok]
    refine ⟨?_, haft⟩
    simp [hresvn, hrev, hregi]

/-! ## The result -/

def World.uncontested (s : World) (accountId : AccountId) (identity : Option Fingerprint) : Bool :=
  s.accounts.all fun b =>
    b.accountId = accountId || !competes b.connection b.lease || b.connection.currentIdentity ≠ identity

/-- A reservation of the account as it is would be safe in the background: the account is
neither waiting nor leased unless it is disconnecting, nobody can come to hold the identity
it reserves, unless it holds that itself, nor the one an abort would leave it. -/
def Account.secures (s : World) (request : ReserveRequest) (a : Account) : Bool :=
  let live := request.expectedRevision = 0 || a.connection.status.live
  let identity := decodeIdentityFingerprint request.identityFingerprint
  (a.connection.disconnectRequestedRevision.isSome
      || (leaseless a.lease
        && (request.expectedRevision = 0
          || (a.connection.status ≠ .queued && a.connection.status ≠ .reconnecting))))
    && ((live && leaseless a.lease) || s.uncontested request.accountId identity)
    && (!live || a.connection.identity = identity || a.connection.identity = none
      || s.uncontested request.accountId a.connection.identity)

/-- The account the reservation is for, if it is there, is safe to reserve. -/
def securesReservation (s : World) (request : ReserveRequest) : Bool :=
  s.accounts.all fun a => a.accountId ≠ request.accountId || a.secures s request

theorem uncontested_iff : s.uncontested accountId (some identity) = true ↔ Uncontested s accountId identity := by
  rw [uncontested, all_eq_true]
  refine forall₂_congr fun b hb => ?_
  cases competes b.connection b.lease <;> simp [or_iff_not_imp_left]

theorem ReservationMade.steady
    (h : ReservationMade request view identity server s a) (hok : securesReservation s request = true) :
    Steady a.connection a.lease := by
  refine ⟨h.unbound, ?_⟩
  rcases h.before with ⟨-, hstat, hls, -⟩ | ⟨old, hold, hname, hls, -, hdisc, hstat⟩
  · rw [hstat, hls]
    exact .inr ⟨rfl, nofun, nofun⟩
  · have hsecures := all_eq_true.mp hok old hold
    simp only [hname, ne_eq, not_true_eq_false, decide_false, Bool.false_or, secures, Bool.and_eq_true,
      Bool.or_eq_true, decide_eq_true_eq] at hsecures
    rw [hls, hdisc, hstat]
    rcases hsecures.1.1 with hleaving | ⟨hleaseless, hfs | hidle⟩
    · exact .inl hleaving
    · rw [if_pos hfs]
      exact .inr ⟨hleaseless, nofun, nofun⟩
    · refine .inr ⟨hleaseless, ?_⟩
      split
      · exact ⟨nofun, nofun⟩
      · exact hidle

theorem live_of_status {a old : Account}
    (hstat : a.connection.status = if request.expectedRevision = 0 then .blocked else old.connection.status) :
    (decide (request.expectedRevision = 0) || old.connection.status.live) = a.connection.status.live := by
  rw [hstat]
  by_cases hfs : request.expectedRevision = 0
  · rw [if_pos hfs, decide_eq_true hfs]
    rfl
  · rw [if_neg hfs, decide_eq_false hfs, Bool.false_or]

section Secured

variable {mid : World} (h : ReservationMade request view identity server s a)
  (hok : securesReservation s request = true)
  (hident : decodeIdentityFingerprint request.identityFingerprint = some identity)
  (hoths : ∀ b ∈ mid.accounts, b.accountId ≠ request.accountId → b ∈ s.accounts)
  (hsnd : Sound s') (ha' : a' ∈ s'.accounts) (hname : a'.accountId = request.accountId) (hresv : Reserved a a')
  (hkept : ∀ accountId identity, Uncontested mid accountId identity → Uncontested s' accountId identity)
include h hok hident hoths hsnd ha' hname hresv hkept

/-- Nobody comes to hold the identity that is reserved. -/
theorem ReservationMade.unconflicted : rejectIdentityConflict identity request.accountId s' = .ok () := by
  rw [rejectIdentityConflict_ok]
  intro b hb hoth hlive hcurr
  by_cases hali : a.connection.status.live = true ∧ leaseless a.lease = true
  · -- the account holds the identity itself, in the index
    obtain ⟨hlive', -⟩ := hresv.alive hali.1 hali.2
    have hcurr' : a'.connection.currentIdentity = some identity := by
      rw [hresv.row, currentIdentity, h.reservation]
      rfl
    refine (identitiesUnique_iff hsnd.ids).mp hsnd.unique b hb a' ha' ?_ identity ?_ ?_
    · rw [hname]
      exact hoth
    · exact indexedIdentity_some.mpr ⟨hlive, hcurr⟩
    · exact indexedIdentity_some.mpr ⟨hlive', hcurr'⟩
  · have hfree : Uncontested mid request.accountId identity := by
      rcases h.before with ⟨-, hstat, hls, -⟩ | ⟨old, hold, hname', hls, -, -, hstat⟩
      · refine absurd ⟨?_, ?_⟩ hali
        · rw [hstat]
          rfl
        · rw [hls]
          rfl
      · have hsecures := all_eq_true.mp hok old hold
        simp only [hname', ne_eq, not_true_eq_false, decide_false, Bool.false_or, secures, Bool.and_eq_true,
          Bool.or_eq_true] at hsecures
        rcases hsecures.1.2 with ⟨hlive, hleaseless⟩ | hfree
        · refine absurd ⟨?_, ?_⟩ hali
          · rw [← live_of_status hstat, Bool.or_eq_true]
            exact hlive
          · rw [hls]
            exact hleaseless
        · rw [hident] at hfree
          exact fun b hb hoth => uncontested_iff.mp hfree b (hoths b hb hoth) hoth
    refine hkept _ _ hfree b hb hoth ?_ hcurr
    rw [competes, hlive]
    rfl

/-- Nobody comes to hold what an abort leaves the account. -/
theorem ReservationMade.unclaimed {own : Fingerprint} (hcrtd : view.created = false) (hlive : a'.connection.status.live = true)
    (hown : a'.connection.identity = some own) :
    ∀ b ∈ s'.accounts, b.accountId ≠ request.accountId → b.indexedIdentity ≠ some own := by
  intro b hb hoth hindexed
  have hcurr : a'.connection.currentIdentity = some identity := by
    rw [hresv.row, currentIdentity, h.reservation]
    rfl
  have hlive₀ : a.connection.status.live = true := by
    cases hdead : a.connection.status.live with
    | true => rfl
    | false =>
      rw [hresv.dead hdead] at hlive
      cases hlive
  have hown₀ : a.connection.identity = some own := by
    rw [hresv.row] at hown
    exact hown
  rcases h.before with ⟨hnew, -⟩ | ⟨old, hold, hname', hls, hregistered, -, hstat⟩
  · rw [hnew] at hcrtd
    cases hcrtd
  · have hsecures := all_eq_true.mp hok old hold
    simp only [hname', ne_eq, not_true_eq_false, decide_false, Bool.false_or, secures, Bool.and_eq_true] at hsecures
    have hfree := hsecures.2
    rw [live_of_status hstat, hlive₀, ← hregistered, hown₀, hident] at hfree
    simp only [Bool.not_true, Bool.false_or, Bool.or_eq_true, decide_eq_true_eq, reduceCtorEq, or_false] at hfree
    rcases hfree with hsame | hfree
    · -- it is the identity that is reserved, which the account holds in the index
      rw [← hsame] at hcurr
      refine (identitiesUnique_iff hsnd.ids).mp hsnd.unique b hb a' ha' ?_ own hindexed ?_
      · rw [hname]
        exact hoth
      · exact indexedIdentity_some.mpr ⟨hlive, hcurr⟩
    · have huncontested : Uncontested mid request.accountId own :=
        fun b hb hoth => uncontested_iff.mp hfree b (hoths b hb hoth) hoth
      obtain ⟨hlive', hcurr'⟩ := indexedIdentity_some.mp hindexed
      refine hkept _ _ huncontested b hb hoth ?_ hcurr'
      rw [competes, hlive']
      rfl

end Secured

theorem validateReserve_again {pair : Fingerprint × Fingerprint} {secretRef : String}
    (expectedRevision : Nat) (h : validateReserve request = .ok pair) (hscrt : validSecretRef secretRef = true) :
    validateReserve { request with secretRef, expectedRevision } = .ok pair ∧ validIdentifier request.accountId 96 = true := by
  rw [validateReserve, unit_bind_ok, refuseIf_ok] at h
  obtain ⟨hval, h⟩ := h
  simp only [Bool.or_eq_false_iff, Bool.not_eq_false'] at hval
  refine ⟨?_, hval.1.1.1.1⟩
  rw [validateReserve, unit_bind_ok, refuseIf_ok]
  refine ⟨?_, h⟩
  simp [hval, hscrt]

/-- What the caller of a reservation does next. -/
def AccountView.activation (view : AccountView) (request : ReserveRequest) : ReserveRequest :=
  { request with secretRef := view.secretOf request, expectedRevision := view.connectionRevision }

/-- What it does when it could not write the secret. -/
def AccountView.compensation (view : AccountView) (request : ReserveRequest) : AbortRequest where
  ownerId := request.ownerId
  accountId := request.accountId
  secretRef := view.secretOf request
  previousSecretRef := view.previousSecretRef
  expectedRevision := view.connectionRevision
  created := view.created

/-- **A reservation belongs to its owner**: after anything that happens in the background, the
account is unbound and at the revision returned, and can be activated or given up. -/
theorem reservation_kept {adminToken : String} {request : ReserveRequest} {view : AccountView} {mid : World}
    (h : Runs.Reaches (step settings) Runs.always World.empty s)
    (hreserve : reserveAccount settings adminToken request s = .ok (mid, view)) (hnew : mid ≠ s)
    (hok : securesReservation s request = true)
    (hrun : Runs.Reaches (step settings) (fun _ act => act.isRequest = false) mid s') :
    (∃ a ∈ s'.accounts, a.accountId = request.accountId ∧ a.connection.workerId = none
        ∧ a.connection.revision = view.connectionRevision)
      ∧ (∃ answer, activateAccount settings adminToken (view.activation request) s' = .ok answer)
      ∧ ∃ after, abortAccount settings adminToken (view.compensation request) s' = .ok after := by
  have hreached : Runs.Reaches (step settings) always empty mid := by
    refine .step (a := .reserve adminToken request) h trivial ?_
    rw [step, hreserve]
    rfl
  obtain ⟨identity, server, a, hadmin, hval, -, ha, hmade, hoths⟩ := reserveAccount_made hreserve hnew
  obtain ⟨hident, -, -⟩ := validateReserve_ok hval
  have hreferenced := wellReferenced_reachable hreached a ha
  have hscrt := hreferenced.reserved _ hmade.reservation
  -- the reservation is carried through the run, and its row is as it was made
  obtain ⟨hsnd, ⟨a', ha', hresv⟩, hkept⟩ :=
    reserved_run (sound_reachable hreached) ha (hmade.steady hok) hrun
  have hname : a'.accountId = request.accountId := by
    rw [Account.accountId, hresv.row]
    exact hmade.account
  have howner : a'.connection.userId = request.ownerId := by
    rw [hresv.row]
    exact hmade.owner
  have hrev : a'.connection.revision = view.connectionRevision := by
    rw [hresv.row]
    exact hmade.revision
  have hresvn : a'.connection.reservation = some ⟨view.secretOf request, s.now, identity, server⟩ := by
    rw [hresv.row]
    exact hmade.reservation
  obtain ⟨hvalid', hidentifier⟩ := validateReserve_again view.connectionRevision hval hscrt
  refine ⟨⟨a', ha', hname, hresv.steady.unbound, hrev⟩, ?_, ?_⟩
  · exact activate_succeeds hsnd hadmin hvalid' hmade.positive
      (hmade.unconflicted hok hident hoths hsnd ha' hname hresv hkept) ha' howner hname hrev
      hresv.steady.unbound hresvn
  · refine abort_succeeds hsnd hadmin hidentifier hscrt hmade.positive ?_ ha' howner hname ?_ hrev
      (hresv.secret.trans hmade.secret) ?_
    · intro secretRef hprv
      exact hreferenced.active secretRef (hmade.secret.trans hprv)
    · rw [hresvn]
      rfl
    · intro hcrtd hlive own hown
      exact hmade.unclaimed hok hident hoths hsnd ha' hname hresv hkept hcrtd hlive hown

/-- An account is created, its worker says hello again, and a sweep finds nothing to do. -/
theorem reservation_kept_created : ∃ (s' : World) (view : AccountView),
    (∃ answer, activateAccount demoSettings "admin" (view.activation (demoReserve "a1" 0)) s' = .ok answer)
      ∧ ∃ after, abortAccount demoSettings "admin" (view.compensation (demoReserve "a1" 0)) s' = .ok after := by
  have hexec : ∃ s : World, exec (step demoSettings) (fun _ _ => true) empty [.hello (demoHello "w1" [])] = some s
      ∧ securesReservation s (demoReserve "a1" 0) = true
      ∧ ∃ made : World × AccountView, (reserveAccount demoSettings "admin" (demoReserve "a1" 0) s).toOption = some made
      ∧ made.1 ≠ s
      ∧ ∃ s' : World, exec (step demoSettings) (fun _ act => !act.isRequest) made.1
        [.hello (demoHello "w1" []), .wait 1000, .sweep] = some s' ∧ s' ≠ made.1 := by
    decide +kernel
  obtain ⟨s, hrun, hok, made, hreserve, hnew, s', hrest, -⟩ := hexec
  refine ⟨s', made.2, (reservation_kept (reaches_exec hrun)
    (toOption_some hreserve) hnew hok (reaches_of_exec (fun _ _ hallw => ?_) hrest)).2⟩
  simpa using hallw

/-- Replacement credentials are reserved for an account that is still queued, and the
scheduler places it. -/
theorem reservation_placed : ¬ ∀ (settings : Settings) (s mid s' : World) (adminToken : String)
    (request : ReserveRequest) (view : AccountView), Runs.Reaches (step settings) Runs.always World.empty s →
      reserveAccount settings adminToken request s = .ok (mid, view) → mid ≠ s →
      Runs.Reaches (step settings) (fun _ act => act.isRequest = false) mid s' →
      (∃ a ∈ s'.accounts, a.accountId = request.accountId ∧ a.connection.workerId = none
          ∧ a.connection.revision = view.connectionRevision)
        ∧ (∃ answer, activateAccount settings adminToken (view.activation request) s' = .ok answer)
        ∧ ∃ after, abortAccount settings adminToken (view.compensation request) s' = .ok after := by
  intro h
  have hexec : ∃ s : World, exec (step demoSettings) (fun _ _ => true) empty
        [.hello (demoHello "w1" []), .reserve "admin" (demoReserve "a1" 0), .activate "admin" (demoReserve "a1" 1)]
        = some s
      ∧ ∃ made : World × AccountView, (reserveAccount demoSettings "admin" (demoReserve "a1" 2) s).toOption = some made
      ∧ made.1 ≠ s
      ∧ ∃ s' : World, exec (step demoSettings) (fun _ act => !act.isRequest) made.1 [.place "a1" "w1"] = some s'
      ∧ ∀ a ∈ s'.accounts, a.connection.workerId ≠ none := by
    decide +kernel
  obtain ⟨s, hrun, made, hreserve, hnew, s', hrest, hbnd⟩ := hexec
  obtain ⟨⟨a, ha, -, hunb, -⟩, -⟩ := h demoSettings s made.1 s' "admin" (demoReserve "a1" 2) made.2
    (reaches_exec hrun) (toOption_some hreserve) hnew
    (reaches_of_exec (fun _ _ hallw => by simpa using hallw) hrest)
  exact hbnd a ha hunb

end MarketLens.Mt5Vm
