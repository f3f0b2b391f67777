import MarketLens.Mt5Vm.Invariants

/-!
# Removals are final

`removal_final`: once a removal was asked for, an account gets no lease and no provision
command and is never synchronizing or ready, until its owner activates or reconnects it or
it is gone. Every background writer looks at the disconnect the owner asked for, and none
at the removal, so this needs that a removal of an account that is not disconnecting finds
it settled: any two of unbound, without an active lease, and of one session only.
-/

namespace MarketLens.Mt5Vm

open List Option Bool Runs ConnectionStatus Connection Mt5Vm.Action Store Fallible Relation World

variable {settings : Settings} {s s' : World} {act : Action} {gate : Bool}

/-! ## The condition -/

/-- Two of: unbound, without an active lease, and of one session only. Nobody can carry such
an account on, and what takes its worker or its lease does not queue it again. -/
def settled (row : Connection) (lease : Option Lease) : Bool :=
  (row.workerId.isNone && leaseless lease) || (row.workerId.isNone && row.persistence = .session)
    || (leaseless lease && row.persistence = .session)

def settlesRemoval (s : World) : Action → Bool
  | .prepareDelete _ request =>
    s.accounts.all fun a =>
      !(a.accountId = request.accountId) || a.connection.disconnectRequestedRevision.isSome
        || settled (a.connection.prepareDelete (stopsFirst s a.connection a.lease) s.now) a.lease
  | _ => true

/-! ## The invariant -/

/-- The account is neither synchronizing nor ready. -/
def ConnectionStatus.away (status : ConnectionStatus) : Prop := status ≠ .synchronizing ∧ status ≠ .ready

/-- What keeps an account from being carried on. -/
structure Retired (row : Connection) (lease : Option Lease) : Prop where
  /-- It is not connected. -/
  away : row.status.away
  /-- It does not wait for a worker. -/
  idle : row.disconnectRequestedRevision = none → row.status ≠ .queued ∧ row.status ≠ .reconnecting
  /-- And it is settled, unless it is disconnecting. -/
  settled : row.disconnectRequestedRevision = none → settled row lease = true

structure Parting (row : Connection) (lease : Option Lease) : Prop where
  disconnecting : row.disconnectRequestedRevision.isSome = true → row.status.away
  removing : row.removalRequestedAt.isSome = true → Retired row lease

variable {row row' : Connection} {lease lease' : Option Lease}

theorem settled_of (hwkr : row.workerId = none → row'.workerId = none) (hpersistence : row'.persistence = row.persistence)
    (hls : ∀ held', lease' = some held' → held'.status = .active → ∃ held, lease = some held ∧ held.status = .active)
    (h : settled row lease = true) : settled row' lease' = true := by
  unfold settled at h ⊢
  simp only [or_eq_true, and_eq_true, isNone_iff_eq_none, decide_eq_true_eq] at h ⊢
  rw [hpersistence]
  rcases h with (⟨hunb, hinact⟩ | ⟨hunb, hsess⟩) | ⟨hinact, hsess⟩
  · exact .inl (.inl ⟨hwkr hunb, leaseless_of_inactive hls hinact⟩)
  · exact .inl (.inr ⟨hwkr hunb, hsess⟩)
  · exact .inr ⟨leaseless_of_inactive hls hinact, hsess⟩

variable {row : Connection}

theorem not_settled_of_bound {held : Lease} {workerId : WorkerId} (hbnd : row.workerId = some workerId)
    (hval : held.valid s.now = true) : settled row (some held) = false := by
  simp only [Lease.valid, and_eq_true, decide_eq_true_eq] at hval
  simp [settled, leaseless, hbnd, hval.1]

/-- A session account that is requeued waits for its credentials. -/
theorem requeue_retired (h : settled row lease = true)
    (hbnd : ¬(row.workerId = none ∧ leaseless lease = true)) : Retired row.requeue lease' := by
  have hsess : row.persistence = .session := by
    simp only [settled, or_eq_true, and_eq_true, isNone_iff_eq_none, decide_eq_true_eq] at h
    rcases h with (hneither | hsess) | hsess
    · exact absurd hneither hbnd
    · exact hsess.2
    · exact hsess.2
  have hstat : row.requeue.status = .credentialsRequired := by
    rw [requeue, hsess]
    rfl
  refine ⟨?_, ?_, ?_⟩
  · rw [hstat]
    exact ⟨nofun, nofun⟩
  · intro _
    rw [hstat]
    exact ⟨nofun, nofun⟩
  · intro _
    simp [settled, requeue, hsess]

/-- The account stays as it is, up to a lease that is not made active. -/
theorem Parting.of_lease (h : Parting row lease)
    (hls : ∀ held', lease' = some held' → held'.status = .active → ∃ held, lease = some held ∧ held.status = .active) :
    Parting row lease' where
  disconnecting := h.disconnecting
  removing hrmv :=
    { away := (h.removing hrmv).away
      idle := (h.removing hrmv).idle
      settled hopen := settled_of id rfl hls ((h.removing hrmv).settled hopen) }

theorem Parting.requeue (h : Parting row lease)
    (hopen : row.disconnectRequestedRevision = none) (hbnd : ¬(row.workerId = none ∧ leaseless lease = true)) :
    Parting row.requeue lease' where
  disconnecting := by
    intro hdisc
    rw [show row.requeue.disconnectRequestedRevision = none from hopen] at hdisc
    cases hdisc
  removing hrmv := requeue_retired ((h.removing hrmv).settled hopen) hbnd

/-- What a removal asked for in this transaction finds. -/
def RemovalMeets (s : World) (act : Action) (row : Connection) (lease : Option Lease) : Prop :=
  ∀ adminToken request, act = .prepareDelete adminToken request → request.accountId = row.accountId →
    row.disconnectRequestedRevision.isSome = true
      ∨ settled (row.prepareDelete (stopsFirst s row lease) s.now) lease = true

/-- **Every move keeps an account that is parting from being carried on.** -/
theorem Move.parting (hmove : Move s act gate row lease row' lease')
    (h : Parting row lease) (hmeets : RemovalMeets s act row lease) : Parting row' lease' := by
  cases hmove with
  | keep => exact h
  | renew expiresAt hls =>
    refine h.of_lease ?_
    rintro held' hheld' hactv
    cases hheld'
    exact ⟨_, hls, hactv⟩
  | fence =>
    -- Only a bound row is requeued, and one that parts unbound has no active lease.
    split
    · rename_i hrequ
      rw [and_eq_true, isNone_iff_eq_none, decide_eq_true_eq] at hrequ
      refine h.requeue hrequ.2 ?_
      rintro ⟨hunb, -⟩
      rw [hunb] at hrequ
      exact some_ne_none _ hrequ.1.symm
    · exact h.of_lease expireOf_active
  | @lapse held hact hls hlaps =>
    split
    · rename_i hrequ
      rw [and_eq_true, isNone_iff_eq_none] at hrequ
      refine h.requeue hrequ.2 ?_
      rintro ⟨-, hinact⟩
      simp only [Lease.lapsed, and_eq_true] at hlaps
      simp [leaseless, hls, hlaps.1] at hinact
    · refine h.of_lease ?_
      rintro held' hheld' hactv
      cases hheld'
      cases hactv
  | place hact hwtg =>
    simp only [waiting, and_eq_true, Bool.or_eq_true, decide_eq_true_eq, isNone_iff_eq_none] at hwtg
    obtain ⟨⟨hstat, hunb⟩, hopen⟩ := hwtg
    constructor
    · intro hdisc
      rw [hopen] at hdisc
      cases hdisc
    · intro hrmv
      have hidle := (h.removing hrmv).idle hopen
      exact absurd hstat (not_or.mpr hidle)
  | advance hadv hls hval =>
    obtain ⟨workerId, hbnd, hopen⟩ := hadv.bound
    constructor
    · intro hdisc
      rw [hopen] at hdisc
      cases hdisc
    · intro hrmv
      have hsttl := (h.removing hrmv).settled hopen
      rw [hls, not_settled_of_bound hbnd hval] at hsttl
      cases hsttl
  | stop =>
    unfold Connection.stop
    split
    · constructor
      · exact fun _ => ⟨noConfusion, noConfusion⟩
      · intro hrmv
        refine ⟨⟨noConfusion, noConfusion⟩, fun _ => ⟨noConfusion, noConfusion⟩, fun hnone => ?_⟩
        have hsttl := (h.removing hrmv).settled hnone
        have hunb : row.workerId = none → ({ row with status := .disconnected, workerId := none } : Connection).workerId = none :=
          fun _ => rfl
        exact settled_of hunb rfl release_active hsttl
    · exact h.of_lease release_active
  | recover | claim =>
    refine ⟨fun _ => ⟨noConfusion, noConfusion⟩, fun hrmv => ?_⟩
    exact ⟨⟨noConfusion, noConfusion⟩, fun _ => ⟨noConfusion, noConfusion⟩, (h.removing hrmv).settled⟩
  | replace | abort =>
    exact ⟨h.disconnecting, fun hrmv =>
      ⟨(h.removing hrmv).away, (h.removing hrmv).idle, (h.removing hrmv).settled⟩⟩
  | activate | reconnect =>
    exact ⟨Bool.noConfusion, Bool.noConfusion⟩
  | @disconnect adminToken request firstRequest =>
    have haway : (row.fenceDisconnect request.expectedRevision firstRequest).status.away := by
      unfold fenceDisconnect
      split
      · exact ⟨noConfusion, noConfusion⟩
      · exact ⟨noConfusion, noConfusion⟩
    have hask : (row.fenceDisconnect request.expectedRevision firstRequest).disconnectRequestedRevision ≠ none := by
      unfold fenceDisconnect
      cases row.disconnectRequestedRevision <;> exact some_ne_none _
    exact ⟨fun _ => haway, fun _ => ⟨haway, fun hnone => absurd hnone hask, fun hnone => absurd hnone hask⟩⟩
  | @prepareDelete adminToken request stopping hact hacct hstopping =>
    have hstat : (row.prepareDelete stopping s.now).status.away ∧ (row.prepareDelete stopping s.now).status ≠ .queued
        ∧ (row.prepareDelete stopping s.now).status ≠ .reconnecting := by
      cases stopping with
      | true | false =>
        exact ⟨⟨noConfusion, noConfusion⟩, noConfusion,
          noConfusion⟩
    refine ⟨fun _ => hstat.1, fun _ => ⟨hstat.1, fun _ => hstat.2, fun hnone => ?_⟩⟩
    rw [hstopping]
    rcases hmeets adminToken request hact hacct with hdisc | hsttl
    · rw [show row.disconnectRequestedRevision = none from hnone] at hdisc
      cases hdisc
    · exact hsttl

theorem removalMeets_of_mem (hok : settlesRemoval s act = true) {a : Account} (ha : a ∈ s.accounts) :
    RemovalMeets s act a.connection a.lease := by
  rintro adminToken request rfl hname
  have hmeets := List.all_eq_true.mp hok a ha
  have hname : a.accountId = request.accountId := hname.symm
  rw [hname] at hmeets
  simpa only [decide_true, Bool.not_true, Bool.false_or, Bool.or_eq_true] using hmeets

theorem removalMeets_of_other (hact : ∀ adminToken request, act ≠ .prepareDelete adminToken request) (row : Connection)
    (lease : Option Lease) : RemovalMeets s act row lease :=
  fun adminToken request hdele => absurd hdele (hact adminToken request)

theorem Change.parting {a a' : Account} (hchg : Change s act a a') (h : Parting a.connection a.lease)
    (hok : settlesRemoval s act = true) : Parting a'.connection a'.lease := by
  have hmvd := hchg.moved
  cases hchg with
  | keep hfrm hconn hls | observe hact hfrm hconn hls =>
    rw [hconn, hls]
    exact h
  | renew expiresAt hls =>
    refine h.of_lease ?_
    rintro held' hheld' hactv
    cases hheld'
    exact ⟨_, hls, hactv⟩
  | move horig hfrm hobs hmove =>
    obtain ⟨origin, horig, hconn, hls, -⟩ := horig
    have hmeets := removalMeets_of_mem hok horig
    rw [hconn, hls] at hmeets
    exact hmove.parting h hmeets
  | activate hact | place hact | pair hact =>
    exact hmvd.parting h (removalMeets_of_other (by rw [hact]; exact fun _ _ => Action.noConfusion) _ _)
  | ready hgate =>
    refine hmvd.parting h (removalMeets_of_other ?_ _ _)
    rintro adminToken request rfl
    cases hgate

theorem parting_step (hsnd : Sound s) (h : ∀ a ∈ s.accounts, Parting a.connection a.lease)
    (hok : settlesRemoval s act = true) (hstep : step settings s act = some s') :
    ∀ a ∈ s'.accounts, Parting a.connection a.lease := by
  refine (step_descends hsnd.ids hstep).forall h (fun a a' ha hchg => hchg.parting ha hok) ?_
  exact fun request identity server => ⟨Bool.noConfusion, Bool.noConfusion⟩

/-- **In a run that settles its removals, no account that is parting is carried on.** -/
theorem parting_reachable (h : Reaches (step settings) (fun s act => settlesRemoval s act = true) World.empty s) :
    ∀ a ∈ s.accounts, Parting a.connection a.lease := by
  refine h.invariant_along (fun s => ∀ a ∈ s.accounts, Parting a.connection a.lease) (forall_mem_nil _) ?_
  intro s act s' hrun hparting hok hstep
  exact parting_step (sound_reachable hrun) hparting hok hstep

/-! ## What a removal withholds -/

/-- The owner takes the account back. -/
def Action.revives (accountId : AccountId) : Action → Bool
  | .activate _ request => request.accountId = accountId
  | .reconnect _ request => request.accountId = accountId
  | _ => false

/-- The removal stands: the account is neither gone nor taken back. -/
def Action.leavesRemoval (accountId : AccountId) (act : Action) : Bool :=
  !act.deletes accountId && !act.revives accountId

structure Withheld (before after : Account) : Prop where
  account : after.accountId = before.accountId
  removing : after.connection.removalRequestedAt.isSome = true
  lease : after.lease.map Lease.generation = before.lease.map Lease.generation
  provisions : ∀ command ∈ after.commands, command.kind = .provisionAccount →
    ∃ old ∈ before.commands, old.id = command.id ∧ old.kind = command.kind

theorem Withheld.trans {first second third : Account} (h : Withheld first second) (h' : Withheld second third) :
    Withheld first third where
  account := h'.account.trans h.account
  removing := h'.removing
  lease := h'.lease.trans h.lease
  provisions := by
    intro command hcmd hkind
    obtain ⟨mid, hmid, hid, hsame⟩ := h'.provisions command hcmd hkind
    obtain ⟨old, hold, hid', hsame'⟩ := h.provisions mid hmid (hsame.trans hkind)
    exact ⟨old, hold, hid'.trans hid, hsame'.trans hsame⟩

theorem map_generation_of {lease : Option Lease} {f : Lease → Lease} (hf : ∀ held, (f held).generation = held.generation) :
    (lease.map f).map Lease.generation = lease.map Lease.generation := by
  cases lease with
  | none => rfl
  | some held => exact congrArg some (hf held)

/-- A removal stands through every move but its owner's, and the account is leased to nobody. -/
theorem Move.withheld (hmove : Move s act gate row lease row' lease')
    (h : Parting row lease) (hrmv : row.removalRequestedAt.isSome = true)
    (hstands : act.revives row.accountId = false) :
    row'.removalRequestedAt.isSome = true ∧ lease'.map Lease.generation = lease.map Lease.generation := by
  cases hmove with
  | renew expiresAt hls =>
    rw [hls]
    exact ⟨hrmv, rfl⟩
  | @fence request =>
    refine ⟨?_, map_generation_of fun held => (held.expireOf_keeps request.workerId).1⟩
    split
    · exact hrmv
    · exact hrmv
  | lapse hact hls =>
    rw [hls]
    refine ⟨?_, rfl⟩
    split
    · exact hrmv
    · exact hrmv
  | place hact hwtg =>
    simp only [waiting, and_eq_true, or_eq_true, decide_eq_true_eq, isNone_iff_eq_none] at hwtg
    have hidle := (h.removing hrmv).idle hwtg.2
    exact absurd hwtg.1.1 (not_or.mpr hidle)
  | @stop envelope request held =>
    refine ⟨?_, map_generation_of fun held => (held.release_keeps envelope.workerId request.leaseGeneration).1⟩
    unfold Connection.stop
    split
    · exact hrmv
    · exact hrmv
  | activate hact hacct | reconnect hact hacct =>
    rw [hact, revives, hacct] at hstands
    simp at hstands
  | prepareDelete =>
    refine ⟨?_, rfl⟩
    rw [isSome_iff_exists] at hrmv
    obtain ⟨at_, hat⟩ := hrmv
    rw [Connection.prepareDelete, hat]
    rfl
  | _ => exact ⟨hrmv, rfl⟩

theorem Change.withheld {a a' : Account} (hchg : Change s act a a') (h : Parting a.connection a.lease)
    (hrmv : a.connection.removalRequestedAt.isSome = true) (hstands : act.revives a.accountId = false) :
    Withheld a a' := by
  obtain ⟨hrmv', hls⟩ := hchg.moved.withheld h hrmv hstands
  refine ⟨hchg.accountId, hrmv', hls, ?_⟩
  have hsame : a'.commands = a.commands → ∀ command ∈ a'.commands, command.kind = .provisionAccount →
      ∃ old ∈ a.commands, old.id = command.id ∧ old.kind = command.kind :=
    fun hcmds command hcmd _ => ⟨command, hcmds ▸ hcmd, rfl, rfl⟩
  cases hchg with
  | keep hfrm | move horig hfrm | observe hact hfrm =>
    exact hfrm.provisions
  | renew | pair => exact hsame rfl
  | activate hact ha hacct hident hunb hresv hscrt hactvd =>
    subst hactvd
    exact hsame rfl
  | place hact hwtg =>
    simp only [waiting, and_eq_true, or_eq_true, decide_eq_true_eq, isNone_iff_eq_none] at hwtg
    have hidle := (h.removing hrmv).idle hwtg.2
    exact absurd hwtg.1.1 (not_or.mpr hidle)
  | ready => exact hsame (a.advanceReadiness_keeps s.workers s.now).2.2

/-- **Removals are final**: while a removal stands, the account gets no lease and no provision
command, and is neither synchronizing nor ready. -/
theorem removal_final {a : Account}
    (h : Runs.Reaches (step settings) (fun s act => settlesRemoval s act = true) World.empty s) (ha : a ∈ s.accounts)
    (hremoval : a.connection.removalRequestedAt.isSome = true)
    (hrun : Runs.Reaches (step settings) (fun s act => settlesRemoval s act = true ∧ act.leavesRemoval a.accountId = true) s s') :
    ∃ a' ∈ s'.accounts, Withheld a a' ∧ a'.connection.status ≠ .synchronizing ∧ a'.connection.status ≠ .ready := by
  have hkept : (Sound s' ∧ ∀ b ∈ s'.accounts, Parting b.connection b.lease) ∧ ∃ a' ∈ s'.accounts, Withheld a a' := by
    refine hrun.invariant
      (fun s => (Sound s ∧ ∀ b ∈ s.accounts, Parting b.connection b.lease) ∧ ∃ a' ∈ s.accounts, Withheld a a') ?_ ?_
    · refine ⟨⟨sound_reachable h, parting_reachable h⟩, a, ha, rfl, hremoval, rfl, ?_⟩
      exact fun command hcmd _ => ⟨command, hcmd, rfl, rfl⟩
    · rintro s act s' ⟨⟨hsnd, hparting⟩, b, hb, hwithheld⟩ ⟨hok, hleaves⟩ hstep
      refine ⟨⟨sound_step hsnd hstep, parting_step hsnd hparting hok hstep⟩, ?_⟩
      rw [leavesRemoval, and_eq_true, not_eq_true', not_eq_true'] at hleaves
      have hname := hwithheld.account
      obtain ⟨b', hb', hchain⟩ := (step_descends hsnd.ids hstep).survivor hb (by rw [hname]; exact hleaves.1)
      refine ⟨b', hb', ?_⟩
      have hboth : Parting b'.connection b'.lease ∧ Withheld a b' := by
        refine chain_keeps (P := fun b => Parting b.connection b.lease ∧ Withheld a b) hchain ?_ ⟨hparting b hb, hwithheld⟩
        rintro c c' ⟨hparting, hwithheld⟩ hchg
        refine ⟨hchg.parting hparting hok, hwithheld.trans ?_⟩
        exact hchg.withheld hparting hwithheld.removing (by rw [hwithheld.account]; exact hleaves.2)
      exact hboth.2
  obtain ⟨⟨-, hparting⟩, a', ha', hwithheld⟩ := hkept
  exact ⟨a', ha', hwithheld, ((hparting a' ha').removing hwithheld.removing).away⟩

/-- The account is disconnected, its removal is asked for, and its worker says hello again. -/
theorem removal_final_disconnected : ∃ (s s' : World) (a a' : Account),
    a ∈ s.accounts ∧ a' ∈ s'.accounts ∧ s ≠ s' ∧ Withheld a a' := by
  have hexec : ∃ s : World, exec (step demoSettings) settlesRemoval World.empty
        (demoConnected [] ++ [.disconnect "admin" (demoRevision "a1" 3), .prepareDelete "admin" (demoRevision "a1" 4)])
        = some s
      ∧ ∃ a ∈ s.accounts, a.connection.removalRequestedAt.isSome = true
      ∧ ∃ s' : World, exec (step demoSettings) (fun s act => settlesRemoval s act && act.leavesRemoval a.accountId) s
        [.hello (demoHello "w1" []), .sweep] = some s' ∧ s ≠ s' := by
    decide +kernel
  obtain ⟨s, hrun, a, ha, hrmv, s', hrest, hchgd⟩ := hexec
  obtain ⟨a', ha', hwithheld, -⟩ := removal_final (reaches_of_exec (fun _ _ hallw => hallw) hrun) ha hrmv
    (reaches_of_exec (fun _ _ hallw => and_eq_true_iff.mp hallw) hrest)
  exact ⟨s, s', a, a', ha, ha', hchgd, hwithheld⟩

/-- A removal is asked for while the account is bound, and its worker says hello again: the
account is queued, and placed under a new lease. -/
theorem removal_revived : ¬ ∀ (settings : Settings) (s s' : World) (a : Account),
    Runs.Reaches (step settings) Runs.always World.empty s → a ∈ s.accounts → a.connection.removalRequestedAt.isSome = true →
      Runs.Reaches (step settings) (fun _ act => act.leavesRemoval a.accountId = true) s s' →
      ∃ a' ∈ s'.accounts, Withheld a a' ∧ a'.connection.status ≠ .synchronizing ∧ a'.connection.status ≠ .ready := by
  intro h
  have hexec : ∃ s : World, exec (step demoSettings) (fun _ _ => true) World.empty
        (demoConnected [] ++ [.prepareDelete "admin" (demoRevision "a1" 3)]) = some s
      ∧ ∃ a ∈ s.accounts, a.connection.removalRequestedAt.isSome = true
      ∧ ∃ s' : World, exec (step demoSettings) (fun _ act => act.leavesRemoval a.accountId) s
        [.hello (demoHello "w1" []), .place "a1" "w1"] = some s'
      ∧ ∀ a' ∈ s'.accounts, a'.lease.map Lease.generation ≠ a.lease.map Lease.generation := by
    decide +kernel
  obtain ⟨s, hrun, a, ha, hrmv, s', hrest, hleas⟩ := hexec
  obtain ⟨a', ha', hwithheld, -⟩ := h demoSettings s s' a (reaches_exec hrun) ha hrmv
    (reaches_of_exec (fun _ _ hallw => hallw) hrest)
  exact hleas a' ha' hwithheld.lease

end MarketLens.Mt5Vm
