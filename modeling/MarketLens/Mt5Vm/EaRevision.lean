import MarketLens.Mt5Vm.Invariants

/-!
# EA sessions and the revision of their account

An EA session carries the revision its account had when it was paired, and everything that
asks for the session asks for that revision. `session_current`: the session of an account's
current assignment is at the account's revision, as long as nothing advances the revision
alone while there is one. The acknowledgement of the provisioning does.
-/

namespace MarketLens.Mt5Vm

open Table List Nat Lease Account Store Fallible Relation World

variable {settings : Settings} {s s' : World} {act : Action} {gate : Bool}

/-! ## Sessions of the current assignment -/

/-- The session lives, and is of the worker, worker session and lease generation the account
is bound under, with the lease active and no disconnect asked for. -/
def engages (row : Connection) (lease : Option Lease) (session : ManagedSession) : Bool :=
  !session.revoked && row.workerId = some session.workerId && row.leaseGeneration = session.leaseGeneration
    && row.disconnectRequestedRevision.isNone
    && lease.any fun held => held.status = .active && held.workerSession = session.workerSession

/-- The account has an EA session of its current assignment. -/
def Account.paired (a : Account) : Bool := a.sessions.any (engages a.connection a.lease)

/-- The sessions of the current assignment are at the account's revision. -/
def Account.sessionsCurrent (a : Account) : Bool :=
  a.sessions.all fun session =>
    !engages a.connection a.lease session || session.connectionRevision = a.connection.revision

/-- The transaction would advance the revision of the account, and no session with it: a command
of the account is acknowledged as failed, or its provisioning as succeeded, or the account is
stopped to be removed, or its reservation is given up. -/
def advancesAlone (s : World) (row : Connection) (lease : Option Lease) : Action → Bool
  | .ack envelope request =>
    request.accountId = row.accountId && row.assignedTo envelope.workerId request.leaseGeneration
      && (s.command? request.commandId).any fun found =>
        !found.2.2.status.concludedByAck
          && (request.ack = .failed || (request.ack = .succeeded && found.2.2.kind = .provisionAccount))
  | .prepareDelete _ request => request.accountId = row.accountId && stopsFirst s row lease
  | .abort _ request => request.accountId = row.accountId && !request.created
  | _ => false

/-- The transaction advances no revision alone while the account has a session of its assignment. -/
def keepsRevision (s : World) (act : Action) : Bool :=
  s.accounts.all fun a => !(a.paired && advancesAlone s a.connection a.lease act)

variable {session : ManagedSession}

theorem engages_iff {row : Connection} {lease : Option Lease} :
    engages row lease session = true ↔ session.revoked = false ∧ row.workerId = some session.workerId
      ∧ row.leaseGeneration = session.leaseGeneration ∧ row.disconnectRequestedRevision = none
      ∧ ∃ held, lease = some held ∧ held.status = .active ∧ held.workerSession = session.workerSession := by
  unfold engages
  simp only [Bool.and_eq_true, Bool.not_eq_true', decide_eq_true_eq, Option.isNone_iff_eq_none, Option.any_eq_true, and_assoc]

variable {a : Account}

theorem sessionsCurrent_iff :
    a.sessionsCurrent = true ↔ ∀ session ∈ a.sessions, engages a.connection a.lease session = true →
      session.connectionRevision = a.connection.revision := by
  rw [sessionsCurrent, all_eq_true]
  refine forall₂_congr fun session hsess => ?_
  cases engages a.connection a.lease session <;> simp

/-! ## Workers and their sessions -/

variable {workers : List Worker}

theorem upsertWorker_ids (new : Worker) (h : (workers.map Worker.workerId).Nodup) :
    ((upsertWorker new workers).map Worker.workerId).Nodup := by
  unfold upsertWorker
  split
  · rw [map_updateWhere_of]
    · exact h
    · intro worker hwkr
      exact (of_decide_eq_true hwkr).symm
  · rename_i hnew
    exact nodup_insert h fun worker hwkr hsame => hnew (any_eq_true.mpr ⟨worker, hwkr, decide_eq_true hsame⟩)

theorem Staffing.ids (h : Staffing s act workers) (hids : (s.workers.map Worker.workerId).Nodup) :
    (workers.map Worker.workerId).Nodup := by
  cases h with
  | hello => exact upsertWorker_ids _ hids
  | same f hf =>
    have hnam : (s.workers.map f).map Worker.workerId = s.workers.map Worker.workerId := by
      rw [List.map_map]
      exact map_congr_left fun worker _ => (hf worker).1
    rw [hnam]
    exact hids

theorem worker_unique (hids : (s.workers.map Worker.workerId).Nodup) {w w' : Worker} (hw : w ∈ s.workers)
    (hw' : w' ∈ s.workers) (h : w.workerId = w'.workerId) : w = w' :=
  inj_on_of_nodup_map hids hw hw' h

structure Sessioned (workers : List Worker) (a : Account) : Prop where
  /-- An active lease is of the current session of its worker. -/
  leased : ∀ held, a.lease = some held → held.status = .active →
    ∃ worker ∈ workers, worker.workerId = held.workerId ∧ worker.sessionGeneration = held.workerSession
  /-- No session is of a lease still to come. -/
  bounded : ∀ session ∈ a.sessions, session.revoked = false →
    session.leaseGeneration ≤ (a.lease.map Lease.generation).getD 0
  /-- Nor of a worker session still to come, and one of the current worker session is on bare metal. -/
  bare : ∀ session ∈ a.sessions, session.revoked = false →
    ∃ worker ∈ workers, worker.workerId = session.workerId ∧ session.workerSession ≤ worker.sessionGeneration
      ∧ (session.workerSession = worker.sessionGeneration → worker.substrate = .bareMetal)

variable {a a' : Account}

/-- A living session after a change was one before, of the same assignment, or was just paired. -/
theorem Change.session_from (hchg : Change s act a a') (hmem : session ∈ a'.sessions) (hliv : session.revoked = false) :
    (∃ old ∈ a.sessions, old.revoked = false ∧ old.workerId = session.workerId
        ∧ old.workerSession = session.workerSession ∧ old.leaseGeneration = session.leaseGeneration)
      ∨ ((∃ worker ∈ s.workers, worker.workerId = session.workerId ∧ worker.sessionGeneration = session.workerSession
          ∧ worker.substrate = .bareMetal)
        ∧ ∃ held, a.lease = some held ∧ session.leaseGeneration = held.generation) := by
  have hsame : session ∈ a.sessions → (∃ old ∈ a.sessions, old.revoked = false ∧ old.workerId = session.workerId
      ∧ old.workerSession = session.workerSession ∧ old.leaseGeneration = session.leaseGeneration) :=
    fun hold => ⟨session, hold, hliv, rfl, rfl, rfl⟩
  have hframed : Frame a a' → (∃ old ∈ a.sessions, old.revoked = false ∧ old.workerId = session.workerId
      ∧ old.workerSession = session.workerSession ∧ old.leaseGeneration = session.leaseGeneration) := by
    intro hfrm
    obtain ⟨old, hold, hali, hwkr, hsess, hgen, -⟩ := hfrm.sessions session hmem hliv
    exact ⟨old, hold, hali, hwkr, hsess, hgen⟩
  cases hchg with
  | keep hfrm | move horig hfrm | observe hact hfrm =>
    exact .inl (hframed hfrm)
  | renew | place => exact .inl (hsame hmem)
  | activate hact ha hacct hident hunb hresv hscrt hactvd =>
    subst hactvd
    exact .inl (hsame hmem)
  | @pair request token runtime tradeAllowed hact hasg =>
    rcases mem_append.mp hmem with hrevoked | hnew
    · obtain ⟨old, -, rfl⟩ := mem_updateWhere.mp hrevoked
      cases hliv
    · cases mem_singleton.mp hnew
      simp only [PairingToken.assigned, Bool.and_eq_true, any_eq_true, decide_eq_true_eq, Option.any_eq_true] at hasg
      -- the pairing was assigned to a bare-metal worker that holds the lease
      obtain ⟨⟨-, worker, hwkr, ⟨hname, hgen⟩, hsubs⟩, held, hls, hheld⟩ := hasg
      exact .inr ⟨⟨worker, hwkr, hname, hgen, hsubs⟩, held, hls, hheld.1.2.symm⟩
  | @ready worker hgate hwkr hrdy =>
    unfold advanceReadiness at hmem
    rw [hwkr] at hmem
    dsimp only at hmem
    rw [if_pos hrdy] at hmem
    split at hmem
    · exact .inl (hsame hmem)
    · obtain ⟨old, hold, rfl⟩ := mem_updateWhere.mp hmem
      refine .inl ⟨old, hold, ?_⟩
      split at hliv
      · rename_i hmvd
        rw [if_pos hmvd]
        exact ⟨hliv, rfl, rfl, rfl⟩
      · rename_i hstays
        rw [if_neg hstays]
        exact ⟨hliv, rfl, rfl, rfl⟩

/-! ## The session and its worker -/

variable {worker : Worker}

theorem Sessioned.bareMetal (h : Sessioned s.workers a) (hids : (s.workers.map Worker.workerId).Nodup)
    (hasg : Assigned a.connection a.lease) (hmem : session ∈ a.sessions)
    (heng : engages a.connection a.lease session = true) (hwkr : worker ∈ s.workers)
    (hname : worker.workerId = session.workerId) :
    worker.sessionGeneration = session.workerSession ∧ worker.substrate = .bareMetal := by
  obtain ⟨hliv, hbnd, -, -, held, hls, hactv, hsess⟩ := engages_iff.mp heng
  obtain ⟨held', hls', hholder⟩ := hasg.holder _ hbnd
  rw [hls] at hls'
  cases hls'
  obtain ⟨w, hw, hwname, hwsession⟩ := h.leased held hls hactv
  have hsame : w = worker := worker_unique hids hw hwkr (hwname.trans (hholder.trans hname.symm))
  subst hsame
  obtain ⟨w', hw', hwname', -, hbare⟩ := h.bare session hmem hliv
  have hsame : w' = w := worker_unique hids hw' hw (hwname'.trans hname.symm)
  subst hsame
  have hcurr : w'.sessionGeneration = session.workerSession := hwsession.trans hsess
  exact ⟨hcurr, hbare hcurr.symm⟩

variable {row row' : Connection} {lease lease' : Option Lease}

theorem Move.generation_le (hmove : Move s act gate row lease row' lease') :
    (lease.map Lease.generation).getD 0 ≤ (lease'.map Lease.generation).getD 0 := by
  cases hmove with
  | renew expiresAt hls | lapse hact hls => rw [hls]; exact le_refl _
  | @fence request =>
    cases lease with
    | none => exact le_refl _
    | some held => exact (expireOf_keeps request.workerId held).1.ge
  | place => exact le_succ _
  | @stop envelope request held found hact hacct hack hcmd hkind hopen hls =>
    rw [hls]
    exact (release_keeps envelope.workerId request.leaseGeneration held).1.ge
  | _ => exact le_refl _

theorem Move.leased (hmove : Move s act gate row lease row' lease')
    (h : ∀ held, lease = some held → held.status = .active →
      ∃ worker ∈ s.workers, worker.workerId = held.workerId ∧ worker.sessionGeneration = held.workerSession) :
    ∀ held, lease' = some held → held.status = .active →
      ∃ worker ∈ s.workers, worker.workerId = held.workerId ∧ worker.sessionGeneration = held.workerSession := by
  cases hmove with
  | @renew held expiresAt hls =>
    intro held' hheld hactv
    cases hheld
    exact h held hls hactv
  | fence =>
    intro held' hheld hactv
    obtain ⟨held, hls, rfl⟩ := Option.map_eq_some_iff.mp hheld
    unfold expireOf at hactv ⊢
    split at hactv
    · cases hactv
    rename_i hoth
    rw [if_neg hoth]
    exact h held hls hactv
  | lapse =>
    intro held' hheld hactv
    cases hheld
    cases hactv
  | @place worker hact hwtg hwkr =>
    intro held' hheld hactv
    cases hheld
    exact ⟨worker, hwkr, rfl, rfl⟩
  | stop =>
    intro held' hheld hactv
    obtain ⟨old, hls', rfl⟩ := Option.map_eq_some_iff.mp hheld
    unfold release at hactv ⊢
    split at hactv
    · cases hactv
    rename_i hoth
    rw [if_neg hoth]
    exact h old hls' hactv
  | _ => exact h

theorem Sessioned.changed (h : Sessioned s.workers a) (hchg : Change s act a a') : Sessioned s.workers a' where
  leased := hchg.moved.leased h.leased
  bounded := by
    intro session hmem hliv
    have hle := hchg.moved.generation_le
    rcases hchg.session_from hmem hliv with ⟨old, hold, hali, -, -, hgen⟩ | ⟨-, held, hls, hgen⟩
    · have hbdd := h.bounded old hold hali
      omega
    · rw [hls] at hle
      rw [hgen]
      exact hle
  bare := by
    intro session hmem hliv
    rcases hchg.session_from hmem hliv with ⟨old, hold, hali, hname, hsess, -⟩ | ⟨⟨worker, hwkr, hname, hsess, hbare⟩, -⟩
    · obtain ⟨worker, hwkr, hwname, hle, hbare⟩ := h.bare old hold hali
      rw [hname] at hwname
      rw [hsess] at hle hbare
      exact ⟨worker, hwkr, hwname, hle, hbare⟩
    · exact ⟨worker, hwkr, hname, hsess.ge, fun _ => hbare⟩

/-! ## The revision and the session -/

theorem Move.engages (hmove : Move s act false row lease row' lease')
    (hbdd : session.leaseGeneration ≤ (lease.map Lease.generation).getD 0)
    (hbare : engages row lease session = true → ∀ worker ∈ s.workers, worker.workerId = session.workerId →
      worker.substrate = .bareMetal)
    (hkept : engages row lease session = true → advancesAlone s row lease act = false)
    (heng : engages row' lease' session = true) :
    engages row lease session = true ∧ row'.revision = row.revision := by
  obtain ⟨hliv, hbnd, hgen, hopen, held', hls', hactv, hsess⟩ := engages_iff.mp heng
  have hunb : row'.workerId ≠ none := by
    rw [hbnd]
    exact Option.some_ne_none _
  cases hmove with
  | keep => exact ⟨heng, rfl⟩
  | @renew held expiresAt hls =>
    cases hls'
    exact ⟨engages_iff.mpr ⟨hliv, hbnd, hgen, hopen, held, hls, hactv, hsess⟩, rfl⟩
  | fence =>
    obtain ⟨held, hls, rfl⟩ := Option.map_eq_some_iff.mp hls'
    split at hunb
    · exact absurd rfl hunb
    rename_i hstays
    rw [if_neg hstays] at hbnd hgen hopen ⊢
    unfold expireOf at hactv hsess
    split at hactv
    · cases hactv
    rename_i hoth
    rw [if_neg hoth] at hsess
    exact ⟨engages_iff.mpr ⟨hliv, hbnd, hgen, hopen, held, hls, hactv, hsess⟩, rfl⟩
  | lapse =>
    cases hls'
    cases hactv
  | place =>
    -- The new generation is above that of every session.
    dsimp only at hgen
    omega
  | @advance status bump held hadv =>
    have hbef : MarketLens.Mt5Vm.engages row lease session = true := heng
    refine ⟨hbef, ?_⟩
    have halo := hkept hbef
    cases hadv with
    | degrade hact hacct hack hcmd hopen' hasg =>
      subst hact
      simp [advancesAlone, hacct, hasg, hcmd, hopen', hack] at halo
    | provision hact hacct hack hcmd hopen' hkind hasg =>
      subst hact
      simp [advancesAlone, hacct, hasg, hcmd, hopen', hack, hkind] at halo
    | @reconcile envelope request worker hact hwkr hasg =>
      have hmem := mem_of_find?_eq_some hwkr
      simp only [Connection.assignedTo, Bool.and_eq_true, decide_eq_true_eq] at hasg
      have hname : worker.workerId = session.workerId := Option.some.inj (hasg.1.1.symm.trans hbnd)
      have hsubs := hbare hbef worker hmem hname
      simp [hsubs]
    | pair => rfl
    | @windows envelope request worker hact hwkr hsubs hasg =>
      have hmem := mem_of_find?_eq_some hwkr
      simp only [Connection.assignedTo, Bool.and_eq_true, decide_eq_true_eq] at hasg
      have hname : worker.workerId = session.workerId := Option.some.inj (hasg.1.1.symm.trans hbnd)
      exact absurd (hbare hbef worker hmem hname) hsubs
    | bareMetal hgate => cases hgate
  | stop =>
    obtain ⟨old, hold, rfl⟩ := Option.map_eq_some_iff.mp hls'
    unfold Connection.stop at hunb hbnd hgen hopen ⊢
    split at hunb
    · exact absurd rfl hunb
    rename_i hstays
    rw [if_neg hstays] at hbnd hgen hopen ⊢
    unfold release at hactv hsess
    split at hactv
    · cases hactv
    rename_i hoth
    rw [if_neg hoth] at hsess
    exact ⟨engages_iff.mpr ⟨hliv, hbnd, hgen, hopen, old, hold, hactv, hsess⟩, rfl⟩
  | recover hact hacct hfs hnone | claim hact hacct hfs hident hnone
  | replace hact hacct hlat hident hnone | activate hact hacct hident hnone | reconnect hact hacct hnone => exact absurd hnone hunb
  | abort hact hacct hcrtd =>
    subst hact
    have hbef : MarketLens.Mt5Vm.engages row lease session = true := heng
    have halo := hkept hbef
    simp [advancesAlone, hacct, hcrtd] at halo
  | @disconnect adminToken request =>
    have hask : (row.disconnectRequestedRevision.or (some request.expectedRevision)).isSome = true := by simp
    rw [show row.disconnectRequestedRevision.or (some request.expectedRevision) = none from hopen] at hask
    cases hask
  | @prepareDelete adminToken request stopping hact hacct hstopping =>
    subst hact
    cases stopping with
    | false => exact absurd rfl hunb
    | true =>
      have hbef : MarketLens.Mt5Vm.engages row lease session = true := heng
      have halo := hkept hbef
      simp [advancesAlone, hacct, ← hstopping] at halo

theorem Account.paired_of (hmem : session ∈ a.sessions) (heng : engages a.connection a.lease session = true) : a.paired = true :=
  any_eq_true.mpr ⟨session, hmem, heng⟩

/-- **Every change but those that advance a revision alone keeps the sessions at it.** -/
theorem Change.sessionsCurrent (hids : (s.workers.map Worker.workerId).Nodup)
    (hok : keepsRevision s act = true) (hasg : Assigned a.connection a.lease) (hsessioned : Sessioned s.workers a)
    (hcurr : a.sessionsCurrent = true) (hchg : Change s act a a') : a'.sessionsCurrent = true := by
  rw [sessionsCurrent_iff] at hcurr ⊢
  intro session hmem heng
  have hliv := (engages_iff.mp heng).1
  -- an account whose connection and lease are kept has the sessions it had
  have hkeeps : Frame a a' → a'.connection = a.connection → a'.lease = a.lease →
      session.connectionRevision = a'.connection.revision := by
    intro hfrm hconn hls
    obtain ⟨old, hold, hali, hwkr, hsess, hgen, hrev⟩ := hfrm.sessions session hmem hliv
    rw [hconn, hls, engages_iff] at heng
    rw [hconn, ← hrev]
    refine hcurr old hold (engages_iff.mpr ?_)
    rw [hwkr, hsess, hgen]
    exact ⟨hali, heng.2⟩
  cases hchg with
  | keep hfrm hconn hls | observe hact hfrm hconn hls => exact hkeeps hfrm hconn hls
  | @renew held expiresAt hls =>
    obtain ⟨-, hbnd, hgen, hopen, held', hheld, hactv, hsess⟩ := engages_iff.mp heng
    cases hheld
    exact hcurr session hmem (engages_iff.mpr ⟨hliv, hbnd, hgen, hopen, held, hls, hactv, hsess⟩)
  | move horig hfrm hobs hmove =>
    obtain ⟨old, hold, hali, hwkr, hsess, hgen, hrev⟩ := hfrm.sessions session hmem hliv
    have holdengaged : engages a'.connection a'.lease old = true := by
      rw [engages_iff] at heng ⊢
      rw [hwkr, hsess, hgen]
      exact ⟨hali, heng.2⟩
    obtain ⟨origin, horig, hconn, hls, hsesss⟩ := horig
    have hquiet : engages a.connection a.lease old = true → advancesAlone s a.connection a.lease act = false := by
      intro hbef
      have hpaired : origin.paired = true := by
        refine paired_of (hsesss ▸ hold) ?_
        rw [hconn, hls]
        exact hbef
      have hkept := all_eq_true.mp hok origin horig
      rw [hpaired, hconn, hls] at hkept
      simpa using hkept
    have hbare : engages a.connection a.lease old = true → ∀ worker ∈ s.workers, worker.workerId = old.workerId →
        worker.substrate = .bareMetal := fun hbef worker hwkr hname =>
      (hsessioned.bareMetal hids hasg hold hbef hwkr hname).2
    obtain ⟨hbef, hsame⟩ := hmove.engages (hsessioned.bounded old hold hali) hbare hquiet holdengaged
    rw [hsame, ← hrev]
    exact hcurr old hold hbef
  | activate hact ha hacct hident hunb hresv hscrt hactvd =>
    subst hactvd
    obtain ⟨-, hbnd, -⟩ := engages_iff.mp heng
    cases hunb.symm.trans hbnd
  | @place worker =>
    obtain ⟨-, -, hgen, -⟩ := engages_iff.mp heng
    have hbdd := hsessioned.bounded session hmem hliv
    have hnext : (a.place worker s.nextId s.now).connection.leaseGeneration = (a.lease.map generation).getD 0 + 1 := rfl
    omega
  | @pair request token runtime tradeAllowed hact hpaired =>
    rcases mem_append.mp hmem with hrevoked | hnew
    · obtain ⟨old, -, rfl⟩ := mem_updateWhere.mp hrevoked
      cases hliv
    · cases mem_singleton.mp hnew
      simp only [PairingToken.assigned, Bool.and_eq_true, decide_eq_true_eq] at hpaired
      exact hpaired.1.1.1.2.symm
  | @ready worker hgate hwkr hrdy =>
    have hname : a.connection.workerId = some worker.workerId := by simpa using find?_some hwkr
    unfold advanceReadiness at hmem heng ⊢
    rw [hwkr] at hmem heng ⊢
    dsimp only at hmem heng ⊢
    rw [if_pos hrdy] at hmem heng ⊢
    by_cases hstays : a.connection.status = .ready
    · have hbef : (a.register ({ · with status := .ready })).connection.status = .ready := hstays
      rw [if_pos hbef] at hmem heng ⊢
      exact hcurr session hmem heng
    · have hbef : ¬(a.register ({ · with status := .ready })).connection.status = .ready := hstays
      rw [if_neg hbef] at hmem heng ⊢
      rcases updateWhere_cases hmem with ⟨hold, hoth⟩ | ⟨old, hold, hmvd, rfl⟩
      · -- a session of the assignment that is current would have moved
        have hwas : engages a.connection a.lease session = true := heng
        have hrev := hcurr session hold hwas
        obtain ⟨-, hbnd, hgen, -, -⟩ := engages_iff.mp hwas
        have hworkerId : worker.workerId = session.workerId := Option.some.inj (hname.symm.trans hbnd)
        obtain ⟨hsess, -⟩ := hsessioned.bareMetal hids hasg hold hwas (mem_of_find?_eq_some hwkr) hworkerId
        simp [register, hworkerId, hsess, hgen, hrev, hliv] at hoth
      · rfl

/-! ## Whole runs -/

theorem hello_fences {request : WorkerHelloRequest} (h : step settings s (.hello request) = some s') :
    ∀ a ∈ s'.accounts, ∀ held, a.lease = some held → held.status = .active → held.workerId ≠ request.workerId := by
  obtain ⟨response, h⟩ := fst_toOption h
  rw [workerHello, unit_bind_ok, bind_ok] at h
  obtain ⟨-, protocol, -, h⟩ := h
  obtain ⟨mid, hcmt, hsame⟩ := bind_ok.mp h
  cases hsame
  intro a ha held hheld hactv
  rw [(commit_ok hcmt).2] at ha
  obtain ⟨before, -, rfl⟩ := mem_map.mp ha
  have hls : (before.replaceWorkerSession request.workerId
      (enrolled request protocol s.nextId s.now (s.worker? request.workerId)).sessionGeneration s.now).lease
        = before.lease.map (expireOf request.workerId) := by
    unfold replaceWorkerSession
    dsimp only
    split
    · rfl
    · rfl
  rw [hls] at hheld
  obtain ⟨old, -, rfl⟩ := Option.map_eq_some_iff.mp hheld
  unfold expireOf at hactv ⊢
  split at hactv
  · cases hactv
  rename_i hoth
  rw [if_neg hoth]
  intro hname
  simp [hname, hactv] at hoth

theorem mem_upsertWorker_of_ne (new : Worker) (hwkr : worker ∈ workers)
    (hoth : worker.workerId ≠ new.workerId) : worker ∈ upsertWorker new workers := by
  unfold upsertWorker
  split
  · exact unmatched_mem hwkr (by simpa using hoth)
  · exact mem_append_left _ hwkr

theorem mem_upsertWorker_of_eq (new : Worker) (hwkr : worker ∈ workers)
    (hsame : worker.workerId = new.workerId) : new ∈ upsertWorker new workers := by
  unfold upsertWorker
  rw [if_pos (any_eq_true.mpr ⟨worker, hwkr, decide_eq_true hsame⟩)]
  exact updated_mem (f := fun _ => new) hwkr (decide_eq_true hsame)

/-- The workers after the transaction are as the leases and sessions after it say. -/
theorem Sessioned.staffed (h : Sessioned s.workers a)
    (hstaff : Staffing s act workers) (hids : (s.workers.map Worker.workerId).Nodup)
    (hfenced : ∀ request, act = .hello request → ∀ held, a.lease = some held → held.status = .active →
      held.workerId ≠ request.workerId) : Sessioned workers a := by
  cases hstaff with
  | @hello request protocol hact =>
    refine ⟨?_, h.bounded, ?_⟩
    · intro held hheld hactv
      obtain ⟨worker, hwkr, hname, hsess⟩ := h.leased held hheld hactv
      have hoth := hfenced request hact held hheld hactv
      refine ⟨worker, mem_upsertWorker_of_ne _ hwkr ?_, hname, hsess⟩
      rw [hname]
      exact hoth
    · intro session hmem hliv
      obtain ⟨worker, hwkr, hname, hle, hbare⟩ := h.bare session hmem hliv
      by_cases hsame : worker.workerId = request.workerId
      · -- the worker is the one that enrolls: its next session is nobody's yet
        have hfnd : s.worker? request.workerId = some worker := by
          rw [← hsame]
          exact Table.find?_key hids hwkr
        have hnext : (enrolled request protocol s.nextId s.now (s.worker? request.workerId)).sessionGeneration
            = worker.sessionGeneration + 1 := by
          rw [hfnd]
          rfl
        refine ⟨_, mem_upsertWorker_of_eq _ hwkr hsame, hsame.symm.trans hname, ?_, ?_⟩
        · omega
        · intro hequal
          omega
      · exact ⟨worker, mem_upsertWorker_of_ne _ hwkr hsame, hname, hle, hbare⟩
  | same f hf =>
    refine ⟨?_, h.bounded, ?_⟩
    · intro held hheld hactv
      obtain ⟨worker, hwkr, hname, hsess⟩ := h.leased held hheld hactv
      exact ⟨f worker, mem_map_of_mem hwkr, (hf worker).1.trans hname, (hf worker).2.1.trans hsess⟩
    · intro session hmem hliv
      obtain ⟨worker, hwkr, hname, hle, hbare⟩ := h.bare session hmem hliv
      refine ⟨f worker, mem_map_of_mem hwkr, (hf worker).1.trans hname, ?_, ?_⟩
      · rw [(hf worker).2.1]
        exact hle
      · rw [(hf worker).2.1, (hf worker).2.2]
        exact hbare

/-- What holds of sessions while no revision is advanced alone. -/
structure Attended (s : World) : Prop where
  sound : Sound s
  /-- A worker is one row. -/
  ids : (s.workers.map Worker.workerId).Nodup
  sessioned : ∀ a ∈ s.accounts, Sessioned s.workers a
  current : ∀ a ∈ s.accounts, a.sessionsCurrent = true

theorem attended_empty : Attended World.empty where
  sound := sound_empty
  ids := .nil
  sessioned := by
    intro a ha
    exact absurd ha not_mem_nil
  current := by
    intro a ha
    exact absurd ha not_mem_nil

theorem attended_step (h : Attended s) (hok : keepsRevision s act = true) (hstep : step settings s act = some s') :
    Attended s' := by
  have hdescent := step_descends h.sound.ids hstep
  have hstaff := step_staffing hstep
  have haft : ∀ a ∈ s'.accounts, Assigned a.connection a.lease ∧ Sessioned s.workers a ∧ a.sessionsCurrent = true := by
    refine hdescent.forall (fun a ha => ⟨h.sound.assigned a ha, h.sessioned a ha, h.current a ha⟩) ?_ ?_
    · intro a a' ⟨hasg, hsessioned, hcurr⟩ hchg
      exact ⟨hchg.moved.assigned hasg, hsessioned.changed hchg, hchg.sessionsCurrent h.ids hok hasg hsessioned hcurr⟩
    · intro request identity server
      refine ⟨.unbound rfl rfl, ⟨?_, ?_, ?_⟩, rfl⟩
      · intro held hheld
        cases hheld
      · intro session hmem
        cases hmem
      · intro session hmem
        cases hmem
  refine ⟨sound_step h.sound hstep, hstaff.ids h.ids, fun a ha => ?_, fun a ha => (haft a ha).2.2⟩
  refine (haft a ha).2.1.staffed hstaff h.ids ?_
  rintro request rfl
  exact hello_fences hstep a ha

/-- **A session of an account's current assignment is at the account's revision**, in every
state a run reaches that advances no revision alone while there is such a session. -/
theorem session_current (h : Runs.Reaches (step settings) (fun s act => keepsRevision s act = true) World.empty s) :
    ∀ a ∈ s.accounts, ∀ session ∈ a.sessions, engages a.connection a.lease session = true →
      session.connectionRevision = a.connection.revision := by
  have hattended : Attended s := h.invariant Attended attended_empty fun _ _ _ h hok hstep => attended_step h hok hstep
  exact fun a ha => sessionsCurrent_iff.mp (hattended.current a ha)

/-- The terminal process of the account `1001` of the broker `demo`. -/
def demoRuntime : RuntimeBinding := ⟨"slot1", 7, "https://gateway"⟩

/-- The EA of the account pairs with the token the worker was given at its first poll. -/
def demoPaired : List Action :=
  demoConnected ["bare_metal"] ++
    [.poll ⟨"w1", 1, 1, 1⟩ none [2], .bind ⟨"w1", 1, 1, 1⟩ ⟨"a1", 1, 3, 5, demoRuntime⟩,
      .pairEa ⟨5, "agent", some demoRuntime,
        ⟨"1001", "demo", "demo", .demo, "USD", 0, 0, 0, 0, 100, true, 1, none⟩⟩]

/-- An operator has the account reconciled after its EA paired. -/
theorem session_current_reconciled : ∃ s : World, ∃ a ∈ s.accounts, a.paired = true
    ∧ ∀ session ∈ a.sessions, engages a.connection a.lease session = true →
      session.connectionRevision = a.connection.revision := by
  have hexec : ∃ s, Runs.exec (step demoSettings) keepsRevision World.empty
        (demoPaired ++ [.adminCommand "admin" ⟨"owner", "a1", 1, "again", .reconcileAccount, some .empty, none⟩,
          .poll ⟨"w1", 1, 1, 1⟩ none [7], .ack ⟨"w1", 1, 1, 1⟩ ⟨7, "a1", 1, .succeeded, none, none⟩]) = some s
      ∧ ∃ a ∈ s.accounts, a.paired = true ∧ a.connection.status = .synchronizing := by
    decide +kernel
  obtain ⟨s, hrun, a, ha, hpaired, -⟩ := hexec
  exact ⟨s, a, ha, hpaired, session_current (Runs.reaches_of_exec (fun _ _ hallw => hallw) hrun) a ha⟩

/-- No disconnect, removal or reservation is asked for, and no command fails. -/
def Action.undisturbed : Action → Bool
  | .ack _ request => request.ack ≠ .failed
  | .disconnect _ _ | .prepareDelete _ _ | .abort _ _ | .manage _ _ _ => false
  | _ => true

/-- The EA pairs, and then the worker acknowledges the provisioning it was started by. -/
theorem session_outrun : ¬ ∀ (settings : Settings) (s : World),
    Runs.Reaches (step settings) (fun _ act => act.undisturbed = true) World.empty s →
      ∀ a ∈ s.accounts, ∀ session ∈ a.sessions, engages a.connection a.lease session = true →
        session.connectionRevision = a.connection.revision := by
  intro h
  have hexec :
      ∃ s : World, Runs.exec (step demoSettings) (fun _ act => act.undisturbed) World.empty
        (demoPaired ++ [.ack ⟨"w1", 1, 1, 1⟩ ⟨2, "a1", 1, .succeeded, none, none⟩]) = some s
      ∧ ∃ a ∈ s.accounts, ∃ session ∈ a.sessions, engages a.connection a.lease session = true
      ∧ session.connectionRevision ≠ a.connection.revision := by
    decide +kernel
  obtain ⟨s, hrun, a, ha, session, hsess, heng, hbehind⟩ := hexec
  exact hbehind (h demoSettings s (Runs.reaches_of_exec (fun _ _ hallw => hallw) hrun) a ha session hsess heng)

end MarketLens.Mt5Vm
