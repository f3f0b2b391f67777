import MarketLens.Mt5Vm.Invariants

/-!
# Readiness and the identity observed

A gate carries an account to `ready` on what the tables say was observed of it. A record of
the submissions says what was: `ready_identified`, an account gets ready only on complete
families and on an observation of the registered identity, as long as no observation of
another identity comes in under an assignment the account was already observed under. That
one is refused, and recorded as complete.
-/

namespace MarketLens.Mt5Vm

open List Option Bool Account Connection PerFamily Store Fallible Relation World

variable {settings : Settings} {s s' : World} {act : Action} {gate : Bool}

/-! ## The record of submissions -/

structure Assignment where
  accountId : AccountId
  workerId : WorkerId
  leaseGeneration : Nat
  workerSession : Nat
deriving DecidableEq

def Lease.assignment (lease : Lease) (accountId : AccountId) : Assignment :=
  ⟨accountId, lease.workerId, lease.generation, lease.workerSession⟩

def AccountState.assignment (state : AccountState) (accountId : AccountId) : Assignment :=
  ⟨accountId, state.workerId, state.leaseGeneration, state.workerSession⟩

/-- A submission that passed the fences. -/
structure Submission where
  assignment : Assignment
  family : SnapshotFamily
  result : SnapshotResult
  observes : Bool
  outcome : SnapshotOutcome

/-- The submission a transaction takes in, if it is one. -/
def submissions (settings : Settings) (s : World) (act : Action) (_ : World) : List Submission :=
  match act with
  | .snapshot envelope request =>
    match ingestSnapshot settings envelope request s with
    | .ok (_, outcome) =>
      [⟨⟨request.accountId, envelope.workerId, request.leaseGeneration, envelope.sessionGeneration⟩, request.family,
        request.result, request.payload.observation.isSome, outcome⟩]
    | .error _ => []
  | _ => []

def lastUnder (kind : Submission → Bool) (log : List Submission) (assignment : Assignment) : Option Submission :=
  (log.filter fun submission => submission.assignment = assignment && kind submission).getLast?

def lastAccepted (family : SnapshotFamily) (log : List Submission) (assignment : Assignment) : Option Submission :=
  lastUnder (fun submission => submission.family = family && submission.outcome = .accepted) log assignment

/-- The last observation of the account itself, accepted or not. -/
def lastObserved (log : List Submission) (assignment : Assignment) : Option Submission :=
  lastUnder (·.observes) log assignment

/-- The last accepted submission of each family is complete, and the last observation of the
account matched what is registered. -/
def identified (log : List Submission) (assignment : Assignment) : Bool :=
  (lastAccepted .account log assignment).any (·.result = .complete)
    && (lastAccepted .positions log assignment).any (·.result = .complete)
    && (lastAccepted .pendingOrders log assignment).any (·.result = .complete)
    && (lastAccepted .instruments log assignment).any (·.result = .complete)
    && (lastObserved log assignment).any (·.outcome = .accepted)

/-- No account gets an observation of another identity than the registered one once it was
observed under the same lease generation and worker session. -/
def staysIdentified (settings : Settings) (s : World) : Action → Bool
  | .snapshot envelope request =>
    s.accounts.all fun a =>
      !(a.accountId = request.accountId && request.mismatches settings a.connection
        && a.accountState.any fun state =>
          state.leaseGeneration = request.leaseGeneration && state.workerSession = envelope.sessionGeneration)
  | _ => true

theorem lastUnder_concat (kind : Submission → Bool) (log : List Submission) (new : Submission) (assignment : Assignment) :
    lastUnder kind (log ++ [new]) assignment
      = if new.assignment = assignment ∧ kind new = true then some new else lastUnder kind log assignment := by
  unfold lastUnder
  rw [filter_append]
  split
  · rename_i h
    rw [filter_cons_of_pos (by simpa using h), filter_nil, getLast?_concat]
  · rename_i h
    rw [filter_cons_of_neg (by simpa using h), filter_nil, append_nil]

/-! ## What the tables say of the record -/

structure Observed (log : List Submission) (a : Account) : Prop where
  /-- The stored observation is of the lease, or of an earlier one. -/
  current : ∀ state, a.accountState = some state → ∃ held, a.lease = some held
    ∧ state.leaseGeneration ≤ held.generation
    ∧ (state.leaseGeneration = held.generation →
      state.workerId = held.workerId ∧ state.workerSession = held.workerSession)
  families : ∀ family assignment, family ≠ .account → assignment.accountId = a.accountId →
    (a.syncStates.get family).completeUnder assignment.workerId assignment.leaseGeneration assignment.workerSession = true →
    (lastAccepted family log assignment).any (·.result = .complete) = true
  /-- Under the assignment of the stored observation, the last observation is one accepted. -/
  matched : ∀ state, a.accountState = some state →
    (lastObserved log (state.assignment a.accountId)).any (·.outcome = .accepted) = true
  account : ∀ state, a.accountState = some state →
    (a.syncStates.account).completeUnder state.workerId state.leaseGeneration state.workerSession = true →
    (lastAccepted .account log (state.assignment a.accountId)).any (·.result = .complete) = true

variable {log : List Submission} {a a' : Account}

theorem Observed.of_same (h : Observed log a) (hid : a'.accountId = a.accountId)
    (hls : a'.lease = a.lease) (hsame : Unobserved a a') : Observed log a' where
  current := by
    rw [hsame.accountState, hls]
    exact h.current
  families := by
    rw [hsame.1, hid]
    exact h.families
  matched := by
    rw [hsame.accountState, hid]
    exact h.matched
  account := by
    rw [hsame.1, hsame.accountState, hid]
    exact h.account

/-- **What both gates ask for is what was submitted under the lease.** -/
theorem Observed.identified {a : Account} (h : Observed log a)
    (hasg : Assigned a.connection a.lease) {workerId : WorkerId} {workerSession : Nat}
    (hbnd : a.connection.workerId = some workerId) {state : AccountState} (hst : a.accountState = some state)
    (hgen : state.leaseGeneration = a.connection.leaseGeneration) (hsess : state.workerSession = workerSession)
    (hcmpl : a.familiesComplete workerId a.connection.leaseGeneration workerSession = true) :
    ∃ held, a.lease = some held ∧ MarketLens.Mt5Vm.identified log (held.assignment a.accountId) = true := by
  obtain ⟨held, hls, -, hcurr⟩ := h.current state hst
  obtain ⟨held', hls', hholder⟩ := hasg.holder workerId hbnd
  rw [hls] at hls'
  cases hls'
  have hleas : a.connection.leaseGeneration = held.generation := by
    rw [hasg.generation, hls]
    rfl
  obtain ⟨hwkr, hworkerSession⟩ := hcurr (hgen.trans hleas)
  have hasgmt : held.assignment a.accountId = state.assignment a.accountId := by
    unfold Lease.assignment AccountState.assignment
    rw [hwkr, hworkerSession, hgen, hleas]
  refine ⟨held, hls, ?_⟩
  rw [← hholder, ← hsess, hleas, hworkerSession] at hcmpl
  simp only [familiesComplete, and_eq_true] at hcmpl
  obtain ⟨⟨⟨hacct, hposs⟩, hpend⟩, hinstruments⟩ := hcmpl
  have hmatched := h.matched state hst
  have haccp := h.account state hst
  rw [← hasgmt] at hmatched haccp
  rw [hwkr, hworkerSession, hgen, hleas] at haccp
  have hfam : ∀ family, family ≠ .account →
      (a.syncStates.get family).completeUnder held.workerId held.generation held.workerSession = true →
      (lastAccepted family log (held.assignment a.accountId)).any (·.result = .complete) = true :=
    fun family hoth => h.families family (held.assignment a.accountId) hoth rfl
  simp only [MarketLens.Mt5Vm.identified, and_eq_true]
  refine ⟨⟨⟨⟨haccp hacct, ?_⟩, ?_⟩, ?_⟩, hmatched⟩
  · exact hfam .positions (by decide) hposs
  · exact hfam .pendingOrders (by decide) hpend
  · exact hfam .instruments (by decide) hinstruments

/-! ## Transactions that submit nothing -/

theorem submissions_of_other (hact : ∀ envelope request, act ≠ .snapshot envelope request) :
    submissions settings s act s' = [] := by
  cases act with
  | snapshot envelope request => exact absurd rfl (hact envelope request)
  | _ => rfl

/-- The readiness gate observes nothing. -/
theorem Account.advanceReadiness_unobserved (workers : List Worker) (now : Millis) (a : Account) :
    Unobserved a (a.advanceReadiness workers now) := by
  unfold advanceReadiness
  split
  · exact ⟨rfl, rfl⟩
  · split
    · dsimp only
      split
      · exact ⟨rfl, rfl⟩
      · exact ⟨rfl, rfl⟩
    · exact ⟨rfl, rfl⟩

theorem Change.unobserved (hact : ∀ envelope request, act ≠ .snapshot envelope request)
    (hchg : Change s act a a') : Unobserved a a' := by
  cases hchg with
  | keep hfrm hconn hls hobs | move horig hfrm hobs => exact hobs
  | renew | place | pair => exact ⟨rfl, rfl⟩
  | activate hact' ha hacct hident hunb hresv hscrt hactvd =>
    subst hactvd
    exact ⟨rfl, rfl⟩
  | observe hact' => exact absurd hact' (hact _ _)
  | ready => exact advanceReadiness_unobserved _ _ _

theorem Move.follows {row row' : Connection} {lease lease' : Option Lease} (hmove : Move s act gate row lease row' lease')
    {held : Lease} (hls : lease = some held) : ∃ held', lease' = some held' ∧ (held.generation < held'.generation
      ∨ held'.generation = held.generation ∧ held'.workerId = held.workerId ∧ held'.workerSession = held.workerSession) := by
  cases hmove with
  | @renew old expiresAt hold | @lapse old hact hold =>
    cases hold.symm.trans hls
    exact ⟨_, rfl, .inr ⟨rfl, rfl, rfl⟩⟩
  | @fence request =>
    refine ⟨held.expireOf request.workerId, by rw [hls]; rfl, .inr ?_⟩
    unfold Lease.expireOf
    split
    · exact ⟨rfl, rfl, rfl⟩
    · exact ⟨rfl, rfl, rfl⟩
  | place =>
    refine ⟨_, rfl, .inl ?_⟩
    rw [hls]
    exact Nat.lt_succ_self _
  | @stop envelope request =>
    refine ⟨held.release envelope.workerId request.leaseGeneration, by rw [hls]; rfl, .inr ?_⟩
    unfold Lease.release
    split
    · exact ⟨rfl, rfl, rfl⟩
    · exact ⟨rfl, rfl, rfl⟩
  | _ => exact ⟨held, hls, .inr ⟨rfl, rfl, rfl⟩⟩

theorem Change.observed (hact : ∀ envelope request, act ≠ .snapshot envelope request)
    (h : Observed log a) (hchg : Change s act a a') : Observed log a' := by
  have hunobserved := hchg.unobserved hact
  have hsync := hunobserved.1
  have hst := hunobserved.accountState
  refine ⟨?_, ?_, ?_, ?_⟩
  · rw [hst]
    intro state hsome
    obtain ⟨held, hls, hle, hcurr⟩ := h.current state hsome
    obtain ⟨held', hls', hlat | ⟨hgen, hwkr, hsess⟩⟩ := hchg.moved.follows hls
    · refine ⟨held', hls', by omega, fun hsame => ?_⟩
      omega
    · rw [← hgen, ← hwkr, ← hsess] at hcurr
      exact ⟨held', hls', by omega, hcurr⟩
  · rw [hsync, hchg.accountId]
    exact h.families
  · rw [hst, hchg.accountId]
    exact h.matched
  · rw [hsync, hst, hchg.accountId]
    exact h.account

/-! ## Submissions -/

section Submit

variable {log : List Submission} {a : Account} {request : SnapshotSubmission} {worker : Worker}

def SnapshotSubmission.assignment (request : SnapshotSubmission) (worker : Worker) : Assignment :=
  ⟨request.accountId, worker.workerId, request.leaseGeneration, worker.sessionGeneration⟩

theorem SyncState.record_completeUnder {errorCode : Option String} {state : SyncState} {workerId : WorkerId}
    {leaseGeneration workerSession : Nat}
    (h : (state.record request worker errorCode).completeUnder workerId leaseGeneration workerSession = true) :
    request.result = .complete ∧ request.assignment worker = ⟨request.accountId, workerId, leaseGeneration, workerSession⟩ := by
  unfold SyncState.completeUnder at h
  simp only [and_eq_true, decide_eq_true_eq] at h
  obtain ⟨⟨⟨hresult, hwkr⟩, hgen⟩, hsess⟩ := h
  cases hwkr
  cases hgen
  cases hsess
  exact ⟨hresult, rfl⟩

section Accepted

variable (request : SnapshotSubmission) (worker : Worker) (a : Account)

theorem Account.updateFreshness_unobserved : Unobserved a (a.updateFreshness request worker) := by
  unfold updateFreshness
  split
  · exact ⟨rfl, rfl⟩
  · exact ⟨rfl, rfl⟩

theorem Account.storeRows_syncStates : (a.storeRows request worker).syncStates = a.syncStates := by
  unfold storeRows
  split <;> rfl

theorem Account.accept_syncStates : (a.accept request worker).syncStates
      = a.syncStates.set request.family ((a.syncStates.get request.family).record request worker request.errorCode) := by
  unfold accept
  rw [(updateFreshness_unobserved request worker _).1, ← a.storeRows_syncStates request worker]
  rfl

theorem Account.accept_accountState :
    (request.payload.observation = none → (a.accept request worker).accountState = a.accountState)
      ∧ ∀ observed, request.payload.observation = some observed → (a.accept request worker).accountState
        = some ⟨observed.tradeAllowed, observed.observedLoginSuffix, worker.workerId, request.leaseGeneration,
            worker.sessionGeneration, request.syncSequence⟩ := by
  have hstrd : (a.accept request worker).accountState = (a.storeRows request worker).accountState :=
    (updateFreshness_unobserved request worker _).accountState
  rw [hstrd]
  unfold storeRows
  cases hpld : request.payload with
  | account observed =>
    cases observed with
    | none => exact ⟨fun _ => rfl, nofun⟩
    | some =>
      refine ⟨nofun, fun _ hsome => ?_⟩
      cases hsome
      rfl
  | _ => exact ⟨fun _ => rfl, nofun⟩

end Accepted

theorem Observed.other (h : Observed log a) {new : Submission} (hoth : new.assignment.accountId ≠ a.accountId) :
    Observed (log ++ [new]) a := by
  have hlast : ∀ kind assignment, assignment.accountId = a.accountId →
      lastUnder kind (log ++ [new]) assignment = lastUnder kind log assignment := by
    intro kind assignment hid
    rw [lastUnder_concat, if_neg]
    rintro ⟨rfl, -⟩
    exact hoth hid
  refine ⟨h.current, ?_, ?_, ?_⟩
  · intro family assignment hfam hid hcmpl
    rw [lastAccepted, hlast _ _ hid]
    exact h.families family assignment hfam hid hcmpl
  · intro state hst
    rw [lastObserved, hlast _ _ rfl]
    exact h.matched state hst
  · intro state hst hcmpl
    rw [lastAccepted, hlast _ _ rfl]
    exact h.account state hst hcmpl

/-- An observation of another identity is recorded, under an assignment the account was not
observed under before. -/
theorem Observed.mismatched (h : Observed log a) (hid : a.accountId = request.accountId) (hfam : request.family = .account)
    (hnew : ∀ state, a.accountState = some state → state.assignment a.accountId ≠ request.assignment worker)
    (errorCode : Option String) (observes : Bool) :
    Observed (log ++ [⟨request.assignment worker, request.family, request.result, observes, .identityMismatch⟩])
      (a.recordSync request worker errorCode) := by
  refine ⟨h.current, ?_, ?_, ?_⟩
  · intro family assignment hoth hasgmt hcmpl
    unfold recordSync at hcmpl
    rw [hfam] at hcmpl
    rw [get_set_of_ne _ hoth] at hcmpl
    rw [lastAccepted, lastUnder_concat, if_neg (by simp)]
    exact h.families family assignment hoth hasgmt hcmpl
  · intro state hst
    rw [lastObserved, lastUnder_concat, if_neg]
    · exact h.matched state hst
    · rintro ⟨hsame, -⟩
      exact hnew state hst hsame.symm
  · intro state hst hcmpl
    unfold recordSync at hcmpl
    rw [hfam] at hcmpl
    obtain ⟨-, hsame⟩ := SyncState.record_completeUnder hcmpl
    refine absurd ?_ (hnew state hst)
    rw [hsame, ← hid]
    rfl

/-- An accepted submission is recorded as what it is. -/
theorem Observed.accepted (h : Observed log a) (hid : a.accountId = request.accountId)
    (hfam : request.payload.family = request.family) {held : Lease} (hls : a.lease = some held)
    (hheld : held.workerId = worker.workerId ∧ held.workerSession = worker.sessionGeneration
      ∧ held.generation = request.leaseGeneration) :
    Observed (log ++ [⟨request.assignment worker, request.family, request.result, request.payload.observation.isSome,
      .accepted⟩]) (a.accept request worker) := by
  obtain ⟨hconn, hls', -⟩ := a.accept_keeps request worker
  have hname : (a.accept request worker).accountId = a.accountId := congrArg Connection.accountId hconn
  obtain ⟨hkept, hstrd⟩ := a.accept_accountState request worker
  have hsync := a.accept_syncStates request worker
  -- what is complete afterwards was just submitted, or was complete before
  have hcmpl : ∀ family assignment, assignment.accountId = a.accountId →
      ((a.accept request worker).syncStates.get family).completeUnder assignment.workerId assignment.leaseGeneration
        assignment.workerSession = true →
      (family = request.family ∧ assignment = request.assignment worker ∧ request.result = .complete)
        ∨ (family ≠ request.family ∧ (a.syncStates.get family).completeUnder assignment.workerId assignment.leaseGeneration
          assignment.workerSession = true) := by
    intro family assignment hasgmt hdone
    rw [hsync] at hdone
    by_cases hsame : family = request.family
    · rw [hsame, get_set_self] at hdone
      obtain ⟨hresult, hunder⟩ := SyncState.record_completeUnder hdone
      refine .inl ⟨hsame, ?_, hresult⟩
      rw [hunder, ← hid, ← hasgmt]
    · rw [get_set_of_ne _ hsame] at hdone
      exact .inr ⟨hsame, hdone⟩
  have hfamilies : ∀ family assignment, assignment.accountId = a.accountId →
      ((a.accept request worker).syncStates.get family).completeUnder assignment.workerId assignment.leaseGeneration
        assignment.workerSession = true →
      (family ≠ request.family → (lastAccepted family log assignment).any (·.result = .complete) = true) →
      (lastAccepted family (log ++ [⟨request.assignment worker, request.family, request.result,
        request.payload.observation.isSome, .accepted⟩]) assignment).any (·.result = .complete) = true := by
    intro family assignment hasgmt hdone hbef
    rw [lastAccepted, lastUnder_concat]
    rcases hcmpl family assignment hasgmt hdone with ⟨rfl, rfl, hresult⟩ | ⟨hoth, -⟩
    · rw [if_pos (by simp), any_some, hresult]
      rfl
    · rw [if_neg (by simp [hoth.symm])]
      exact hbef hoth
  refine ⟨?_, ?_, ?_, ?_⟩
  · rw [hls', hls]
    intro state hst
    refine ⟨held, rfl, ?_⟩
    cases hobs : request.payload.observation with
    | none =>
      rw [hkept hobs] at hst
      obtain ⟨held', hheld', hcurr⟩ := h.current state hst
      cases hls.symm.trans hheld'
      exact hcurr
    | some observed =>
      rw [hstrd observed hobs] at hst
      cases hst
      exact ⟨hheld.2.2.ge, fun _ => ⟨hheld.1.symm, hheld.2.1.symm⟩⟩
  · rw [hname]
    intro family assignment hoth hasgmt hdone
    refine hfamilies family assignment hasgmt hdone fun hnot => ?_
    rcases hcmpl family assignment hasgmt hdone with ⟨hsame, -⟩ | ⟨-, hbef⟩
    · exact absurd hsame hnot
    · exact h.families family assignment hoth hasgmt hbef
  · rw [hname]
    intro state hst
    rw [lastObserved, lastUnder_concat]
    cases hobs : request.payload.observation with
    | none =>
      rw [if_neg (by simp)]
      rw [hkept hobs] at hst
      exact h.matched state hst
    | some observed =>
      rw [hstrd observed hobs] at hst
      cases hst
      rw [if_pos, any_some]
      · rfl
      · exact ⟨by rw [hid]; rfl, rfl⟩
  · rw [hname]
    intro state hst hdone
    refine hfamilies .account (state.assignment a.accountId) rfl hdone fun hnot => ?_
    -- a submission of another family observes nothing
    have hnone : request.payload.observation = none := by
      cases hpld : request.payload with
      | account =>
        rw [hpld] at hfam
        exact absurd hfam hnot
      | _ => rfl
    rw [hkept hnone] at hst
    rcases hcmpl .account (state.assignment a.accountId) rfl hdone with ⟨hsame, -⟩ | ⟨-, hbef⟩
    · exact absurd hsame hnot
    · exact h.account state hst hbef

end Submit

/-! ## The gates -/

section Gates

variable {log : List Submission} {a : Account} {request : SnapshotSubmission} {worker : Worker} {workers : List Worker}
  {now : Millis}

theorem Observed.onWindows (h : Observed log a) (hasg : Assigned a.connection a.lease)
    (hrdy : a.readyOnWindows request worker now = true) :
    ∃ held, a.lease = some held ∧ MarketLens.Mt5Vm.identified log (held.assignment a.accountId) = true := by
  simp only [readyOnWindows, assignedTo, Bool.and_eq_true, decide_eq_true_eq, Option.any_eq_true] at hrdy
  obtain ⟨⟨⟨⟨⟨⟨hbnd, hgen⟩, -⟩, -⟩, -⟩, state, hst, hcurr, hsess⟩, hcmpl⟩ := hrdy
  rw [← hgen] at hcmpl
  exact h.identified hasg hbnd hst hcurr hsess hcmpl

theorem Observed.onBareMetal (h : Observed log a) (hasg : Assigned a.connection a.lease)
    (hrdy : a.readyOnBareMetal worker now = true) :
    ∃ held, a.lease = some held ∧ MarketLens.Mt5Vm.identified log (held.assignment a.accountId) = true := by
  simp only [readyOnBareMetal, and_eq_true] at hrdy
  obtain ⟨⟨hgate, hst⟩, hcmpl⟩ := hrdy
  have hbnd := hgate.1.1.1.1.1.1.1.1.1.1.1
  obtain ⟨state, hst, hobs⟩ := (any_eq_true _ _).mp hst
  simp only [and_eq_true, decide_eq_true_eq] at hobs hbnd
  exact h.identified hasg hbnd hst hobs.1.1.1.2 hobs.1.1.2 hcmpl

theorem Account.advanceReadiness_ready (hrdy : (a.advanceReadiness workers now).connection.status = .ready) :
    a.connection.status = .ready ∨ ∃ worker, a.readyOnBareMetal worker now = true := by
  unfold advanceReadiness at hrdy
  split at hrdy
  · exact .inl hrdy
  · rename_i worker hwkr
    by_cases hops : a.readyOnBareMetal worker now = true
    · exact .inr ⟨worker, hops⟩
    · rw [if_neg hops] at hrdy
      exact .inl hrdy

/-- Both gates together. -/
theorem Account.updateReadiness_ready (hrdy : (a.updateReadiness request worker workers now).connection.status = .ready) :
    a.connection.status = .ready ∨ a.readyOnWindows request worker now = true
      ∨ ∃ worker, a.readyOnBareMetal worker now = true := by
  unfold updateReadiness at hrdy
  split at hrdy
  · by_cases hwindows : a.readyOnWindows request worker now = true
    · exact .inr (.inl hwindows)
    · rw [if_neg hwindows] at hrdy
      rcases advanceReadiness_ready hrdy with hbef | hmetal
      · exact .inl hbef
      · exact .inr (.inr hmetal)
  · exact .inl hrdy

theorem Account.updateReadiness_keeps (request : SnapshotSubmission) (worker : Worker) (workers : List Worker)
    (now : Millis) (a : Account) : (a.updateReadiness request worker workers now).accountId = a.accountId
      ∧ (a.updateReadiness request worker workers now).lease = a.lease
      ∧ Unobserved a (a.updateReadiness request worker workers now) := by
  have hadv : ∀ b : Account, (b.advanceReadiness workers now).accountId = b.accountId
      ∧ (b.advanceReadiness workers now).lease = b.lease ∧ Unobserved b (b.advanceReadiness workers now) := by
    intro b
    refine ⟨?_, (b.advanceReadiness_keeps workers now).1, b.advanceReadiness_unobserved workers now⟩
    unfold advanceReadiness
    split
    · rfl
    split
    · dsimp only
      split <;> rfl
    · rfl
  unfold updateReadiness
  split
  · split
    · exact hadv (a.connect becomeReady)
    · exact hadv a
  · exact ⟨rfl, rfl, rfl, rfl⟩

end Gates

/-! ## Whole runs -/

theorem ingestSnapshot_observed (hsnd : Sound s) (h : ∀ a ∈ s.accounts, Observed log a)
    {envelope : Envelope} {request : SnapshotSubmission} (hok : staysIdentified settings s (.snapshot envelope request) = true)
    (hstep : step settings s (.snapshot envelope request) = some s') :
    ∀ a' ∈ s'.accounts, ∃ a ∈ s.accounts, ∃ b : Account, b.connection = a.connection ∧ b.lease = a.lease
      ∧ Observed (log ++ submissions settings s (.snapshot envelope request) s') b
      ∧ (a' = b ∨ ∃ worker, a' = b.updateReadiness request worker s.workers s.now) := by
  obtain ⟨outcome, h'⟩ := fst_toOption hstep
  obtain ⟨worker, account, f, hauth, hmem, hunder, -, hfam, hcmt, hwrites⟩ := ingestSnapshot_ok h'
  obtain ⟨-, hwkr, hsess, -⟩ := authenticateWorker_ok hauth
  have hnote : submissions settings s (.snapshot envelope request) s'
      = [⟨request.assignment worker, request.family, request.result, request.payload.observation.isSome, outcome⟩] := by
    dsimp only [submissions]
    rw [h', SnapshotSubmission.assignment, hwkr, hsess]
  simp only [SnapshotSubmission.underLease, Bool.and_eq_true, decide_eq_true_eq, Option.any_eq_true] at hunder
  obtain ⟨hname, held, hls, ⟨⟨-, hholder⟩, hheldSession⟩, hgen⟩ := hunder
  obtain ⟨-, rfl⟩ := commitAccount_ok hcmt
  intro a' ha'
  rw [hnote]
  rcases Table.updateWhere_cases ha' with ⟨hold, hoth⟩ | ⟨old, hold, hsame, rfl⟩
  · refine ⟨a', hold, a', rfl, rfl, (h a' hold).other ?_, .inl rfl⟩
    exact fun hid => of_decide_eq_false hoth hid.symm
  · have hold' : old = account := account_unique hsnd.ids hold hmem ((of_decide_eq_true hsame).trans hname.symm)
    subst hold'
    rcases hwrites with ⟨rfl, hmismatch, rfl⟩ | ⟨rfl, hmat, rfl⟩
    -- a mismatch: allowed only where no earlier observation is of another identity
    · refine ⟨old, hold, old.recordSync request worker (some "SYNC_IDENTITY_MISMATCH"), rfl, rfl, ?_, .inl rfl⟩
      have hacct : request.family = .account := by
        rw [← hfam]
        unfold SnapshotSubmission.mismatches at hmismatch
        cases hpld : request.payload with
        | account => rfl
        | _ => rw [hpld] at hmismatch; cases hmismatch
      refine (h old hold).mismatched hname hacct ?_ _ _
      intro state hst hcurr
      have hallw := List.all_eq_true.mp hok old hold
      have hunder := Assignment.mk.inj hcurr
      simp [hname, hmismatch, hst, hunder.2.2.1, hunder.2.2.2, hsess] at hallw
    · obtain ⟨hconn, hkept, -⟩ := old.accept_keeps request worker
      exact ⟨old, hold, old.accept request worker, hconn, hkept,
        (h old hold).accepted hname hfam hls ⟨hholder, hheldSession, hgen⟩, .inr ⟨worker, rfl⟩⟩

theorem observed_step (hsnd : Sound s) (h : ∀ a ∈ s.accounts, Observed log a)
    (hok : staysIdentified settings s act = true) (hstep : step settings s act = some s') :
    ∀ a ∈ s'.accounts, Observed (log ++ submissions settings s act s') a := by
  by_cases hact : ∃ envelope request, act = .snapshot envelope request
  · obtain ⟨envelope, request, rfl⟩ := hact
    intro a' ha'
    obtain ⟨-, -, b, -, -, hobs, rfl | ⟨worker, rfl⟩⟩ := ingestSnapshot_observed hsnd h hok hstep a' ha'
    · exact hobs
    · obtain ⟨hname, hls, hsame⟩ := b.updateReadiness_keeps request worker s.workers s.now
      exact hobs.of_same hname hls hsame
  · have hoth : ∀ envelope request, act ≠ .snapshot envelope request :=
      fun envelope request hsame => hact ⟨envelope, request, hsame⟩
    rw [submissions_of_other hoth, append_nil]
    refine (step_descends hsnd.ids hstep).forall h (fun a a' ha hchg => hchg.observed hoth ha) ?_
    intro request identity server
    refine ⟨?_, ?_, ?_, ?_⟩
    · intro state hst
      cases hst
    · intro family assignment _ _ hcmpl
      unfold create at hcmpl
      rw [get_fill] at hcmpl
      cases hcmpl
    · intro state hst
      cases hst
    · intro state hst
      cases hst

theorem requeued_not_ready (persistence : Persistence) : persistence.requeued ≠ .ready := by
  cases persistence with
  | session | managed => exact nofun

/-- Without the gates nothing gets ready. -/
theorem Move.not_ready {row row' : Connection} {lease lease' : Option Lease} (hact : act.knocks = false)
    (hmove : Move s act false row lease row' lease') (h : row.status ≠ .ready) : row'.status ≠ .ready := by
  cases hmove with
  | fence | lapse =>
    split
    · exact requeued_not_ready _
    · exact h
  | place | recover | activate | reconnect => exact nofun
  | advance hadv =>
    cases hadv with
    | windows hact' => rw [hact'] at hact; cases hact
    | bareMetal hgate => cases hgate
    | _ => exact nofun
  | stop =>
    unfold Connection.stop
    split
    · exact nofun
    · exact h
  | claim =>
    exact nofun
  | disconnect =>
    unfold Connection.fenceDisconnect
    split
    · exact nofun
    · exact nofun
  | @prepareDelete adminToken request stopping =>
    cases stopping with
    | true | false => exact nofun
  | _ => exact h

theorem Change.not_ready (hact : act.knocks = false) (hchg : Change s act a a')
    (h : a.connection.status ≠ .ready) : a'.connection.status ≠ .ready := by
  cases hchg with
  | keep hfrm hconn | observe hact' hfrm hconn =>
    rw [hconn]
    exact h
  | renew => exact h
  | move horig hfrm hobs hmove => exact hmove.not_ready hact h
  | activate hact' ha hacct hident hunb hresv hscrt hactvd =>
    subst hactvd
    exact nofun
  | place | pair => exact nofun
  | ready hgate =>
    rw [hact] at hgate
    cases hgate

/-- **An account gets ready on its registered identity and on complete families**: in every run
in which no account gets an observation of another identity under the lease generation and
worker session it was observed under. -/
theorem ready_identified {log : List Submission}
    (h : Runs.Records (step settings) (fun s act => staysIdentified settings s act = true) (submissions settings)
      World.empty s log)
    (hok : staysIdentified settings s act = true) (hstep : step settings s act = some s') :
    ∀ a' ∈ s'.accounts, (∀ a ∈ s.accounts, a.accountId = a'.accountId → a.connection.status ≠ .ready) →
      a'.connection.status = .ready → ∃ held, a'.lease = some held
        ∧ identified (log ++ submissions settings s act s') (held.assignment a'.accountId) = true := by
  obtain ⟨hsnd, hobs⟩ : Sound s ∧ ∀ a ∈ s.accounts, Observed log a := by
    refine h.invariant (fun s log => Sound s ∧ ∀ a ∈ s.accounts, Observed log a) ?_ ?_
    · exact ⟨sound_empty, List.forall_mem_nil _⟩
    · rintro s act s' log ⟨hsnd, hobs⟩ hok hstep
      exact ⟨sound_step hsnd hstep, observed_step hsnd hobs hok hstep⟩
  intro a' ha' hbef hrdy
  cases hact : act.knocks with
  | false =>
    -- a step that does not knock makes no account ready
    have hnever : a'.connection.status ≠ .ready := by
      rcases (step_descends hsnd.ids hstep).cases_mem ha' with ⟨a, ha, hchain⟩ | ⟨_, _, _, _, _, _, _, _, rfl⟩
      · have hstat := hbef a ha (chain_accountId hchain).symm
        exact chain_keeps (P := fun b => b.connection.status ≠ .ready) hchain
          (fun _ _ hkept hchg => hchg.not_ready hact hkept) hstat
      · exact ConnectionStatus.noConfusion
    exact absurd hrdy hnever
  | true =>
    cases act with
    | snapshot envelope request =>
      obtain ⟨a, ha, b, hconn, hls, hb, hsame⟩ := ingestSnapshot_observed hsnd hobs hok hstep a' ha'
      have hname : b.accountId = a.accountId := congrArg Connection.accountId hconn
      have hasg : Assigned b.connection b.lease := by
        rw [hconn, hls]
        exact hsnd.assigned a ha
      rcases hsame with rfl | ⟨worker, rfl⟩
      · rw [hconn] at hrdy
        exact absurd hrdy (hbef a ha hname.symm)
      · obtain ⟨hid, hkept, -⟩ := b.updateReadiness_keeps request worker s.workers s.now
        rw [hid, hkept]
        rcases updateReadiness_ready hrdy with hwas | hwindows | ⟨worker', hmetal⟩
        · rw [hconn] at hwas
          exact absurd hwas (hbef a ha (hid.trans hname).symm)
        · exact hb.onWindows hasg hwindows
        · exact hb.onBareMetal hasg hmetal
    | advanceEa ownerId accountId =>
      -- nothing is observed here: readiness rests on what the log has
      have hnone : submissions settings s (.advanceEa ownerId accountId) s' = [] := rfl
      rw [hnone, List.append_nil]
      obtain ⟨-, rfl⟩ := commit_ok (toOption_some hstep)
      rcases Table.updateWhere_cases ha' with ⟨hold, -⟩ | ⟨a, ha, -, rfl⟩
      · exact absurd hrdy (hbef a' hold rfl)
      have hid : (a.advanceReadiness s.workers s.now).accountId = a.accountId := by
        have hgate : (Action.advanceEa ownerId accountId).knocks = true := rfl
        rcases a.advanceReadiness_change (s := s) hgate with hsame | hchg
        · rw [hsame]
        · exact hchg.accountId
      rw [hid, (a.advanceReadiness_keeps s.workers s.now).1]
      rcases advanceReadiness_ready hrdy with hwas | ⟨worker, hmetal⟩
      · exact absurd hwas (hbef a ha hid.symm)
      · exact (hobs a ha).onBareMetal (hsnd.assigned a ha) hmetal
    | _ => cases hact

/-- A complete snapshot of the account `a1` under its first lease. -/
def demoSnapshot (sequence : Int) (payload : SnapshotPayload) : Action :=
  .snapshot ⟨"w1", 1, 1, 1⟩ ⟨"a1", 1, sequence, 1, payload.family, .complete, none, payload⟩

/-- An observation of the account logged in to a server. -/
def demoObservation (server : String) : SnapshotPayload := .account (some ⟨true, server, some "1001", true⟩)

/-- Three families come in complete, the account as its registered identity. -/
def observedRun : List Action :=
  demoConnected [] ++ [demoSnapshot 1 (demoObservation "demo"), demoSnapshot 1 (.positions []), demoSnapshot 1 (.pendingOrders [])]

/-- The fourth family comes in complete. -/
theorem ready_identified_windows : ∃ s s' : World, ∃ log, step demoSettings s (demoSnapshot 1 (.instruments [])) = some s'
    ∧ ∃ a' ∈ s'.accounts, a'.connection.status = .ready
    ∧ ∃ held, a'.lease = some held
      ∧ identified (log ++ submissions demoSettings s (demoSnapshot 1 (.instruments [])) s') (held.assignment a'.accountId)
        = true := by
  have hexec :
      ∃ final, Runs.execRecords (step demoSettings) (staysIdentified demoSettings) (submissions demoSettings)
        World.empty [] observedRun = some final
      ∧ (∀ a ∈ final.1.accounts, a.connection.status ≠ .ready)
      ∧ staysIdentified demoSettings final.1 (demoSnapshot 1 (.instruments [])) = true
      ∧ ∃ s' : World, step demoSettings final.1 (demoSnapshot 1 (.instruments [])) = some s'
      ∧ ∃ a' ∈ s'.accounts, a'.connection.status = .ready := by
    decide +kernel
  obtain ⟨⟨s, log⟩, hrun, hbef, hok, s', hstep, a', ha', hrdy⟩ := hexec
  have hrecords : Runs.Records (step demoSettings) (fun s act => staysIdentified demoSettings s act = true)
      (submissions demoSettings) World.empty s log :=
    Runs.records_of_exec (fun _ _ hallw => hallw) hrun
  exact ⟨s, s', log, hstep, a', ha', hrdy, ready_identified hrecords hok hstep a' ha' (fun a ha _ => hbef a ha) hrdy⟩

/-- After the observation of the registered identity comes one of another server. -/
theorem ready_mismatched : ¬ ∀ (settings : Settings) (s s' : World) (act : Action) (log : List Submission),
    Runs.Records (step settings) Runs.always (submissions settings) World.empty s log → step settings s act = some s' →
      ∀ a' ∈ s'.accounts, (∀ a ∈ s.accounts, a.accountId = a'.accountId → a.connection.status ≠ .ready) →
        a'.connection.status = .ready → ∃ held, a'.lease = some held
          ∧ identified (log ++ submissions settings s act s') (held.assignment a'.accountId) = true := by
  intro h
  have hexec :
      ∃ final, Runs.execRecords (step demoSettings) (fun _ _ => true) (submissions demoSettings)
        World.empty [] (observedRun ++ [demoSnapshot 2 (demoObservation "other")]) = some final
      ∧ (∀ a ∈ final.1.accounts, a.connection.status ≠ .ready)
      ∧ ∃ s' : World, step demoSettings final.1 (demoSnapshot 1 (.instruments [])) = some s'
      ∧ ∃ a' ∈ s'.accounts, a'.connection.status = .ready
      ∧ (a'.lease.all fun held => !identified (final.2 ++ submissions demoSettings final.1 (demoSnapshot 1 (.instruments [])) s')
        (held.assignment a'.accountId)) = true := by
    decide +kernel
  obtain ⟨⟨s, log⟩, hrun, hbef, s', hstep, a', ha', hrdy, hnot⟩ := hexec
  have hrecords := Runs.records_exec hrun
  obtain ⟨held, hls, hidentified⟩ := h demoSettings s s' _ log hrecords hstep a' ha' (fun a ha _ => hbef a ha) hrdy
  rw [hls, Option.all_some, hidentified] at hnot
  cases hnot

end MarketLens.Mt5Vm
