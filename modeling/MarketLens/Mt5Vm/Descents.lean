import MarketLens.Mt5Vm.Steps

/-!
# The transactions, one by one

For each transaction, the chain of changes it is for the accounts it touches.
-/

namespace MarketLens.Mt5Vm

open List Option Bool Table Account Change Store Fallible Relation World

variable {settings : Settings} {s s' : World}

/-! ## Workers -/

variable {a : Account}

theorem Account.replaceWorkerSession_change {request : WorkerHelloRequest} (session : Nat) (ha : a ∈ s.accounts) :
    Change s (.hello request) a (a.replaceWorkerSession request.workerId session s.now) := by
  have hconn : (a.replaceWorkerSession request.workerId session s.now).connection =
      if a.connection.workerId = some request.workerId && a.connection.disconnectRequestedRevision.isNone then
        a.connection.requeue
      else a.connection := by
    exact apply_ite connection _ _ _
  have hls : (a.replaceWorkerSession request.workerId session s.now).lease = a.lease.map (Lease.expireOf request.workerId) := by
    exact (apply_ite lease _ _ _).trans (ite_self _)
  have hfrm : Frame a (a.updateCommands
      (fun command => command.workerId = request.workerId && command.workerSession < session && command.status.pending)
      (·.concluded .fenced "WORKER_SESSION_REPLACED" s.now)) :=
    .updateCommands (fun command => concluded_keeps _ _ _ command) a
  refine .move (.of_mem ha) ?_ ?_ (by rw [hconn, hls]; exact .fence rfl)
  · unfold replaceWorkerSession
    dsimp only
    split
    · exact hfrm.trans (.of_same rfl rfl rfl)
    · exact hfrm.trans (.of_same rfl rfl rfl)
  · unfold replaceWorkerSession
    dsimp only
    split
    · exact ⟨rfl, rfl⟩
    · exact ⟨rfl, rfl⟩

theorem hello_descends {request : WorkerHelloRequest} (h : step settings s (.hello request) = some s') :
    Descent s (.hello request) s'.accounts := by
  obtain ⟨response, h⟩ := fst_toOption h
  rw [workerHello, unit_bind_ok, bind_ok] at h
  obtain ⟨-, protocol, -, h⟩ := h
  obtain ⟨mid, hcmt, hsame⟩ := bind_ok.mp h
  cases hsame
  obtain ⟨huniq, rfl⟩ := commit_ok hcmt
  refine .evolve ⟨_, rfl, fun a ha => .single ?_⟩ huniq
  exact replaceWorkerSession_change _ ha

variable {worker : Worker} {now : Millis}

theorem WorkerLeaseClaim.lease_of_holds {claim : WorkerLeaseClaim}
    (h : claim.holds worker now a = true) : ∃ held, a.lease = some held := by
  unfold WorkerLeaseClaim.holds at h
  cases hls : a.lease with
  | none => simp [hls] at h
  | some held => exact ⟨held, rfl⟩

variable {act : Action}

theorem renewLeases_evolves (claims : List WorkerLeaseClaim) :
    ∀ (seen : List AccountId) (accounts accounts' : List Account),
      renewLeases worker s.now claims seen accounts = .ok accounts' → EvolvesQuietly s act accounts accounts' := by
  induction claims with
  | nil =>
    intro seen accounts accounts' h
    cases h
    exact .refl _
  | cons claim rest ih =>
    intro seen accounts accounts' h
    rw [renewLeases, unit_bind_ok, unit_bind_ok] at h
    refine .trans (.updateWhere fun a _ hhld => ?_) (ih _ _ _ h.2.2)
    obtain ⟨held, hheld⟩ := claim.lease_of_holds hhld
    refine ⟨?_, rfl⟩
    rw [hheld]
    exact .renew _ hheld

variable {envelope : Envelope}

theorem heartbeat_descends {claims : List WorkerLeaseClaim} (h : step settings s (.heartbeat envelope claims) = some s') :
    Descent s (.heartbeat envelope claims) s'.accounts := by
  have h := toOption_some h
  rw [workerHeartbeat, unit_bind_ok, bind_ok] at h
  obtain ⟨-, worker, -, h⟩ := h
  rw [unit_bind_ok, bind_ok] at h
  obtain ⟨-, accounts, haccounts, hsame⟩ := h
  cases hsame
  exact .quiet (renewLeases_evolves claims _ _ _ haccounts)

theorem poll_descends {maxCommands : Option Nat} {chosen : List Nat}
    (h : step settings s (.poll envelope maxCommands chosen) = some s') :
    Descent s (.poll envelope maxCommands chosen) s'.accounts := by
  obtain ⟨commands, h⟩ := fst_toOption h
  rw [workerPoll, unit_bind_ok, bind_ok] at h
  obtain ⟨-, worker, -, hsame⟩ := h
  cases hsame
  refine .quiet (.trans (.map fun a _ => ⟨a.expireWorkerCommands_change envelope.workerId, rfl⟩)
    (.map fun a _ => ⟨a.dispatch_change worker _ _, a.dispatch_connection _ _ _ _⟩))

theorem bind_descends {request : BindRequest}
    (h : step settings s (.bind envelope request) = some s') : Descent s (.bind envelope request) s'.accounts := by
  obtain ⟨idempotent, h⟩ := fst_toOption h
  rw [workerBindEaBootstrap, unit_bind_ok, unit_bind_ok, bind_ok] at h
  obtain ⟨-, -, worker, -, h⟩ := h
  obtain ⟨account, -, h⟩ := bind_ok.mp h
  obtain ⟨token, -, h⟩ := bind_ok.mp h
  split at h
  · cases h
    exact .quiet (.updateWhere fun a _ _ => ⟨.keep (.of_same rfl rfl rfl) rfl rfl ⟨rfl, rfl⟩, rfl⟩)
  · rw [unit_bind_ok] at h
    cases h.2
    exact .quiet (.refl _)

/-! ## Acknowledgements and operator commands -/

variable {account : Account}

theorem command?_mem {commandId : Nat} {lease : Lease} {command : ControlCommand}
    (h : s.command? commandId = some (account, lease, command)) :
    account ∈ s.accounts ∧ account.lease = some lease ∧ command ∈ account.commands ∧ command.id = commandId := by
  obtain ⟨found, hmem, hfnd⟩ := exists_of_findSome?_eq_some h
  cases hls : found.lease with
  | none => simp [hls] at hfnd
  | some =>
    cases hcmd : found.commands.find? (·.id = commandId) with
    | none => simp [hls, hcmd] at hfnd
    | some =>
      simp only [hls, hcmd, Option.bind_eq_bind, Option.bind_some, Option.pure_def, Option.some.injEq, Prod.mk.injEq] at hfnd
      obtain ⟨rfl, rfl, rfl⟩ := hfnd
      exact ⟨hmem, hls, mem_of_find?_eq_some hcmd, by simpa using find?_some hcmd⟩

variable {request : AckRequest}

/-- What a successful acknowledgement comes down to: nothing, or the command and the account
written together. -/
theorem workerAck_ok {status : ControlStatus} (h : workerAck envelope request s = .ok (s', status)) :
    ∃ worker account lease command target, authenticateWorker envelope s = .ok worker
      ∧ s.command? request.commandId = some (account, lease, command)
      ∧ request.fence worker account lease command s.now = true
      ∧ ackTargetStatus command.status request.ack = .ok target
      ∧ (s' = s ∨ identitiesUnique s'.accounts = true ∧ s'.workers = s.workers ∧ s'.now = s.now
        ∧ s'.accounts = updateWhere (fun account => account.accountId = request.accountId) (fun account =>
            if !command.status.concludedByAck && target.concludedByAck then
              (account.updateCommands (·.id = request.commandId) (·.acknowledged target request s.now)).applyTerminalAck
                request worker command.kind target (s.keyTaken (reconcileKey request.accountId request.leaseGeneration))
                s.nextId s.now
            else account.updateCommands (·.id = request.commandId) (·.acknowledged target request s.now))
          s.accounts) := by
  rw [workerAck, unit_bind_ok, bind_ok] at h
  obtain ⟨-, worker, hwkr, h⟩ := h
  obtain ⟨⟨account, lease, command⟩, hcmd, h⟩ := bind_ok.mp h
  rw [require_ok] at hcmd
  rw [unit_bind_ok, refuseIf_ok, bind_ok] at h
  obtain ⟨hfen, target, htgt, h⟩ := h
  refine ⟨worker, account, lease, command, target, hwkr, hcmd, by simpa using hfen, htgt, ?_⟩
  split at h
  · cases h
    exact .inl rfl
  · rw [unit_bind_ok, unit_bind_ok, bind_ok] at h
    obtain ⟨-, -, mid, hcmt, hsame⟩ := h
    cases hsame
    obtain ⟨huniq, rfl⟩ := commitAccount_ok hcmt
    exact .inr ⟨huniq, rfl, rfl, rfl⟩

/-- An acknowledgement that concludes an open command is the one its new status says. -/
theorem ackTargetStatus_concludes {current target : ControlStatus} {ack : AckKind}
    (h : ackTargetStatus current ack = .ok target) (hopen : current.concludedByAck = false)
    (hconcluded : target.concludedByAck = true) :
    (target = .failed ∧ ack = .failed) ∨ (target = .succeeded ∧ ack = .succeeded) := by
  cases current <;> cases ack <;> simp_all [ackTargetStatus, ControlStatus.concludedByAck]
  all_goals subst h; simp_all

theorem acknowledged_frame (a : Account) (target : ControlStatus) (request : AckRequest) (now : Millis) :
    Frame a (a.updateCommands (·.id = request.commandId) (·.acknowledged target request now)) := by
  refine .updateCommands (fun command => ?_) a
  exact ⟨rfl, rfl⟩

theorem account_unique (hids : (s.accounts.map Account.accountId).Nodup) {a b : Account} (ha : a ∈ s.accounts)
    (hb : b ∈ s.accounts) (h : a.accountId = b.accountId) : a = b :=
  inj_on_of_nodup_map hids ha hb h

variable {held : Lease} {found : Account × Lease × ControlCommand}

theorem Account.degrade_move (hack : request.ack = .failed)
    (hcmd : s.command? request.commandId = some found) (hopen : found.2.2.status.concludedByAck = false)
    (a : Account) (hacct : request.accountId = a.connection.accountId) (hls : a.lease = some held) (hval : held.valid s.now = true) :
    Move s (.ack envelope request) false a.connection a.lease (a.degrade envelope.workerId request.leaseGeneration).connection
        (a.degrade envelope.workerId request.leaseGeneration).lease
      ∧ Frame a (a.degrade envelope.workerId request.leaseGeneration)
      ∧ Unobserved a (a.degrade envelope.workerId request.leaseGeneration) := by
  unfold degrade
  split
  · rename_i hasg
    exact ⟨.advance (.degrade rfl hacct hack hcmd hopen hasg) hls hval, .of_same rfl rfl rfl, rfl, rfl⟩
  · exact ⟨.keep, .of_same rfl rfl rfl, rfl, rfl⟩

theorem Account.queueUnless_keeps (taken : Bool) (command : ControlCommand) (a : Account) :
    (a.queueUnless taken command).connection = a.connection ∧ (a.queueUnless taken command).lease = a.lease
      ∧ Unobserved a (a.queueUnless taken command) := by
  unfold queueUnless
  split
  · exact ⟨rfl, rfl, rfl, rfl⟩
  · exact ⟨rfl, rfl, rfl, rfl⟩

theorem Account.provisioned_move {taken : Bool} {id : Nat}
    (hwkr : worker.workerId = envelope.workerId) (hack : request.ack = .succeeded)
    (hcmd : s.command? request.commandId = some found) (hopen : found.2.2.status.concludedByAck = false)
    (hkind : found.2.2.kind = .provisionAccount) (a : Account) (hacct : request.accountId = a.connection.accountId)
    (hheld : a.lease = some held) (hval : held.valid s.now = true) :
    Move s (.ack envelope request) false a.connection a.lease (a.provisioned request worker taken id now).connection
        (a.provisioned request worker taken id now).lease
      ∧ Frame a (a.provisioned request worker taken id now)
      ∧ Unobserved a (a.provisioned request worker taken id now) := by
  unfold provisioned
  split
  · rename_i hasg
    rw [hwkr] at hasg
    have hmove : Move s (.ack envelope request) false a.connection a.lease _ _ :=
      .advance (.provision rfl hacct hack hcmd hopen hkind hasg) hheld hval
    obtain ⟨hconn, hls, hobs⟩ := queueUnless_keeps taken (.queued id (request.lease worker)
      worker.protocolVersion (reconcileKey request.accountId request.leaseGeneration) .reconcileAccount .empty
      (now + commandTtl))
      (a.connect fun row => { row with status := .synchronizing, revision := row.revision + 1 })
    refine ⟨?_, ?_, hobs⟩
    · rw [hconn, hls]
      exact hmove
    · refine .trans (b := a.connect _) (.of_same rfl rfl rfl) (.queueUnless ?_ _)
      exact nofun
  · exact ⟨.keep, .of_same rfl rfl rfl, rfl, rfl⟩

theorem Account.reconciled_move (hwkr : s.worker? envelope.workerId = some worker) (a : Account) (hls : a.lease = some held)
    (hval : held.valid s.now = true) :
    Move s (.ack envelope request) false a.connection a.lease (a.reconciled request worker).connection
        (a.reconciled request worker).lease
      ∧ Frame a (a.reconciled request worker) ∧ Unobserved a (a.reconciled request worker) := by
  unfold reconciled
  split
  · rename_i hasg
    have hmove : Move s (.ack envelope request) false a.connection a.lease _ _ :=
      .advance (.reconcile rfl hwkr hasg) hls hval
    refine ⟨?_, .of_same rfl rfl rfl, rfl, rfl⟩
    have hrev : (if worker.substrate = .bareMetal then a.connection.revision else a.connection.revision + 1)
        = a.connection.revision + if worker.substrate = .bareMetal then 0 else 1 := by
      split
      · rfl
      · rfl
    dsimp only [connect]
    rw [hrev]
    exact hmove
  · exact ⟨.keep, .of_same rfl rfl rfl, rfl, rfl⟩

theorem Account.stopped_move (a : Account) (hacct : request.accountId = a.connection.accountId) (hack : request.ack = .succeeded)
    (hcmd : s.command? request.commandId = some found) (hkind : found.2.2.kind = .stopAccount)
    (hopen : found.2.2.status.concludedByAck = false) (hls : a.lease = some held) (hval : held.valid s.now = true) :
    Move s (.ack envelope request) false a.connection a.lease (a.stopped envelope.workerId request.leaseGeneration now).connection
        (a.stopped envelope.workerId request.leaseGeneration now).lease
      ∧ Frame a (a.stopped envelope.workerId request.leaseGeneration now)
      ∧ Unobserved a (a.stopped envelope.workerId request.leaseGeneration now) := by
  refine ⟨.stop rfl hacct hack hcmd hkind hopen hls hval, ?_, rfl, rfl⟩
  unfold stopped
  refine .trans ?_ (.updateCommands (fun command => concluded_keeps _ _ _ command) _)
  exact .of_same rfl rfl rfl

theorem ack_descends (hids : (s.accounts.map Account.accountId).Nodup)
    (h : step settings s (.ack envelope request) = some s') : Descent s (.ack envelope request) s'.accounts := by
  obtain ⟨status, h⟩ := fst_toOption h
  obtain ⟨worker, account, lease, command, target, hauth, hcmd, hfen, htgt, hresult⟩ := workerAck_ok h
  obtain ⟨hwkr, hname, -⟩ := authenticateWorker_ok hauth
  obtain ⟨hmem, hls, -⟩ := command?_mem hcmd
  rcases hresult with rfl | ⟨huniq, -, -, haccounts⟩
  · exact .quiet (.refl _)
  refine .evolve ?_ huniq
  rw [haccounts]
  refine .updateWhere fun a ha hname' => .single ?_
  -- the account of the command is the one the acknowledgement names
  simp only [AckRequest.fence, and_eq_true, decide_eq_true_eq] at hfen hname'
  have hsame : a = account := account_unique hids ha hmem (hname'.trans hfen.1.1.1.1.symm)
  rw [← hsame] at hls
  have hacked := acknowledged_frame a target request s.now
  split
  · rename_i hterm
    rw [and_eq_true, not_eq_true'] at hterm
    have heffect : ∀ b : Account, Frame a b → Unobserved a b → b.connection = a.connection → b.lease = a.lease →
        Change s (.ack envelope request) a (b.applyTerminalAck request worker command.kind target
          (s.keyTaken (reconcileKey request.accountId request.leaseGeneration)) s.nextId s.now) := by
      intro b hfrm hobs hconn hheld
      have hjoin : ∀ c : Account, Move s (.ack envelope request) false b.connection b.lease c.connection c.lease
          ∧ Frame b c ∧ Unobserved b c → Change s (.ack envelope request) a c := by
        rintro c ⟨hmove, hfrm', hsync, hst⟩
        rw [hconn, hheld] at hmove
        exact .move (.of_mem ha) (hfrm.trans hfrm') ⟨hsync.trans hobs.1, hst.trans hobs.2⟩ hmove
      have hacct : request.accountId = b.connection.accountId := by
        rw [hconn]
        exact hname'.symm
      rcases ackTargetStatus_concludes htgt hterm.1 hterm.2 with ⟨rfl, hack⟩ | ⟨rfl, hack⟩
      · unfold applyTerminalAck
        rw [if_pos rfl, hname]
        exact hjoin _ (b.degrade_move hack hcmd hterm.1 hacct (hheld.trans hls) hfen.2)
      · unfold applyTerminalAck
        cases hkind : command.kind with
        | provisionAccount => exact hjoin _ (b.provisioned_move hname hack hcmd hterm.1 hkind hacct (hheld.trans hls) hfen.2)
        | reconcileAccount => exact hjoin _ (b.reconciled_move hwkr (hheld.trans hls) hfen.2)
        | stopAccount =>
          rw [hname]
          exact hjoin _ (b.stopped_move hacct hack hcmd hkind hterm.1 (hheld.trans hls) hfen.2)
    exact heffect _ hacked ⟨rfl, rfl⟩ rfl rfl
  · exact .keep hacked rfl rfl ⟨rfl, rfl⟩

variable {adminToken : String}

theorem adminCommand_descends {request : AdminCommandRequest} (h : step settings s (.adminCommand adminToken request) = some s') :
    Descent s (.adminCommand adminToken request) s'.accounts := by
  obtain ⟨status, h⟩ := fst_toOption h
  rw [queueAdminCommand, unit_bind_ok, unit_bind_ok, refuseIf_ok] at h
  obtain ⟨-, hval, h⟩ := h
  obtain ⟨⟨lease, worker⟩, -, h⟩ := bind_ok.mp h
  dsimp only at h
  split at h
  · obtain ⟨existing, -, h⟩ := bind_ok.mp h
    rw [unit_bind_ok] at h
    cases h.2
    exact .quiet (.refl _)
  · cases h
    refine .quiet (.updateWhere fun a _ _ => ?_)
    obtain ⟨hconn, hls, hobs⟩ := a.queueUnless_keeps false _
    refine ⟨.keep (.queueUnless ?_ a) hconn hls hobs, hconn⟩
    simp only [or_eq_false_iff, decide_eq_false_iff_not] at hval
    exact hval.1.1.2

/-! ## The scheduler -/

theorem Account.expireLease_change (ha : a ∈ s.accounts) :
    Change s .sweep a (a.expireLease (s.workers.map (·.expire s.now)) s.now) := by
  unfold expireLease
  split
  · exact .keep (.of_same rfl rfl rfl) rfl rfl ⟨rfl, rfl⟩
  rename_i held hheld
  split
  · rename_i hlaps
    have hmove : Move s .sweep false a.connection a.lease _ _ := .lapse rfl hheld hlaps
    split
    · rename_i hrequ
      rw [if_pos hrequ] at hmove
      exact .move (.of_mem ha) (.of_same rfl rfl rfl) ⟨rfl, rfl⟩ hmove
    · rename_i hkept
      rw [if_neg hkept] at hmove
      exact .move (.of_mem ha) (.of_same rfl rfl rfl) ⟨rfl, rfl⟩ hmove
  · exact .keep (.of_same rfl rfl rfl) rfl rfl ⟨rfl, rfl⟩

theorem Account.fenceCommands_change (a : Account) : Change s act a (a.fenceCommands s.now) := by
  refine .keep (.updateCommands (fun command => ?_) a) rfl rfl ⟨rfl, rfl⟩
  split
  · exact concluded_keeps _ _ _ command
  · exact concluded_keeps _ _ _ command

theorem sweep_descends (h : step settings s .sweep = some s') : Descent s .sweep s'.accounts := by
  have h := toOption_some h
  rw [expireStaleState, bind_ok] at h
  obtain ⟨mid, hcmt, hsame⟩ := h
  cases hsame
  obtain ⟨huniq, rfl⟩ := commit_ok hcmt
  refine .evolve ⟨_, rfl, fun a ha => ?_⟩ huniq
  exact .tail (.single (expireLease_change ha)) (fenceCommands_change _)

variable {accountId : AccountId}

theorem place_descends {workerId : WorkerId}
    (hids : (s.accounts.map Account.accountId).Nodup) (h : step settings s (.place accountId workerId) = some s') :
    Descent s (.place accountId workerId) s'.accounts := by
  have h := toOption_some h
  rw [scheduleOne, bind_ok] at h
  obtain ⟨account, hacct, h⟩ := h
  obtain ⟨worker, hwkr, h⟩ := bind_ok.mp h
  rw [unit_bind_ok, bind_ok] at h
  obtain ⟨-, mid, hcmt, hsame⟩ := h
  cases hsame
  obtain ⟨huniq, rfl⟩ := commitAccount_ok hcmt
  rw [require_ok] at hacct hwkr
  have hfnd := find?_some hacct
  have hserves := find?_some hwkr
  simp only [and_eq_true, decide_eq_true_eq] at hfnd hserves
  refine .evolve (.updateWhere fun a ha hname => .single ?_) huniq
  have hsame : a = account :=
    account_unique hids ha (mem_of_find?_eq_some hacct) ((of_decide_eq_true hname).trans hfnd.1.symm)
  subst hsame
  refine .place ?_ hfnd.2 (mem_of_find?_eq_some hwkr) hserves.2
  rw [hfnd.1, hserves.1]

/-! ## Owners -/

variable {ownerId : OwnerId}

theorem isOf_of_find (h : s.accounts.find? (·.isOf ownerId accountId) = some account) :
    account ∈ s.accounts ∧ account.accountId = accountId := by
  have hfnd := find?_some h
  simp only [isOf, and_eq_true, decide_eq_true_eq] at hfnd
  exact ⟨mem_of_find?_eq_some h, hfnd.2⟩

theorem Change.of_move {a b : Account} (ha : a ∈ s.accounts)
    (hscrt : b.registry.secretRef = a.registry.secretRef) (hcmds : b.commands = a.commands)
    (hsesss : b.sessions = a.sessions) (hobs : Unobserved a b)
    (hmove : Move s act false a.connection a.lease b.connection b.lease) : ReflTransGen (Change s act) a b :=
  .single (.move (.of_mem ha) (.of_same hscrt hcmds hsesss) hobs hmove)

variable {request : ReserveRequest}

theorem validateReserve_ok {identity server : Fingerprint} (h : validateReserve request = .ok (identity, server)) :
    decodeIdentityFingerprint request.identityFingerprint = some identity
      ∧ decodeIdentityFingerprint request.serverFingerprint = some server
      ∧ validSecretRef request.secretRef = true := by
  rw [validateReserve, unit_bind_ok, refuseIf_ok, bind_ok] at h
  obtain ⟨hval, identity', hident, h⟩ := h
  obtain ⟨server', hserver, hsame⟩ := bind_ok.mp h
  cases hsame
  rw [require_ok] at hident hserver
  simp only [or_eq_false_iff, not_eq_false'] at hval
  exact ⟨hident, hserver, hval.2⟩

theorem retryDecision_recover {hasActive hasPending fresh : Bool}
    (h : reservationRetryDecision hasActive hasPending fresh = .recoverPending) : hasPending = true ∧ fresh = false := by
  cases hasActive <;> cases hasPending <;> cases fresh <;> simp_all [reservationRetryDecision]

theorem retryDecision_claim {hasActive hasPending fresh : Bool}
    (h : reservationRetryDecision hasActive hasPending fresh = .claimFresh) : hasPending = false ∧ hasActive = false := by
  cases hasActive <;> cases hasPending <;> cases fresh <;> simp_all [reservationRetryDecision]

section Owners

variable (hids : (s.accounts.map Account.accountId).Nodup)
include hids

theorem commitAccount_descends {f : Account → Account} {mid : World} (hmem : account ∈ s.accounts)
    (hname : account.accountId = accountId) (hcmt : s.commitAccount accountId f = .ok mid)
    (hchg : ReflTransGen (Change s act) account (f account)) : Descent s act mid.accounts := by
  obtain ⟨huniq, rfl⟩ := commitAccount_ok hcmt
  refine .evolve (.updateWhere fun a ha hname' => ?_) huniq
  have hsame : a = account := account_unique hids ha hmem ((of_decide_eq_true hname').trans hname.symm)
  subst hsame
  exact hchg

/-- A request made before recovers the reservation, claims the account, or changes nothing. -/
theorem reserveAgain_descends {identity server : Fingerprint} {view : AccountView}
    (hmem : account ∈ s.accounts) (hname : account.accountId = request.accountId) (hfs : request.expectedRevision = 0)
    (hident : decodeIdentityFingerprint request.identityFingerprint = some identity)
    (hscrt : validSecretRef request.secretRef = true)
    (h : reserveAgain request identity server account s = .ok (s', view)) :
    Descent s (.reserve adminToken request) s'.accounts := by
  rw [reserveAgain, unit_bind_ok, unit_bind_ok, refuseIf_ok, refuseIf_ok] at h
  obtain ⟨hsame, hfen, h⟩ := h
  simp only [or_eq_false_iff, decide_eq_false_iff_not, Decidable.not_not] at hsame
  split at h
  · cases h
    exact .quiet (.refl _)
  · cases h
    exact .quiet (.refl _)
  · rename_i hdecision
    obtain ⟨mid, hcmt, hsame'⟩ := bind_ok.mp h
    cases hsame'
    refine commitAccount_descends hids hmem hname hcmt (of_move hmem rfl rfl rfl ⟨rfl, rfl⟩ ?_)
    have hunb : account.connection.workerId = none := by
      rw [hdecision] at hfen
      simpa using hfen
    obtain ⟨hresv, hstale⟩ := retryDecision_recover hdecision
    exact .recover rfl hname.symm hfs hunb hresv hstale
  · rename_i hdecision
    obtain ⟨mid, hcmt, hsame'⟩ := bind_ok.mp h
    cases hsame'
    refine commitAccount_descends hids hmem hname hcmt (of_move hmem rfl rfl rfl ⟨rfl, rfl⟩ ?_)
    have hunb : account.connection.workerId = none := by
      rw [hdecision] at hfen
      simpa using hfen
    obtain ⟨hresv, hsecretless⟩ := retryDecision_claim hdecision
    rw [isSome_eq_false_iff, isNone_iff_eq_none] at hresv hsecretless
    have hown : account.connection.identity = some identity := by
      have hcurr := hsame.1.1.1
      rw [Connection.currentIdentity, hresv] at hcurr
      simpa using hcurr
    refine .claim rfl hname.symm hfs hident hunb hresv hown (fun a ha hoth => ?_) hscrt
    rw [account_unique hids ha hmem hoth]
    exact hsecretless

theorem reserve_descends (h : step settings s (.reserve adminToken request) = some s') :
    Descent s (.reserve adminToken request) s'.accounts := by
  obtain ⟨view, h⟩ := fst_toOption h
  rw [reserveAccount, unit_bind_ok, bind_ok] at h
  obtain ⟨-, ⟨identity, server⟩, hval, h⟩ := h
  obtain ⟨hident, hserver, hscrt⟩ := validateReserve_ok hval
  obtain ⟨-, h⟩ := unit_bind_ok.mp h
  split at h
  · rename_i account hfnd
    obtain ⟨hmem, hname⟩ := isOf_of_find hfnd
    split at h
    · rename_i hfs
      exact reserveAgain_descends hids hmem hname hfs hident hscrt h
    · rename_i hlat
      rw [unit_bind_ok, refuseIf_ok, bind_ok] at h
      obtain ⟨hfree, mid, hcmt, hsame⟩ := h
      cases hsame
      simp only [or_eq_false_iff, isSome_eq_false_iff, isNone_iff_eq_none] at hfree
      refine commitAccount_descends hids hmem hname hcmt (of_move hmem rfl rfl rfl ⟨rfl, rfl⟩ ?_)
      exact .replace rfl hname.symm hlat hident hfree.1.2 hfree.2 hscrt
  · rw [unit_bind_ok, unit_bind_ok, refuseIf_ok, refuseIf_ok, bind_ok] at h
    obtain ⟨-, hnew, mid, hcmt, hsame⟩ := h
    cases hsame
    obtain ⟨huniq, rfl⟩ := commit_ok hcmt
    rw [isSome_eq_false_iff, isNone_iff_eq_none] at hnew
    exact .create rfl hident hscrt hnew huniq

theorem activate_descends (h : step settings s (.activate adminToken request) = some s') :
    Descent s (.activate adminToken request) s'.accounts := by
  obtain ⟨view, h⟩ := fst_toOption h
  rw [activateAccount, unit_bind_ok, bind_ok] at h
  obtain ⟨-, ⟨identity, server⟩, hval, h⟩ := h
  obtain ⟨hident, -, hscrt⟩ := validateReserve_ok hval
  rw [unit_bind_ok, unit_bind_ok, bind_ok] at h
  obtain ⟨-, -, account, hfnd, h⟩ := h
  obtain ⟨hmem, hname⟩ := isOf_of_find (require_ok.mp hfnd)
  rw [unit_bind_ok, refuseIf_ok, bind_ok] at h
  obtain ⟨hfree, mid, hcmt, hsame⟩ := h
  cases hsame
  simp only [or_eq_false_iff, decide_eq_false_iff_not, Decidable.not_not, isSome_eq_false_iff, isNone_iff_eq_none] at hfree
  refine commitAccount_descends hids hmem hname hcmt (.single ?_)
  exact .activate rfl hmem hname.symm hident hfree.1.1.1.2 hfree.1.2 hscrt rfl

theorem abort_descends {request : AbortRequest} (h : step settings s (.abort adminToken request) = some s') :
    Descent s (.abort adminToken request) s'.accounts := by
  have h := toOption_some h
  rw [abortAccount, unit_bind_ok, unit_bind_ok, bind_ok] at h
  obtain ⟨-, -, account, hfnd, h⟩ := h
  obtain ⟨hmem, hname⟩ := isOf_of_find (require_ok.mp hfnd)
  obtain ⟨-, h⟩ := unit_bind_ok.mp h
  split at h
  · rename_i hcrtd
    obtain ⟨-, rfl⟩ := commit_ok h
    refine .delete fun a _ hgone => ?_
    have hsame : a.accountId = request.accountId := by simpa using hgone
    rw [Action.deletes, hsame, hcrtd]
    simp
  · rename_i hcrtd
    refine commitAccount_descends hids hmem hname h (of_move hmem rfl rfl rfl ⟨rfl, rfl⟩ ?_)
    exact .abort rfl hname.symm (eq_false_iff.mpr hcrtd)

variable {request : RevisionRequest}

theorem reconnect_descends (h : step settings s (.reconnect adminToken request) = some s') :
    Descent s (.reconnect adminToken request) s'.accounts := by
  obtain ⟨view, h⟩ := fst_toOption h
  rw [reconnectAccount, unit_bind_ok, unit_bind_ok, bind_ok] at h
  obtain ⟨-, -, account, hfnd, h⟩ := h
  obtain ⟨hmem, hname⟩ := isOf_of_find (require_ok.mp hfnd)
  rw [unit_bind_ok, refuseIf_ok, bind_ok] at h
  obtain ⟨hfree, identity, -, h⟩ := h
  rw [unit_bind_ok, bind_ok] at h
  obtain ⟨-, mid, hcmt, hsame⟩ := h
  cases hsame
  simp only [or_eq_false_iff, isSome_eq_false_iff, isNone_iff_eq_none] at hfree
  refine commitAccount_descends hids hmem hname hcmt (of_move hmem rfl rfl rfl ⟨rfl, rfl⟩ ?_)
  exact .reconnect rfl hname.symm hfree.1.1.1.1.2 hfree.1.1.1.2

omit hids

theorem Account.queueStop_keeps {taken : Bool} {command : Option ControlCommand}
    (hkind : ∀ stop ∈ command, stop.kind ≠ .provisionAccount) (a : Account) :
    (a.queueStop command taken).connection = a.connection ∧ (a.queueStop command taken).lease = a.lease
      ∧ Unobserved a (a.queueStop command taken) ∧ Frame a (a.queueStop command taken) := by
  unfold queueStop
  split
  · exact ⟨rfl, rfl, ⟨rfl, rfl⟩, .of_same rfl rfl rfl⟩
  · obtain ⟨hconn, hls, hobs⟩ := a.queueUnless_keeps taken _
    exact ⟨hconn, hls, hobs, .queueUnless (hkind _ rfl) a⟩

/-- There is a stop command exactly when it would reach somebody. -/
theorem stopCommand?_isSome (a : Account) : (a.stopCommand? s).isSome = stoppable s a.connection a.lease := by
  unfold stopCommand? stoppable
  cases a.lease with
  | none => rfl
  | some held =>
    dsimp only [bind_eq_bind, bind_some, any_some]
    cases s.worker? held.workerId with
    | none => rfl
    | some =>
      dsimp only [bind_some, any_some]
      split
      · rename_i hstops
        exact hstops.symm
      · rename_i hstops
        exact (eq_false_iff.mpr hstops).symm

theorem stopCommand?_some {command : ControlCommand} (h : a.stopCommand? s = some command) : command.kind = .stopAccount := by
  rw [stopCommand?, bind_eq_bind, bind_eq_some_iff] at h
  obtain ⟨held, -, h⟩ := h
  rw [bind_eq_bind, bind_eq_some_iff] at h
  obtain ⟨worker, -, h⟩ := h
  split at h
  · cases h
    rfl
  · cases h

theorem stopCommand?_kind : ∀ stop ∈ a.stopCommand? s, stop.kind ≠ .provisionAccount := by
  intro stop hstop
  rw [stopCommand?_some hstop]
  exact nofun

theorem Account.queueStop_if_keeps (bound taken : Bool) {command : Option ControlCommand}
    (hkind : ∀ stop ∈ command, stop.kind ≠ .provisionAccount) (a : Account) :
    (if bound then a.queueStop command taken else a).connection = a.connection
      ∧ (if bound then a.queueStop command taken else a).lease = a.lease
      ∧ Unobserved a (if bound then a.queueStop command taken else a)
      ∧ Frame a (if bound then a.queueStop command taken else a) := by
  split
  · exact a.queueStop_keeps hkind
  · exact ⟨rfl, rfl, ⟨rfl, rfl⟩, .of_same rfl rfl rfl⟩

include hids

theorem disconnect_descends (h : step settings s (.disconnect adminToken request) = some s') :
    Descent s (.disconnect adminToken request) s'.accounts := by
  obtain ⟨view, h⟩ := fst_toOption h
  rw [disconnectAccount, unit_bind_ok, unit_bind_ok, bind_ok] at h
  obtain ⟨-, -, account, hfnd, h⟩ := h
  obtain ⟨hmem, hname⟩ := isOf_of_find (require_ok.mp hfnd)
  rw [unit_bind_ok, bind_ok] at h
  obtain ⟨-, mid, hcmt, hsame⟩ := h
  cases hsame
  show Descent s (.disconnect adminToken request) mid.accounts
  refine commitAccount_descends hids hmem hname hcmt (.single ?_)
  obtain ⟨hconn, hls, hobs, hfrm⟩ := account.queueStop_if_keeps account.connection.workerId.isSome
    (s.keyTaken (stopKey request.accountId account.connection.leaseGeneration)) stopCommand?_kind
  unfold fenceDisconnect
  refine .move (.of_mem hmem) ?_ hobs ?_
  · refine hfrm.trans (.trans (.updateSessions (p := fun _ => true) (f := ({ · with revoked := true })) ?_ _) ?_)
    · exact fun _ hrevoked => Bool.noConfusion hrevoked
    · refine .trans (.updateTokens (p := fun _ => true) (f := ({ · with consumed := true })) _) ?_
      refine .trans (.updateCommands (p := fun command => command.kind ≠ CommandKind.stopAccount && command.status.pending)
        (f := (·.concluded .fenced "ACCOUNT_DISCONNECTED" s.now)) (fun command => concluded_keeps _ _ _ command) _) ?_
      exact .of_same rfl rfl rfl
  · dsimp only [connect, register, updateCommands, updateTokens, updateSessions]
    rw [hconn, hls]
    exact .disconnect rfl hname.symm

theorem prepareDelete_descends (h : step settings s (.prepareDelete adminToken request) = some s') :
    Descent s (.prepareDelete adminToken request) s'.accounts := by
  obtain ⟨view, h⟩ := fst_toOption h
  rw [prepareDeleteAccount, unit_bind_ok, unit_bind_ok, bind_ok] at h
  obtain ⟨-, -, account, hfnd, h⟩ := h
  obtain ⟨hmem, hname⟩ := isOf_of_find (require_ok.mp hfnd)
  rw [unit_bind_ok, bind_ok] at h
  obtain ⟨-, mid, hcmt, hsame⟩ := h
  cases hsame
  show Descent s (.prepareDelete adminToken request) mid.accounts
  refine commitAccount_descends hids hmem hname hcmt (.single ?_)
  obtain ⟨hconn, hls, hobs, hfrm⟩ := account.queueStop_if_keeps account.connection.workerId.isSome
    (s.keyTaken (stopKey request.accountId account.connection.leaseGeneration)) stopCommand?_kind
  refine .move (.of_mem hmem) (hfrm.trans (.of_same rfl rfl rfl)) hobs ?_
  dsimp only [connect]
  rw [hconn, hls]
  refine .prepareDelete rfl hname.symm ?_
  rw [stopCommand?_isSome, ← hname]
  rfl

end Owners

theorem finalizeDelete_descends {request : FinalizeDeleteRequest}
    (h : step settings s (.finalizeDelete adminToken request) = some s') :
    Descent s (.finalizeDelete adminToken request) s'.accounts := by
  have h := toOption_some h
  rw [finalizeDeleteAccount, unit_bind_ok, unit_bind_ok] at h
  obtain ⟨-, -, h⟩ := h
  rw [unit_bind_ok] at h
  obtain ⟨-, rfl⟩ := commit_ok h.2
  refine .delete fun a _ hgone => ?_
  simp only [not_eq_false', and_eq_true, isOf, decide_eq_true_eq] at hgone
  exact decide_eq_true hgone.1.1.1.1.1.2.symm

/-! ## Snapshots -/

/-- The submission reports another broker identity than the registered one. -/
def SnapshotSubmission.mismatches (settings : Settings) (request : SnapshotSubmission) (row : Connection) : Bool :=
  request.payload.observation.any fun observed =>
    !fingerprintIdentityMatches settings row.server row.maskedLoginSuffix observed

/-- What an accepted submission writes before the gates are asked. -/
def Account.accept (request : SnapshotSubmission) (worker : Worker) (a : Account) : Account :=
  ((a.storeRows request worker).recordSync request worker request.errorCode).updateFreshness request worker

variable {request : SnapshotSubmission}

/-- What a submission that passed the fences comes down to. -/
theorem ingestSnapshot_ok {outcome : SnapshotOutcome} (h : ingestSnapshot settings envelope request s = .ok (s', outcome)) :
    ∃ worker account f, authenticateWorker envelope s = .ok worker ∧ account ∈ s.accounts
      ∧ request.underLease worker s.now account = true
      ∧ (account.syncStates.get request.family).syncSequence < request.syncSequence
      ∧ request.payload.family = request.family
      ∧ s.commitAccount request.accountId f = .ok s'
      ∧ ((outcome = .identityMismatch ∧ request.mismatches settings account.connection = true
          ∧ f = (·.recordSync request worker (some "SYNC_IDENTITY_MISMATCH")))
        ∨ (outcome = .accepted ∧ request.mismatches settings account.connection = false
          ∧ f = fun a => (a.accept request worker).updateReadiness request worker s.workers s.now)) := by
  rw [ingestSnapshot, unit_bind_ok, unit_bind_ok, bind_ok] at h
  obtain ⟨hshape, -, worker, hwkr, h⟩ := h
  obtain ⟨account, hacct, h⟩ := bind_ok.mp h
  rw [require_ok] at hacct
  rw [unit_bind_ok, fenceSnapshot, refuseIf_ok, unit_bind_ok] at h
  obtain ⟨hfen, -, h⟩ := h
  have hnext : (account.syncStates.get request.family).syncSequence < request.syncSequence := by
    simpa using hfen
  have hfam : request.payload.family = request.family := by
    rw [validateSnapshotShape, unit_bind_ok, unit_bind_ok, unit_bind_ok, unit_bind_ok, refuseIf_ok] at hshape
    simpa using hshape.2.2.2.1
  dsimp only at h
  split at h
  · rename_i hmismatch
    obtain ⟨mid, hcmt, hsame⟩ := bind_ok.mp h
    cases hsame
    exact ⟨worker, account, _, hwkr, mem_of_find?_eq_some hacct, find?_some hacct, hnext, hfam, hcmt, .inl ⟨rfl, hmismatch, rfl⟩⟩
  · rename_i hmat
    rw [unit_bind_ok, bind_ok] at h
    obtain ⟨-, mid, hcmt, hsame⟩ := h
    cases hsame
    exact ⟨worker, account, _, hwkr, mem_of_find?_eq_some hacct, find?_some hacct, hnext, hfam,
      hcmt, .inr ⟨rfl, eq_false_iff.mpr hmat, rfl⟩⟩

theorem underLease_account (h : request.underLease worker now a = true) :
    a.accountId = request.accountId ∧ ∃ held, a.lease = some held ∧ held.valid now = true := by
  simp only [SnapshotSubmission.underLease, and_eq_true, decide_eq_true_eq, any_eq_true_iff_get] at h
  obtain ⟨hname, hsome, hheld⟩ := h
  exact ⟨hname, a.lease.get hsome, (some_get hsome).symm, hheld.1.1.1⟩

/-- What a snapshot has nothing to do with. -/
def Account.assignment (a : Account) :
    Connection × Option Lease × Registry × List ControlCommand × List ManagedSession :=
  (a.connection, a.lease, a.registry, a.commands, a.sessions)

section
variable (request : SnapshotSubmission) (worker : Worker) (a : Account)

theorem Account.storeRows_assignment :
    (a.storeRows request worker).assignment = a.assignment := by
  unfold storeRows
  split
  · rfl
  · rfl
  · rfl

theorem Account.updateFreshness_assignment :
    (a.updateFreshness request worker).assignment = a.assignment := by
  unfold updateFreshness
  split
  · rfl
  · rfl

/-- An accepted submission leaves everything but the observations alone. -/
theorem Account.accept_keeps :
    (a.accept request worker).connection = a.connection ∧ (a.accept request worker).lease = a.lease
      ∧ (a.accept request worker).registry = a.registry ∧ (a.accept request worker).commands = a.commands
      ∧ (a.accept request worker).sessions = a.sessions := by
  have hsame : (a.accept request worker).assignment = a.assignment := by
    unfold accept
    rw [updateFreshness_assignment]
    exact a.storeRows_assignment request worker
  simpa only [assignment, Prod.mk.injEq] using hsame

end

theorem Account.advanceReadiness_change (hgate : act.knocks = true) (a : Account) :
    a.advanceReadiness s.workers s.now = a ∨ Change s act a (a.advanceReadiness s.workers s.now) := by
  cases hwkr : s.workers.find? fun worker => a.connection.workerId = some worker.workerId with
  | none =>
    refine .inl ?_
    unfold advanceReadiness
    rw [hwkr]
  | some worker =>
    by_cases hrdy : a.readyOnBareMetal worker s.now = true
    · exact .inr (.ready hgate hwkr hrdy)
    · refine .inl ?_
      unfold advanceReadiness
      rw [hwkr]
      exact if_neg hrdy

theorem Account.advanceReadiness_chain (hgate : act.knocks = true) (a : Account) :
    ReflTransGen (Change s act) a (a.advanceReadiness s.workers s.now) := by
  rcases a.advanceReadiness_change (s := s) hgate with hsame | hchg
  · rw [hsame]
  · exact .single hchg

/-- The gate on Windows machines is an advance. -/
theorem Account.readyOnWindows_move (hwkr : s.worker? envelope.workerId = some worker) (horig : Untouched s a)
    (hls : a.lease = some held) (hval : held.valid s.now = true) :
    ReflTransGen (Change s (.snapshot envelope request)) a
      (if a.readyOnWindows request worker s.now then a.connect Connection.becomeReady else a) := by
  split
  · rename_i hrdy
    simp only [readyOnWindows, and_eq_true, decide_eq_true_eq, ne_eq] at hrdy
    refine .single (.move horig (.of_same rfl rfl rfl) ⟨rfl, rfl⟩ ?_)
    exact .advance (.windows rfl hwkr hrdy.1.1.1.2 hrdy.1.1.1.1) hls hval
  · exact .refl

theorem Account.updateReadiness_chain (hwkr : s.worker? envelope.workerId = some worker) (horig : Untouched s a)
    (hls : a.lease = some held) (hval : held.valid s.now = true) :
    ReflTransGen (Change s (.snapshot envelope request)) a (a.updateReadiness request worker s.workers s.now) := by
  unfold updateReadiness
  split
  · exact .trans (a.readyOnWindows_move hwkr horig hls hval) (advanceReadiness_chain rfl _)
  · exact .refl

theorem snapshot_descends (hids : (s.accounts.map Account.accountId).Nodup) (h : step settings s (.snapshot envelope request) = some s') :
    Descent s (.snapshot envelope request) s'.accounts := by
  obtain ⟨outcome, h⟩ := fst_toOption h
  obtain ⟨worker, account, f, hauth, hmem, hunder, -, -, hcmt, hwrites⟩ := ingestSnapshot_ok h
  refine commitAccount_descends hids hmem (underLease_account hunder).1 hcmt ?_
  rcases hwrites with ⟨-, -, rfl⟩ | ⟨-, -, rfl⟩
  · exact .single (.observe rfl (.of_same rfl rfl rfl) rfl rfl)
  · obtain ⟨hconn, hls, hregi, hcmds, hsesss⟩ := account.accept_keeps request worker
    have hscrt := congrArg Registry.secretRef hregi
    refine .head (.observe rfl (.of_same hscrt hcmds hsesss) hconn hls) ?_
    obtain ⟨-, held, hheld, hval⟩ := underLease_account hunder
    refine updateReadiness_chain (authenticateWorker_ok hauth).1 ?_ (hls.trans hheld) hval
    exact ⟨account, hmem, hconn.symm, hls.symm, hsesss.symm⟩

/-! ## EAs -/

theorem pairEa_descends (hids : (s.accounts.map Account.accountId).Nodup) {request : EaSessionRequest}
    (h : step settings s (.pairEa request) = some s') : Descent s (.pairEa request) s'.accounts := by
  have h := toOption_some h
  rw [createManagedSession, unit_bind_ok, bind_ok] at h
  obtain ⟨-, account, hacct, h⟩ := h
  obtain ⟨token, -, h⟩ := bind_ok.mp h
  obtain ⟨runtime, -, h⟩ := bind_ok.mp h
  rw [unit_bind_ok, unit_bind_ok, refuseIf_ok, bind_ok] at h
  obtain ⟨-, hasg, mid, hcmt, hsame⟩ := h
  cases hsame
  rw [require_ok] at hacct
  show Descent s (.pairEa request) mid.accounts
  refine commitAccount_descends hids (mem_of_find?_eq_some hacct) rfl hcmt (.single ?_)
  exact .pair rfl (by simpa using hasg)

/-- An update of sessions that keeps their assignment, revision and end. -/
theorem updateSessions_evolves {p : Account → ManagedSession → Bool} {f : ManagedSession → ManagedSession}
    (hf : ∀ session, (f session).revoked = false → (f session).continues session) (accounts : List Account) :
    EvolvesQuietly s act accounts (accounts.map fun a => a.updateSessions (p a) f) :=
  .map fun a _ => ⟨.keep (.updateSessions hf a) rfl rfl ⟨rfl, rfl⟩, rfl⟩

theorem authenticateEa_descends {token : Nat} (h : step settings s (.authenticateEa token) = some s') :
    Descent s (.authenticateEa token) s'.accounts := by
  have h := toOption_some h
  rw [authenticateSession, unit_bind_ok] at h
  cases h.2
  refine .quiet (updateSessions_evolves (fun session hali => ?_) _)
  exact ⟨hali, rfl, rfl, rfl, rfl⟩

theorem pollEa_descends {token : Nat} (h : step settings s (.pollEa token) = some s') :
    Descent s (.pollEa token) s'.accounts := by
  have h := toOption_some h
  rw [recordEaPoll, unit_bind_ok] at h
  cases h.2
  refine .quiet (updateSessions_evolves (fun session hali => ?_) _)
  exact ⟨hali, rfl, rfl, rfl, rfl⟩

theorem touchEa_descends {tradeAllowed : Bool} (h : step settings s (.touchEa ownerId accountId tradeAllowed) = some s') :
    Descent s (.touchEa ownerId accountId tradeAllowed) s'.accounts := by
  have h := toOption_some h
  rw [touchAccount, unit_bind_ok] at h
  cases h.2
  exact .quiet (.updateWhere fun a _ _ => ⟨.keep (.of_same rfl rfl rfl) rfl rfl ⟨rfl, rfl⟩, rfl⟩)

theorem advanceEa_descends (h : step settings s (.advanceEa ownerId accountId) = some s') :
    Descent s (.advanceEa ownerId accountId) s'.accounts := by
  have h := toOption_some h
  obtain ⟨huniq, rfl⟩ := commit_ok h
  exact .evolve (.updateWhere fun a _ _ => a.advanceReadiness_chain rfl) huniq

theorem Account.manage_change (remove : Bool) (a : Account) :
    Change s act a (a.manage remove) ∧ (a.manage remove).connection = a.connection := by
  have hrevoked : Frame a (a.updateSessions (fun _ => true) ({ · with revoked := true })) :=
    .updateSessions (fun _ hrevoked => Bool.noConfusion hrevoked) a
  unfold manage
  cases remove with
  | false => exact ⟨.keep (hrevoked.trans (.of_same rfl rfl rfl)) rfl rfl ⟨rfl, rfl⟩, rfl⟩
  | true =>
    refine ⟨.keep ⟨rfl, hrevoked.provisions, ?_⟩ rfl rfl ⟨rfl, rfl⟩, rfl⟩
    intro session hsess
    exact absurd hsess not_mem_nil

theorem manage_descends {remove : Bool} (h : step settings s (.manage ownerId accountId remove) = some s') :
    Descent s (.manage ownerId accountId remove) s'.accounts := by
  have h := toOption_some h
  rw [manageAccount, unit_bind_ok] at h
  cases h.2
  exact .quiet (.updateWhere fun a _ _ => a.manage_change remove)

/-! ## The step lemma -/

/-- **Every transaction is a chain of changes.** -/
theorem step_descends (hids : (s.accounts.map Account.accountId).Nodup)
    (h : step settings s act = some s') : Descent s act s'.accounts := by
  cases act with
  | wait =>
    cases h
    exact .quiet (.refl _)
  | hello => exact hello_descends h
  | heartbeat => exact heartbeat_descends h
  | poll => exact poll_descends h
  | bind => exact bind_descends h
  | ack => exact ack_descends hids h
  | adminCommand => exact adminCommand_descends h
  | sweep => exact sweep_descends h
  | place => exact place_descends hids h
  | reserve => exact reserve_descends hids h
  | activate => exact activate_descends hids h
  | abort => exact abort_descends hids h
  | reconnect => exact reconnect_descends hids h
  | disconnect => exact disconnect_descends hids h
  | prepareDelete => exact prepareDelete_descends hids h
  | finalizeDelete => exact finalizeDelete_descends h
  | snapshot => exact snapshot_descends hids h
  | pairEa => exact pairEa_descends hids h
  | authenticateEa => exact authenticateEa_descends h
  | pollEa => exact pollEa_descends h
  | touchEa => exact touchEa_descends h
  | advanceEa => exact advanceEa_descends h
  | manage => exact manage_descends h

end MarketLens.Mt5Vm
