import MarketLens.Mt5Vm.Invariants

/-!
# Acknowledgements of stale commands

A command belongs to the assignment it was made under. An acknowledgement of a command of
another assignment than the account's is refused when the lease is over or the worker has
another session; when the same session has a newer lease of the account it is accepted.
`staleAck_inert_iff` says exactly when nothing of the account changes.
-/

namespace MarketLens.Mt5Vm

open Table List Account AckRequest ControlCommand Store Fallible World

variable {settings : Settings} {s s' : World}

/-- The lease is active, and of the assignment the command was made under. -/
def Lease.grantedFor (lease : Lease) (command : ControlCommand) : Bool :=
  lease.status = .active && lease.workerId = command.workerId && lease.workerSession = command.workerSession
    && lease.generation = command.leaseGeneration

/-- The acknowledgement is of a command of another assignment than the account's. -/
def staleAck (s : World) (request : AckRequest) : Bool :=
  (s.command? request.commandId).any fun found => !found.2.1.grantedFor found.2.2

section
variable (request : AckRequest)

/-- The acknowledgement is well formed, of a worker whose session is alive, and the worker may
speak for the command under the lease the account has. -/
def AckRequest.passes (envelope : Envelope) (s : World) (account : Account) (lease : Lease)
    (command : ControlCommand) : Bool :=
  (validateAck envelope request).toOption.isSome
    && (authenticateWorker envelope s).toOption.any fun worker => request.fence worker account lease command s.now

/-- Every row of the command says already what the acknowledgement would write into it. -/
def AckRequest.repeats (account : Account) (target : ControlStatus) (now : Millis) : Bool :=
  account.commands.all fun command =>
    !(command.id = request.commandId) || command.acknowledged target request now = command

/-- The acknowledgement says of the command what its row does not say yet. -/
def AckRequest.tells (account : Account) (command : ControlCommand) (now : Millis) : Bool :=
  match command.status, request.ack with
  | .dispatched, _ | .received, .succeeded | .received, .failed => true
  | .received, .received => !request.repeats account .received now
  | .succeeded, .succeeded => command.result = request.result.join && !request.repeats account .succeeded now
  | .failed, .failed => command.errorCode = request.errorCode && !request.repeats account .failed now
  | _, _ => false

/-- The acknowledgement is refused, or says nothing new. -/
def AckRequest.inert (envelope : Envelope) (s : World) : Bool :=
  !(s.command? request.commandId).any fun (account, lease, command) =>
    request.passes envelope s account lease command && request.tells account command s.now

/-! ## What an accepted acknowledgement writes -/

/-- The rows of the account after the acknowledgement. -/
def Account.acknowledge (worker : Worker) (command : ControlCommand) (target : ControlStatus)
    (taken : Bool) (id : Nat) (now : Millis) (account : Account) : Account :=
  if !command.status.concludedByAck && target.concludedByAck then
    (account.updateCommands (·.id = request.commandId) (·.acknowledged target request now)).applyTerminalAck request
      worker command.kind target taken id now
  else account.updateCommands (·.id = request.commandId) (·.acknowledged target request now)

end

section Acknowledge

variable {request : AckRequest} {worker : Worker} {command : ControlCommand} {target : ControlStatus} {taken : Bool}
  {id : Nat} {now : Millis} {account : Account}

theorem Account.acknowledge_open (h : command.status.concludedByAck = true ∨ target.concludedByAck = false) :
    account.acknowledge request worker command target taken id now
      = account.updateCommands (·.id = request.commandId) (·.acknowledged target request now) := by
  unfold acknowledge
  rcases h with h | h
  · simp [h]
  · simp [h]

theorem Account.acknowledge_accountId :
    (account.acknowledge request worker command target taken id now).accountId = account.accountId := by
  unfold acknowledge applyTerminalAck
  split
  · split
    · unfold degrade
      split <;> rfl
    · split
      · unfold provisioned queueUnless
        split
        · split <;> rfl
        · rfl
      · unfold reconciled
        split <;> rfl
      · unfold stopped Connection.stop connect
        dsimp only
        split <;> rfl
  · rfl

theorem Account.indexedIdentity_connect {account : Account} {f : Connection → Connection}
    (hlive : account.connection.status.live = true) (hlive' : (f account.connection).status.live = true)
    (hident : (f account.connection).currentIdentity = account.connection.currentIdentity) :
    (account.connect f).indexedIdentity = account.indexedIdentity := by
  unfold indexedIdentity connect
  rw [if_pos hlive, if_pos hlive', hident]

theorem Account.acknowledge_identity (hasg : Assigned account.connection account.lease) :
    (account.acknowledge request worker command target taken id now).indexedIdentity = account.indexedIdentity
      ∨ (account.acknowledge request worker command target taken id now).indexedIdentity = none := by
  have hlive : ∀ workerId leaseGeneration, account.connection.assignedTo workerId leaseGeneration = true →
      account.connection.status.live = true := by
    intro workerId leaseGeneration h
    simp only [Connection.assignedTo, Bool.and_eq_true, decide_eq_true_eq] at h
    exact hasg.live workerId h.1.1
  unfold acknowledge
  split
  · unfold applyTerminalAck
    split
    · unfold degrade
      split
      · rename_i h
        exact .inl (indexedIdentity_connect (hlive _ _ h) rfl rfl)
      · exact .inl rfl
    · split
      · unfold provisioned queueUnless
        split
        · rename_i h
          have hsame := indexedIdentity_connect
            (f := fun row => { row with status := .synchronizing, revision := row.revision + 1 }) (hlive _ _ h) rfl rfl
          split
          · exact .inl hsame
          · exact .inl hsame
        · exact .inl rfl
      · unfold reconciled
        split
        · rename_i h
          exact .inl (indexedIdentity_connect (hlive _ _ h) rfl rfl)
        · exact .inl rfl
      · by_cases hstops : (account.connection.leaseGeneration = request.leaseGeneration
            && (account.connection.disconnectRequestedRevision.isSome || account.connection.removalRequestedAt.isSome)) = true
        · refine .inr ?_
          have hstopped : account.connection.stop request.leaseGeneration
              = { account.connection with status := .disconnected, workerId := none } := if_pos hstops
          unfold indexedIdentity
          rw [if_neg]
          change ¬(account.connection.stop request.leaseGeneration).status.live = true
          rw [hstopped]
          exact Bool.false_ne_true
        · refine .inl ?_
          have hstays : account.connection.stop request.leaseGeneration = account.connection := if_neg hstops
          change (if (account.connection.stop request.leaseGeneration).status.live
            then (account.connection.stop request.leaseGeneration).currentIdentity else none) = account.indexedIdentity
          rw [hstays]
          rfl
  · exact .inl rfl

theorem Account.acknowledge_concludes (hmem : command ∈ account.commands) (hid : command.id = request.commandId)
    (hopen : command.status.concludedByAck = false) (hconcluded : target.concludedByAck = true) :
    account.acknowledge request worker command target taken id now ≠ account := by
  intro hsame
  have hcmds := congrArg commands hsame
  have hnews : updateWhere (fun command => command.id = request.commandId) (·.acknowledged target request now)
      account.commands ≠ account.commands := by
    intro hself
    have hrow := updateWhere_eq_self.mp hself command hmem (decide_eq_true hid)
    have hstat : target = command.status := congrArg status hrow
    rw [← hstat, hconcluded] at hopen
    cases hopen
  unfold acknowledge at hcmds
  rw [if_pos (by rw [hopen, hconcluded]; rfl)] at hcmds
  unfold applyTerminalAck at hcmds
  split at hcmds
  · refine hnews ?_
    unfold degrade at hcmds
    split at hcmds
    · exact hcmds
    · exact hcmds
  · split at hcmds
    · unfold provisioned queueUnless at hcmds
      split at hcmds
      · split at hcmds
        · exact hnews hcmds
        · -- a reconciliation is queued besides
          have hlng := congrArg length hcmds
          simp [connect, updateCommands, length_updateWhere] at hlng
      · exact hnews hcmds
    · refine hnews ?_
      unfold reconciled at hcmds
      split at hcmds
      · exact hcmds
      · exact hcmds
    · -- the commands a stop gives up are open ones
      have hrow := eq_of_updateWhere_updateWhere hcmds hmem (decide_eq_true hid) ?_
      · have hstat : target = command.status := congrArg status hrow
        rw [← hstat, hconcluded] at hopen
        cases hopen
      · have hpend : target.pending = false := by
          cases target <;> first | rfl | cases hconcluded
        simp [acknowledged, hpend]

end Acknowledge

/-! ## Inert acknowledgements -/

section Inert

variable {envelope : Envelope} {request : AckRequest} {worker : Worker} {account : Account} {lease : Lease}
  {command : ControlCommand} {target : ControlStatus}

theorem workerAck_eq (hval : validateAck envelope request = .ok ()) (hauth : authenticateWorker envelope s = .ok worker)
    (hfnd : s.command? request.commandId = some (account, lease, command))
    (hfen : request.fence worker account lease command s.now = true)
    (htgt : ackTargetStatus command.status request.ack = .ok target)
    (hlate : (command.status.concludedByAck && request.ack = .received) = false)
    (hsuccess : (command.status = .succeeded && command.result ≠ request.result.join) = false)
    (hfailure : (command.status = .failed && command.errorCode ≠ request.errorCode) = false) :
    workerAck envelope request s
      = (s.commitAccount request.accountId (·.acknowledge request worker command target
          (s.keyTaken (reconcileKey request.accountId request.leaseGeneration)) s.nextId s.now)
        >>= fun mid => .ok ({ mid with nextId := mid.nextId + 1 }, target)) := by
  unfold workerAck
  rw [hval]
  simp only [hauth, hfnd, hfen, htgt, hlate, hsuccess, hfailure, require, refuseIf, bind, Except.bind, Bool.not_true,
    Bool.false_eq_true, if_false]
  rfl

/-- What is told of a command is a status it may take, and another row. -/
theorem AckRequest.tells_target (hmem : command ∈ account.commands) (hid : command.id = request.commandId) {now : Millis}
    (h : request.tells account command now = true) : ∃ target, ackTargetStatus command.status request.ack = .ok target
      ∧ (command.status.concludedByAck && request.ack = .received) = false
      ∧ (command.status = .succeeded && command.result ≠ request.result.join) = false
      ∧ (command.status = .failed && command.errorCode ≠ request.errorCode) = false
      ∧ ∀ worker taken id, account.acknowledge request worker command target taken id now ≠ account := by
  -- the row of an open command takes another status, or the command is concluded
  have hrewrites : ∀ target : ControlStatus, (command.status.concludedByAck = true ∨ target.concludedByAck = false) →
      request.repeats account target now = false →
      ∀ worker taken id, account.acknowledge request worker command target taken id now ≠ account := by
    intro target hopen hnew worker taken id hsame
    rw [acknowledge_open hopen] at hsame
    have hrows := updateWhere_eq_self.mp (congrArg commands hsame)
    rw [repeats, all_eq_false] at hnew
    obtain ⟨row, hrow, hdiffers⟩ := hnew
    simp only [Bool.or_eq_true, Bool.not_eq_true', decide_eq_false_iff_not, decide_eq_true_eq, not_or, not_not] at hdiffers
    exact hdiffers.2 (hrows row hrow (decide_eq_true hdiffers.1))
  have hmoves : ∀ target : ControlStatus, command.status ≠ target → request.repeats account target now = false := by
    intro target hstat
    rw [repeats, all_eq_false]
    refine ⟨command, hmem, ?_⟩
    simp only [Bool.or_eq_true, Bool.not_eq_true', decide_eq_false_iff_not, decide_eq_true_eq, not_or, not_not]
    refine ⟨hid, fun hrow => hstat ?_⟩
    exact (congrArg status hrow).symm
  unfold tells at h
  cases hstat : command.status <;> cases hack : request.ack <;> rw [hstat, hack] at h <;>
    try exact absurd h Bool.false_ne_true
  case dispatched.received =>
    exact ⟨.received, rfl, rfl, rfl, rfl, hrewrites _ (.inr rfl) (hmoves _ (by rw [hstat]; decide))⟩
  case dispatched.succeeded =>
    exact ⟨.succeeded, rfl, rfl, rfl, rfl, fun _ _ _ => acknowledge_concludes hmem hid (by rw [hstat]; rfl) rfl⟩
  case dispatched.failed =>
    exact ⟨.failed, rfl, rfl, rfl, rfl, fun _ _ _ => acknowledge_concludes hmem hid (by rw [hstat]; rfl) rfl⟩
  case received.received =>
    exact ⟨.received, rfl, rfl, rfl, rfl, hrewrites _ (.inr rfl) (by simpa using h)⟩
  case received.succeeded =>
    exact ⟨.succeeded, rfl, rfl, rfl, rfl, fun _ _ _ => acknowledge_concludes hmem hid (by rw [hstat]; rfl) rfl⟩
  case received.failed =>
    exact ⟨.failed, rfl, rfl, rfl, rfl, fun _ _ _ => acknowledge_concludes hmem hid (by rw [hstat]; rfl) rfl⟩
  case succeeded.succeeded =>
    simp only [Bool.and_eq_true, Bool.not_eq_true', decide_eq_true_eq] at h
    refine ⟨.succeeded, rfl, rfl, by simp [h.1], rfl, hrewrites _ (.inl (by rw [hstat]; rfl)) h.2⟩
  case failed.failed =>
    simp only [Bool.and_eq_true, Bool.not_eq_true', decide_eq_true_eq] at h
    refine ⟨.failed, rfl, rfl, rfl, by simp [h.1], hrewrites _ (.inl (by rw [hstat]; rfl)) h.2⟩

/-- An accepted acknowledgement that tells nothing writes what the rows say. -/
theorem AckRequest.not_tells {now : Millis} (h : request.tells account command now = false)
    (htgt : ackTargetStatus command.status request.ack = .ok target)
    (hlate : (command.status.concludedByAck && request.ack = .received) = false)
    (hsuccess : (command.status = .succeeded && command.result ≠ request.result.join) = false)
    (hfailure : (command.status = .failed && command.errorCode ≠ request.errorCode) = false)
    (worker : Worker) (taken : Bool) (id : Nat) :
    account.acknowledge request worker command target taken id now = account := by
  have hsame : (command.status.concludedByAck = true ∨ target.concludedByAck = false) →
      request.repeats account target now = true →
      account.acknowledge request worker command target taken id now = account := by
    intro hopen hrepeats
    rw [acknowledge_open hopen]
    have hrows : updateWhere (fun row => row.id = request.commandId) (·.acknowledged target request now)
        account.commands = account.commands := by
      refine updateWhere_eq_self.mpr fun row hrow hname => ?_
      have hrepeated := all_eq_true.mp hrepeats row hrow
      rw [hname] at hrepeated
      simpa using hrepeated
    unfold updateCommands
    rw [hrows]
  unfold tells at h
  cases hstat : command.status <;> cases hack : request.ack <;> rw [hstat, hack] at h htgt hlate <;>
    rw [hstat] at hsuccess hfailure <;>
    try first | (cases htgt; done) | exact absurd h.symm Bool.false_ne_true | exact absurd hlate.symm Bool.false_ne_true
  case received.received =>
    cases htgt
    exact hsame (.inr rfl) (by simpa using h)
  case succeeded.succeeded =>
    cases htgt
    have hresult : command.result = request.result.join := by simpa using hsuccess
    exact hsame (.inl (by rw [hstat]; rfl)) (by simpa [hresult] using h)
  case failed.failed =>
    cases htgt
    have hcode : command.errorCode = request.errorCode := by simpa using hfailure
    exact hsame (.inl (by rw [hstat]; rfl)) (by simpa [hcode] using h)

end Inert

/-- An acknowledgement that tells something is accepted, and changes the account. -/
theorem workerAck_tells (settings : Settings) (hsnd : Sound s) {envelope : Envelope} {request : AckRequest}
    {account : Account} {lease : Lease}
    {command : ControlCommand} (hfnd : s.command? request.commandId = some (account, lease, command))
    (hpasses : request.passes envelope s account lease command = true)
    (htells : request.tells account command s.now = true) :
    ∃ s', step settings s (.ack envelope request) = some s' ∧ s'.accounts ≠ s.accounts := by
  obtain ⟨hmem, hls, hcmd, hid⟩ := command?_mem hfnd
  simp only [passes, Bool.and_eq_true, Option.any_eq_true] at hpasses
  obtain ⟨hval, worker, hauth, hfen⟩ := hpasses
  obtain ⟨⟨⟩, hval⟩ := Option.isSome_iff_exists.mp hval
  have hval := toOption_some hval
  have hauth := toOption_some hauth
  obtain ⟨target, htgt, hlate, hsuccess, hfailure, hnews⟩ := request.tells_target hcmd hid htells
  have hack := workerAck_eq hval hauth hfnd hfen htgt hlate hsuccess hfailure
  have hname : account.accountId = request.accountId := by
    simp only [fence, Bool.and_eq_true, decide_eq_true_eq] at hfen
    exact hfen.1.1.1.1
  -- the identity index takes the account: it holds what it held, or nothing
  have hcmt : ∃ mid, s.commitAccount request.accountId (·.acknowledge request worker command target
      (s.keyTaken (reconcileKey request.accountId request.leaseGeneration)) s.nextId s.now) = .ok mid := by
    refine commitAccount_succeeds hsnd.ids hsnd.unique request.accountId (fun a => acknowledge_accountId) ?_
    intro a ha hsame b hb hoth identity hident
    rcases acknowledge_identity (hsnd.assigned a ha) with hkept | hnone
    · rw [hkept] at hident
      refine (identitiesUnique_iff hsnd.ids).mp hsnd.unique a ha b hb ?_ identity hident
      rw [hsame]
      exact hoth.symm
    · rw [hnone] at hident
      cases hident
  obtain ⟨mid, hcmt⟩ := hcmt
  refine ⟨{ mid with nextId := mid.nextId + 1 }, ?_, ?_⟩
  · change ((workerAck envelope request s).map Prod.fst).toOption = _
    rw [hack, hcmt]
    rfl
  · intro hsame
    have haccounts : mid.accounts = s.accounts := hsame
    obtain ⟨-, rfl⟩ := commitAccount_ok hcmt
    exact hnews _ _ _ (updateWhere_eq_self.mp haccounts account hmem (decide_eq_true hname))

theorem workerAck_inert (hsnd : Sound s) {envelope : Envelope} {request : AckRequest}
    (hinert : request.inert envelope s = true) (h : step settings s (.ack envelope request) = some s') :
    s'.accounts = s.accounts := by
  obtain ⟨status, h⟩ := fst_toOption h
  rw [workerAck, unit_bind_ok, bind_ok] at h
  obtain ⟨hval, worker, hauth, h⟩ := h
  obtain ⟨⟨account, lease, command⟩, hfnd, h⟩ := bind_ok.mp h
  rw [require_ok] at hfnd
  rw [unit_bind_ok, refuseIf_ok, bind_ok] at h
  obtain ⟨hfen, target, htgt, h⟩ := h
  have hfen : request.fence worker account lease command s.now = true := by simpa using hfen
  obtain ⟨hmem, -, -, -⟩ := command?_mem hfnd
  have hname : account.accountId = request.accountId := by
    simp only [fence, Bool.and_eq_true, decide_eq_true_eq] at hfen
    exact hfen.1.1.1.1
  have hquiet : request.tells account command s.now = false := by
    have hpasses : request.passes envelope s account lease command = true := by
      simp [passes, hval, hauth, Except.toOption, hfen]
    simp only [inert, hfnd, Option.any_some, hpasses, Bool.true_and, Bool.not_eq_true'] at hinert
    exact hinert
  split at h
  · cases h
    rfl
  · rename_i hlate
    rw [unit_bind_ok, unit_bind_ok, bind_ok, refuseIf_ok, refuseIf_ok] at h
    obtain ⟨hsuccess, hfailure, mid, hcmt, hsame⟩ := h
    cases hsame
    obtain ⟨-, rfl⟩ := commitAccount_ok hcmt
    refine updateWhere_eq_self.mpr fun a ha hid => ?_
    have hsame : a = account := account_unique hsnd.ids ha hmem ((of_decide_eq_true hid).trans hname.symm)
    rw [hsame]
    exact not_tells hquiet htgt (Bool.eq_false_iff.mpr hlate) hsuccess hfailure worker _ _

/-- **A stale acknowledgement changes nothing of any account exactly when** it is refused or
says nothing new, in every state. -/
theorem staleAck_inert_iff (h : Runs.Reaches (step settings) Runs.always World.empty s) (envelope : Envelope)
    (request : AckRequest) :
    (staleAck s request = true → ∀ s', step settings s (.ack envelope request) = some s' → s'.accounts = s.accounts)
      ↔ (staleAck s request = true → request.inert envelope s = true) := by
  have hsnd := sound_reachable h
  refine imp_congr_right fun _ => ⟨fun hkept => ?_, fun hinert s' hstep => workerAck_inert hsnd hinert hstep⟩
  rw [inert, Bool.not_eq_true', Option.any_eq_false]
  rintro ⟨account, lease, command⟩ hfnd
  rw [← Bool.not_eq_true]
  intro htold
  rw [Bool.and_eq_true] at htold
  obtain ⟨s', hstep, hchgd⟩ := workerAck_tells settings hsnd hfnd htold.1 htold.2
  exact hchgd (hkept s' hstep)

/-- The worker says hello again, the account is placed on its new session, and the provisioning
of the old one is acknowledged. -/
theorem staleAck_inert_replaced : ∃ s : World, ∃ request, staleAck s request = true
    ∧ ∀ s', step demoSettings s (.ack ⟨"w1", 1, 1, 1⟩ request) = some s' → s'.accounts = s.accounts := by
  have hexec :
      ∃ s : World, Runs.exec (step demoSettings) (fun _ _ => true) World.empty
        (demoConnected [] ++ [.poll ⟨"w1", 1, 1, 1⟩ none [2], .hello (demoHello "w1" []), .place "a1" "w1"]) = some s
      ∧ staleAck s ⟨2, "a1", 1, .succeeded, none, none⟩ = true
      ∧ inert ⟨2, "a1", 1, .succeeded, none, none⟩ ⟨"w1", 1, 1, 1⟩ s = true := by
    decide +kernel
  obtain ⟨s, hrun, hstale, hinert⟩ := hexec
  exact ⟨s, _, hstale, (staleAck_inert_iff (Runs.reaches_exec hrun) _ _).mpr (fun _ => hinert) hstale⟩

/-- Two stop commands of the first lease are given out; the first is acknowledged, and the account
is connected again and placed on the same worker session. -/
def replacedRun : List Action :=
  demoConnected [] ++
    [.adminCommand "admin" ⟨"owner", "a1", 1, "operator", .stopAccount, some .empty, none⟩,
      .disconnect "admin" (demoRevision "a1" 3), .poll ⟨"w1", 1, 1, 1⟩ none [3, 4],
      .ack ⟨"w1", 1, 1, 1⟩ ⟨4, "a1", 1, .succeeded, none, none⟩, .reconnect "admin" (demoRevision "a1" 4),
      .place "a1" "w1"]

/-- The second stop command is acknowledged under the second lease. -/
theorem staleAck_accepted : ¬ ∀ (settings : Settings) (s s' : World) (envelope : Envelope) (request : AckRequest),
    Runs.Reaches (step settings) Runs.always World.empty s → staleAck s request = true →
      step settings s (.ack envelope request) = some s' → s'.accounts = s.accounts := by
  intro h
  have hexec : ∃ s : World, Runs.exec (step demoSettings) (fun _ _ => true) World.empty replacedRun = some s
      ∧ staleAck s ⟨3, "a1", 1, .succeeded, none, none⟩ = true
      ∧ ∃ s' : World, step demoSettings s (.ack ⟨"w1", 1, 1, 1⟩ ⟨3, "a1", 1, .succeeded, none, none⟩) = some s'
      ∧ s'.accounts.map (·.registry.status) ≠ s.accounts.map (·.registry.status) := by
    decide +kernel
  obtain ⟨s, hrun, hstale, s', hstep, hoffline⟩ := hexec
  refine hoffline ?_
  rw [h demoSettings s s' _ _ (Runs.reaches_exec hrun) hstale hstep]

end MarketLens.Mt5Vm
