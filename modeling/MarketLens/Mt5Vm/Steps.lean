import MarketLens.Mt5Vm.Moves

/-!
# Every transaction is a chain of changes

`step_descends`: a transaction changes the accounts each by a chain of changes, adds the
one account a reservation creates, or deletes the one an abort or a removal names.
-/

namespace MarketLens.Mt5Vm

open List Bool Table Account Store Fallible Relation World

variable {settings : Settings} {s s' : World} {act : Action}

/-! ## Requests that succeeded -/

theorem fst_toOption {ε A B : Type} {x : Except ε (A × B)} {a : A} (h : (x.map Prod.fst).toOption = some a) :
    ∃ b, x = .ok (a, b) := by
  cases x with
  | error => simp [Except.map, Except.toOption] at h
  | ok pair =>
    have hfst : pair.1 = a := Option.some.inj h
    exact ⟨pair.2, by rw [← hfst]⟩

variable {accounts : List Account}

theorem World.commit_ok (h : s.commit accounts = .ok s') : identitiesUnique accounts = true ∧ s' = { s with accounts } := by
  unfold World.commit at h
  split at h
  · rename_i huniq
    exact ⟨huniq, (Except.ok.inj h).symm⟩
  · cases h

variable {f : Account → Account}

theorem World.commitAccount_ok {accountId : AccountId} (h : s.commitAccount accountId f = .ok s') :
    identitiesUnique (updateWhere (fun account => account.accountId = accountId) f s.accounts) = true
      ∧ s' = { s with accounts := updateWhere (fun account => account.accountId = accountId) f s.accounts } :=
  World.commit_ok h

theorem authenticateWorker_ok {envelope : Envelope} {worker : Worker} (h : authenticateWorker envelope s = .ok worker) :
    s.worker? envelope.workerId = some worker ∧ worker.workerId = envelope.workerId
      ∧ worker.sessionGeneration = envelope.sessionGeneration ∧ worker.sessionToken = envelope.token
      ∧ s.now < worker.heartbeatExpiresAt := by
  rw [authenticateWorker, bind_ok] at h
  obtain ⟨found, hfnd, h⟩ := h
  rw [unit_bind_ok, unit_bind_ok, refuseIf_ok, refuseIf_ok] at h
  obtain ⟨hfen, hali, hsame⟩ := h
  cases hsame
  rw [require_ok] at hfnd
  simp only [or_eq_false_iff, decide_eq_false_iff_not, Decidable.not_not] at hfen hali
  have hname : worker.workerId = envelope.workerId := by simpa using List.find?_some hfnd
  exact ⟨hfnd, hname, hfen.1.1.2, hfen.2, Nat.lt_of_not_le hali⟩

/-! ## Frames -/

section Frames

variable {a b c : Account}

theorem ManagedSession.continues.refl {session : ManagedSession} (h : session.revoked = false) :
    session.continues session := ⟨h, rfl, rfl, rfl, rfl⟩

theorem ManagedSession.continues.trans {first second third : ManagedSession} (h : third.continues second)
    (h' : second.continues first) : third.continues first := by
  obtain ⟨_, h1, h2, h3, h4⟩ := h
  obtain ⟨hali, h1', h2', h3', h4'⟩ := h'
  exact ⟨hali, h1'.trans h1, h2'.trans h2, h3'.trans h3, h4'.trans h4⟩

theorem Frame.of_same (hscrt : b.registry.secretRef = a.registry.secretRef) (hcmds : b.commands = a.commands)
    (hsesss : b.sessions = a.sessions) : Frame a b := by
  refine ⟨hscrt, ?_, ?_⟩
  · intro command hmem _
    exact ⟨command, hcmds ▸ hmem, rfl, rfl⟩
  · intro session hmem hali
    exact ⟨session, hsesss ▸ hmem, .refl hali⟩

theorem Frame.trans (h : Frame a b) (h' : Frame b c) : Frame a c := by
  refine ⟨h'.secret.trans h.secret, ?_, ?_⟩
  · intro command hmem hkind
    obtain ⟨mid, hmid, hid, hsame⟩ := h'.provisions command hmem hkind
    obtain ⟨old, hold, hid', hsame'⟩ := h.provisions mid hmid (hsame.trans hkind)
    exact ⟨old, hold, hid'.trans hid, hsame'.trans hsame⟩
  · intro session hmem hali
    obtain ⟨mid, hmid, hcont⟩ := h'.sessions session hmem hali
    obtain ⟨old, hold, hcont'⟩ := h.sessions mid hmid hcont.1
    exact ⟨old, hold, .trans hcont hcont'⟩

theorem Frame.updateCommands {p : ControlCommand → Bool} {f : ControlCommand → ControlCommand}
    (hf : ∀ command, (f command).id = command.id ∧ (f command).kind = command.kind) (a : Account) :
    Frame a (a.updateCommands p f) := by
  refine ⟨rfl, ?_, ?_⟩
  · intro command hmem _
    rcases updateWhere_cases hmem with ⟨hold, _⟩ | ⟨old, hold, _, rfl⟩
    · exact ⟨command, hold, rfl, rfl⟩
    · exact ⟨old, hold, (hf old).1.symm, (hf old).2.symm⟩
  · intro session hmem hali
    exact ⟨session, hmem, .refl hali⟩

theorem Frame.updateTokens {p : PairingToken → Bool} {f : PairingToken → PairingToken} (a : Account) :
    Frame a (a.updateTokens p f) := .of_same rfl rfl rfl

theorem Frame.updateSessions {p : ManagedSession → Bool} {f : ManagedSession → ManagedSession}
    (hf : ∀ session, (f session).revoked = false → (f session).continues session) (a : Account) :
    Frame a (a.updateSessions p f) := by
  refine ⟨rfl, ?_, ?_⟩
  · intro command hmem _
    exact ⟨command, hmem, rfl, rfl⟩
  · intro session hmem hali
    rcases updateWhere_cases hmem with ⟨hold, _⟩ | ⟨old, hold, _, rfl⟩
    · exact ⟨session, hold, .refl hali⟩
    · exact ⟨old, hold, hf old hali⟩

theorem Frame.queueUnless {taken : Bool} {command : ControlCommand} (hkind : command.kind ≠ .provisionAccount)
    (a : Account) : Frame a (a.queueUnless taken command) := by
  unfold Account.queueUnless
  split
  · exact .of_same rfl rfl rfl
  · refine ⟨rfl, ?_, ?_⟩
    · intro other hmem hoth
      rcases mem_append.mp hmem with hold | hnew
      · exact ⟨other, hold, rfl, rfl⟩
      · cases mem_singleton.mp hnew
        exact absurd hoth hkind
    · intro session hmem hali
      exact ⟨session, hmem, .refl hali⟩

theorem concluded_keeps (status : ControlStatus) (code : String) (now : Millis) (command : ControlCommand) :
    (command.concluded status code now).id = command.id ∧ (command.concluded status code now).kind = command.kind :=
  ⟨rfl, rfl⟩

end Frames

/-! ## Changes that leave the connection and the lease alone -/

theorem Untouched.of_mem {a : Account} (ha : a ∈ s.accounts) : Untouched s a := ⟨a, ha, rfl, rfl, rfl⟩

theorem Account.expireWorkerCommands_change (workerId : WorkerId) (a : Account) :
    Change s act a (a.expireWorkerCommands workerId s.now) :=
  .keep (.updateCommands (fun _ => concluded_keeps _ _ _ _) a) rfl rfl ⟨rfl, rfl⟩

theorem Account.bootstrap_frame (worker : Worker) (now : Millis) (base : Nat) (command : ControlCommand) (a : Account) :
    Frame a (a.bootstrap worker now base command) ∧ (a.bootstrap worker now base command).connection = a.connection
      ∧ (a.bootstrap worker now base command).lease = a.lease ∧ Unobserved a (a.bootstrap worker now base command) := by
  unfold bootstrap
  split
  · exact ⟨.of_same rfl rfl rfl, rfl, rfl, rfl, rfl⟩
  · exact ⟨.of_same rfl rfl rfl, rfl, rfl, rfl, rfl⟩

/-- The bootstraps of a poll leave everything but the tokens alone. -/
theorem Account.bootstraps_frame (worker : Worker) (now : Millis) (base : Nat) (commands : List ControlCommand) :
    ∀ a : Account, Frame a (commands.foldl (Account.bootstrap worker now base) a)
      ∧ (commands.foldl (Account.bootstrap worker now base) a).connection = a.connection
      ∧ (commands.foldl (Account.bootstrap worker now base) a).lease = a.lease
      ∧ Unobserved a (commands.foldl (Account.bootstrap worker now base) a) := by
  induction commands with
  | nil => exact fun a => ⟨.of_same rfl rfl rfl, rfl, rfl, rfl, rfl⟩
  | cons command rest ih =>
    intro a
    obtain ⟨hfrm, hconn, hls, hsync, hst⟩ := a.bootstrap_frame worker now base command
    obtain ⟨hfrm', hconn', hls', hsync', hst'⟩ := ih (a.bootstrap worker now base command)
    exact ⟨hfrm.trans hfrm', hconn'.trans hconn, hls'.trans hls, hsync'.trans hsync, hst'.trans hst⟩

theorem Account.dispatch_connection (worker : Worker) (taken : List Nat) (now : Millis) (base : Nat) (a : Account) :
    (a.dispatch worker taken now base).connection = a.connection :=
  (bootstraps_frame worker now base _ _).2.1

theorem Account.dispatch_change (worker : Worker) (taken : List Nat) (base : Nat) (a : Account) :
    Change s act a (a.dispatch worker taken s.now base) := by
  have hgiven : Frame a (a.updateCommands (fun command => taken.contains command.id)
      ({ · with status := .dispatched, dispatchLeaseUntil := some (s.now + 15000) })) := by
    refine .updateCommands (fun command => ?_) a
    exact ⟨rfl, rfl⟩
  obtain ⟨hfrm, hconn, hls, hobs⟩ := bootstraps_frame worker s.now base
    ((a.updateCommands (fun command => taken.contains command.id)
      ({ · with status := .dispatched, dispatchLeaseUntil := some (s.now + 15000) })).commands.filter
        fun command => taken.contains command.id) _
  exact .keep (hgiven.trans hfrm) hconn hls hobs

/-! ## Tables of accounts -/

/-- Each account changed by a chain of changes, in place. -/
def Evolves (s : World) (act : Action) (accounts accounts' : List Account) : Prop :=
  ∃ f : Account → Account, accounts' = accounts.map f ∧ ∀ a ∈ accounts, ReflTransGen (Change s act) a (f a)

/-- Each account changed by a chain of changes that leaves its connection as it is. -/
def EvolvesQuietly (s : World) (act : Action) (accounts accounts' : List Account) : Prop :=
  ∃ f : Account → Account, accounts' = accounts.map f
    ∧ ∀ a ∈ accounts, ReflTransGen (Change s act) a (f a) ∧ (f a).connection = a.connection

theorem EvolvesQuietly.refl (accounts : List Account) : EvolvesQuietly s act accounts accounts :=
  ⟨id, (map_id accounts).symm, fun _ _ => ⟨.refl, rfl⟩⟩

theorem EvolvesQuietly.trans {first second third : List Account} (h : EvolvesQuietly s act first second)
    (h' : EvolvesQuietly s act second third) : EvolvesQuietly s act first third := by
  obtain ⟨f, rfl, hf⟩ := h
  obtain ⟨g, rfl, hg⟩ := h'
  refine ⟨g ∘ f, map_map, fun a ha => ?_⟩
  obtain ⟨hchain, hsame⟩ := hf a ha
  obtain ⟨hchain', hsame'⟩ := hg (f a) (mem_map_of_mem ha)
  exact ⟨hchain.trans hchain', hsame'.trans hsame⟩

theorem EvolvesQuietly.map (hf : ∀ a ∈ accounts, Change s act a (f a) ∧ (f a).connection = a.connection) :
    EvolvesQuietly s act accounts (accounts.map f) :=
  ⟨f, rfl, fun a ha => ⟨.single (hf a ha).1, (hf a ha).2⟩⟩

theorem EvolvesQuietly.updateWhere {p : Account → Bool}
    (hf : ∀ a ∈ accounts, p a = true → Change s act a (f a) ∧ (f a).connection = a.connection) :
    EvolvesQuietly s act accounts (updateWhere p f accounts) := by
  refine ⟨fun a => if p a then f a else a, rfl, fun a ha => ?_⟩
  dsimp only
  split
  · rename_i hp
    exact ⟨.single (hf a ha hp).1, (hf a ha hp).2⟩
  · exact ⟨.refl, rfl⟩

theorem Evolves.updateWhere {p : Account → Bool} (hf : ∀ a ∈ accounts, p a = true → ReflTransGen (Change s act) a (f a)) :
    Evolves s act accounts (updateWhere p f accounts) := by
  refine ⟨fun a => if p a then f a else a, rfl, fun a ha => ?_⟩
  dsimp only
  split
  · rename_i hp
    exact hf a ha hp
  · exact .refl

theorem indexedIdentity_of_connection {a b : Account} (h : b.connection = a.connection) :
    b.indexedIdentity = a.indexedIdentity := by
  unfold indexedIdentity
  rw [h]

/-- The identity index does not see a quiet change. -/
theorem EvolvesQuietly.keeps_unique {accounts accounts' : List Account}
    (h : EvolvesQuietly s act accounts accounts') (huniq : identitiesUnique accounts = true) :
    identitiesUnique accounts' = true := by
  obtain ⟨f, rfl, hf⟩ := h
  have hsame : (accounts.map f).filterMap indexedIdentity = accounts.filterMap indexedIdentity := by
    rw [filterMap_map]
    exact filterMap_congr fun a ha => indexedIdentity_of_connection (hf a ha).2
  unfold World.identitiesUnique at huniq ⊢
  rw [hsame]
  exact huniq

def Action.deletes (accountId : AccountId) : Action → Bool
  | .abort _ request => request.accountId = accountId && request.created
  | .finalizeDelete _ request => request.accountId = accountId
  | _ => false

/-- What a transaction does to the table of accounts. -/
inductive Descent (s : World) (act : Action) : List Account → Prop where
  | quiet {accounts : List Account} (h : EvolvesQuietly s act s.accounts accounts) : Descent s act accounts
  | evolve {accounts : List Account} (h : Evolves s act s.accounts accounts)
      (hunique : identitiesUnique accounts = true) : Descent s act accounts
  | create {adminToken : String} {request : ReserveRequest} {identity server : Fingerprint}
      (hact : act = .reserve adminToken request)
      (hidentity : decodeIdentityFingerprint request.identityFingerprint = some identity)
      (hsecret : validSecretRef request.secretRef = true) (hnew : s.account? request.accountId = none)
      (hunique : identitiesUnique (s.accounts ++ [.create request identity server s.now]) = true) :
      Descent s act (s.accounts ++ [.create request identity server s.now])
  | delete {p : Account → Bool} (hdeleted : ∀ a ∈ s.accounts, p a = false → act.deletes a.accountId = true) :
      Descent s act (s.accounts.filter p)

end MarketLens.Mt5Vm
