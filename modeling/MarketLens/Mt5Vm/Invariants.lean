import Mathlib.Data.List.Pairwise
import MarketLens.Mt5Vm.Descents

/-!
# What holds in every state

An account is one row, its lease is of the generation its connection says, a bound account
is bound to the holder of its lease and holds its identity, and the holder is enrolled.
None of it needs a condition on who acts or when. The tokens of an account never return.
-/

namespace MarketLens.Mt5Vm

open List Option Bool Table Runs Lease Account Store Fallible Relation World

variable {settings : Settings} {s s' : World} {act : Action} {gate : Bool}

/-! ## Accounts one by one -/

variable {row row' : Connection} {lease lease' : Option Lease}

/-- What moves an account without the gate of bare metal. -/
theorem Move.gated (h : Move s act false row lease row' lease') : Move s act true row lease row' lease' := by
  cases h with
  | keep => exact .keep
  | renew expiresAt hls => exact .renew expiresAt hls
  | fence hact => exact .fence hact
  | lapse hact hls hlaps => exact .lapse hact hls hlaps
  | place hact hwtg hwkr haccs => exact .place hact hwtg hwkr haccs
  | advance hadv hls hval =>
    refine .advance ?_ hls hval
    cases hadv with
    | degrade hact hacct hack hcmd hopen hasg =>
      exact .degrade hact hacct hack hcmd hopen hasg
    | provision hact hacct hack hcmd hopen hkind hasg =>
      exact .provision hact hacct hack hcmd hopen hkind hasg
    | reconcile hact hwkr hasg => exact .reconcile hact hwkr hasg
    | pair hact hasg => exact .pair hact hasg
    | windows hact hwkr hsubs hasg => exact .windows hact hwkr hsubs hasg
    | bareMetal hgate => cases hgate
  | stop hact hacct hack hcmd hkind hopen hls hval =>
    exact .stop hact hacct hack hcmd hkind hopen hls hval
  | recover hact hacct hfs hunb hresv hstale => exact .recover hact hacct hfs hunb hresv hstale
  | claim hact hacct hfs hident hunb hresv hown hsecretless hscrt =>
    exact .claim hact hacct hfs hident hunb hresv hown hsecretless hscrt
  | replace hact hacct hlat hident hunb hresv hscrt =>
    exact .replace hact hacct hlat hident hunb hresv hscrt
  | activate hact hacct hident hunb hresv => exact .activate hact hacct hident hunb hresv
  | abort hact hacct hcrtd => exact .abort hact hacct hcrtd
  | reconnect hact hacct hunb hresv => exact .reconnect hact hacct hunb hresv
  | disconnect hact hacct => exact .disconnect hact hacct
  | prepareDelete hact hacct hstopping => exact .prepareDelete hact hacct hstopping

variable {a a' : Account}

theorem Change.moved (h : Change s act a a') : Move s act true a.connection a.lease a'.connection a'.lease := by
  cases h with
  | keep hfrm hconn hls | observe hact hfrm hconn hls =>
    rw [hconn, hls]
    exact .keep
  | renew expiresAt hls => exact .renew expiresAt hls
  | move horig hfrm hobs hmove => exact hmove.gated
  | activate hact ha hacct hident hunb hresv hscrt hactvd =>
    subst hactvd
    exact .activate hact hacct hident hunb hresv
  | place hact hwtg hwkr haccs => exact .place hact hwtg hwkr haccs
  | pair hact hasg =>
    simp only [PairingToken.assigned, and_eq_true] at hasg
    obtain ⟨held, hheld, hls⟩ := (any_eq_true _ _).mp hasg.2
    simp only [and_eq_true] at hls
    exact .advance (.pair hact hasg.1.1.1.1) hheld hls.2
  | @ready worker hgate hwkr hrdy =>
    unfold advanceReadiness
    rw [hwkr]
    dsimp only
    rw [if_pos hrdy]
    split
    · exact .keep
    · simp only [readyOnBareMetal, and_eq_true, decide_eq_true_eq, isNone_iff_eq_none] at hrdy
      obtain ⟨held, hheld, hls⟩ := (any_eq_true _ _).mp hrdy.1.1.1.2
      simp only [and_eq_true] at hls
      exact .advance (.bareMetal rfl hrdy.1.1.1.1.1.1.1.1.1.1.1.1.1 hrdy.1.1.1.1.1.1.1.1.1.2) hheld hls.2

/-- The readiness gate leaves the lease, the commands and the binding alone. -/
theorem Account.advanceReadiness_keeps (workers : List Worker) (now : Millis) (a : Account) :
    (a.advanceReadiness workers now).lease = a.lease
      ∧ (a.advanceReadiness workers now).connection.workerId = a.connection.workerId
      ∧ (a.advanceReadiness workers now).commands = a.commands := by
  unfold advanceReadiness
  split
  · exact ⟨rfl, rfl, rfl⟩
  · split
    · dsimp only
      split
      · exact ⟨rfl, rfl, rfl⟩
      · exact ⟨rfl, rfl, rfl⟩
    · exact ⟨rfl, rfl, rfl⟩

/-- The readiness gate makes a bound account ready, or leaves its connection alone. -/
theorem Account.advanceReadiness_connection {worker : Worker} (a : Account)
    (hwkr : s.workers.find? (fun worker => a.connection.workerId = some worker.workerId) = some worker) :
    (a.advanceReadiness s.workers s.now).connection = a.connection
      ∨ (a.advanceReadiness s.workers s.now).connection = a.connection.becomeReady
        ∧ a.connection.workerId = some worker.workerId := by
  have hbnd : a.connection.workerId = some worker.workerId := by simpa using find?_some hwkr
  unfold advanceReadiness
  rw [hwkr]
  dsimp only
  split
  · split
    · exact .inl rfl
    · exact .inr ⟨rfl, hbnd⟩
  · exact .inl rfl

/-- The columns no transaction writes. -/
theorem Move.keeps (h : Move s act gate row lease row' lease') : row'.accountId = row.accountId ∧ row'.userId = row.userId := by
  cases h with
  | fence | lapse =>
    split
    · exact ⟨rfl, rfl⟩
    · exact ⟨rfl, rfl⟩
  | stop =>
    unfold Connection.stop
    split
    · exact ⟨rfl, rfl⟩
    · exact ⟨rfl, rfl⟩
  | _ => exact ⟨rfl, rfl⟩

theorem Change.accountId (h : Change s act a a') : a'.accountId = a.accountId := h.moved.keeps.1

theorem chain_keeps {P : Account → Prop} (hchain : ReflTransGen (Change s act) a a')
    (hstep : ∀ b b', P b → Change s act b b' → P b') (ha : P a) : P a' := by
  induction hchain with
  | refl => exact ha
  | tail _ hchg ih => exact hstep _ _ ih hchg

theorem chain_accountId (h : ReflTransGen (Change s act) a a') : a'.accountId = a.accountId :=
  chain_keeps h (fun _ _ hsame hchg => hchg.accountId.trans hsame) rfl

variable {accounts : List Account}

section Descent

variable (h : Descent s act accounts)
include h

theorem Descent.cases_mem {a' : Account} (ha' : a' ∈ accounts) :
    (∃ a ∈ s.accounts, ReflTransGen (Change s act) a a')
      ∨ ∃ adminToken request identity server, act = .reserve adminToken request
        ∧ decodeIdentityFingerprint request.identityFingerprint = some identity
        ∧ validSecretRef request.secretRef = true ∧ s.account? request.accountId = none
        ∧ a' = .create request identity server s.now := by
  cases h with
  | quiet h =>
    obtain ⟨f, rfl, hf⟩ := h
    obtain ⟨a, ha, rfl⟩ := mem_map.mp ha'
    exact .inl ⟨a, ha, (hf a ha).1⟩
  | evolve h =>
    obtain ⟨f, rfl, hf⟩ := h
    obtain ⟨a, ha, rfl⟩ := mem_map.mp ha'
    exact .inl ⟨a, ha, hf a ha⟩
  | create hact hident hscrt hnew =>
    rcases mem_append.mp ha' with hold | hcrtd
    · exact .inl ⟨a', hold, .refl⟩
    · exact .inr ⟨_, _, _, _, hact, hident, hscrt, hnew, mem_singleton.mp hcrtd⟩
  | delete => exact .inl ⟨a', mem_of_mem_filter ha', .refl⟩

theorem Descent.survivor {a : Account} (ha : a ∈ s.accounts)
    (hkept : act.deletes a.accountId = false) : ∃ a' ∈ accounts, ReflTransGen (Change s act) a a' := by
  cases h with
  | quiet h =>
    obtain ⟨f, rfl, hf⟩ := h
    exact ⟨f a, mem_map_of_mem ha, (hf a ha).1⟩
  | evolve h =>
    obtain ⟨f, rfl, hf⟩ := h
    exact ⟨f a, mem_map_of_mem ha, hf a ha⟩
  | create => exact ⟨a, mem_append_left _ ha, .refl⟩
  | @delete p hdeld =>
    refine ⟨a, mem_filter.mpr ⟨ha, ?_⟩, .refl⟩
    cases hp : p a with
    | true => rfl
    | false =>
      rw [hdeld a ha hp] at hkept
      cases hkept

theorem Descent.forall {P : Account → Prop} (hs : ∀ a ∈ s.accounts, P a) (hstep : ∀ a a', P a → Change s act a a' → P a')
    (hcreate : ∀ request identity server, P (.create request identity server s.now)) : ∀ a ∈ accounts, P a := by
  intro a' ha'
  rcases h.cases_mem ha' with ⟨a, ha, hchain⟩ | ⟨_, _, _, _, _, _, _, _, rfl⟩
  · exact chain_keeps hchain hstep (hs a ha)
  · exact hcreate _ _ _

end Descent

/-! ## Ids and the identity index -/

theorem Descent.ids (h : Descent s act accounts)
    (hids : (s.accounts.map Account.accountId).Nodup) : (accounts.map Account.accountId).Nodup := by
  have hmap : ∀ f : Account → Account, (∀ a ∈ s.accounts, (f a).accountId = a.accountId) →
      ((s.accounts.map f).map Account.accountId).Nodup := by
    intro f hf
    rw [List.map_map]
    exact (map_congr_left hf).symm ▸ hids
  cases h with
  | quiet h =>
    obtain ⟨f, rfl, hf⟩ := h
    exact hmap f fun a ha => chain_accountId (hf a ha).1
  | evolve h =>
    obtain ⟨f, rfl, hf⟩ := h
    exact hmap f fun a ha => chain_accountId (hf a ha)
  | create hact hident hscrt hnew =>
    refine nodup_insert hids fun a ha hsame => ?_
    have hnone := find?_eq_none.mp hnew a ha
    exact hnone (decide_eq_true hsame)
  | delete => exact hids.sublist (filter_sublist.map _)

theorem Descent.unique (h : Descent s act accounts)
    (huniq : identitiesUnique s.accounts = true) : identitiesUnique accounts = true := by
  cases h with
  | quiet h => exact h.keeps_unique huniq
  | evolve h huniq' | create hact hident hscrt hnew huniq' => exact huniq'
  | delete =>
    simp only [World.identitiesUnique, decide_eq_true_eq] at huniq ⊢
    exact huniq.sublist (filter_sublist.filterMap _)

theorem identitiesUnique_iff (hids : (accounts.map Account.accountId).Nodup) :
    identitiesUnique accounts = true ↔ ∀ a ∈ accounts, ∀ b ∈ accounts, a.accountId ≠ b.accountId →
      ∀ identity, a.indexedIdentity = some identity → b.indexedIdentity ≠ some identity := by
  rw [World.identitiesUnique, decide_eq_true_eq, List.Nodup, pairwise_filterMap]
  have hpairs : accounts.Pairwise fun a b => a.accountId ≠ b.accountId := pairwise_map.mp hids
  constructor
  · intro h a ha b hb hoth identity hident hident'
    have hsymm : Std.Symm fun a b : Account => ∀ i, a.indexedIdentity = some i → ∀ j, b.indexedIdentity = some j → i ≠ j :=
      ⟨fun a b hab i hi j hj hsame => hab j hj i hi hsame.symm⟩
    have hne : a ≠ b := fun hsame => hoth (congrArg _ hsame)
    exact h.forall ha hb hne identity hident identity hident' rfl
  · intro h
    refine hpairs.imp_of_mem ?_
    rintro a b ha hb hoth identity hident other hident' rfl
    exact h a ha b hb hoth identity hident hident'

variable {f : Account → Account}

theorem commitAccount_succeeds (hids : (s.accounts.map Account.accountId).Nodup) (huniq : identitiesUnique s.accounts = true)
    (accountId : AccountId) (hkept : ∀ a, (f a).accountId = a.accountId)
    (hfree : ∀ a ∈ s.accounts, a.accountId = accountId → ∀ b ∈ s.accounts, b.accountId ≠ accountId →
      ∀ identity, (f a).indexedIdentity = some identity → b.indexedIdentity ≠ some identity) :
    ∃ mid, s.commitAccount accountId f = .ok mid := by
  have hnam : (updateWhere (fun a => a.accountId = accountId) f s.accounts).map Account.accountId
      = s.accounts.map Account.accountId := map_updateWhere hkept _
  have hfsh : identitiesUnique (updateWhere (fun a => a.accountId = accountId) f s.accounts) = true := by
    rw [identitiesUnique_iff (by rw [hnam]; exact hids)]
    rw [identitiesUnique_iff hids] at huniq
    intro a' ha' b' hb' hoth identity hident hident'
    rcases updateWhere_cases ha' with ⟨ha, hna⟩ | ⟨a, ha, hna, rfl⟩
    · rcases updateWhere_cases hb' with ⟨hb, -⟩ | ⟨b, hb, hnb, rfl⟩
      · exact huniq a' ha b' hb hoth identity hident hident'
      · exact hfree b hb (of_decide_eq_true hnb) a' ha (of_decide_eq_false hna) identity hident' hident
    · rcases updateWhere_cases hb' with ⟨hb, hnb⟩ | ⟨b, hb, hnb, rfl⟩
      · exact hfree a ha (of_decide_eq_true hna) b' hb (of_decide_eq_false hnb) identity hident hident'
      · rw [hkept, hkept, of_decide_eq_true hna, of_decide_eq_true hnb] at hoth
        exact hoth rfl
  unfold World.commitAccount World.commit
  rw [if_pos hfsh]
  exact ⟨_, rfl⟩

/-! ## Leases and their holders -/

/-- A connection and the lease of its account fit together. -/
structure Assigned (row : Connection) (lease : Option Lease) : Prop where
  /-- The generation is the lease's, or zero. -/
  generation : row.leaseGeneration = (lease.map Lease.generation).getD 0
  /-- A bound account is bound to the holder of its lease. -/
  holder : ∀ workerId, row.workerId = some workerId → ∃ held, lease = some held ∧ held.workerId = workerId
  /-- A bound account holds its identity. -/
  live : ∀ workerId, row.workerId = some workerId → row.status.live = true

theorem Assigned.unbound (hgen : row.leaseGeneration = (lease.map Lease.generation).getD 0) (h : row.workerId = none) :
    Assigned row lease where
  generation := hgen
  holder := by
    intro workerId hbnd
    rw [h] at hbnd
    cases hbnd
  live := by
    intro workerId hbnd
    rw [h] at hbnd
    cases hbnd

theorem Assigned.same (h : Assigned row lease)
    (hgen : row'.leaseGeneration = row.leaseGeneration) (hwkr : row'.workerId = row.workerId)
    (hlive : ∀ workerId, row.workerId = some workerId → row'.status.live = true) : Assigned row' lease where
  generation := hgen.trans h.generation
  holder := by rw [hwkr]; exact h.holder
  live := by rw [hwkr]; exact hlive

/-- Only the status or the end of the lease changes. -/
theorem Assigned.of_lease {f : Lease → Lease} (h : Assigned row lease)
    (hf : ∀ held, (f held).generation = held.generation ∧ (f held).workerId = held.workerId) :
    Assigned row (lease.map f) where
  generation := by
    rw [h.generation]
    cases lease with
    | none => rfl
    | some held => exact (hf held).1.symm
  holder := by
    intro workerId hbnd
    obtain ⟨held, rfl, hholder⟩ := h.holder workerId hbnd
    exact ⟨f held, rfl, (hf held).2.trans hholder⟩
  live := h.live

theorem Lease.expireOf_keeps (workerId : WorkerId) (held : Lease) :
    (held.expireOf workerId).generation = held.generation ∧ (held.expireOf workerId).workerId = held.workerId := by
  unfold expireOf
  split
  · exact ⟨rfl, rfl⟩
  · exact ⟨rfl, rfl⟩

theorem Lease.release_keeps (workerId : WorkerId) (generation : Nat) (held : Lease) :
    (held.release workerId generation).generation = held.generation
      ∧ (held.release workerId generation).workerId = held.workerId := by
  unfold release
  split
  · exact ⟨rfl, rfl⟩
  · exact ⟨rfl, rfl⟩

theorem Advance.live {status : ConnectionStatus} {bump : Nat} (h : Advance s act gate row status bump) : status.live = true := by
  cases h with
  | _ => rfl

theorem Advance.bound {status : ConnectionStatus} {bump : Nat} (h : Advance s act gate row status bump) :
    ∃ workerId, row.workerId = some workerId ∧ row.disconnectRequestedRevision = none := by
  have hasg : ∀ workerId leaseGeneration, row.assignedTo workerId leaseGeneration = true →
      ∃ workerId, row.workerId = some workerId ∧ row.disconnectRequestedRevision = none := by
    intro workerId leaseGeneration hasg
    simp only [Connection.assignedTo, and_eq_true, decide_eq_true_eq, isNone_iff_eq_none] at hasg
    exact ⟨workerId, hasg.1.1, hasg.2⟩
  cases h with
  | degrade hact hacct hack hcmd hopen h | provision hact hacct hack hcmd hopen hkind h
  | reconcile hact hwkr h | pair hact h | windows hact hwkr hsubs h => exact hasg _ _ h
  | bareMetal hgate hbnd hopen => exact ⟨_, hbnd, hopen⟩

/-- **Every move keeps a connection and its lease together.** -/
theorem Move.assigned (h : Assigned row lease) (hmove : Move s act gate row lease row' lease') : Assigned row' lease' := by
  cases hmove with
  | keep => exact h
  | @renew held expiresAt hls =>
    rw [hls] at h
    exact h.of_lease (f := fun held => { held with expiresAt }) fun _ => ⟨rfl, rfl⟩
  | @fence request =>
    have hfenced := h.of_lease (expireOf_keeps request.workerId)
    split
    · exact .unbound hfenced.generation rfl
    · exact hfenced
  | @lapse held hact hls =>
    rw [hls] at h
    have hexpired := h.of_lease (f := fun held => { held with status := .expired }) fun _ => ⟨rfl, rfl⟩
    split
    · exact .unbound hexpired.generation rfl
    · exact hexpired
  | place =>
    refine ⟨rfl, ?_, fun _ _ => rfl⟩
    intro workerId hbnd
    exact ⟨_, rfl, Option.some.inj hbnd⟩
  | advance hadv => exact h.same rfl rfl fun _ _ => hadv.live
  | @stop envelope request =>
    have hreld := h.of_lease (release_keeps envelope.workerId request.leaseGeneration)
    unfold Connection.stop
    split
    · exact .unbound hreld.generation rfl
    · exact hreld
  | recover hact hacct hfs hunb | claim hact hacct hfs hident hunb | replace hact hacct hlat hident hunb
  | activate hact hacct hident hunb | reconnect hact hacct hunb => exact .unbound h.generation hunb
  | abort => exact h.same rfl rfl h.live
  | disconnect =>
    refine h.same rfl rfl fun workerId hbnd => ?_
    unfold Connection.fenceDisconnect
    rw [hbnd]
    rfl
  | @prepareDelete adminToken request stopping =>
    cases stopping with
    | true => exact h.same rfl rfl fun _ _ => rfl
    | false => exact .unbound h.generation rfl

/-! ## Active leases -/

/-- No lease of the account is active. -/
def leaseless (lease : Option Lease) : Bool := !lease.any fun held => held.status = .active

theorem leaseless_of_inactive
    (h : ∀ held', lease' = some held' → held'.status = .active → ∃ held, lease = some held ∧ held.status = .active)
    (hinact : leaseless lease = true) : leaseless lease' = true := by
  unfold leaseless at hinact ⊢
  rw [not_eq_true', any_eq_false_iff_get] at hinact ⊢
  intro hsome
  by_cases hactv : (lease'.get hsome).status = .active
  · obtain ⟨held, rfl, hheld⟩ := h _ (some_get hsome).symm hactv
    have hno := hinact rfl
    simp [hheld] at hno
  · simpa using hactv

theorem expireOf_active {request : WorkerHelloRequest} (held' : Lease)
    (h : lease.map (Lease.expireOf request.workerId) = some held') (hactv : held'.status = .active) :
    ∃ held, lease = some held ∧ held.status = .active := by
  obtain ⟨held, rfl, rfl⟩ := map_eq_some_iff.mp h
  refine ⟨held, rfl, ?_⟩
  unfold expireOf at hactv
  split at hactv
  · cases hactv
  · exact hactv

variable {workerId : WorkerId}

theorem release_active {generation : Nat} (held' : Lease)
    (h : lease.map (Lease.release workerId generation) = some held') (hactv : held'.status = .active) :
    ∃ held, lease = some held ∧ held.status = .active := by
  obtain ⟨held, rfl, rfl⟩ := map_eq_some_iff.mp h
  refine ⟨held, rfl, ?_⟩
  unfold release at hactv
  split at hactv
  · cases hactv
  · exact hactv

/-! ## Workers -/

/-- What a transaction does to the workers: a hello enrolls one, and otherwise their ids,
sessions and machines stay. -/
inductive Staffing (s : World) (act : Action) : List Worker → Prop where
  | hello {request : WorkerHelloRequest} {protocol : Nat} (hact : act = .hello request) :
      Staffing s act (upsertWorker (enrolled request protocol s.nextId s.now (s.worker? request.workerId)) s.workers)
  | same (f : Worker → Worker) (hf : ∀ worker, (f worker).workerId = worker.workerId
      ∧ (f worker).sessionGeneration = worker.sessionGeneration ∧ (f worker).substrate = worker.substrate) :
      Staffing s act (s.workers.map f)

variable {workers : List Worker}

theorem Staffing.of_same (h : workers = s.workers) : Staffing s act workers := by
  rw [h, ← map_id s.workers]
  exact .same id fun _ => ⟨rfl, rfl, rfl⟩

/-- The world a request leads to has the workers it had. -/
def KeepsWorkers {A : Type} (s : World) (world : A → World) (x : Except ApiError A) : Prop :=
  ∀ a, x = .ok a → (world a).workers = s.workers

section KeepsWorkers

variable {A B : Type} {world : A → World}

theorem KeepsWorkers.bind {x : Except ApiError B} {f : B → Except ApiError A}
    (h : ∀ b, x = .ok b → KeepsWorkers s world (f b)) : KeepsWorkers s world (x >>= f) := by
  intro a ha
  obtain ⟨b, hb, hf⟩ := bind_ok.mp ha
  exact h b hb a hf

theorem KeepsWorkers.ok {a : A} (h : (world a).workers = s.workers) : KeepsWorkers s world (.ok a) := by
  intro a' ha'
  cases ha'
  exact h

theorem KeepsWorkers.commit : KeepsWorkers s id (s.commit accounts) := by
  intro mid hmid
  rw [(commit_ok hmid).2]
  rfl

theorem KeepsWorkers.ite {p : Bool} {x y : Except ApiError A} (hx : KeepsWorkers s world x)
    (hy : KeepsWorkers s world y) : KeepsWorkers s world (if p then x else y) := by
  cases p with
  | true => exact hx
  | false => exact hy

theorem KeepsWorkers.commitAccount {accountId : AccountId} : KeepsWorkers s id (s.commitAccount accountId f) := .commit

theorem KeepsWorkers.answer {accountId : AccountId} {answer : World → A} (h : ∀ mid, (world (answer mid)).workers = mid.workers) :
    KeepsWorkers s world (s.commitAccount accountId f >>= fun mid => .ok (answer mid)) :=
  .bind fun mid hmid => .ok ((h mid).trans (KeepsWorkers.commitAccount mid hmid))

theorem KeepsWorkers.staffing {x : Except ApiError (World × B)} (hx : KeepsWorkers s Prod.fst x)
    (h : (x.map Prod.fst).toOption = some s') : Staffing s act s'.workers := by
  obtain ⟨answer, h⟩ := fst_toOption h
  exact .of_same (hx _ h)

theorem KeepsWorkers.staffing' {x : Except ApiError World} (hx : KeepsWorkers s id x) (h : x.toOption = some s') :
    Staffing s act s'.workers :=
  .of_same (hx _ (toOption_some h))

end KeepsWorkers

theorem reserveAccount_workers {adminToken : String} {request : ReserveRequest} :
    KeepsWorkers s Prod.fst (reserveAccount settings adminToken request s) := by
  refine .bind fun _ _ => .bind fun pair _ => .bind fun _ _ => ?_
  split
  · split
    · refine .bind fun _ _ => .bind fun _ _ => ?_
      split
      · exact .ok rfl
      · exact .ok rfl
      · exact .answer fun _ => rfl
      · exact .answer fun _ => rfl
    · exact .bind fun _ _ => .answer fun _ => rfl
  · exact .bind fun _ _ => .bind fun _ _ => .bind fun mid hmid => .ok (KeepsWorkers.commit mid hmid)

theorem workerAck_workers {envelope : Envelope} {request : AckRequest} :
    KeepsWorkers s Prod.fst (workerAck envelope request s) := by
  refine .bind fun _ _ => .bind fun worker _ => .bind fun found _ => .bind fun _ _ => .bind fun target _ => ?_
  split
  · exact .ok rfl
  · exact .bind fun _ _ => .bind fun _ _ => .answer fun _ => rfl

theorem ingestSnapshot_workers {envelope : Envelope} {request : SnapshotSubmission} :
    KeepsWorkers s Prod.fst (ingestSnapshot settings envelope request s) := by
  intro ⟨mid, outcome⟩ hmid
  obtain ⟨_, _, _, _, _, _, _, _, hcmt, _⟩ := ingestSnapshot_ok hmid
  exact KeepsWorkers.commitAccount _ hcmt

/-- **Only a hello enrolls a worker, or a new session of one.** -/
theorem step_staffing (h : step settings s act = some s') : Staffing s act s'.workers := by
  cases act with
  | wait =>
    cases h
    exact .of_same rfl
  | hello =>
    obtain ⟨response, h⟩ := fst_toOption h
    rw [workerHello, unit_bind_ok, bind_ok] at h
    obtain ⟨-, protocol, -, h⟩ := h
    obtain ⟨mid, hcmt, hsame⟩ := bind_ok.mp h
    cases hsame
    have hwkrs : mid.workers = s.workers := KeepsWorkers.commit mid hcmt
    rw [hwkrs]
    exact .hello rfl
  | heartbeat =>
    -- A heartbeat and a sweep touch neither a worker's session nor its substrate.
    have h := toOption_some h
    rw [workerHeartbeat, unit_bind_ok, bind_ok] at h
    obtain ⟨-, worker, -, h⟩ := h
    rw [unit_bind_ok, bind_ok] at h
    obtain ⟨-, accounts, -, hsame⟩ := h
    cases hsame
    refine .same _ fun worker => ?_
    split
    · exact ⟨rfl, rfl, rfl⟩
    · exact ⟨rfl, rfl, rfl⟩
  | poll => exact KeepsWorkers.staffing (.bind fun _ _ => .bind fun _ _ => .ok rfl) h
  | bind =>
    refine KeepsWorkers.staffing (.bind fun _ _ => .bind fun _ _ => .bind fun _ _ => .bind fun _ _ => .bind fun _ _ => ?_) h
    split
    · exact .ok rfl
    · exact .bind fun _ _ => .ok rfl
  | ack => exact workerAck_workers.staffing h
  | adminCommand =>
    refine KeepsWorkers.staffing (.bind fun _ _ => .bind fun _ _ => .bind fun pair _ => ?_) h
    dsimp only
    split
    · exact .bind fun _ _ => .bind fun _ _ => .ok rfl
    · exact .ok rfl
  | sweep =>
    have h := toOption_some h
    rw [expireStaleState, bind_ok] at h
    obtain ⟨mid, -, hsame⟩ := h
    cases hsame
    refine .same _ fun worker => ?_
    unfold Worker.expire
    split
    · exact ⟨rfl, rfl, rfl⟩
    · exact ⟨rfl, rfl, rfl⟩
  | place =>
    refine KeepsWorkers.staffing' ?_ h
    exact .bind fun _ _ => .bind fun _ _ => .bind fun _ _ => .answer fun _ => rfl
  | reserve => exact reserveAccount_workers.staffing h
  | activate =>
    refine KeepsWorkers.staffing (.bind fun _ _ => .bind fun pair _ => ?_) h
    exact .bind fun _ _ => .bind fun _ _ => .bind fun _ _ => .bind fun _ _ => .answer fun _ => rfl
  | abort =>
    refine KeepsWorkers.staffing' (.bind fun _ _ => .bind fun _ _ => .bind fun _ _ => .bind fun _ _ => ?_) h
    exact .ite .commit .commitAccount
  | reconnect =>
    refine KeepsWorkers.staffing (.bind fun _ _ => .bind fun _ _ => .bind fun _ _ => .bind fun _ _ => ?_) h
    exact .bind fun _ _ => .bind fun _ _ => .answer fun _ => rfl
  | disconnect | prepareDelete =>
    refine KeepsWorkers.staffing (.bind fun _ _ => .bind fun _ _ => .bind fun _ _ => .bind fun _ _ => ?_) h
    exact .answer fun _ => rfl
  | finalizeDelete =>
    refine KeepsWorkers.staffing' ?_ h
    exact .bind fun _ _ => .bind fun _ _ => .bind fun _ _ => .commit
  | snapshot => exact ingestSnapshot_workers.staffing h
  | pairEa =>
    refine KeepsWorkers.staffing' (.bind fun _ _ => .bind fun _ _ => .bind fun _ _ => .bind fun _ _ => ?_) h
    exact .bind fun _ _ => .bind fun _ _ => .answer fun _ => rfl
  | authenticateEa | pollEa | touchEa | manage =>
    refine KeepsWorkers.staffing' ?_ h
    exact .bind fun _ _ => .ok rfl
  | advanceEa => exact KeepsWorkers.staffing' .commit h

def Enrolled (workers : List Worker) (workerId : WorkerId) : Prop := ∃ worker ∈ workers, worker.workerId = workerId

theorem upsertWorker_enrolled (new : Worker) (h : Enrolled workers workerId) : Enrolled (upsertWorker new workers) workerId := by
  obtain ⟨worker, hmem, rfl⟩ := h
  unfold upsertWorker
  split
  · exact exists_updateWhere hmem rfl fun hname => (of_decide_eq_true hname).symm
  · exact ⟨worker, mem_append_left _ hmem, rfl⟩

theorem Staffing.enrolled (h : Staffing s act workers) (henrolled : Enrolled s.workers workerId) : Enrolled workers workerId := by
  cases h with
  | hello => exact upsertWorker_enrolled _ henrolled
  | same f hf =>
    obtain ⟨worker, hmem, rfl⟩ := henrolled
    exact ⟨f worker, mem_map_of_mem hmem, (hf worker).1⟩

/-! ## The invariant -/

/-- What holds of the tables whoever acts, and in whatever order. -/
structure Sound (s : World) : Prop where
  /-- An account is one row. -/
  ids : (s.accounts.map Account.accountId).Nodup
  /-- No two live accounts hold one identity. -/
  unique : identitiesUnique s.accounts = true
  /-- A connection and the lease of its account fit together. -/
  assigned : ∀ a ∈ s.accounts, Assigned a.connection a.lease
  /-- A lease is of a worker that enrolled. -/
  enrolled : ∀ a ∈ s.accounts, ∀ held, a.lease = some held → Enrolled s.workers held.workerId

theorem sound_empty : Sound World.empty where
  ids := .nil
  unique := rfl
  assigned := by
    intro a ha
    exact absurd ha not_mem_nil
  enrolled := by
    intro a ha
    exact absurd ha not_mem_nil

theorem Move.enrolled
    (h : ∀ held, lease = some held → Enrolled s.workers held.workerId) (hmove : Move s act gate row lease row' lease') :
    ∀ held, lease' = some held → Enrolled s.workers held.workerId := by
  cases hmove with
  | @renew held expiresAt hls | @lapse held hact hls =>
    intro held' hheld
    cases hheld
    exact h held hls
  | @fence request =>
    intro held' hheld
    obtain ⟨held, hls, rfl⟩ := map_eq_some_iff.mp hheld
    rw [(expireOf_keeps request.workerId held).2]
    exact h held hls
  | @place worker hact hwtg hwkr =>
    intro held' hheld
    cases hheld
    exact ⟨worker, hwkr, rfl⟩
  | @stop envelope request held =>
    intro held' hheld
    obtain ⟨held, hls', rfl⟩ := map_eq_some_iff.mp hheld
    rw [(release_keeps envelope.workerId request.leaseGeneration held).2]
    exact h held hls'
  | _ => exact h

/-- **Every transaction keeps the invariant.** -/
theorem sound_step (h : Sound s) (hstep : step settings s act = some s') : Sound s' := by
  have hdescent := step_descends h.ids hstep
  have hstaff := step_staffing hstep
  refine ⟨hdescent.ids h.ids, hdescent.unique h.unique, ?_, ?_⟩
  · refine hdescent.forall h.assigned (fun a a' ha hchg => hchg.moved.assigned ha) ?_
    exact fun request identity server => .unbound rfl rfl
  · have henrolled : ∀ a ∈ s'.accounts, ∀ held, a.lease = some held → Enrolled s.workers held.workerId := by
      refine hdescent.forall h.enrolled (fun a a' ha hchg => hchg.moved.enrolled ha) ?_
      intro request identity server held hheld
      cases hheld
    exact fun a ha held hheld => hstaff.enrolled (henrolled a ha held hheld)

/-- **And so it holds in every state.** -/
theorem sound_reachable {ok : World → Action → Prop} (h : Reaches (step settings) ok World.empty s) : Sound s :=
  h.invariant Sound sound_empty fun _ _ _ hsnd _ hstep => sound_step hsnd hstep

/-! ## A small installation -/

/-- A gateway whose keyed hash is the text itself, cut to thirty-two bytes. -/
def demoSettings : Settings where
  bootstrapToken := some "bootstrap"
  adminToken := "admin"
  mac := fun text => (text.toList.map Char.toNat ++ List.replicate 32 0).take 32
  validOrigin := fun _ => true

def demoHello (workerId : WorkerId) (capabilities : List String) : WorkerHelloRequest :=
  ⟨"bootstrap", workerId, 1, 1, "1.0", "1.0", "1.0", 4, "eu", capabilities⟩

/-- The account `1001` of the broker `demo`, at the revision it is expected at. -/
def demoReserve (accountId : AccountId) (expectedRevision : Nat) : ReserveRequest where
  ownerId := "owner"
  accountId := accountId
  label := "Demo"
  server := ""
  maskedLoginSuffix := "1001"
  identityFingerprint := "64656d6f003130303100000000000000" ++ "00000000000000000000000000000000"
  serverFingerprint := "7365727665720064656d6f0000000000" ++ "00000000000000000000000000000000"
  persistence := .managed
  secretRef := "mt5-00000000000000000000000000000001"
  expectedRevision := expectedRevision

def demoRevision (accountId : AccountId) (expectedRevision : Nat) : RevisionRequest := ⟨"owner", accountId, expectedRevision⟩

/-- A worker enrolls, and an account is connected and leased to it. -/
def demoConnected (capabilities : List String) : List Action :=
  [.hello (demoHello "w1" capabilities), .reserve "admin" (demoReserve "a1" 0), .activate "admin" (demoReserve "a1" 1),
    .place "a1" "w1"]

/-! ## Tokens

The generation of a lease is the token that fences off what was meant for an earlier one. -/

/-- A later lease of the account: of a higher generation, or of the same assignment, which is not
active again once it has ended. -/
def Lease.Follows (held held' : Lease) : Prop :=
  held.generation < held'.generation ∨ held'.generation = held.generation ∧ held'.workerId = held.workerId
    ∧ held'.workerSession = held.workerSession ∧ (held'.status = .active → held.status = .active)

theorem Lease.Follows.same (held : Lease) (status : LeaseStatus) (expiresAt : Millis)
    (h : status = .active → held.status = .active) : held.Follows { held with status, expiresAt } :=
  .inr ⟨rfl, rfl, rfl, h⟩

theorem Lease.Follows.trans {first second third : Lease} (h : first.Follows second) (h' : second.Follows third) :
    first.Follows third := by
  rcases h with hlt | ⟨hgen, hwkr, hsess, hst⟩
  · rcases h' with hlt' | ⟨hgen', -⟩
    · exact .inl (hlt.trans hlt')
    · exact .inl (hgen' ▸ hlt)
  · rcases h' with hlt' | ⟨hgen', hwkr', hsess', hst'⟩
    · exact .inl (hgen ▸ hlt')
    · exact .inr ⟨hgen'.trans hgen, hwkr'.trans hwkr, hsess'.trans hsess, hst ∘ hst'⟩

/-- Neither the revision of an account nor its token is an earlier one again. -/
structure MovedOn (row : Connection) (lease : Option Lease) (row' : Connection) (lease' : Option Lease) : Prop where
  revision : row.revision ≤ row'.revision
  token : ∀ held, lease = some held → ∃ held', lease' = some held' ∧ held.Follows held'

theorem MovedOn.refl (row : Connection) (lease : Option Lease) : MovedOn row lease row lease :=
  ⟨Nat.le_refl _, fun held hls => ⟨held, hls, .same held _ _ id⟩⟩

theorem Move.movedOn (h : Move s act gate row lease row' lease') : MovedOn row lease row' lease' := by
  have hleft : ∀ row', row.revision ≤ row'.revision → MovedOn row lease row' lease :=
    fun _ hrev => ⟨hrev, (MovedOn.refl row lease).token⟩
  cases h with
  | keep => exact .refl _ _
  | @renew old _ hls =>
    refine ⟨Nat.le_refl _, fun held hheld => ⟨_, rfl, ?_⟩⟩
    cases hls.symm.trans hheld
    exact .same _ _ _ id
  | fence =>
    refine ⟨?_, fun held hheld => ⟨_, congrArg _ hheld, ?_⟩⟩
    · split
      · exact Nat.le_succ _
      · exact Nat.le_refl _
    · unfold Lease.expireOf
      split
      · exact .same held _ _ fun h => by cases h
      · exact .same held _ _ id
  | lapse hact hls =>
    refine ⟨?_, fun held hheld => ⟨_, rfl, ?_⟩⟩
    · split
      · exact Nat.le_succ _
      · exact Nat.le_refl _
    · cases hls.symm.trans hheld
      exact .same _ _ _ fun h => by cases h
  | place =>
    refine ⟨Nat.le_succ _, fun held hheld => ⟨_, rfl, .inl ?_⟩⟩
    rw [hheld]
    exact Nat.lt_succ_self _
  | stop =>
    refine ⟨?_, fun held hheld => ⟨_, congrArg _ hheld, ?_⟩⟩
    · unfold Connection.stop
      split <;> exact Nat.le_refl _
    · unfold Lease.release
      split
      · exact .same held _ _ fun h => by cases h
      · exact .same held _ _ id
  | disconnect =>
    refine hleft _ ?_
    unfold Connection.fenceDisconnect
    dsimp only
    split
    · exact Nat.le_succ _
    · exact Nat.le_refl _
  | advance => exact hleft _ (Nat.le_add_right _ _)
  | _ => exact hleft _ (Nat.le_succ _)

/-- **Tokens never return**: until an account is deleted, its revision does not go back, no
generation is another worker's or another session's, and no ended lease is active again. -/
theorem tokens_never_return {a : Account} (h : Runs.Reaches (step settings) Runs.always World.empty s) (ha : a ∈ s.accounts)
    (hrun : Runs.Reaches (step settings) (fun _ act => act.deletes a.accountId = false) s s') :
    ∃ a' ∈ s'.accounts, a'.accountId = a.accountId ∧ MovedOn a.connection a.lease a'.connection a'.lease := by
  have hkept : Sound s' ∧ ∃ a' ∈ s'.accounts,
      a'.accountId = a.accountId ∧ MovedOn a.connection a.lease a'.connection a'.lease := by
    refine hrun.invariant (fun s => Sound s ∧ ∃ a' ∈ s.accounts,
      a'.accountId = a.accountId ∧ MovedOn a.connection a.lease a'.connection a'.lease) ?_ ?_
    · exact ⟨sound_reachable h, a, ha, rfl, .refl _ _⟩
    · rintro s act s' ⟨hsnd, b, hb, hname, hmvd⟩ hkept hstep
      obtain ⟨b', hb', hchain⟩ := (step_descends hsnd.ids hstep).survivor hb (hname ▸ hkept)
      refine ⟨sound_step hsnd hstep, b', hb', (chain_accountId hchain).trans hname, ?_⟩
      refine chain_keeps (P := fun c => MovedOn a.connection a.lease c.connection c.lease) hchain ?_ hmvd
      intro c c' hmvd hchg
      obtain ⟨hrev, htoken⟩ := hchg.moved.movedOn
      refine ⟨hmvd.revision.trans hrev, fun held hheld => ?_⟩
      obtain ⟨mid, hmid, hfollows⟩ := hmvd.token held hheld
      obtain ⟨held', hheld', hfollows'⟩ := htoken mid hmid
      exact ⟨held', hheld', hfollows.trans hfollows'⟩
  exact hkept.2

/-- The worker says hello again, and the account is placed on its new session. -/
theorem tokens_never_return_placedAgain : ∃ (s s' : World) (a a' : Account), a ∈ s.accounts ∧ a' ∈ s'.accounts
    ∧ a.lease.map Lease.generation = some 1 ∧ a'.lease.map Lease.generation = some 2
    ∧ MovedOn a.connection a.lease a'.connection a'.lease := by
  have hexec : ∃ s : World, Runs.exec (step demoSettings) (fun _ _ => true) World.empty (demoConnected []) = some s
      ∧ ∃ a ∈ s.accounts, a.lease.map Lease.generation = some 1
      ∧ ∃ s' : World, Runs.exec (step demoSettings) (fun _ act => !act.deletes a.accountId) s
        [.hello (demoHello "w1" []), .place "a1" "w1"] = some s'
      ∧ ∀ a' ∈ s'.accounts, a'.lease.map Lease.generation = some 2 := by
    decide +kernel
  obtain ⟨s, hrun, a, ha, hfs, s', hrest, hsec⟩ := hexec
  obtain ⟨a', ha', -, hmvd⟩ := tokens_never_return (Runs.reaches_exec hrun) ha
    (Runs.reaches_of_exec (fun _ _ hallw => by simpa using hallw) hrest)
  exact ⟨s, s', a, a', ha, ha', hfs, hsec a' ha', hmvd⟩

end MarketLens.Mt5Vm
