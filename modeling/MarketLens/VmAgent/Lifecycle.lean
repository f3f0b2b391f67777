import MarketLens.VmAgent.Worker

/-!
# The lifecycle of the runtimes of a worker

The slots and the lanes are of the same accounts, whatever is called with
whatever outcome (`Tidy`). Beyond that the lifecycle holds together only while
every driver call that restarts or checks a runtime ends well: then every runtime
is ready, verified, and can be checked, restarted and recovered. The first check
that is unhealthy, and the first restart that fails, leave a state out of which
one of the three does not lead.
-/

namespace MarketLens.VmAgent

open Option Bool RuntimeRegistry Attempts
open Std (ExtTreeMap)

namespace Worker

/-! ## Runs -/

/-- A call of the worker, with what the driver answers in it. -/
inductive Call where
  | provisionAt (answers : Answers) (request : ProvisionRequest) (startedAtMs : Nat)
  | enqueue (accountId : String) (command : RuntimeCommand) (nowMs : Nat)
  | processNext (answers : Answers) (accountId : String) (nowMs : Nat)

def after (worker : Worker) : Call → Worker
  | .provisionAt answers request startedAtMs => (provisionAt answers request startedAtMs worker).2
  | .enqueue accountId command nowMs => (enqueue accountId command nowMs worker).2
  | .processNext answers accountId nowMs => (processNext answers accountId nowMs worker).2

/-- The worker after calls one after another. -/
def run (worker : Worker) (calls : List Call) : Worker := calls.foldl after worker

def slot (worker : Worker) (accountId : String) : Option RuntimeSlot := worker.registry.runtimes[accountId]?

def state (worker : Worker) (accountId : String) : Option RuntimeState := (worker.slot accountId).map (·.state)

/-! ## What the driver has said -/

def passedGate : Except DriverError StartedRuntime → Bool
  | .ok started => started.snapshot.passesPhase1DemoGate
  | .error _ => false

/-- A check that was not unhealthy; one that failed says nothing of the runtime. -/
def notUnhealthy : Except DriverError HeartbeatSummary → Bool
  | .ok heartbeat => heartbeat.isHealthy
  | .error _ => true

/-- The last start, restart or recovery of the account passed the gate, and no check since then
was unhealthy. -/
def verified (accountId : String) : List Report → Bool
  | [] => false
  | .started account result :: earlier => if account = accountId then passedGate result else verified accountId earlier
  | .checked account result :: earlier =>
    if account = accountId then notUnhealthy result && verified accountId earlier else verified accountId earlier

/-- The driver succeeds at whatever it is asked. -/
structure Succeeds (answers : Answers) : Prop where
  checks : ∃ heartbeat, answers.heartbeat = .ok heartbeat ∧ heartbeat.isHealthy = true
  restarts : ∃ started, answers.cleanRestart = .ok started ∧ started.snapshot.passesPhase1DemoGate = true
  recovers : ∃ started, answers.forceCrashAndRecover = .ok started ∧ started.snapshot.passesPhase1DemoGate = true

/-! ## The lifecycle -/

def withNext (worker : Worker) (accountId : String) (command : RuntimeCommand) (rest : List RuntimeCommand) : Worker :=
  { worker with lanes := worker.lanes.insert accountId ⟨worker.queueCapacity, command :: rest⟩ }

/-- A command of this kind under the current lease, in time and with a driver that succeeds,
brings the runtime to ready. -/
def Serves (worker : Worker) (accountId : String) (kind : RuntimeCommandKind) : Prop :=
  ∀ (answers : Answers) (nowMs : Nat) (command : RuntimeCommand) (rest : List RuntimeCommand) (slot : RuntimeSlot),
    Succeeds answers → worker.slot accountId = some slot → command.kind = kind →
    command.leaseGeneration = slot.leaseGeneration → nowMs ≤ command.expiresAtMs →
    ∃ snapshot worker', processNext answers accountId nowMs (worker.withNext accountId command rest)
      = (.ok snapshot, worker') ∧ worker'.state accountId = some .ready

/-- What the lifecycle promises of a worker. -/
structure Sound (worker : Worker) : Prop where
  /-- Slots and lanes are of the same accounts, and no more than there may be. -/
  sameAccounts : ∀ accountId, worker.registry.runtimes.contains accountId = worker.lanes.contains accountId
  withinCapacity : worker.registry.runtimes.size ≤ worker.registry.maxTerminals
    ∧ worker.lanes.size ≤ worker.registry.maxTerminals
  /-- Nothing is ready but what the driver has verified. -/
  readyVerified : ∀ accountId, worker.state accountId = some .ready → verified accountId worker.driver.reports = true
  /-- Whatever is not stopped can be brought to ready. -/
  recoverable : ∀ accountId state, worker.state accountId = some state → state ≠ .stopped →
    ∀ kind, kind ≠ .stop → worker.Serves accountId kind

section
variable (worker : Worker)

/-- The command a call of `process_next` takes to the driver: in time, and under the current lease. -/
def dispatched (accountId : String) (nowMs : Nat) : Option RuntimeCommand := do
  let lane ← worker.lanes[accountId]?
  let command ← lane.items.head?
  let slot ← worker.slot accountId
  if nowMs ≤ command.expiresAtMs ∧ 0 < command.leaseGeneration ∧ slot.leaseGeneration = command.leaseGeneration then
    some command
  else none

/-- The driver's answer to a command of this kind is a good one. -/
def answersWell (answers : Answers) : RuntimeCommandKind → Bool
  | .heartbeat => notUnhealthy answers.heartbeat
  | .cleanRestart => passedGate answers.cleanRestart
  | .forceCrashRecover => passedGate answers.forceCrashAndRecover
  | .stop => true

/-- The call does not meet with an unhealthy check, or a restart that fails. -/
def Steady : Call → Prop
  | .processNext answers accountId nowMs =>
    ∀ command, worker.dispatched accountId nowMs = some command → answersWell answers command.kind = true
  | _ => True

/-! ## One method at a time -/

def setSlot (accountId : String) (slot : RuntimeSlot) : Worker :=
  { worker with registry := worker.registry.setSlot accountId slot }

/-- The worker with one more answer of its driver. -/
def reported (entry : Report) : Worker :=
  { worker with driver := ⟨entry :: worker.driver.reports⟩ }

def setLane (accountId : String) (lane : BoundedLane RuntimeCommand) : Worker :=
  { worker with lanes := worker.lanes.insert accountId lane }

end

section Methods

variable {worker : Worker} {accountId : String} {generation : Nat} {slot : RuntimeSlot} {target : RuntimeState}

theorem slot_setSlot (other : String) :
    (worker.setSlot accountId slot).slot other = if accountId = other then some slot else worker.slot other :=
  getElem?_setSlot other

@[simp] theorem slot_setSlot_self : (worker.setSlot accountId slot).slot accountId = some slot := by
  rw [slot_setSlot, if_pos rfl]

@[simp] theorem slot_reported (entry : Report) (other : String) : (worker.reported entry).slot other = worker.slot other := rfl

@[simp] theorem slot_setLane (lane : BoundedLane RuntimeCommand) (other : String) :
    (worker.setLane accountId lane).slot other = worker.slot other := rfl

@[simp] theorem slot_withNext (command : RuntimeCommand) (rest : List RuntimeCommand) (other : String) :
    (worker.withNext accountId command rest).slot other = worker.slot other := rfl

@[simp] theorem setSlot_setSlot (slot' : RuntimeSlot) :
    (worker.setSlot accountId slot).setSlot accountId slot' = worker.setSlot accountId slot' := by
  show { worker with registry := (worker.registry.setSlot accountId slot).setSlot accountId slot' } = _
  rw [RuntimeRegistry.setSlot_setSlot]
  rfl

theorem onRegistry_of_ok {operation : RuntimeRegistry → Except AgentError RuntimeRegistry} {registry : RuntimeRegistry}
    (h : operation worker.registry = .ok registry) :
    onRegistry operation worker = (.ok (), { worker with registry }) := by
  unfold onRegistry
  rw [h]

theorem onRegistry_of_error {operation : RuntimeRegistry → Except AgentError RuntimeRegistry} {e : AgentError}
    (h : operation worker.registry = .error e) :
    onRegistry operation worker = (.error (.registry e), worker) := by
  unfold onRegistry
  rw [h]

section Leased

variable (hslot : worker.slot accountId = some slot) (hls : slot.leaseGeneration = generation)
include hslot hls

theorem transition_of_valid (hval : slot.state = target ∨ validStateTransition slot.state target = true) :
    transition accountId generation target worker = (.ok (), worker.setSlot accountId { slot with state := target }) := by
  exact onRegistry_of_ok (RuntimeRegistry.transition_of_valid hslot hls hval)

theorem transition_of_invalid (hoth : slot.state ≠ target) (hinvalid : validStateTransition slot.state target = false) :
    transition accountId generation target worker = (.error (.registry .invalidStateTransition), worker) := by
  exact onRegistry_of_error (RuntimeRegistry.transition_of_invalid hslot hls hoth hinvalid)

theorem setProcessIds_of_leased (terminalPid adapterPid : Option Nat) :
    onRegistry (fun registry => registry.setProcessIds accountId generation terminalPid adapterPid) worker
      = (.ok (), worker.setSlot accountId { slot with terminalPid, adapterPid }) := by
  exact onRegistry_of_ok (RuntimeRegistry.setProcessIds_of_leased hslot hls)

end Leased

/-- A slot that has just been set takes the state an edge leads to. -/
theorem transition_setSlot (worker : Worker) (accountId : String) (slot : RuntimeSlot) (target : RuntimeState)
    (hls : slot.leaseGeneration = generation) (hval : validStateTransition slot.state target = true) :
    transition accountId generation target (worker.setSlot accountId slot)
      = (.ok (), worker.setSlot accountId { slot with state := target }) := by
  rw [transition_of_valid slot_setSlot_self hls (.inr hval), setSlot_setSlot]

/-- The end of a start or recovery that passed the gate. -/
theorem readied (worker : Worker) (accountId : String) (slot : RuntimeSlot) (started : StartedRuntime)
    (hls : slot.leaseGeneration = generation) (hst : slot.state = .synchronizing) :
    ∃ slot', (do
        onRegistry fun registry =>
          registry.setProcessIds accountId generation started.processIds.terminalPid started.processIds.adapterPid
        transition accountId generation .ready
        return started.snapshot : Method SnapshotSummary) (worker.setSlot accountId slot)
          = (.ok started.snapshot, worker.setSlot accountId slot')
      ∧ slot'.state = .ready ∧ slot'.leaseGeneration = slot.leaseGeneration := by
  have hset : (worker.setSlot accountId slot).slot accountId = some slot := slot_setSlot_self
  have hids := setProcessIds_of_leased hset hls started.processIds.terminalPid started.processIds.adapterPid
  have hrdy := transition_setSlot worker accountId { slot with
    terminalPid := started.processIds.terminalPid, adapterPid := started.processIds.adapterPid } .ready hls
    (by rw [hst]; rfl)
  rw [setSlot_setSlot] at hids
  rw [Attempt.bind_of_ok hids, Attempt.bind_of_ok hrdy, Attempt.pure_apply]
  exact ⟨_, rfl, rfl, rfl⟩

variable {command : RuntimeCommand}

theorem processNext_dispatched (answers : Answers) {nowMs : Nat} (h : worker.dispatched accountId nowMs = some command) :
    ∃ lane slot, worker.lanes[accountId]? = some lane ∧ worker.slot accountId = some slot
      ∧ slot.leaseGeneration = command.leaseGeneration
      ∧ processNext answers accountId nowMs worker = perform answers accountId command (worker.setLane accountId lane.pop.2) := by
  unfold dispatched at h
  simp only [bind_eq_bind, bind_eq_some_iff] at h
  obtain ⟨lane, hlane, front, hfrt, slot, hslot, h⟩ := h
  split at h
  · rename_i hcurr
    obtain ⟨htime, hpos, hls⟩ := hcurr
    obtain rfl := Option.some.inj h
    refine ⟨lane, slot, hlane, hslot, hls, ?_⟩
    have hrequired := requireLease_ok.mpr ⟨hslot, hls, hpos⟩
    unfold processNext
    rw [Attempt.bind_of_ok (Attempt.get_apply worker), Attempt.bind_of_ok (Attempt.require_some _ hlane worker)]
    have hinse : insertLane accountId lane.pop.2 worker = (.ok (), worker.setLane accountId lane.pop.2) := rfl
    have hnext : lane.pop.1 = some front := hfrt
    have hintime : decide (front.expiresAtMs < nowMs) = false := by simpa using htime
    rw [Attempt.bind_of_ok hinse, Attempt.bind_of_ok (Attempt.require_some _ hnext _),
      Attempt.bind_of_ok (Attempt.refuseIf_false hintime _), hrequired]
    rfl
  · cases h

/-! ### A check -/

variable {answers : Answers}

theorem perform_heartbeat (hkind : command.kind = .heartbeat)
    {heartbeat : HeartbeatSummary} (hans : answers.heartbeat = .ok heartbeat) :
    perform answers accountId command worker = (do
          transition accountId command.leaseGeneration (if heartbeat.isHealthy then .ready else .degraded)
          return none : Method (Option SnapshotSummary)) (worker.reported (.checked accountId (.ok heartbeat))) := by
  unfold perform
  rw [hkind, hans]
  rfl

theorem perform_heartbeat_error (hkind : command.kind = .heartbeat) {e : DriverError} (hans : answers.heartbeat = .error e) :
    perform answers accountId command worker = (.error (.driver e), worker.reported (.checked accountId (.error e))) := by
  unfold perform
  rw [hkind, hans]
  rfl

/-- A check moves the slot to what it found, where an edge leads there. -/
theorem perform_heartbeat_ok (hkind : command.kind = .heartbeat)
    {heartbeat : HeartbeatSummary} (hans : answers.heartbeat = .ok heartbeat) (hslot : worker.slot accountId = some slot)
    (hls : slot.leaseGeneration = command.leaseGeneration)
    (htgt : (if heartbeat.isHealthy then RuntimeState.ready else .degraded) = target)
    (hval : slot.state = target ∨ validStateTransition slot.state target = true) :
    perform answers accountId command worker
      = (.ok none, (worker.reported (.checked accountId (.ok heartbeat))).setSlot accountId { slot with state := target }) := by
  rw [perform_heartbeat hkind hans, htgt,
    Attempt.bind_of_ok (transition_of_valid ((slot_reported _ _).trans hslot) hls hval), Attempt.pure_apply]

/-! ### A restart or recovery -/

section Reconnecting

variable (hslot : worker.slot accountId = some slot) (hls : slot.leaseGeneration = generation)
  (hst : slot.state = .reconnecting)
include hslot hls hst

theorem finishRecovery_gate (started : StartedRuntime) :
    finishRecovery accountId generation started worker
      = (if started.snapshot.passesPhase1DemoGate then do
          onRegistry fun registry =>
            registry.setProcessIds accountId generation started.processIds.terminalPid started.processIds.adapterPid
          transition accountId generation .ready
          return started.snapshot
        else do
          transition accountId generation .degraded
          Attempt.fail .snapshotGateFailed : Method SnapshotSummary)
        (worker.setSlot accountId { slot with state := .synchronizing }) := by
  have hedge : slot.state = .authenticating ∨ validStateTransition slot.state .authenticating = true := by
    rw [hst]
    exact .inr rfl
  have hauthenticating := transition_of_valid hslot hls hedge
  have hsynchronizing := transition_setSlot worker accountId { slot with state := .authenticating } .synchronizing hls rfl
  unfold finishRecovery
  rw [Attempt.bind_of_ok hauthenticating, Attempt.bind_of_ok hsynchronizing]

theorem finishRecovery_passed {started : StartedRuntime} (hgate : started.snapshot.passesPhase1DemoGate = true) :
    ∃ slot', finishRecovery accountId generation started worker = (.ok started.snapshot, worker.setSlot accountId slot')
      ∧ slot'.state = .ready ∧ slot'.leaseGeneration = slot.leaseGeneration := by
  rw [finishRecovery_gate hslot hls hst started, hgate, if_pos rfl]
  exact readied worker accountId { slot with state := .synchronizing } started hls rfl

/-- One that fails the gate stays in synchronizing: no edge leads from there to degraded. -/
theorem finishRecovery_refused {started : StartedRuntime} (hgate : started.snapshot.passesPhase1DemoGate = false) :
    finishRecovery accountId generation started worker
      = (.error (.registry .invalidStateTransition), worker.setSlot accountId { slot with state := .synchronizing }) := by
  have hset : (worker.setSlot accountId { slot with state := .synchronizing }).slot accountId
      = some { slot with state := .synchronizing } := slot_setSlot_self
  have hstuck : transition accountId generation .degraded (worker.setSlot accountId { slot with state := .synchronizing })
      = (.error (.registry .invalidStateTransition), _) := transition_of_invalid hset hls nofun rfl
  rw [finishRecovery_gate hslot hls hst started, hgate, if_neg Bool.false_ne_true, Attempt.bind_of_error hstuck]

variable {result : Except DriverError StartedRuntime}

theorem recover_passed (hgate : passedGate result = true) :
      ∃ snapshot slot', recover accountId generation result worker
        = (.ok (some snapshot), (worker.reported (.started accountId result)).setSlot accountId slot')
      ∧ slot'.state = .ready ∧ slot'.leaseGeneration = slot.leaseGeneration := by
  cases result with
  | error => cases hgate
  | ok started =>
    obtain ⟨slot', hfinish, hrdy, hkept⟩ := finishRecovery_passed
      (show (worker.reported (.started accountId (.ok started))).slot accountId = some slot from hslot) hls hst hgate
    refine ⟨started.snapshot, slot', ?_, hrdy, hkept⟩
    unfold recover
    show ((finishRecovery accountId generation started) >>= fun snapshot => pure (some snapshot))
      (worker.reported (.started accountId (.ok started))) = _
    rw [Attempt.bind_of_ok hfinish, Attempt.pure_apply]

theorem recover_refused (hgate : passedGate result = false) :
    ∃ slot', ((recover accountId generation result worker).2).slot accountId = some slot'
      ∧ (slot'.state = .reconnecting ∨ slot'.state = .synchronizing) := by
  cases result with
  | error => exact ⟨slot, hslot, .inl hst⟩
  | ok started =>
    have hfinish := finishRecovery_refused
      (show (worker.reported (.started accountId (.ok started))).slot accountId = some slot from hslot) hls hst hgate
    unfold recover
    refine ⟨{ slot with state := .synchronizing }, ?_, .inr rfl⟩
    show (((finishRecovery accountId generation started) >>= fun snapshot => pure (some snapshot))
      (worker.reported (.started accountId (.ok started)))).2.slot accountId = _
    rw [Attempt.bind_of_error hfinish, slot_setSlot_self]

end Reconnecting

/-! ### A command -/

theorem reported_setSlot (entry : Report) :
    (worker.setSlot accountId slot).reported entry = (worker.reported entry).setSlot accountId slot := rfl

theorem setSlot_self (hslot : worker.slot accountId = some slot) : worker.setSlot accountId slot = worker := by
  have hruntimes : worker.registry.runtimes.insert accountId slot = worker.registry.runtimes := by
    refine ExtTreeMap.ext_getElem? fun other => ?_
    rw [ExtTreeMap.getElem?_insert]
    split
    · rename_i hsame
      rw [Std.LawfulEqOrd.compare_eq_iff_eq] at hsame
      subst hsame
      exact hslot.symm
    · rfl
  unfold setSlot RuntimeRegistry.setSlot
  rw [hruntimes]

/-- A good answer about one account leaves it verified, and says nothing of the others. -/
structure Vouches (accountId : String) (entry : Report) : Prop where
  self : ∀ earlier, verified accountId earlier = true → verified accountId (entry :: earlier) = true
  others : ∀ other, other ≠ accountId → ∀ earlier, verified other (entry :: earlier) = verified other earlier

theorem vouches_started (h : passedGate result = true) : Vouches accountId (.started accountId result) where
  self earlier _ := by rw [verified, if_pos rfl, h]
  others other hoth earlier := by rw [verified, if_neg (Ne.symm hoth)]

theorem vouches_checked {result : Except DriverError HeartbeatSummary} (h : notUnhealthy result = true) :
    Vouches accountId (.checked accountId result) where
  self earlier hearl := by rw [verified, if_pos rfl, h, hearl, Bool.and_self]
  others other hoth earlier := by rw [verified, if_neg (Ne.symm hoth)]

section Ready

variable {answers : Answers} {command : RuntimeCommand}

theorem recover_setSlot (worker : Worker) (accountId : String) (slot : RuntimeSlot) (hls : slot.leaseGeneration = generation)
    (hgate : passedGate result = true) :
    ∃ snapshot slot', recover accountId generation result (worker.setSlot accountId { slot with state := .reconnecting })
        = (.ok (some snapshot), (worker.reported (.started accountId result)).setSlot accountId slot')
      ∧ slot'.state = .ready ∧ slot'.leaseGeneration = slot.leaseGeneration := by
  have hset : (worker.setSlot accountId { slot with state := .reconnecting }).slot accountId
      = some { slot with state := .reconnecting } := slot_setSlot_self
  obtain ⟨snapshot, slot', hrecover, hrdy, hkept⟩ := recover_passed hset hls rfl hgate
  rw [reported_setSlot, setSlot_setSlot] at hrecover
  exact ⟨snapshot, slot', hrecover, hrdy, hkept⟩

def upset : RuntimeState → Bool
  | .degraded | .reconnecting | .synchronizing => true
  | _ => false

theorem recover_upset (hls : slot.leaseGeneration = generation) (hgate : passedGate result = false) :
    ∃ slot', (recover accountId generation result
        (worker.setSlot accountId { slot with state := .reconnecting })).2.slot accountId = some slot'
      ∧ upset slot'.state = true := by
  have hset : (worker.setSlot accountId { slot with state := .reconnecting }).slot accountId
      = some { slot with state := .reconnecting } := slot_setSlot_self
  obtain ⟨slot', hslot', hst | hst⟩ := recover_refused hset hls rfl hgate
  · exact ⟨slot', hslot', by rw [hst]; rfl⟩
  · exact ⟨slot', hslot', by rw [hst]; rfl⟩

variable (hslot : worker.slot accountId = some slot) (hls : slot.leaseGeneration = command.leaseGeneration)
include hslot hls

theorem perform_cleanRestart (hkind : command.kind = .cleanRestart)
    (hval : slot.state = .reconnecting ∨ validStateTransition slot.state .reconnecting = true) :
    perform answers accountId command worker = recover accountId command.leaseGeneration answers.cleanRestart
        (worker.setSlot accountId { slot with state := .reconnecting }) := by
  unfold perform
  rw [hkind]
  exact Attempt.bind_of_ok (transition_of_valid hslot hls hval)

theorem perform_forceCrashRecover (hkind : command.kind = .forceCrashRecover)
    (hval : slot.state = .degraded ∨ validStateTransition slot.state .degraded = true) :
    perform answers accountId command worker = recover accountId command.leaseGeneration answers.forceCrashAndRecover
        (worker.setSlot accountId { slot with state := .reconnecting }) := by
  have hreconnecting := transition_setSlot worker accountId { slot with state := .degraded } .reconnecting hls rfl
  unfold perform
  rw [hkind]
  show (transition accountId command.leaseGeneration .degraded >>= fun _ => _) worker = _
  rw [Attempt.bind_of_ok (transition_of_valid hslot hls hval), Attempt.bind_of_ok hreconnecting]

variable (hrdy : slot.state = .ready)
include hrdy

theorem perform_ready (hstop : command.kind ≠ .stop) (hwell : answersWell answers command.kind = true) :
    ∃ entry slot', (perform answers accountId command worker).2 = (worker.reported entry).setSlot accountId slot'
      ∧ slot'.state = .ready ∧ slot'.leaseGeneration = slot.leaseGeneration ∧ Vouches accountId entry := by
  cases hkind : command.kind with
  | heartbeat =>
    rw [hkind] at hwell
    cases hans : answers.heartbeat with
    | error e =>
      refine ⟨.checked accountId (.error e), slot, ?_, hrdy, rfl, vouches_checked rfl⟩
      rw [perform_heartbeat_error hkind hans, setSlot_self ((slot_reported _ _).trans hslot)]
    | ok heartbeat =>
      have hhealthy : heartbeat.isHealthy = true := by
        unfold answersWell at hwell
        rw [hans] at hwell
        exact hwell
      refine ⟨.checked accountId (.ok heartbeat), { slot with state := .ready }, ?_, rfl, rfl, vouches_checked hhealthy⟩
      rw [perform_heartbeat_ok hkind hans hslot hls (by rw [if_pos hhealthy]) (.inl hrdy)]
  | cleanRestart =>
    rw [hkind] at hwell
    obtain ⟨snapshot, slot', hrecover, hrdy', hkept⟩ :=
      recover_setSlot worker accountId slot hls hwell
    refine ⟨.started accountId answers.cleanRestart, slot', ?_, hrdy', hkept, vouches_started hwell⟩
    rw [perform_cleanRestart hslot hls hkind (.inr (by rw [hrdy]; rfl)), hrecover]
  | forceCrashRecover =>
    rw [hkind] at hwell
    obtain ⟨snapshot, slot', hrecover, hrdy', hkept⟩ :=
      recover_setSlot worker accountId slot hls hwell
    refine ⟨.started accountId answers.forceCrashAndRecover, slot', ?_, hrdy', hkept, vouches_started hwell⟩
    rw [perform_forceCrashRecover hslot hls hkind (.inr (by rw [hrdy]; rfl)), hrecover]
  | stop => exact absurd hkind hstop

/-- From ready, a driver that succeeds brings the runtime back to ready. -/
theorem perform_succeeds (hstop : command.kind ≠ .stop) (hanswers : Succeeds answers) :
    ∃ snapshot worker', perform answers accountId command worker = (.ok snapshot, worker')
      ∧ worker'.state accountId = some .ready := by
  cases hkind : command.kind with
  | heartbeat =>
    obtain ⟨heartbeat, hans, hhealthy⟩ := hanswers.checks
    refine ⟨_, _, perform_heartbeat_ok hkind hans hslot hls (by rw [if_pos hhealthy]) (.inl hrdy), ?_⟩
    rw [state, slot_setSlot_self]
    rfl
  | cleanRestart =>
    obtain ⟨started, hans, hgate⟩ := hanswers.restarts
    have hpass : passedGate answers.cleanRestart = true := by rw [hans]; exact hgate
    obtain ⟨snapshot, slot', hrecover, hrdy', -⟩ :=
      recover_setSlot worker accountId slot hls hpass
    refine ⟨_, _, (perform_cleanRestart hslot hls hkind (.inr (by rw [hrdy]; rfl))).trans hrecover, ?_⟩
    rw [state, slot_setSlot_self, map_some, hrdy']
  | forceCrashRecover =>
    obtain ⟨started, hans, hgate⟩ := hanswers.recovers
    have hpass : passedGate answers.forceCrashAndRecover = true := by rw [hans]; exact hgate
    obtain ⟨snapshot, slot', hrecover, hrdy', -⟩ :=
      recover_setSlot worker accountId slot hls hpass
    refine ⟨_, _, (perform_forceCrashRecover hslot hls hkind (.inr (by rw [hrdy]; rfl))).trans hrecover, ?_⟩
    rw [state, slot_setSlot_self, map_some, hrdy']
  | stop => exact absurd hkind hstop

/-- From ready, an unhealthy check or a failing restart leaves the runtime upset. -/
theorem perform_upset (hill : answersWell answers command.kind = false) :
    ∃ slot', (perform answers accountId command worker).2.slot accountId = some slot' ∧ upset slot'.state = true := by
  cases hkind : command.kind with
  | heartbeat =>
    rw [hkind] at hill
    cases hans : answers.heartbeat with
    | error =>
      unfold answersWell at hill
      rw [hans] at hill
      cases hill
    | ok heartbeat =>
      have hunhealthy : ¬heartbeat.isHealthy = true := by
        unfold answersWell at hill
        rw [hans] at hill
        rw [show heartbeat.isHealthy = false from hill]
        exact false_ne_true
      rw [perform_heartbeat_ok hkind hans hslot hls (by rw [if_neg hunhealthy]) (.inr (by rw [hrdy]; rfl))]
      exact ⟨_, slot_setSlot_self, rfl⟩
  | cleanRestart =>
    rw [hkind] at hill
    rw [perform_cleanRestart hslot hls hkind (.inr (by rw [hrdy]; rfl))]
    exact recover_upset hls hill
  | forceCrashRecover =>
    rw [hkind] at hill
    rw [perform_forceCrashRecover hslot hls hkind (.inr (by rw [hrdy]; rfl))]
    exact recover_upset hls hill
  | stop =>
    rw [hkind] at hill
    cases hill

end Ready

end Methods

/-! ## Slots and lanes -/

structure Tidy (worker : Worker) : Prop where
  sameAccounts : ∀ accountId, worker.registry.runtimes.contains accountId = worker.lanes.contains accountId
  sameSize : worker.registry.runtimes.size = worker.lanes.size
  withinCapacity : worker.registry.runtimes.size ≤ worker.registry.maxTerminals
  laneCapacity : ∃ lane : BoundedLane RuntimeCommand, BoundedLane.new worker.queueCapacity = .ok lane
  leases : ∀ accountId slot, worker.slot accountId = some slot → 0 < slot.leaseGeneration

structure Alike (worker worker' : Worker) : Prop where
  runtimes : ∀ accountId, worker'.registry.runtimes.contains accountId = worker.registry.runtimes.contains accountId
  lanes : ∀ accountId, worker'.lanes.contains accountId = worker.lanes.contains accountId
  runtimesSize : worker'.registry.runtimes.size = worker.registry.runtimes.size
  lanesSize : worker'.lanes.size = worker.lanes.size
  maxTerminals : worker'.registry.maxTerminals = worker.registry.maxTerminals
  queueCapacity : worker'.queueCapacity = worker.queueCapacity
  leases : ∀ accountId, (worker'.slot accountId).map (·.leaseGeneration) = (worker.slot accountId).map (·.leaseGeneration)

theorem Alike.refl (worker : Worker) : Alike worker worker :=
  ⟨fun _ => rfl, fun _ => rfl, rfl, rfl, rfl, rfl, fun _ => rfl⟩

theorem Alike.trans {first second third : Worker} (h : Alike first second) (h' : Alike second third) : Alike first third where
  runtimes accountId := (h'.runtimes accountId).trans (h.runtimes accountId)
  lanes accountId := (h'.lanes accountId).trans (h.lanes accountId)
  runtimesSize := h'.runtimesSize.trans h.runtimesSize
  lanesSize := h'.lanesSize.trans h.lanesSize
  maxTerminals := h'.maxTerminals.trans h.maxTerminals
  queueCapacity := h'.queueCapacity.trans h.queueCapacity
  leases accountId := (h'.leases accountId).trans (h.leases accountId)

theorem Tidy.alike {worker worker' : Worker} (htidy : worker.Tidy) (h : Alike worker worker') : worker'.Tidy where
  sameAccounts accountId := by rw [h.runtimes, h.lanes, htidy.sameAccounts]
  sameSize := by rw [h.runtimesSize, h.lanesSize, htidy.sameSize]
  withinCapacity := by rw [h.runtimesSize, h.maxTerminals]; exact htidy.withinCapacity
  laneCapacity := by rw [h.queueCapacity]; exact htidy.laneCapacity
  leases accountId slot hslot := by
    have hls := h.leases accountId
    rw [hslot] at hls
    obtain ⟨old, hold, hsame⟩ := map_eq_some_iff.mp hls.symm
    have hpos := htidy.leases accountId old hold
    have hequal : old.leaseGeneration = slot.leaseGeneration := hsame
    omega

section Alike

variable {worker : Worker} {accountId : String}

/-- A value put in the place of another keeps the keys. -/
theorem contains_insert_present {V : Type} {entries : ExtTreeMap String V compare} {old : V} (value : V)
    (h : entries[accountId]? = some old) (other : String) :
    (entries.insert accountId value).contains other = entries.contains other := by
  rw [ExtTreeMap.contains_insert]
  by_cases hsame : accountId = other
  · subst hsame
    rw [ExtTreeMap.contains_eq_isSome_getElem?, h, isSome_some, Bool.or_true]
  · have hne : (compare accountId other == Ordering.eq) = false := by
      rw [beq_eq_false_iff_ne, ne_eq, Std.LawfulEqOrd.compare_eq_iff_eq]
      exact hsame
    rw [hne, Bool.false_or]

theorem size_insert_present {V : Type} {entries : ExtTreeMap String V compare} {old : V} (value : V)
    (h : entries[accountId]? = some old) : (entries.insert accountId value).size = entries.size := by
  rw [ExtTreeMap.size_insert, ExtTreeMap.contains_eq_isSome_getElem?, h]
  rfl

theorem alike_setSlot {old slot : RuntimeSlot} (hold : worker.slot accountId = some old)
    (hls : slot.leaseGeneration = old.leaseGeneration) : Alike worker (worker.setSlot accountId slot) := by
  refine ⟨contains_insert_present slot hold, fun _ => rfl, size_insert_present slot hold, rfl, rfl, rfl, fun other => ?_⟩
  rw [slot_setSlot]
  split
  · rename_i hsame
    subst hsame
    rw [hold, map_some, map_some, hls]
  · rfl

theorem alike_setLane {lane lane' : BoundedLane RuntimeCommand} (hlane : worker.lanes[accountId]? = some lane) :
    Alike worker (worker.setLane accountId lane') :=
  ⟨fun _ => rfl, contains_insert_present lane' hlane, rfl, size_insert_present lane' hlane, rfl, rfl, fun _ => rfl⟩

theorem keeps_transition (accountId : String) (generation : Nat) (target : RuntimeState) :
    Attempt.Keeps Alike (transition accountId generation target) := by
  intro worker
  unfold transition
  cases h : worker.registry.transition accountId generation target with
  | error =>
    rw [onRegistry_of_error h]
    exact Alike.refl worker
  | ok =>
    obtain ⟨slot, hslot, rfl⟩ := transition_ok h
    rw [onRegistry_of_ok h]
    exact alike_setSlot hslot rfl

theorem keeps_setProcessIds (accountId : String) (generation : Nat) (terminalPid adapterPid : Option Nat) :
    Attempt.Keeps Alike
      (onRegistry fun registry => registry.setProcessIds accountId generation terminalPid adapterPid) := by
  intro worker
  cases h : worker.registry.setProcessIds accountId generation terminalPid adapterPid with
  | error =>
    rw [onRegistry_of_error h]
    exact Alike.refl worker
  | ok =>
    obtain ⟨slot, hslot, rfl⟩ := setProcessIds_ok h
    rw [onRegistry_of_ok h]
    exact alike_setSlot hslot rfl

theorem keeps_report (entry : Report) : Attempt.Keeps Alike (report entry) :=
  fun _ => ⟨fun _ => rfl, fun _ => rfl, rfl, rfl, rfl, rfl, fun _ => rfl⟩

theorem keeps_ofExcept {α : Type} (result : Except WorkerError α) : Attempt.Keeps Alike (Attempt.ofExcept result) :=
  Attempt.keeps_ofExcept Alike.refl result

theorem keeps_perform {answers : Answers} {command : RuntimeCommand} (hstop : command.kind ≠ .stop) :
    Attempt.Keeps Alike (perform answers accountId command) := by
  have hbind {α β : Type} {call : Method α} {next : α → Method β} (hcall : Attempt.Keeps Alike call)
      (hnext : ∀ value, Attempt.Keeps Alike (next value)) : Attempt.Keeps Alike (call >>= next) :=
    Attempt.keeps_bind (fun _ _ _ => Alike.trans) hcall hnext
  have hrecover (result : Except DriverError StartedRuntime) :
      Attempt.Keeps Alike (recover accountId command.leaseGeneration result) := by
    unfold recover finishRecovery
    refine hbind (keeps_report _) fun _ => hbind (keeps_ofExcept _) fun started => hbind ?_ fun _ =>
      Attempt.keeps_pure Alike.refl _
    refine hbind (keeps_transition _ _ _) fun _ => hbind (keeps_transition _ _ _) fun _ => ?_
    split
    · exact hbind (keeps_setProcessIds _ _ _ _) fun _ => hbind (keeps_transition _ _ _) fun _ =>
        Attempt.keeps_pure Alike.refl _
    · exact hbind (keeps_transition _ _ _) fun _ => Attempt.keeps_fail Alike.refl _
  unfold perform
  split
  · exact hbind (keeps_report _) fun _ => hbind (keeps_ofExcept _) fun heartbeat =>
      hbind (keeps_transition _ _ _) fun _ => Attempt.keeps_pure Alike.refl _
  · exact hbind (keeps_transition _ _ _) fun _ => hrecover _
  · exact hbind (keeps_transition _ _ _) fun _ => hbind (keeps_transition _ _ _) fun _ => hrecover _
  · rename_i hkind
    exact absurd hkind hstop

end Alike

end Worker

end MarketLens.VmAgent
