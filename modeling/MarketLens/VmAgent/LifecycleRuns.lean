import MarketLens.VmAgent.Lifecycle

/-!
# Runs of a worker

What each call makes of the slots and lanes, and from it what any run makes of
them. The invariant of a run without upsets is `Steadfast`: every runtime is
ready and verified.
-/

namespace MarketLens.VmAgent

open Attempts List Option Prod Nat Attempt RuntimeRegistry Fallible
open Std (ExtTreeMap)

namespace Worker

variable {worker : Worker} {accountId : String} {slot : RuntimeSlot} {answers : Answers}

/-! ## Stopping -/

def without (worker : Worker) (accountId : String) : Worker :=
  { worker with
    registry := { worker.registry with runtimes := worker.registry.runtimes.erase accountId }
    lanes := worker.lanes.erase accountId }

theorem slot_without (worker : Worker) (accountId other : String) :
    (worker.without accountId).slot other = if accountId = other then none else worker.slot other := by
  show (worker.registry.runtimes.erase accountId)[other]? = _
  rw [ExtTreeMap.getElem?_erase]
  simp only [Std.LawfulEqOrd.compare_eq_iff_eq]
  rfl

theorem erase_insert {V : Type} (entries : ExtTreeMap String V compare) (value : V) :
    (entries.insert accountId value).erase accountId = entries.erase accountId := by
  refine ExtTreeMap.ext_getElem? fun other => ?_
  rw [ExtTreeMap.getElem?_erase, ExtTreeMap.getElem?_erase, ExtTreeMap.getElem?_insert]
  split <;> rfl

theorem without_setSlot : (worker.setSlot accountId slot).without accountId = worker.without accountId := by
  unfold without setSlot RuntimeRegistry.setSlot
  rw [erase_insert]

variable {generation : Nat}

theorem abandon_of_leased (hslot : worker.slot accountId = some slot) (hls : slot.leaseGeneration = generation) :
    abandon accountId generation worker = (.ok (), worker.without accountId) := by
  have hremove : removeRuntime accountId generation worker
      = (.ok (), { worker with registry := { worker.registry with runtimes := worker.registry.runtimes.erase accountId } }) :=
    onRegistry_of_ok (remove_of_leased hslot hls)
  unfold abandon ignore
  show (removeLane accountId) (removeRuntime accountId generation worker).2 = _
  rw [hremove]
  rfl

variable {command : RuntimeCommand}

/-- A stop the driver carries out gives the account up. -/
theorem perform_stop (answers : Answers) (hkind : command.kind = .stop) (hslot : worker.slot accountId = some slot)
    (hls : slot.leaseGeneration = command.leaseGeneration) :
    (perform answers accountId command worker).2 = worker
      ∨ (perform answers accountId command worker).2 = worker.without accountId := by
  unfold perform
  rw [hkind]
  cases hans : answers.stop with
  | error => exact .inl rfl
  | ok =>
    right
    have hedge : slot.state = .stopped ∨ validStateTransition slot.state .stopped = true := by
      cases slot.state <;> first | exact .inl rfl | exact .inr rfl
    have hset : (worker.setSlot accountId { slot with state := .stopped }).slot accountId
        = some { slot with state := .stopped } := slot_setSlot_self
    have hremove : removeRuntime accountId command.leaseGeneration (worker.setSlot accountId { slot with state := .stopped })
        = (.ok (), _) := onRegistry_of_ok (remove_of_leased hset hls)
    show ((transition accountId command.leaseGeneration .stopped >>= fun _ => _) worker).2 = _
    rw [bind_of_ok (transition_of_valid hslot hls hedge), bind_of_ok hremove, ← without_setSlot]
    rfl

theorem Tidy.without (htidy : worker.Tidy) (hslot : worker.slot accountId = some slot) : (worker.without accountId).Tidy := by
  have hruntime : worker.registry.runtimes.contains accountId = true := by
    rw [ExtTreeMap.contains_eq_isSome_getElem?, show worker.registry.runtimes[accountId]? = some slot from hslot]
    rfl
  have hlane : worker.lanes.contains accountId = true := by rw [← htidy.sameAccounts, hruntime]
  have hsizes : (worker.registry.runtimes.erase accountId).size = worker.registry.runtimes.size - 1
      ∧ (worker.lanes.erase accountId).size = worker.lanes.size - 1 := by
    rw [ExtTreeMap.size_erase, ExtTreeMap.size_erase, if_pos hruntime, if_pos hlane]
    exact ⟨rfl, rfl⟩
  refine ⟨fun other => ?_, ?_, ?_, htidy.laneCapacity, fun other slot' hslot' => ?_⟩
  · show (worker.registry.runtimes.erase accountId).contains other = (worker.lanes.erase accountId).contains other
    rw [ExtTreeMap.contains_erase, ExtTreeMap.contains_erase, htidy.sameAccounts]
  · show (worker.registry.runtimes.erase accountId).size = (worker.lanes.erase accountId).size
    rw [hsizes.1, hsizes.2, htidy.sameSize]
  · show (worker.registry.runtimes.erase accountId).size ≤ worker.registry.maxTerminals
    have hbnd := htidy.withinCapacity
    omega
  · rw [slot_without] at hslot'
    split at hslot'
    · cases hslot'
    · exact htidy.leases other slot' hslot'

/-! ## The next command -/

theorem processNext_idle (answers : Answers) {nowMs : Nat} (h : worker.dispatched accountId nowMs = none) :
    (processNext answers accountId nowMs worker).2 = worker ∨ ∃ lane, worker.lanes[accountId]? = some lane
        ∧ (processNext answers accountId nowMs worker).2 = worker.setLane accountId lane.pop.2 := by
  unfold processNext
  rw [bind_of_ok (get_apply worker)]
  cases hlane : worker.lanes[accountId]? with
  | none =>
    rw [bind_of_error (require_none _ rfl worker)]
    exact .inl rfl
  | some lane =>
    have hinse : insertLane accountId lane.pop.2 worker = (.ok (), worker.setLane accountId lane.pop.2) := rfl
    refine .inr ⟨lane, rfl, ?_⟩
    rw [bind_of_ok (require_some _ rfl worker), bind_of_ok hinse]
    cases hfrt : lane.pop.1 with
    | none => rw [bind_of_error (require_none _ rfl _)]
    | some command =>
      rw [bind_of_ok (require_some _ rfl _)]
      cases hlate : decide (command.expiresAtMs < nowMs) with
      | true => rw [bind_of_error (refuseIf_true rfl _)]
      | false =>
        rw [bind_of_ok (refuseIf_false rfl _)]
        cases hls : worker.registry.requireLease accountId command.leaseGeneration with
        | error => rfl
        | ok slot =>
          -- a command in time under the current lease is one that is dispatched
          obtain ⟨hslot, hsame, hpos⟩ := requireLease_ok.mp hls
          have hintime : nowMs ≤ command.expiresAtMs := by
            rw [decide_eq_false_iff_not] at hlate
            omega
          have hdsp : worker.dispatched accountId nowMs = some command := by
            unfold dispatched
            rw [hlane]
            show (lane.items.head?.bind fun command => (worker.slot accountId).bind _) = _
            rw [show lane.items.head? = some command from hfrt, bind_some,
              show worker.slot accountId = some slot from hslot, bind_some, if_pos ⟨hintime, hpos, hsame⟩]
          rw [h] at hdsp
          cases hdsp

/-! ## Provisioning -/

theorem erase_absent {V : Type} {entries : ExtTreeMap String V compare} (h : entries[accountId]? = none) :
    entries.erase accountId = entries := by
  refine ExtTreeMap.ext_getElem? fun other => ?_
  rw [ExtTreeMap.getElem?_erase]
  split
  · rename_i hsame
    rw [Std.LawfulEqOrd.compare_eq_iff_eq] at hsame
    rw [← hsame, h]
  · rfl

/-- A provision ends without its slot, or past the gate with the slot ready. -/
theorem finishProvision_cases (worker : Worker) (slot : RuntimeSlot) {result : Except DriverError StartedRuntime}
    (hls : slot.leaseGeneration = generation) (hst : slot.state = .terminalStarting) :
    (finishProvision accountId generation result (worker.setSlot accountId slot)).2 = worker.without accountId
      ∨ passedGate result = true ∧ ∃ slot',
        (finishProvision accountId generation result (worker.setSlot accountId slot)).2 = worker.setSlot accountId slot'
          ∧ slot'.state = .ready ∧ slot'.leaseGeneration = generation := by
  have habandon (slot' : RuntimeSlot) (hls' : slot'.leaseGeneration = generation) :
      abandon accountId generation (worker.setSlot accountId slot') = (.ok (), worker.without accountId) := by
    have hset : (worker.setSlot accountId slot').slot accountId = some slot' := slot_setSlot_self
    rw [abandon_of_leased hset hls', without_setSlot]
  cases result with
  | error =>
    left
    unfold finishProvision
    show ((abandon accountId generation >>= fun _ => fail _) (worker.setSlot accountId slot)).2 = _
    rw [bind_of_ok (habandon slot hls)]
    rfl
  | ok started =>
    have hauthenticating := transition_setSlot worker accountId slot .authenticating hls (by rw [hst]; rfl)
    have hsynchronizing := transition_setSlot worker accountId { slot with state := .authenticating } .synchronizing hls rfl
    have hgateOf : finishProvision accountId generation (.ok started) (worker.setSlot accountId slot) = (
        if started.snapshot.passesPhase1DemoGate then do
          onRegistry fun registry =>
            registry.setProcessIds accountId generation started.processIds.terminalPid started.processIds.adapterPid
          transition accountId generation .ready
          return started.snapshot
        else do
          abandon accountId generation
          fail .snapshotGateFailed : Method SnapshotSummary)
        (worker.setSlot accountId { slot with state := .synchronizing }) := by
      unfold finishProvision
      show (transition accountId generation .authenticating >>= fun _ => _) _ = _
      rw [bind_of_ok hauthenticating, bind_of_ok hsynchronizing]
    rw [hgateOf]
    cases hgate : started.snapshot.passesPhase1DemoGate with
    | true =>
      right
      obtain ⟨slot', hreadied, hrdy, hkept⟩ :=
        readied worker accountId { slot with state := .synchronizing } started hls rfl
      refine ⟨hgate, slot', ?_, hrdy, hkept.trans hls⟩
      rw [if_pos rfl, hreadied]
    | false =>
      left
      rw [if_neg Bool.false_ne_true, bind_of_ok (habandon _ (by exact hls))]
      rfl

theorem launch_cases (base : Worker) (accountId : String) (fresh : RuntimeSlot)
    (result : Except DriverError StartedRuntime) (hls : fresh.leaseGeneration = generation)
    (hst : fresh.state = .provisioning) :
    ((do
        transition accountId generation .terminalStarting
        report (.started accountId result)
        finishProvision accountId generation result : Method SnapshotSummary) (base.setSlot accountId fresh)).2
        = (base.reported (.started accountId result)).without accountId
      ∨ passedGate result = true ∧ ∃ slot', ((do
          transition accountId generation .terminalStarting
          report (.started accountId result)
          finishProvision accountId generation result : Method SnapshotSummary) (base.setSlot accountId fresh)).2
          = (base.reported (.started accountId result)).setSlot accountId slot'
        ∧ slot'.state = .ready ∧ slot'.leaseGeneration = generation := by
  have hstarting := transition_setSlot base accountId fresh .terminalStarting hls (by rw [hst]; rfl)
  rw [bind_of_ok hstarting]
  exact finishProvision_cases (base.reported (.started accountId result)) { fresh with state := .terminalStarting } hls rfl

theorem Tidy.laneAbsent (htidy : worker.Tidy) (h : worker.slot accountId = none) : worker.lanes[accountId]? = none := by
  have hcntn := htidy.sameAccounts accountId
  rw [ExtTreeMap.contains_eq_isSome_getElem?, ExtTreeMap.contains_eq_isSome_getElem?,
    show worker.registry.runtimes[accountId]? = none from h] at hcntn
  exact not_isSome_iff_eq_none.mp (by rw [← hcntn]; exact Bool.false_ne_true)

/-- A provision leaves no trace but in the throttle and in what the driver said, or a new runtime
that is ready. -/
theorem provisionAt_cases (answers : Answers) (htidy : worker.Tidy) (request : ProvisionRequest) (startedAtMs : Nat) :
    (∃ startupThrottle, (startupThrottle = worker.startupThrottle ∨ startupThrottle = worker.startupThrottle.forget startedAtMs)
      ∧ (provisionAt answers request startedAtMs worker).2 = { worker with startupThrottle })
    ∨ worker.slot request.accountId = none ∧ (worker.startupThrottle.forget startedAtMs).delayMs startedAtMs request.accountId = 0
      ∧ ∃ startupThrottle, startupThrottle = (worker.startupThrottle.forget startedAtMs).recordStart startedAtMs ∧ (
      (provisionAt answers request startedAtMs worker).2
        = { worker with startupThrottle }.reported (.started request.accountId answers.start)
      ∨ passedGate answers.start = true ∧ worker.registry.runtimes.size < worker.registry.maxTerminals
        ∧ ∃ lane slot', (provisionAt answers request startedAtMs worker).2
            = (({ worker with startupThrottle }.reported (.started request.accountId answers.start)).setLane
                request.accountId lane).setSlot request.accountId slot'
          ∧ slot'.state = .ready ∧ 0 < slot'.leaseGeneration) := by
  unfold provisionAt
  cases hsym : decide (64 < request.symbol.utf8ByteSize) with
  | true =>
    rw [bind_of_error (refuseIf_true rfl _)]
    exact .inl ⟨_, .inl rfl, rfl⟩
  | false =>
    have hdelay : requiredDelayMs startedAtMs request.accountId worker
        = (.ok ((worker.startupThrottle.forget startedAtMs).delayMs startedAtMs request.accountId),
          { worker with startupThrottle := worker.startupThrottle.forget startedAtMs }) := rfl
    rw [bind_of_ok (refuseIf_false rfl _), bind_of_ok hdelay]
    cases hthrottled : decide (0 < (worker.startupThrottle.forget startedAtMs).delayMs startedAtMs request.accountId) with
    | true =>
      rw [bind_of_error (refuseIf_true rfl _)]
      exact .inl ⟨_, .inr rfl, rfl⟩
    | false =>
      have hfree := of_decide_eq_false hthrottled
      rw [bind_of_ok (refuseIf_false rfl _)]
      cases hprovision : worker.registry.provision request.accountId request.leaseGeneration with
      | error =>
        rw [bind_of_error (onRegistry_of_error hprovision)]
        exact .inl ⟨_, .inr rfl, rfl⟩
      | ok =>
        obtain ⟨directory, hregi, hpos, habse, hroom⟩ := provision_ok hprovision
        obtain ⟨lane, hlane⟩ := htidy.laneCapacity
        let throttle := (worker.startupThrottle.forget startedAtMs).recordStart startedAtMs
        refine .inr ⟨habse, by omega, throttle, rfl, ?_⟩
        let base := { worker with startupThrottle := throttle }.setLane request.accountId lane
        rw [bind_of_ok (onRegistry_of_ok hprovision), bind_of_ok (get_apply _), hlane, hregi]
        rcases launch_cases base request.accountId
          (freshSlot request.accountId request.leaseGeneration directory) answers.start rfl rfl with
          hgone | ⟨hgate, slot', hrdy, hst, hls⟩
        -- the launch failed, and what was set up for the account is taken away again
        · left
          refine hgone.trans ?_
          have hruntimes : worker.registry.runtimes.erase request.accountId = worker.registry.runtimes := erase_absent habse
          have hlanes : (worker.lanes.insert request.accountId lane).erase request.accountId = worker.lanes := by
            rw [erase_insert, erase_absent (htidy.laneAbsent habse)]
          show Worker.mk { worker.registry with runtimes := worker.registry.runtimes.erase request.accountId }
            ((worker.lanes.insert request.accountId lane).erase request.accountId) _ _ _ = _
          rw [hruntimes, hlanes]
          rfl
        · right
          exact ⟨hgate, hroom, lane, slot', hrdy, hst, by rw [hls]; exact hpos⟩

/-! ## Any call -/

/-- A call of `enqueue` fills a lane that is there, or does nothing. -/
theorem enqueue_cases (accountId : String) (command : RuntimeCommand) (nowMs : Nat) (worker : Worker) :
    (enqueue accountId command nowMs worker).2 = worker ∨ ∃ lane lane', worker.lanes[accountId]? = some lane
        ∧ (enqueue accountId command nowMs worker).2 = worker.setLane accountId lane' := by
  unfold enqueue
  cases hlate : decide (command.expiresAtMs < nowMs) with
  | true =>
    rw [bind_of_error (refuseIf_true rfl _)]
    exact .inl rfl
  | false =>
    rw [bind_of_ok (refuseIf_false rfl _), bind_of_ok (get_apply worker)]
    cases hls : worker.registry.requireLease accountId command.leaseGeneration with
    | error => exact .inl rfl
    | ok =>
      cases hlane : worker.lanes[accountId]? with
      | none => exact .inl rfl
      | some lane =>
        cases hpush : lane.tryPush command with
        | error =>
          left
          show ((Attempt.ofExcept ((lane.tryPush command).mapError .queue) >>= fun lane => insertLane accountId lane) worker).2 = _
          rw [hpush]
          rfl
        | ok lane' =>
          refine .inr ⟨lane, lane', rfl, ?_⟩
          show ((Attempt.ofExcept ((lane.tryPush command).mapError .queue) >>= fun lane => insertLane accountId lane) worker).2 = _
          rw [hpush]
          rfl

theorem Tidy.provisioned (htidy : worker.Tidy) (habse : worker.slot accountId = none)
    (hroom : worker.registry.runtimes.size < worker.registry.maxTerminals) (hls : 0 < slot.leaseGeneration)
    (lane : BoundedLane RuntimeCommand) : ((worker.setLane accountId lane).setSlot accountId slot).Tidy := by
  have hruntime : worker.registry.runtimes.contains accountId = false := by
    rw [ExtTreeMap.contains_eq_isSome_getElem?, show worker.registry.runtimes[accountId]? = none from habse]
    rfl
  have hlane : worker.lanes.contains accountId = false := by rw [← htidy.sameAccounts, hruntime]
  have hsizes : (worker.registry.runtimes.insert accountId slot).size = worker.registry.runtimes.size + 1
      ∧ (worker.lanes.insert accountId lane).size = worker.lanes.size + 1 := by
    rw [ExtTreeMap.size_insert, ExtTreeMap.size_insert, hruntime, hlane]
    exact ⟨rfl, rfl⟩
  refine ⟨fun other => ?_, ?_, ?_, htidy.laneCapacity, fun other slot' hslot' => ?_⟩
  · show (worker.registry.runtimes.insert accountId slot).contains other = (worker.lanes.insert accountId lane).contains other
    rw [ExtTreeMap.contains_insert, ExtTreeMap.contains_insert, htidy.sameAccounts]
  · show (worker.registry.runtimes.insert accountId slot).size = (worker.lanes.insert accountId lane).size
    rw [hsizes.1, hsizes.2, htidy.sameSize]
  · show (worker.registry.runtimes.insert accountId slot).size ≤ worker.registry.maxTerminals
    omega
  · rw [slot_setSlot] at hslot'
    split at hslot'
    · cases hslot'
      exact hls
    · exact htidy.leases other slot' hslot'

/-- **Every call keeps slots and lanes of the same accounts, within the capacity.** -/
theorem Tidy.after (htidy : worker.Tidy) (call : Call) : (worker.after call).Tidy := by
  cases call with
  | provisionAt answers request startedAtMs =>
    show (provisionAt answers request startedAtMs worker).2.Tidy
    rcases provisionAt_cases answers htidy request startedAtMs with
      ⟨_, -, h⟩ | ⟨habse, -, throttle, -, h | ⟨-, hroom, lane, slot', h, -, hls⟩⟩
    · rw [h]
      exact ⟨htidy.sameAccounts, htidy.sameSize, htidy.withinCapacity, htidy.laneCapacity, htidy.leases⟩
    · rw [h]
      exact ⟨htidy.sameAccounts, htidy.sameSize, htidy.withinCapacity, htidy.laneCapacity, htidy.leases⟩
    · rw [h]
      have hreported : ({ worker with startupThrottle := throttle }.reported (.started request.accountId answers.start)).Tidy :=
        ⟨htidy.sameAccounts, htidy.sameSize, htidy.withinCapacity, htidy.laneCapacity, htidy.leases⟩
      exact hreported.provisioned habse hroom hls lane
  | enqueue accountId command nowMs =>
    show (enqueue accountId command nowMs worker).2.Tidy
    rcases enqueue_cases accountId command nowMs worker with h | ⟨lane, lane', hlane, h⟩
    · rw [h]
      exact htidy
    · rw [h]
      exact htidy.alike (alike_setLane hlane)
  | processNext answers accountId nowMs =>
    show (processNext answers accountId nowMs worker).2.Tidy
    cases hdsp : worker.dispatched accountId nowMs with
    | none =>
      rcases processNext_idle answers hdsp with h | ⟨lane, hlane, h⟩
      · rw [h]
        exact htidy
      · rw [h]
        exact htidy.alike (alike_setLane hlane)
    | some command =>
      obtain ⟨lane, slot, hlane, hslot, hls, h⟩ := processNext_dispatched answers hdsp
      have hpopped : (worker.setLane accountId lane.pop.2).Tidy := htidy.alike (alike_setLane hlane)
      rw [h]
      by_cases hstop : command.kind = .stop
      · rcases perform_stop answers hstop ((slot_setLane _ _).trans hslot) hls with hend | hend
        · rw [hend]
          exact hpopped
        · rw [hend]
          exact hpopped.without hslot
      · exact hpopped.alike (keeps_perform hstop _)

/-! ## Runs without upsets -/

structure Steadfast (worker : Worker) : Prop where
  tidy : worker.Tidy
  ready : ∀ accountId slot, worker.slot accountId = some slot → slot.state = .ready
  verified : ∀ accountId slot, worker.slot accountId = some slot → verified accountId worker.driver.reports = true

theorem verified_of_vouches {entry : Report} {earlier : List Report} {other : String} (hvouches : Vouches accountId entry)
    (h : Worker.verified other earlier = true) : Worker.verified other (entry :: earlier) = true := by
  by_cases hsame : other = accountId
  · subst hsame
    exact hvouches.self earlier h
  · rw [hvouches.others other hsame]
    exact h

variable {call : Call}

/-- A call without an upset keeps every runtime ready and verified. -/
theorem Steadfast.after (h : worker.Steadfast) (hsteady : worker.Steady call) : (worker.after call).Steadfast := by
  have htidy := h.tidy.after call
  cases call with
  | provisionAt answers request startedAtMs =>
    have haft : worker.after (.provisionAt answers request startedAtMs)
        = (provisionAt answers request startedAtMs worker).2 := rfl
    rw [haft] at htidy ⊢
    rcases provisionAt_cases answers h.tidy request startedAtMs with
      ⟨throttle, -, hend⟩ | ⟨habse, -, throttle, -, hend | ⟨hgate, -, lane, slot', hend, hst, -⟩⟩
    · rw [hend] at htidy ⊢
      exact ⟨htidy, h.ready, h.verified⟩
    · rw [hend] at htidy ⊢
      refine ⟨htidy, h.ready, fun accountId slot hslot => ?_⟩
      -- what the driver said is about an account without a runtime
      have hoth : ¬request.accountId = accountId := by
        rintro rfl
        rw [show worker.slot request.accountId = some slot from hslot] at habse
        cases habse
      show Worker.verified accountId (.started request.accountId answers.start :: worker.driver.reports) = true
      rw [Worker.verified, if_neg hoth]
      exact h.verified accountId slot hslot
    · rw [hend] at htidy ⊢
      refine ⟨htidy, fun accountId slot hslot => ?_, fun accountId slot hslot => ?_⟩
      · rw [slot_setSlot] at hslot
        split at hslot
        · cases hslot
          exact hst
        · exact h.ready accountId slot hslot
      · rw [slot_setSlot] at hslot
        show Worker.verified accountId (.started request.accountId answers.start :: worker.driver.reports) = true
        split at hslot
        · rename_i hsame
          rw [Worker.verified, if_pos hsame, hgate]
        · rename_i hoth
          rw [Worker.verified, if_neg hoth]
          exact h.verified accountId slot hslot
  | enqueue accountId command nowMs =>
    have haft : ∃ lanes, worker.after (.enqueue accountId command nowMs) = { worker with lanes } := by
      rcases enqueue_cases accountId command nowMs worker with haft | ⟨lane, lane', -, haft⟩
      · exact ⟨_, haft⟩
      · exact ⟨_, haft⟩
    obtain ⟨lanes, haft⟩ := haft
    rw [haft] at htidy ⊢
    exact ⟨htidy, h.ready, h.verified⟩
  | processNext answers accountId nowMs =>
    cases hdsp : worker.dispatched accountId nowMs with
    | none =>
      have haft : ∃ lanes, worker.after (.processNext answers accountId nowMs) = { worker with lanes } := by
        rcases processNext_idle answers hdsp with haft | ⟨lane, -, haft⟩
        · exact ⟨_, haft⟩
        · exact ⟨_, haft⟩
      obtain ⟨lanes, haft⟩ := haft
      rw [haft] at htidy ⊢
      exact ⟨htidy, h.ready, h.verified⟩
    | some command =>
      obtain ⟨lane, slot, -, hslot, hls, hnext⟩ := processNext_dispatched answers hdsp
      have hwell := hsteady command hdsp
      by_cases hstop : command.kind = .stop
      · have haft : ∃ lanes runtimes, worker.after (.processNext answers accountId nowMs)
            = { worker with lanes, registry := { worker.registry with runtimes } }
          ∧ ∀ (other : String) (slot : RuntimeSlot), runtimes[other]? = some slot → worker.slot other = some slot := by
          rcases perform_stop answers hstop ((slot_setLane lane.pop.2 _).trans hslot) hls with hend | hend
          · exact ⟨_, _, (congrArg snd hnext).trans hend, fun _ _ hoth => hoth⟩
          · refine ⟨_, _, (congrArg snd hnext).trans hend, fun other slot' hoth => ?_⟩
            have hwith := slot_without worker accountId other
            rw [show (worker.without accountId).slot other = some slot' from hoth] at hwith
            split at hwith
            · cases hwith
            · exact hwith.symm
        obtain ⟨lanes, runtimes, haft, hkept⟩ := haft
        rw [haft] at htidy ⊢
        exact ⟨htidy, fun other slot' hslot' => h.ready other slot' (hkept other slot' hslot'),
          fun other slot' hslot' => h.verified other slot' (hkept other slot' hslot')⟩
      · obtain ⟨entry, slot', haft, hrdy, -, hvouches⟩ :=
          perform_ready ((slot_setLane lane.pop.2 _).trans hslot) hls (h.ready accountId slot hslot) hstop hwell
        have hend : worker.after (.processNext answers accountId nowMs)
            = ((worker.setLane accountId lane.pop.2).reported entry).setSlot accountId slot' :=
          (congrArg snd hnext).trans haft
        rw [hend] at htidy ⊢
        refine ⟨htidy, fun other slot'' hslot'' => ?_, fun other slot'' hslot'' => ?_⟩
        · rw [slot_setSlot] at hslot''
          split at hslot''
          · cases hslot''
            exact hrdy
          · exact h.ready other slot'' hslot''
        · show Worker.verified other (entry :: worker.driver.reports) = true
          refine verified_of_vouches hvouches ?_
          rw [slot_setSlot] at hslot''
          split at hslot''
          · rename_i hsame
            exact h.verified other slot (by rw [← hsame]; exact hslot)
          · exact h.verified other slot'' hslot''

theorem dispatched_withNext {nowMs : Nat} (rest : List RuntimeCommand)
    (hslot : worker.slot accountId = some slot) (hpos : 0 < slot.leaseGeneration)
    (hls : command.leaseGeneration = slot.leaseGeneration) (htime : nowMs ≤ command.expiresAtMs) :
    (worker.withNext accountId command rest).dispatched accountId nowMs = some command := by
  have hlane : (worker.withNext accountId command rest).lanes[accountId]? = some ⟨worker.queueCapacity, command :: rest⟩ :=
    ExtTreeMap.getElem?_insert_self
  have hcurr : nowMs ≤ command.expiresAtMs ∧ 0 < command.leaseGeneration
      ∧ slot.leaseGeneration = command.leaseGeneration := ⟨htime, by omega, hls.symm⟩
  unfold dispatched
  rw [hlane]
  show ((worker.withNext accountId command rest).slot accountId).bind _ = _
  rw [slot_withNext, hslot, bind_some, if_pos hcurr]

theorem Steadfast.sound (h : worker.Steadfast) : worker.Sound where
  sameAccounts := h.tidy.sameAccounts
  withinCapacity := ⟨h.tidy.withinCapacity, by rw [← h.tidy.sameSize]; exact h.tidy.withinCapacity⟩
  readyVerified accountId hst := by
    obtain ⟨slot, hslot, -⟩ := map_eq_some_iff.mp hst
    exact h.verified accountId slot hslot
  recoverable accountId _ _ _ kind hstop := by
    intro answers nowMs command rest slot hanswers hslot hkind hls htime
    have hpos := h.tidy.leases accountId slot hslot
    obtain ⟨lane, slot', -, hslot', hls', hnext⟩ :=
      processNext_dispatched answers (dispatched_withNext rest hslot hpos hls htime)
    rw [slot_withNext] at hslot'
    rw [hnext]
    exact perform_succeeds ((slot_setLane _ _).trans hslot') hls' (h.ready accountId slot' hslot')
      (by rw [hkind]; exact hstop) hanswers

/-! ## Upsets -/

/-- A snapshot of a demo account that passes the gate. -/
def demoSnapshot : SnapshotSummary :=
  { mode := "demo", loginMatches := true, serverMatches := true, connected := true, tradeAllowed := true, tradeExpert := true
    marginMode := none, currency := none, leverage := none, positionsCount := some 0, pendingOrdersCount := some 0
    historyOrdersCount7d := some 0, historyDealsCount7d := some 0, symbolSpecification := .object [], lastErrorCode := none }

/-- A driver that starts, checks and stops as it is told. -/
def goodAnswers : Answers where
  start := .ok ⟨⟨some 1, some 2⟩, demoSnapshot⟩
  heartbeat := .ok ⟨true, true, true, none⟩
  cleanRestart := .ok ⟨⟨some 1, some 2⟩, demoSnapshot⟩
  forceCrashAndRecover := .ok ⟨⟨some 1, some 2⟩, demoSnapshot⟩
  stop := .ok ()

theorem goodAnswers_succeed : Succeeds goodAnswers := ⟨⟨_, rfl, rfl⟩, ⟨_, rfl, rfl⟩, ⟨_, rfl, rfl⟩⟩

/-- A healthy check fails where no edge leads to ready. -/
theorem heartbeat_stuck (hkind : command.kind = .heartbeat)
    (hslot : worker.slot accountId = some slot) (hls : slot.leaseGeneration = command.leaseGeneration)
    (hoth : slot.state ≠ .ready) (hinvalid : validStateTransition slot.state .ready = false) :
    (perform goodAnswers accountId command worker).1 = .error (.registry .invalidStateTransition) := by
  have hstuck := transition_of_invalid
    (show (worker.reported (.checked accountId (.ok ⟨true, true, true, none⟩))).slot accountId = some slot from hslot)
    hls hoth hinvalid
  have hans : goodAnswers.heartbeat = .ok ⟨true, true, true, none⟩ := rfl
  rw [perform_heartbeat hkind hans]
  show ((transition accountId command.leaseGeneration .ready >>= fun _ => _) _).1 = _
  rw [bind_of_error hstuck]

/-- A restart fails where no edge leads to reconnecting. -/
theorem cleanRestart_stuck (answers : Answers) (hkind : command.kind = .cleanRestart)
    (hslot : worker.slot accountId = some slot) (hls : slot.leaseGeneration = command.leaseGeneration)
    (hoth : slot.state ≠ .reconnecting) (hinvalid : validStateTransition slot.state .reconnecting = false) :
    (perform answers accountId command worker).1 = .error (.registry .invalidStateTransition) := by
  unfold perform
  rw [hkind]
  show ((transition accountId command.leaseGeneration .reconnecting >>= fun _ => _) worker).1 = _
  rw [bind_of_error (transition_of_invalid hslot hls hoth hinvalid)]

/-- An upset runtime is not brought to ready by every command that should. -/
theorem unserved_of_upset (hslot : worker.slot accountId = some slot) (hpos : 0 < slot.leaseGeneration)
    (hupset : upset slot.state = true) : ∃ kind, kind ≠ .stop ∧ ¬worker.Serves accountId kind := by
  have hserving (command : RuntimeCommand) (lane : BoundedLane RuntimeCommand) :
      ((worker.withNext accountId command []).setLane accountId lane).slot accountId = some slot := hslot
  have hserved (kind : RuntimeCommandKind) (h : worker.Serves accountId kind) :
      ∃ (lane : BoundedLane RuntimeCommand) (snapshot : Option SnapshotSummary),
        (perform goodAnswers accountId ⟨slot.leaseGeneration, 0, kind⟩
          ((worker.withNext accountId ⟨slot.leaseGeneration, 0, kind⟩ []).setLane accountId lane)).1 = .ok snapshot := by
    obtain ⟨snapshot, worker', hnext, -⟩ := h goodAnswers 0 ⟨slot.leaseGeneration, 0, kind⟩ [] slot goodAnswers_succeed hslot
      rfl rfl (le_refl 0)
    have hdsp : (worker.withNext accountId ⟨slot.leaseGeneration, 0, kind⟩ []).dispatched accountId 0
        = some ⟨slot.leaseGeneration, 0, kind⟩ := dispatched_withNext [] hslot hpos rfl (le_refl 0)
    obtain ⟨lane, _, -, -, -, hperform⟩ := processNext_dispatched goodAnswers hdsp
    exact ⟨_, snapshot, by rw [← hperform, hnext]⟩
  have hcheck (hoth : slot.state ≠ .ready) (hinvalid : validStateTransition slot.state .ready = false) :
      ∃ kind, kind ≠ .stop ∧ ¬worker.Serves accountId kind := by
    refine ⟨.heartbeat, nofun, fun h => ?_⟩
    obtain ⟨lane, snapshot, hperform⟩ := hserved _ h
    have hkind : (RuntimeCommand.mk slot.leaseGeneration 0 .heartbeat).kind = .heartbeat := rfl
    have hstuck := heartbeat_stuck hkind (hserving ⟨slot.leaseGeneration, 0, .heartbeat⟩ lane) rfl hoth hinvalid
    cases hstuck.symm.trans hperform
  cases hst : slot.state with
  | degraded | reconnecting => exact hcheck (by rw [hst]; nofun) (by rw [hst]; rfl)
  | synchronizing =>
    refine ⟨.cleanRestart, nofun, fun h => ?_⟩
    obtain ⟨lane, snapshot, hperform⟩ := hserved _ h
    have hkind : (RuntimeCommand.mk slot.leaseGeneration 0 .cleanRestart).kind = .cleanRestart := rfl
    have hoth : slot.state ≠ .reconnecting := by rw [hst]; nofun
    have hstuck := cleanRestart_stuck goodAnswers hkind (hserving ⟨slot.leaseGeneration, 0, .cleanRestart⟩ lane) rfl hoth (by rw [hst]; rfl)
    cases hstuck.symm.trans hperform
  | _ =>
    rw [hst] at hupset
    cases hupset

/-- The first upset of a run leaves a worker whose lifecycle does not hold together. -/
theorem Steadfast.unsound_after (h : worker.Steadfast) (hupset : ¬worker.Steady call) : ¬(worker.after call).Sound := by
  intro hsnd
  have htidy := h.tidy.after call
  cases call with
  | provisionAt | enqueue => exact hupset trivial
  | processNext answers accountId nowMs =>
    unfold Steady at hupset
    push Not at hupset
    obtain ⟨command, hdsp, hill⟩ := hupset
    obtain ⟨lane, slot, -, hslot, hls, hnext⟩ := processNext_dispatched answers hdsp
    obtain ⟨slot', hslot', hst⟩ := perform_upset ((slot_setLane lane.pop.2 _).trans hslot) hls
      (h.ready accountId slot hslot) (Bool.eq_false_iff.mpr hill)
    have hend : worker.after (.processNext answers accountId nowMs)
        = (perform answers accountId command (worker.setLane accountId lane.pop.2)).2 := congrArg snd hnext
    rw [← hend] at hslot'
    obtain ⟨kind, hstop, hunserved⟩ := unserved_of_upset hslot' (htidy.leases accountId slot' hslot') hst
    refine hunserved (hsnd.recoverable accountId slot'.state ?_ ?_ kind hstop)
    · rw [state, hslot', map_some]
    · intro hstopped
      rw [hstopped] at hst
      cases hst

/-! ## Whole runs -/

/-- A new worker has nothing that could be upset. -/
theorem Steadfast.new {dataRoot : Path} {maxTerminals : Nat} {registry : RuntimeRegistry} {queueCapacity : Option Nat}
    {startupConfig : StartupThrottleConfig} (hregi : RuntimeRegistry.new dataRoot maxTerminals = .ok registry)
    (hwkr : Worker.new registry queueCapacity startupConfig = .ok worker) : worker.Steadfast := by
  unfold RuntimeRegistry.new at hregi
  obtain ⟨-, hregi⟩ := unit_bind_ok.mp hregi
  obtain ⟨-, hregi⟩ := unit_bind_ok.mp hregi
  cases hregi
  unfold Worker.new at hwkr
  obtain ⟨lane, hlane, hwkr⟩ := bind_ok.mp hwkr
  obtain ⟨throttle, -, hwkr⟩ := bind_ok.mp hwkr
  cases hwkr
  have hnone (accountId : String) : (∅ : ExtTreeMap String RuntimeSlot compare)[accountId]? = none :=
    ExtTreeMap.getElem?_empty
  have hcapacity : (BoundedLane.new (queueCapacity.getD defaultCommandQueueCapacity) : Except QueueError (BoundedLane RuntimeCommand))
      = .ok lane := by
    cases hnew : (BoundedLane.new (queueCapacity.getD defaultCommandQueueCapacity) :
      Except QueueError (BoundedLane RuntimeCommand)) with
    | error e =>
      rw [hnew] at hlane
      cases hlane
    | ok lane' =>
      rw [hnew] at hlane
      cases hlane
      rfl
  refine ⟨⟨fun accountId => ?_, ?_, ?_, ⟨lane, hcapacity⟩, fun accountId slot hslot => ?_⟩, fun accountId slot hslot => ?_,
    fun accountId slot hslot => ?_⟩
  · rw [ExtTreeMap.contains_empty, ExtTreeMap.contains_empty]
  · rw [ExtTreeMap.size_empty, ExtTreeMap.size_empty]
  · rw [ExtTreeMap.size_empty]
    exact zero_le _
  all_goals
    cases (hnone accountId).symm.trans hslot

variable {calls : List Call} {k : Nat}

theorem run_take_succ (worker : Worker) (h : calls[k]? = some call) :
    worker.run (calls.take (k + 1)) = (worker.run (calls.take k)).after call := by
  unfold run
  rw [take_add_one, h, toList_some, foldl_append, foldl_cons, foldl_nil]

theorem run_take_past (worker : Worker) (h : calls[k]? = none) : worker.run (calls.take (k + 1)) = worker.run (calls.take k) := by
  rw [take_add_one, h, toList_none, append_nil]

/-- While there is no upset, every runtime is ready and verified. -/
theorem Steadfast.run (h : worker.Steadfast)
    (hsteady : ∀ j < k, ∀ call, calls[j]? = some call → (worker.run (calls.take j)).Steady call) :
    (worker.run (calls.take k)).Steadfast := by
  induction k with
  | zero => exact h
  | succ k ih =>
    have hk := ih fun j hj call hcall => hsteady j (by omega) call hcall
    cases hcall : calls[k]? with
    | none =>
      rw [run_take_past worker hcall]
      exact hk
    | some call =>
      rw [run_take_succ worker hcall]
      exact hk.after (hsteady k (by omega) call hcall)

/-- **The lifecycle holds together all through a run exactly if the run has no upset**: no check
that is unhealthy, and no restart or recovery that fails. -/
theorem sound_iff_steady {dataRoot : Path} {maxTerminals : Nat} {registry : RuntimeRegistry} {queueCapacity : Option Nat}
    {startupConfig : StartupThrottleConfig} {worker : Worker}
    (hregistry : RuntimeRegistry.new dataRoot maxTerminals = .ok registry)
    (hworker : Worker.new registry queueCapacity startupConfig = .ok worker) (calls : List Call) :
    (∀ k, (worker.run (calls.take k)).Sound) ↔ ∀ k call, calls[k]? = some call → (worker.run (calls.take k)).Steady call := by
  have hstart := Steadfast.new hregistry hworker
  constructor
  · intro hsnd k
    -- the first upset would leave a worker that is not sound
    induction k using Nat.strongRecOn with
    | ind k ih =>
      intro call hcall
      have hk := hstart.run ih
      by_contra hupset
      have haft := hsnd (k + 1)
      rw [run_take_succ worker hcall] at haft
      exact hk.unsound_after hupset haft
  · intro hsteady k
    exact (hstart.run fun j _ => hsteady j).sound

/-! ### A worker of four terminals -/

def agentRoot : Path := ⟨true, [.normal "srv", .normal "mt5"]⟩

def agentRegistry : RuntimeRegistry := ⟨agentRoot, 4, ∅⟩

def agentThrottle : StartupThrottleConfig := ⟨60000, 2, 2000, 750⟩

def agent : Worker :=
  { registry := agentRegistry, lanes := ∅, queueCapacity := 32, startupThrottle := ⟨agentThrottle, []⟩, driver := ⟨[]⟩ }

/-- A restart that comes up on an account that is no demo account. -/
def refusedAnswers : Answers :=
  { goodAnswers with cleanRestart := .ok ⟨⟨some 1, some 2⟩, { demoSnapshot with mode := "real" }⟩ }

/-- One runtime, checked once. -/
def checkedRun : List Call := [
  .provisionAt goodAnswers ⟨"account-a", 7, "EURUSD"⟩ 1000,
  .enqueue "account-a" ⟨7, 9000, .heartbeat⟩ 2000,
  .processNext goodAnswers "account-a" 2000]

/-- One runtime, whose restart fails the gate before it is checked. -/
def refusedRun : List Call := [
  .provisionAt goodAnswers ⟨"account-a", 7, "EURUSD"⟩ 1000,
  .enqueue "account-a" ⟨7, 9000, .cleanRestart⟩ 2000,
  .processNext refusedAnswers "account-a" 2000,
  .enqueue "account-a" ⟨7, 9000, .heartbeat⟩ 3000,
  .processNext goodAnswers "account-a" 3000]

theorem sound_iff_steady_checked : (agent.run checkedRun).Sound := by
  have hsnd := (sound_iff_steady (show RuntimeRegistry.new agentRoot 4 = .ok agentRegistry from rfl)
    (show Worker.new agentRegistry none agentThrottle = .ok agent from rfl) checkedRun).mpr ?_
  · exact hsnd 3
  intro k call hcall
  have hmem : call ∈ checkedRun := mem_of_getElem? hcall
  simp only [checkedRun, mem_cons, not_mem_nil, or_false] at hmem
  rcases hmem with rfl | rfl | rfl
  · trivial
  · trivial
  · intro command _
    cases command.kind <;> rfl

/-- A runtime whose restart failed the gate is ready after the next healthy check. -/
theorem ready_after_refusedRestart : (agent.run refusedRun).state "account-a" = some .ready
    ∧ verified "account-a" (agent.run refusedRun).driver.reports = false ∧ ¬(agent.run refusedRun).Sound := by
  have hrdy : (agent.run refusedRun).state "account-a" = some .ready := by decide +kernel
  have hrefd : verified "account-a" (agent.run refusedRun).driver.reports = false := by decide +kernel
  refine ⟨hrdy, hrefd, fun h => ?_⟩
  rw [h.readyVerified "account-a" hrdy] at hrefd
  cases hrefd

end Worker

end MarketLens.VmAgent
