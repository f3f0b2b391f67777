import MarketLens.Commands.ParentStatus

/-!
# Which transactions settle their parents

Two of the statements that write a parent's status can get it wrong. An
acknowledgement looks for failed targets only, so one that was rejected before it
is overlooked; an account's stop judges the parents on the rows before it, so it
never sees that it has ended their last open target. `ParentInv` holds in every
run that keeps clear of these two.
-/

namespace MarketLens.Commands

open List Bool Table Store Copier Fallible Runs

variable {tables tables' : CommandTables} {finalizing : List String}

/-! ## Rows and their outcomes -/

/-- What a row's status says about it. -/
structure OutcomeInv (row : TargetCommandRow) : Prop where
  waiting : row.status = .waiting → ∃ intent target,
    row.commandPayload = .deferred intent target ∧ row.parentCommandId = intent.commandId
  terminal : row.terminal = true →
    row.status = .accepted ∨ row.status = .failed ∨ row.status = .rejected
  rejected : row.status = .rejected → row.terminal = true

variable {row : TargetCommandRow}

theorem OutcomeInv.of_fresh (h : FreshRow row) : OutcomeInv row := by
  cases h with
  | queued =>
    exact ⟨fun h => absurd h (by simp [queuedRow]), fun h => absurd h (by simp
      [queuedRow, TargetCommandRow.terminal]), fun h => absurd h (by simp [queuedRow])⟩
  | waiting intent target =>
    exact ⟨fun _ => ⟨intent, target, rfl, rfl⟩, fun h => absurd h (by simp
      [waitingRow, TargetCommandRow.terminal]), fun h => absurd h (by simp [waitingRow])⟩

theorem waiting_open (hinv : OutcomeInv row) (h : row.status = .waiting) : row.terminal = false := by
  rw [← not_eq_true]
  intro hterm
  rcases hinv.terminal hterm with hs | hs | hs <;> exact absurd (h.symm.trans hs) (by decide)

variable {accountId : String}

theorem stoppable_open (h : stoppable accountId row = true) : row.terminal = false ∧ row.status ≠ .rejected := by
  unfold stoppable at h
  simp only [and_eq_true, not_eq_true', or_eq_true, decide_eq_true_eq] at h
  refine ⟨h.1.2, fun hrej => ?_⟩
  rw [hrej] at h
  rcases h.2 with ((h | h) | h) | h <;> exact absurd h (by decide)

variable {r : Report}

theorem acknowledges_not_rejected {event : EaEvent} (hinv : OutcomeInv row) (hr : report event = some r)
    (h : acknowledges accountId r row = true) : row.status ≠ .rejected := by
  intro hrej
  have hterm := hinv.rejected hrej
  unfold acknowledges at h
  rw [hterm, hrej] at h
  rcases report_status hr with hs | hs | hs <;> rw [hs] at h <;> simp at h

variable {stops : TargetCommandRow → Prop} {row row' : TargetCommandRow}

/-- **Each row step keeps the invariant.** -/
theorem RowStep.outcomeInv (hinv : OutcomeInv row) (h : RowStep stops row row') : OutcomeInv row' := by
  cases h with
  | expired =>
    unfold expireDelivery
    split
    · exact ⟨fun h => absurd h (by simp), fun _ => .inr (.inl rfl), fun h => absurd h (by simp)⟩
    · exact ⟨fun h => absurd h (by simp), fun h => absurd h (by simp [TargetCommandRow.terminal]), fun h => absurd h (by simp)⟩
  | leased | held | released =>
    exact ⟨hinv.waiting, hinv.terminal, hinv.rejected⟩
  | activated order now hwtg =>
    have hopen := waiting_open hinv hwtg
    unfold activateRow
    split
    · exact ⟨fun h => absurd h (by simp), fun h => absurd (hopen.symm.trans h) false_ne_true, fun h => absurd h (by simp)⟩
    · exact hinv
  | rejected =>
    exact ⟨fun h => absurd h (by simp [rejectRow]), fun _ => .inr (.inr rfl), fun _ => rfl⟩
  | waitExpired =>
    exact ⟨fun h => absurd h (by simp [expireWaiting]), fun _ => .inr (.inl rfl), fun h => absurd h (by simp [expireWaiting])⟩
  | @acknowledged event r accountId now hr hack =>
    have hstat := report_status hr
    unfold acknowledgeRow
    split
    · rename_i hunk
      have hopen := acknowledges_unknown hack hunk
      exact ⟨fun h => absurd h (by simp), fun h => absurd (hopen.symm.trans h) false_ne_true, fun h => absurd h (by simp)⟩
    · rename_i hkno
      refine ⟨fun h => ?_, fun _ => ?_, fun h => rfl⟩
      · rcases hstat with hs | hs | hs <;> exact absurd (hs.symm.trans h) (by decide)
      · rcases hstat with hs | hs | hs
        · exact .inl hs
        · exact .inr (.inl hs)
        · exact absurd hs hkno
  | stopped =>
    exact ⟨fun h => absurd h (by simp [stopRow]), fun _ => .inr (.inl rfl), fun h => absurd h (by simp [stopRow])⟩
  | fenced =>
    unfold fenceRow
    split
    · exact ⟨fun h => absurd h (by simp), fun _ => .inr (.inl rfl), fun h => absurd h (by simp)⟩
    · exact ⟨fun h => absurd h (by simp), fun h => absurd h (by simp [TargetCommandRow.terminal]), fun h => absurd h (by simp)⟩

theorem RowStep.keeps (hinv : OutcomeInv row) (h : RowStep stops row row') :
    row'.parentCommandId = row.parentCommandId ∧ (row.status = .rejected → row'.status = .rejected) := by
  cases h with
  | expired now hdelv =>
    refine ⟨by unfold expireDelivery; split <;> rfl, fun h => ?_⟩
    exact absurd ((deliverable_open hdelv).1.symm.trans (hinv.rejected h)) false_ne_true
  | leased | held | released => exact ⟨rfl, id⟩
  | activated order now hwtg =>
    refine ⟨by unfold activateRow; split <;> rfl, fun h => ?_⟩
    exact absurd (hwtg.symm.trans h) (by decide)
  | rejected => exact ⟨rfl, fun _ => rfl⟩
  | waitExpired now hwtg =>
    exact ⟨rfl, fun h => absurd (hwtg.symm.trans h) (by decide)⟩
  | @acknowledged event r accountId now hr hack =>
    refine ⟨by unfold acknowledgeRow; split <;> rfl, fun h => ?_⟩
    exact absurd h (acknowledges_not_rejected hinv hr hack)
  | stopped remove now hstopp =>
    exact ⟨rfl, fun h => absurd h (stoppable_open hstopp).2⟩
  | fenced now hstopp =>
    exact ⟨by unfold fenceRow; split <;> rfl, fun h => absurd h (stoppable_open hstopp).2⟩

theorem OutcomeInv.of_history (hinv : OutcomeInv row) (h : Relation.ReflTransGen (RowStep stops) row row') :
    OutcomeInv row' ∧ row'.parentCommandId = row.parentCommandId ∧ (row.status = .rejected → row'.status = .rejected) := by
  induction h with
  | refl => exact ⟨hinv, rfl, id⟩
  | tail _ hstep ih =>
    obtain ⟨hmid, hpar, hrej⟩ := ih
    obtain ⟨hpar', hrej'⟩ := hstep.keeps hmid
    exact ⟨hstep.outcomeInv hmid, hpar'.trans hpar, hrej' ∘ hrej⟩

/-! ## The runs that settle rightly -/

/-- The other targets of a row's parent, as the statement that judges the parent sees them. -/
def siblingsSeen (row : TargetCommandRow) (written : List String) (picture tables : CommandTables) :
    List TargetCommandRow :=
  ((seenBy written picture tables).targetsOf row.parentCommandId).filter (·.id ≠ row.id)

/-- The report settles the last open target of a parent, and the parent's statement takes another target
for open, or takes the report for the last of nothing but acceptances when it is not, or the other way
round. Nothing else will write the parent's status. -/
def misjudges (finalizing : List String) (accountId : String) (r : Report) (written : List String)
    (picture tables : CommandTables) : Bool :=
  r.status ≠ .unknown && tables.commands.any fun row => acknowledges accountId r row
    && !finalizing.contains row.parentCommandId
    && let others := (tables.targetsOf row.parentCommandId).filter (·.id ≠ row.id)
      let seen := siblingsSeen row written picture tables
      others.all (·.terminal) && (seen.any (!·.terminal) || r.status = .accepted
        && (others.any (·.status ≠ .accepted)) != seen.any (·.status = .failed))

/-- No report of the batch misjudges a parent where it is taken. -/
def batchSettles (finalizing : List String) (accountId : String) (now : Millis) :
    List (EaEvent × CommandTables) → List String × CommandTables → Bool
  | [], _ => true
  | event :: rest, state =>
    (report event.1).all (fun r => !misjudges finalizing accountId r state.1 event.2 state.2) &&
      match acknowledgeSeeing accountId now state event with
      | .ok next => batchSettles finalizing accountId now rest next
      | .error _ => true

/-- Once the commands that `stops` picks are stopped, those among them that `ends` picks for good, the
parent still has an open target. -/
def leavesOpen (stops ends : TargetCommandRow → Bool) (tables : CommandTables) (parentId : String) : Bool :=
  (tables.targetsOf parentId).any fun other => !other.terminal && !(stops other && ends other)

/-- Ending the account's commands that `ends` picks leaves each of their parents an open target,
or the parent's status still has to be written. -/
def stopSettles (finalizing : List String) (accountId : String)
    (ends : TargetCommandRow → Bool) (tables : CommandTables) : Bool :=
  tables.commands.all fun row => !stoppable accountId row
    || finalizing.contains row.parentCommandId
    || leavesOpen (stoppable accountId) ends tables row.parentCommandId

/-- The expiry leaves each parent an open target, or sees none but those it has expired. -/
def expirySettles (finalizing : List String) (accountId : String) (now : Millis)
    (picture tables : CommandTables) : Bool :=
  tables.commands.all fun row => !deliveryExpired accountId now row
    || finalizing.contains row.parentCommandId
    || leavesOpen (deliveryExpired accountId now) (·.firstDeliveredAt.isNone) tables row.parentCommandId
    || (picture.targetsOf row.parentCommandId).all fun other => other.terminal
      || tables.commands.any fun row => deliveryExpired accountId now row && row.id = other.id

/-- The transaction gives no finished parent a wrong status. -/
def settlesRightly (s : QueueHistory) : SeeingAction → Bool
  | .whole (.manageAccount _ accountId _ _) =>
    stopSettles s.queue.finalizing accountId (fun _ => true) s.queue.tables
  | .whole (.disconnectManaged accountId _ _) =>
    stopSettles s.queue.finalizing accountId (·.firstDeliveredAt.isNone) s.queue.tables
  | .whole _ => true
  | .acknowledge session events now => (s.pictured events).all fun events =>
    batchSettles s.queue.finalizing session.accountId now events ([], s.queue.tables)
  | .poll session age now => (s.picture? age).all fun picture =>
    expirySettles s.queue.finalizing session.accountId now picture s.queue.tables

/-- What holds of the queue while every transaction settles rightly. -/
structure ParentInv (s : QueueState) : Prop where
  ids : UniqueIds s.tables
  rows : ∀ row ∈ s.tables.commands, OutcomeInv row
  finalizing : ∀ parentId ∈ s.finalizing, ∃ row ∈ s.tables.commands,
    row.parentCommandId = parentId ∧ row.status = .rejected
  settled : Settled s.finalizing s.tables

theorem ParentInv.start : ParentInv .start :=
  ⟨nodup_nil, forall_mem_nil _, forall_mem_nil _, forall_mem_nil _⟩

/-! ## Each transaction -/

section Judging

variable {picture : CommandTables} {written : List String}

theorem mem_seen {parentId : String} {other : TargetCommandRow} :
    other ∈ (seenBy written picture tables).targetsOf parentId ↔
      (other ∈ tables.commands ∧ other.id ∈ written ∨ other ∈ picture.commands ∧ other.id ∉ written) ∧
        other.parentCommandId = parentId := by
  rw [mem_targetsOf]
  unfold seenBy
  simp only [mem_append, mem_filter, contains_iff_mem, not_eq_true', ← not_eq_true]

/-- A target that is left open is open afterwards. -/
theorem not_finished_of_left {p ends : TargetCommandRow → Bool} {f : TargetCommandRow → TargetCommandRow}
    {parentId : String} (hcmds : tables'.commands = updateWhere p f tables.commands)
    (hpar : ∀ row, (f row).parentCommandId = row.parentCommandId)
    (hstop : ∀ row, ends row = false → (f row).terminal = false)
    (hleft : leavesOpen p ends tables parentId = true) : finished tables' parentId = false := by
  rw [← not_eq_true]
  intro hfin
  obtain ⟨other, hoth, hopen⟩ := any_eq_true.mp hleft
  obtain ⟨hoth, hown⟩ := mem_targetsOf.mp hoth
  rw [and_eq_true, not_eq_true', not_eq_true'] at hopen
  have hmem : (if p other then f other else other) ∈ tables'.commands := by
    rw [hcmds]
    exact mem_updateWhere.mpr ⟨other, hoth, rfl⟩
  have hterm := terminal_of_finished hfin hmem (by
    split
    · exact (hpar other).trans hown
    · exact hown)
  split at hterm
  · rename_i hstopped
    rw [hstopped, Bool.true_and] at hopen
    exact absurd ((hstop other hopen.2).symm.trans hterm) false_ne_true
  · exact absurd (hopen.1.symm.trans hterm) false_ne_true

theorem expireDelivery_parent (now : Millis) (row : TargetCommandRow) :
    (expireDelivery now row).parentCommandId = row.parentCommandId := by
  unfold expireDelivery
  split <;> rfl

theorem expireSeeing_settled {now : Millis} (h : Settled finalizing tables)
    (hok : expirySettles finalizing accountId now picture tables = true) :
    Settled finalizing (expireSeeing picture accountId now tables) := by
  have hcmds : (expireSeeing picture accountId now tables).commands
      = updateWhere (deliveryExpired accountId now) (expireDelivery now) tables.commands := rfl
  refine h.of_update (fun _ => id) hcmds rfl (expireDelivery_parent now)
    (fun row hrow hp => .inl (mem_map_of_mem (mem_filter.mpr ⟨hrow, hp⟩))) (fun id hid hnot hfin => ?_)
  obtain ⟨row, hrow, rfl⟩ := mem_map.mp hid
  obtain ⟨hrow, hp⟩ := mem_filter.mp hrow
  have hmem : expireDelivery now row ∈ (expireSeeing picture accountId now tables).commands :=
    updated_mem hrow hp
  have hfail : (expireDelivery now row).status ≠ .accepted := by
    unfold expireDelivery
    split <;> simp
  rw [finalStatus_of_mem (mem_outcomes hmem (expireDelivery_parent now row)) hfail]
  refine if_neg fun hopen => ?_
  obtain ⟨other, hoth, hopen⟩ := any_eq_true.mp hopen
  rw [not_eq_true'] at hopen
  obtain ⟨⟨hoth, -⟩ | ⟨hoth, hnew⟩, hown⟩ := mem_seen.mp hoth
  · -- its own rows are those of the finished parent
    exact absurd (hopen.symm.trans (terminal_of_finished hfin hoth hown)) false_ne_true
  · have hsettles := all_eq_true.mp hok row hrow
    rw [hp, Bool.not_true, Bool.false_or, Bool.or_eq_true, Bool.or_eq_true, contains_iff_mem] at hsettles
    rcases hsettles with (hin | hleft) | hseen
    · exact hnot hin
    · have hnone := not_finished_of_left hcmds (expireDelivery_parent now) (fun row hends => ?_) hleft
      · exact absurd (hnone.symm.trans hfin) false_ne_true
      unfold expireDelivery
      split
      · rename_i hfirst
        rw [hfirst] at hends
        cases hends
      · rfl
    · have hclosed := all_eq_true.mp hseen other (mem_targetsOf.mpr ⟨hoth, hown⟩)
      rw [hopen, Bool.false_or] at hclosed
      obtain ⟨own, howner, hclosed⟩ := any_eq_true.mp hclosed
      rw [and_eq_true, decide_eq_true_eq] at hclosed
      exact hnew (mem_map.mpr ⟨own, mem_filter.mpr ⟨howner, hclosed.1⟩, hclosed.2⟩)

end Judging

variable {session : EaSession} {now : Millis}

theorem leaseCommands_settled {commands : List EaCommand} (hids : UniqueIds tables) (h : Settled finalizing tables)
    (hok : leaseCommands session now tables = .ok (commands, tables')) :
    Settled finalizing tables' := by
  obtain ⟨hcmds, hparents⟩ := leaseCommands_ok hok
  exact h.of_rows (fun _ => id) hcmds hparents (fun _ => rfl)
    fun row hrow hid => .inr (deliverable_open (deliverable_of_leasable hids hrow hid)).1

theorem stopCommands_settled {ends : TargetCommandRow → Bool}
    {stop : TargetCommandRow → TargetCommandRow} (h : Settled finalizing tables)
    (hpar : ∀ row, (stop row).parentCommandId = row.parentCommandId)
    (hstop : ∀ row, ends row = false → (stop row).terminal = false)
    (hok : stopSettles finalizing accountId ends tables = true) :
    Settled finalizing (stopCommands accountId stop tables) := by
  refine h.of_update (p := stoppable accountId) (f := stop) (fun _ => id) rfl rfl hpar
    (fun row hrow hp => .inl (mem_map_of_mem (mem_filter.mpr ⟨hrow, hp⟩)))
    (fun id hid hnot hfin => ?_)
  obtain ⟨row, hrow, rfl⟩ := mem_map.mp hid
  obtain ⟨hrow, hp⟩ := mem_filter.mp hrow
  have hleft := all_eq_true.mp hok row hrow
  rw [hp, Bool.not_true, Bool.false_or, Bool.or_eq_true, contains_iff_mem] at hleft
  rcases hleft with hin | hleft
  · exact absurd hin hnot
  · exact absurd ((not_finished_of_left rfl hpar hstop hleft).symm.trans hfin) false_ne_true

theorem expireDeferred_settled (h : Settled finalizing tables) (now : Millis) :
    Settled finalizing (expireDeferredOrders now tables) := by
  refine h.of_update (p := deferredExpired now) (f := expireWaiting now) (fun _ => id) rfl rfl (fun _ => rfl)
    (fun row hrow hp => .inl (mem_map_of_mem (mem_filter.mpr ⟨hrow, hp⟩)))
    (fun id hid _ _ => ?_)
  obtain ⟨row, hrow, rfl⟩ := mem_map.mp hid
  obtain ⟨hrow, hp⟩ := mem_filter.mp hrow
  have hmem : expireWaiting now row ∈ (expireDeferredOrders now tables).commands :=
    updated_mem hrow hp
  have hpar : (expireWaiting now row).parentCommandId = row.parentCommandId := rfl
  rw [finalStatus_of_mem (mem_outcomes hmem hpar) (by simp [expireWaiting])]
  -- the expired row itself is among the rows before the expiry, still waiting
  refine if_pos (any_eq_true.mpr ⟨row, mem_targetsOf.mpr ⟨hrow, rfl⟩, ?_⟩)
  unfold deferredExpired at hp
  rw [and_eq_true, decide_eq_true_eq] at hp
  rw [hp.1]
  decide

/-- Refusing a waiting order puts its parent among those to be finalized. -/
theorem mem_rejectedParents {id accountId : String} (hinv : OutcomeInv row) (hrow : row ∈ tables.commands)
    (hp : (holdsWaiting session id row && row.targetAccountId = accountId) = true) :
    row.parentCommandId ∈ rejectedParents session id accountId tables := by
  have hwtg := hp
  rw [and_eq_true] at hwtg
  obtain ⟨intent, target, hpld, hpar⟩ :=
    hinv.waiting (holdsWaiting_waiting hwtg.1).2
  refine mem_filterMap.mpr ⟨row, mem_filter.mpr ⟨hrow, hp⟩, ?_⟩
  rw [hpld, hpar]

/-- What a refusal has to finalize has a rejected target from then on. -/
theorem rejectedParents_rejected {id accountId parentId : String} {code : RouteRejectCode} {message : String}
    (hrows : ∀ row ∈ tables.commands, OutcomeInv row)
    (h : parentId ∈ rejectedParents session id accountId tables) :
    ∃ row ∈ (rejectDeferred session id accountId code message now tables).commands,
      row.parentCommandId = parentId ∧ row.status = .rejected := by
  obtain ⟨row, hrow, hpar⟩ := mem_filterMap.mp h
  obtain ⟨hrow, hp⟩ := mem_filter.mp hrow
  refine ⟨rejectRow code message now row, updated_mem hrow hp, ?_, rfl⟩
  rw [and_eq_true] at hp
  obtain ⟨intent, target, hpld, hown⟩ :=
    (hrows row hrow).waiting (holdsWaiting_waiting hp.1).2
  rw [hpld] at hpar
  exact hown.trans (Option.some.inj hpar)

/-- The statement after a refusal writes what a rejected target calls for. -/
theorem finalizeRejected_settled {parentId : String} (h : Settled finalizing tables)
    (hrej : ∃ row ∈ tables.commands, row.parentCommandId = parentId ∧ row.status = .rejected) :
    Settled (finalizing.erase parentId) (finalizeRejected parentId tables) := by
  obtain ⟨row, hrow, hpar, hstat⟩ := hrej
  intro parent hmem hnot hfin
  rcases updateWhere_cases hmem with ⟨hold, hids⟩ | ⟨old, _, hids, rfl⟩
  · rw [← not_eq_true, contains_iff_mem, mem_singleton] at hids
    exact h parent hold (fun hin => hnot ((mem_erase_of_ne hids).mpr hin)) hfin
  · rw [contains_iff_mem, mem_singleton] at hids
    have hmem : row.status ∈ outcomes (finalizeRejected parentId tables) old.id :=
      mem_outcomes hrow (hpar.trans hids.symm)
    rw [finalStatus_of_mem hmem (by rw [hstat]; decide)]

theorem acknowledgeRow_parent (r : Report) (now : Millis) (row : TargetCommandRow) :
    (acknowledgeRow r now row).parentCommandId = row.parentCommandId := by
  unfold acknowledgeRow
  split <;> rfl

/-- The parents a report writes are those of the row it finds. -/
theorem parentsOfCommand_acknowledged (hids : UniqueIds tables) (hrow : row ∈ tables.commands)
    (hack : acknowledges accountId r row = true)
    (hcmds : tables'.commands = Table.updateWhere (acknowledges accountId r) (acknowledgeRow r now) tables.commands)
    (parentId : String) :
    parentId ∈ parentsOfCommand tables' r.commandId ↔ parentId = row.parentCommandId := by
  have hids' : UniqueIds tables' := hids.of_updateWhere hcmds (acknowledgeRow_id r now)
  have hmem : acknowledgeRow r now row ∈ tables'.commands := by
    rw [hcmds]
    exact updated_mem hrow hack
  have hid : (acknowledgeRow r now row).id = r.commandId :=
    (acknowledgeRow_id r now row).trans (acknowledges_id hack)
  unfold parentsOfCommand
  rw [mem_map]
  constructor
  · rintro ⟨other, hoth, rfl⟩
    rw [mem_filter, decide_eq_true_eq] at hoth
    rw [hids'.eq_of_id hoth.1 hmem (hoth.2.trans hid.symm)]
    exact acknowledgeRow_parent r now row
  · rintro rfl
    exact ⟨acknowledgeRow r now row, mem_filter.mpr ⟨hmem, decide_eq_true hid⟩, acknowledgeRow_parent r now row⟩

section Report

variable {picture : CommandTables} {written : List String} {state state' : List String × CommandTables}
  {event : EaEvent × CommandTables}

/-- **What the parent's statement sees**: the row as it is written now, and the row's siblings. -/
theorem any_judged (hids : UniqueIds tables) (hrow : row ∈ tables.commands)
    (hack : acknowledges accountId r row = true)
    (hcmds : tables'.commands = updateWhere (acknowledges accountId r) (acknowledgeRow r now) tables.commands)
    (test : TargetCommandRow → Bool) :
    ((seenBy (r.commandId :: written) picture tables').targetsOf row.parentCommandId).any test =
      (test (acknowledgeRow r now row) || (siblingsSeen row written picture tables).any test) := by
  have hid : row.id = r.commandId := acknowledges_id hack
  have hsibling {other : TargetCommandRow} : other ∈ siblingsSeen row written picture tables ↔
      other ∈ (seenBy written picture tables).targetsOf row.parentCommandId ∧ other.id ≠ row.id := by
    rw [siblingsSeen, mem_filter, decide_eq_true_eq]
  rw [Bool.eq_iff_iff, Bool.or_eq_true, any_eq_true, any_eq_true]
  constructor
  · rintro ⟨other, hoth, htest⟩
    obtain ⟨⟨hoth, hin⟩ | ⟨hoth, hnew⟩, hown⟩ := mem_seen.mp hoth
    · rw [hcmds] at hoth
      rcases updateWhere_cases hoth with ⟨hold, hpass⟩ | ⟨old, hold, hack', rfl⟩
      · have hne : other.id ≠ row.id := by
          intro heq
          rw [hids.eq_of_id hold hrow heq, hack] at hpass
          cases hpass
        have hin := (mem_cons.mp hin).resolve_left (hid ▸ hne)
        exact .inr ⟨other, hsibling.mpr ⟨mem_seen.mpr ⟨.inl ⟨hold, hin⟩, hown⟩, hne⟩, htest⟩
      · rw [hids.eq_of_id hold hrow ((acknowledges_id hack').trans hid.symm)] at htest
        exact .inl htest
    · obtain ⟨hne, hnew⟩ := ne_and_not_mem_of_not_mem_cons hnew
      exact .inr ⟨other, hsibling.mpr ⟨mem_seen.mpr ⟨.inr ⟨hoth, hnew⟩, hown⟩, hid ▸ hne⟩, htest⟩
  · rintro (htest | ⟨other, hoth, htest⟩)
    · refine ⟨acknowledgeRow r now row, mem_seen.mpr ⟨.inl ⟨?_, ?_⟩, acknowledgeRow_parent r now row⟩, htest⟩
      · rw [hcmds]
        exact updated_mem hrow hack
      · exact mem_cons.mpr (.inl ((acknowledgeRow_id r now row).trans hid))
    · obtain ⟨hoth, hne⟩ := hsibling.mp hoth
      obtain ⟨⟨hoth, hin⟩ | ⟨hoth, hnew⟩, hown⟩ := mem_seen.mp hoth
      · refine ⟨other, mem_seen.mpr ⟨.inl ⟨?_, mem_cons_of_mem _ hin⟩, hown⟩, htest⟩
        rw [hcmds]
        exact unmatched_mem hoth fun hack' => hne ((acknowledges_id hack').trans hid.symm)
      · exact ⟨other, mem_seen.mpr ⟨.inr ⟨hoth, not_mem_cons_of_ne_of_not_mem (hid ▸ hne) hnew⟩, hown⟩, htest⟩

/-- A report that does not misjudge the parent it finishes gives it the status of its outcomes. -/
theorem judged_rightly (hids : UniqueIds tables) (hrow : row ∈ tables.commands)
    (hack : acknowledges accountId r row = true) (hstat : r.status = .accepted ∨ r.status = .failed)
    (hok : misjudges finalizing accountId r written picture tables = false)
    (hnot : row.parentCommandId ∉ finalizing)
    (hcmds : tables'.commands = updateWhere (acknowledges accountId r) (acknowledgeRow r now) tables.commands)
    (hfin : finished tables' row.parentCommandId = true) :
    acknowledgedParentStatus (seenBy (r.commandId :: written) picture tables') row.parentCommandId =
      finalStatus (outcomes tables' row.parentCommandId) := by
  have hfinal : r.status ≠ .unknown := by
    rcases hstat with h | h <;> rw [h] <;> decide
  have hself : acknowledgeRow r now row ∈ tables'.commands := by
    rw [hcmds]
    exact updated_mem hrow hack
  have hown := acknowledgeRow_parent r now row
  -- the report passes over the other targets
  have hothers : ∀ other ∈ (tables.targetsOf row.parentCommandId).filter (·.id ≠ row.id),
      other ∈ tables'.commands ∧ other.parentCommandId = row.parentCommandId := by
    intro other hoth
    rw [mem_filter, decide_eq_true_eq] at hoth
    obtain ⟨hoth, hne⟩ := hoth
    obtain ⟨hmem, hpar⟩ := mem_targetsOf.mp hoth
    refine ⟨?_, hpar⟩
    rw [hcmds]
    refine unmatched_mem hmem ?_
    exact fun hack' => hne ((acknowledges_id hack').trans (acknowledges_id hack).symm)
  have hseen : ((siblingsSeen row written picture tables).any (!·.terminal) || r.status = .accepted
      && (((tables.targetsOf row.parentCommandId).filter (·.id ≠ row.id)).any (·.status ≠ .accepted))
        != (siblingsSeen row written picture tables).any (·.status = .failed)) = false := by
    rw [← not_eq_true]
    intro hbad
    refine false_ne_true (hok.symm.trans ?_)
    unfold misjudges
    rw [and_eq_true, any_eq_true]
    refine ⟨decide_eq_true hfinal, row, hrow, ?_⟩
    simp only [and_eq_true, not_eq_true', ← not_eq_true, contains_iff_mem]
    refine ⟨⟨hack, hnot⟩, all_eq_true.mpr fun other hoth => ?_, hbad⟩
    obtain ⟨hmem, hpar⟩ := hothers other hoth
    exact terminal_of_finished hfin hmem hpar
  rw [or_eq_false_iff] at hseen
  have hclosed : (acknowledgeRow r now row).terminal = true := terminal_of_finished hfin hself hown
  unfold acknowledgedParentStatus CommandTables.hasOpenTarget
  rw [any_judged hids hrow hack hcmds, any_judged hids hrow hack hcmds, hclosed, hseen.1, acknowledgeRow_status]
  rcases hstat with hacc | hfail
  · rw [hacc, decide_eq_true rfl, Bool.true_and, bne_eq_false_iff_eq] at hseen
    rw [← hseen.2]
    simp only [hacc, Bool.not_true, Bool.or_false, Bool.false_eq_true, if_false, reduceCtorEq, decide_false, Bool.false_or]
    split
    · rename_i hany
      obtain ⟨other, hoth, hne⟩ := any_eq_true.mp hany
      obtain ⟨hmem, hpar⟩ := hothers other hoth
      exact (finalStatus_of_mem (mem_outcomes hmem hpar) (of_decide_eq_true hne)).symm
    · rename_i hnone
      refine (if_pos fun outcome houtcome => ?_).symm
      unfold outcomes at houtcome
      rw [Multiset.mem_coe, mem_map] at houtcome
      obtain ⟨target, htgt, rfl⟩ := houtcome
      obtain ⟨hmem, hpar⟩ := mem_targetsOf.mp htgt
      rw [hcmds] at hmem
      rcases updateWhere_cases hmem with ⟨hold, hpass⟩ | ⟨old, _, _, rfl⟩
      · by_contra hne
        have hid : target.id ≠ row.id := by
          intro heq
          rw [hids.eq_of_id hold hrow heq, hack] at hpass
          cases hpass
        exact hnone (any_eq_true.mpr ⟨target, mem_filter.mpr ⟨mem_targetsOf.mpr ⟨hold, hpar⟩, decide_eq_true hid⟩,
          decide_eq_true hne⟩)
      · exact (acknowledgeRow_status r now old).trans hacc
  · rw [finalStatus_of_mem (mem_outcomes hself hown) (by rw [acknowledgeRow_status, hfail]; decide)]
    simp [hfail]

theorem acknowledgeSeeing_ok (h : acknowledgeSeeing accountId now state event = .ok state') :
    (report event.1 = none ∧ state' = state) ∨ ∃ r, report event.1 = some r ∧
      (∃ row ∈ state.2.commands, acknowledges accountId r row = true) ∧
      state'.2.commands = updateWhere (acknowledges accountId r) (acknowledgeRow r now) state.2.commands ∧
      state'.2.parents = if r.status = .unknown then state.2.parents
        else (state.2.setParents (parentsOfCommand state'.2 r.commandId)
          (acknowledgedParentStatus (seenBy (r.commandId :: state.1) event.2 state'.2))).parents := by
  unfold acknowledgeSeeing at h
  split at h
  · rename_i hr
    exact .inl ⟨hr, (Except.ok.inj h).symm⟩
  · rename_i r hr
    dsimp only at h
    split at h
    · have hpos : 0 < state.2.commands.countP (acknowledges accountId r) := by omega
      refine .inr ⟨r, hr, countP_pos_iff.mp hpos, ?_⟩
      rw [← Except.ok.inj h]
      split <;> exact ⟨rfl, rfl⟩
    · cases h

theorem acknowledgeSeeing_settled (hids : UniqueIds state.2) (h : Settled finalizing state.2)
    (hok : (report event.1).all (fun r => !misjudges finalizing accountId r state.1 event.2 state.2) = true)
    (hack : acknowledgeSeeing accountId now state event = .ok state') : Settled finalizing state'.2 := by
  rcases acknowledgeSeeing_ok hack with ⟨_, rfl⟩ | ⟨r, hr, ⟨row, hrow, hfound⟩, hcmds, hparents⟩
  · exact h
  rw [hr, Option.all_some, not_eq_true'] at hok
  by_cases hunk : r.status = .unknown
  · rw [if_pos hunk] at hparents
    refine h.of_rows (fun _ => id) hcmds hparents (acknowledgeRow_parent r now) fun other _ hack' => .inr ?_
    have hopen := acknowledges_unknown hack' hunk
    unfold acknowledgeRow
    rw [if_pos hunk]
    exact hopen
  · rw [if_neg hunk] at hparents
    have hwritten := parentsOfCommand_acknowledged hids hrow hfound hcmds
    refine h.of_update (fun _ => id) hcmds hparents (acknowledgeRow_parent r now) ?_ ?_
    · intro other hoth hack'
      refine .inl ((hwritten _).mpr ?_)
      have hsame := (acknowledges_id hack').trans (acknowledges_id hfound).symm
      rw [hids.eq_of_id hoth hrow hsame]
    · intro id hid hnot hfin
      obtain rfl := (hwritten id).mp hid
      have hstat : r.status = .accepted ∨ r.status = .failed := by
        rcases report_status hr with hs | hs | hs
        · exact .inl hs
        · exact .inr hs
        · exact absurd hs hunk
      exact judged_rightly hids hrow hfound hstat hok hnot hcmds hfin

end Report

end MarketLens.Commands
