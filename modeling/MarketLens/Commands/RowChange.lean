import MarketLens.Commands.Protocol

/-!
# What a transaction does to the command rows

`RowStep` lists the ways a row can change, with what the row looked like before;
`step_rows` says that a transaction changes every row by such steps and adds at
most one fresh row. The invariants of the queue are read off these two, so none
of them looks at the transactions again.
-/

namespace MarketLens.Commands

open List Option Bool Table Runs Except QueueState Store Copier Fallible

/-! ## Results of the transactions -/

variable {parent : ExecutionCommandRow} {row : TargetCommandRow} {tables tables' : CommandTables}

theorem insertCommand_ok (h : insertCommand parent row tables = .ok tables') :
    tables'.commands = tables.commands ++ [row] ∧
      tables'.parents = Table.insertUnless (fun other => other.id = parent.id
        || other.idempotencyKey = parent.idempotencyKey) parent tables.parents ∧
      ∀ other ∈ tables.commands, other.id ≠ row.id := by
  unfold insertCommand at h
  rw [unit_bind_ok, unit_bind_ok] at h
  obtain ⟨_, hrow, h⟩ := h
  cases h
  refine ⟨rfl, rfl, fun other hoth hid => ?_⟩
  rw [refuseIf_ok, or_eq_false_iff, List.any_eq_false] at hrow
  exact hrow.2 other hoth (by simp [hid])

theorem insertCommand_newTarget (h : insertCommand parent row tables = .ok tables') :
    ∀ other ∈ tables.commands, ¬(other.parentCommandId = row.parentCommandId ∧ other.targetAccountId = row.targetAccountId) := by
  unfold insertCommand at h
  rw [unit_bind_ok, unit_bind_ok] at h
  obtain ⟨-, hrow, -⟩ := h
  rw [refuseIf_ok, or_eq_false_iff, List.any_eq_false] at hrow
  rintro other hoth ⟨hpar, hacct⟩
  exact hrow.2 other hoth (by simp [hpar, hacct])

variable {copier : CopyTables} {accountId : String} {now : Millis}

theorem enqueue_ok {command : EaCommand} (h : enqueue copier accountId command now tables = .ok tables') :
    tables' = tables ∨ ∃ (id : String) (hid : command.commandId = some id) (parentId key : String),
      command.parentId = some parentId ∧ command.idempotencyKey = some key ∧
      insertCommand (parentRow parentId none) (queuedRow command id hid parentId accountId key now) tables = .ok tables' := by
  unfold enqueue at h
  obtain ⟨target, _, h⟩ := bind_ok.mp h
  rw [unit_bind_ok] at h
  replace h := h.2
  split at h
  · cases h
  rename_i id hid
  obtain ⟨key, hkey, h⟩ := bind_ok.mp h
  obtain ⟨parentId, hpar, h⟩ := bind_ok.mp h
  obtain ⟨account, _, h⟩ := bind_ok.mp h
  rw [unit_bind_ok, unit_bind_ok, unit_bind_ok, unit_bind_ok] at h
  obtain ⟨_, _, _, _, h⟩ := h
  split at h
  · rw [unit_bind_ok] at h
    left
    exact (ok.inj h.2).symm
  · right
    exact ⟨id, hid, parentId, key, require_ok.mp hpar, require_ok.mp hkey, h⟩

/-- A command that went into the queue is in the queue. -/
theorem enqueue_issued {command : EaCommand} (h : enqueue copier accountId command now tables = .ok tables') :
    ∃ row ∈ tables'.commands, row.commandPayload = .issued command := by
  obtain ⟨target, _, h⟩ := bind_ok.mp h
  replace h := (unit_bind_ok.mp h).2
  split at h
  · cases h
  obtain ⟨key, _, h⟩ := bind_ok.mp h
  obtain ⟨parentId, _, h⟩ := bind_ok.mp h
  obtain ⟨account, _, h⟩ := bind_ok.mp h
  rw [unit_bind_ok, unit_bind_ok, unit_bind_ok, unit_bind_ok] at h
  obtain ⟨_, _, _, _, h⟩ := h
  split at h
  · -- the key is there already, with the same command
    rename_i existing hexst
    rw [unit_bind_ok, refuseIf_ok] at h
    obtain ⟨hsame, h⟩ := h
    rw [← ok.inj h]
    exact ⟨existing, mem_of_find?_eq_some hexst, not_not.mp (of_decide_eq_false hsame)⟩
  · rw [(insertCommand_ok h).1]
    exact ⟨_, mem_append_right _ (mem_singleton.mpr rfl), rfl⟩

theorem deferOrder_ok {intent : OrderIntent} {target : AdminOrderTarget} (h : deferOrder intent target now tables = .ok tables') :
    tables' = tables ∨ insertCommand (parentRow intent.commandId intent.sourceAccountId)
      (waitingRow intent target now) tables = .ok tables' := by
  unfold deferOrder at h
  rw [unit_bind_ok, unit_bind_ok] at h
  obtain ⟨_, _, h⟩ := h
  dsimp only at h
  split at h
  · rw [unit_bind_ok] at h
    exact .inl (ok.inj h.2).symm
  · exact .inr h

variable {session : EaSession}

theorem leaseCommands_ok {commands : List EaCommand} (h : leaseCommands session now tables = .ok (commands, tables')) :
    tables'.commands = updateWhere (fun row => ((leasable session.accountId now tables).map (·.id)).contains row.id)
        (leaseTo session.sessionId now) tables.commands ∧ tables'.parents = tables.parents := by
  unfold leaseCommands at h
  obtain ⟨leased, _, h⟩ := bind_ok.mp h
  rw [unit_bind_ok] at h
  have h := ok.inj h.2
  rw [Prod.mk.injEq] at h
  rw [← h.2]
  exact ⟨rfl, rfl⟩

theorem manageAccount_ok {remove : Bool} (h : manageAccount copier accountId remove now tables = .ok tables') :
    tables'.commands = (stopCommands accountId (stopRow remove now) tables).commands ∧
      tables'.parents = (stopCommands accountId (stopRow remove now) tables).parents := by
  unfold manageAccount at h
  rw [unit_bind_ok, unit_bind_ok, unit_bind_ok] at h
  obtain ⟨_, _, _, h⟩ := h
  cases h
  exact ⟨rfl, rfl⟩

theorem disconnectManaged_some {expectedRevision : Nat}
    (h : disconnectManaged accountId expectedRevision now tables = some tables') :
    tables'.commands = (stopCommands accountId (fenceRow now) tables).commands ∧
      tables'.parents = (stopCommands accountId (fenceRow now) tables).parents := by
  unfold disconnectManaged at h
  rw [bind_eq_bind, bind_eq_some_iff] at h
  obtain ⟨account, _, h⟩ := h
  split at h
  · split at h
    · cases h
      exact ⟨rfl, rfl⟩
    · cases h
  · cases h

variable {sessionId : Nat}

theorem createSession_ok {account : EaAccountSnapshot} {assignment : Option Bool}
    (h : createSession accountId sessionId account assignment now tables = .ok tables') :
    tables'.commands = tables.commands ∧ tables'.parents = tables.parents := by
  unfold createSession at h
  rw [unit_bind_ok] at h
  cases h.2
  exact ⟨rfl, rfl⟩

theorem authenticate_ok {fenced : Bool} (h : authenticate sessionId fenced now tables = .ok (session, tables')) :
    tables'.commands = tables.commands ∧ tables'.parents = tables.parents := by
  unfold authenticate at h
  obtain ⟨row, _, h⟩ := bind_ok.mp h
  cases h
  exact ⟨rfl, rfl⟩

theorem touchAccount_ok {account : EaAccountSnapshot} (h : touchAccount accountId account tables = .ok tables') :
    tables'.commands = tables.commands ∧ tables'.parents = tables.parents := by
  unfold touchAccount at h
  rw [unit_bind_ok] at h
  cases h.2
  exact ⟨rfl, rfl⟩

/-! ## Row steps -/

inductive FreshRow : TargetCommandRow → Prop where
  | queued (command : EaCommand) (id : String) (hid : command.commandId = some id)
      (parentId accountId key : String) (now : Millis) :
      FreshRow (queuedRow command id hid parentId accountId key now)
  | waiting (intent : OrderIntent) (target : AdminOrderTarget) (now : Millis) :
      FreshRow (waitingRow intent target now)

/-- One change of a row. `stops` says which rows an account stop may end. -/
inductive RowStep (stops : TargetCommandRow → Prop) : TargetCommandRow → TargetCommandRow → Prop
  | expired {row : TargetCommandRow} (now : Millis) (h : deliverable row = true) :
      RowStep stops row (expireDelivery now row)
  | leased {row : TargetCommandRow} (sessionId : Nat) (now : Millis)
      (h : deliverable row = true) : RowStep stops row (leaseTo sessionId now row)
  | held {row : TargetCommandRow} (lease : Nat × Millis) (h : row.status = .waiting) :
      RowStep stops row { row with lease := some lease }
  | released {row : TargetCommandRow} (at' : Millis) (h : row.status = .waiting) :
      RowStep stops row { row with nextAttemptAt := at', lease := none }
  | activated {row : TargetCommandRow} (order : RoutedOrder) (now : Millis)
      (h : row.status = .waiting) : RowStep stops row (activateRow order now row)
  | rejected {row : TargetCommandRow} (code : RouteRejectCode) (message : String) (now : Millis)
      (h : row.status = .waiting) : RowStep stops row (rejectRow code message now row)
  | waitExpired {row : TargetCommandRow} (now : Millis) (h : row.status = .waiting) :
      RowStep stops row (expireWaiting now row)
  | acknowledged {row : TargetCommandRow} {event : EaEvent} {r : Report} (accountId : String)
      (now : Millis) (hr : report event = some r) (h : acknowledges accountId r row = true) :
      RowStep stops row (acknowledgeRow r now row)
  | stopped {row : TargetCommandRow} {accountId : String} (remove : Bool) (now : Millis)
      (h : stoppable accountId row = true) (hs : stops row) :
      RowStep stops row (stopRow remove now row)
  | fenced {row : TargetCommandRow} {accountId : String} (now : Millis)
      (h : stoppable accountId row = true) : RowStep stops row (fenceRow now row)

/-- The rows of `tables'` are those of `tables`, changed by row steps. -/
structure Evolves (stops : TargetCommandRow → Prop) (tables tables' : CommandTables) : Prop where
  back : ∀ row' ∈ tables'.commands, ∃ row ∈ tables.commands,
    Relation.ReflTransGen (RowStep stops) row row'
  forth : ∀ row ∈ tables.commands, ∃ row' ∈ tables'.commands,
    Relation.ReflTransGen (RowStep stops) row row'

variable {stops : TargetCommandRow → Prop} {tables tables' tables'' : CommandTables}

theorem Evolves.of_eq (h : tables'.commands = tables.commands) : Evolves stops tables tables' := by
  constructor
  · intro row hrow
    rw [h] at hrow
    exact ⟨row, hrow, .refl⟩
  · intro row hrow
    rw [← h] at hrow
    exact ⟨row, hrow, .refl⟩

theorem Evolves.trans (h : Evolves stops tables tables') (h' : Evolves stops tables' tables'') :
    Evolves stops tables tables'' := by
  constructor
  · intro row'' hrow''
    obtain ⟨row', hrow', hsteps'⟩ := h'.back row'' hrow''
    obtain ⟨row, hrow, hsteps⟩ := h.back row' hrow'
    exact ⟨row, hrow, hsteps.trans hsteps'⟩
  · intro row hrow
    obtain ⟨row', hrow', hsteps⟩ := h.forth row hrow
    obtain ⟨row'', hrow'', hsteps'⟩ := h'.forth row' hrow'
    exact ⟨row'', hrow'', hsteps.trans hsteps'⟩

variable {p : TargetCommandRow → Bool} {f : TargetCommandRow → TargetCommandRow}

theorem Evolves.of_updateWhere (h : tables'.commands = updateWhere p f tables.commands)
    (hstep : ∀ row ∈ tables.commands, p row = true → RowStep stops row (f row)) :
    Evolves stops tables tables' := by
  constructor
  · intro row' hrow'
    rw [h] at hrow'
    rcases updateWhere_cases hrow' with ⟨hrow, _⟩ | ⟨row, hrow, hp, rfl⟩
    · exact ⟨row', hrow, .refl⟩
    · exact ⟨row, hrow, .single (hstep row hrow hp)⟩
  · intro row hrow
    rw [h]
    exact exists_updateWhere hrow .refl fun hp => .single (hstep row hrow hp)

/-! ## Row ids -/

/-- The primary key. -/
def UniqueIds (tables : CommandTables) : Prop := (tables.commands.map (·.id)).Nodup

theorem UniqueIds.eq_of_id (h : UniqueIds tables) {row other : TargetCommandRow}
    (hrow : row ∈ tables.commands) (hoth : other ∈ tables.commands) (hid : row.id = other.id) :
    row = other :=
  inj_on_of_nodup_map h hrow hoth hid

theorem UniqueIds.of_updateWhere (h : UniqueIds tables) (hcmds : tables'.commands = updateWhere p f tables.commands)
    (hid : ∀ row, (f row).id = row.id) : UniqueIds tables' := by
  unfold UniqueIds
  rw [hcmds, map_updateWhere hid]
  exact h

theorem UniqueIds.of_eq (h : UniqueIds tables) (hcmds : tables'.commands = tables.commands) : UniqueIds tables' := by
  unfold UniqueIds
  rw [hcmds]
  exact h

theorem UniqueIds.insertCommand (h : UniqueIds tables) (hok : insertCommand parent row tables = .ok tables') :
    UniqueIds tables' := by
  obtain ⟨hcmds, _, hnew⟩ := insertCommand_ok hok
  unfold UniqueIds
  rw [hcmds]
  exact nodup_insert h hnew

/-! ## One row in one statement -/

section OneRow

variable {row : TargetCommandRow} {P : TargetCommandRow → Prop}

theorem row_of_updateWhere (hcmds : tables'.commands = updateWhere p f tables.commands)
    (hrow : row ∈ tables.commands) (hid : (f row).id = row.id) (hkept : P row)
    (hstep : p row = true → P (f row)) : ∃ row' ∈ tables'.commands, row'.id = row.id ∧ P row' := by
  rw [hcmds]
  exact exists_updateWhere hrow ⟨rfl, hkept⟩ fun hp => ⟨hid, hstep hp⟩

theorem row_of_eq (hcmds : tables'.commands = tables.commands) (hrow : row ∈ tables.commands)
    (hkept : P row) : ∃ row' ∈ tables'.commands, row'.id = row.id ∧ P row' := by
  rw [hcmds]
  exact ⟨row, hrow, rfl, hkept⟩

theorem row_of_insert {new : TargetCommandRow} (h : insertCommand parent new tables = .ok tables') (hrow : row ∈ tables.commands)
    (hkept : P row) : ∃ row' ∈ tables'.commands, row'.id = row.id ∧ P row' := by
  rw [(insertCommand_ok h).1]
  exact ⟨row, mem_append_left _ hrow, rfl, hkept⟩

end OneRow

@[simp] theorem expireDelivery_id (now : Millis) (row : TargetCommandRow) : (expireDelivery now row).id = row.id := by
  unfold expireDelivery
  split <;> rfl

@[simp] theorem activateRow_id (order : RoutedOrder) (now : Millis) (row : TargetCommandRow) :
    (activateRow order now row).id = row.id := by
  unfold activateRow
  split <;> rfl

@[simp] theorem acknowledgeRow_id (r : Report) (now : Millis) (row : TargetCommandRow) :
    (acknowledgeRow r now row).id = row.id := by
  unfold acknowledgeRow
  split <;> rfl

@[simp] theorem fenceRow_id (now : Millis) (row : TargetCommandRow) : (fenceRow now row).id = row.id := by
  unfold fenceRow
  split <;> rfl

/-! ## The operations, row by row -/

theorem mem_leasable (h : row ∈ leasable accountId now tables) : row ∈ tables.commands ∧ deliverable row = true := by
  have h := mem_of_mem_take h
  rw [mem_insertionSort, mem_filter] at h
  simp only [and_eq_true] at h
  exact ⟨h.1, h.2.1.1.1.2⟩

theorem expireStale_evolves (accountId : String) (now : Millis) : Evolves stops tables (expireStale accountId now tables) := by
  refine .of_updateWhere (p := deliveryExpired accountId now) (f := expireDelivery now) rfl ?_
  intro row _ hp
  unfold deliveryExpired at hp
  simp only [and_eq_true] at hp
  exact .expired now hp.1.1.2

theorem expireStale_ids (h : UniqueIds tables) (accountId : String) (now : Millis) :
    UniqueIds (expireStale accountId now tables) :=
  h.of_updateWhere (p := deliveryExpired accountId now) (f := expireDelivery now) rfl (expireDelivery_id now)

theorem deliverable_of_leasable (h : UniqueIds tables) (hrow : row ∈ tables.commands)
    (hid : ((leasable accountId now tables).map (·.id)).contains row.id = true) :
    deliverable row = true := by
  rw [List.contains_iff_mem, List.mem_map] at hid
  obtain ⟨candidate, hcand, heq⟩ := hid
  obtain ⟨hmem, hdelv⟩ := mem_leasable hcand
  rw [← h.eq_of_id hmem hrow heq]
  exact hdelv

theorem leaseCommands_evolves {commands : List EaCommand}
    (hids : UniqueIds tables) (h : leaseCommands session now tables = .ok (commands, tables')) :
    Evolves stops tables tables' ∧ UniqueIds tables' := by
  obtain ⟨hcmds, _⟩ := leaseCommands_ok h
  refine ⟨.of_updateWhere hcmds fun row hrow hid => ?_, hids.of_updateWhere hcmds fun _ => rfl⟩
  exact .leased session.sessionId now (deliverable_of_leasable hids hrow hid)

theorem waiting_of_due (hids : UniqueIds tables) (hrow : row ∈ tables.commands)
    (hid : ((dueDeferred session now tables).map (·.id)).contains row.id = true) :
    row.status = .waiting := by
  rw [List.contains_iff_mem, List.mem_map] at hid
  obtain ⟨candidate, hcand, heq⟩ := hid
  have hcand := mem_of_mem_take hcand
  rw [mem_insertionSort, mem_filter] at hcand
  simp only [and_eq_true, decide_eq_true_eq] at hcand
  rw [hids.eq_of_id hcand.1 hrow heq] at hcand
  exact hcand.2.1.1.1.1.2

theorem leaseDeferred_evolves (hids : UniqueIds tables) (session : EaSession) (now : Millis) :
    Evolves stops tables (leaseDeferred session now tables) :=
  .of_updateWhere rfl fun _ hrow hid => .held _ (waiting_of_due hids hrow hid)

theorem holdsWaiting_waiting {id : String} (h : holdsWaiting session id row = true) : row.id = id ∧ row.status = .waiting := by
  unfold holdsWaiting at h
  simp only [and_eq_true, decide_eq_true_eq] at h
  exact h.1

theorem acknowledgeRow_status (r : Report) (now : Millis) (row : TargetCommandRow) :
    (acknowledgeRow r now row).status = r.status := by
  unfold acknowledgeRow
  split
  · rename_i h
    exact h.symm
  · rfl

theorem acknowledges_id {r : Report} (h : acknowledges accountId r row = true) : row.id = r.commandId := by
  unfold acknowledges at h
  simp only [and_eq_true, decide_eq_true_eq] at h
  exact h.1.2

theorem applyReport_commands (accountId : String) (now : Millis) (r : Report) :
    (applyReport accountId now r tables).commands
      = updateWhere (acknowledges accountId r) (acknowledgeRow r now) tables.commands := by
  unfold applyReport
  split <;> rfl

/-- What one event of a batch does: nothing, or its report is stored in the row it finds. -/
theorem acknowledge_ok {event : EaEvent} (h : acknowledge accountId now tables event = .ok tables') :
    (report event = none ∧ tables' = tables) ∨ ∃ r, report event = some r ∧
      (∃ row ∈ tables.commands, acknowledges accountId r row = true) ∧
      tables' = applyReport accountId now r tables := by
  unfold acknowledge at h
  split at h
  · rename_i hr
    exact .inl ⟨hr, (ok.inj h).symm⟩
  · rename_i r hr
    split at h
    · have hpos : 0 < tables.commands.countP (acknowledges accountId r) := by omega
      exact .inr ⟨r, hr, countP_pos_iff.mp hpos, (ok.inj h).symm⟩
    · cases h

theorem acknowledge_evolves {event : EaEvent}
    (hids : UniqueIds tables) (h : acknowledge accountId now tables event = .ok tables') :
    Evolves stops tables tables' ∧ UniqueIds tables' := by
  rcases acknowledge_ok h with ⟨_, rfl⟩ | ⟨r, hr, _, rfl⟩
  · exact ⟨.of_eq rfl, hids⟩
  · refine ⟨.of_updateWhere (applyReport_commands accountId now r) ?_,
      hids.of_updateWhere (applyReport_commands accountId now r) (acknowledgeRow_id r now)⟩
    exact fun row _ hp => .acknowledged accountId now hr hp

theorem acknowledgeBatch_invariant (Inv : CommandTables → Prop) :
    ∀ (events : List EaEvent), (∀ event ∈ events, ∀ tables tables', Inv tables →
      acknowledge accountId now tables event = .ok tables' → Inv tables') →
    ∀ (tables tables' : CommandTables), Inv tables →
      acknowledgeBatch accountId now events tables = .ok tables' → Inv tables' := by
  intro events
  induction events with
  | nil =>
    intro _ tables tables' hinv h
    cases h
    exact hinv
  | cons event rest ih =>
    intro hstep tables tables' hinv h
    unfold acknowledgeBatch at h
    rw [foldlM_cons, bind_ok] at h
    obtain ⟨mid, hmid, hrest⟩ := h
    have hinv' := hstep event mem_cons_self tables mid hinv hmid
    exact ih (fun event hevt => hstep event (mem_cons_of_mem _ hevt)) mid tables' hinv' hrest

theorem acknowledgeBatch_evolves {events : List EaEvent} (hids : UniqueIds tables)
    (h : acknowledgeBatch accountId now events tables = .ok tables') :
    Evolves stops tables tables' ∧ UniqueIds tables' := by
  refine acknowledgeBatch_invariant (fun mid => Evolves stops tables mid ∧ UniqueIds mid) events ?_ tables tables'
    ⟨.of_eq rfl, hids⟩ h
  intro event _ mid mid' hinv hmid
  obtain ⟨hevo, hids'⟩ := acknowledge_evolves hinv.2 hmid
  exact ⟨hinv.1.trans hevo, hids'⟩

theorem row_of_batch {events : List EaEvent} (hoth : ∀ event ∈ events, ∀ r, report event = some r → row.id ≠ r.commandId)
    (h : acknowledgeBatch accountId now events tables = .ok tables') (hrow : row ∈ tables.commands) :
    row ∈ tables'.commands := by
  refine acknowledgeBatch_invariant (fun mid => row ∈ mid.commands) events ?_ tables tables' hrow h
  intro event hevt mid mid' hmid hok
  rcases acknowledge_ok hok with ⟨-, rfl⟩ | ⟨r, hr, -, rfl⟩
  · exact hmid
  rw [applyReport_commands]
  refine unmatched_mem hmid fun hack => ?_
  exact hoth event hevt r hr (acknowledges_id hack)

/-! ## One transaction -/

/-- The rows an account stop may end. -/
def StoppedBy (s : QueueState) (action : QueueAction) (row : TargetCommandRow) : Prop :=
  ∃ copier accountId remove now, action = .manageAccount copier accountId remove now ∧
    row ∈ s.tables.commands ∧ stoppable accountId row = true

/-- The rows of the new tables are the old ones, changed by row steps, and fresh ones. -/
structure RowsFrom (s : QueueState) (action : QueueAction) (tables' : CommandTables) : Prop where
  back : ∀ row' ∈ tables'.commands, FreshRow row' ∨ ∃ row ∈ s.tables.commands,
    Relation.ReflTransGen (RowStep (StoppedBy s action)) row row'
  forth : ∀ row ∈ s.tables.commands, ∃ row' ∈ tables'.commands,
    Relation.ReflTransGen (RowStep (StoppedBy s action)) row row'

variable {action : QueueAction}

theorem RowsFrom.of_evolves {s : QueueState} (h : Evolves (StoppedBy s action) s.tables tables') : RowsFrom s action tables' :=
  ⟨fun row' hrow' => .inr (h.back row' hrow'), h.forth⟩

theorem RowsFrom.of_insert {s : QueueState} (hfsh : FreshRow row)
    (h : insertCommand parent row s.tables = .ok tables') : RowsFrom s action tables' := by
  constructor
  · intro row' hrow'
    rw [(insertCommand_ok h).1] at hrow'
    rcases mem_append.mp hrow' with hrow' | hrow'
    · exact .inr ⟨row', hrow', .refl⟩
    · rw [mem_singleton.mp hrow']
      exact .inl hfsh
  · intro old hold
    rw [(insertCommand_ok h).1]
    exact ⟨old, mem_append_left _ hold, .refl⟩

variable {s s' : QueueState}

theorem commit_some {ε : Type} {result : Except ε CommandTables}
    (h : s.commit result = some s') : ∃ tables', result = .ok tables' ∧ s' = s.withTables tables' := by
  unfold commit at h
  obtain ⟨tables', htables, rfl⟩ := map_eq_some_iff.mp h
  cases result with
  | error => exact absurd htables (by simp [Except.toOption])
  | ok =>
    cases htables
    exact ⟨tables', rfl, rfl⟩

theorem asSession_some {next : Option QueueState} (h : s.asSession session next = some s') : next = some s' := by
  unfold asSession at h
  split at h
  · exact h
  · cases h

theorem authenticate_step {fenced : Bool} (h : s.step (.authenticate sessionId fenced now) = some s') :
    s'.tables.commands = s.tables.commands ∧ s'.tables.parents = s.tables.parents ∧ s'.finalizing = s.finalizing := by
  simp only [step] at h
  obtain ⟨⟨session, tables'⟩, hok, rfl⟩ := map_eq_some_iff.mp h
  obtain ⟨hc, hp⟩ := authenticate_ok (toOption_some hok)
  exact ⟨hc, hp, rfl⟩

theorem commit_snd {α ε : Type} {result : Except ε (α × CommandTables)} (h : s.commit (result.map Prod.snd) = some s') :
    ∃ value tables', result = .ok (value, tables') ∧ s' = s.withTables tables' := by
  obtain ⟨tables', hok, rfl⟩ := commit_some h
  cases result with
  | error => exact absurd hok (by simp [Except.map])
  | ok =>
    cases hok
    exact ⟨_, _, rfl, rfl⟩

theorem poll_step (h : s.step (.poll session now) = some s') : ∃ commands tables',
      pollCommands session now s.tables = .ok (commands, tables') ∧ s' = s.withTables tables' :=
  commit_snd (asSession_some h)

/-- The transactions that write no row of a command that is there. -/
def addsOnly : QueueAction → Bool
  | .pair .. | .authenticate .. | .heartbeat .. | .manageTerminals .. | .finalizeRejected ..
  | .enqueue .. | .deferOrder .. => true
  | _ => false

theorem addsOnly_rows (hadds : addsOnly action = true) (h : s.step action = some s') :
    s'.tables.commands = s.tables.commands ∨
      ∃ parent row, FreshRow row ∧ insertCommand parent row s.tables = .ok s'.tables := by
  cases action with
  | pair =>
    obtain ⟨tables', hok, rfl⟩ := commit_some h
    exact .inl (createSession_ok hok).1
  | authenticate => exact .inl (authenticate_step h).1
  | heartbeat =>
    obtain ⟨tables', hok, rfl⟩ := commit_some (asSession_some h)
    exact .inl (touchAccount_ok hok).1
  | manageTerminals | finalizeRejected =>
    simp only [step] at h
    split at h
    · cases h
      exact .inl rfl
    · cases h
  | enqueue copier accountId command now =>
    obtain ⟨tables', hok, rfl⟩ := commit_some h
    rcases enqueue_ok hok with rfl | ⟨id, hid, parentId, key, _, _, hinse⟩
    · exact .inl rfl
    · exact .inr ⟨_, _, .queued command id hid parentId accountId key now, hinse⟩
  | deferOrder intent target now =>
    obtain ⟨tables', hok, rfl⟩ := commit_some h
    rcases deferOrder_ok hok with rfl | hinse
    · exact .inl rfl
    · exact .inr ⟨_, _, .waiting intent target now, hinse⟩
  | _ => cases hadds

/-- **Every step of the queue** adds one fresh row or moves the rows there are, and ids stay unique. -/
theorem step_changes (hids : UniqueIds s.tables) (h : s.step action = some s') :
    ((∃ parent row, FreshRow row ∧ insertCommand parent row s.tables = .ok s'.tables) ∨
      Evolves (StoppedBy s action) s.tables s'.tables) ∧ UniqueIds s'.tables := by
  cases action with
  | pair | authenticate | heartbeat | manageTerminals | finalizeRejected | enqueue | deferOrder =>
    rcases addsOnly_rows rfl h with hc | ⟨parent, row, hfsh, hinse⟩
    · exact ⟨.inr (.of_eq hc), hids.of_eq hc⟩
    · exact ⟨.inl ⟨parent, row, hfsh, hinse⟩, hids.insertCommand hinse⟩
  | poll =>
    obtain ⟨commands, tables', hpoll, rfl⟩ := poll_step h
    obtain ⟨hevo, hids'⟩ := leaseCommands_evolves (expireStale_ids hids _ _) hpoll
    exact ⟨.inr ((expireStale_evolves _ _).trans hevo), hids'⟩
  | acknowledge =>
    obtain ⟨tables', hok, rfl⟩ := commit_some (asSession_some h)
    obtain ⟨hevo, hids'⟩ := acknowledgeBatch_evolves hids hok
    exact ⟨.inr hevo, hids'⟩
  | leaseDeferred session now =>
    cases asSession_some h
    exact ⟨.inr (leaseDeferred_evolves hids session now), hids.of_updateWhere rfl fun _ => rfl⟩
  | releaseDeferred =>
    cases asSession_some h
    exact ⟨.inr (.of_updateWhere rfl fun row _ hp =>
      .released _ (holdsWaiting_waiting hp).2), hids.of_updateWhere rfl fun _ => rfl⟩
  | activateDeferred session order now =>
    cases asSession_some h
    refine ⟨.inr (.of_updateWhere rfl fun row _ hp => ?_), hids.of_updateWhere rfl (activateRow_id order now)⟩
    simp only [and_eq_true] at hp
    exact .activated order now (holdsWaiting_waiting hp.1.1).2
  | rejectDeferred session id accountId code message now =>
    cases asSession_some h
    refine ⟨.inr (.of_updateWhere rfl fun row _ hp => ?_), hids.of_updateWhere rfl fun _ => rfl⟩
    simp only [and_eq_true] at hp
    exact .rejected code message now (holdsWaiting_waiting hp.1).2
  | expireDeferred now =>
    cases h
    refine ⟨.inr (.of_updateWhere rfl fun row _ hp => ?_), hids.of_updateWhere rfl fun _ => rfl⟩
    unfold deferredExpired at hp
    simp only [and_eq_true, decide_eq_true_eq] at hp
    exact .waitExpired now hp.1
  | manageAccount copier accountId remove now =>
    obtain ⟨tables', hok, rfl⟩ := commit_some h
    obtain ⟨hc, _⟩ := manageAccount_ok hok
    refine ⟨.inr (.of_updateWhere hc fun row hrow hp => ?_), hids.of_updateWhere hc fun _ => rfl⟩
    exact .stopped remove now hp ⟨copier, accountId, remove, now, rfl, hrow, hp⟩
  | disconnectManaged accountId expectedRevision now =>
    simp only [step] at h
    obtain ⟨tables', hok, rfl⟩ := map_eq_some_iff.mp h
    obtain ⟨hc, _⟩ := disconnectManaged_some hok
    exact ⟨.inr (.of_updateWhere hc fun row _ hp => .fenced now hp), hids.of_updateWhere hc (fenceRow_id now)⟩

/-- **A transaction changes rows only by row steps, adds only fresh ones, and keeps ids unique.** -/
theorem step_rows (hids : UniqueIds s.tables) (h : s.step action = some s') :
    RowsFrom s action s'.tables ∧ UniqueIds s'.tables := by
  obtain ⟨⟨parent, row, hfsh, hinse⟩ | hevo, hids'⟩ := step_changes hids h
  · exact ⟨.of_insert hfsh hinse, hids'⟩
  · exact ⟨.of_evolves hevo, hids'⟩

/-! ## Ids over a run -/

theorem RowStep.id_eq {row row' : TargetCommandRow} (h : RowStep stops row row') : row'.id = row.id := by
  cases h with
  | expired =>
    unfold expireDelivery
    split <;> rfl
  | activated order now => exact activateRow_id order now _
  | acknowledged =>
    unfold acknowledgeRow
    split <;> rfl
  | fenced now => exact fenceRow_id now _
  | leased | held | released | rejected | waitExpired | stopped => rfl

theorem id_of_history {row row' : TargetCommandRow} (h : Relation.ReflTransGen (RowStep stops) row row') : row'.id = row.id := by
  induction h with
  | refl => rfl
  | tail _ hstep ih => exact hstep.id_eq.trans ih

/-- Ids stay unique, and no row of a run is ever given up. -/
theorem ids_kept {ok : QueueState → QueueAction → Prop} {start s : QueueState}
    (hids : UniqueIds start.tables) (h : Reaches QueueState.step ok start s) :
    UniqueIds s.tables ∧ ∀ row ∈ start.tables.commands, ∃ row' ∈ s.tables.commands, row'.id = row.id := by
  induction h with
  | refl => exact ⟨hids, fun row hrow => ⟨row, hrow, rfl⟩⟩
  | step _ _ hstep ih =>
    obtain ⟨hmid, hkept⟩ := ih
    obtain ⟨hrows, hids'⟩ := step_rows hmid hstep
    refine ⟨hids', fun row hrow => ?_⟩
    obtain ⟨mid, hmem, hid⟩ := hkept row hrow
    obtain ⟨row', hrow', hhist⟩ := hrows.forth mid hmem
    exact ⟨row', hrow', (id_of_history hhist).trans hid⟩

end MarketLens.Commands
