import MarketLens.Copier.Acknowledge

/-!
# A batch of events, delivered again

An EA sends a batch again until it is answered. The gateway writes the events of a batch in one
transaction: each outcome into the queue, the outbox and the copier's links, each trade
transaction into the links that its order opened.
-/

namespace MarketLens.Copier

open List Table Function Store Commands Fallible

/-! ## What is written -/

/-- A link, with the event that its target last told of. -/
structure CopyLink extends LinkRow where
  lastTargetEventId : Option String

/-- A row of `execution_events`. -/
structure StoredEvent where
  accountId : String
  externalEventId : String
  event : EaEvent

/-- The tables the events of an account are written to; the stored events oldest first. -/
structure EventTables where
  commands : CommandTables
  outbox : List OutboxRow
  links : List CopyLink
  events : List StoredEvent

/-- The order and the position that a trade transaction names together. -/
def orderPosition : EaEvent → Option (String × String)
  | .tradeTransaction transaction => do return (← transaction.brokerOrderId, ← transaction.brokerPositionId)
  | _ => none

/-- `batch_position_by_order`: the last transaction of the batch has it. -/
def batchPosition (batch : List EaEvent) (orderId : String) : Option String :=
  ((batch.filterMap orderPosition).reverse.find? (·.1 = orderId)).map (·.2)

/-- The position of the order in the transactions stored before: the latest one, of two at a time the one stored later. -/
def storedPosition (accountId : String) (events : List StoredEvent) (orderId : String) : Option String :=
  let named := events.filterMap fun row => match row.event with
    | .tradeTransaction transaction =>
      if row.accountId = accountId && transaction.brokerOrderId = some orderId && transaction.brokerPositionId ≠ some "" then
        transaction.brokerPositionId.map (transaction.occurredAtMs, ·)
      else none
    | _ => none
  (named.foldl (fun latest row => if latest.any (row.1 < ·.1) then latest else some row) none).map (·.2)

section Persist

variable (shortHash : String → String) (accountId : String) (now : Millis) (batch : List EaEvent)

/-- The position ticket of an accepted order. -/
def brokerPosition (events : List StoredEvent) (report : Report) : Option String :=
  if report.status = .accepted then report.brokerOrderId.bind fun orderId =>
    batchPosition batch orderId <|> storedPosition accountId events orderId
  else none

/-- The report comes to a link. -/
def reachesLink (report : Report) (outbox : List OutboxRow) (link : CopyLink) : Bool :=
  (reportedOutbox report outbox link.toLinkRow).isSome

/-- A link once a report is in. -/
def settleLink (report : Report) (brokerPositionId : Option String) (outbox : List OutboxRow) (link : CopyLink) : CopyLink :=
  { toLinkRow := reportedLink report brokerPositionId outbox now link.toLinkRow
    lastTargetEventId := if reachesLink report outbox link then link.lastTargetEventId <|> some report.commandId
      else link.lastTargetEventId }

/-- The copier's half of an outcome. -/
def recordOutcome (report : Report) (brokerPositionId : Option String) (tables : EventTables) : Except ApiError EventTables := do
  let outbox := updateWhere (·.targetCommandId = some report.commandId) (acknowledgeOutbox report) tables.outbox
  refuseIf (tables.links.any fun link => (reportedOutbox report outbox link.toLinkRow).any fun row =>
      halfTarget report brokerPositionId row link.toLinkRow) internalError
  return { tables with outbox := outbox, links := tables.links.map (settleLink now report brokerPositionId outbox) }

/-- What an outcome event settles for the copier; a trade transaction settles nothing. -/
def settleEvent (event : EaEvent) (tables : EventTables) : Except ApiError EventTables :=
  match report event with
  | some report => recordOutcome now report (brokerPosition accountId batch tables.events report) tables
  | none => .ok tables

/-- The link is no longer open on its target. -/
def finished (link : LinkRow) : Bool :=
  link.lifecycleStatus = .closed || link.lifecycleStatus = .cancelled || link.lifecycleStatus = .orphaned

/-- The order opened the link: it is the ticket of the command that the link remembers. -/
def openedBy (commands : List TargetCommandRow) (outbox : List OutboxRow) (orderId : String) (link : LinkRow) : Bool :=
  link.targetAccountId = accountId && link.metadata.expectedTargetKind = some .position && !finished link
    && outbox.any fun row => opensTarget row && row.groupId = link.groupId && row.targetAccountId = link.targetAccountId
      && commands.any fun command => row.targetCommandId = some command.id && command.targetAccountId = accountId
        && command.brokerOrderId = some orderId
        && (link.metadata.commandId = some command.id || link.metadata.lastCommandId = some command.id)

/-- A link that a trade transaction of its order binds to a position. -/
def bindPosition (positionId identity : String) (link : CopyLink) : CopyLink :=
  { link with
    target := some (.position, positionId)
    lifecycleStatus := .active
    lastTargetEventId := some identity
    revision := link.revision + 1
    updatedAt := now }

/-- The copier's half of a trade transaction. -/
def correlate (event : EaEvent) (tables : EventTables) : EventTables :=
  match orderPosition event with
  | some (orderId, positionId) => { tables with
      links := updateWhere (fun link => openedBy accountId tables.commands.commands tables.outbox orderId link.toLinkRow
          && link.lastTargetEventId ≠ some (eventIdentity shortHash event))
        (bindPosition now positionId (eventIdentity shortHash event)) tables.links }
  | none => tables

/-- One event of a batch. -/
def persistEvent (tables : EventTables) (event : EaEvent) : Except ApiError EventTables := do
  let commands ← acknowledge accountId now tables.commands event
  let settled ← settleEvent accountId now batch event { tables with commands := commands }
  let correlated := correlate shortHash accountId now event settled
  return { correlated with
    events := insertUnless (fun row => row.accountId = accountId && row.externalEventId = eventIdentity shortHash event)
      ⟨accountId, eventIdentity shortHash event, event⟩ correlated.events }

end Persist

/-- `normalize_events` and `persist_database_payload` for the events of a batch. -/
def deliverEvents (shortHash : String → String) (accountId : String) (now : Millis) (batch : List EaEvent)
    (tables : EventTables) : Except ApiError EventTables := do
  let events ← normalizeEvents shortHash batch
  events.foldlM (persistEvent shortHash accountId now events) tables

/-! ## The commands of a batch -/

section Commands

variable {accountId : String} {now : Millis} {first second : Report} {rows : List TargetCommandRow} {row : TargetCommandRow}

variable (accountId now) in
/-- The rows once a report is in. -/
def recordReport (told : Report) (rows : List TargetCommandRow) : List TargetCommandRow :=
  updateWhere (acknowledges accountId told) (acknowledgeRow told now) rows

variable (accountId) in
/-- The row has the outcome of the report, if it takes it at all. -/
def Settled (told : Report) (row : TargetCommandRow) : Prop :=
  acknowledges accountId told row = true → row.status = told.status ∧
    (told.status ≠ .unknown → row.terminal = true ∧ row.rejectCode = none)

variable (accountId) in
/-- One row takes the report, and it has its outcome. -/
structure Told (told : Report) (rows : List TargetCommandRow) : Prop where
  one : rows.countP (acknowledges accountId told) = 1
  settled : ∀ row ∈ rows, Settled accountId told row

/-- Both reports are of the same kind, if they are on one command. -/
def Compatible (first second : Report) : Prop :=
  first.commandId = second.commandId → (first.status = .unknown ↔ second.status = .unknown)

theorem acknowledges_row (hcompatible : Compatible first second) (hsttl : Settled accountId first row)
    (htakes : acknowledges accountId second row = true) :
    acknowledges accountId first (acknowledgeRow second now row) = acknowledges accountId first row := by
  unfold Settled acknowledges TargetCommandRow.terminal at hsttl
  unfold Compatible at hcompatible
  unfold acknowledges TargetCommandRow.terminal at htakes
  unfold acknowledges acknowledgeRow TargetCommandRow.terminal
  grind

theorem Settled.taken (hcompatible : Compatible first second) (hsttl : Settled accountId first row)
    (htakes : acknowledges accountId second row = true) : Settled accountId first (acknowledgeRow second now row) := by
  intro hfs
  rw [acknowledges_row hcompatible hsttl htakes] at hfs
  have hleft := hsttl hfs
  unfold acknowledges TargetCommandRow.terminal at hfs htakes
  unfold Compatible at hcompatible
  unfold acknowledgeRow TargetCommandRow.terminal at *
  grind

theorem acknowledges_self (htakes : acknowledges accountId first row = true) :
    acknowledges accountId first (acknowledgeRow first now row) = true ∧ Settled accountId first (acknowledgeRow first now row) := by
  unfold Settled acknowledges TargetCommandRow.terminal at *
  unfold acknowledgeRow
  grind

theorem Told.recorded (hcompatible : Compatible first second) (h : Told accountId first rows) :
    Told accountId first (recordReport accountId now second rows) := by
  refine ⟨?_, fun row hrow => ?_⟩
  · rw [← h.one, recordReport, updateWhere, countP_map]
    refine countP_congr fun row hrow => ?_
    dsimp only [comp_apply]
    split
    next htakes => rw [acknowledges_row hcompatible (h.settled row hrow) htakes]
    next => rfl
  · obtain ⟨hold, -⟩ | ⟨old, hold, htakes, rfl⟩ := updateWhere_cases hrow
    · exact h.settled row hold
    · exact (h.settled old hold).taken hcompatible htakes

theorem told_recorded (hone : rows.countP (acknowledges accountId first) = 1) :
    Told accountId first (recordReport accountId now first rows) := by
  refine ⟨?_, fun row hrow => ?_⟩
  · rw [← hone, recordReport, updateWhere, countP_map]
    refine countP_congr fun row hrow => ?_
    dsimp only [comp_apply]
    split
    next htakes => simp [htakes, (acknowledges_self htakes).1]
    next => rfl
  · obtain ⟨-, hpasses⟩ | ⟨old, -, htakes, rfl⟩ := updateWhere_cases hrow
    · exact fun htakes => absurd (hpasses.symm.trans htakes) Bool.false_ne_true
    · exact (acknowledges_self htakes).2

/-- What the queue says of its commands: their outcomes and when they were settled. -/
def outcomes (rows : List TargetCommandRow) : List (String × TargetStatus × Option Millis) :=
  rows.map fun row => (row.id, row.status, row.terminalAckAt)

theorem Told.outcomes_recorded (h : Told accountId first rows) : outcomes (recordReport accountId now first rows) = outcomes rows := by
  unfold outcomes recordReport updateWhere
  rw [map_map]
  refine map_congr_left fun row hrow => ?_
  dsimp only [comp_apply]
  split
  next htakes =>
    obtain ⟨hstat, hleft⟩ := h.settled row hrow htakes
    by_cases hunk : first.status = .unknown
    · simp [acknowledgeRow, hunk, hstat]
    · obtain ⟨time, htime⟩ := Option.isSome_iff_exists.mp (hleft hunk).1
      simp [acknowledgeRow, hunk, hstat, htime]
  next => rfl

variable (accountId) in
/-- No row of the command waits for its outcome. -/
def Closed (commandId : String) (rows : List TargetCommandRow) : Prop :=
  ∀ row ∈ rows, row.targetAccountId = accountId → row.id = commandId → row.terminal = true

theorem Closed.recorded {commandId : String} (h : Closed accountId commandId rows) :
    Closed accountId commandId (recordReport accountId now first rows) := by
  intro row hrow hacct hid
  obtain ⟨hold, -⟩ | ⟨old, hold, htakes, rfl⟩ := updateWhere_cases hrow
  · exact h row hold hacct hid
  · have hclsd := h old hold
    unfold acknowledges at htakes
    unfold acknowledgeRow TargetCommandRow.terminal at *
    grind

theorem closed_recorded (hstat : first.status ≠ .unknown) : Closed accountId first.commandId (recordReport accountId now first rows) := by
  intro row hrow hacct hid
  obtain ⟨-, hpasses⟩ | ⟨old, -, htakes, rfl⟩ := updateWhere_cases hrow
  · unfold acknowledges at hpasses
    grind
  · simp [acknowledgeRow, hstat, TargetCommandRow.terminal]

theorem Closed.refuses (h : Closed accountId first.commandId rows) (hstat : first.status = .unknown) :
    rows.countP (acknowledges accountId first) = 0 := by
  rw [countP_eq_zero]
  intro row hrow htakes
  have hclsd := h row hrow
  unfold acknowledges at htakes
  grind

end Commands

/-! ## The links of a batch -/

/-- Links that are left alone or written, with the revisions going up where they are written. -/
def Grown (links links' : List CopyLink) : Prop :=
  ∃ write : CopyLink → CopyLink, links' = links.map write ∧ ∀ link, write link = link ∨ link.revision < (write link).revision

theorem Grown.trans {links links' links'' : List CopyLink} (h : Grown links links') (h' : Grown links' links'') : Grown links links'' := by
  obtain ⟨write, rfl, hwrite⟩ := h
  obtain ⟨write', rfl, hwrite'⟩ := h'
  refine ⟨write' ∘ write, map_map .., fun link => ?_⟩
  have hfs := hwrite link
  have hsec := hwrite' (write link)
  dsimp only [comp_apply]
  grind

/-- Links that are in the end what they were have not been written. -/
theorem Grown.same {links links' : List CopyLink} (h : Grown links links') (h' : Grown links' links) : links' = links := by
  obtain ⟨write, rfl, hwrite⟩ := h
  obtain ⟨write', hback, hwrite'⟩ := h'
  rw [map_map] at hback
  -- revisions only rise, so what comes back in the end was never written
  have hid : ∀ link ∈ links, (write' ∘ write) link = id link := map_eq_map_iff.mp (hback.symm.trans (map_id links).symm)
  refine (map_congr_left fun link hlink => ?_).trans (map_id links)
  have hfs := hwrite link
  have hsec := hwrite' (write link)
  have hsame := hid link hlink
  dsimp only [comp_apply, id] at hsame ⊢
  grind

section Links

variable {shortHash : String → String} {accountId : String} {now : Millis} {batch : List EaEvent} {tables tables' : EventTables}
  {event : EaEvent}

variable (accountId) in
/-- The event is a trade transaction of the order that opened the link. -/
def correlates (tables : EventTables) (event : EaEvent) (link : CopyLink) : Prop :=
  ∃ order ∈ orderPosition event, openedBy accountId tables.commands.commands tables.outbox order.1 link.toLinkRow = true

variable (shortHash accountId) in
/-- The event writes the link. -/
def writes (tables : EventTables) (event : EaEvent) (link : CopyLink) : Prop :=
  (∃ told, report event = some told ∧ reachesLink told tables.outbox link = true) ∨
    correlates accountId tables event link ∧ link.lastTargetEventId ≠ some (eventIdentity shortHash event)

/-- What a row of the outbox is found by. -/
def outboxKey (row : OutboxRow) : Option String × Uuid × String × String :=
  (row.targetCommandId, row.groupId, row.targetAccountId, row.commandType)

/-- What one event does. -/
structure Persisted (shortHash : String → String) (accountId : String) (now : Millis) (tables : EventTables) (event : EaEvent)
    (tables' : EventTables) : Prop where
  commands : ∀ told, report event = some told → tables.commands.commands.countP (acknowledges accountId told) = 1 ∧
    tables'.commands.commands = recordReport accountId now told tables.commands.commands
  quiet : report event = none → tables'.commands = tables.commands
  outbox : tables'.outbox.map outboxKey = tables.outbox.map outboxKey
  links : ∃ write : CopyLink → CopyLink, tables'.links = tables.links.map write ∧ ∀ link,
    (¬ writes shortHash accountId tables event link → write link = link) ∧
    (writes shortHash accountId tables event link → (write link).revision = link.revision + 1) ∧
    (report event = none → writes shortHash accountId tables event link →
      finished (write link).toLinkRow = finished link.toLinkRow ∧ (write link).lastTargetEventId = some (eventIdentity shortHash event)) ∧
    (write link).groupId = link.groupId ∧ (write link).targetAccountId = link.targetAccountId ∧ (write link).metadata = link.metadata

variable {told : Report} {outbox : List OutboxRow}

theorem reachesLink_of_keys {outbox' : List OutboxRow} (hkeys : outbox'.map outboxKey = outbox.map outboxKey)
    (link : CopyLink) : reachesLink told outbox' link = reachesLink told outbox link := by
  have hany : ∀ rows : List OutboxRow, reachesLink told rows link = (rows.map outboxKey).any fun key =>
      key.1 = some told.commandId && key.2.1 = link.groupId && key.2.2.1 = link.targetAccountId
        && (link.metadata.commandId = some told.commandId || link.metadata.lastCommandId = some told.commandId) := by
    intro rows
    rw [reachesLink, reportedOutbox, isSome_find?, any_map]
    rfl
  rw [hany, hany, hkeys]

theorem acknowledgeOutbox_keys (told : Report) (outbox : List OutboxRow) :
    (updateWhere (·.targetCommandId = some told.commandId) (acknowledgeOutbox told) outbox).map outboxKey = outbox.map outboxKey := by
  refine map_updateWhere_of (fun row htold => ?_) _
  simp only [outboxKey, acknowledgeOutbox, of_decide_eq_true htold]
  rfl

variable {brokerPositionId : Option String}

theorem recordOutcome_ok (h : recordOutcome now told brokerPositionId tables = .ok tables') :
    tables'.commands = tables.commands ∧ tables'.outbox.map outboxKey = tables.outbox.map outboxKey ∧
      tables'.links = tables.links.map (settleLink now told brokerPositionId tables'.outbox) := by
  obtain ⟨-, hleft⟩ := unit_bind_ok.mp h
  cases hleft
  exact ⟨rfl, acknowledgeOutbox_keys .., rfl⟩

variable {link : CopyLink}

theorem settleLink_unreached
    (h : reachesLink told outbox link = false) : settleLink now told brokerPositionId outbox link = link := by
  have hnone : reportedOutbox told outbox link.toLinkRow = none := by simpa [reachesLink] using h
  simp [settleLink, reportedLink, hnone, h]

theorem settleLink_reached
    (h : reachesLink told outbox link = true) : (settleLink now told brokerPositionId outbox link).revision = link.revision + 1 := by
  obtain ⟨row, hrow⟩ := Option.isSome_iff_exists.mp h
  simp [settleLink, reportedLink, hrow, acknowledgeLink]

theorem settleLink_kept (told : Report) (brokerPositionId : Option String) (outbox : List OutboxRow) (link : CopyLink) :
    (settleLink now told brokerPositionId outbox link).groupId = link.groupId ∧
      (settleLink now told brokerPositionId outbox link).targetAccountId = link.targetAccountId ∧
      (settleLink now told brokerPositionId outbox link).metadata = link.metadata := by
  dsimp only [settleLink, reportedLink]
  split <;> exact ⟨rfl, rfl, rfl⟩

theorem persistReport_ok {commands : CommandTables} {events : List StoredEvent} (hrpt : report event = some told)
    (hord : orderPosition event = none) (hcmds : acknowledge accountId now tables.commands event = .ok commands)
    (hsttl : settleEvent accountId now batch event { tables with commands := commands } = .ok tables') :
    Persisted shortHash accountId now tables event { correlate shortHash accountId now event tables' with events := events } := by
  simp only [settleEvent, hrpt] at hsttl
  obtain ⟨hque, houtbox, hlinks⟩ := recordOutcome_ok hsttl
  simp only [acknowledge, hrpt] at hcmds
  split at hcmds
  next hone =>
    cases hcmds
    have hrows : tables'.commands.commands = recordReport accountId now told tables.commands.commands := by
      rw [hque]
      dsimp only [applyReport]
      split <;> rfl
    have hrch : ∀ link, writes shortHash accountId tables event link ↔ reachesLink told tables'.outbox link = true := by
      intro link
      rw [reachesLink_of_keys houtbox]
      exact ⟨fun hwrites => by simpa [writes, correlates, hrpt, hord] using hwrites, fun hreaches => .inl ⟨told, hrpt, hreaches⟩⟩
    simp only [correlate, hord]
    have hsome : report event ≠ none := fun hnone => Option.some_ne_none _ (hrpt.symm.trans hnone)
    refine ⟨fun other hoth => ?_, fun hnone => absurd hnone hsome, houtbox, _, hlinks,
      fun link => ⟨?_, ?_, fun hnone => absurd hnone hsome, ?_⟩⟩
    · cases hrpt.symm.trans hoth
      exact ⟨hone, hrows⟩
    · exact fun hquiet => settleLink_unreached (Bool.not_eq_true _ ▸ mt (hrch link).mpr hquiet)
    · exact fun hwrites => settleLink_reached ((hrch link).mp hwrites)
    · exact settleLink_kept ..
  next => cases hcmds

theorem persistEvent_ok (h : persistEvent shortHash accountId now batch tables event = .ok tables') :
    Persisted shortHash accountId now tables event tables' := by
  obtain ⟨commands, hcmds, hrest⟩ := bind_ok.mp h
  obtain ⟨settled, hsttl, hleft⟩ := bind_ok.mp hrest
  cases hleft
  cases event with
  | tradeTransaction transaction =>
    cases hcmds
    cases hsttl
    have hwrites : ∀ link, writes shortHash accountId tables (.tradeTransaction transaction) link ↔
        correlates accountId tables (.tradeTransaction transaction) link ∧
          link.lastTargetEventId ≠ some (eventIdentity shortHash (.tradeTransaction transaction)) :=
      fun link => or_iff_right fun ⟨told, htold, _⟩ => Option.some_ne_none told htold.symm
    unfold correlate
    split
    next order position hord =>
      have hcond : ∀ link : CopyLink, (openedBy accountId tables.commands.commands tables.outbox order link.toLinkRow
          && link.lastTargetEventId ≠ some (eventIdentity shortHash (.tradeTransaction transaction))) = true ↔
            writes shortHash accountId tables (.tradeTransaction transaction) link := by
        intro link
        rw [hwrites, correlates, hord]
        simp
      refine ⟨nofun, fun _ => rfl, rfl, _, rfl, fun link => ?_⟩
      by_cases hlink : writes shortHash accountId tables (.tradeTransaction transaction) link
      · have hopen : finished link.toLinkRow = false := by
          obtain ⟨⟨_, -, hopened⟩, -⟩ := (hwrites link).mp hlink
          unfold openedBy at hopened
          grind
        rw [if_pos ((hcond link).mpr hlink)]
        exact ⟨fun hquiet => absurd hlink hquiet, fun _ => rfl, fun _ _ => ⟨hopen.symm, rfl⟩, rfl, rfl, rfl⟩
      · rw [if_neg (mt (hcond link).mp hlink)]
        exact ⟨fun _ => rfl, fun hwritten => absurd hwritten hlink, fun _ hwritten => absurd hwritten hlink, rfl, rfl, rfl⟩
    next hnone =>
      have hquiet : ∀ link, ¬ writes shortHash accountId tables (.tradeTransaction transaction) link := by
        intro link hlink
        obtain ⟨⟨order, hord, -⟩, -⟩ := (hwrites link).mp hlink
        cases hnone.symm.trans hord
      exact ⟨nofun, fun _ => rfl, rfl, id, (map_id _).symm, fun link => ⟨fun _ => rfl, fun hlink => absurd hlink (hquiet link),
        fun _ hlink => absurd hlink (hquiet link), rfl, rfl, rfl⟩⟩
  | commandAccepted | commandRejected | commandUnknown => exact persistReport_ok rfl rfl hcmds hsttl

theorem recordOutcome_succeeds (hunreached : ∀ link ∈ tables.links, reachesLink told tables.outbox link = false) :
    ∃ tables', recordOutcome now told brokerPositionId tables = .ok tables' := by
  refine ⟨_, unit_bind_ok.mpr ⟨refuseIf_ok.mpr (any_eq_false.mpr fun link hlink => ?_), rfl⟩⟩
  have hnone := (reachesLink_of_keys (acknowledgeOutbox_keys told tables.outbox) link).trans (hunreached link hlink)
  rw [reachesLink, Option.isSome_eq_false_iff, Option.isNone_iff_eq_none] at hnone
  simp [hnone]

theorem persistEvent_succeeds
    (htold : ∀ told, report event = some told → tables.commands.commands.countP (acknowledges accountId told) = 1 ∧
      ∀ link ∈ tables.links, reachesLink told tables.outbox link = false) :
    ∃ tables', persistEvent shortHash accountId now batch tables event = .ok tables' := by
  unfold persistEvent acknowledge settleEvent
  cases hrpt : report event with
  | none => exact ⟨_, rfl⟩
  | some told =>
    obtain ⟨hone, hunreached⟩ := htold told hrpt
    obtain ⟨settled, hsttl⟩ : ∃ settled, recordOutcome now told (brokerPosition accountId batch tables.events told)
        { tables with commands := applyReport accountId now told tables.commands } = .ok settled := recordOutcome_succeeds hunreached
    exact ⟨_, bind_ok.mpr ⟨_, if_pos hone, bind_ok.mpr ⟨settled, hsttl, rfl⟩⟩⟩

/-- What the outbox finds a link by, of one row. -/
def finds (key : Option String × Uuid × String × String) (link : CopyLink) (commandId : String) : Prop :=
  key.1 = some commandId ∧ key.2.1 = link.groupId ∧ key.2.2.1 = link.targetAccountId ∧
    (link.metadata.commandId = some commandId ∨ link.metadata.lastCommandId = some commandId)

theorem reachesLink_iff : reachesLink told outbox link = true ↔ ∃ key ∈ outbox.map outboxKey, finds key link told.commandId := by
  rw [reachesLink, reportedOutbox, isSome_find?]
  simp only [any_eq_true, mem_map, finds, outboxKey, Bool.and_eq_true, Bool.or_eq_true, decide_eq_true_eq]
  grind

theorem openedBy_iff {rows : List TargetCommandRow} {orderId : String} :
    openedBy accountId rows outbox orderId link.toLinkRow = true ↔
      (link.targetAccountId = accountId ∧ link.metadata.expectedTargetKind = some .position ∧ finished link.toLinkRow = false) ∧
        ∃ key ∈ outbox.map outboxKey, (key.2.2.2 = "place" ∨ key.2.2.2 = "open_market") ∧
          ∃ row ∈ rows, row.targetAccountId = accountId ∧ row.brokerOrderId = some orderId ∧ finds key link row.id := by
  simp only [openedBy, opensTarget, any_eq_true, mem_map, finds, outboxKey, Bool.and_eq_true, Bool.or_eq_true, decide_eq_true_eq,
    Bool.not_eq_true']
  grind

theorem openedBy_recorded {rows : List TargetCommandRow} {orderId : String} (hunreached : reachesLink told outbox link = false) :
    openedBy accountId (recordReport accountId now told rows) outbox orderId link.toLinkRow = true ↔
      openedBy accountId rows outbox orderId link.toLinkRow = true := by
  rw [openedBy_iff, openedBy_iff]
  refine and_congr_right fun _ => exists_congr fun key => and_congr_right fun hkey => and_congr_right fun _ => ?_
  -- the report reaches no link, so the command it settles is not the one that opened this link
  have hoth : ¬ finds key link told.commandId := fun hfinds =>
    Bool.false_ne_true (hunreached.symm.trans (reachesLink_iff.mpr ⟨key, hkey, hfinds⟩))
  constructor
  · rintro ⟨row, hrow, hacct, hord, hfinds⟩
    obtain ⟨hold, -⟩ | ⟨old, -, htakes, rfl⟩ := updateWhere_cases hrow
    · exact ⟨row, hold, hacct, hord, hfinds⟩
    · unfold acknowledges at htakes
      unfold acknowledgeRow at hfinds
      grind
  · rintro ⟨row, hrow, hacct, hord, hfinds⟩
    refine ⟨row, unmatched_mem hrow (fun htakes => hoth ?_), hacct, hord, hfinds⟩
    unfold acknowledges at htakes
    grind

theorem finds_congr {link' : CopyLink} (hgrp : link'.groupId = link.groupId)
    (hacct : link'.targetAccountId = link.targetAccountId) (hmetadata : link'.metadata = link.metadata) {commandId : String} :
    finds key link' commandId ↔ finds key link commandId := by
  rw [finds, finds, hgrp, hacct, hmetadata]

theorem orderPosition_report (hrpt : report event = some told) : orderPosition event = none := by
  cases event with
  | tradeTransaction => cases hrpt
  | commandAccepted | commandRejected | commandUnknown => rfl

namespace Persisted

variable (h : Persisted shortHash accountId now tables event tables')
include h

theorem follows
    (hunreached : ∀ told, report event = some told → ∀ link ∈ tables.links, reachesLink told tables.outbox link = false) :
    ∃ write : CopyLink → CopyLink, tables'.links = tables.links.map write ∧ ∀ link ∈ tables.links,
      (∀ told, reachesLink told tables'.outbox (write link) = reachesLink told tables.outbox link) ∧
      (∀ other, correlates accountId tables' other (write link) ↔ correlates accountId tables other link) ∧
      (write link = link ∧ ¬ writes shortHash accountId tables event link ∨
        writes shortHash accountId tables event link ∧ correlates accountId tables event link ∧
          (write link).lastTargetEventId = some (eventIdentity shortHash event)) := by
  obtain ⟨write, hlinks, hwrite⟩ := h.links
  refine ⟨write, hlinks, fun link hlink => ?_⟩
  obtain ⟨hquiet, -, hbnd, hgrp, hacct, hmetadata⟩ := hwrite link
  -- an outcome that wrote the link would have reached it, so a transaction did
  have hnone : writes shortHash accountId tables event link → report event = none ∧ correlates accountId tables event link := by
    rintro (⟨told, htold, hreaches⟩ | ⟨hcorrelates, -⟩)
    · exact absurd ((hunreached told htold link hlink).symm.trans hreaches) Bool.false_ne_true
    refine ⟨Option.eq_none_iff_forall_not_mem.mpr fun told htold => ?_, hcorrelates⟩
    obtain ⟨order, hord, -⟩ := hcorrelates
    cases (orderPosition_report htold).symm.trans hord
  have hfin : finished (write link).toLinkRow = finished link.toLinkRow := by
    by_cases hwrites : writes shortHash accountId tables event link
    · exact (hbnd (hnone hwrites).1 hwrites).1
    · rw [hquiet hwrites]
  refine ⟨fun told => ?_, fun other => exists_congr fun order => and_congr_right fun _ => ?_, ?_⟩
  · rw [Bool.eq_iff_iff, reachesLink_iff, reachesLink_iff, h.outbox]
    exact exists_congr fun key => and_congr_right fun _ => finds_congr hgrp hacct hmetadata
  · have hsame : openedBy accountId tables'.commands.commands tables'.outbox order.1 (write link).toLinkRow = true ↔
        openedBy accountId tables'.commands.commands tables.outbox order.1 link.toLinkRow = true := by
      rw [openedBy_iff, openedBy_iff, h.outbox, hfin, hacct, hmetadata]
      simp only [finds_congr hgrp hacct hmetadata]
    rw [hsame]
    cases hrpt : report event with
    | none => rw [h.quiet hrpt]
    | some told => rw [(h.commands told hrpt).2, openedBy_recorded (hunreached told hrpt link hlink)]
  · by_cases hwrites : writes shortHash accountId tables event link
    · exact .inr ⟨hwrites, (hnone hwrites).2, (hbnd (hnone hwrites).1 hwrites).2⟩
    · exact .inl ⟨hquiet hwrites, hwrites⟩

theorem grown : Grown tables.links tables'.links := by
  obtain ⟨write, hlinks, hwrite⟩ := h.links
  refine ⟨write, hlinks, fun link => ?_⟩
  by_cases hwrites : writes shortHash accountId tables event link
  · exact .inr (by rw [(hwrite link).2.1 hwrites]; exact Nat.lt_succ_self _)
  · exact .inl ((hwrite link).1 hwrites)

theorem unwritten (hsame : tables'.links = tables.links)
    {link : CopyLink} (hlink : link ∈ tables.links) : ¬ writes shortHash accountId tables event link := by
  obtain ⟨write, hlinks, hwrite⟩ := h.links
  intro hwrites
  have hid : write link = id link := map_eq_map_iff.mp (hlinks.symm.trans (hsame.trans (map_id _).symm)) link hlink
  have hrev := (hwrite link).2.1 hwrites
  rw [hid] at hrev
  exact Nat.succ_ne_self _ hrev.symm

theorem closed {commandId : String}
    (hclsd : Closed accountId commandId tables.commands.commands) : Closed accountId commandId tables'.commands.commands := by
  cases hrpt : report event with
  | none => exact h.quiet hrpt ▸ hclsd
  | some told => exact (h.commands told hrpt).2 ▸ hclsd.recorded

end Persisted

/-! ## Batches that can be delivered again -/

variable {events done rest : List EaEvent}

/-- No outcome of the batch reaches a link. -/
def Unlinked (events : List EaEvent) (tables : EventTables) : Prop :=
  ∀ event ∈ events, ∀ told, report event = some told → ∀ link ∈ tables.links, reachesLink told tables.outbox link = false

theorem Unlinked.step {write : CopyLink → CopyLink} (h : Unlinked events tables) (hlinks : tables'.links = tables.links.map write)
    (hreaches : ∀ link ∈ tables.links, ∀ told, reachesLink told tables'.outbox (write link) = reachesLink told tables.outbox link) :
    Unlinked events tables' := by
  intro event hevt told htold link' hlink'
  rw [hlinks] at hlink'
  obtain ⟨link, hlink, rfl⟩ := mem_map.mp hlink'
  exact (hreaches link hlink told).trans (h event hevt told htold link hlink)

variable (accountId) in
/-- A batch that leaves its own traces alone: the outcomes of one command are all unknown or all final, no outcome reaches a link,
and no link is of the orders of two transactions. -/
structure Replayable (events : List EaEvent) (tables : EventTables) : Prop where
  alike : ∀ first ∈ events, ∀ second ∈ events, ∀ told told', report first = some told → report second = some told' →
    Compatible told told'
  unlinked : Unlinked events tables
  single : ∀ link ∈ tables.links, ∀ first ∈ events, ∀ second ∈ events, correlates accountId tables first link →
    correlates accountId tables second link → first = second

variable (shortHash accountId) in
/-- A batch that can be delivered again, with the traces of the events that are done. -/
structure Traced (events done : List EaEvent) (tables : EventTables) : Prop extends Replayable accountId events tables where
  told : ∀ event ∈ done, ∀ told, report event = some told → Told accountId told tables.commands.commands
  marked : ∀ event ∈ done, ∀ link ∈ tables.links, correlates accountId tables event link →
    link.lastTargetEventId = some (eventIdentity shortHash event)

namespace Traced

theorem step (h : Traced shortHash accountId events done tables) (hdone : ∀ other ∈ done, other ∈ events) (hevt : event ∈ events)
    (hpersisted : Persisted shortHash accountId now tables event tables') :
    Traced shortHash accountId events (event :: done) tables' := by
  obtain ⟨write, hlinks, hfoll⟩ := hpersisted.follows fun told htold => h.unlinked event hevt told htold
  refine ⟨⟨h.alike, h.unlinked.step hlinks fun link hlink => (hfoll link hlink).1, ?_⟩, ?_, ?_⟩
  · intro link' hlink' first hfs second hsec hone htwo
    rw [hlinks] at hlink'
    obtain ⟨link, hlink, rfl⟩ := mem_map.mp hlink'
    exact h.single link hlink first hfs second hsec (((hfoll link hlink).2.1 first).mp hone)
      (((hfoll link hlink).2.1 second).mp htwo)
  -- a stored outcome stands: a later one of its command is of its kind
  · intro other hoth told htold
    rcases mem_cons.mp hoth with rfl | hoth
    · obtain ⟨hone, hrows⟩ := hpersisted.commands told htold
      exact hrows ▸ told_recorded hone
    · have hbef := h.told other hoth told htold
      cases hrpt : report event with
      | none => exact hpersisted.quiet hrpt ▸ hbef
      | some second =>
        rw [(hpersisted.commands second hrpt).2]
        exact hbef.recorded (h.alike other (hdone other hoth) event hevt told second htold hrpt)
  -- a link that the event writes is of no other transaction, so no mark is lost
  · intro other hoth link' hlink' hcorrelates
    rw [hlinks] at hlink'
    obtain ⟨link, hlink, rfl⟩ := mem_map.mp hlink'
    obtain ⟨-, hkept, hwritten⟩ := hfoll link hlink
    have hlinked := (hkept other).mp hcorrelates
    rcases hwritten with ⟨hsame, hquiet⟩ | ⟨-, hevs, hlast⟩
    · rw [hsame]
      rcases mem_cons.mp hoth with rfl | hoth
      · by_contra hlast
        exact hquiet (.inr ⟨hlinked, hlast⟩)
      · exact h.marked other hoth link hlink hlinked
    · rcases mem_cons.mp hoth with rfl | hoth
      · exact hlast
      · rw [h.single link hlink other (hdone other hoth) event hevt hlinked hevs]
        exact hlast

theorem deliver (h : Traced shortHash accountId events done tables) (hdone : ∀ other ∈ done, other ∈ events)
    (hrest : ∀ other ∈ rest, other ∈ events)
    (hok : rest.foldlM (persistEvent shortHash accountId now batch) tables = .ok tables') :
    Traced shortHash accountId events (rest ++ done) tables' := by
  induction rest generalizing done tables with
  | nil =>
    cases hok
    exact h
  | cons event rest ih =>
    rw [foldlM_cons] at hok
    obtain ⟨mid, hmid, hleft⟩ := bind_ok.mp hok
    have hevt := hrest event mem_cons_self
    have hnext := ih (h.step hdone hevt (persistEvent_ok hmid)) (by simpa [hevt] using hdone)
      (fun other hoth => hrest other (mem_cons_of_mem _ hoth)) hleft
    refine ⟨hnext.toReplayable, fun other hoth => hnext.told other ?_, fun other hoth => hnext.marked other ?_⟩ <;>
      simpa [or_left_comm] using hoth

/-- Delivered again, they leave what was there. -/
theorem again (h : Traced shortHash accountId events events tables) (hrest : ∀ other ∈ rest, other ∈ events) :
    ∃ tables', rest.foldlM (persistEvent shortHash accountId now batch) tables = .ok tables' ∧
      outcomes tables'.commands.commands = outcomes tables.commands.commands ∧ tables'.links = tables.links := by
  induction rest generalizing tables with
  | nil => exact ⟨tables, rfl, rfl, rfl⟩
  | cons event rest ih =>
    have hevt := hrest event mem_cons_self
    obtain ⟨mid, hmid⟩ : ∃ mid, persistEvent shortHash accountId now batch tables event = .ok mid :=
      persistEvent_succeeds fun told htold => ⟨(h.told event hevt told htold).one, h.unlinked event hevt told htold⟩
    have hpersisted := persistEvent_ok hmid
    have hnext := h.step (fun _ hoth => hoth) hevt hpersisted
    -- the event is among those done, so its traces are there already
    have htraced : Traced shortHash accountId events events mid :=
      ⟨hnext.toReplayable, fun other hoth => hnext.told other (mem_cons_of_mem _ hoth),
        fun other hoth => hnext.marked other (mem_cons_of_mem _ hoth)⟩
    obtain ⟨tables', hok, houtcomes, hlinks⟩ := ih htraced fun other hoth => hrest other (mem_cons_of_mem _ hoth)
    refine ⟨tables', by rw [foldlM_cons]; exact bind_ok.mpr ⟨mid, hmid, hok⟩, houtcomes.trans ?_, hlinks.trans ?_⟩
    · cases hrpt : report event with
      | none => rw [hpersisted.quiet hrpt]
      | some told =>
        rw [(hpersisted.commands told hrpt).2]
        exact (h.told event hevt told hrpt).outcomes_recorded
    · obtain ⟨write, hwrite, hfoll⟩ := hpersisted.follows fun told htold => h.unlinked event hevt told htold
      rw [hwrite]
      refine (map_congr_left fun link hlink => ?_).trans (map_id _)
      rcases (hfoll link hlink).2.2 with ⟨hsame, -⟩ | ⟨hreaches | ⟨-, hlast⟩, hcorrelates, -⟩
      · exact hsame
      · obtain ⟨told, htold, hreaches⟩ := hreaches
        exact absurd ((h.unlinked event hevt told htold link hlink).symm.trans hreaches) Bool.false_ne_true
      · exact absurd (h.marked event hevt link hlink hcorrelates) hlast

end Traced

section Delivered

variable (hok : rest.foldlM (persistEvent shortHash accountId now batch) tables = .ok tables')
include hok

theorem delivered_grown : Grown tables.links tables'.links := by
  induction rest generalizing tables with
  | nil =>
    cases hok
    exact ⟨id, (map_id _).symm, fun _ => .inl rfl⟩
  | cons event rest ih =>
    rw [foldlM_cons] at hok
    obtain ⟨mid, hmid, hleft⟩ := bind_ok.mp hok
    exact (persistEvent_ok hmid).grown.trans (ih hleft)

theorem delivered_keeps {Fact : EventTables → Prop}
    (hkeeps : ∀ event ∈ rest, ∀ mid next, Persisted shortHash accountId now mid event next → Fact mid → Fact next)
    (hstart : Fact tables) : Fact tables' := by
  induction rest generalizing tables with
  | nil =>
    cases hok
    exact hstart
  | cons event rest ih =>
    rw [foldlM_cons] at hok
    obtain ⟨mid, hmid, hleft⟩ := bind_ok.mp hok
    exact ih hleft (fun other hoth => hkeeps other (mem_cons_of_mem _ hoth))
      (hkeeps event mem_cons_self tables mid (persistEvent_ok hmid) hstart)

theorem delivered_quiet {Fact : EventTables → Prop} (hsame : tables'.links = tables.links)
    (hkeeps : ∀ event ∈ rest, ∀ mid next, Persisted shortHash accountId now mid event next → next.links = mid.links → Fact mid → Fact next)
    (hstart : Fact tables) (hevt : event ∈ rest) :
    ∃ mid next, Persisted shortHash accountId now mid event next ∧ Fact mid ∧ mid.links = tables.links ∧
      ∀ link ∈ tables.links, ¬ writes shortHash accountId mid event link := by
  induction rest generalizing tables with
  | nil => cases hevt
  | cons other rest ih =>
    rw [foldlM_cons] at hok
    obtain ⟨mid, hmid, hleft⟩ := bind_ok.mp hok
    have hpersisted := persistEvent_ok hmid
    -- no link may be written halfway, or its revision would show it
    have hmiddle : mid.links = tables.links := hpersisted.grown.same (hsame ▸ delivered_grown hleft)
    rcases mem_cons.mp hevt with rfl | hevt
    · exact ⟨tables, mid, hpersisted, hstart, rfl, fun link hlink => hpersisted.unwritten hmiddle hlink⟩
    · have hleave := ih hleft (hsame.trans hmiddle.symm) (fun event hevt => hkeeps event (mem_cons_of_mem _ hevt))
        (hkeeps other mem_cons_self tables mid hpersisted hmiddle hstart) hevt
      rwa [hmiddle] at hleave

/-- Once a final outcome is stored, none of its command's rows is open. -/
theorem delivered_closed (hevt : event ∈ rest) (hrpt : report event = some told) (hstat : told.status ≠ .unknown) :
    Closed accountId told.commandId tables'.commands.commands := by
  obtain ⟨before, after, rfl⟩ := append_of_mem hevt
  rw [foldlM_append] at hok
  obtain ⟨mid, -, hrest⟩ := bind_ok.mp hok
  rw [foldlM_cons] at hrest
  obtain ⟨next, hnext, hleft⟩ := bind_ok.mp hrest
  exact delivered_keeps hleft (fun _ _ _ _ hpersisted => hpersisted.closed)
    (((persistEvent_ok hnext).commands told hrpt).2 ▸ closed_recorded hstat)

end Delivered

/-- Two transactions of the order that opened one link stay so. -/
theorem Persisted.both {first second : EaEvent} (h : Persisted shortHash accountId now tables event tables') (hevt : event ∈ events)
    (hboth : Unlinked events tables ∧ ∃ link ∈ tables.links,
      correlates accountId tables first link ∧ correlates accountId tables second link) :
    Unlinked events tables' ∧ ∃ link ∈ tables'.links,
      correlates accountId tables' first link ∧ correlates accountId tables' second link := by
  obtain ⟨hunlinked, link, hlink, hone, htwo⟩ := hboth
  obtain ⟨write, hlinks, hfoll⟩ := h.follows fun told htold => hunlinked event hevt told htold
  exact ⟨hunlinked.step hlinks fun link hlink => (hfoll link hlink).1, write link, hlinks ▸ mem_map_of_mem hlink,
    ((hfoll link hlink).2.1 first).mpr hone, ((hfoll link hlink).2.1 second).mpr htwo⟩

/-- Where a second delivery is accepted and changes no link, the batch left its own traces alone. -/
theorem replayable_of_same (hidentities : (events.map (eventIdentity shortHash)).Nodup) {committed again : EventTables} {later : Millis}
    (hcommitted : events.foldlM (persistEvent shortHash accountId now batch) tables = .ok committed)
    (haga : events.foldlM (persistEvent shortHash accountId later batch) committed = .ok again)
    (hsame : again.links = committed.links) : Replayable accountId events tables := by
  -- a final outcome closes the command, and an unknown one is refused behind it
  have hfinal : ∀ first ∈ events, ∀ second ∈ events, ∀ told told', report first = some told → report second = some told' →
      told.commandId = told'.commandId → told.status = .unknown → told'.status = .unknown := by
    intro first hfs second hsec told told' htold htold' hid hunk
    by_contra hstat
    have hclsd : Closed accountId told.commandId committed.commands.commands :=
      hid ▸ delivered_closed hcommitted hsec htold' hstat
    obtain ⟨mid, next, hpersisted, hmid, -⟩ := delivered_quiet haga hsame
      (fun _ _ _ _ hpersisted _ => hpersisted.closed) hclsd hfs
    have hone := (hpersisted.commands told htold).1
    rw [hmid.refuses hunk] at hone
    cases hone
  have hunlinked : Unlinked events tables := by
    intro event hevt told htold link hlink
    by_contra hreaches
    have hkeeps : ∀ event mid next now, Persisted shortHash accountId now mid event next →
        (∃ link ∈ mid.links, reachesLink told mid.outbox link = true) → ∃ link ∈ next.links, reachesLink told next.outbox link = true := by
      rintro event mid next now hpersisted ⟨link, hlink, hreaches⟩
      obtain ⟨write, hlinks, hwrite⟩ := hpersisted.links
      obtain ⟨-, -, -, hgrp, hacct, hmetadata⟩ := hwrite link
      refine ⟨write link, hlinks ▸ mem_map_of_mem hlink, ?_⟩
      rw [reachesLink_iff, hpersisted.outbox]
      obtain ⟨key, hkey, hfinds⟩ := reachesLink_iff.mp hreaches
      exact ⟨key, hkey, (finds_congr hgrp hacct hmetadata).mpr hfinds⟩
    have hstart := delivered_keeps hcommitted (fun event _ mid next => hkeeps event mid next now)
      ⟨link, hlink, by simpa using hreaches⟩
    obtain ⟨mid, next, -, ⟨link, hlink, hreaches⟩, hlinks, hquiet⟩ := delivered_quiet haga hsame
      (fun event _ mid next hpersisted _ => hkeeps event mid next later hpersisted) hstart hevt
    exact hquiet link (hlinks ▸ hlink) (.inl ⟨told, htold, hreaches⟩)
  refine ⟨fun first hfs second hsec told told' htold htold' hid => ⟨?_, ?_⟩, hunlinked, ?_⟩
  · exact hfinal first hfs second hsec told told' htold htold' hid
  · exact hfinal second hsec first hfs told' told htold' htold hid.symm
  · intro link hlink first hfs second hsec hone htwo
    obtain ⟨hleft, link, hlink, hone, htwo⟩ := delivered_keeps hcommitted
      (fun event hevt mid next hpersisted hboth => hpersisted.both hevt hboth) ⟨hunlinked, link, hlink, hone, htwo⟩
    have hkeeps : ∀ event ∈ events, ∀ mid next, Persisted shortHash accountId later mid event next → next.links = mid.links →
        Unlinked events mid ∧ link ∈ mid.links ∧ correlates accountId mid first link ∧ correlates accountId mid second link →
          Unlinked events next ∧ link ∈ next.links ∧ correlates accountId next first link ∧ correlates accountId next second link := by
      rintro event hevt mid next hpersisted hstays ⟨hunlinked, hlink, hone, htwo⟩
      obtain ⟨write, hlinks, hfoll⟩ := hpersisted.follows fun told htold => hunlinked event hevt told htold
      have hid : write link = id link := map_eq_map_iff.mp (hlinks.symm.trans (hstays.trans (map_id _).symm)) link hlink
      have hkept := (hfoll link hlink).2.1
      rw [hid] at hkept
      exact ⟨hunlinked.step hlinks fun link hlink => (hfoll link hlink).1, hstays ▸ hlink, (hkept first).mpr hone, (hkept second).mpr htwo⟩
    have hlast : ∀ event ∈ events, (event = first ∨ event = second) → link.lastTargetEventId = some (eventIdentity shortHash event) := by
      intro event hevt hwhich
      obtain ⟨mid, next, -, ⟨-, -, hone, htwo⟩, -, hquiet⟩ := delivered_quiet haga hsame hkeeps ⟨hleft, hlink, hone, htwo⟩ hevt
      by_contra hlast
      refine hquiet link hlink (.inr ⟨?_, hlast⟩)
      rcases hwhich with rfl | rfl
      · exact hone
      · exact htwo
    refine inj_on_of_nodup_map hidentities hfs hsec (Option.some.inj ?_)
    rw [← hlast first hfs (.inl rfl), ← hlast second hsec (.inr rfl)]

theorem mem_uniqueEvents {other : EaEvent} : other ∈ uniqueEvents events ↔ other ∈ events := by
  have hall : ∀ unique : List EaEvent, other ∈ events.foldl (fun unique event => if unique.contains event then unique else unique ++ [event])
      unique ↔ other ∈ unique ∨ other ∈ events := by
    induction events with
    | nil => simp
    | cons event rest ih =>
      intro unique
      rw [foldl_cons, ih, mem_cons]
      split <;> grind
  simpa [uniqueEvents] using hall []

theorem Replayable.congr (h : Replayable accountId events tables) (hmem : ∀ other, other ∈ rest ↔ other ∈ events) :
    Replayable accountId rest tables := by
  refine ⟨fun first hfs second hsec => h.alike first ((hmem first).mp hfs) second ((hmem second).mp hsec),
    fun event hevt => h.unlinked event ((hmem event).mp hevt), fun link hlink first hfs second hsec => ?_⟩
  exact h.single link hlink first ((hmem first).mp hfs) second ((hmem second).mp hsec)

/-- **A batch that was committed is accepted again and changes no outcome and no link exactly when it can be delivered again.** -/
theorem redelivered_unchanged_iff {committed : EventTables}
    (hcommitted : deliverEvents shortHash accountId now batch tables = .ok committed)
    (later : Millis) :
    (∃ again, deliverEvents shortHash accountId later batch committed = .ok again ∧
      outcomes again.commands.commands = outcomes committed.commands.commands ∧ again.links = committed.links) ↔
        Replayable accountId batch tables := by
  obtain ⟨events, hevs, hfs⟩ := bind_ok.mp hcommitted
  obtain ⟨hidentities, huniq⟩ := unit_bind_ok.mp hevs
  cases huniq
  rw [refuseIf_ok, decide_eq_false_iff_not, not_not] at hidentities
  have hdeliver : deliverEvents shortHash accountId later batch committed =
      (uniqueEvents batch).foldlM (persistEvent shortHash accountId later (uniqueEvents batch)) committed := by
    rw [deliverEvents, hevs]
    rfl
  rw [hdeliver]
  constructor
  · rintro ⟨again, haga, -, hlinks⟩
    have hreplayable : Replayable accountId (uniqueEvents batch) tables := replayable_of_same hidentities hfs haga hlinks
    exact hreplayable.congr fun _ => mem_uniqueEvents.symm
  · intro hreplayable
    have htraced : Traced shortHash accountId (uniqueEvents batch) [] tables :=
      ⟨hreplayable.congr fun _ => mem_uniqueEvents, forall_mem_nil _, forall_mem_nil _⟩
    have hleft := htraced.deliver (forall_mem_nil _) (fun _ hoth => hoth) hfs
    rw [append_nil] at hleft
    exact hleft.again fun _ hoth => hoth

end Links

section Examples

/-- A close of the account that waits for its outcome. -/
def sentClose : TargetCommandRow where
  id := "close-1"
  parentCommandId := "order-1"
  targetAccountId := "mt5-b"
  idempotencyKey := "close-1"
  commandPayload := .issued (.closePosition ⟨"close-1", "close-1", "mt5-b", "77", none, 20⟩)
  payload_id := rfl
  status := .queued
  rejectCode := none
  rejectMessage := none
  brokerOrderId := none
  brokerDealId := none
  attemptCount := 1
  nextAttemptAt := 0
  lease := none
  firstDeliveredAt := some 0
  terminalAckAt := none
  deliverBy := none
  createdAt := 0

/-- One command, and no copies. -/
def oneClose : EventTables := ⟨⟨[], [], [], [sentClose]⟩, [], [], []⟩

/-- The batch delivered twice, an hour apart. -/
def deliveredTwice (batch : List EaEvent) : Option EventTables :=
  (deliverEvents id "mt5-b" 0 batch oneClose).toOption.bind fun committed => (deliverEvents id "mt5-b" 3600000 batch committed).toOption

theorem accepted_redelivered : ∃ committed again,
    deliverEvents id "mt5-b" 0 [.commandAccepted "close-1" (some "5") none 10009 "done" 0] oneClose = .ok committed ∧
      deliverEvents id "mt5-b" 3600000 [.commandAccepted "close-1" (some "5") none 10009 "done" 0] committed = .ok again ∧
        outcomes again.commands.commands = outcomes committed.commands.commands := by
  have hsome : (deliverEvents id "mt5-b" 0 [.commandAccepted "close-1" (some "5") none 10009 "done" 0] oneClose).toOption.isSome = true := by
    decide +kernel
  obtain ⟨committed, hcommitted⟩ := Option.isSome_iff_exists.mp hsome
  have hdlvd := toOption_some hcommitted
  have hreplayable : Replayable "mt5-b" [.commandAccepted "close-1" (some "5") none 10009 "done" 0] oneClose := by
    refine ⟨fun first hfs second hsec told told' htold htold' _ => ?_, fun _ _ _ _ _ hlink => absurd hlink not_mem_nil,
      forall_mem_nil _⟩
    rw [mem_singleton.mp hfs] at htold
    rw [mem_singleton.mp hsec] at htold'
    cases htold
    cases htold'
    exact Iff.rfl
  obtain ⟨again, haga, houtcomes, -⟩ := (redelivered_unchanged_iff hdlvd 3600000).mpr hreplayable
  exact ⟨committed, again, hdlvd, haga, houtcomes⟩

/-- An outcome that was unknown and is known in the same batch: the batch is refused when it comes again. -/
theorem unknown_then_accepted_refused : ∃ committed,
    deliverEvents id "mt5-b" 0 [.commandUnknown "close-1" "timeout" 0, .commandAccepted "close-1" (some "5") none 10009 "done" 1] oneClose =
        .ok committed ∧
      ¬ ∃ again, deliverEvents id "mt5-b" 3600000
        [.commandUnknown "close-1" "timeout" 0, .commandAccepted "close-1" (some "5") none 10009 "done" 1] committed = .ok again := by
  have htwice : (deliverEvents id "mt5-b" 0
      [.commandUnknown "close-1" "timeout" 0, .commandAccepted "close-1" (some "5") none 10009 "done" 1] oneClose).toOption.isSome = true ∧
        deliveredTwice [.commandUnknown "close-1" "timeout" 0, .commandAccepted "close-1" (some "5") none 10009 "done" 1] = none := by
    decide +kernel
  obtain ⟨committed, hcommitted⟩ := Option.isSome_iff_exists.mp htwice.1
  refine ⟨committed, toOption_some hcommitted, ?_⟩
  rintro ⟨again, haga⟩
  have hnone := htwice.2
  rw [deliveredTwice, hcommitted, Option.bind_some, haga] at hnone
  cases hnone

end Examples

end MarketLens.Copier
