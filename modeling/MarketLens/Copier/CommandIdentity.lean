import MarketLens.Commands.DeliveryProof
import MarketLens.Copier.Outbox

/-!
# The id of a work item's command

The id of a work item's command is derived in two places. The item hashes its group,
its own id and its operation, and that is what the outbox row records once the
command is published. A close, a cancel and a modification carry this very id. An
order does not: the router appends the target account to it, and the queue stores
the order under the longer id.
-/

namespace MarketLens.Copier

open Store Fallible Engine PropRisk Commands Runs List Bool Except

/-! ## The id a command carries -/

section Plan

variable {env : WorkEnv} {tables : CopyTables} {work : WorkRow}

theorem mapError_ok {ε ε' α : Type} {f : ε → ε'} {result : Except ε α} {value : α}
    (h : result.mapError f = .ok value) : result = .ok value := by
  cases result with
  | error => exact absurd h (by simp [Except.mapError])
  | ok => exact congrArg ok (ok.inj h)

theorem copierRoute_id {intent : OrderIntent} {sourceEquity : Option Decimal} {context : RouteTargetContext} {order : RoutedOrder}
    (h : copierRoute intent sourceEquity context = .ok order) :
    order.commandId = intent.commandId ++ ":" ++ context.account.id := by
  unfold copierRoute routeOrder at h
  simp only [map_cons, map_nil, getLast?_singleton] at h
  cases hroute : routeTarget intent sourceEquity context with
  | rejected =>
    rw [hroute] at h
    cases h
  | ready accountId routed =>
    rw [hroute] at h
    have hsame : routed = order := ok.inj h
    obtain ⟨_, _, _, _, warnings, hord, _⟩ := routeTarget_ok hroute
    rw [← hsame, hord]
    rfl

/-- The pre-trade check leaves the id alone. -/
theorem copierPretrade_id {context : RouteTargetContext} {order order' : RoutedOrder}
    (h : copierPretrade env context order = .ok order') : order'.commandId = order.commandId := by
  obtain ⟨⟨outcome, tables'⟩, hcheck, h⟩ := bind_ok.mp h
  obtain ⟨runtime, _, houtcome⟩ := applyPropRiskPretrade_ok (mapError_ok hcheck)
  cases outcome with
  | rejected => cases h
  | passed passed =>
    have hsame : passed = order' := ok.inj h
    rw [← hsame]
    cases runtime with
    | none => rw [PretradeOutcome.passed.inj houtcome]
    | some =>
      obtain ⟨quantity, warnings, hpass⟩ := checkOrder_passed houtcome.symm
      rw [hpass]

/-- An intent carries the id it was given. -/
theorem copierOrderIntent_id {change : PortfolioChange} {config : ContinuousCopyTargetConfig}
    {commandId key : String} {operation : CopyOperation} {source : Option String}
    {protect : Bool} {intent : OrderIntent}
    (h : copierOrderIntent change config commandId key operation source protect = .ok intent) :
    intent.commandId = commandId := by
  obtain ⟨_, _, h⟩ := bind_ok.mp h
  obtain ⟨_, h⟩ := unit_bind_ok.mp h
  rw [← ok.inj h]

variable {command : EaCommand}

/-- The order of a place item is stored under the item's id and an account. -/
theorem placeCommand_id (h : placeCommand env work = .ok command) :
    ∃ account, command.commandId = some (childId (copierCommandId env work) account) := by
  obtain ⟨intent, hintent, h⟩ := bind_ok.mp h
  obtain ⟨loaded, _, h⟩ := bind_ok.mp h
  obtain ⟨context, _, h⟩ := bind_ok.mp h
  obtain ⟨_, h⟩ := unit_bind_ok.mp h
  obtain ⟨_, h⟩ := unit_bind_ok.mp h
  obtain ⟨sourceEquity, _, h⟩ := bind_ok.mp h
  obtain ⟨routed, hroute, h⟩ := bind_ok.mp h
  obtain ⟨checked, hcheck, h⟩ := bind_ok.mp h
  rw [← ok.inj h]
  refine ⟨context.account.id, congrArg some ?_⟩
  rw [copierPretrade_id hcheck, copierRoute_id hroute, copierOrderIntent_id hintent]
  rfl

theorem planOnTarget_issue {kind : EntityKind} {waiting : String} {build : String → Except CopierWorkError EaCommand}
    (h : planOnTarget tables work kind waiting build = .ok (.issue command)) :
    ∃ ticket, copierTargetEntityId tables work kind = some ticket ∧ build ticket = .ok command := by
  unfold planOnTarget at h
  cases htkt : copierTargetEntityId tables work kind with
  | none =>
    rw [htkt] at h
    dsimp only at h
    split at h
    · cases h
    · exact absurd (ok.inj h) (by simp)
  | some ticket =>
    rw [htkt] at h
    obtain ⟨built, hbui, h⟩ := bind_ok.mp h
    have hsame : built = command := WorkPlan.issue.inj (ok.inj h)
    rw [hsame] at hbui
    exact ⟨ticket, rfl, hbui⟩

/-- A place item issues nothing but its order. -/
theorem planPlace_issue (h : planPlace env tables work = .ok (.issue command)) : placeCommand env work = .ok command := by
  have hear : ∀ plan, planBeforeOrder env tables work = .ok (some plan) → plan ≠ .issue command := by
    intro plan hplan hiss
    rw [hiss] at hplan
    unfold planBeforeOrder planFill planReplacement at hplan
    repeat' split at hplan
    all_goals simp at hplan
  obtain ⟨early, hbef, h⟩ := bind_ok.mp h
  cases early with
  | some plan => exact absurd (ok.inj h) (hear plan hbef)
  | none =>
    obtain ⟨built, hbui, h⟩ := bind_ok.mp h
    rw [← WorkPlan.issue.inj (ok.inj h)]
    exact hbui

/-- **What a command is built as**: the order of a place item, or what is asked of the ticket the target has. -/
theorem planWork_issue (h : planWork env tables work = .ok (.issue command)) :
    match work.operation with
    | .openMarket | .placePending => placeCommand env work = .ok command
    | .modifyPosition =>
      ∃ ticket, copierTargetEntityId tables work .position = some ticket ∧ modifyPositionCommand env work ticket = .ok command
    | .modifyPending =>
      ∃ ticket, copierTargetEntityId tables work .pendingOrder = some ticket ∧ modifyPendingCommand env work ticket = .ok command
    | .partialClose =>
      ∃ ticket, copierTargetEntityId tables work .position = some ticket ∧ partialCloseCommand env tables work ticket = .ok command
    | .closePosition =>
      ∃ ticket, copierTargetEntityId tables work .position = some ticket ∧ closeCommand env work none ticket = command
    | .cancelPending =>
      ∃ ticket, copierTargetEntityId tables work .pendingOrder = some ticket ∧ cancelCommand env work ticket = command
    | .reconcile => False := by
  obtain ⟨_, h⟩ := unit_bind_ok.mp h
  obtain ⟨_, h⟩ := unit_bind_ok.mp h
  rw [ite_eq_iff] at h
  obtain ⟨_, h⟩ | ⟨_, h⟩ := h
  · exact absurd (ok.inj h) (by simp)
  cases hop : work.operation with
  | openMarket | placePending =>
    rw [hop] at h
    exact planPlace_issue h
  | reconcile =>
    rw [hop] at h
    exact absurd (ok.inj h) (by simp)
  | closePosition | cancelPending =>
    rw [hop] at h
    obtain ⟨ticket, htkt, hbui⟩ := planOnTarget_issue h
    exact ⟨ticket, htkt, ok.inj hbui⟩
  | _ =>
    rw [hop] at h
    exact planOnTarget_issue h

/-- **The id of an issued command**: an order's is longer than the item's, any other's is it. -/
theorem planWork_id (h : planWork env tables work = .ok (.issue command)) :
    if work.operation.isPlace then
      ∃ account, command.commandId = some (childId (copierCommandId env work) account)
    else command.commandId = some (copierCommandId env work) := by
  have hiss := planWork_issue h
  cases hop : work.operation with
  | openMarket | placePending =>
    rw [hop] at hiss
    exact placeCommand_id hiss
  | modifyPosition | modifyPending =>
    rw [hop] at hiss
    obtain ⟨ticket, _, hbui⟩ := hiss
    obtain ⟨_, _, hbui⟩ := bind_ok.mp hbui
    rw [← ok.inj hbui]
    rfl
  | partialClose =>
    rw [hop] at hiss
    obtain ⟨ticket, _, hbui⟩ := hiss
    obtain ⟨_, _, hbui⟩ := bind_ok.mp hbui
    obtain ⟨_, _, hbui⟩ := bind_ok.mp hbui
    rw [← ok.inj hbui]
    rfl
  | closePosition | cancelPending =>
    rw [hop] at hiss
    obtain ⟨ticket, _, hbui⟩ := hiss
    rw [← hbui]
    rfl
  | reconcile =>
    rw [hop] at hiss
    exact hiss.elim

end Plan

/-! ## The id the outbox records -/

section Publication

variable {env : WorkEnv} {tables after : CopyTables}

variable {change : PortfolioChange} {workId : Uuid} {commandId : String}

/-- A publication needs the command it records, unless it records none. -/
theorem publishCopierOutbox_ok :
    (∃ after, publishCopierOutbox env tables workId commandId change = .ok after) ↔
      ((∃ outbox ∈ tables.outbox, outbox.workItemId = workId ∧ outbox.status.open = true) → commandId ∈ env.issuedCommands) := by
  have hdec :
      (tables.outbox.any (fun row => row.workItemId = workId && row.status.open)
        && !env.issuedCommands.contains commandId) = false ↔
      ((∃ outbox ∈ tables.outbox, outbox.workItemId = workId ∧ outbox.status.open = true) → commandId ∈ env.issuedCommands) := by
    rw [and_eq_false_iff, not_eq_false', contains_iff_mem, any_eq_false]
    simp only [and_eq_true, decide_eq_true_eq]
    constructor
    · rintro (hnone | hissued) ⟨outbox, hmem, hopen⟩
      · exact absurd hopen (hnone outbox hmem)
      · exact hissued
    · intro h
      by_cases hopen : ∃ outbox ∈ tables.outbox, outbox.workItemId = workId ∧ outbox.status.open = true
      · exact .inr (h hopen)
      · exact .inl fun outbox hmem hrow => hopen ⟨outbox, hmem, hrow⟩
  rw [← hdec]
  unfold publishCopierOutbox
  dsimp only
  constructor
  · rintro ⟨after, h⟩
    exact refuseIf_ok.mp (unit_bind_ok.mp h).1
  · intro h
    rw [h]
    exact ⟨_, rfl⟩

section Published

variable (h : publishCopierOutbox env tables workId commandId change = .ok after)
include h

theorem publishCopierOutbox_outbox :
    after.outbox = Table.updateWhere (fun row => row.workItemId = workId && row.status.open)
      (publishRow commandId) tables.outbox := by
  obtain ⟨_, h⟩ := unit_bind_ok.mp h
  rw [← ok.inj h]

theorem published_records :
    ∀ outbox ∈ after.outbox, outbox.workItemId = workId → outbox.status = .published →
      outbox.targetCommandId = some commandId := by
  intro outbox hmem hwork hpublished
  rw [publishCopierOutbox_outbox h] at hmem
  rcases Table.updateWhere_cases hmem with ⟨_, hpass⟩ | ⟨old, _, _, rfl⟩
  · -- a published row is still open, so it is not passed over
    rw [hwork, hpublished] at hpass
    exact absurd hpass (by simp [OutboxStatus.open])
  · rfl

theorem published_of_open (hopen : ∃ outbox ∈ tables.outbox, outbox.workItemId = workId ∧ outbox.status.open = true) :
    ∃ outbox ∈ after.outbox, outbox.workItemId = workId ∧ outbox.status = .published := by
  obtain ⟨outbox, hmem, hwork, hstat⟩ := hopen
  refine ⟨publishRow commandId outbox, ?_, hwork, rfl⟩
  rw [publishCopierOutbox_outbox h, Table.mem_updateWhere]
  refine ⟨outbox, hmem, ?_⟩
  rw [if_pos (by rw [hwork, hstat]; simp)]

end Published

end Publication

/-- The publication goes through, and the outbox row records the id under which the queue took
the command in, so that the command's acknowledgement finds the row. -/
def RecordsIssued (env : WorkEnv) (tables : CopyTables) (work : WorkRow) (commandId : String)
    (command : EaCommand) (queued : CommandTables) : Prop :=
  ∃ after, publishCopierOutbox env tables work.id commandId work.payload.change = .ok after ∧
    ∀ outbox ∈ after.outbox, outbox.workItemId = work.id → outbox.status = .published →
      ∃ row ∈ queued.commands, row.commandPayload = .issued command ∧
        outbox.targetCommandId = some row.id

theorem ne_childId (commandId account : String) : commandId ≠ childId commandId account := by
  intro h
  have hlng := congrArg String.length h
  unfold childId at hlng
  rw [String.length_append, String.length_append] at hlng
  have hcolon : String.length ":" = 1 := rfl
  omega

/--
**The outbox records the issued command exactly for the operations that place no order.**

The command is built from one state of the copier's tables and published in
another; between its enqueue and its publication the queue may go on in any way.
-/
theorem published_id_is_issued_iff {env env' : WorkEnv} {planned copier tables : CopyTables}
    {work : WorkRow} {command : EaCommand} {now : Millis} {s queued later : QueueState}
    (hstart : Reaches QueueState.step always .start s)
    (hplan : planWork env planned work = .ok (.issue command))
    (henqueue : s.step (.enqueue copier work.targetAccountId command now) = some queued)
    (hlater : Reaches QueueState.step always queued later)
    (hissued : env'.issuedCommands = later.tables.commands.map (·.id))
    (hopen : ∃ outbox ∈ tables.outbox, outbox.workItemId = work.id ∧ outbox.status.open = true) :
    RecordsIssued env' tables work (copierCommandId env work) command queued.tables ↔ work.operation.isPlace = false := by
  have hid := planWork_id hplan
  -- whatever row holds the command is stored under the command's own id
  have hrow : ∀ row ∈ queued.tables.commands, row.commandPayload = .issued command → command.commandId = some row.id := by
    intro row _ hpld
    rw [← row.payload_id, hpld]
    rfl
  constructor
  · rintro ⟨after, hpublish, hrecords⟩
    rw [← not_eq_true]
    intro hpl
    rw [if_pos hpl] at hid
    obtain ⟨account, hid⟩ := hid
    obtain ⟨outbox, hmem, hwork, hpublished⟩ := published_of_open hpublish hopen
    obtain ⟨row, hqueu, hpld, htgt⟩ := hrecords outbox hmem hwork hpublished
    rw [published_records hpublish outbox hmem hwork hpublished] at htgt
    have hchild := (hrow row hqueu hpld).symm.trans hid
    rw [Option.some.inj hchild] at htgt
    exact ne_childId _ _ (Option.some.inj htgt)
  · intro hoth
    rw [if_neg (by rw [hoth]; exact false_ne_true)] at hid
    obtain ⟨queuedTables, henqueued, hqueu⟩ := commit_some henqueue
    obtain ⟨row, hmem, hpld⟩ := enqueue_issued henqueued
    have hsame : row ∈ queued.tables.commands := by
      rw [hqueu]
      exact hmem
    have hrowId : copierCommandId env work = row.id :=
      Option.some.inj (hid.symm.trans (hrow row hsame hpld))
    -- the row is still there when the command is published
    have hemp : UniqueIds QueueState.start.tables := nodup_nil
    have huniq : UniqueIds s.tables := (ids_kept hemp hstart).1
    obtain ⟨kept, hkept, hkeptId⟩ :=
      (ids_kept (step_rows huniq henqueue).2 hlater).2 row hsame
    have hexists : copierCommandId env work ∈ env'.issuedCommands := by
      rw [hissued, hrowId, ← hkeptId]
      exact mem_map_of_mem hkept
    obtain ⟨after, hpublish⟩ := publishCopierOutbox_ok.mpr fun _ => hexists
    refine ⟨after, hpublish, fun outbox hmem hwork hpublished => ⟨row, hsame, hpld, ?_⟩⟩
    rw [published_records hpublish outbox hmem hwork hpublished, hrowId]

/-! ## A position that is opened, and one that is closed -/

section Examples

def sourcePosition : EaPositionSnapshot :=
  ⟨"11", "EURUSD", "EURUSD", .buy, 1, 11 / 10, 11 / 10, none, none, 0, 0, 0, 0, "", 900, 1000⟩

/-- The item that copies a change of `sourcePosition` from `mt5-a` to `mt5-b`. -/
def positionWork (operation : CopyOperation) (change : PortfolioChange) : WorkRow :=
  ⟨7, 1, "mt5-b", 5, operation, "cpw:7",
    ⟨change, some "mt5-a", {}, legacyCopyTargetConfig, none, none⟩, .leased, 1, 1000,
    some ⟨9, 31000⟩, none, 1000⟩

/-- The link of `sourcePosition`, whose copy has the ticket 77. -/
def positionLink : LinkRow :=
  ⟨1, "mt5-a", "mt5-b", .position, "11", 0, some (.position, "77"), .active, some 1, some 1, none,
    1, .empty, 900⟩

def copyTables (work : WorkRow) (links : List LinkRow) : CopyTables :=
  ⟨[⟨1, "Copy", "mt5-a", true, 1, .active, some {}⟩],
    [⟨1, "mt5-b", true, 1, .active, some legacyCopyTargetConfig⟩], [], [work], [], links⟩

/-- A target that may trade, and no prop-risk settings. -/
def copyEnv : WorkEnv where
  shortHash := id
  nowMs := 1000
  now := 1000
  issuedCommands := []
  loadRouteTarget := fun target symbol _ => .ok (some
    ⟨⟨target.accountId, .metaTrader5, "demo", .ready, some 10000, some 10000, true, 1000⟩,
      ⟨symbol, symbol, .lots, 1 / 100, 1 / 100, 100, 1 / 100000, some 1, none, true⟩,
      ⟨100, none, false, [], []⟩, ⟨target.accountId, true, target.allocation, target.maxQuantity⟩,
      some (11 / 10)⟩)
  sourceEquity := fun _ => .ok (some 10000)
  propRisk := ⟨fun _ time => time, fun _ => true, id⟩
  propRiskTables := ⟨[], none, [], []⟩
  portfolio := ⟨[], []⟩
  instruments := fun _ => []

/-- The environment once the queue holds these commands. -/
def copyEnvAfter (s : QueueState) : WorkEnv :=
  { copyEnv with issuedCommands := s.tables.commands.map (·.id) }

/-- The terminal of `mt5-b` connects. -/
def connectTarget : List QueueAction :=
  [.pair "mt5-b" 1 demoAccount none 800, .authenticate 1 false 850, .poll ⟨1, "mt5-b"⟩ 900]

def openedOrder : EaCommand :=
  .place ⟨"cp:1:7:open_market", "cp:1:7:open_market:mt5-b", "cpc:cpw:7:mt5-b", "mt5-b", "demo",
    .metaTrader5, "EURUSD", "EURUSD", .buy, .market, 1, .lots, none, none, none, none,
    some ⟨.balance, 3500, false⟩, []⟩

def openWork : WorkRow := positionWork .openMarket (.positionOpened sourcePosition)

/-- The order is persisted and enqueued, but its publication names a command that does not
exist. -/
theorem open_publication_refused : ∃ persisted s queued,
      planWork copyEnv (copyTables openWork []) openWork = .ok (.issue openedOrder) ∧
      persistCopierOutbox copyEnv (copyTables openWork []) openWork openedOrder = .ok persisted ∧
      Reaches QueueState.step always .start s ∧
      s.step (.enqueue persisted "mt5-b" openedOrder 1000) = some queued ∧
      (∃ row ∈ queued.tables.commands, row.id = "cp:1:7:open_market:mt5-b" ∧ row.commandPayload = .issued openedOrder) ∧
      publishCopierOutbox (copyEnvAfter queued) persisted openWork.id (copierCommandId copyEnv openWork) openWork.payload.change
        = .error (.api internalError) ∧
      ¬ RecordsIssued (copyEnvAfter queued) persisted openWork (copierCommandId copyEnv openWork) openedOrder queued.tables := by
  have hplan : (planWork copyEnv (copyTables openWork []) openWork).toOption = some (.issue openedOrder) := by decide +kernel
  have hrun : ((exec QueueState.step (fun _ _ => true) .start connectTarget).bind fun s =>
      (persistCopierOutbox copyEnv (copyTables openWork []) openWork openedOrder).toOption.bind
        fun persisted => (s.step (.enqueue persisted "mt5-b" openedOrder 1000)).map
          fun queued => persisted.outbox.any (fun row => row.workItemId = openWork.id && row.status.open)
            && queued.tables.commands.any (fun row => row.id = "cp:1:7:open_market:mt5-b"
              && row.commandPayload = .issued openedOrder)
            && !(copyEnvAfter queued).issuedCommands.contains (copierCommandId copyEnv openWork))
      = some true := by decide +kernel
  obtain ⟨s, hexec, hrun⟩ := Option.bind_eq_some_iff.mp hrun
  obtain ⟨persisted, hpersist, hrun⟩ := Option.bind_eq_some_iff.mp hrun
  obtain ⟨queued, hque, htest⟩ := Option.map_eq_some_iff.mp hrun
  simp only [and_eq_true, not_eq_true'] at htest
  obtain ⟨⟨hopen, hrow⟩, hmissing⟩ := htest
  simp only [any_eq_true, and_eq_true, decide_eq_true_eq] at hrow
  have hrefd : publishCopierOutbox (copyEnvAfter queued) persisted openWork.id
      (copierCommandId copyEnv openWork) openWork.payload.change = .error (.api internalError) := by
    unfold publishCopierOutbox
    dsimp only
    -- the open row's publication breaks the foreign key
    rw [hopen, hmissing]
    rfl
  refine ⟨persisted, s, queued, toOption_some hplan, toOption_some hpersist, reaches_exec hexec, hque, hrow, hrefd, ?_⟩
  rintro ⟨after, hpublished, _⟩
  rw [hrefd] at hpublished
  cases hpublished

def closeWork : WorkRow := positionWork .closePosition (.positionClosed sourcePosition)

def closedCopy : EaCommand :=
  .closePosition ⟨"cp:1:7:close_position", "cpc:cpw:7", "mt5-b", "77", none, 30⟩

/-- A close is published under the id it was enqueued under. -/
theorem close_publication_records : ∃ persisted queued,
      persistCopierOutbox copyEnv (copyTables closeWork [positionLink]) closeWork closedCopy = .ok persisted ∧
      RecordsIssued (copyEnvAfter queued) persisted closeWork (copierCommandId copyEnv closeWork) closedCopy queued.tables := by
  have hplan : (planWork copyEnv (copyTables closeWork [positionLink]) closeWork).toOption
      = some (.issue closedCopy) := by decide +kernel
  have hrun : ((exec QueueState.step (fun _ _ => true) .start connectTarget).bind fun s =>
      (persistCopierOutbox copyEnv (copyTables closeWork [positionLink]) closeWork closedCopy).toOption.bind fun persisted =>
          (s.step (.enqueue persisted "mt5-b" closedCopy 1000)).map fun _ =>
            persisted.outbox.any fun row => row.workItemId = closeWork.id && row.status.open)
      = some true := by decide +kernel
  obtain ⟨s, hexec, hrun⟩ := Option.bind_eq_some_iff.mp hrun
  obtain ⟨persisted, hpersist, hrun⟩ := Option.bind_eq_some_iff.mp hrun
  obtain ⟨queued, hque, htest⟩ := Option.map_eq_some_iff.mp hrun
  simp only [and_eq_true, any_eq_true, decide_eq_true_eq] at htest
  have hrch := reaches_exec hexec
  exact ⟨persisted, queued, toOption_some hpersist,
    (published_id_is_issued_iff hrch (toOption_some hplan) hque .refl rfl htest).mpr rfl⟩

end Examples

/-! ## Children of different parents -/

inductive Derives : OrderIntent → String → String → String → Prop where
  | routed {intent : OrderIntent} {sourceEquity : Option Decimal} {target : RouteTargetContext} {accountId : String}
      {order : RoutedOrder} (h : routeTarget intent sourceEquity target = .ready accountId order) :
      Derives intent accountId order.commandId order.idempotencyKey
  | deferred (intent : OrderIntent) (target : AdminOrderTarget) (now : Millis) :
      Derives intent target.accountId (waitingRow intent target now).id (waitingRow intent target now).idempotencyKey

variable {parent parent' account account' : String}

/-- Every path derives the same ids. -/
theorem Derives.childId {intent : OrderIntent} {id key : String} (h : Derives intent account id key) :
    id = childId intent.commandId account ∧ key = childId intent.idempotencyKey account := by
  cases h with
  | routed h =>
    obtain ⟨rfl, -, _, -, warnings, rfl, -⟩ := routeTarget_ok h
    exact ⟨rfl, rfl⟩
  | deferred => exact ⟨rfl, rfl⟩

end MarketLens.Copier
