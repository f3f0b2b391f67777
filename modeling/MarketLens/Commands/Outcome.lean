import MarketLens.Commands.Delivery
import MarketLens.Copier.AccountRemoval

/-!
# Outcomes of commands

How a target command gets its final outcome from outside the queue: an EA's
acknowledgement, the user disconnecting or removing the account, and the service
disconnecting a terminal it runs itself.
-/

namespace MarketLens.Commands

open Store Copier Fallible

/-! ## Acknowledgements -/

/-- What an event says about its command: the status to store and the broker's ids. -/
structure Report where
  commandId : String
  status : TargetStatus
  brokerOrderId : Option String
  brokerDealId : Option String

/-- The report an outcome event makes; trade transactions make none. -/
def report : EaEvent → Option Report
  | .commandAccepted commandId brokerOrderId brokerDealId .. =>
    some ⟨commandId, .accepted, brokerOrderId, brokerDealId⟩
  | .commandRejected commandId .. => some ⟨commandId, .failed, none, none⟩
  | .commandUnknown commandId .. => some ⟨commandId, .unknown, none, none⟩
  | .tradeTransaction _ => none

section
variable (accountId : String)

/-- The row a report updates. A final outcome yields to none but its own repetition. -/
def acknowledges (report : Report) (row : TargetCommandRow) : Bool :=
  row.targetAccountId = accountId && row.id = report.commandId &&
    if report.status = .unknown then !row.terminal
    else !row.terminal || row.status = report.status
      || (row.status = .failed && row.rejectCode = some "DELIVERY_EXPIRED")

def acknowledgeRow (report : Report) (now : Millis) (row : TargetCommandRow) :
    TargetCommandRow :=
  if report.status = .unknown then
    { row with status := .unknown, nextAttemptAt := now + 30 * 1000, lease := none }
  else
    { row with
      status := report.status
      rejectCode := none
      rejectMessage := none
      brokerOrderId := report.brokerOrderId <|> row.brokerOrderId
      brokerDealId := report.brokerDealId <|> row.brokerDealId
      terminalAckAt := some (row.terminalAckAt.getD now)
      lease := none }

/-- The parent's status after a final outcome of one of its targets. -/
def acknowledgedParentStatus (tables : CommandTables) (parentId : String) : ParentStatus :=
  if tables.hasOpenTarget parentId then .submitted
  else if (tables.targetsOf parentId).any (·.status = .failed) then .partiallyRejected
  else .completed

/-- The parents of the rows with this id. -/
def parentsOfCommand (tables : CommandTables) (commandId : String) : List String :=
  (tables.commands.filter (·.id = commandId)).map (·.parentCommandId)

def commandEventInvalid : ApiError :=
  ⟨.conflict, "COMMAND_EVENT_INVALID",
    "command event is unknown, cross-account, or conflicts with prior outcome"⟩

/-- Store a report, and what it settles of its command's parent. -/
def applyReport (now : Millis) (report : Report) (tables : CommandTables) :
    CommandTables :=
  let updated := { tables with
    commands := Table.updateWhere (acknowledges accountId report) (acknowledgeRow report now)
      tables.commands }
  if report.status = .unknown then updated
  else updated.setParents (parentsOfCommand updated report.commandId)
    (acknowledgedParentStatus updated)

/-- One event of a batch. -/
def acknowledge (now : Millis) (tables : CommandTables) (event : EaEvent) :
    Except ApiError CommandTables :=
  match report event with
  | none => .ok tables
  | some report =>
    if tables.commands.countP (acknowledges accountId report) = 1 then
      .ok (applyReport accountId now report tables)
    else .error commandEventInvalid

/-- The events of a batch, in one transaction: the first that is refused undoes them all. -/
def acknowledgeBatch (now : Millis) (events : List EaEvent)
    (tables : CommandTables) : Except ApiError CommandTables :=
  events.foldlM (acknowledge accountId now) tables

/-! ## Stopping an account -/

def stoppable (row : TargetCommandRow) : Bool :=
  row.targetAccountId = accountId && !row.terminal && (row.status = .waiting
    || row.status = .ready || row.status = .queued || row.status = .unknown)

/-- `manage_account`: the command fails, whether or not an EA has had it. -/
def stopRow (remove : Bool) (now : Millis) (row : TargetCommandRow) : TargetCommandRow :=
  { row with
    status := .failed
    rejectCode := some (if remove then "ACCOUNT_REMOVED" else "ACCOUNT_DISCONNECTED")
    rejectMessage := some (if remove then "account was removed before execution"
      else "account was disconnected before execution")
    terminalAckAt := some (row.terminalAckAt.getD now)
    lease := none }

/-- `request_managed_mt5_disconnect`: only a command no EA has had fails. -/
def fenceRow (now : Millis) (row : TargetCommandRow) : TargetCommandRow :=
  match row.firstDeliveredAt with
  | none => { row with
      status := .failed
      rejectCode := some "ACCOUNT_DISCONNECTED"
      rejectMessage := some "account was disconnected before execution"
      terminalAckAt := some (row.terminalAckAt.getD now)
      lease := none }
  | some _ => { row with
      status := .unknown
      rejectCode := some deliveryOutcomeUnknown
      rejectMessage := some "delivery outcome is unknown after account disconnect"
      terminalAckAt := none
      lease := none }

/-- Stop the account's commands and revoke its sessions. The parents are judged on the rows
before the stop. -/
def stopCommands (stop : TargetCommandRow → TargetCommandRow)
    (tables : CommandTables) : CommandTables :=
  let stopped := tables.commands.filter (stoppable accountId)
  CommandTables.setParents
    { tables with
      sessions := Table.updateWhere (·.accountId = accountId)
        (fun row => { row with revoked := true }) tables.sessions
      commands := Table.updateWhere (stoppable accountId) stop tables.commands }
    (stopped.map (·.parentCommandId)) (stoppedParentStatus tables)

end

/-- `manage_account`: disconnect the account, or remove it. -/
def manageAccount (copier : CopyTables) (accountId : String) (remove : Bool) (now : Millis)
    (tables : CommandTables) : Except ApiError CommandTables := do
  validateIdentifier "accountId" accountId 96
  refuseIf (!tables.accounts.any fun account => account.id = accountId
      && account.status ≠ .disabled)
    ⟨.notFound, "TARGET_ACCOUNT_NOT_FOUND", "target account was not found for this owner"⟩
  refuseIf (remove && removalBlocked accountId copier)
    ⟨.conflict, "COPY_GROUP_DRAIN_REQUIRED",
      "the MT5 account cannot be removed while a copier group still has open, pending, closing, "
        ++ "orphaned, or error links"⟩
  let stopped := stopCommands accountId (stopRow remove now) tables
  return { stopped with
    sessions := if remove then stopped.sessions.filter (·.accountId ≠ accountId)
      else stopped.sessions
    accounts := Table.updateWhere (·.id = accountId)
      (fun account => { account with
        status := if remove then .disabled else .offline
        tradeAllowed := if remove then false else account.tradeAllowed })
      stopped.accounts }

/-- The disconnect a managed terminal is asked for is the first one, or repeats it. -/
def disconnectAccepted (expectedRevision : Nat) (terminal : ManagedTerminal) : Bool :=
  expectedRevision > 0
    && ((terminal.disconnectRequestedRevision.isNone
        && terminal.connectionRevision = expectedRevision)
      || (terminal.disconnectRequestedRevision = some expectedRevision
        && terminal.connectionRevision = expectedRevision + 1))

def disconnectTerminal (expectedRevision : Nat) (terminal : ManagedTerminal) : ManagedTerminal :=
  { connectionRevision := if terminal.disconnectRequestedRevision.isNone
      then terminal.connectionRevision + 1 else terminal.connectionRevision
    disconnectRequestedRevision :=
      some (terminal.disconnectRequestedRevision.getD expectedRevision) }

/-- `request_managed_mt5_disconnect`: fence the account's commands and take it offline. -/
def disconnectManaged (accountId : String) (expectedRevision : Nat) (now : Millis)
    (tables : CommandTables) : Option CommandTables := do
  let account ← tables.accounts.find? (·.id = accountId)
  match account.connector with
  | .windowsVm (some terminal) =>
    if disconnectAccepted expectedRevision terminal then
      let fenced := stopCommands accountId (fenceRow now) tables
      return { fenced with
        accounts := Table.updateWhere (·.id = accountId)
          (fun account => { account with
            status := .offline
            tradeAllowed := false
            connector := .windowsVm (some (disconnectTerminal expectedRevision terminal)) })
          fenced.accounts }
    else none
  | _ => none

end MarketLens.Commands
