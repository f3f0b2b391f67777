import MarketLens.Commands.Queue

/-!
# Delivering commands

What the gateway does with queued rows: an EA's poll gives up on the stale ones
and leases the next batch; a heartbeat leases waiting orders and settles each of
them; a sweep expires the waiting orders whose terminal never came back.

The statements that recompute a parent's status differ in what they see. A
statement of its own sees the rows as just updated; a data-modifying `WITH` sees
them as they were before it.
-/

namespace MarketLens.Commands

open Store Fallible

/-! ## Polling -/

/-- The EA may have executed the command: only the broker knows. -/
def deliveryOutcomeUnknown : String := "DELIVERY_OUTCOME_UNKNOWN"

/-- The row may still be handed to an EA. -/
def deliverable (row : TargetCommandRow) : Bool :=
  !row.terminal && (row.status = .ready || row.status = .queued || row.status = .unknown)
    && (row.status ≠ .unknown || row.rejectCode ≠ some deliveryOutcomeUnknown)

/-- The delivery deadline: two minutes from the first delivery, or from when it was due. -/
def deliveryDeadline (row : TargetCommandRow) : Millis :=
  row.firstDeliveredAt.getD row.nextAttemptAt + commandDeliveryTtl

def deliveryExpired (accountId : String) (now : Millis) (row : TargetCommandRow) : Bool :=
  row.targetAccountId = accountId && deliverable row
    && (row.firstDeliveredAt.isNone || row.rejectCode ≠ some deliveryOutcomeUnknown)
    && deliveryDeadline row ≤ now

/-- Give up on a command: it failed if no EA ever had it, else its outcome is unknown. -/
def expireDelivery (now : Millis) (row : TargetCommandRow) : TargetCommandRow :=
  match row.firstDeliveredAt with
  | none => { row with
      status := .failed
      rejectCode := some "DELIVERY_UNAVAILABLE"
      rejectMessage := some "EA did not poll before the command delivery deadline"
      terminalAckAt := some now
      lease := none }
  | some _ => { row with
      status := .unknown
      rejectCode := some deliveryOutcomeUnknown
      rejectMessage := some ("EA acknowledgement timed out; reconcile MT5 because the command "
        ++ "may have executed")
      terminalAckAt := none
      lease := none }

/-- The parent's status after some of its targets were given up. -/
def stoppedParentStatus (tables : CommandTables) (parentId : String) : ParentStatus :=
  if tables.hasOpenTarget parentId then .submitted else .partiallyRejected

/-- The first half of a poll: expire the account's stale commands, then their parents. -/
def expireStale (accountId : String) (now : Millis) (tables : CommandTables) : CommandTables :=
  let stale := tables.commands.filter (deliveryExpired accountId now)
  let expired := { tables with
    commands := Table.updateWhere (deliveryExpired accountId now) (expireDelivery now)
      tables.commands }
  expired.setParents (stale.map (·.parentCommandId)) (stoppedParentStatus expired)

/-- The commands a poll may lease, oldest first. -/
def leasable (accountId : String) (now : Millis) (tables : CommandTables) :
    List TargetCommandRow :=
  ((tables.commands.filter fun row => row.targetAccountId = accountId && deliverable row
      && deliveryDeadline row > now && row.nextAttemptAt ≤ now && row.leaseFree now).insertionSort
    fun first second => first.precedes second).take maxCommandsPerPoll

def leaseTo (sessionId : Nat) (now : Millis) (row : TargetCommandRow) : TargetCommandRow :=
  { row with
    lease := some (sessionId, now + commandLease)
    firstDeliveredAt := some (row.firstDeliveredAt.getD now)
    attemptCount := row.attemptCount + 1 }

def leasedCommand (accountId : String) (row : TargetCommandRow) : Except ApiError EaCommand :=
  match row.commandPayload with
  | .deferred _ _ =>
    .error ⟨.internalServerError, "INTERNAL_ERROR", "execution service could not complete the request"⟩
  | .issued command => do
    refuseIf (command.targetAccount ≠ some accountId)
      ⟨.internalServerError, "COMMAND_SCOPE_VIOLATION", "command scope validation failed"⟩
    return command

section
variable (session : EaSession)

/-- The second half of a poll: lease the next commands. -/
def leaseCommands (now : Millis) (tables : CommandTables) :
    Except ApiError (List EaCommand × CommandTables) := do
  let candidates := leasable session.accountId now tables
  let commands ← candidates.mapM (leasedCommand session.accountId)
  let ownSession := fun (row : EaSessionRow) =>
    row.id = session.sessionId && row.accountId = session.accountId && !row.revoked
  refuseIf (!tables.sessions.any ownSession)
    ⟨.unauthorized, "UNAUTHORIZED", "EA session was revoked during command polling"⟩
  return (commands, { tables with
    commands := Table.updateWhere (fun row => (candidates.map (·.id)).contains row.id)
      (leaseTo session.sessionId now) tables.commands
    sessions := Table.updateWhere ownSession
      (fun row => { row with lastPollAt := some now }) tables.sessions })

/-- `poll_commands`, after authentication. -/
def pollCommands (now : Millis) (tables : CommandTables) :
    Except ApiError (List EaCommand × CommandTables) :=
  leaseCommands session now (expireStale session.accountId now tables)

/-! ## Waiting orders -/

/-- Waiting orders are looked at only for a terminal that may take them. -/
def deferredAllowed (tables : CommandTables) (accountId : String) : Bool :=
  tables.accounts.any fun account => account.id = accountId &&
    match account.connector with
    | .direct => true
    | .windowsVm managed => account.status = .ready && account.tradeAllowed
      && managed.all fun terminal => terminal.disconnectRequestedRevision.isNone

/-- The waiting orders of the session's account that are due, oldest first. -/
def dueDeferred (now : Millis) (tables : CommandTables) :
    List TargetCommandRow :=
  ((tables.commands.filter fun row => row.targetAccountId = session.accountId
      && row.status = .waiting && deferredAllowed tables session.accountId
      && row.deliverBy.any (· > now) && row.nextAttemptAt ≤ now && row.leaseFree now).insertionSort
    fun first second => first.precedes second).take maxDeferredActivationsPerEvent

/-- `activate_deferred_orders`, the lease. -/
def leaseDeferred (now : Millis) (tables : CommandTables) :
    CommandTables :=
  { tables with
    commands := Table.updateWhere
      (fun row => ((dueDeferred session now tables).map (·.id)).contains row.id)
      (fun row => { row with lease := some (session.sessionId, now + commandLease) })
      tables.commands }

/-- The session holds the waiting order's lease. -/
def holdsWaiting (id : String) (row : TargetCommandRow) : Bool :=
  row.id = id && row.status = .waiting && row.lease.any (·.1 = session.sessionId)

/-- `release_deferred_order`: the terminal is not ready yet, try again in a second. -/
def releaseDeferred (id : String) (now : Millis) (tables : CommandTables) :
    CommandTables :=
  { tables with
    commands := Table.updateWhere (holdsWaiting session id)
      (fun row => { row with nextAttemptAt := now + 1000, lease := none }) tables.commands }

/-- Put a routed order in the place of the waiting one it was routed from. -/
def activateRow (order : RoutedOrder) (now : Millis) (row : TargetCommandRow) :
    TargetCommandRow :=
  if h : order.commandId = row.id then
    { row with
      commandPayload := .issued (.place order)
      payload_id := congrArg some h
      status := .queued
      nextAttemptAt := now
      lease := none
      rejectCode := none
      rejectMessage := none }
  else row

/-- `activate_deferred_orders`, routed: the order goes into the queue under the row's id. -/
def activateDeferred (order : RoutedOrder) (now : Millis)
    (tables : CommandTables) : CommandTables :=
  { tables with
    commands := Table.updateWhere (fun row => holdsWaiting session order.commandId row
        && row.targetAccountId = order.targetAccountId && row.deliverBy.any (· > now))
      (activateRow order now) tables.commands }

/-- End a waiting order that the router refused. -/
def rejectRow (code : RouteRejectCode) (message : String) (now : Millis)
    (row : TargetCommandRow) : TargetCommandRow :=
  { row with
    status := .rejected
    rejectCode := some code.name
    rejectMessage := some message
    terminalAckAt := some now
    lease := none }

/-- `activate_deferred_orders`, refused: the order ends with the router's reject code. -/
def rejectDeferred (id accountId : String) (code : RouteRejectCode)
    (message : String) (now : Millis) (tables : CommandTables) : CommandTables :=
  { tables with
    commands := Table.updateWhere (fun row => holdsWaiting session id row
        && row.targetAccountId = accountId)
      (rejectRow code message now) tables.commands }

/-- The parents a refusal still has to finalize: the intents of the orders it is about. -/
def rejectedParents (id accountId : String) (tables : CommandTables) :
    List String :=
  (tables.commands.filter fun row => holdsWaiting session id row
      && row.targetAccountId = accountId).filterMap fun row =>
    match row.commandPayload with
    | .deferred intent _ => some intent.commandId
    | .issued _ => none

end

/-- The statement that follows a refusal: the parent is partially rejected. -/
def finalizeRejected (parentId : String) (tables : CommandTables) : CommandTables :=
  tables.setParents [parentId] fun _ => .partiallyRejected

def deferredExpired (now : Millis) (row : TargetCommandRow) : Bool :=
  row.status = .waiting && row.deliverBy.any (· ≤ now)

/-- Give up on a waiting order. -/
def expireWaiting (now : Millis) (row : TargetCommandRow) : TargetCommandRow :=
  { row with
    status := .failed
    rejectCode := some "DEFERRED_DELIVERY_EXPIRED"
    rejectMessage := some "Target terminal did not reconnect within the 5 minute copy window"
    terminalAckAt := some now
    lease := none }

/-- The parent's status after an expiry, judged on the rows before it. -/
def deferredParentStatus (tables : CommandTables) (parentId : String) : ParentStatus :=
  if (tables.targetsOf parentId).any (fun row => row.status ≠ .rejected
      && row.status ≠ .cancelled && row.status ≠ .failed) then
    .partiallyRejected
  else .failed

/-- `expire_deferred_orders`: one statement, so the parents are judged on the rows before it. -/
def expireDeferredOrders (now : Millis) (tables : CommandTables) : CommandTables :=
  let expired := tables.commands.filter (deferredExpired now)
  CommandTables.setParents
    { tables with
      commands := Table.updateWhere (deferredExpired now) (expireWaiting now) tables.commands }
    (expired.map (·.parentCommandId)) (deferredParentStatus tables)

end MarketLens.Commands
