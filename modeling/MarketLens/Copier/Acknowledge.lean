import MarketLens.Commands.Outcome
import MarketLens.Copier.Outbox

/-!
# What a report settles for the copier

An EA's report on a copied command is stored in the transaction that stores it in
the queue: the outbox row gets its outcome, and the links that remember the command
get what came of it, among it the ticket of an order and the volumes that a partial
close leaves.
-/

namespace MarketLens.Copier

open Store Commands Fallible

/-- The status of an outcome, as it is quoted in an outbox row. -/
def outcomeText (status : TargetStatus) : String :=
  if status = .accepted then "accepted" else if status = .unknown then "unknown" else "failed"

def acknowledgeOutbox (report : Report) (row : OutboxRow) : OutboxRow :=
  { row with
    status := if report.status = .accepted then .acknowledged
      else if report.status = .unknown then .retry else .deadLetter
    targetCommandId := row.targetCommandId <|> some report.commandId
    lastError := if report.status = .accepted then none
      else some ("EA command outcome: " ++ outcomeText report.status) }

section Link

variable (report : Report) (brokerPositionId : Option String) (outbox : OutboxRow) (now : Time)
  (link : LinkRow)

def opensTarget : Bool := outbox.commandType = "place" || outbox.commandType = "open_market"

/-- The ticket a link has, or gets. -/
def acknowledgedTicket : Option String :=
  match link.target with
  | some target => some target.2
  | none => if link.metadata.expectedTargetKind = some .position then brokerPositionId
      else report.brokerOrderId

/-- The target a link has, or gets from the order that opened it. -/
def acknowledgedTarget : Option (EntityKind × String) :=
  link.target <|> if report.status = .accepted && opensTarget outbox then do
      let kind ← link.metadata.expectedTargetKind
      let ticket ← acknowledgedTicket report brokerPositionId link
      return (kind, ticket)
    else none

/-- The update would leave a ticket without its kind, which a CHECK constraint refuses. -/
def halfTarget : Bool :=
  (acknowledgedTicket report brokerPositionId link).isSome
    && (acknowledgedTarget report brokerPositionId outbox link).isNone

def acknowledgedStatus : LinkStatus :=
  if report.status ≠ .accepted then .error
  else if opensTarget outbox && (acknowledgedTicket report brokerPositionId link).isSome then .active
  else if outbox.commandType = "close_position" then .closed
  else if outbox.commandType = "cancel_pending" then .cancelled
  else link.lifecycleStatus

/-- A partial close that was accepted. -/
def reducesLeg : Bool := report.status = .accepted && outbox.commandType = "partial_close"

/-- The link of a command that was reported on. -/
def acknowledgeLink : LinkRow :=
  { link with
    target := acknowledgedTarget report brokerPositionId outbox link
    lifecycleStatus := acknowledgedStatus report brokerPositionId outbox link
    sourceQuantity := if reducesLeg report outbox
      then outbox.commandPayload.copierSourceRemaining <|> link.sourceQuantity else link.sourceQuantity
    targetQuantity := if reducesLeg report outbox
      then outbox.commandPayload.copierTargetRemaining <|> link.targetQuantity else link.targetQuantity
    revision := link.revision + 1
    updatedAt := now }

end Link

def reportedOutbox (report : Report) (outbox : List OutboxRow) (link : LinkRow) : Option OutboxRow :=
  outbox.find? fun row => row.targetCommandId = some report.commandId
    && row.groupId = link.groupId && row.targetAccountId = link.targetAccountId
    && (link.metadata.commandId = some report.commandId
      || link.metadata.lastCommandId = some report.commandId)

def reportedLink (report : Report) (brokerPositionId : Option String) (outbox : List OutboxRow)
    (now : Time) (link : LinkRow) : LinkRow :=
  match reportedOutbox report outbox link with
  | some row => acknowledgeLink report brokerPositionId row now link
  | none => link

/-- The copier's half of an acknowledgement. `brokerPositionId` is the position that the trade
transactions of the account name for the reported order. -/
def acknowledgeCopier (report : Report) (brokerPositionId : Option String) (now : Time)
    (tables : CopyTables) : Except ApiError CopyTables := do
  let outbox := Table.updateWhere (·.targetCommandId = some report.commandId)
    (acknowledgeOutbox report) tables.outbox
  refuseIf (tables.links.any fun link => (reportedOutbox report outbox link).any fun row =>
      halfTarget report brokerPositionId row link) internalError
  return { tables with
    outbox := outbox
    links := tables.links.map (reportedLink report brokerPositionId outbox now) }

end MarketLens.Copier
