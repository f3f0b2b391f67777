import MarketLens.Lib.Run
import MarketLens.Commands.Outcome

/-!
# The command-delivery protocol

The gateway's database transactions about target commands, in any order and at
any time: pairing and heartbeats, enqueues, polls, acknowledgements, the
settling of waiting orders, account stops. A transaction that is refused leaves
the state as it was, so it is no step.

Between two transactions the gateway remembers two things: the sessions that
requests were authenticated under, which may be revoked before the request goes
on, and the parents of refused orders, whose status a statement of its own writes
after the refusal.
-/

namespace MarketLens.Commands

open Store Copier

structure QueueState where
  tables : CommandTables
  /-- The sessions some request has been authenticated under. -/
  requests : List EaSession
  /-- The parents a refused order still has to finalize. -/
  finalizing : List String

def QueueState.start : QueueState := ⟨.empty, [], []⟩

inductive QueueAction where
  | pair (accountId : String) (sessionId : Nat) (account : EaAccountSnapshot)
      (assignment : Option Bool) (now : Millis)
  | authenticate (sessionId : Nat) (fenced : Bool) (now : Millis)
  | heartbeat (session : EaSession) (account : EaAccountSnapshot)
  | manageTerminals (accounts : List AccountRow)
  | enqueue (copier : CopyTables) (accountId : String) (command : EaCommand) (now : Millis)
  | deferOrder (intent : OrderIntent) (target : AdminOrderTarget) (now : Millis)
  | poll (session : EaSession) (now : Millis)
  | acknowledge (session : EaSession) (events : List EaEvent) (now : Millis)
  | leaseDeferred (session : EaSession) (now : Millis)
  | releaseDeferred (session : EaSession) (id : String) (now : Millis)
  | activateDeferred (session : EaSession) (order : RoutedOrder) (now : Millis)
  | rejectDeferred (session : EaSession) (id accountId : String) (code : RouteRejectCode)
      (message : String) (now : Millis)
  | finalizeRejected (parentId : String)
  | expireDeferred (now : Millis)
  | manageAccount (copier : CopyTables) (accountId : String) (remove : Bool) (now : Millis)
  | disconnectManaged (accountId : String) (expectedRevision : Nat) (now : Millis)

namespace QueueState

/-- The rows of the users' own terminals, which only the gateway itself writes. -/
def directAccounts (accounts : List AccountRow) : List AccountRow :=
  accounts.filter (·.connector = .direct)

/-- Go on with new tables. -/
def withTables (s : QueueState) (tables : CommandTables) : QueueState :=
  { s with tables := tables }

def commit {ε : Type} (s : QueueState) (result : Except ε CommandTables) : Option QueueState :=
  result.toOption.map s.withTables

/-- Act for an authenticated session. -/
def asSession (s : QueueState) (session : EaSession) (next : Option QueueState) :
    Option QueueState :=
  if session ∈ s.requests then next else none

/-- One transaction. -/
def step (s : QueueState) : QueueAction → Option QueueState
  | .pair accountId sessionId account assignment now =>
    s.commit (createSession accountId sessionId account assignment now s.tables)
  | .authenticate sessionId fenced now =>
    (Commands.authenticate sessionId fenced now s.tables).toOption.map fun (session, tables) =>
      { s with tables := tables, requests := session :: s.requests }
  | .heartbeat session account =>
    s.asSession session (s.commit (touchAccount session.accountId account s.tables))
  -- the service that runs managed terminals writes their account rows, and no other
  | .manageTerminals accounts =>
    if directAccounts accounts = directAccounts s.tables.accounts then
      some (s.withTables { s.tables with accounts := accounts })
    else none
  | .enqueue copier accountId command now =>
    s.commit (Commands.enqueue copier accountId command now s.tables)
  | .deferOrder intent target now => s.commit (Commands.deferOrder intent target now s.tables)
  | .poll session now =>
    s.asSession session (s.commit ((pollCommands session now s.tables).map Prod.snd))
  | .acknowledge session events now =>
    s.asSession session (s.commit (acknowledgeBatch session.accountId now events s.tables))
  | .leaseDeferred session now =>
    s.asSession session (some (s.withTables (Commands.leaseDeferred session now s.tables)))
  | .releaseDeferred session id now =>
    s.asSession session (some (s.withTables (Commands.releaseDeferred session id now s.tables)))
  | .activateDeferred session order now =>
    s.asSession session
      (some (s.withTables (Commands.activateDeferred session order now s.tables)))
  | .rejectDeferred session id accountId code message now =>
    s.asSession session (some
      { s with
        tables := Commands.rejectDeferred session id accountId code message now s.tables
        finalizing := rejectedParents session id accountId s.tables ++ s.finalizing })
  | .finalizeRejected parentId =>
    if parentId ∈ s.finalizing then
      some { s with
        tables := Commands.finalizeRejected parentId s.tables
        finalizing := s.finalizing.erase parentId }
    else none
  | .expireDeferred now => some (s.withTables (expireDeferredOrders now s.tables))
  | .manageAccount copier accountId remove now =>
    s.commit (Commands.manageAccount copier accountId remove now s.tables)
  | .disconnectManaged accountId expectedRevision now =>
    (Commands.disconnectManaged accountId expectedRevision now s.tables).map s.withTables

end QueueState

/-! ## What a statement sees

An acknowledgement writes the row of its command and then, in a statement of its own, the parent; the
expiry of a poll does the same. Each statement sees what was committed when it began, so the second
one may see the siblings of the row as they were before a transaction that has committed since.
-/

/-- The rows a statement sees: those its own transaction has written, and the others in a picture. -/
def seenBy (written : List String) (picture tables : CommandTables) : CommandTables :=
  { tables with
    commands := tables.commands.filter (written.contains ·.id)
      ++ picture.commands.filter (!written.contains ·.id) }

/-- One event of a batch that has written some rows, with the picture that its parent is judged on. -/
def acknowledgeSeeing (accountId : String) (now : Millis) (state : List String × CommandTables)
    (event : EaEvent × CommandTables) : Except ApiError (List String × CommandTables) :=
  match report event.1 with
  | none => .ok state
  | some report =>
    let written := report.commandId :: state.1
    let updated := { state.2 with
      commands := Table.updateWhere (acknowledges accountId report) (acknowledgeRow report now)
        state.2.commands }
    if state.2.commands.countP (acknowledges accountId report) = 1 then
      .ok (written, if report.status = .unknown then updated
        else updated.setParents (parentsOfCommand updated report.commandId)
          (acknowledgedParentStatus (seenBy written event.2 updated)))
    else .error commandEventInvalid

/-- The expiry of a poll. -/
def expireSeeing (picture : CommandTables) (accountId : String) (now : Millis) (tables : CommandTables) :
    CommandTables :=
  let stale := tables.commands.filter (deliveryExpired accountId now)
  let expired := { tables with
    commands := Table.updateWhere (deliveryExpired accountId now) (expireDelivery now)
      tables.commands }
  expired.setParents (stale.map (·.parentCommandId))
    (stoppedParentStatus (seenBy (stale.map (·.id)) picture expired))

/-- The queue, and the tables of its earlier states, the latest first. -/
structure QueueHistory where
  queue : QueueState
  past : List CommandTables

/-- A transaction, with the age of each picture it judges a parent on. The statements of the other
transactions write the same whichever picture they see. -/
inductive SeeingAction where
  | whole (action : QueueAction)
  | acknowledge (session : EaSession) (events : List (EaEvent × Nat)) (now : Millis)
  | poll (session : EaSession) (age : Nat) (now : Millis)

def QueueAction.judgesLater : QueueAction → Bool
  | .acknowledge .. | .poll .. => true
  | _ => false

namespace QueueHistory

def start : QueueHistory := ⟨.start, []⟩

def picture? (s : QueueHistory) (age : Nat) : Option CommandTables := (s.queue.tables :: s.past)[age]?

/-- The events of a batch with their pictures. -/
def pictured (s : QueueHistory) (events : List (EaEvent × Nat)) : Option (List (EaEvent × CommandTables)) :=
  events.mapM fun event => (s.picture? event.2).map (event.1, ·)

def next (s : QueueHistory) : SeeingAction → Option QueueState
  | .whole action => if action.judgesLater then none else s.queue.step action
  | .acknowledge session events now => do
    let events ← s.pictured events
    s.queue.asSession session (s.queue.commit
      ((events.foldlM (acknowledgeSeeing session.accountId now) ([], s.queue.tables)).map Prod.snd))
  | .poll session age now => do
    let picture ← s.picture? age
    s.queue.asSession session (s.queue.commit ((leaseCommands session now
      (expireSeeing picture session.accountId now s.queue.tables)).map Prod.snd))

/-- One transaction. -/
def step (s : QueueHistory) (action : SeeingAction) : Option QueueHistory :=
  (s.next action).map fun queue => ⟨queue, s.queue.tables :: s.past⟩

end QueueHistory

end MarketLens.Commands
