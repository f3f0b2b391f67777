import MarketLens.Replay.Transition

/-!
# The command transaction

`applyCommand` runs one command of a session in one transaction: the idempotency
log, the version check, the actor lease, the transition, the event log, the equity
curve, the checkpoint. The caller may hand in the projection of the ledger it holds.
A step whose projection is idle then leaves the ledger alone, and a command that
drafts no trade event answers with the projection it was given.
-/

namespace MarketLens.Replay

open Fallible

/-! ## Rows -/

/-- `TrackSnapshot`. -/
structure TrackSnapshot where
  id : Uuid
  slot : Nat
  symbol : String
  chartTimeframe : Timeframe
  cursorSeq : Nat
  visibleThrough : Int

/-- `SessionSnapshot`. -/
structure SessionSnapshot where
  status : SessionStatus
  generation : Nat
  version : Nat
  lastEventSeq : Nat
  speed : Decimal
  replayIntervalSeconds : Nat
  startTime : Int
  simulatedTime : Int
  endTime : Option Int
  pauseReason : Option String
  closedAt : Option Int
  tracks : List TrackSnapshot
  trading : Option TradingSnapshot

/-- `CommandResult` of an applied command. -/
structure CommandResult where
  commandId : Uuid
  duplicate : Bool
  snapshot : SessionSnapshot

/-- What a stored command came to. -/
inductive CommandOutcome where
  | applied (result : CommandResult)
  | versionConflict (currentVersion : Nat)
  | sessionClosed

/-- A row of `replay_commands`. -/
structure CommandRow where
  id : Uuid
  commandSeq : Nat
  idempotencyKey : String
  outcome : CommandOutcome

/-- A row of `replay_events`. -/
structure EventRow where
  eventSeq : Nat
  version : Nat
  simulatedAt : Int
  draft : EventDraft

/-- A row of `replay_checkpoints`. -/
structure CheckpointRow where
  generation : Nat
  eventSeq : Nat
  simulatedTime : Int
  snapshot : SessionSnapshot

/-- Everything stored about one session. -/
structure Database where
  session : Session
  tracks : List Track
  ledger : Ledger
  commands : List CommandRow
  events : List EventRow
  checkpoints : List CheckpointRow

/-- `CommandInput`, with the time of the call; an absent owner is empty and an absent lease zero. -/
structure CommandInput where
  idempotencyKey : String
  expectedVersion : Option Nat
  command : Command
  actorOwner : String
  actorLeaseUntil : Int
  runtimeTrading : Option TradingSnapshot
  now : Int

/-! ## Checks -/

/-- `allowsStaleExpectedVersion`. -/
def allowsStaleExpectedVersion (command : Command) : Bool := command = .pause

/-- `TradingSnapshot` without working orders and open positions. -/
def TradingSnapshot.idle (trading : TradingSnapshot) : Bool :=
  trading.orders.all (fun order => !order.status.active) &&
    trading.positions.all fun position => |volume position.netQuantity| ≤ dust

/-- `canReuseIdleTradingProjection`. -/
def canReuseIdleTradingProjection (input : CommandInput) : Bool :=
  input.command.isStep && input.runtimeTrading.any TradingSnapshot.idle

/-- `claimRuntimeActor`: a playing session answers only to the actor that leases it. -/
def claimRuntimeActor (session : Session) (input : CommandInput) :
    Except ReplayError (Session × Bool) :=
  let requiresActor := session.status = .playing || input.command = .play
    || input.command.isClockStep
  let activeOtherOwner := session.lease.any fun lease =>
    lease.owner ≠ input.actorOwner && input.now < lease.until
  if !requiresActor then .ok (session, false)
  else if input.actorOwner = "" then
    if input.command = .pauseServerRestart && !activeOtherOwner then .ok (session, false)
    else .error .sessionBusy
  else if activeOtherOwner then .error .sessionBusy
  else
    let leaseUntil := if input.actorLeaseUntil ≤ input.now then input.now + 5 * second
      else input.actorLeaseUntil
    let lease : Lease := ⟨input.actorOwner, leaseUntil⟩
    .ok ({ session with lease := some lease }, session.lease ≠ some lease)

/-- `duplicateCommandResult`. -/
def duplicateCommandResult : CommandOutcome → Except ReplayError CommandResult
  | .applied result => .ok { result with duplicate := true }
  | .versionConflict currentVersion => .error (.versionConflict currentVersion)
  | .sessionClosed => .error .sessionClosed

/-! ## Projection of the session -/

def Track.snapshot (track : Track) : TrackSnapshot :=
  ⟨track.id, track.slot, track.symbol, track.chartTimeframe, track.cursorSeq, track.visibleThrough⟩

/-- `snapshotFromRuntimeRows`. -/
def snapshotFromRuntimeRows (session : Session) (tracks : List Track)
    (trading : Option TradingSnapshot) : SessionSnapshot :=
  ⟨session.status, session.generation, session.version, session.nextEventSeq - 1, session.speed,
    session.replayIntervalSeconds, session.startTime, session.simulatedTime, session.endTime,
    session.pauseReason, session.closedAt, tracks.map Track.snapshot, trading⟩

namespace Database

variable (db : Database)

/-- `snapshotWithQueries` and `Repo.Get`: the snapshot of what is stored. -/
def load : SessionSnapshot :=
  snapshotFromRuntimeRows db.session db.tracks (loadTradingSnapshot db.ledger)

/-- `NextReplayCommandSeq`. -/
def nextCommandSeq : Nat := (db.commands.map (·.commandSeq)).foldl max 0 + 1

def rejected (input : CommandInput) (outcome : CommandOutcome) : Database :=
  { db with
    ledger := { db.ledger with uuids := db.ledger.drawn }
    commands := db.commands ++
      [⟨db.ledger.nextId, db.nextCommandSeq, input.idempotencyKey, outcome⟩] }

end Database

/-! ## The transaction -/

/-- A lease is let go of when the session no longer plays. -/
def releaseIdleLease (session : Session) (leaseChanged : Bool) : Session × Bool :=
  if session.status ≠ .playing && session.lease.isSome then ({ session with lease := none }, true)
  else (session, leaseChanged)

/-- The event rows of a command, numbered up to `next_event_seq`. -/
def eventRows (session : Session) (drafts : List EventDraft) : List EventRow :=
  drafts.zipIdx.map fun (draft, i) =>
    ⟨session.nextEventSeq - drafts.length + i, session.version, session.simulatedTime, draft⟩

/-- The point a trade command adds to the equity curve: the peak is the starting equity only until
there is a point. -/
def Ledger.recordEquity (ledger : Ledger) (eventSeq : Nat) (simulatedAt : Int) : Ledger :=
  match ledger.account with
  | none => ledger
  | some account =>
    let peak := ((ledger.equityPoints.map (·.equity)).max?).getD account.startingEquity
    let point : EquityPoint :=
      ⟨eventSeq, simulatedAt, account.balance, account.equity, max 0 (peak - account.equity)⟩
    let taken (other : EquityPoint) : Bool := other.eventSeq = eventSeq
    { ledger with equityPoints := Table.insertUnless taken point ledger.equityPoints }

/-- The session row after a transition, its version and event counter advanced if it changed. -/
def advanced (session : Session) (drafts : List EventDraft) (changed : Bool) : Session :=
  if changed then { session with
    version := session.version + 1, nextEventSeq := session.nextEventSeq + drafts.length }
  else session

/-- The body of `applyCommand` for a command that is new and not rejected. -/
def runCommand (db : Database) (input : CommandInput) :
    Except ReplayError (CommandResult × List EventRow × Database) := do
  let commandId := db.ledger.nextId
  let (session, leaseChanged) ← claimRuntimeActor db.session input
  refuseIf (db.tracks.length < 1 || 4 < db.tracks.length) .database
  let moved ← applyRuntimeTransitionTracks (!canReuseIdleTradingProjection input) session db.tracks
    { db.ledger with uuids := db.ledger.drawn } input.now input.command
  let (session, leaseChanged) := releaseIdleLease moved.session leaseChanged
  let session := advanced session moved.drafts moved.changed
  let events := eventRows session moved.drafts
  refuseIf (events.any fun event =>
    event.eventSeq = 0 || db.events.any fun old => old.eventSeq = event.eventSeq) .database
  let traded := tradeChangedInDrafts moved.drafts
  let ledger := match events.getLast? with
    | some last => if traded then moved.ledger.recordEquity last.eventSeq session.simulatedTime
      else moved.ledger
    | none => moved.ledger
  let trading := if input.runtimeTrading.isNone || traded then loadTradingSnapshot ledger
    else input.runtimeTrading
  let snapshot := snapshotFromRuntimeRows session moved.tracks trading
  refuseIf (moved.changed && db.checkpoints.any fun point =>
    point.generation = session.generation && point.eventSeq = snapshot.lastEventSeq) .database
  let result : CommandResult := ⟨commandId, false, snapshot⟩
  return (result, events, {
    session := if moved.changed || leaseChanged then session else db.session
    tracks := if moved.changed then moved.tracks else db.tracks
    ledger
    commands := db.commands ++ [⟨commandId, db.nextCommandSeq, input.idempotencyKey, .applied result⟩]
    events := db.events ++ events
    checkpoints := if moved.changed then
      db.checkpoints ++ [⟨session.generation, snapshot.lastEventSeq, session.simulatedTime, snapshot⟩]
      else db.checkpoints })

/-- The answer to a command and the events to publish. -/
abbrev Response := Except ReplayError (CommandResult × List EventRow)

/-- `applyCommand`. -/
def applyCommand (db : Database) (input : CommandInput) : Response × Database :=
  match db.commands.find? fun row => row.idempotencyKey = input.idempotencyKey with
  | some row => ((duplicateCommandResult row.outcome).map fun result => (result, []), db)
  | none =>
    if input.expectedVersion.any (· ≠ db.session.version)
        && !allowsStaleExpectedVersion input.command then
      (.error (.versionConflict db.session.version),
        db.rejected input (.versionConflict db.session.version))
    else if db.session.status = .closed then
      (.error .sessionClosed, db.rejected input .sessionClosed)
    else match runCommand db input with
      | .ok (result, events, committed) => (.ok (result, events), committed)
      | .error e => (.error e, db)

end MarketLens.Replay
