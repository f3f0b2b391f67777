import MarketLens.Replay.Orders

/-!
# The session clock

A session and its tracks, and what one command does to them and to the ledger. A
session of one track and a session of two to four tracks step, seek and choose
their interval in separate code; every other command of a synchronized session
goes through the code of one track.

A step is counted in replay intervals. It reveals, track by track, every source row
up to its target time, and an interval without rows jumps to the next row there is.
-/

namespace MarketLens.Replay

open Fallible

/-- The actor that plays a session, and until when. -/
structure Lease where
  owner : String
  «until» : Int
deriving DecidableEq

/-- A row of `replay_sessions`. -/
structure Session where
  status : SessionStatus
  generation : Nat
  version : Nat
  nextEventSeq : Nat
  speed : Decimal
  replayIntervalSeconds : Nat
  startTime : Int
  simulatedTime : Int
  endTime : Option Int
  pauseReason : Option String
  closedAt : Option Int
  lease : Option Lease

/-- A row of `replay_tracks` joined with its dataset. -/
structure Track where
  id : Uuid
  slot : Nat
  symbol : String
  chartTimeframe : Timeframe
  cursorSeq : Nat
  visibleThrough : Int
  aggregateState : AggregateState
  dataset : Dataset

/-- The commands of a session with their payloads; `none` is a payload that does not decode. -/
inductive Command where
  | play
  | pause
  | pauseNoSubscribers
  | pauseServerRestart
  | step (count : Option Int)
  | clockStep (count : Option Int)
  | setSpeed (speed : Option Decimal)
  | setReplayInterval (requested : Option String)
  | seek (target : Option (Option Int × Bool))
  | restart (resetTrading : Bool)
  | placeOrder (body : Option PlaceBody)
  | cancelOrder (orderId : Option Uuid)
  | closePosition (body : Option CloseBody)
  | updateOrder (body : Option UpdateBody)
  | resetTrading
  | close
  | unsupported (type : String)
deriving DecidableEq

/-- `__clock_step`. -/
def Command.isClockStep : Command → Bool
  | .clockStep _ => true
  | _ => false

/-- `step` or `__clock_step`. -/
def Command.isStep : Command → Bool
  | .step _ | .clockStep _ => true
  | _ => false

/-- What a transition leaves: the rows, the drafted events, and whether anything changed. -/
structure Moved where
  session : Session
  tracks : List Track
  ledger : Ledger
  drafts : List EventDraft
  changed : Bool

/-! ## Stepping -/

def maxStepCount : Int := 100

/-- `replayStepCount`. -/
def replayStepCount (payload : Option Int) : Except ReplayError Nat := do
  let given ← require payload (.badRequest "invalid step payload")
  let count := if given = 0 then 1 else given
  refuseIf (count < 1 || maxStepCount < count) (.badRequest "step.count must be between 1 and 100")
  return count.toNat

def Track.unavailable (track : Track) (lastAvailable : Int) : ReplayError :=
  .dataUnavailable track.dataset.firstTime lastAvailable track.slot track.symbol track.chartTimeframe

/-- Where stepping ends: the earliest last row of a track, or the end time before it. -/
def completionTime (session : Session) (tracks : List Track) : Int :=
  let lastRow := ((tracks.map fun track => track.dataset.lastTime).min?).getD session.simulatedTime
  match session.endTime with
  | some endTime => min endTime lastRow
  | none => lastRow

/-- The row each track shows at a time. -/
def selectAtTarget (target : Int) : List Track → Except ReplayError (List Bar)
  | [] => .ok []
  | track :: rest => do
    let bar ← require (track.dataset.barAtOrBefore target) (track.unavailable track.dataset.lastTime)
    let bars ← selectAtTarget target rest
    return bar :: bars

/-- Some track would reveal a row. -/
def advances (tracks : List Track) (selected : List Bar) : Bool :=
  (tracks.zip selected).any fun (track, bar) => track.cursorSeq < bar.seq

/-- The next row of a track, when it opens after the target and not after the end. -/
def Track.nextOpening (track : Track) (target completion : Int) : Option Int :=
  if track.dataset.rowCount ≤ track.cursorSeq + 1 then none
  else
    ((track.dataset.barBySeq (track.cursorSeq + 1)).map (·.openTime)).filter fun candidate =>
      target < candidate && candidate ≤ completion

/-- `resolveReplayStepTarget`: an interval in which no track has a row ends at the next row of any. -/
def resolveReplayStepTarget (tracks : List Track) (target completion : Int) :
    Except ReplayError (List Bar × Int) := do
  let selected ← selectAtTarget target tracks
  if advances tracks selected || completion ≤ target then return (selected, target)
  else match (tracks.filterMap fun track => track.nextOpening target completion).min? with
    | none => return (selected, target)
    | some next => do
      let selected ← selectAtTarget next tracks
      return (selected, next)

/-- `currentAggregateState`. -/
def Track.currentAggregateState (track : Track) : Except ReplayError AggregateState :=
  if track.aggregateState.lastSourceSeq = track.cursorSeq then .ok track.aggregateState
  else do
    let rebuilt ← require (aggregateRevealedBars track.chartTimeframe
      (track.dataset.barsThroughSeq track.cursorSeq)) .aggregation
    return rebuilt.2

/-- `appendReplayBarDrafts`. -/
def replayBarDrafts (trackId : Uuid) (bars : List ReplayBar) (batch : Bool) : List EventDraft :=
  if batch && 1 < bars.length then [.barsBatch trackId bars] else bars.map (.barUpsert trackId)

/-- A track moved to a row further on. -/
def Track.movedTo (track : Track) (bar : Bar) (state : AggregateState) : Track :=
  { track with cursorSeq := bar.seq, visibleThrough := bar.openTime, aggregateState := state }

/-- What revealing rows on one track does: the candles, the trading on them, the track moved. -/
structure Revealed where
  track : Track
  ledger : Ledger
  drafts : List EventDraft
  trading : List EventDraft

/-- The rows a step reveals on a track. -/
def Track.revealedBy (track : Track) (selected : Bar) : List Bar :=
  track.dataset.barsBySeqRange track.cursorSeq selected.seq

/-- Trading on the revealed rows. Without a ledger they are revealed and nothing trades on them. -/
def tradeRows (useLedger : Bool) (track : Track) (selected : Bar) (ledger : Ledger) :
    Except ReplayError (List EventDraft × Ledger) :=
  if useLedger then ledger.processRows track.id track.symbol (track.revealedBy selected)
  else .ok ([], ledger)

/-- One track of a step. -/
def revealRows (useLedger batch : Bool) (track : Track) (selected : Bar) (ledger : Ledger) :
    Except ReplayError Revealed :=
  if selected.seq ≤ track.cursorSeq then .ok ⟨track, ledger, [], []⟩
  else do
    let state ← track.currentAggregateState
    let (state, upserts) ← require
      (aggregateSourceBars state track.chartTimeframe (track.revealedBy selected)) .aggregation
    let (trading, ledger) ← tradeRows useLedger track selected ledger
    return ⟨track.movedTo selected state, ledger,
      replayBarDrafts track.id (coalesceBarUpserts upserts) batch, trading⟩

/-- One track of a step, as a round over the tracks in slot order. -/
def revealTrack (useLedger batch : Bool) (ledger : Ledger) (next : Track × Bar) :
    Except ReplayError (List Revealed × Ledger) := do
  let revealed ← revealRows useLedger batch next.1 next.2 ledger
  return ([revealed], revealed.ledger)

/-- Whether a step may run: `none` when a clock step finds the session not playing. -/
def stepCount (session : Session) : Command → Except ReplayError (Option Nat)
  | .step payload => do
    refuseIf (session.status ≠ .paused) (.badRequest "step requires a paused session")
    let count ← replayStepCount payload
    return some count
  | .clockStep payload =>
    if session.status ≠ .playing then .ok none
    else do
      let count ← replayStepCount payload
      return some count
  | _ => .ok none

/-- The clock after a step that reached its target. -/
def Session.arrived (session : Session) (target completion : Int) : Session :=
  if completion ≤ target then
    { session with simulatedTime := target, status := .completed, pauseReason := none }
  else { session with simulatedTime := target }

def Session.stateChanged (session : Session) : EventDraft :=
  .stateChanged session.status session.speed session.pauseReason session.replayIntervalSeconds

def Track.cursorAdvanced (track : Track) : EventDraft :=
  .cursorAdvanced track.id track.cursorSeq track.visibleThrough

def Track.trackReset (track : Track) : EventDraft :=
  .trackReset track.id track.cursorSeq track.visibleThrough

/-- The target of a step before gaps are skipped. -/
def stepTarget (session : Session) (tracks : List Track) (count : Nat) : Int :=
  min (session.simulatedTime + session.replayIntervalSeconds * count * second)
    (completionTime session tracks)

end MarketLens.Replay
