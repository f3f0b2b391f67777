import MarketLens.Replay.Session

/-!
# Transitions of a session

`applyRuntimeTransition` for one track, its synchronized counterparts for a step, a
seek and an interval change over several tracks, and the choice between them.
-/

namespace MarketLens.Replay

open Fallible

/-! ## Seeking -/

def seekTarget (session : Session) : Command → Except ReplayError (Int × Bool)
  | .seek (some (some target, resetTrading)) => .ok (target, resetTrading)
  | .restart resetTrading => .ok (session.startTime, resetTrading)
  | _ => .error (.badRequest "seek.time is required")

/-- The reason a seek or restart pauses the session with. -/
def seekReason : Command → String
  | .restart _ => "restart"
  | _ => "seek"

/-- The rewind guard: going back over fills takes a reset. -/
def rewind (useLedger : Bool) (session : Session) (target : Int) (resetTrading : Bool)
    (ledger : Ledger) : Except ReplayError (List EventDraft × Ledger) :=
  if useLedger && target < session.simulatedTime && ledger.hasFills then
    if resetTrading then .ok (ledger.reset target) else .error .rewindRequiresFork
  else .ok ([], ledger)

/-- A track moved to the row a time selects, its candles rebuilt. -/
def seekTrack (target : Int) (track : Track) : Except ReplayError Track := do
  refuseIf (target < track.dataset.firstTime || track.dataset.availableEnd ≤ target)
    (track.unavailable track.dataset.availableEnd)
  let selected ← require (track.dataset.barAtOrBefore target)
    (track.unavailable track.dataset.availableEnd)
  let rebuilt ← require (aggregateRevealedBars track.chartTimeframe
    (track.dataset.barsThroughSeq selected.seq)) .aggregation
  return track.movedTo selected rebuilt.2

def seekTracks (target : Int) : List Track → Except ReplayError (List Track)
  | [] => .ok []
  | track :: rest => do
    let moved ← seekTrack target track
    let more ← seekTracks target rest
    return moved :: more

/-! ## Replay intervals -/

/-- `strings.EqualFold` with a lower-case ASCII word. -/
def equalFold (value word : String) : Bool := value.toList.map Char.toLower = word.toList

def unsupportedInterval (message : String) : ReplayError := .unsupportedReplayInterval message

/-- `resolveReplayInterval`. -/
def resolveReplayInterval (requested : String) (chartTimeframe : Timeframe) (sourceSeconds : Nat) :
    Except ReplayError Nat :=
  let requested := trim requested
  if requested = "" || equalFold requested "auto" then
    if chartTimeframe = .w1 || chartTimeframe = .mo1 then .ok 86400 else .ok chartTimeframe.seconds
  else
    let refused := unsupportedInterval
      s!"\"{requested}\" cannot build {chartTimeframe.text} from {sourceSeconds}s source rows"
    match normalizeTimeframe requested with
    | none => .error refused
    | some timeframe =>
      let interval := timeframe.seconds
      if interval < sourceSeconds
          || (chartTimeframe ≠ .mo1 && chartTimeframe.seconds % interval ≠ 0) then .error refused
      else if chartTimeframe = .mo1 && interval ≠ 86400 then
        .error (unsupportedInterval "monthly charts currently require 1D")
      else .ok interval

/-- The explicit interval all tracks resolve a request to; `resolved` is what the tracks so far
agreed on, zero at first. -/
def resolveSharedInterval (requested : String) : Nat → List Track → Except ReplayError Nat
  | resolved, [] => .ok resolved
  | resolved, track :: rest => do
    let interval ← resolveReplayInterval requested track.chartTimeframe
      track.dataset.baseIntervalSeconds
    refuseIf (resolved ≠ 0 && resolved ≠ interval) (unsupportedInterval
      s!"\"{requested}\" does not resolve consistently across tracks")
    resolveSharedInterval requested interval rest

/-- The largest interval every track can be stepped by. -/
def sharedAutoInterval (tracks : List Track) : Option Nat :=
  [86400, 14400, 7200, 3600, 1800, 900, 300, 180, 60].find? fun candidate =>
    tracks.all fun track =>
      track.dataset.baseIntervalSeconds ≤ candidate &&
        (if track.chartTimeframe = .mo1 then candidate = 86400
        else track.chartTimeframe.seconds % candidate = 0)

/-- `resolveReplayIntervalForTracks`. -/
def resolveReplayIntervalForTracks (requested : String) (tracks : List Track) :
    Except ReplayError Nat :=
  let requested := trim requested
  if requested ≠ "" && !equalFold requested "auto" then resolveSharedInterval requested 0 tracks
  else require (sharedAutoInterval tracks)
    (unsupportedInterval "tracks do not share a replay interval")

/-! ## One track -/

/-- The part of a transition before its changes are compared: the rows it leaves, what it drafted,
and whether it traded. -/
structure Attempt where
  session : Session
  track : Track
  ledger : Ledger
  drafts : List EventDraft
  tradeChanged : Bool

section OneTrack

variable (useLedger : Bool) (session : Session) (track : Track) (ledger : Ledger)

/-- `step` and `__clock_step`; `none` is the clock of a session that is not playing. -/
def stepOne (command : Command) : Except ReplayError (Option Attempt) := do
  match ← stepCount session command with
  | none => return none
  | some count =>
    let completion := completionTime session [track]
    let (selected, target) ← resolveReplayStepTarget [track] (stepTarget session [track] count)
      completion
    let batch := command.isClockStep && 1 < count
    let revealed ← revealRows useLedger batch track (← require selected.head? .database) ledger
    return some ⟨session.arrived target completion, revealed.track, revealed.ledger,
      revealed.drafts ++ revealed.trading, !revealed.trading.isEmpty⟩

/-- `seek` and `restart`. The clock of one track shows the time of the row it stands on. -/
def seekOne (command : Command) : Except ReplayError Attempt := do
  let (target, resetTrading) ← seekTarget session command
  let (resetDrafts, ledger) ← rewind useLedger session target resetTrading ledger
  let moved ← seekTrack target track
  return ⟨{ session with
      simulatedTime := moved.visibleThrough
      status := .paused
      pauseReason := some (seekReason command) }, moved, ledger, resetDrafts ++ [moved.trackReset],
    !resetDrafts.isEmpty⟩

/-- The row under the cursor and the clock, as a trade command sees them. -/
def marketView : Except ReplayError MarketView := do
  let bar ← require (track.dataset.barBySeq track.cursorSeq) .database
  return ⟨track.id, track.symbol, session.simulatedTime, bar⟩

def tradeLedger : Command → Except ReplayError (List EventDraft × Ledger)
  | .placeOrder body => do ledger.place (← marketView session track) body
  | .cancelOrder orderId => ledger.cancel orderId
  | .closePosition body => do ledger.closePosition (← marketView session track) session.version body
  | .updateOrder body => ledger.updateBracket body
  | _ => .ok (ledger.reset session.simulatedTime)

def tradeOne (command : Command) : Except ReplayError Attempt := do
  refuseIf (!useLedger) (.badRequest "replay trading is unavailable")
  refuseIf (!ledger.enabled) (.badRequest "replay trading is disabled for this session")
  let (drafts, ledger) ← tradeLedger session track ledger command
  return ⟨session, track, ledger, drafts, true⟩

/-- The commands that touch nothing but the session row; the rest are dispatched before. -/
def transport (now : Int) : Command → Except ReplayError Session
  | .play =>
    if session.status = .completed then
      .error (.badRequest "restart or seek before playing a completed session")
    else if session.status = .paused then .ok { session with status := .playing, pauseReason := none }
    else .ok session
  | .pause => pausedWith "manual"
  | .pauseNoSubscribers => pausedWith "no_subscribers"
  | .pauseServerRestart => pausedWith "server_restart"
  | .setSpeed speed => do
    let speed ← require speed (.badRequest "speed must be between 0 and 100")
    refuseIf (speed ≤ 0 || 100 < speed) (.badRequest "speed must be between 0 and 100")
    return { session with speed := speed }
  | .setReplayInterval requested => do
    let requested ← require requested (.badRequest "invalid replay interval payload")
    let interval ← resolveReplayInterval requested track.chartTimeframe
      track.dataset.baseIntervalSeconds
    return { session with replayIntervalSeconds := interval }
  | .close => .ok
    { session with status := .closed, pauseReason := some "closed", closedAt := some now }
  | .unsupported type => .error (.badRequest s!"unsupported Phase 3 command \"{type}\"")
  | _ => .error .database
where
  pausedWith (reason : String) : Except ReplayError Session :=
    if session.status = .playing then
      .ok { session with status := .paused, pauseReason := some reason }
    else .ok session

/-- The closing part of `applyRuntimeTransition`: what changed, and the events that say so. A candle
that was `remarshalled` is a change of its own, since PostgreSQL stores JSON in another spelling. -/
def concluded (attempt : Attempt) (remarshalled isClose : Bool) : Attempt × Bool :=
  let after := attempt.session
  let statusChanged := session.status ≠ after.status
  let cursorChanged := track.cursorSeq ≠ attempt.track.cursorSeq
  let settingsChanged := session.speed ≠ after.speed
    || session.replayIntervalSeconds ≠ after.replayIntervalSeconds
  let timeChanged := session.simulatedTime ≠ after.simulatedTime
  if statusChanged || cursorChanged || settingsChanged || timeChanged || remarshalled || isClose
      || attempt.tradeChanged then
    ({ attempt with drafts := attempt.drafts
        ++ (if cursorChanged then [attempt.track.cursorAdvanced] else [])
        ++ (if statusChanged || settingsChanged || (!cursorChanged && timeChanged) || isClose
          then [after.stateChanged] else []) }, true)
  else ({ attempt with drafts := [] }, false)

/-- `applyRuntimeTransition`. A step marshals the candle only where it moves the cursor too. -/
def applyRuntimeTransition (now : Int) (command : Command) : Except ReplayError (Attempt × Bool) :=
  match command with
  | .step _ | .clockStep _ => do
    match ← stepOne useLedger session track ledger command with
    | none => return (⟨session, track, ledger, [], false⟩, false)
    | some attempt => return concluded session track attempt false false
  | .seek _ | .restart _ => do
    return concluded session track (← seekOne useLedger session track ledger command) true false
  | .placeOrder _ | .cancelOrder _ | .closePosition _ | .updateOrder _ | .resetTrading => do
    return concluded session track (← tradeOne useLedger session track ledger command) false false
  | command => do
    let after ← transport session track now command
    return concluded session track ⟨after, track, ledger, [], false⟩ false (command = .close)

end OneTrack

/-! ## Several tracks -/

section Synchronized

variable (useLedger : Bool) (session : Session) (tracks : List Track) (ledger : Ledger)

/-- `applySynchronizedStep`. -/
def applySynchronizedStep (command : Command) : Except ReplayError Moved := do
  match ← stepCount session command with
  | none => return ⟨session, tracks, ledger, [], false⟩
  | some count =>
    let completion := completionTime session tracks
    let (selected, target) ← resolveReplayStepTarget tracks (stepTarget session tracks count)
      completion
    let batch := command.isClockStep && 1 < count
    let (revealed, ledger) ← Journal.collect (revealTrack useLedger batch) ledger
      (tracks.zip selected)
    let after := session.arrived target completion
    let shown := revealed.map (·.track)
    let moved := (tracks.zip shown).filterMap fun (before, track) =>
      if before.cursorSeq ≠ track.cursorSeq then some track else none
    let drafts := revealed.flatMap (fun track => track.drafts ++ track.trading)
      ++ moved.map Track.cursorAdvanced
      ++ (if session.status ≠ after.status || moved.isEmpty then [after.stateChanged] else [])
    return ⟨after, shown, ledger, drafts, session.status ≠ after.status
      || session.simulatedTime ≠ target || !moved.isEmpty
      || !(revealed.flatMap (·.trading)).isEmpty⟩

/-- `applySynchronizedSeek`. The clock of several tracks shows the time asked for. -/
def applySynchronizedSeek (command : Command) : Except ReplayError Moved := do
  let (target, resetTrading) ← seekTarget session command
  let (resetDrafts, ledger) ← rewind useLedger session target resetTrading ledger
  let moved ← seekTracks target tracks
  let after := { session with
    simulatedTime := target, status := .paused, pauseReason := some (seekReason command) }
  return ⟨after, moved, ledger, resetDrafts
    ++ moved.flatMap (fun track => [track.trackReset, track.cursorAdvanced])
    ++ [after.stateChanged], true⟩

/-- `applySynchronizedReplayInterval`. -/
def applySynchronizedReplayInterval (requested : Option String) : Except ReplayError Moved := do
  let requested ← require requested (.badRequest "invalid replay interval payload")
  let interval ← resolveReplayIntervalForTracks requested tracks
  if interval = session.replayIntervalSeconds then return ⟨session, tracks, ledger, [], false⟩
  else
    let after := { session with replayIntervalSeconds := interval }
    return ⟨after, tracks, ledger, [after.stateChanged], true⟩

/-- `commandTrack`: the track a trade command of a synchronized session names. -/
def commandTrack (trackId : Option (Option Uuid)) : Except ReplayError Track := do
  let trackId ← require trackId (.badRequest "invalid track payload")
  let trackId ← require trackId
    (.badRequest "trackId is required for synchronized replay trading")
  require (tracks.find? fun track => track.id = trackId)
    (.badRequest "order track does not belong to the session")

/-- One track of several goes through its transition, the others stay. -/
def onTrack (now : Int) (command : Command) (track : Track) : Except ReplayError Moved := do
  let (attempt, changed) ← applyRuntimeTransition useLedger session track ledger now command
  return ⟨attempt.session,
    tracks.map fun other => if other.id = track.id then attempt.track else other,
    attempt.ledger, attempt.drafts, changed⟩

/-- `applyRuntimeTransitionTracks`. -/
def applyRuntimeTransitionTracks (now : Int) (command : Command) : Except ReplayError Moved :=
  match tracks with
  | [] => .error .database
  | [track] => onTrack useLedger session tracks ledger now command track
  | first :: _ =>
    match command with
    | .step _ | .clockStep _ => applySynchronizedStep useLedger session tracks ledger command
    | .seek _ | .restart _ => applySynchronizedSeek useLedger session tracks ledger command
    | .setReplayInterval requested => applySynchronizedReplayInterval session tracks ledger requested
    | .placeOrder body => do
      let track ← commandTrack tracks (body.map (·.trackId))
      onTrack useLedger session tracks ledger now command track
    | .closePosition body => do
      let track ← commandTrack tracks (body.map (·.trackId))
      onTrack useLedger session tracks ledger now command track
    | command => onTrack useLedger session tracks ledger now command first

end Synchronized

end MarketLens.Replay
