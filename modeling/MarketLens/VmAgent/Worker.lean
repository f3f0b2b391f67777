import MarketLens.Lib.Attempt
import MarketLens.Lib.Json
import MarketLens.VmAgent.Registry

/-!
# The worker of the terminal agent

One worker runs the terminals of several accounts: a registry of their slots, a
bounded lane of commands for each, and a driver that starts, checks and stops the
processes. The driver is another's code; of it the model keeps what it has
answered, latest first, and each call is told what it will answer. A call that
fails keeps what it has written until then.
-/

namespace MarketLens.VmAgent

open Attempts JsonText
open Std (ExtTreeMap)

/-! ## The lane of an account -/

/-- `DEFAULT_COMMAND_QUEUE_CAPACITY`. -/
def defaultCommandQueueCapacity : Nat := 32

/-- `HARD_MAX_COMMAND_QUEUE_CAPACITY`. -/
def hardMaxCommandQueueCapacity : Nat := 256

inductive QueueError where
  | invalidCapacity
  | queueFull

structure BoundedLane (T : Type) where
  capacity : Nat
  items : List T

namespace BoundedLane

variable {T : Type}

def new (capacity : Nat) : Except QueueError (BoundedLane T) :=
  if capacity = 0 || hardMaxCommandQueueCapacity < capacity then .error .invalidCapacity else .ok ⟨capacity, []⟩

def tryPush (lane : BoundedLane T) (value : T) : Except QueueError (BoundedLane T) :=
  if lane.capacity ≤ lane.items.length then .error .queueFull else .ok { lane with items := lane.items ++ [value] }

/-- `pop`: the first item, and the lane without it. -/
def pop (lane : BoundedLane T) : Option T × BoundedLane T :=
  (lane.items.head?, { lane with items := lane.items.tail })

end BoundedLane

/-! ## The startup throttle -/

structure StartupThrottleConfig where
  windowMs : Nat
  maxStartsPerWindow : Nat
  minSpacingMs : Nat
  maxJitterMs : Nat
deriving DecidableEq

/-- `StartupThrottle`: the latest starts, oldest first. -/
structure StartupThrottle where
  config : StartupThrottleConfig
  starts : List Nat
deriving DecidableEq

/-- The largest value of a `u64`. -/
def u64Max : Nat := 2 ^ 64 - 1

/-- `deterministic_jitter`. -/
def deterministicJitter (accountId : String) (maxJitterMs : Nat) : Nat :=
  if maxJitterMs = 0 then 0
  else
    accountId.toUTF8.data.toList.foldl (fun hash byte => (hash ^^^ byte.toNat) * 1099511628211 % 2 ^ 64) 1469598103934665603
      % (maxJitterMs + 1)

namespace StartupThrottle

def new (config : StartupThrottleConfig) : Option StartupThrottle :=
  if config.windowMs = 0 || config.maxStartsPerWindow = 0 || config.windowMs < config.minSpacingMs
      || config.windowMs < config.maxJitterMs then none
  else some ⟨config, []⟩

/-- The starts that are still within the window. -/
def forget (throttle : StartupThrottle) (nowMs : Nat) : StartupThrottle :=
  { throttle with starts := throttle.starts.dropWhile fun startedAt => throttle.config.windowMs ≤ nowMs - startedAt }

/-- `required_delay_ms`, of a throttle that has forgotten what is past. -/
def delayMs (throttle : StartupThrottle) (nowMs : Nat) (accountId : String) : Nat :=
  let spacingDelay := match throttle.starts.getLast? with
    | some last => throttle.config.minSpacingMs - (nowMs - last)
    | none => 0
  let windowDelay :=
    if throttle.config.maxStartsPerWindow ≤ throttle.starts.length then
      match throttle.starts.head? with
      | some first => throttle.config.windowMs - (nowMs - first)
      | none => 0
    else 0
  let base := max spacingDelay windowDelay
  if base = 0 then 0 else min u64Max (base + deterministicJitter accountId throttle.config.maxJitterMs)

def recordStart (throttle : StartupThrottle) (startedAtMs : Nat) : StartupThrottle :=
  let starts := throttle.starts ++ [startedAtMs]
  { throttle with starts := starts.drop (starts.length - throttle.config.maxStartsPerWindow) }

end StartupThrottle

/-! ## The driver -/

structure ProcessIds where
  terminalPid : Option Nat
  adapterPid : Option Nat

structure SnapshotSummary where
  mode : String
  loginMatches : Bool
  serverMatches : Bool
  connected : Bool
  tradeAllowed : Bool
  tradeExpert : Bool
  marginMode : Option Int
  currency : Option String
  leverage : Option Int
  positionsCount : Option Nat
  pendingOrdersCount : Option Nat
  historyOrdersCount7d : Option Nat
  historyDealsCount7d : Option Nat
  symbolSpecification : Json
  lastErrorCode : Option Int

/-- `passes_phase1_demo_gate`. -/
def SnapshotSummary.passesPhase1DemoGate (snapshot : SnapshotSummary) : Bool :=
  snapshot.mode = "demo" && snapshot.loginMatches && snapshot.serverMatches && snapshot.connected
    && snapshot.positionsCount.isSome && snapshot.pendingOrdersCount.isSome
    && snapshot.historyOrdersCount7d.isSome && snapshot.historyDealsCount7d.isSome
    && snapshot.symbolSpecification.isObject

structure StartedRuntime where
  processIds : ProcessIds
  snapshot : SnapshotSummary

structure HeartbeatSummary where
  healthy : Bool
  loginMatches : Bool
  serverMatches : Bool
  lastErrorCode : Option Int

/-- What the worker takes for a healthy runtime. -/
def HeartbeatSummary.isHealthy (heartbeat : HeartbeatSummary) : Bool :=
  heartbeat.healthy && heartbeat.loginMatches && heartbeat.serverMatches

structure DriverError where
  errorClass : String

/-- What a driver answers, should the call come to it. -/
structure Answers where
  start : Except DriverError StartedRuntime
  heartbeat : Except DriverError HeartbeatSummary
  cleanRestart : Except DriverError StartedRuntime
  forceCrashAndRecover : Except DriverError StartedRuntime
  stop : Except DriverError Unit

/-- An answer of the driver about the runtime of an account: to a start, restart or recovery, or
to a heartbeat. -/
inductive Report where
  | started (accountId : String) (result : Except DriverError StartedRuntime)
  | checked (accountId : String) (result : Except DriverError HeartbeatSummary)

/-- The driver, as far as it is seen: its answers, latest first. -/
structure Driver where
  reports : List Report

/-! ## The worker -/

inductive RuntimeCommandKind where
  | heartbeat
  | cleanRestart
  | forceCrashRecover
  | stop
deriving DecidableEq

structure RuntimeCommand where
  leaseGeneration : Nat
  expiresAtMs : Nat
  kind : RuntimeCommandKind

/-- A provision request; the credential goes to the driver unread. -/
structure ProvisionRequest where
  accountId : String
  leaseGeneration : Nat
  symbol : String

inductive WorkerError where
  | registry (error : AgentError)
  | queue (error : QueueError)
  | invalidThrottle
  | driver (error : DriverError)
  | invalidSymbol
  | commandExpired
  | snapshotGateFailed

structure Worker where
  registry : RuntimeRegistry
  lanes : ExtTreeMap String (BoundedLane RuntimeCommand) compare
  queueCapacity : Nat
  startupThrottle : StartupThrottle
  driver : Driver

namespace Worker

/-- A method of the worker. -/
abbrev Method (α : Type) : Type := Attempt Worker WorkerError α

/-- `Worker::new`, with a driver that has not been called. -/
def new (registry : RuntimeRegistry) (queueCapacity : Option Nat) (startupConfig : StartupThrottleConfig) :
    Except WorkerError Worker := do
  let queueCapacity := queueCapacity.getD defaultCommandQueueCapacity
  let _ ← (BoundedLane.new queueCapacity : Except QueueError (BoundedLane RuntimeCommand)).mapError .queue
  let startupThrottle ← Fallible.require (StartupThrottle.new startupConfig) .invalidThrottle
  return { registry, lanes := ∅, queueCapacity, startupThrottle, driver := ⟨[]⟩ }

/-- `self.registry.operation(…)?`. -/
def onRegistry (operation : RuntimeRegistry → Except AgentError RuntimeRegistry) : Method Unit := fun worker =>
  match operation worker.registry with
  | .ok registry => (.ok (), { worker with registry })
  | .error e => (.error (.registry e), worker)

def transition (accountId : String) (leaseGeneration : Nat) (state : RuntimeState) : Method Unit :=
  onRegistry fun registry => registry.transition accountId leaseGeneration state

def removeRuntime (accountId : String) (leaseGeneration : Nat) : Method Unit :=
  onRegistry fun registry => registry.remove accountId leaseGeneration

def insertLane (accountId : String) (lane : BoundedLane RuntimeCommand) : Method Unit :=
  Attempt.modify fun worker => { worker with lanes := worker.lanes.insert accountId lane }

def removeLane (accountId : String) : Method Unit :=
  Attempt.modify fun worker => { worker with lanes := worker.lanes.erase accountId }

/-- An answer of the driver, kept. -/
def report (entry : Report) : Method Unit :=
  Attempt.modify fun worker => { worker with driver := ⟨entry :: worker.driver.reports⟩ }

/-- `self.startup_throttle.required_delay_ms(…)`: what the delay is, the past forgotten. -/
def requiredDelayMs (nowMs : Nat) (accountId : String) : Method Nat := fun worker =>
  let throttle := worker.startupThrottle.forget nowMs
  (.ok (throttle.delayMs nowMs accountId), { worker with startupThrottle := throttle })

def recordStart (startedAtMs : Nat) : Method Unit :=
  Attempt.modify fun worker => { worker with startupThrottle := worker.startupThrottle.recordStart startedAtMs }

section
variable (accountId : String)

/-- The account is given up: its slot, if the lease is current, and its lane. -/
def abandon (leaseGeneration : Nat) : Method Unit := do
  Attempt.ignore (removeRuntime accountId leaseGeneration)
  removeLane accountId

/-- `provision_at`, from where the driver has answered. -/
def finishProvision (leaseGeneration : Nat) : Except DriverError StartedRuntime → Method SnapshotSummary
  | .error e => do
    abandon accountId leaseGeneration
    Attempt.fail (.driver e)
  | .ok started => do
    transition accountId leaseGeneration .authenticating
    transition accountId leaseGeneration .synchronizing
    if started.snapshot.passesPhase1DemoGate then do
      onRegistry fun registry =>
        registry.setProcessIds accountId leaseGeneration started.processIds.terminalPid started.processIds.adapterPid
      transition accountId leaseGeneration .ready
      return started.snapshot
    else do
      abandon accountId leaseGeneration
      Attempt.fail .snapshotGateFailed

/-- `provision_at`. -/
def provisionAt (answers : Answers) (request : ProvisionRequest) (startedAtMs : Nat) : Method SnapshotSummary := do
  Attempt.refuseIf (64 < request.symbol.utf8ByteSize) .invalidSymbol
  let delay ← requiredDelayMs startedAtMs request.accountId
  Attempt.refuseIf (0 < delay) (.driver ⟨"STARTUP_THROTTLED"⟩)
  onRegistry fun registry => registry.provision request.accountId request.leaseGeneration
  let worker ← Attempt.get
  let lane ← Attempt.ofExcept ((BoundedLane.new worker.queueCapacity).mapError .queue)
  insertLane request.accountId lane
  recordStart startedAtMs
  transition request.accountId request.leaseGeneration .terminalStarting
  report (.started request.accountId answers.start)
  finishProvision request.accountId request.leaseGeneration answers.start

/-- `enqueue`. -/
def enqueue (command : RuntimeCommand) (nowMs : Nat) : Method Unit := do
  Attempt.refuseIf (command.expiresAtMs < nowMs) .commandExpired
  let worker ← Attempt.get
  let _ ← Attempt.ofExcept ((worker.registry.requireLease accountId command.leaseGeneration).mapError .registry)
  let lane ← Attempt.require worker.lanes[accountId]? (.registry .runtimeNotFound)
  let lane ← Attempt.ofExcept ((lane.tryPush command).mapError .queue)
  insertLane accountId lane

/-- `finish_recovery`. -/
def finishRecovery (leaseGeneration : Nat) (started : StartedRuntime) : Method SnapshotSummary := do
  transition accountId leaseGeneration .authenticating
  transition accountId leaseGeneration .synchronizing
  if started.snapshot.passesPhase1DemoGate then do
    onRegistry fun registry =>
      registry.setProcessIds accountId leaseGeneration started.processIds.terminalPid started.processIds.adapterPid
    transition accountId leaseGeneration .ready
    return started.snapshot
  else do
    transition accountId leaseGeneration .degraded
    Attempt.fail .snapshotGateFailed

/-- A restart or recovery the driver has answered. -/
def recover (leaseGeneration : Nat) (result : Except DriverError StartedRuntime) :
    Method (Option SnapshotSummary) := do
  report (.started accountId result)
  let started ← Attempt.ofExcept (result.mapError .driver)
  let snapshot ← finishRecovery accountId leaseGeneration started
  return some snapshot

end

/-- The commands of `process_next`. -/
def perform (answers : Answers) (accountId : String) (command : RuntimeCommand) : Method (Option SnapshotSummary) :=
  match command.kind with
  | .heartbeat => do
    report (.checked accountId answers.heartbeat)
    let heartbeat ← Attempt.ofExcept (answers.heartbeat.mapError .driver)
    transition accountId command.leaseGeneration (if heartbeat.isHealthy then .ready else .degraded)
    return none
  | .cleanRestart => do
    transition accountId command.leaseGeneration .reconnecting
    recover accountId command.leaseGeneration answers.cleanRestart
  | .forceCrashRecover => do
    transition accountId command.leaseGeneration .degraded
    transition accountId command.leaseGeneration .reconnecting
    recover accountId command.leaseGeneration answers.forceCrashAndRecover
  | .stop => do
    Attempt.ofExcept (answers.stop.mapError .driver)
    transition accountId command.leaseGeneration .stopped
    removeRuntime accountId command.leaseGeneration
    removeLane accountId
    return none

/-- `process_next`. -/
def processNext (answers : Answers) (accountId : String) (nowMs : Nat) : Method (Option SnapshotSummary) := do
  let worker ← Attempt.get
  let lane ← Attempt.require worker.lanes[accountId]? (.registry .runtimeNotFound)
  insertLane accountId lane.pop.2
  let command ← Attempt.require lane.pop.1 (.registry .runtimeNotFound)
  Attempt.refuseIf (command.expiresAtMs < nowMs) .commandExpired
  let _ ← Attempt.ofExcept ((worker.registry.requireLease accountId command.leaseGeneration).mapError .registry)
  perform answers accountId command

end Worker

end MarketLens.VmAgent
