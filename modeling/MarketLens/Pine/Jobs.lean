import Mathlib.Data.List.AList
import MarketLens.Lib.Run

/-!
# The runtime job group

Every calculation of the runtime goes through one group: equal requests share one
job, a fixed pool of workers takes the jobs from a bounded queue, and what a job
computed stays in a bounded cache until it is the one unused for longest.

The parts of `Do` and of a worker are separate actions here, cut where another
goroutine can come in between: at the mutex, at the queue's channel and at the
channel a caller waits on. `mu` is held from the moment a task is in the queue
until its call is published, and a worker may already be running the task then.
What a job's work returns, and whether it panics, is up to the environment.
-/

namespace MarketLens.Pine

variable {T : Type} [Inhabited T]

def defaultRuntimeCacheEntries : Nat := 64
def defaultRuntimeWorkers : Nat := 4

def errRuntimeQueueFull : String := "runtime job queue is full"

structure RuntimeJobEntry (T : Type) where
  key : String
  value : T

/-- A `list.Element`: the cache's map holds its identity. -/
structure CacheElement (T : Type) where
  id : Nat
  value : RuntimeJobEntry T

structure RuntimeJobCall (T : Type) where
  done : Bool
  value : T
  err : Option String

/-- The task names its call; its work is whatever a worker then observes of it. -/
structure RuntimeJobTask where
  key : String
  call : Nat
  deriving DecidableEq

structure RuntimeJobGroup (T : Type) where
  maxEntries : Nat
  entries : AList fun _ : String => Nat
  order : List (CacheElement T)
  inflight : AList fun _ : String => Nat
  queue : List RuntimeJobTask
  capacity : Nat
  workers : Nat
  /-- The identity of the next element. -/
  nextElement : Nat

def newRuntimeJobGroup (maxEntries : Int) : RuntimeJobGroup T :=
  let maxEntries := if maxEntries < 1 then defaultRuntimeCacheEntries else maxEntries.toNat
  { maxEntries
    entries := ∅
    order := []
    inflight := ∅
    queue := []
    capacity := maxEntries
    workers := if defaultRuntimeWorkers > maxEntries then maxEntries else defaultRuntimeWorkers
    nextElement := 0 }

namespace RuntimeJobGroup

variable (g : RuntimeJobGroup T)

/-- `order.MoveToBack`. -/
def moveToBack (order : List (CacheElement T)) (id : Nat) : List (CacheElement T) :=
  order.filter (·.id ≠ id) ++ order.filter (·.id = id)

/-- The loop of `storeLocked`. -/
def evict (maxEntries : Nat) : (AList fun _ : String => Nat) → List (CacheElement T) →
    (AList fun _ : String => Nat) × List (CacheElement T)
  | entries, [] => (entries, [])
  | entries, oldest :: rest =>
    if entries.keys.length > maxEntries then evict maxEntries (entries.erase oldest.value.key) rest
    else (entries, oldest :: rest)

def storeLocked (key : String) (value : T) : RuntimeJobGroup T :=
  match g.entries.lookup key with
  | some id =>
    let stored := g.order.map fun element => if element.id = id then { element with value := { key, value } } else element
    { g with order := moveToBack stored id }
  | none =>
    let order := g.order ++ [{ id := g.nextElement, value := { key, value } }]
    let kept := evict g.maxEntries (g.entries.insert key g.nextElement) order
    { g with entries := kept.1, order := kept.2, nextElement := g.nextElement + 1 }

end RuntimeJobGroup

/-! ## Callers, calls and workers -/

/-- Where a caller stands in `Do`. -/
inductive CallerPhase (T : Type) where
  /-- Before the first look at the context. -/
  | arrived
  /-- Before or at the mutex. -/
  | locking
  | waiting (call : Nat)
  | returned (value : T) (err : Option String)
deriving DecidableEq

structure Caller (T : Type) where
  key : String
  /-- `ctx.Err()`: set once the context is cancelled or past its deadline. -/
  ctxErr : Option String
  phase : CallerPhase T

/-- The task a caller has put in the queue while it still holds the mutex. -/
structure Submission where
  caller : Nat
  task : RuntimeJobTask

structure JobWorld (T : Type) where
  group : RuntimeJobGroup T
  /-- The mutex, where it is held across a step of somebody else. -/
  mu : Option Submission
  calls : List (RuntimeJobCall T)
  /-- What the workers are executing. -/
  running : List RuntimeJobTask
  /-- The jobs that run on a goroutine of their own. -/
  solo : List RuntimeJobTask
  callers : List (Caller T)

def JobWorld.start (maxEntries : Int) : JobWorld T :=
  { group := newRuntimeJobGroup maxEntries, mu := none, calls := [], running := [], solo := [], callers := [] }

/-- What the work of a job comes to. -/
inductive WorkOutcome (T : Type) where
  | returned (value : T) (err : Option String)
  | panicked (recovered : String)

/-- The value and the error `execute` has after the work, its panic recovered. -/
def WorkOutcome.recover : WorkOutcome T → T × Option String
  | .returned value err => (value, err)
  | .panicked recovered => (default, some s!"runtime job panicked: {recovered}")

namespace JobWorld

variable (w : JobWorld T)

def setPhase (caller : Nat) (phase : CallerPhase T) : JobWorld T :=
  { w with callers := w.callers.modify caller fun c => { c with phase } }

def fail (caller : Nat) (err : String) : JobWorld T := w.setPhase caller (.returned default (some err))

/-- The fields of the call are set and its channel is closed. -/
def release (call : Nat) (result : T × Option String) : JobWorld T :=
  { w with calls := w.calls.set call { done := true, value := result.1, err := result.2 } }

/-- `Do` up to the mutex: a job without a key runs at once, on a goroutine of its own. -/
def doCheck (index : Nat) (caller : Caller T) : JobWorld T :=
  match caller.ctxErr with
  | some err => w.fail index err
  | none =>
    if caller.key = "" then
      { w.setPhase index (.waiting w.calls.length) with
        calls := w.calls ++ [{ done := false, value := default, err := none }]
        solo := w.solo ++ [{ key := "", call := w.calls.length }] }
    else
      w.setPhase index .locking

/-- `Do` from the mutex up to the queue. -/
def doLocked (index : Nat) (caller : Caller T) : JobWorld T :=
  match w.group.entries.lookup caller.key with
  | some id =>
    let value := (w.group.order.find? (·.id = id)).elim default (·.value.value)
    { w.setPhase index (.returned value none) with
      group := { w.group with order := RuntimeJobGroup.moveToBack w.group.order id } }
  | none =>
    match w.group.inflight.lookup caller.key with
    | some call => w.setPhase index (.waiting call)
    | none =>
      if w.group.inflight.keys.length ≥ w.group.workers + w.group.capacity then
        w.fail index errRuntimeQueueFull
      else
        match caller.ctxErr with
        | some err => w.fail index err
        | none =>
          if w.group.queue.length < w.group.capacity then
            let task : RuntimeJobTask := { key := caller.key, call := w.calls.length }
            { w with
              calls := w.calls ++ [{ done := false, value := default, err := none }]
              group := { w.group with queue := w.group.queue ++ [task] }
              mu := some { caller := index, task } }
          else
            w.fail index errRuntimeQueueFull

/-- `Do` after the queue took the task: the call is published and the mutex given back. -/
def doPublish (submission : Submission) : JobWorld T :=
  { w.setPhase submission.caller (.waiting submission.task.call) with
    group := { w.group with inflight := w.group.inflight.insert submission.task.key submission.task.call }
    mu := none }

def finish (task : RuntimeJobTask) (result : T × Option String) : JobWorld T :=
  if w.group.inflight.lookup task.key ≠ some task.call then w
  else
    let group := { w.group with inflight := w.group.inflight.erase task.key }
    { w.release task.call result with
      group := if result.2 = none then group.storeLocked task.key result.1 else group }

end JobWorld

/-! ## The steps -/

inductive JobAction (T : Type) where
  /-- A caller comes with a key and a context. -/
  | call (key : String) (ctxErr : Option String)
  | cancel (caller : Nat) (err : String)
  | check (caller : Nat)
  | lock (caller : Nat)
  | publish
  /-- An idle worker receives the first task of the queue. -/
  | take
  /-- The work in one of the workers' slots ends. -/
  | finish (slot : Nat) (outcome : WorkOutcome T)
  | finishSolo (slot : Nat) (outcome : WorkOutcome T)
  /-- `waitRuntimeJob` sees the call done. -/
  | receive (caller : Nat)
  /-- `waitRuntimeJob` sees the context done. -/
  | abandon (caller : Nat)

open JobWorld in
def jobStep (w : JobWorld T) : JobAction T → Option (JobWorld T)
  | .call key ctxErr => some { w with callers := w.callers ++ [{ key, ctxErr, phase := .arrived }] }
  | .cancel index err =>
    some { w with callers := w.callers.modify index fun c => { c with ctxErr := some (c.ctxErr.getD err) } }
  | .check index => do
    let caller ← w.callers[index]?
    match caller.phase with
    | .arrived => some (w.doCheck index caller)
    | _ => none
  | .lock index => do
    let caller ← w.callers[index]?
    match caller.phase, w.mu with
    | .locking, none => some (w.doLocked index caller)
    | _, _ => none
  | .publish => w.mu.map w.doPublish
  | .take =>
    match w.group.queue with
    | task :: rest =>
      if w.running.length < w.group.workers then
        some { w with group := { w.group with queue := rest }, running := w.running ++ [task] }
      else none
    | [] => none
  | .finish slot outcome => do
    let task ← w.running[slot]?
    match w.mu with
    | none => some { w.finish task outcome.recover with running := w.running.eraseIdx slot }
    | some _ => none
  | .finishSolo slot outcome => do
    let task ← w.solo[slot]?
    some { w.release task.call outcome.recover with solo := w.solo.eraseIdx slot }
  | .receive index => do
    let caller ← w.callers[index]?
    match caller.phase with
    | .waiting id =>
      let call ← w.calls[id]?
      if call.done then some (w.setPhase index (.returned call.value call.err)) else none
    | _ => none
  | .abandon index => do
    let caller ← w.callers[index]?
    match caller.phase, caller.ctxErr with
    | .waiting _, some err => some (w.fail index err)
    | _, _ => none

end MarketLens.Pine
