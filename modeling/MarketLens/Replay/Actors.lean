import MarketLens.Replay.Work

/-!
# Session actors

Each engine instance keeps at most one actor for a session. The actor hands every
command on together with the trading projection of the last snapshot it took over,
and takes over the snapshot of every answer that is neither an error nor a
duplicate. The snapshot it starts from is read by queries that no transaction holds
together, and a command may commit though its answer is lost.

A run of the whole system interleaves the commands of any number of actors, the
recovery of a restarted server, and the writes to the lease alone.
-/

namespace MarketLens.Replay

open Option Function Fallible Runs

/-- `sessionActor`. The last two fields are for the proofs: how long the event log was when the
orders and the positions of its projection were read. -/
structure Actor where
  owner : String
  snapshot : SessionSnapshot
  ordersRead : Nat
  positionsRead : Nat

/-- A command as it reaches an actor, and the time and lease the actor takes it with. -/
structure Request where
  idempotencyKey : String
  expectedVersion : Option Nat
  command : Command
  now : Int
  actorLeaseUntil : Int

/-- When each query of `snapshotWithQueries` ran, counted in writes to the session. -/
structure Reads where
  session : Nat
  tracks : Nat
  account : Nat
  orders : Nat
  fills : Nat
  positions : Nat

/-- The queries run one after another. -/
def Reads.inTurn (reads : Reads) : Bool :=
  reads.session ≤ reads.tracks && reads.tracks ≤ reads.account && reads.account ≤ reads.orders &&
    reads.orders ≤ reads.fills && reads.fills ≤ reads.positions

namespace Actor

/-- The input `sessionActor.apply` makes of a command. -/
def input (actor : Actor) (request : Request) : CommandInput :=
  let needsOwnership := actor.snapshot.status = .playing || request.command = .play
    || request.command.isClockStep
  { idempotencyKey := request.idempotencyKey
    expectedVersion := request.expectedVersion
    command := request.command
    actorOwner := if needsOwnership then actor.owner else ""
    actorLeaseUntil := if needsOwnership then request.actorLeaseUntil else 0
    runtimeTrading := actor.snapshot.trading
    now := request.now }

/-- The actor once it has taken over a result; `logged` is the length of the event log. -/
def took (actor : Actor) (result : CommandResult) (events : List EventRow) (logged : Nat) : Actor :=
  let reread := actor.snapshot.trading.isNone || tradeChangedInDrafts (events.map (·.draft))
  { actor with
    snapshot := result.snapshot
    ordersRead := if reread then logged else actor.ordersRead
    positionsRead := if reread then logged else actor.positionsRead }

/-- What `sessionActor.run` does with an answer: an actor of a closed or an unwatched session ends. -/
def answered (actor : Actor) (command : Command) (response : Response) (logged : Nat) :
    Option Actor :=
  match response with
  | .error _ => some actor
  | .ok (result, events) =>
    let held := if result.duplicate then actor else actor.took result events logged
    if held.snapshot.status = .closed || command = .pauseNoSubscribers then none else some held

end Actor

namespace Database

variable (db : Database)

/-- `RenewActorLease`. -/
def renewActorLease (owner : String) (leaseUntil : Int) : Database :=
  if db.session.status = .playing && db.session.lease.any (·.owner = owner) then
    { db with session := { db.session with lease := some ⟨owner, leaseUntil⟩ } }
  else db

/-- `ReleaseActorLease`. -/
def releaseActorLease (owner : String) : Database :=
  if db.session.lease.any (·.owner = owner) then
    { db with session := { db.session with lease := none } }
  else db

end Database

/-- The input of `Engine.Start` and `retryRestartRecovery`. -/
def recovery (idempotencyKey : String) (now : Int) : CommandInput :=
  ⟨idempotencyKey, none, .pauseServerRestart, "", 0, none, now⟩

/-- What is stored, all that was stored before, and the actors that run. -/
structure System where
  db : Database
  past : List Database
  actors : Nat → Option Actor

/-- One thing that happens to a session. -/
inductive Act where
  /-- An engine without an actor makes one from what it reads. -/
  | openActor (i : Nat) (owner : String) (reads : Reads)
  /-- An actor runs a command; the answer arrives or is lost. -/
  | command (i : Nat) (request : Request) (delivered : Bool)
  | recover (idempotencyKey : String) (now : Int)
  | renew (owner : String) (leaseUntil : Int)
  | release (owner : String)
  /-- An engine stops its actor. -/
  | stop (i : Nat)

namespace System

/-- A session before any actor has read it. -/
def init (db : Database) : System := ⟨db, [], fun _ => none⟩

variable (s : System)

/-- Everything stored so far, in order. -/
def states : List Database := s.past ++ [s.db]

def wrote (db : Database) : System := { s with db := db, past := s.states }

def put (i : Nat) (actor : Option Actor) : System :=
  { s with actors := Function.update s.actors i actor }

/-- `snapshotWithQueries`, each query at its own time. -/
def read (owner : String) (reads : Reads) : Option Actor := do
  let session ← s.states[reads.session]?
  let tracks ← s.states[reads.tracks]?
  let account ← s.states[reads.account]?
  let orders ← s.states[reads.orders]?
  let fills ← s.states[reads.fills]?
  let positions ← s.states[reads.positions]?
  if reads.inTurn then
    some {
      owner := owner
      snapshot := snapshotFromRuntimeRows session.session tracks.tracks (loadTradingSnapshot
        { account.ledger with
          orders := orders.ledger.orders
          fills := fills.ledger.fills
          positions := positions.ledger.positions })
      ordersRead := orders.events.length
      positionsRead := positions.events.length }
  else none

def step : Act → Option System
  | .openActor i owner reads =>
    if (s.actors i).isSome then none else (s.read owner reads).map fun actor => s.put i (some actor)
  | .command i request delivered => (s.actors i).map fun actor =>
    let (response, db) := applyCommand s.db (actor.input request)
    let response := if delivered then response else .error .database
    (s.wrote db).put i (actor.answered request.command response db.events.length)
  | .recover idempotencyKey now => some (s.wrote (applyCommand s.db (recovery idempotencyKey now)).2)
  | .renew owner leaseUntil => some (s.wrote (s.db.renewActorLease owner leaseUntil))
  | .release owner => some (s.wrote (s.db.releaseActorLease owner))
  | .stop i => some (s.put i none)

end System

/-! ## One actor -/

/-- There is one actor at most. -/
def System.Single (s : System) : Prop :=
  ∀ i j, (s.actors i).isSome = true → (s.actors j).isSome = true → i = j

section Single

variable {s : System} {i j : Nat} {actor : Option Actor} {held : Actor}

theorem put_other (h : (s.put i actor).actors j = some held) (hj : j ≠ i) : s.actors j = some held := by
  have h : update s.actors i actor j = some held := h
  rwa [update_of_ne hj] at h

theorem put_self (h : (s.put i actor).actors i = some held) : actor = some held := by
  have h : update s.actors i actor i = some held := h
  rwa [update_self] at h

theorem put_only (hoths : ∀ j, j ≠ i → s.actors j = none)
    (h : (s.put i actor).actors j = some held) : j = i ∧ actor = some held := by
  by_cases hj : j = i
  · subst hj
    exact ⟨rfl, put_self h⟩
  · have hnone := put_other h hj
    rw [hoths j hj] at hnone
    cases hnone

/-- The actors that are left when one stops. -/
theorem put_none (h : (s.put i none).actors j = some held) : s.actors j = some held := by
  by_cases hj : j = i
  · subst hj
    cases put_self h
  · exact put_other h hj

theorem put_single (hoths : ∀ j, j ≠ i → s.actors j = none) : (s.put i actor).Single := by
  intro j k hj hk
  obtain ⟨_, hj⟩ := isSome_iff_exists.mp hj
  obtain ⟨_, hk⟩ := isSome_iff_exists.mp hk
  rw [(put_only hoths hj).1, (put_only hoths hk).1]

theorem System.Single.stop (h : s.Single) (i : Nat) : (s.put i none).Single := by
  intro j k hj hk
  obtain ⟨_, hj⟩ := isSome_iff_exists.mp hj
  obtain ⟨_, hk⟩ := isSome_iff_exists.mp hk
  refine h j k ?_ ?_
  · rw [put_none hj]
    rfl
  · rw [put_none hk]
    rfl

theorem System.Single.others (h : s.Single) (hactor : s.actors i = some held) : ∀ j, j ≠ i → s.actors j = none := by
  intro j hj
  by_contra hsome
  refine hj (h j i (isSome_iff_ne_none.mpr hsome) ?_)
  rw [hactor]
  rfl

end Single

/-! ## What an actor does -/

section Steps

variable {s s' : System} {actor held : Actor} {response : Response}

theorem command_step {i : Nat} {request : Request} {delivered : Bool} (h : s.step (.command i request delivered) = some s') :
    ∃ actor, s.actors i = some actor ∧ s' = (s.wrote (applyCommand s.db (actor.input request)).2).put i
        (actor.answered request.command (if delivered then (applyCommand s.db (actor.input request)).1 else .error .database)
          (applyCommand s.db (actor.input request)).2.events.length) := by
  obtain ⟨actor, hactor, rfl⟩ := map_eq_some_iff.mp h
  exact ⟨actor, hactor, rfl⟩

theorem answered_cases {command : Command} {logged : Nat} (h : actor.answered command response logged = some held) :
    (response.applied = false ∧ held = actor) ∨ ∃ result events, response = .ok (result, events) ∧
      result.duplicate = false ∧ held = actor.took result events logged := by
  unfold Actor.answered at h
  cases response with
  | error =>
    cases h
    exact .inl ⟨rfl, rfl⟩
  | ok answer =>
    obtain ⟨result, events⟩ := answer
    dsimp only at h
    cases hduplicate : result.duplicate with
    | true =>
      rw [hduplicate, if_pos rfl] at h
      split at h
      · cases h
      refine .inl ⟨?_, (Option.some.inj h).symm⟩
      unfold Response.applied
      dsimp only
      rw [hduplicate]
      rfl
    | false =>
      rw [hduplicate, if_neg Bool.false_ne_true] at h
      split at h
      · cases h
      · exact .inr ⟨result, events, rfl, hduplicate, (Option.some.inj h).symm⟩

/-- The times a reading is made of. -/
theorem read_ok {owner : String} {reads : Reads} (h : s.read owner reads = some actor) :
    reads.inTurn = true ∧ ∃ session tracks account orders fills positions,
      s.states[reads.account]? = some account ∧ s.states[reads.orders]? = some orders ∧
      s.states[reads.fills]? = some fills ∧ s.states[reads.positions]? = some positions ∧
      actor = {
        owner := owner
        snapshot := snapshotFromRuntimeRows session tracks (loadTradingSnapshot { account.ledger with
            orders := orders.ledger.orders
            fills := fills.ledger.fills
            positions := positions.ledger.positions })
        ordersRead := orders.events.length
        positionsRead := positions.events.length } := by
  unfold System.read at h
  simp only [bind_eq_bind, bind_eq_some_iff] at h
  obtain ⟨session, -, tracks, -, account, hacct, orders, hords, fills, hfills, positions, hposs, h⟩ := h
  split at h
  · rename_i hturn
    exact ⟨hturn, session.session, tracks.tracks, account, orders, fills, positions, hacct, hords,
      hfills, hposs, (Option.some.inj h).symm⟩
  · cases h

/-- A reading from the last state on finds nothing but that state. -/
theorem states_last {n m : Nat} {db : Database} (hn : n = s.past.length) (hle : n ≤ m)
    (h : s.states[m]? = some db) : db = s.db := by
  have hbnd := (List.getElem?_eq_some_iff.mp h).1
  unfold System.states at h hbnd
  rw [List.length_append, List.length_singleton] at hbnd
  have hm : m = s.past.length := by omega
  rw [hm, List.getElem?_append_right (Nat.le_refl _), Nat.sub_self] at h
  cases h
  rfl

end Steps

end MarketLens.Replay
