import MarketLens.Replay.Actors
import MarketLens.Replay.EventLog

/-!
# Subscriptions

The actor of a session commits a command and then publishes its events, one after
another, to every subscription its engine has for the session. A subscriber is
registered first and reads its snapshot afterwards, so that what is published in
between is waiting for it; what the snapshot already shows it drops. A subscriber
whose channel is full is closed before the next event.

Subscriptions are kept under the id as it was spelled in the request, and events are
published under the id as the database spells it.
-/

namespace MarketLens.Replay

open List Function Bool Nat Response Fallible Runs

/-! ## One engine -/

/-- How requests name a session: what `uuidString` makes of its id, and every text that `parseUUID`
takes for it. -/
structure SessionName where
  canonical : String
  spells : String → Bool
  spelled : spells canonical = true

/-- A subscription is in the map of its engine until its `done` is closed and it is taken out. -/
inductive SubscriptionState where
  | opened | closing | closed
deriving DecidableEq

/-- `Subscription`, its channel of events, and what its reader has: the snapshot once `Subscribe` has
returned, and the events taken from the channel. -/
structure Subscription where
  sessionID : String
  state : SubscriptionState
  events : List EventRow
  snapshot : Option SessionSnapshot
  received : List EventRow

/-- An actor in the map of its engine. Once it has answered its last command there is no actor to
hold. -/
structure Running where
  actor : Option Actor
  publishing : List EventRow
  slow : List Nat

/-- An engine and the session it serves. -/
structure Engine where
  db : Database
  actors : String → Option Running
  subs : List Subscription

namespace Subscription

variable (sub : Subscription) (sessionID : String)

/-- `publish` finds the subscription in its map. -/
def listens : Bool := sub.state ≠ .closed && sub.sessionID = sessionID

/-- The channel holds 128 events. -/
def full : Bool := 128 ≤ sub.events.length

/-- `publish` for one subscription: send without waiting. -/
def offered (event : EventRow) : Subscription :=
  if sub.listens sessionID && !sub.full then { sub with events := sub.events ++ [event] } else sub

def sent : List EventRow := sub.received ++ sub.events

end Subscription

/-- The events of an answer that `sessionActor.run` publishes. -/
def Response.published : Response → List EventRow
  | .ok (result, events) => if result.duplicate then [] else events
  | .error _ => []

/-- The loop of `Handler.stream`: what it writes of the events it takes from a subscription. -/
def streamed (lastSent : Nat) : List EventRow → List EventRow
  | [] => []
  | event :: rest =>
    if event.eventSeq ≤ lastSent then streamed lastSent rest
    else event :: streamed event.eventSeq rest

/-- One step of a goroutine. -/
inductive EngineAct where
  /-- `Engine.actor` puts an actor in the map, made of what its queries found. -/
  | openActor (sessionID : String) (actor : Actor)
  /-- An actor commits a command; the answer arrives or is lost. -/
  | command (sessionID : String) (request : Request) (delivered : Bool)
  /-- An actor publishes its next event. -/
  | publish (sessionID : String)
  /-- `publish` closes a slow subscription. -/
  | closeSlow (sessionID : String) (i : Nat)
  /-- `removeActor`, after the last answer. -/
  | finish (sessionID : String)
  | heartbeat (sessionID : String) (leaseUntil : Int) (failed : Bool)
  | releaseOwnership (owner : String)
  /-- `Subscribe` registers a subscription. -/
  | subscribe (sessionID : String)
  /-- `Subscribe` reads the session row; what the later queries find is given. -/
  | get (i : Nat) (tracks : List Track) (trading : Option TradingSnapshot)
  /-- The reader takes an event. -/
  | receive (i : Nat)
  /-- `Close` closes `done`, and then `subscriberClosed` takes the subscription out. -/
  | unsubscribe (i : Nat)
  | subscriberClosed (i : Nat)

namespace EngineAct

/-- The request spells the session as the database does. -/
def spelled (name : SessionName) : EngineAct → Bool
  | .openActor sessionID _ => sessionID = name.canonical
  | .subscribe sessionID => sessionID = name.canonical
  | _ => true

/-- The answer to a command arrives. -/
def heard : EngineAct → Bool
  | .command _ _ delivered => delivered
  | _ => true

end EngineAct

namespace Engine

/-- An engine that has just started. -/
def init (db : Database) : Engine := ⟨db, fun _ => none, []⟩

variable (name : SessionName) (s : Engine)

def run (sessionID : String) (running : Option Running) : Engine :=
  { s with actors := Function.update s.actors sessionID running }

def change (i : Nat) (sub : Subscription) : Engine := { s with subs := s.subs.set i sub }

def waiting (sessionID : String) : Option Actor := do
  let running ← s.actors sessionID
  if running.publishing.isEmpty && running.slow.isEmpty then running.actor else none

def step : EngineAct → Option Engine
  | .openActor sessionID actor =>
    if name.spells sessionID && (s.actors sessionID).isNone then
      some (s.run sessionID (some ⟨some actor, [], []⟩))
    else none
  | .command sessionID request delivered => do
    let actor ← s.waiting sessionID
    let (response, db) := applyCommand s.db (actor.input request)
    let response := if delivered then response else .error .database
    some ({ s with db := db }.run sessionID (some
      ⟨actor.answered request.command response db.events.length, response.published, []⟩))
  | .publish sessionID => do
    let running ← s.actors sessionID
    match running.publishing, running.slow with
    | event :: rest, [] =>
      let slow := (List.range s.subs.length).filter fun i =>
        s.subs[i]?.any fun sub => sub.listens name.canonical && sub.full
      some ({ s with subs := s.subs.map fun sub : Subscription => sub.offered name.canonical event }.run sessionID
        (some ⟨running.actor, rest, slow⟩))
    | _, _ => none
  | .closeSlow sessionID i => do
    let running ← s.actors sessionID
    let sub ← s.subs[i]?
    if i ∈ running.slow then
      match sub.state with
      | .opened => some (s.change i { sub with state := .closing })
      | .closing => some (s.change i { sub with state := .closed })
      | .closed => some (s.run sessionID (some { running with slow := running.slow.erase i }))
    else none
  | .finish sessionID => do
    let running ← s.actors sessionID
    if running.actor.isNone && running.publishing.isEmpty && running.slow.isEmpty then
      some (s.run sessionID none)
    else none
  | .heartbeat sessionID leaseUntil failed => do
    let actor ← s.waiting sessionID
    let owned := s.db.session.status = .playing && s.db.session.lease.any (·.owner = actor.owner)
    if failed || !owned then some (s.run sessionID none)
    else some { s with db := s.db.renewActorLease actor.owner leaseUntil }
  | .releaseOwnership owner => some { s with db := s.db.releaseActorLease owner }
  | .subscribe sessionID =>
    if name.spells sessionID then
      some { s with subs := s.subs ++ [⟨sessionID, .opened, [], none, []⟩] }
    else none
  | .get i tracks trading => do
    let sub ← s.subs[i]?
    if sub.snapshot.isNone then
      some (s.change i { sub with
        snapshot := some (snapshotFromRuntimeRows s.db.session tracks trading) })
    else none
  | .receive i => do
    let sub ← s.subs[i]?
    match sub.snapshot, sub.events with
    | some _, event :: rest =>
      some (s.change i { sub with events := rest, received := sub.received ++ [event] })
    | _, _ => none
  | .unsubscribe i => do
    let sub ← s.subs[i]?
    if sub.state = .opened then some (s.change i { sub with state := .closing }) else none
  | .subscriberClosed i => do
    let sub ← s.subs[i]?
    if sub.state = .closing then some (s.change i { sub with state := .closed }) else none

end Engine

/-! ## What a step leaves alone -/

variable {event : EventRow} {db : Database}

namespace Engine

variable {name : SessionName} {s s' : Engine} {i : Nat} {sub : Subscription}

section
variable (name : SessionName) (s : Engine)

/-- The events that are committed and not yet published. -/
def pending : List EventRow :=
  ((s.actors name.canonical).map (·.publishing)).getD []

/-- The subscriptions that missed the last event and are about to be closed. -/
def slow : List Nat :=
  ((s.actors name.canonical).map (·.slow)).getD []

/-- What a subscription was sent and what is pending end the log of events. Only one that is about to
be closed has missed any, and the snapshot shows all that came before. -/
def Follows (i : Nat) (sub : Subscription) : Prop :=
  ∃ early missed, s.db.events = early ++ (sub.sent ++ (missed ++ s.pending name)) ∧
    (i ∉ s.slow name → missed = []) ∧
    ∀ snapshot, sub.snapshot = some snapshot → early.length ≤ snapshot.lastEventSeq

end

/-- Everyone spells the session as the database does, and whoever is not closed follows its log. -/
structure Inv (name : SessionName) (s : Engine) : Prop where
  distinct : (s.db.tracks.map (·.id)).Nodup
  numbered : s.db.Numbered
  actors : ∀ sessionID, (s.actors sessionID).isSome = true → sessionID = name.canonical
  subs : ∀ sub ∈ s.subs, sub.sessionID = name.canonical
  shown : ∀ sub ∈ s.subs, ∀ snapshot, sub.snapshot = some snapshot →
    snapshot.lastEventSeq ≤ s.db.events.length
  pending : s.pending name <:+ s.db.events
  follows : ∀ i sub, s.subs[i]? = some sub → sub.state = .opened → s.Follows name i sub

@[simp] theorem run_self (sessionID : String) (running : Option Running) :
    (s.run sessionID running).actors sessionID = running := update_self _ _ _

theorem run_other {sessionID other : String} (hne : other ≠ sessionID) (running : Option Running) :
    (s.run sessionID running).actors other = s.actors other := update_of_ne hne _ _

theorem pending_run (running : Option Running) :
    (s.run name.canonical running).pending name = (running.map (·.publishing)).getD [] := by
  rw [pending, run_self]

theorem slow_run (running : Option Running) : (s.run name.canonical running).slow name = (running.map (·.slow)).getD [] := by
  rw [slow, run_self]

variable {sessionID : String}

/-- A step of the actor map that publishes nothing. -/
theorem Inv.run {running : Option Running} (h : s.Inv name) (hactor : running.isSome = true → sessionID = name.canonical)
    (hpend : (s.run sessionID running).pending name = s.pending name)
    (hslow : ∀ i sub, s.subs[i]? = some sub → sub.state = .opened → i ∈ s.slow name → i ∈ (s.run sessionID running).slow name) :
    (s.run sessionID running).Inv name := by
  refine ⟨h.distinct, h.numbered, fun other hoth => ?_, h.subs, h.shown, hpend ▸ h.pending, fun i sub hsub hopen => ?_⟩
  · by_cases hsame : other = sessionID
    · subst hsame
      rw [run_self] at hoth
      exact hactor hoth
    · rw [run_other hsame] at hoth
      exact h.actors other hoth
  · obtain ⟨early, missed, hevs, hmissed, hshn⟩ := h.follows i sub hsub hopen
    refine ⟨early, missed, ?_, fun hnot => hmissed fun hin => hnot (hslow i sub hsub hopen hin), hshn⟩
    rw [hpend]
    exact hevs

theorem Inv.change {changed : Subscription} (h : s.Inv name) (hsub : s.subs[i]? = some sub)
    (hname : changed.sessionID = sub.sessionID)
    (hopen : changed.state = .opened → sub.state = .opened) (hsent : changed.sent = sub.sent)
    (hsnp : ∀ snapshot, changed.snapshot = some snapshot →
      sub.snapshot = some snapshot ∨ snapshot.lastEventSeq = s.db.events.length) :
    (s.change i changed).Inv name := by
  have hmem : sub ∈ s.subs := mem_of_getElem? hsub
  refine ⟨h.distinct, h.numbered, h.actors, fun other hoth => ?_,
    fun other hoth snapshot hshn => ?_, h.pending, fun j other hoth hopened => ?_⟩
  · rcases mem_or_eq_of_mem_set hoth with hkept | rfl
    · exact h.subs other hkept
    · rw [hname]
      exact h.subs sub hmem
  · rcases mem_or_eq_of_mem_set hoth with hkept | rfl
    · exact h.shown other hkept snapshot hshn
    · rcases hsnp snapshot hshn with hbef | hnow
      · exact h.shown sub hmem snapshot hbef
      · exact le_of_eq hnow
  · by_cases hj : i = j
    · subst hj
      have hself : (s.subs.set i changed)[i]? = some changed := by
        rw [List.getElem?_set_self (List.getElem?_eq_some_iff.mp hsub).1]
      have hchgd : changed = other := Option.some.inj (hself.symm.trans hoth)
      subst hchgd
      obtain ⟨early, missed, hevs, hmissed, hshn⟩ := h.follows i sub hsub (hopen hopened)
      refine ⟨early, missed, ?_, hmissed, fun snapshot hsnap => ?_⟩
      · rw [hsent]
        exact hevs
      · rcases hsnp snapshot hsnap with hbef | hnow
        · exact hshn snapshot hbef
        · rw [hnow, hevs, length_append]
          exact le_add_right _ _
    · have hkept : s.subs[j]? = some other := by
        have hset : (s.subs.set i changed)[j]? = some other := hoth
        rwa [getElem?_set_ne hj] at hset
      exact h.follows j other hkept hopened

theorem waiting_ok {actor : Actor} (h : s.waiting sessionID = some actor) : s.actors sessionID = some ⟨some actor, [], []⟩ := by
  obtain ⟨⟨held, publishing, slow⟩, hrng, h⟩ := Option.bind_eq_some_iff.mp h
  dsimp only at h
  split at h
  · rename_i hidle
    rw [and_eq_true, List.isEmpty_iff, List.isEmpty_iff] at hidle
    rw [hrng, h, hidle.1, hidle.2]
  · cases h

theorem pending_eq {running : Running} (h : s.actors name.canonical = some running) : s.pending name = running.publishing := by
  rw [pending, h]
  rfl

theorem slow_eq {running : Running} (h : s.actors name.canonical = some running) : s.slow name = running.slow := by
  rw [slow, h]
  rfl

/-- Events are only added to the log by a command, and these are the ones it publishes. -/
theorem logged_published {db db' : Database} {input : CommandInput} {response : Response}
    (hids : (db.tracks.map (·.id)).Nodup) (hnumd : db.Numbered)
    (h : Logged db input response db') : db'.events = db.events ++ response.published := by
  cases h with
  | unmoved notApplied same =>
    have hnone : response.published = [] := by
      cases response with
      | error => rfl
      | ok =>
        rw [applied, not_eq_false'] at notApplied
        rw [published, notApplied, if_pos rfl]
    rw [hnone, same.events, append_nil]
  | ran ran =>
    obtain ⟨-, hfsh, -, -, ⟨rfl, hsame⟩ | hlogs⟩ := runCommand_logs hids hnumd ran
    · rw [hsame.events, published, hfsh, if_neg Bool.false_ne_true, append_nil]
    · rw [hlogs.appended, published, hfsh, if_neg Bool.false_ne_true]

/-- A command of a waiting actor makes its events pending. -/
theorem Inv.command {actor : Actor} {request : Request} (h : s.Inv name)
    (hwaits : s.actors name.canonical = some ⟨some actor, [], []⟩) (held : Option Actor) :
    (({ s with db := (applyCommand s.db (actor.input request)).2 } : Engine).run name.canonical
      (some ⟨held, (applyCommand s.db (actor.input request)).1.published, []⟩)).Inv name := by
  have hlogg := applyCommand_logged s.db (actor.input request)
  have hevs := logged_published h.distinct h.numbered hlogg
  have hpend := pending_eq hwaits
  have hslow := slow_eq hwaits
  refine ⟨command_distinct h.distinct rfl, hlogg.numbered h.distinct h.numbered,
    fun other hoth => ?_, h.subs, fun sub hsub snapshot hsnap => ?_, ?_, fun i sub hsub hopen => ?_⟩
  · by_cases hsame : other = name.canonical
    · exact hsame
    · rw [run_other hsame] at hoth
      exact h.actors other hoth
  · refine le_trans (h.shown sub hsub snapshot hsnap) ?_
    have hlng := congrArg length hevs
    rw [length_append] at hlng
    exact le.intro hlng.symm
  · rw [pending_run]
    exact ⟨s.db.events, hevs.symm⟩
  · obtain ⟨early, missed, hbef, hmissed, hshn⟩ := h.follows i sub hsub hopen
    have hnone : missed = [] := hmissed (by rw [hslow]; exact not_mem_nil)
    refine ⟨early, [], ?_, fun _ => rfl, hshn⟩
    rw [pending_run]
    rw [hpend, hnone, append_nil, append_nil] at hbef
    rw [nil_append, ← append_assoc, ← hbef]
    exact hevs

theorem offered_sent {sub : Subscription} (hlistens : sub.listens sessionID = true) (hfull : sub.full = false) :
    (sub.offered sessionID event).sent = sub.sent ++ [event] := by
  rw [Subscription.offered, hlistens, hfull, Bool.not_false, Bool.and_true, if_pos rfl,
    Subscription.sent, Subscription.sent, append_assoc]

/-- An offer changes the channel and nothing else. -/
theorem offered_frame (sub : Subscription) (sessionID : String) (event : EventRow) :
    (sub.offered sessionID event).sessionID = sub.sessionID ∧ (sub.offered sessionID event).state = sub.state ∧
      (sub.offered sessionID event).snapshot = sub.snapshot := by
  unfold Subscription.offered
  split <;> exact ⟨rfl, rfl, rfl⟩

/-- An event is sent to every subscription that has room, and missed by the ones that are then
closed. -/
theorem Inv.publish {held : Option Actor} {rest : List EventRow} (h : s.Inv name)
    (hrng : s.actors name.canonical = some ⟨held, event :: rest, []⟩) :
    (({ s with subs := s.subs.map fun sub : Subscription => sub.offered name.canonical event } :
      Engine).run name.canonical (some ⟨held, rest, (List.range s.subs.length).filter fun i =>
        s.subs[i]?.any fun sub => sub.listens name.canonical && sub.full⟩)).Inv name := by
  have hpend := pending_eq hrng
  have hslow := slow_eq hrng
  have hmap : ∀ other ∈ s.subs.map fun sub : Subscription => sub.offered name.canonical event,
      ∃ sub ∈ s.subs, other = sub.offered name.canonical event := by
    intro other hoth
    obtain ⟨sub, hsub, rfl⟩ := mem_map.mp hoth
    exact ⟨sub, hsub, rfl⟩
  refine ⟨h.distinct, h.numbered, fun other hoth => ?_, fun other hoth => ?_,
    fun other hoth snapshot hsnap => ?_, ?_, fun i other hoth hopen => ?_⟩
  · by_cases hsame : other = name.canonical
    · exact hsame
    · rw [run_other hsame] at hoth
      exact h.actors other hoth
  · obtain ⟨sub, hsub, rfl⟩ := hmap other hoth
    rw [(offered_frame _ _ _).1]
    exact h.subs sub hsub
  · obtain ⟨sub, hsub, rfl⟩ := hmap other hoth
    rw [(offered_frame _ _ _).2.2] at hsnap
    exact h.shown sub hsub snapshot hsnap
  · have hsuffix := h.pending
    rw [hpend] at hsuffix
    rw [pending_run]
    exact (suffix_cons event rest).trans hsuffix
  · have hoth : (s.subs.map fun sub : Subscription => sub.offered name.canonical event)[i]? = some other := hoth
    rw [getElem?_map] at hoth
    obtain ⟨sub, hsub, rfl⟩ := Option.map_eq_some_iff.mp hoth
    obtain ⟨-, hst, hsnp⟩ := offered_frame sub name.canonical event
    rw [hst] at hopen
    obtain ⟨early, missed, hbef, hmissed, hshn⟩ := h.follows i sub hsub hopen
    have hnone : missed = [] := hmissed (by rw [hslow]; exact not_mem_nil)
    have hlistens : sub.listens name.canonical = true := by
      rw [Subscription.listens, hopen, h.subs sub (mem_of_getElem? hsub), decide_eq_true rfl]
      rfl
    rw [hnone, hpend, nil_append] at hbef
    unfold Follows
    rw [pending_run, slow_run, hsnp]
    -- with room the event is sent, without it the subscription is among those to close
    cases hfull : sub.full with
    | false =>
      refine ⟨early, [], ?_, fun _ => rfl, hshn⟩
      rw [offered_sent hlistens hfull, append_assoc]
      exact hbef
    | true =>
      refine ⟨early, [event], ?_, fun hnot => absurd ?_ hnot, hshn⟩
      · rw [Subscription.offered, hfull, Bool.not_true, Bool.and_false, if_neg Bool.false_ne_true]
        exact hbef
      · refine List.mem_filter.mpr ⟨List.mem_range.mpr (List.getElem?_eq_some_iff.mp hsub).1, ?_⟩
        rw [hsub, Option.any_some, hlistens, hfull]
        rfl

/-- A new subscription has been sent nothing, and nothing that is pending has passed it by. -/
theorem Inv.subscribe (h : s.Inv name) : ({ s with
    subs := s.subs ++ [⟨name.canonical, .opened, [], none, []⟩] } : Engine).Inv name := by
  refine ⟨h.distinct, h.numbered, h.actors, fun other hoth => ?_,
    fun other hoth snapshot hsnap => ?_, h.pending, fun i other hoth hopen => ?_⟩
  · rcases mem_append.mp hoth with hold | hnew
    · exact h.subs other hold
    · rw [mem_singleton.mp hnew]
  · rcases mem_append.mp hoth with hold | hnew
    · exact h.shown other hold snapshot hsnap
    · rw [mem_singleton.mp hnew] at hsnap
      cases hsnap
  · rcases lt_or_ge i s.subs.length with hlt | hge
    · rw [getElem?_append_left hlt] at hoth
      exact h.follows i other hoth hopen
    · rw [getElem?_append_right hge] at hoth
      have hnew : other = ⟨name.canonical, .opened, [], none, []⟩ :=
        mem_singleton.mp (mem_of_getElem? hoth)
      obtain ⟨early, hear⟩ := h.pending
      subst hnew
      exact ⟨early, [], hear.symm, fun _ => rfl, fun _ hno => by cases hno⟩

/-! ## Runs -/

/-- The session is spelled as the database spells it, and every answer arrives. -/
def Regular (name : SessionName) (_ : Engine) (act : EngineAct) : Prop :=
  act.spelled name = true ∧ act.heard = true

/-- A write of the lease alone. -/
theorem Inv.leased (h : s.Inv name) (hsame : s.db.Same db) : ({ s with db := db } : Engine).Inv name := by
  refine ⟨?_, hsame.numbered h.numbered, h.actors, h.subs, ?_, ?_, ?_⟩
  · rw [hsame.tracks]
    exact h.distinct
  · rw [hsame.events]
    exact h.shown
  · have hpend : ({ s with db := db } : Engine).pending name = s.pending name := rfl
    rw [hpend, hsame.events]
    exact h.pending
  · intro i sub hsub hopen
    obtain ⟨early, missed, hevs, hrest⟩ := h.follows i sub hsub hopen
    exact ⟨early, missed, hsame.events.trans hevs, hrest⟩

theorem renewActorLease_same (db : Database) (owner : String) (leaseUntil : Int) :
    db.Same (db.renewActorLease owner leaseUntil) := by
  unfold Database.renewActorLease
  split
  · exact ⟨⟨_, rfl⟩, rfl, ⟨_, rfl⟩, rfl, rfl⟩
  · exact .refl db

theorem releaseActorLease_same (db : Database) (owner : String) : db.Same (db.releaseActorLease owner) := by
  unfold Database.releaseActorLease
  split
  · exact ⟨⟨_, rfl⟩, rfl, ⟨_, rfl⟩, rfl, rfl⟩
  · exact .refl db

/-- An actor that leaves the map has nothing left to publish. -/
theorem Inv.leave {held : Option Actor} (h : s.Inv name) (hrng : s.actors name.canonical = some ⟨held, [], []⟩) :
    (s.run name.canonical none).Inv name := by
  refine h.run nofun ?_ fun i sub _ _ hslow => ?_
  · rw [pending_run, pending_eq hrng]
    rfl
  · rw [slow_eq hrng] at hslow
    cases hslow

/-- **Every step keeps the invariant.** -/
theorem Inv.step {act : EngineAct} (h : s.Inv name) (hregular : Regular name s act)
    (hstep : s.step name act = some s') : s'.Inv name := by
  cases act with
  | openActor =>
    -- No actor runs under the name yet, so nothing is pending and nobody is slow.
    cases of_decide_eq_true hregular.1
    rw [Engine.step] at hstep
    split at hstep
    · rename_i hfree
      cases hstep
      rw [and_eq_true, Option.isNone_iff_eq_none] at hfree
      refine h.run (fun _ => rfl) ?_ fun i sub _ _ hslow => ?_
      · rw [pending_run, Engine.pending, hfree.2]
        rfl
      · rw [slow, hfree.2] at hslow
        cases hslow
    · cases hstep
  | command sessionID =>
    cases hregular.2
    obtain ⟨actor, hwaits, hstep⟩ := Option.bind_eq_some_iff.mp hstep
    have hrng := waiting_ok hwaits
    obtain rfl := h.actors sessionID (by rw [hrng]; rfl)
    cases hstep
    exact h.command hrng _
  | publish sessionID =>
    obtain ⟨⟨held, publishing, slow⟩, hrng, hstep⟩ := Option.bind_eq_some_iff.mp hstep
    obtain rfl := h.actors sessionID (by rw [hrng]; rfl)
    dsimp only at hstep
    split at hstep
    · cases hstep
      exact h.publish hrng
    · cases hstep
  | closeSlow sessionID =>
    obtain ⟨⟨held, publishing, slow⟩, hrng, hstep⟩ := Option.bind_eq_some_iff.mp hstep
    obtain rfl := h.actors sessionID (by rw [hrng]; rfl)
    obtain ⟨sub, hsub, hstep⟩ := Option.bind_eq_some_iff.mp hstep
    split at hstep
    · split at hstep
      · cases hstep
        exact h.change hsub rfl nofun rfl fun _ hsnap => .inl hsnap
      · cases hstep
        exact h.change hsub rfl nofun rfl fun _ hsnap => .inl hsnap
      · rename_i hclsd
        cases hstep
        refine h.run (fun _ => rfl) ?_ fun j other hoth hopen hslow => ?_
        · rw [pending_run, pending_eq hrng]
          rfl
        · rw [slow_eq hrng] at hslow
          rw [slow_run]
          refine (mem_erase_of_ne ?_).mpr hslow
          rintro rfl
          rw [hsub] at hoth
          cases hoth
          rw [hclsd] at hopen
          cases hopen
    · cases hstep
  | finish sessionID =>
    obtain ⟨⟨held, publishing, slow⟩, hrng, hstep⟩ := Option.bind_eq_some_iff.mp hstep
    obtain rfl := h.actors sessionID (by rw [hrng]; rfl)
    split at hstep
    · rename_i hdone
      rw [and_eq_true, and_eq_true, List.isEmpty_iff, List.isEmpty_iff] at hdone
      obtain ⟨⟨-, rfl⟩, rfl⟩ := hdone
      cases hstep
      exact h.leave hrng
    · cases hstep
  | heartbeat sessionID =>
    obtain ⟨actor, hwaits, hstep⟩ := Option.bind_eq_some_iff.mp hstep
    have hrng := waiting_ok hwaits
    obtain rfl := h.actors sessionID (by rw [hrng]; rfl)
    dsimp only at hstep
    split at hstep
    · cases hstep
      exact h.leave hrng
    · cases hstep
      exact h.leased (renewActorLease_same _ _ _)
  | releaseOwnership =>
    cases hstep
    exact h.leased (releaseActorLease_same _ _)
  | subscribe =>
    cases of_decide_eq_true hregular.1
    rw [Engine.step, if_pos name.spelled] at hstep
    cases hstep
    exact h.subscribe
  | get =>
    obtain ⟨sub, hsub, hstep⟩ := Option.bind_eq_some_iff.mp hstep
    split at hstep
    · cases hstep
      refine h.change hsub rfl id rfl fun snapshot hsnap => .inr ?_
      cases hsnap
      rw [snapshotFromRuntimeRows, h.numbered.next, Nat.add_sub_cancel]
    · cases hstep
  | receive =>
    obtain ⟨sub, hsub, hstep⟩ := Option.bind_eq_some_iff.mp hstep
    split at hstep
    · rename_i snapshot event rest hsnap hevs
      cases hstep
      refine h.change hsub rfl id ?_ fun _ hshn => .inl hshn
      rw [Subscription.sent, Subscription.sent, hevs, append_assoc]
      rfl
    · cases hstep
  | unsubscribe | subscriberClosed =>
    obtain ⟨sub, hsub, hstep⟩ := Option.bind_eq_some_iff.mp hstep
    split at hstep
    · cases hstep
      exact h.change hsub rfl nofun rfl fun _ hsnap => .inl hsnap
    · cases hstep

theorem init_inv (hids : (db.tracks.map (·.id)).Nodup) (hnumd : db.Numbered) : (init db).Inv name where
  distinct := hids
  numbered := hnumd
  actors _ hno := by cases hno
  subs _ hno := by cases hno
  shown _ hno := by cases hno
  pending := nil_suffix
  follows _ _ hno := by cases hno

end Engine

/-! ## No gap -/

/-- The events after a number. -/
def Database.since (db : Database) (eventSeq : Nat) : List EventRow :=
  db.events.filter fun event => eventSeq < event.eventSeq

theorem Database.Numbered.increasing (h : db.Numbered) :
    db.events.Pairwise fun before after => before.eventSeq < after.eventSeq := by
  have hseqs : (db.events.map (·.eventSeq)).Pairwise (· < ·) := by
    rw [h.events]
    exact pairwise_lt_range'
  exact pairwise_map.mp hseqs

theorem Database.Numbered.early (h : db.Numbered) {early rest : List EventRow}
    (hevs : db.events = early ++ rest) (hevt : event ∈ early) :
    event.eventSeq ≤ early.length := by
  have hseqs := h.events
  rw [hevs, map_append, length_append, range'_append_1.symm] at hseqs
  have hear := (append_inj hseqs (by rw [length_map, length_range'])).1
  have hmem : event.eventSeq ∈ early.map (·.eventSeq) := mem_map_of_mem hevt
  rw [hear, mem_range'_1] at hmem
  omega

theorem Database.Numbered.since (h : db.Numbered) {eventSeq : Nat}
    (hle : eventSeq ≤ db.events.length) : (db.since eventSeq).map (·.eventSeq) =
      List.range' (eventSeq + 1) (db.events.length - eventSeq) := by
  have hspl : range' 1 db.events.length = range' 1 eventSeq ++ range' (1 + eventSeq) (db.events.length - eventSeq) := by
    rw [range'_append_1, Nat.add_sub_cancel' hle]
  have hmap : (db.since eventSeq).map (·.eventSeq) = (db.events.map (·.eventSeq)).filter fun seq => eventSeq < seq := by
    rw [filter_map]
    rfl
  rw [hmap, h.events, hspl, filter_append, filter_eq_nil_iff.mpr, filter_eq_self.mpr, nil_append, add_comm]
  · intro seq hseq
    rw [mem_range'_1] at hseq
    exact decide_eq_true (by omega)
  · intro seq hseq hlat
    rw [mem_range'_1] at hseq
    have := of_decide_eq_true hlat
    omega

/-- On increasing events the stream drops exactly those that the snapshot shows. -/
theorem streamed_increasing {lastSent : Nat} {events : List EventRow}
    (h : events.Pairwise fun before after => before.eventSeq < after.eventSeq) :
    streamed lastSent events = events.filter fun event => lastSent < event.eventSeq := by
  induction events generalizing lastSent with
  | nil => rfl
  | cons event rest ih =>
    obtain ⟨hfs, hrest⟩ := pairwise_cons.mp h
    rw [streamed]
    split
    · rename_i hle
      rw [filter_cons_of_neg (by simpa using hle), ih hrest]
    · rename_i hlt
      rw [filter_cons_of_pos (by simpa using hlt), ih hrest]
      -- what follows is beyond both
      refine congrArg (event :: ·) (filter_congr fun later hlat => ?_)
      have := hfs later hlat
      rw [decide_eq_decide]
      omega

/-- The actor of the session has published what it committed, and closed whom it passed over. -/
def Engine.Quiet (name : SessionName) (s : Engine) : Prop :=
  s.pending name = [] ∧ s.slow name = []

/-- **No subscriber has a gap.** Where everyone spells the session as the database does and every
answer arrives, a subscriber that is not closed has been sent, after the events its snapshot shows,
the next ones of the log in order, and all of them once the actor is quiet. -/
theorem subscribers_have_no_gap {name : SessionName} {start db : Database} {s : Engine}
    (hprepared : Prepared start) (hearlier : Reaches Database.command always start db)
    (h : Reaches (Engine.step name) (Engine.Regular name) (Engine.init db) s) {i : Nat}
    {sub : Subscription} {snapshot : SessionSnapshot} (hsub : s.subs[i]? = some sub)
    (hopen : sub.state = .opened) (hsnapshot : sub.snapshot = some snapshot) :
    ((s.db.since snapshot.lastEventSeq).map (·.eventSeq) =
        List.range' (snapshot.lastEventSeq + 1) (s.db.events.length - snapshot.lastEventSeq)) ∧
      streamed snapshot.lastEventSeq sub.received <+: streamed snapshot.lastEventSeq sub.sent ∧
      streamed snapshot.lastEventSeq sub.sent <+: s.db.since snapshot.lastEventSeq ∧
      (s.Quiet name → streamed snapshot.lastEventSeq sub.sent = s.db.since snapshot.lastEventSeq) := by
  have hinv : s.Inv name := h.invariant (Engine.Inv name)
    (Engine.init_inv (reaches_distinct hprepared hearlier) (reaches_numbered hprepared hearlier))
    fun _ _ _ hs hok hstep => hs.step hok hstep
  obtain ⟨early, missed, hevs, hmissed, hshn⟩ := hinv.follows i sub hsub hopen
  have hear := hshn snapshot hsnapshot
  have hincreasing := hinv.numbered.increasing
  rw [hevs] at hincreasing
  have hsent : sub.sent.Pairwise fun before after => before.eventSeq < after.eventSeq :=
    (pairwise_append.mp (pairwise_append.mp hincreasing).2.1).1
  -- what came before the subscription is in the snapshot
  have hsince : s.db.since snapshot.lastEventSeq = streamed snapshot.lastEventSeq sub.sent ++
      (missed ++ s.pending name).filter fun event => snapshot.lastEventSeq < event.eventSeq := by
    have hnone : (early.filter fun event => snapshot.lastEventSeq < event.eventSeq) = [] := by
      refine filter_eq_nil_iff.mpr fun event hevt hlat => ?_
      have := hinv.numbered.early hevs hevt
      have := of_decide_eq_true hlat
      omega
    rw [Database.since, hevs, filter_append, filter_append, hnone, nil_append, streamed_increasing hsent]
  refine ⟨?_, ?_, ⟨_, hsince.symm⟩, fun hquiet => ?_⟩
  · exact hinv.numbered.since (hinv.shown sub (mem_of_getElem? hsub) snapshot hsnapshot)
  · rw [streamed_increasing hsent, streamed_increasing (pairwise_append.mp hsent).1, Subscription.sent, filter_append]
    exact prefix_append _ _
  · have hnone : missed = [] := hmissed (by rw [hquiet.2]; exact not_mem_nil)
    rw [hsince, hnone, hquiet.1]
    exact (append_nil _).symm

/-! ## A session spelled in capitals -/

/-- A session whose id has letters, so that requests can spell it in two ways. -/
def lettered : SessionName where
  canonical := "0f8fad5b-d9cb-469f-a165-70867728950e"
  spells text := text = "0f8fad5b-d9cb-469f-a165-70867728950e"
    || text = "0F8FAD5B-D9CB-469F-A165-70867728950E"
  spelled := by decide

/-- An actor as it starts on the session. -/
def firstActor : Actor := ⟨"owner", risingMinutes.load, 0, 0⟩

/-- A client subscribes under a spelling of the id, and the session starts to play. -/
def subscribed (sessionID : String) : List EngineAct :=
  [.openActor sessionID firstActor, .subscribe sessionID, .get 0 risingMinutes.tracks none] ++
    (if sessionID = lettered.canonical then [] else [.openActor lettered.canonical firstActor]) ++
    [.command lettered.canonical ⟨"play", none, .play, 0, second⟩ true, .publish lettered.canonical]

/-- The one subscriber is open and has its snapshot, the actor is quiet, and so many events were
sent and so many logged. -/
def sentOf (s : Engine) : Option (Nat × Nat) := do
  let sub ← s.subs[0]?
  let snapshot ← sub.snapshot
  if sub.state = .opened && (s.pending lettered).isEmpty && (s.slow lettered).isEmpty then
    some ((streamed snapshot.lastEventSeq sub.sent).length, (s.db.since snapshot.lastEventSeq).length)
  else none

theorem sentOf_ok {s : Engine} {sent logged : Nat} (h : sentOf s = some (sent, logged)) :
    ∃ sub snapshot, s.subs[0]? = some sub ∧ sub.state = .opened ∧ sub.snapshot = some snapshot ∧
      s.Quiet lettered ∧ (streamed snapshot.lastEventSeq sub.sent).length = sent ∧
      (s.db.since snapshot.lastEventSeq).length = logged := by
  obtain ⟨sub, hsub, h⟩ := Option.bind_eq_some_iff.mp h
  obtain ⟨snapshot, hsnp, h⟩ := Option.bind_eq_some_iff.mp h
  split at h
  · rename_i hquiet
    rw [and_eq_true, and_eq_true, decide_eq_true_iff, List.isEmpty_iff, List.isEmpty_iff] at hquiet
    obtain ⟨hsent, hlogg⟩ := Prod.mk.inj (Option.some.inj h)
    exact ⟨sub, snapshot, hsub, hquiet.1.1, hsnp, ⟨hquiet.1.2, hquiet.2⟩, hsent, hlogg⟩
  · cases h

/-- A subscriber under the id of the database is sent the event of the start. -/
theorem subscriber_hears_start : ∃ s sub snapshot,
    Reaches (Engine.step lettered) (Engine.Regular lettered) (Engine.init risingMinutes) s ∧
    s.subs[0]? = some sub ∧ sub.snapshot = some snapshot ∧
    streamed snapshot.lastEventSeq sub.sent = s.db.since snapshot.lastEventSeq ∧
    (s.db.since snapshot.lastEventSeq).length = 1 := by
  have hrun : ((exec (Engine.step lettered) (fun _ act => act.spelled lettered && act.heard)
      (Engine.init risingMinutes) (subscribed lettered.canonical)).bind sentOf) = some (1, 1) := by
    decide +kernel
  obtain ⟨s, hexec, hsent⟩ := Option.bind_eq_some_iff.mp hrun
  obtain ⟨sub, snapshot, hsub, hopen, hsnp, hquiet, -, hlogg⟩ := sentOf_ok hsent
  have hrch : Reaches (Engine.step lettered) (Engine.Regular lettered) (Engine.init risingMinutes) s :=
    reaches_of_exec (fun _ act h => by rwa [and_eq_true] at h) hexec
  exact ⟨s, sub, snapshot, hrch, hsub, hsnp,
    (subscribers_have_no_gap risingMinutes_prepared .refl hrch hsub hopen hsnp).2.2.2 hquiet,
    hlogg⟩

/-- A subscriber that spells the id in capitals is open and hears nothing, though every answer
arrives. -/
theorem capitals_hear_nothing : ¬ ∀ (name : SessionName) (start : Database) (s : Engine) (i : Nat)
    (sub : Subscription) (snapshot : SessionSnapshot), Prepared start →
    Reaches (Engine.step name) (fun _ act => act.heard = true) (Engine.init start) s →
    s.subs[i]? = some sub → sub.state = .opened → sub.snapshot = some snapshot → s.Quiet name →
    streamed snapshot.lastEventSeq sub.sent = s.db.since snapshot.lastEventSeq := by
  intro h
  have hrun : ((exec (Engine.step lettered) (fun _ act => act.heard) (Engine.init risingMinutes)
      (subscribed "0F8FAD5B-D9CB-469F-A165-70867728950E")).bind sentOf) = some (0, 1) := by
    decide +kernel
  obtain ⟨s, hexec, hsent⟩ := Option.bind_eq_some_iff.mp hrun
  obtain ⟨sub, snapshot, hsub, hopen, hsnp, hquiet, hnone, hlogg⟩ := sentOf_ok hsent
  have hsame := h lettered risingMinutes s 0 sub snapshot risingMinutes_prepared
    (reaches_of_exec (fun _ _ hheard => hheard) hexec) hsub hopen hsnp hquiet
  rw [← hsame, hnone] at hlogg
  cases hlogg

end MarketLens.Replay
