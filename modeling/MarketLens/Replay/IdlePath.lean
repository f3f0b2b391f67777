import MarketLens.Replay.Actors
import MarketLens.Replay.Marks

/-!
# Steps that skip the ledger

A step whose actor holds an idle projection leaves the ledger alone. The projection
says what the event log said when it was read, and every other actor may have
logged more since. So the skip is right exactly when what was logged since then
leaves no order at work and no position open. An actor that is alone, and hears
every answer, misses nothing.
-/

namespace MarketLens.Replay

open List Option Bool Replay.System Database Fallible Runs Ledger

/-! ## What a projection remembers -/

/-- The projection of an actor says of the orders and of the positions what the log said when they
were read. -/
structure Actor.Remembers (actor : Actor) (log : List EventDraft) : Prop where
  ordersLogged : actor.ordersRead ≤ log.length
  positionsLogged : actor.positionsRead ≤ log.length
  orders : ∀ trading, actor.snapshot.trading = some trading →
    (trading.orders.all (fun order => !order.status.active) = true ↔
      (Work.none.play (log.take actor.ordersRead)).orders = [])
  positions : ∀ trading, actor.snapshot.trading = some trading →
    (trading.positions.all (fun p => |volume p.netQuantity| ≤ dust) = true ↔
      (Work.none.play (log.take actor.positionsRead)).positions = [])

/-- What was logged since the projection was read leaves no order at work and no position open. -/
def Actor.MissedNothing (actor : Actor) (log : List EventDraft) : Prop :=
  (Work.none.play (log.drop actor.ordersRead)).orders = [] ∧
    (Work.none.play (log.drop actor.positionsRead)).positions = []

variable {actor : Actor}

theorem Actor.Remembers.append {log : List EventDraft} (h : actor.Remembers log)
    (drafts : List EventDraft) : actor.Remembers (log ++ drafts) := by
  refine ⟨?_, ?_, ?_, ?_⟩
  · rw [length_append]
    exact Nat.le_add_right_of_le h.ordersLogged
  · rw [length_append]
    exact Nat.le_add_right_of_le h.positionsLogged
  · rw [take_append_of_le_length h.ordersLogged]
    exact h.orders
  · rw [take_append_of_le_length h.positionsLogged]
    exact h.positions

section Projection

variable {ledger source : Ledger} {trading : TradingSnapshot} {work : Work}

theorem ordersIdle_iff (hload : loadTradingSnapshot ledger = some trading)
    (hrows : ledger.orders = source.orders) (h : source.Has work) :
    trading.orders.all (fun order => !order.status.active) = true ↔ work.orders = [] := by
  obtain ⟨account, -, rfl⟩ := map_eq_some_iff.mp hload
  rw [h.orders_eq_nil, List.all_eq_true, ← hrows]
  constructor
  · intro hidle order hord
    have := hidle order (mem_mergeSort.mpr hord)
    rwa [not_eq_true'] at this
  · intro hidle order hord
    rw [not_eq_true']
    exact hidle order (mem_mergeSort.mp hord)

theorem positionsIdle_iff (hload : loadTradingSnapshot ledger = some trading)
    (hrows : ledger.positions = source.positions) (h : source.Has work) :
    trading.positions.all (fun p => |volume p.netQuantity| ≤ dust) = true ↔ work.positions = [] := by
  obtain ⟨account, -, rfl⟩ := map_eq_some_iff.mp hload
  rw [h.positions_eq_nil, List.all_eq_true, ← hrows]
  constructor
  · intro hidle p hp
    have := hidle p (mem_mergeSort.mpr hp)
    exact volume_le_dust.mp (of_decide_eq_true this)
  · intro hidle p hp
    exact decide_eq_true (volume_le_dust.mpr (hidle p (mem_mergeSort.mp hp)))

end Projection

theorem length_log (db : Database) : db.events.length = db.log.length := by
  unfold Database.log
  rw [length_map]

/-! ## The invariant -/

/-- Every state had the work its log left, every log grew into the present one, and every actor
remembers the log it read. -/
structure System.Kept (s : System) : Prop where
  distinct : (s.db.tracks.map (·.id)).Nodup
  stored : ∀ db ∈ s.states, db.Logged ∧ db.log <+: s.db.log
  actors : ∀ i actor, s.actors i = some actor → actor.Remembers s.db.log

variable {db : Database}

section Kept

variable {s : System}

theorem System.Kept.logged (h : s.Kept) : s.db.Logged :=
  (h.stored s.db (mem_append_right _ mem_cons_self)).1

theorem System.Kept.wrote {drafts : List EventDraft} (h : s.Kept)
    (hids : (db.tracks.map (·.id)).Nodup) (hlogg : db.Logged) (hlog : db.log = s.db.log ++ drafts) :
    (s.wrote db).Kept := by
  refine ⟨hids, ?_, ?_⟩
  · intro old hold
    have hgrown : s.db.log <+: db.log := by
      rw [hlog]
      exact prefix_append _ _
    rcases mem_append.mp hold with hpast | hnow
    · obtain ⟨hold, hprefix⟩ := h.stored old hpast
      exact ⟨hold, hprefix.trans hgrown⟩
    · rw [mem_singleton.mp hnow]
      exact ⟨hlogg, prefix_rfl⟩
  · intro i actor hactor
    have hremb := (h.actors i actor hactor).append drafts
    rw [← hlog] at hremb
    exact hremb

theorem System.Kept.put {i : Nat} {actor : Option Actor} (h : s.Kept)
    (hactor : ∀ held, actor = some held → held.Remembers s.db.log) : (s.put i actor).Kept := by
  refine ⟨h.distinct, h.stored, fun j held hheld => ?_⟩
  by_cases hj : j = i
  · subst hj
    exact hactor held (put_self hheld)
  · exact h.actors j held (put_other hheld hj)

/-- A write to the session row alone. -/
theorem System.Kept.wrote_session (h : s.Kept) (htrks : db.tracks = s.db.tracks)
    (hldg : db.ledger = s.db.ledger) (hevs : db.events = s.db.events) : (s.wrote db).Kept := by
  have hlog : db.log = s.db.log := by
    unfold Database.log
    rw [hevs]
  have hids : (db.tracks.map (·.id)).Nodup := by
    rw [htrks]
    exact h.distinct
  have hlogg : db.Logged := by
    unfold Database.Logged
    rw [hldg, hlog]
    exact h.logged
  exact h.wrote hids hlogg (hlog.trans (append_nil _).symm)

theorem System.Kept.read {owner : String} {reads : Reads} (h : s.Kept)
    (hread : s.read owner reads = some actor) : actor.Remembers s.db.log := by
  obtain ⟨-, session, tracks, account, orders, fills, positions, -, hords, -, hposs, rfl⟩ :=
    read_ok hread
  obtain ⟨hhas, hprefix⟩ := h.stored orders (mem_of_getElem? hords)
  obtain ⟨hhas', hprefix'⟩ := h.stored positions (mem_of_getElem? hposs)
  have htake : s.db.log.take orders.events.length = orders.log := by
    rw [length_log]
    exact (prefix_iff_eq_take.mp hprefix).symm
  have htake' : s.db.log.take positions.events.length = positions.log := by
    rw [length_log]
    exact (prefix_iff_eq_take.mp hprefix').symm
  refine ⟨?_, ?_, ?_, ?_⟩
  · rw [length_log]
    exact hprefix.length_le
  · dsimp only
    rw [length_log]
    exact hprefix'.length_le
  · intro trading htrdg
    rw [htake]
    exact ordersIdle_iff htrdg (rfl : _ = orders.ledger.orders) hhas
  · intro trading htrdg
    rw [htake']
    exact positionsIdle_iff htrdg (rfl : _ = positions.ledger.positions) hhas'

end Kept

/-! ## Commands -/

section Command

variable {db db' : Database} {actor held : Actor} {request : Request} {response : Response}

theorem runCommand_events {input : CommandInput} {result : CommandResult} {events : List EventRow}
    (h : runCommand db input = .ok (result, events, db')) : db'.events = db.events ++ events := by
  unfold runCommand at h
  obtain ⟨⟨claimed, leased⟩, -, h⟩ := bind_ok.mp h
  rw [unit_bind_ok, bind_ok] at h
  obtain ⟨-, moved, -, h⟩ := h
  rw [unit_bind_ok, unit_bind_ok] at h
  obtain ⟨-, -, h⟩ := h
  cases h
  rfl

/-- A command whose answer is no new result has moved nothing. -/
theorem Commanded.unmoved_of {input : CommandInput} (h : Commanded db input response db')
    (hnot : response.applied = false) : Unmoved db db' := by
  cases h with
  | unmoved _ same => exact same
  | committed _ _ commits =>
    unfold Response.applied at hnot
    dsimp only at hnot
    rw [commits.duplicate] at hnot
    cases hnot

theorem Unmoved.log (h : Unmoved db db') : db'.log = db.log := by
  unfold Database.log
  rw [h.events]

/-- A result taken over brings a projection read anew, or the actor has missed no trade. -/
theorem took_cases {result : CommandResult} {events : List EventRow}
    (h : Commanded db (actor.input request) (.ok (result, events)) db')
    (hfsh : result.duplicate = false) :
    (result.snapshot.trading = loadTradingSnapshot db'.ledger ∧
        (actor.took result events db'.events.length).ordersRead = db'.events.length ∧
        (actor.took result events db'.events.length).positionsRead = db'.events.length) ∨
      (result.snapshot.trading = actor.snapshot.trading ∧
        (actor.took result events db'.events.length).ordersRead = actor.ordersRead ∧
        (actor.took result events db'.events.length).positionsRead = actor.positionsRead ∧
        ∃ drafts, tradeDrafts drafts = [] ∧ db'.log = db.log ++ drafts) := by
  cases h with
  | unmoved notApplied =>
    unfold Response.applied at notApplied
    dsimp only at notApplied
    rw [hfsh] at notApplied
    cases notApplied
  | @committed _ _ _ claimed moved _ ran commits =>
    have hdrfs : events.map (·.draft) = moved.drafts := by
      obtain ⟨added, hadded, hsame, -⟩ := commits.events
      rw [runCommand_events ran, append_cancel_left_eq] at hadded
      rw [hadded]
      exact hsame
    have htrdg := commits.trading
    have hinput : (actor.input request).runtimeTrading = actor.snapshot.trading := rfl
    rw [hinput] at htrdg
    unfold Actor.took
    rw [hdrfs]
    by_cases hreread : (actor.snapshot.trading.isNone || tradeChangedInDrafts moved.drafts) = true
    · rw [if_pos hreread] at htrdg
      exact .inl ⟨htrdg, if_pos hreread, if_pos hreread⟩
    · rw [if_neg hreread] at htrdg
      rw [not_eq_true, or_eq_false_iff] at hreread
      have hkept : ∀ {a b : Nat}, (if (actor.snapshot.trading.isNone ||
          tradeChangedInDrafts moved.drafts) = true then a else b) = b := by
        intro a b
        rw [hreread.1, hreread.2, Bool.false_or, if_neg Bool.false_ne_true]
      exact .inr ⟨htrdg, hkept, hkept, moved.drafts, tradeChangedInDrafts_eq_false.mp hreread.2, commits.log⟩

theorem answered_remembers {command : Command} (h : Commanded db (actor.input request) response db') (hlogg : db'.Logged)
    (hremb : actor.Remembers db'.log)
    (hheld : actor.answered command response db'.events.length = some held) :
    held.Remembers db'.log := by
  rcases answered_cases hheld with ⟨-, rfl⟩ | ⟨result, events, rfl, hfsh, rfl⟩
  · exact hremb
  rcases took_cases h hfsh with ⟨htrdg, hords, hposs⟩ | ⟨htrdg, hords, hposs, -⟩
  · have htake : db'.log.take db'.events.length = db'.log := by
      rw [length_log, take_length]
    refine ⟨?_, ?_, ?_, ?_⟩
    · rw [hords, length_log]
    · rw [hposs, length_log]
    · intro trading hsome
      rw [hords, htake]
      exact ordersIdle_iff (htrdg.symm.trans hsome) rfl hlogg
    · intro trading hsome
      rw [hposs, htake]
      exact positionsIdle_iff (htrdg.symm.trans hsome) rfl hlogg
  · refine ⟨?_, ?_, ?_, ?_⟩
    · rw [hords]
      exact hremb.ordersLogged
    · rw [hposs]
      exact hremb.positionsLogged
    · intro trading hsome
      rw [hords]
      exact hremb.orders trading (htrdg.symm.trans hsome)
    · intro trading hsome
      rw [hposs]
      exact hremb.positions trading (htrdg.symm.trans hsome)

end Command

/-! ## Runs -/

section Runs

variable {start : Database} {s s' : System}

theorem init_kept (h : Prepared start) : (System.init start).Kept := by
  refine ⟨h.distinct, ?_, ?_⟩
  · intro db hdb
    rw [mem_singleton.mp hdb]
    exact ⟨prepared_logged h, prefix_rfl⟩
  · intro i actor hactor
    cases hactor

theorem System.Kept.commanded (h : s.Kept) (input : CommandInput) : (s.wrote (applyCommand s.db input).2).Kept := by
  have hcs := applyCommand_cases h.distinct input
  obtain ⟨drafts, hlog, -⟩ := hcs.plays
  refine h.wrote ?_ (hcs.logged h.logged) hlog
  rw [forall₂_sameTrack_ids hcs.sameTracks]
  exact h.distinct

/-- **Everything that happens to a session keeps the invariant.** -/
theorem step_kept {a : Act} (h : s.Kept) (hstep : s.step a = some s') : s'.Kept := by
  cases a with
  | openActor =>
    unfold step at hstep
    dsimp only at hstep
    split at hstep
    · cases hstep
    obtain ⟨actor, hread, rfl⟩ := map_eq_some_iff.mp hstep
    refine h.put fun held hheld => ?_
    cases hheld
    exact h.read hread
  | command i request delivered =>
    obtain ⟨actor, hactor, rfl⟩ := command_step hstep
    have hwrote := h.commanded (actor.input request)
    refine hwrote.put fun held hheld => ?_
    have hremb : actor.Remembers (applyCommand s.db (actor.input request)).2.log :=
      hwrote.actors i actor hactor
    cases delivered with
    | true =>
      exact answered_remembers (applyCommand_cases h.distinct _) hwrote.logged hremb hheld
    | false =>
      cases hheld
      exact hremb
  | recover =>
    cases hstep
    exact h.commanded _
  | renew =>
    cases hstep
    refine h.wrote_session ?_ ?_ ?_ <;> unfold renewActorLease <;> split <;> rfl
  | release =>
    cases hstep
    refine h.wrote_session ?_ ?_ ?_ <;> unfold releaseActorLease <;> split <;> rfl
  | stop =>
    cases hstep
    refine h.put fun held hheld => ?_
    cases hheld

theorem reaches_kept {ok : System → Act → Prop} (hprep : Prepared start)
    (hrun : Reaches System.step ok (System.init start) s) : s.Kept :=
  hrun.invariant System.Kept (init_kept hprep) fun _ _ _ h _ hstep => step_kept h hstep

theorem System.Kept.idle_iff {request : Request} (h : s.Kept) (hremb : actor.Remembers s.db.log)
    (hidle : canReuseIdleTradingProjection (actor.input request) = true) :
    s.db.ledger.Idle ↔ actor.MissedNothing s.db.log := by
  unfold canReuseIdleTradingProjection at hidle
  rw [and_eq_true, Option.any_eq_true] at hidle
  obtain ⟨-, trading, htrdg, hidle⟩ := hidle
  unfold TradingSnapshot.idle at hidle
  rw [and_eq_true] at hidle
  -- when it was read, the projection had no work, so the log had left none
  have hords := (hremb.orders trading htrdg).mp hidle.1
  have hposs := (hremb.positions trading htrdg).mp hidle.2
  have hords : (Work.none.play s.db.log).orders = (Work.none.play (s.db.log.drop actor.ordersRead)).orders := by
    rw [← take_append_drop actor.ordersRead s.db.log, Work.play_append, take_append_drop]
    exact Work.play_orders hords _
  have hposs : (Work.none.play s.db.log).positions = (Work.none.play (s.db.log.drop actor.positionsRead)).positions := by
    rw [← take_append_drop actor.positionsRead s.db.log, Work.play_append, take_append_drop]
    exact Work.play_positions hposs _
  have hhas : s.db.ledger.Has (Work.none.play s.db.log) := h.logged
  unfold Actor.MissedNothing
  rw [hhas.idle_iff, hords, hposs]

end Runs

/-! ## An actor that is alone -/

/-- No engine makes an actor while another one runs or while the session changes, and every answer
arrives. -/
def Alone (s : System) : Act → Prop
  | .openActor _ _ reads => (∀ j, s.actors j = none) ∧ reads.orders = s.past.length
  | .command _ _ delivered => delivered = true
  | _ => True

section Alone

variable {start : Database} {s s' : System} {a : Act}

/-- There is one actor at most, and nothing was traded since it read its projection. -/
structure System.Heard (s : System) : Prop where
  single : s.Single
  quiet : ∀ i actor, s.actors i = some actor →
    tradeDrafts (s.db.log.drop actor.ordersRead) = [] ∧
      tradeDrafts (s.db.log.drop actor.positionsRead) = []

theorem missedNothing_of_quiet {log : List EventDraft} (hords : tradeDrafts (log.drop actor.ordersRead) = [])
    (hposs : tradeDrafts (log.drop actor.positionsRead) = []) : actor.MissedNothing log := by
  have hnone : ∀ {drafts : List EventDraft}, tradeDrafts drafts = [] → Work.none.play drafts = Work.none := by
    intro drafts hquiet
    unfold tradeDrafts at hquiet
    rw [← Work.play_tradeDrafts, hquiet, Work.play_nil]
  unfold Actor.MissedNothing
  rw [hnone hords, hnone hposs]
  exact ⟨rfl, rfl⟩

theorem recovery_quiet {db db' : Database} {response : Response} {key : String} {now : Int}
    (h : Commanded db (recovery key now) response db') :
    ∃ drafts, tradeDrafts drafts = [] ∧ db'.log = db.log ++ drafts := by
  cases h with
  | unmoved _ same => exact ⟨[], rfl, same.log.trans (append_nil _).symm⟩
  | committed _ _ commits =>
    refine ⟨_, ?_, commits.log⟩
    have hmoves := commits.moves
    cases hmoves with
    | kept _ _ _ _ _ _ quiet => exact quiet
    | stepped _ _ _ _ _ steps => cases steps
    | sought _ _ _ seeks => cases seeks
    | traded _ _ trades => cases trades

/-- What is logged without a trade event is not missed. -/
theorem quiet_append {log drafts : List EventDraft} {read : Nat} (hread : read ≤ log.length)
    (hquiet : tradeDrafts (log.drop read) = []) (hdrfs : tradeDrafts drafts = []) :
    tradeDrafts ((log ++ drafts).drop read) = [] := by
  rw [drop_append_of_le_length hread, tradeDrafts_append, hquiet, hdrfs, append_nil]

theorem System.Heard.wrote {drafts : List EventDraft} (h : s.Heard) (hkept : s.Kept)
    (hquiet : tradeDrafts drafts = []) (hlog : db.log = s.db.log ++ drafts) : (s.wrote db).Heard := by
  refine ⟨h.single, fun i actor hactor => ?_⟩
  have hlog : (s.wrote db).db.log = s.db.log ++ drafts := hlog
  obtain ⟨hords, hposs⟩ := h.quiet i actor hactor
  have hremb := hkept.actors i actor hactor
  rw [hlog]
  exact ⟨quiet_append hremb.ordersLogged hords hquiet, quiet_append hremb.positionsLogged hposs hquiet⟩

/-- The one actor there is, replaced or ended. -/
theorem heard_put {i : Nat} {actor : Option Actor} (hoths : ∀ j, j ≠ i → s.actors j = none)
    (hquiet : ∀ held, actor = some held → tradeDrafts (s.db.log.drop held.ordersRead) = [] ∧
      tradeDrafts (s.db.log.drop held.positionsRead) = []) : (s.put i actor).Heard :=
  ⟨put_single hoths, fun _ held hheld => hquiet held (put_only hoths hheld).2⟩

/-- An actor made while nothing changes has read everything. -/
theorem read_now {owner : String} {reads : Reads}
    (hnow : reads.orders = s.past.length) (hread : s.read owner reads = some actor) :
    actor.ordersRead = s.db.log.length ∧ actor.positionsRead = s.db.log.length := by
  obtain ⟨hturn, session, tracks, account, orders, fills, positions, -, hords, -, hposs, rfl⟩ :=
    read_ok hread
  unfold Reads.inTurn at hturn
  simp only [and_eq_true, decide_eq_true_eq] at hturn
  -- the positions are read no earlier than the orders
  have hords := states_last hnow (Nat.le_refl _) hords
  have hposs := states_last hnow (by omega) hposs
  rw [hords, hposs]
  exact ⟨length_log _, length_log _⟩

theorem step_heard (hkept : s.Kept) (h : s.Heard) (halo : Alone s a) (hstep : s.step a = some s') : s'.Heard := by
  cases a with
  | openActor =>
    obtain ⟨hfs, hnow⟩ := halo
    unfold step at hstep
    dsimp only at hstep
    split at hstep
    · cases hstep
    obtain ⟨actor, hread, rfl⟩ := map_eq_some_iff.mp hstep
    refine heard_put (fun j _ => hfs j) fun held hheld => ?_
    cases hheld
    obtain ⟨hords, hposs⟩ := read_now hnow hread
    rw [hords, hposs, drop_length]
    exact ⟨rfl, rfl⟩
  | command i request delivered =>
    obtain ⟨actor, hactor, rfl⟩ := command_step hstep
    have hdlvd : delivered = true := halo
    have hcs := applyCommand_cases hkept.distinct (actor.input request)
    have hremb := hkept.actors i actor hactor
    obtain ⟨hords, hposs⟩ := h.quiet i actor hactor
    refine heard_put (h.single.others hactor) fun held hheld => ?_
    have hlog : (s.wrote (applyCommand s.db (actor.input request)).2).db.log =
        (applyCommand s.db (actor.input request)).2.log := rfl
    rw [hdlvd, if_pos rfl] at hheld
    rw [hlog]
    rcases answered_cases hheld with ⟨hnot, rfl⟩ | ⟨result, events, hresp, hfsh, rfl⟩
    · rw [(hcs.unmoved_of hnot).log]
      exact ⟨hords, hposs⟩
    · rw [hresp] at hcs
      rcases took_cases hcs hfsh with ⟨-, hread, hread'⟩ | ⟨-, hread, hread', drafts, hquiet, hmore⟩
      · rw [hread, hread', length_log, drop_length]
        exact ⟨rfl, rfl⟩
      · rw [hread, hread', hmore]
        exact ⟨quiet_append hremb.ordersLogged hords hquiet, quiet_append hremb.positionsLogged hposs hquiet⟩
  | recover =>
    cases hstep
    obtain ⟨drafts, hquiet, hlog⟩ := recovery_quiet (applyCommand_cases hkept.distinct _)
    exact h.wrote hkept hquiet hlog
  | renew =>
    cases hstep
    refine h.wrote hkept tradeDrafts_nil ?_
    rw [append_nil]
    unfold renewActorLease
    split <;> rfl
  | release =>
    cases hstep
    refine h.wrote hkept tradeDrafts_nil ?_
    rw [append_nil]
    unfold releaseActorLease
    split <;> rfl
  | stop i =>
    cases hstep
    exact ⟨h.single.stop i, fun j held hheld => h.quiet j held (put_none hheld)⟩

theorem reaches_heard (hprep : Prepared start) (hrun : Reaches System.step Alone (System.init start) s) : s.Kept ∧ s.Heard := by
  refine hrun.invariant (fun s => s.Kept ∧ s.Heard) ⟨init_kept hprep, ?_⟩ ?_
  · exact ⟨fun i j hi _ => (by cases hi), fun i actor hactor => by cases hactor⟩
  · intro s a s' ⟨hkept, hheard⟩ halo hstep
    exact ⟨step_kept hkept hstep, step_heard hkept hheard halo hstep⟩

end Alone

/--
**A step that skips the ledger finds it idle exactly when its actor missed nothing.**

In any run, what other actors logged since the projection was read, and what this one
logged without hearing of it, has to leave no order at work and no position open. An
actor that is alone and hears every answer misses nothing.
-/
theorem idle_skip_sound {start : Database} (hprepared : Prepared start) :
    (∀ s, Reaches System.step always (System.init start) s → ∀ i actor request,
      s.actors i = some actor → canReuseIdleTradingProjection (actor.input request) = true →
      (s.db.ledger.Idle ↔ actor.MissedNothing s.db.log)) ∧
    ∀ s, Reaches System.step Alone (System.init start) s → ∀ i actor request,
      s.actors i = some actor → canReuseIdleTradingProjection (actor.input request) = true →
      s.db.ledger.Idle := by
  constructor
  · intro s hrun i actor request hactor hidle
    have hkept := reaches_kept hprepared hrun
    exact hkept.idle_iff (hkept.actors i actor hactor) hidle
  · intro s hrun i actor request hactor hidle
    obtain ⟨hkept, hheard⟩ := reaches_heard hprepared hrun
    obtain ⟨hords, hposs⟩ := hheard.quiet i actor hactor
    rw [hkept.idle_iff (hkept.actors i actor hactor) hidle]
    exact missedNothing_of_quiet hords hposs

/-! ## Two actors of one session -/

/-- All the rows read before anything is written. -/
def atFirst : Reads := ⟨0, 0, 0, 0, 0, 0⟩

def clientRequest (key : String) (command : Command) : Request := ⟨key, none, command, 0, 0⟩

/-- A buy stop at two, above the first minute and below the second. -/
def buyStop : Request :=
  clientRequest "buy" (.placeOrder (some ⟨"buy-1", none, "buy", "stop", 1, none, some 2, none, none⟩))

def nextMinute : Request := clientRequest "step" (.step (some 1))

/-- The first actor would skip the ledger on its next step. -/
def firstSkips (s : System) : Bool :=
  (s.actors 0).any fun actor => canReuseIdleTradingProjection (actor.input nextMinute)

/-- An order works though the row under the cursor of its track triggers it. -/
def passedOver (db : Database) : Bool :=
  db.ledger.orders.any fun order => order.status.active && db.tracks.any fun track =>
    track.id = order.trackId && (track.dataset.barBySeq track.cursorSeq).any fun bar =>
      (triggerPrice order bar).isSome

/-- A command whose answer arrives. -/
def heard (_ : System) : Act → Bool
  | .command _ _ delivered => delivered
  | _ => false

theorem alone_of_heard {s : System} {a : Act} (h : heard s a = true) : Alone s a := by
  cases a with
  | command => exact h
  | _ => cases h

/-- An actor that placed an order and took it back has missed nothing, and skips an idle ledger. -/
theorem alone_after_cancel : ∃ s actor, Reaches System.step Alone (System.init risingMinutes) s ∧
    s.actors 0 = some actor ∧ canReuseIdleTradingProjection (actor.input nextMinute) = true ∧
    s.db.ledger.orders.length = 1 ∧ s.db.ledger.Idle ∧ actor.MissedNothing s.db.log := by
  have hopen : ∃ opened, step (init risingMinutes) (.openActor 0 "first" atFirst)
      = some opened ∧ ((exec step heard opened [.command 0 buyStop true,
        .command 0 (clientRequest "cancel" (.cancelOrder (some 1))) true]).map fun s =>
          firstSkips s && s.db.ledger.orders.length = 1) = some true := by
    refine ⟨_, rfl, ?_⟩
    decide +kernel
  obtain ⟨opened, hopened, hrun⟩ := hopen
  obtain ⟨s, hexec, htest⟩ := map_eq_some_iff.mp hrun
  rw [and_eq_true, decide_eq_true_iff] at htest
  obtain ⟨hskips, hlng⟩ := htest
  obtain ⟨actor, hactor, hidle⟩ := (Option.any_eq_true _ _).mp hskips
  have halo : Alone (init risingMinutes) (.openActor 0 "first" atFirst) :=
    ⟨fun _ => rfl, rfl⟩
  have hfs : Reaches step Alone (init risingMinutes) opened :=
    .step .refl halo hopened
  have hrch : Reaches step Alone (init risingMinutes) s :=
    hfs.trans (reaches_of_exec (fun _ _ h => alone_of_heard h) hexec)
  obtain ⟨hexact, halo⟩ := idle_skip_sound risingMinutes_prepared
  have hldg := halo s hrch 0 actor nextMinute hactor hidle
  refine ⟨s, actor, hrch, hactor, hidle, hlng, hldg, ?_⟩
  exact (hexact s (hrch.weaken fun _ _ _ => trivial) 0 actor nextMinute hactor hidle).mp hldg

/-- The second actor places an order. The first, which has not read it, skips the ledger, and the
order is left at work on a row that triggers it. -/
theorem second_actor_unseen : Prepared risingMinutes ∧ ∃ s s' actor,
    Reaches System.step always (System.init risingMinutes) s ∧ s.actors 0 = some actor ∧
    canReuseIdleTradingProjection (actor.input nextMinute) = true ∧ ¬ s.db.ledger.Idle ∧
    s.step (.command 0 nextMinute true) = some s' ∧ passedOver s'.db = true := by
  have hrun : ((exec step (fun _ _ => true) (init risingMinutes)
      [.openActor 0 "first" atFirst, .openActor 1 "second" atFirst, .command 1 buyStop true]).map
      fun s => firstSkips s && s.db.ledger.orders.any (·.status.active) &&
        (s.step (.command 0 nextMinute true)).any fun s' => passedOver s'.db) = some true := by
    decide +kernel
  obtain ⟨s, hrch, htest⟩ := reached_of_map hrun
  rw [and_eq_true, and_eq_true] at htest
  obtain ⟨⟨hskips, hworks⟩, hstepped⟩ := htest
  obtain ⟨actor, hactor, hidle⟩ := (Option.any_eq_true _ _).mp hskips
  obtain ⟨s', hstep, hpass⟩ := (Option.any_eq_true _ _).mp hstepped
  refine ⟨risingMinutes_prepared, s, s', actor, hrch, hactor, hidle, fun hldg => ?_, hstep, hpass⟩
  obtain ⟨order, hord, hactv⟩ := any_eq_true.mp hworks
  rw [hldg.1 order hord] at hactv
  cases hactv

end MarketLens.Replay
