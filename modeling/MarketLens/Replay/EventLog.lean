import MarketLens.Replay.Marks

/-!
# The event log of a session

A transition drafts events and says whether anything changed, each worked out in its
own place. The two agree: a transition that changed something drafts an event, and
one that did not leaves the session row alone. So the events of a session are
numbered without gap, and every version has its own.
-/

namespace MarketLens.Replay

open List Option Session Database Fallible Runs

/-! ## What a transition reports -/

/-- A transition that changes something drafts an event, and one that does not keeps the row. -/
structure Reports (session : Session) (moved : Moved) : Prop where
  drafted : moved.changed = true → moved.drafts ≠ []
  kept : moved.changed = false → moved.session = session

section Transition

variable {useLedger : Bool} {session : Session} {track : Track} {tracks : List Track}
  {ledger : Ledger} {command : Command} {now : Int} {attempt : Attempt} {changed : Bool}

/-- The closing part adds an event for every change but the track's candle and a trade. -/
theorem concluded_drafted {closed : Attempt} {remarshalled isClose : Bool}
    (hmarshalled : remarshalled = true → attempt.drafts ≠ [])
    (htrad : attempt.tradeChanged = true → attempt.drafts ≠ [])
    (h : concluded session track attempt remarshalled isClose = (closed, true)) :
    closed.drafts ≠ [] := by
  unfold concluded at h
  dsimp only at h
  split at h
  · cases h
    intro hnone
    rw [append_eq_nil_iff, append_eq_nil_iff] at hnone
    obtain ⟨⟨hdrfs, hcsr⟩, hst⟩ := hnone
    split at hcsr
    · cases hcsr
    split at hst
    · cases hst
    · grind
  · cases h

/-- What stays of the session row when nothing changed. -/
theorem concluded_row {closed : Attempt} {remarshalled isClose : Bool}
    (h : concluded session track attempt remarshalled isClose = (closed, false)) :
    attempt.session.status = session.status ∧ attempt.session.speed = session.speed ∧
      attempt.session.replayIntervalSeconds = session.replayIntervalSeconds ∧ isClose = false := by
  unfold concluded at h
  dsimp only at h
  split at h
  · cases h
  rename_i hunch
  simp only [Bool.or_eq_true, decide_eq_true_eq, not_or, not_not, Bool.not_eq_true] at hunch
  obtain ⟨⟨⟨⟨⟨⟨hstat, -⟩, hspd, hiv⟩, -⟩, -⟩, hclose⟩, -⟩ := hunch
  exact ⟨hstat.symm, hspd.symm, hiv.symm, hclose⟩

/-- A step that ends at the time it started from, in the status it started in, is none. -/
theorem arrived_same {target completion : Int} (hstat : (session.arrived target completion).status = session.status)
    (htime : (session.arrived target completion).simulatedTime = session.simulatedTime)
    (hrng : session.status ≠ .completed) : session.arrived target completion = session := by
  unfold arrived at *
  split at hstat
  · exact absurd hstat.symm hrng
  rename_i hbef
  rw [if_neg hbef] at htime
  have htgt : target = session.simulatedTime := htime
  rw [if_neg hbef, htgt]

theorem stepsNow_running (h : stepsNow session command = true) : session.status ≠ .completed := by
  unfold stepsNow at h
  intro hcompleted
  rw [hcompleted] at h
  cases command <;> cases h

theorem transport_row {after : Session} (h : transport session track now command = .ok after)
    (hstat : after.status = session.status) (hspd : after.speed = session.speed)
    (hiv : after.replayIntervalSeconds = session.replayIntervalSeconds)
    (hclose : command ≠ .close) : after = session := by
  have hpaused : ∀ {reason : String}, transport.pausedWith session reason = .ok after → after = session := by
    intro reason h
    unfold transport.pausedWith at h
    split at h
    · rename_i hplaying
      cases h
      rw [hplaying] at hstat
      cases hstat
    · cases h
      rfl
  cases command with
  | play =>
    rw [transport] at h
    split at h
    · cases h
    split at h
    · rename_i hpause
      cases h
      rw [hpause] at hstat
      cases hstat
    · cases h
      rfl
  | pause | pauseNoSubscribers | pauseServerRestart => exact hpaused h
  | setSpeed =>
    rw [transport, bind_ok] at h
    obtain ⟨given, -, h⟩ := h
    rw [unit_bind_ok] at h
    cases h.2
    have hgiven : given = session.speed := hspd
    rw [hgiven]
  | setReplayInterval =>
    rw [transport, bind_ok] at h
    obtain ⟨given, -, h⟩ := h
    obtain ⟨interval, -, h⟩ := bind_ok.mp h
    cases h
    have hgiven : interval = session.replayIntervalSeconds := hiv
    rw [hgiven]
  | close => exact absurd rfl hclose
  | _ => cases h

theorem TradeCases.drafted {drafts : List EventDraft} {after : Ledger}
    (h : TradeCases session track ledger drafts after) : drafts ≠ [] := by
  cases h with
  | place view payload _ places =>
    obtain ⟨order, id, placed, -, -, ⟨-, rfl, -⟩ | ⟨filled, -, -, rfl⟩⟩ := Ledger.place_ok places
    · exact cons_ne_nil _ _
    · exact cons_ne_nil _ _
  | cancel orderId cancels =>
    obtain ⟨id, rfl, -⟩ := Ledger.cancel_ok cancels
    exact cons_ne_nil _ _
  | close view payload _ closes =>
    obtain ⟨body, p, clientOrderId, id, placed, filled, -, -, -, -, -, -, rfl⟩ :=
      Ledger.closePosition_ok closes
    exact cons_ne_nil _ _
  | update payload updates =>
    obtain ⟨id, trackId, sl, tp, rfl, -⟩ := Ledger.updateBracket_ok updates
    exact cons_ne_nil _ _
  | reset => exact cons_ne_nil _ _

/-- **The transition of one track reports what it did.** -/
theorem transition_one_reports (h : applyRuntimeTransition useLedger session track ledger now command = .ok (attempt, changed)) :
    (changed = true → attempt.drafts ≠ []) ∧ (changed = false → attempt.session = session) := by
  cases applyRuntimeTransition_cases h with
  | waits _ _ same =>
    cases same
    exact ⟨nofun, fun _ => rfl⟩
  | steps _ made closed =>
    obtain ⟨count, batch, selected, target, revealed, hcnt, -, hrevl, rfl⟩ := stepOne_ok made
    constructor
    · rintro rfl
      refine concluded_drafted (fun hno => by cases hno) (fun htrad hnone => ?_) closed
      rw [append_eq_nil_iff] at hnone
      rw [hnone.2] at htrad
      cases htrad
    · rintro rfl
      obtain ⟨htime, -, -, -, -⟩ := concluded_unchanged closed
      rw [(concluded_ledger closed).1]
      exact arrived_same (concluded_row closed).1 htime (stepsNow_running (stepCount_some hcnt))
  | seeks _ made closed =>
    obtain ⟨target, resetTrading, resetDrafts, moved, -, -, -, -, -, -, hdrfs, -⟩ := seekOne_ok made
    have hsome : _ ≠ [] := hdrfs ▸ append_ne_nil_of_right_ne_nil _ (cons_ne_nil _ _)
    constructor
    · rintro rfl
      exact concluded_drafted (fun _ => hsome) (fun _ => hsome) closed
    · rintro rfl
      -- a seek marshals the candle
      obtain ⟨-, -, -, hmarshalled, -⟩ := concluded_unchanged closed
      cases hmarshalled
  | trades _ _ made closed =>
    obtain ⟨-, -, drafts, after, hop, rfl⟩ := tradeOne_ok made
    constructor
    · rintro rfl
      exact concluded_drafted (fun hno => by cases hno) (fun _ => (tradeLedger_cases hop).drafted) closed
    · rintro rfl
      obtain ⟨-, -, htrd, -, -⟩ := concluded_unchanged closed
      cases htrd
  | transports after isClose _ _ made closed =>
    constructor
    · rintro rfl
      exact concluded_drafted (fun hno => by cases hno) (fun hno => by cases hno) closed
    · rintro rfl
      obtain ⟨hstat, hspd, hiv, -⟩ := concluded_row closed
      rw [(concluded_ledger closed).1]
      refine transport_row made hstat hspd hiv ?_
      rintro rfl
      -- closing is always a change
      obtain ⟨-, -, -, hclose⟩ := concluded_row (Except.ok.inj h)
      cases hclose

variable {moved : Moved}

theorem onTrack_reports (h : onTrack useLedger session tracks ledger now command track = .ok moved) : Reports session moved := by
  obtain ⟨⟨attempt, changed⟩, hatt, h⟩ := bind_ok.mp h
  cases h
  obtain ⟨hdrafted, hkept⟩ := transition_one_reports hatt
  exact ⟨hdrafted, hkept⟩

/-- A step of several tracks tells of every cursor it moved, and of the clock if it moved none. -/
theorem applySynchronizedStep_reports (h : applySynchronizedStep useLedger session tracks ledger command = .ok moved) :
    Reports session moved := by
  obtain ⟨found, hfnd, h⟩ := bind_ok.mp h
  cases found with
  | none =>
    cases h
    exact ⟨nofun, fun _ => rfl⟩
  | some =>
    obtain ⟨⟨selected, target⟩, -, h⟩ := bind_ok.mp h
    obtain ⟨⟨revealed, after⟩, -, h⟩ := bind_ok.mp h
    cases h
    constructor
    · intro _ hnone
      rw [append_eq_nil_iff, append_eq_nil_iff, map_eq_nil_iff] at hnone
      obtain ⟨⟨-, hmvd⟩, hst⟩ := hnone
      rw [hmvd, isEmpty_nil, Bool.or_true, if_pos rfl] at hst
      cases hst
    · intro hunch
      simp only [Bool.or_eq_false_iff, decide_eq_false_iff_not, not_not] at hunch
      obtain ⟨⟨⟨hstat, htime⟩, -⟩, -⟩ := hunch
      refine arrived_same hstat.symm ?_ (stepsNow_running (stepCount_some hfnd))
      unfold arrived
      split <;> exact htime.symm

theorem applySynchronizedSeek_reports (h : applySynchronizedSeek useLedger session tracks ledger command = .ok moved) :
    Reports session moved := by
  obtain ⟨_, -, h⟩ := bind_ok.mp h
  obtain ⟨_, -, h⟩ := bind_ok.mp h
  obtain ⟨_, -, h⟩ := bind_ok.mp h
  cases h
  exact ⟨fun _ => append_ne_nil_of_right_ne_nil _ (cons_ne_nil _ _), nofun⟩

theorem applySynchronizedReplayInterval_reports {requested : Option String}
    (h : applySynchronizedReplayInterval session tracks ledger requested = .ok moved) :
    Reports session moved := by
  obtain ⟨_, -, h⟩ := bind_ok.mp h
  obtain ⟨interval, -, h⟩ := bind_ok.mp h
  split at h
  · cases h
    exact ⟨nofun, fun _ => rfl⟩
  · cases h
    exact ⟨fun _ => cons_ne_nil _ _, nofun⟩

/-- **Every transition reports what it did.** -/
theorem transition_reports (h : applyRuntimeTransitionTracks useLedger session tracks ledger now command = .ok moved) :
    Reports session moved := by
  obtain ⟨track, -, -, h⟩ | ⟨-, h⟩ | h | ⟨requested, rfl, hintv⟩ := transition_cases h
  · exact onTrack_reports h
  · exact applySynchronizedStep_reports h
  · exact applySynchronizedSeek_reports h
  · exact applySynchronizedReplayInterval_reports hintv

end Transition

/-! ## What a command logs -/

/-- The events are numbered from one, and the counter stands behind the last. -/
structure Database.Numbered (db : Database) : Prop where
  events : db.events.map (·.eventSeq) = List.range' 1 db.events.length
  next : db.session.nextEventSeq = db.events.length + 1

/-- Nothing has changed but the lease, the log of commands and the ids that inserts will draw. -/
structure Database.Same (db db' : Database) : Prop where
  session : ∃ lease, db'.session = { db.session with lease := lease }
  tracks : db'.tracks = db.tracks
  ledger : ∃ uuids, db'.ledger = { db.ledger with uuids := uuids }
  events : db'.events = db.events
  checkpoints : db'.checkpoints = db.checkpoints

structure Database.Logs (db : Database) (events : List EventRow) (db' : Database) : Prop where
  version : db'.session.version = db.session.version + 1
  some : events ≠ []
  appended : db'.events = db.events ++ events
  versions : ∀ event ∈ events, event.version = db'.session.version
  numbered : events.map (·.eventSeq) = List.range' (db.events.length + 1) events.length

variable {db db' : Database} {input : CommandInput} {result : CommandResult}
  {events : List EventRow}

/-- The rows of a command are numbered up to the counter. -/
theorem eventRows_seqs (session : Session) (drafts : List EventDraft) :
    (eventRows session drafts).map (·.eventSeq) =
      List.range' (session.nextEventSeq - drafts.length) drafts.length := by
  unfold eventRows
  refine ext_getElem (by simp) fun i hi hi' => ?_
  simp

theorem Database.Numbered.taken (h : db.Numbered) {seq : Nat} (hpos : seq ≠ 0)
    (hle : seq < db.session.nextEventSeq) : ∃ event ∈ db.events, event.eventSeq = seq := by
  have hmem : seq ∈ db.events.map (·.eventSeq) := by
    rw [h.events, mem_range'_1]
    rw [h.next] at hle
    omega
  exact mem_map.mp hmem

theorem unchanged_logs_none (h : db.Numbered) {session : Session} {drafts : List EventDraft}
    (hnext : session.nextEventSeq = db.session.nextEventSeq)
    (hfree : ((eventRows session drafts).any fun event =>
      event.eventSeq = 0 || db.events.any fun old => old.eventSeq = event.eventSeq) = false) :
    drafts = [] := by
  by_contra hsome
  have hlng : 0 < drafts.length := length_pos_iff.mpr hsome
  have hfs : session.nextEventSeq - drafts.length ∈ (eventRows session drafts).map (·.eventSeq) := by
    rw [eventRows_seqs, mem_range'_1]
    omega
  obtain ⟨event, hevt, hseq⟩ := mem_map.mp hfs
  have hclash := any_eq_false.mp hfree event hevt
  rw [Bool.or_eq_true, decide_eq_true_iff, List.any_eq_true, not_or] at hclash
  obtain ⟨old, hold, hsame⟩ := h.taken hclash.1 (by
    omega)
  exact hclash.2 ⟨old, hold, decide_eq_true hsame⟩

theorem releaseIdleLease_row (session : Session) (leased : Bool) :
    ∃ lease, (releaseIdleLease session leased).1 = { session with lease := lease } := by
  unfold releaseIdleLease
  split
  · exact ⟨none, rfl⟩
  · exact ⟨session.lease, rfl⟩

/-- The row that a command without changes leaves, whether it is written or not: only a lease can
be new. -/
theorem unchanged_row {claimed : Session} {leased : Bool} (hclaim : claimRuntimeActor db.session input = .ok (claimed, leased)) :
    ∃ lease, (if (releaseIdleLease claimed leased).2 then (releaseIdleLease claimed leased).1
      else db.session) = { db.session with lease := lease } := by
  obtain ⟨lease, hclmd⟩ := claimRuntimeActor_ok hclaim
  split
  · obtain ⟨released, hreld⟩ := releaseIdleLease_row claimed leased
    refine ⟨released, ?_⟩
    rw [hreld, hclmd]
  · exact ⟨db.session.lease, rfl⟩

/-- What a command writes, by the row it leaves once its lease is let go of. -/
structure Writes (db : Database) (input : CommandInput) (result : CommandResult)
    (events : List EventRow) (db' : Database) (moved : Moved) (released : Session × Bool) :
    Prop where
  session : db'.session = if moved.changed || released.2 then
    advanced released.1 moved.drafts moved.changed else db.session
  tracks : db'.tracks = if moved.changed then moved.tracks else db.tracks
  appended : db'.events = db.events ++ events
  events : events = eventRows (advanced released.1 moved.drafts moved.changed) moved.drafts
  free : ((eventRows (advanced released.1 moved.drafts moved.changed) moved.drafts).any fun event =>
    event.eventSeq = 0 || db.events.any fun old => old.eventSeq = event.eventSeq) = false
  quiet : moved.drafts = [] → db'.ledger = moved.ledger
  checkpoints : moved.changed = false → db'.checkpoints = db.checkpoints
  commands : ∃ row, db'.commands = db.commands ++ [row] ∧ row.idempotencyKey = input.idempotencyKey
  duplicate : result.duplicate = false
  lastEventSeq : result.snapshot.lastEventSeq =
    (advanced released.1 moved.drafts moved.changed).nextEventSeq - 1
  version : result.snapshot.version = (advanced released.1 moved.drafts moved.changed).version

theorem runCommand_writes (h : runCommand db input = .ok (result, events, db')) :
    ∃ claimed leased moved, claimRuntimeActor db.session input = .ok (claimed, leased) ∧
      applyRuntimeTransitionTracks (!canReuseIdleTradingProjection input) claimed db.tracks
        { db.ledger with uuids := db.ledger.drawn } input.now input.command = .ok moved ∧
      Writes db input result events db' moved (releaseIdleLease moved.session leased) := by
  unfold runCommand at h
  obtain ⟨⟨claimed, leased⟩, hclaim, h⟩ := bind_ok.mp h
  rw [unit_bind_ok, refuseIf_ok, bind_ok] at h
  obtain ⟨-, moved, hmvd, h⟩ := h
  rw [unit_bind_ok, refuseIf_ok, unit_bind_ok, refuseIf_ok] at h
  obtain ⟨hfree, -, h⟩ := h
  cases h
  refine ⟨claimed, leased, moved, hclaim, hmvd, rfl, rfl, rfl, rfl, hfree, fun hnone => ?_,
    fun hsame => ?_, ⟨_, rfl, rfl⟩, rfl, rfl, rfl⟩
  · rw [hnone]
    rfl
  · dsimp only
    rw [hsame, if_neg Bool.false_ne_true]

/-- **What a command that runs does to the log.** -/
theorem runCommand_logs (hids : (db.tracks.map (·.id)).Nodup) (hnumd : db.Numbered)
    (h : runCommand db input = .ok (result, events, db')) :
    db'.Numbered ∧ result.duplicate = false ∧ result.snapshot.lastEventSeq = db'.events.length ∧
      result.snapshot.version = db'.session.version ∧
      ((events = [] ∧ db.Same db') ∨ db.Logs events db') := by
  obtain ⟨claimed, leased, moved, hclaim, hmvd, writes⟩ := runCommand_writes h
  obtain ⟨lease, hclmd⟩ := claimRuntimeActor_ok hclaim
  have hreports := transition_reports hmvd
  have hfixed := (transition_moves hids hmvd).fixed
  have hrow : moved.changed = false → ∃ lease, (if (releaseIdleLease moved.session leased).2 then
      (releaseIdleLease moved.session leased).1 else db.session) = { db.session with lease := lease } := by
    intro hsame
    rw [hreports.kept hsame]
    exact unchanged_row hclaim
  obtain ⟨released, hreld⟩ := releaseIdleLease_row moved.session leased
  rw [hclmd] at hfixed
  simp only [fixed, Prod.mk.injEq] at hfixed
  obtain ⟨-, hver, hnext, -⟩ := hfixed
  -- from here on the row that may be written, and whether it is for its lease
  generalize releaseIdleLease moved.session leased = written at writes hrow hreld
  obtain ⟨row, leaseChanged⟩ := written
  dsimp only at hrow hreld
  have hrowVersion : row.version = db.session.version := by
    rw [hreld]
    exact hver
  have hrowNext : row.nextEventSeq = db.session.nextEventSeq := by
    rw [hreld]
    exact hnext
  obtain ⟨hsess, htrks, happe, hevs, hfree, hquiet, hcheckpoints, -, hduplicate, hlast, hshn⟩ := writes
  cases hchgd : moved.changed with
  | true =>
    rw [hchgd, Bool.true_or, if_pos rfl] at hsess
    rw [hchgd] at hevs hlast hshn
    rw [← hsess] at hevs hlast hshn
    have hver' : db'.session.version = db.session.version + 1 := by
      rw [hsess, advanced, if_pos rfl, hrowVersion]
    have hnext' : db'.session.nextEventSeq = db.events.length + 1 + moved.drafts.length := by
      rw [hsess, advanced, if_pos rfl, hrowNext, hnumd.next]
    have hlng : events.length = moved.drafts.length := by
      rw [hevs, ← length_map (·.draft), eventRows_draft]
    have hseqs : events.map (·.eventSeq) = range' (db.events.length + 1) events.length := by
      rw [hlng, hevs, eventRows_seqs, hnext', Nat.add_sub_cancel]
    refine ⟨⟨?_, ?_⟩, hduplicate, ?_, hshn, .inr ⟨hver', ?_, happe, ?_, hseqs⟩⟩
    · rw [happe, map_append, hnumd.events, hseqs, length_append, Nat.add_comm _ 1, range'_append_1]
    · rw [hnext', happe, length_append, hlng]
      omega
    · rw [hlast, hnext', happe, length_append, hlng]
      omega
    · rintro rfl
      exact hreports.drafted hchgd (length_eq_zero_iff.mp hlng.symm)
    · intro event hevt
      rw [hevs] at hevt
      exact eventRows_version hevt
  | false =>
    have hadvanced : advanced row moved.drafts false = row := by
      rw [advanced, if_neg Bool.false_ne_true]
    rw [hchgd, hadvanced] at hsess hevs hfree hlast hshn
    rw [hchgd, if_neg Bool.false_ne_true] at htrks
    have hdrfs : moved.drafts = [] := unchanged_logs_none hnumd hrowNext hfree
    have hnone : events = [] := by
      rw [hevs, hdrfs]
      rfl
    obtain ⟨kept, hkept⟩ := hrow hchgd
    obtain ⟨-, hldg, -⟩ := transition_unchanged hchgd hmvd
    rw [hnone, append_nil] at happe
    have hsame : db'.session = { db.session with lease := kept } := hsess.trans hkept
    refine ⟨⟨?_, ?_⟩, hduplicate, ?_, ?_, .inl ⟨hnone, ⟨kept, hsame⟩, htrks,
      ⟨_, (hquiet hdrfs).trans hldg⟩, happe, hcheckpoints hchgd⟩⟩
    · rw [happe]
      exact hnumd.events
    · rw [happe, hsame]
      exact hnumd.next
    · rw [hlast, hrowNext, hnumd.next, happe, Nat.add_sub_cancel]
    · rw [hshn, hrowVersion, hsame]

/-! ## Runs -/

/-- The last number given to an event, zero while there is none. -/
def Database.lastEventSeq (db : Database) : Nat := ((db.events.getLast?).map (·.eventSeq)).getD 0

theorem Database.Numbered.lastEventSeq (h : db.Numbered) : db.lastEventSeq = db.events.length := by
  have hseqs := congrArg getLast? h.events
  rw [getLast?_map, getLast?_range'] at hseqs
  unfold Database.lastEventSeq
  rw [hseqs]
  split
  · rename_i hnone
    rw [hnone]
    rfl
  · rw [getD_some]
    omega

/-- A key is in the log of commands once a command with it is no longer running. -/
def Database.Knows (key : String) (db : Database) : Prop :=
  ∃ row ∈ db.commands, row.idempotencyKey = key

theorem Database.Knows.answered (h : db.Knows input.idempotencyKey) : (applyCommand db input).2 = db := by
  obtain ⟨row, hrow, hkey⟩ := h
  unfold applyCommand
  split
  · rfl
  · rename_i hnone
    exact absurd (decide_eq_true hkey) (find?_eq_none.mp hnone row hrow)

/-- The log of commands only grows. -/
theorem command_commands (db : Database) (input : CommandInput) :
    ∃ rows, (applyCommand db input).2.commands = db.commands ++ rows := by
  unfold applyCommand
  split
  · exact ⟨[], (append_nil _).symm⟩
  · split
    · exact ⟨_, rfl⟩
    · split
      · exact ⟨_, rfl⟩
      · split
        · rename_i committed hrun
          obtain ⟨_, _, _, -, -, writes⟩ := runCommand_writes hrun
          obtain ⟨row, hrows, -⟩ := writes.commands
          exact ⟨[row], hrows⟩
        · exact ⟨[], (append_nil _).symm⟩

theorem reaches_knows {key : String} {later : Database} (h : db.Knows key)
    (hrch : Reaches Database.command always db later) : later.Knows key := by
  refine hrch.invariant (Database.Knows key) h fun found input after hknows _ hstep => ?_
  cases hstep
  obtain ⟨row, hrow, hkey⟩ := hknows
  obtain ⟨rows, hrows⟩ := command_commands found input
  refine ⟨row, ?_, hkey⟩
  rw [hrows]
  exact mem_append_left _ hrow

/-- What a command does to the log: nothing, if its answer is no new result, and else what running
it does. -/
inductive Logged (db : Database) (input : CommandInput) : Response → Database → Prop where
  | unmoved {response : Response} {db' : Database} (notApplied : response.applied = false)
      (same : db.Same db') (session : db'.session = db.session) : Logged db input response db'
  | ran {result : CommandResult} {events : List EventRow} {db' : Database}
      (ran : runCommand db input = .ok (result, events, db')) (knows : db'.Knows input.idempotencyKey) :
      Logged db input (.ok (result, events)) db'

theorem Database.Same.refl (db : Database) : db.Same db :=
  ⟨⟨db.session.lease, rfl⟩, rfl, ⟨db.ledger.uuids, rfl⟩, rfl, rfl⟩

theorem rejected_same (db : Database) (input : CommandInput) (outcome : CommandOutcome) : db.Same (db.rejected input outcome) :=
  ⟨⟨db.session.lease, rfl⟩, rfl, ⟨db.ledger.drawn, rfl⟩, rfl, rfl⟩

theorem applyCommand_logged (db : Database) (input : CommandInput) :
    Logged db input (applyCommand db input).1 (applyCommand db input).2 := by
  unfold applyCommand
  split
  · rename_i row _
    refine .unmoved ?_ (.refl db) rfl
    cases row.outcome <;> rfl
  · split
    · exact .unmoved rfl (rejected_same db input _) rfl
    · split
      · exact .unmoved rfl (rejected_same db input _) rfl
      · split
        · rename_i hrun
          obtain ⟨_, _, _, -, -, writes⟩ := runCommand_writes hrun
          obtain ⟨row, hrows, hkey⟩ := writes.commands
          refine .ran hrun ⟨row, ?_, hkey⟩
          rw [hrows]
          exact mem_append_right _ (mem_singleton.mpr rfl)
        · exact .unmoved rfl (.refl db) rfl

theorem Database.Same.numbered (h : db.Same db') (hnumd : db.Numbered) : db'.Numbered := by
  obtain ⟨⟨lease, hsess⟩, -, -, hevs, -⟩ := h
  constructor
  · rw [hevs]
    exact hnumd.events
  · rw [hevs, hsess]
    exact hnumd.next

theorem Logged.numbered {response : Response} (h : Logged db input response db')
    (hids : (db.tracks.map (·.id)).Nodup) (hnumd : db.Numbered) : db'.Numbered := by
  cases h with
  | unmoved _ same => exact same.numbered hnumd
  | ran ran => exact (runCommand_logs hids hnumd ran).1

/-- The events of every session are numbered. -/
theorem reaches_numbered {start : Database} (hprep : Prepared start)
    (h : Reaches Database.command always start db) : db.Numbered := by
  have hstart : start.Numbered := by
    constructor
    · rw [hprep.unlogged.2.1]
      rfl
    · rw [hprep.numbered.2, hprep.unlogged.2.1]
      rfl
  refine h.invariant_along Database.Numbered hstart fun found input after hrun hnumd _ hstep => ?_
  cases hstep
  exact (applyCommand_logged found input).numbered (reaches_distinct hprep hrun) hnumd

/-- **The log of a session.** Its events are numbered without gap. A command that changes anything but
the lease of its actor is a new version with events of its own, and from then on its key is answered
without a change. An applied command answers with the version and the last event it leaves, and
the answers that are errors or duplicates log nothing. -/
theorem event_log {start : Database} (hprepared : Prepared start)
    (h : Reaches Database.command always start db) (input : CommandInput) :
    db.events.map (·.eventSeq) = List.range' 1 db.events.length ∧
    (¬ db.Same (applyCommand db input).2 → (∃ result events, (applyCommand db input).1 = .ok (result, events) ∧
        db.Logs events (applyCommand db input).2) ∧
      ∀ later, Reaches Database.command always (applyCommand db input).2 later →
        ∀ again : CommandInput, again.idempotencyKey = input.idempotencyKey → (applyCommand later again).2 = later) ∧
    (∀ result events, (applyCommand db input).1 = .ok (result, events) → result.duplicate = false →
      (applyCommand db input).2.events = db.events ++ events ∧
      result.snapshot.lastEventSeq = (applyCommand db input).2.lastEventSeq ∧
      result.snapshot.version = (applyCommand db input).2.session.version) ∧
    ((applyCommand db input).1.applied = false →
      db.Same (applyCommand db input).2 ∧ (applyCommand db input).2.session = db.session) := by
  have hids := reaches_distinct hprepared h
  have hnumd := reaches_numbered hprepared h
  have hlogg := applyCommand_logged db input
  refine ⟨hnumd.events, ?_⟩
  obtain ⟨response, db', hans⟩ : ∃ response db', applyCommand db input = (response, db') :=
    ⟨_, _, rfl⟩
  rw [hans] at hlogg ⊢
  have hlast := (hlogg.numbered hids hnumd).lastEventSeq
  cases hlogg with
  | unmoved notApplied same session =>
    refine ⟨fun hchgd => absurd same hchgd, fun result events hresp hfsh => ?_, fun _ => ⟨same, session⟩⟩
    rw [hresp, Response.applied, hfsh] at notApplied
    cases notApplied
  | @ran result events _ ran knows =>
    obtain ⟨-, hfsh, hseq, hver, hlogs⟩ := runCommand_logs hids hnumd ran
    refine ⟨fun hchgd => ⟨⟨result, events, rfl, ?_⟩, fun later hlat again hkey => ?_⟩,
      fun result' events' hresp _ => ?_, fun hnot => ?_⟩
    · exact hlogs.resolve_left fun hsame => hchgd hsame.2
    · rw [← hkey] at knows
      exact (reaches_knows knows hlat).answered
    · cases hresp
      refine ⟨?_, hseq.trans hlast.symm, hver⟩
      rcases hlogs with ⟨rfl, hsame⟩ | hlogs
      · rw [hsame.events, append_nil]
      · exact hlogs.appended
    · rw [Response.applied, hfsh] at hnot
      cases hnot

/-! ## Leases and retries -/

/-- A command of an actor that holds the lease up to a second. -/
def leasedCommand (key : String) (command : Command) (until_ : Int) : CommandInput :=
  ⟨key, none, command, "actor", until_ * second, none, 0⟩

/-- Playing twice and pausing, the log is numbered, and the pause is a version of its own. -/
theorem paused_log : ∃ db, Reaches Database.command always risingMinutes db ∧
    db.events.map (·.eventSeq) = List.range' 1 db.events.length ∧ db.events.length = 2 := by
  have hrun :
      ((exec command (fun _ _ => true) risingMinutes [leasedCommand "play" .play 10, leasedCommand "again" .play 20,
        leasedCommand "pause" .pause 20]).map fun db => db.events.length) = some 2 := by
    decide +kernel
  obtain ⟨db, hrch, hlng⟩ := reached_of_map hrun
  exact ⟨db, hrch, (event_log risingMinutes_prepared hrch (leasedCommand "pause" .pause 20)).1, hlng⟩

/-- A command that writes a lease, and neither a version nor an event. -/
def renewsLease (db : Database) (input : CommandInput) : Bool :=
  (applyCommand db input).2.session.lease ≠ db.session.lease &&
    (applyCommand db input).2.session.version = db.session.version &&
    (applyCommand db input).2.events.length = db.events.length

/-- A command that is answered with an event before the last one. -/
def answersOlder (db : Database) (input : CommandInput) : Bool :=
  (applyCommand db input).1.toOption.any fun answer =>
    answer.1.snapshot.lastEventSeq < (applyCommand db input).2.lastEventSeq

/-- An actor that plays a session it plays already writes its lease, and a retry is answered with
the last event of its first answer. So not every change is a version, and not every answer is up to
the last event. -/
theorem lease_renewed_unlogged :
    (¬ ∀ start db input, Prepared start → Reaches Database.command always start db →
      (applyCommand db input).2.session ≠ db.session →
      (applyCommand db input).2.session.version = db.session.version + 1) ∧
    ¬ ∀ start db input result events, Prepared start → Reaches Database.command always start db →
      (applyCommand db input).1 = .ok (result, events) →
      result.snapshot.lastEventSeq = (applyCommand db input).2.lastEventSeq := by
  have hrenews :
      ((exec command (fun _ _ => true) risingMinutes [leasedCommand "play" .play 10]).map fun db =>
        renewsLease db (leasedCommand "again" .play 20)) = some true := by decide +kernel
  have hretries : ((exec command (fun _ _ => true) risingMinutes
      [leasedCommand "play" .play 10, leasedCommand "pause" .pause 10]).map fun db =>
        answersOlder db (leasedCommand "play" .play 10)) = some true := by decide +kernel
  constructor
  · intro h
    obtain ⟨db, hexec, hrenewed⟩ := map_eq_some_iff.mp hrenews
    simp only [renewsLease, Bool.and_eq_true, decide_eq_true_eq] at hrenewed
    have hrch := reaches_exec hexec
    have hver := h _ _ (leasedCommand "again" .play 20) risingMinutes_prepared hrch
      fun hsame => hrenewed.1.1 (congrArg lease hsame)
    rw [hrenewed.1.2] at hver
    omega
  · intro h
    obtain ⟨db, hexec, hretried⟩ := map_eq_some_iff.mp hretries
    obtain ⟨⟨result, events⟩, hans, holder⟩ := (any_eq_true _ _).mp hretried
    have hrch := reaches_exec hexec
    have hlast := h _ _ _ _ _ risingMinutes_prepared hrch (Fallible.toOption_some hans)
    rw [decide_eq_true_iff, hlast] at holder
    exact absurd holder (lt_irrefl _)

end MarketLens.Replay
