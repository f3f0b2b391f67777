import MarketLens.Lib.Run
import MarketLens.Replay.Moves

/-!
# What a command commits

`applyCommand` either leaves a session as it was, but for its log of commands, or
commits what one transition did. `Committed` is that second case, read off
`runCommand` once.
-/

namespace MarketLens.Replay

open List Fallible

/-- Everything later proofs need about a command that was applied: its transition, and what became
of the clock, the version, the ledger, the events and the projection. -/
structure Committed (db : Database) (input : CommandInput) (result : CommandResult)
    (db' : Database) (claimed : Session) (moved : Moved) : Prop where
  claim : ∃ lease, claimed = { db.session with lease := lease }
  moves : Moves (!canReuseIdleTradingProjection input) claimed db.tracks
    { db.ledger with uuids := db.ledger.drawn } input.command moved
  unchanged : moved.changed = false → moved.session.simulatedTime = db.session.simulatedTime ∧
    moved.ledger = { db.ledger with uuids := db.ledger.drawn } ∧ tradeDrafts moved.drafts = []
  time : db'.session.simulatedTime = moved.session.simulatedTime
  version : db'.session.version =
    if moved.changed then db.session.version + 1 else db.session.version
  startTime : db'.session.startTime = db.session.startTime
  endTime : db'.session.endTime = db.session.endTime
  tracks : db'.tracks = if moved.changed then moved.tracks else db.tracks
  ledger : ∃ seq at_, db'.ledger =
    if tradeChangedInDrafts moved.drafts then moved.ledger.recordEquity seq at_ else moved.ledger
  events : ∃ events, db'.events = db.events ++ events ∧
    events.map (·.draft) = moved.drafts ∧ ∀ event ∈ events, event.version = db'.session.version
  duplicate : result.duplicate = false
  snapshotVersion : result.snapshot.version = db'.session.version
  trading : result.snapshot.trading =
    if input.runtimeTrading.isNone || tradeChangedInDrafts moved.drafts then
      loadTradingSnapshot db'.ledger
    else input.runtimeTrading

variable {input : CommandInput}

/-- A claim writes the lease and nothing else. -/
theorem claimRuntimeActor_ok {session claimed : Session} {leased : Bool}
    (h : claimRuntimeActor session input = .ok (claimed, leased)) :
    ∃ lease, claimed = { session with lease := lease } := by
  unfold claimRuntimeActor at h
  dsimp only at h
  split at h
  · cases h
    exact ⟨session.lease, rfl⟩
  · split at h
    · split at h
      · cases h
        exact ⟨session.lease, rfl⟩
      · cases h
    · split at h
      · cases h
      · cases h
        exact ⟨_, rfl⟩

/-- Releasing the lease and counting the command leave the clock of a session row. -/
theorem advanced_spec (session : Session) (leased changed : Bool) (drafts : List EventDraft) :
    (advanced (releaseIdleLease session leased).1 drafts changed).simulatedTime = session.simulatedTime ∧
      (advanced (releaseIdleLease session leased).1 drafts changed).startTime = session.startTime ∧
      (advanced (releaseIdleLease session leased).1 drafts changed).endTime = session.endTime ∧
      (advanced (releaseIdleLease session leased).1 drafts changed).version
        = if changed then session.version + 1 else session.version := by
  have hreld : ∃ lease, (releaseIdleLease session leased).1 = { session with lease := lease } := by
    unfold releaseIdleLease
    split
    · exact ⟨none, rfl⟩
    · exact ⟨session.lease, rfl⟩
  obtain ⟨lease, hls⟩ := hreld
  rw [hls]
  cases changed <;> exact ⟨rfl, rfl, rfl, rfl⟩

theorem eventRows_draft (session : Session) (drafts : List EventDraft) : (eventRows session drafts).map (·.draft) = drafts := by
  unfold eventRows
  rw [map_map]
  have hfst : ((fun event : EventRow => event.draft) ∘ fun pair : EventDraft × Nat =>
      (⟨session.nextEventSeq - drafts.length + pair.2, session.version, session.simulatedTime,
        pair.1⟩ : EventRow)) = Prod.fst := rfl
  rw [hfst, zipIdx_map_fst]

theorem eventRows_version {session : Session} {drafts : List EventDraft} {event : EventRow}
    (h : event ∈ eventRows session drafts) : event.version = session.version := by
  obtain ⟨pair, -, rfl⟩ := mem_map.mp h
  rfl

theorem recordEquity_load (ledger : Ledger) (seq : Nat) (at_ : Int) :
    loadTradingSnapshot (ledger.recordEquity seq at_) = loadTradingSnapshot ledger := by
  unfold Ledger.recordEquity
  split <;> rfl

theorem Moves.fixed {useLedger : Bool} {session : Session} {tracks : List Track} {ledger : Ledger}
    {command : Command} {moved : Moved} (h : Moves useLedger session tracks ledger command moved) :
    moved.session.fixed = session.fixed := by
  cases h with
  | kept _ _ _ _ _ fixed | sought _ _ _ _ _ _ _ _ fixed => exact fixed
  | stepped _ _ _ _ _ _ _ _ _ arrives =>
    rw [arrives]
    unfold Session.arrived
    split <;> rfl
  | traded _ _ _ _ _ _ _ _ sameSession => rw [sameSession]

/-- **What an applied command commits.** -/
theorem runCommand_ok {db db' : Database} {result : CommandResult} {events : List EventRow} (hids : (db.tracks.map (·.id)).Nodup)
    (h : runCommand db input = .ok (result, events, db')) :
    ∃ claimed moved, Committed db input result db' claimed moved := by
  unfold runCommand at h
  obtain ⟨⟨claimed, leased⟩, hclaim, h⟩ := bind_ok.mp h
  rw [unit_bind_ok, refuseIf_ok, bind_ok] at h
  obtain ⟨-, moved, hmvd, h⟩ := h
  rw [unit_bind_ok, refuseIf_ok, unit_bind_ok, refuseIf_ok] at h
  obtain ⟨-, -, h⟩ := h
  obtain ⟨lease, hclmd⟩ := claimRuntimeActor_ok hclaim
  obtain ⟨rtime, rstart, rend, rversion⟩ := advanced_spec moved.session leased moved.changed moved.drafts
  have hmoves := transition_moves hids hmvd
  have hfixed := hmoves.fixed
  rw [hclmd] at hfixed
  simp only [Session.fixed, Prod.mk.injEq] at hfixed
  obtain ⟨-, hver, -, hstart, hend, -⟩ := hfixed
  have hunch :
      moved.changed = false → moved.session.simulatedTime = db.session.simulatedTime ∧
        moved.ledger = { db.ledger with uuids := db.ledger.drawn } ∧
        tradeDrafts moved.drafts = [] := by
    intro hch
    obtain ⟨htime, hldg, hdrfs⟩ := transition_unchanged hch hmvd
    rw [hclmd] at htime
    exact ⟨htime, hldg, hdrfs⟩
  have hchgd : ∀ {leaseChanged : Bool}, ¬(moved.changed || leaseChanged) = true → moved.changed = false := by
    intro leaseChanged hsame
    cases hch : moved.changed with
    | false => rfl
    | true => exact absurd (by rw [hch]; rfl) hsame
  -- an unwritten session row has the version of the written one
  have hrow :
      ∀ leaseChanged : Bool, (advanced (releaseIdleLease moved.session leased).1 moved.drafts moved.changed).version =
        (if moved.changed || leaseChanged then
          advanced (releaseIdleLease moved.session leased).1 moved.drafts moved.changed
        else db.session).version := by
    intro leaseChanged
    split
    · rfl
    · rename_i hsame
      rw [rversion, hchgd hsame, if_neg Bool.false_ne_true, hver]
  cases h
  refine ⟨claimed, moved, ⟨lease, hclmd⟩, hmoves, hunch, ?_, ?_, ?_, ?_, rfl, ?_, ?_, rfl, ?_, rfl⟩
  · split
    · exact rtime
    · rename_i hsame
      exact (hunch (hchgd hsame)).1.symm
  · dsimp only
    split
    · exact rversion.trans (by rw [hver])
    · rename_i hsame
      rw [hchgd hsame, if_neg Bool.false_ne_true]
  · split
    · exact rstart.trans hstart
    · rfl
  · split
    · exact rend.trans hend
    · rfl
  · dsimp only
    split
    · rename_i last _
      exact ⟨last.eventSeq, _, rfl⟩
    · rename_i hnone
      -- no event, so no draft, so nothing traded
      have hdrfs : moved.drafts = [] := by
        rw [← eventRows_draft (advanced (releaseIdleLease moved.session leased).1 moved.drafts
          moved.changed) moved.drafts, List.getLast?_eq_none_iff.mp hnone, List.map_nil]
      refine ⟨0, 0, ?_⟩
      rw [hdrfs]
      rfl
  · refine ⟨_, rfl, eventRows_draft _ _, fun event hevt => ?_⟩
    exact (eventRows_version hevt).trans (hrow _)
  · exact hrow _

/-- **What holds of the rows found and of the rows moved holds of the rows stored**, if it does not
look at the equity curve. -/
theorem Committed.stored {db db' : Database} {result : CommandResult}
    {claimed : Session} {moved : Moved} (P : Int → List Track → Ledger → Prop)
    (h : Committed db input result db' claimed moved)
    (hfnd : P db.session.simulatedTime db.tracks { db.ledger with uuids := db.ledger.drawn })
    (hmvd : P moved.session.simulatedTime moved.tracks moved.ledger)
    (hpoint : ∀ time tracks ledger seq at_, P time tracks ledger → P time tracks (ledger.recordEquity seq at_)) :
    P db'.session.simulatedTime db'.tracks db'.ledger := by
  obtain ⟨seq, at_, hldg⟩ := h.ledger
  have htrks := h.tracks
  rw [h.time]
  cases hchgd : moved.changed with
  | true =>
    rw [hchgd, if_pos rfl] at htrks
    rw [htrks, hldg]
    split
    · exact hpoint _ _ _ seq at_ hmvd
    · exact hmvd
  | false =>
    -- rows that do not change are not written, and the ledger is the one found
    obtain ⟨htime, hsame, hquiet⟩ := h.unchanged hchgd
    rw [hchgd, if_neg Bool.false_ne_true] at htrks
    rw [tradeChangedInDrafts_eq_false.mpr hquiet, if_neg Bool.false_ne_true, hsame] at hldg
    rw [htrks, hldg, htime]
    exact hfnd

/-! ## The whole command -/

/-- A command that is refused, recorded as rejected or answered from the log moves nothing. -/
structure Unmoved (db db' : Database) : Prop where
  session : db'.session = db.session
  tracks : db'.tracks = db.tracks
  ledger : ∃ uuids, db'.ledger = { db.ledger with uuids := uuids }
  events : db'.events = db.events

theorem Unmoved.refl (db : Database) : Unmoved db db := ⟨rfl, rfl, ⟨db.ledger.uuids, rfl⟩, rfl⟩

theorem rejected_unmoved (db : Database) (input : CommandInput) (outcome : CommandOutcome) :
    Unmoved db (db.rejected input outcome) := ⟨rfl, rfl, ⟨db.ledger.drawn, rfl⟩, rfl⟩

/-- The answer is a result of this command, not one of the log. -/
def Response.applied : Response → Bool
  | .ok (result, _) => !result.duplicate
  | .error _ => false

/-- A command that is not answered from the log and not refused has been run. -/
inductive Commanded (db : Database) (input : CommandInput) : Response → Database → Prop where
  | unmoved {response : Response} {db' : Database} (notApplied : response.applied = false)
      (same : Unmoved db db') : Commanded db input response db'
  | committed {result : CommandResult} {events : List EventRow} {db' : Database} {claimed : Session}
      {moved : Moved} (fresh : ∀ row ∈ db.commands, row.idempotencyKey ≠ input.idempotencyKey)
      (ran : runCommand db input = .ok (result, events, db'))
      (commits : Committed db input result db' claimed moved) :
      Commanded db input (.ok (result, events)) db'

/-- **Everything a command can do to what is stored.** -/
theorem applyCommand_cases {db : Database} (hids : (db.tracks.map (·.id)).Nodup) (input : CommandInput) :
    Commanded db input (applyCommand db input).1 (applyCommand db input).2 := by
  unfold applyCommand
  split
  · rename_i row hrow
    refine .unmoved ?_ (.refl db)
    cases hout : row.outcome <;> rfl
  · rename_i hfsh
    have hfsh : ∀ row ∈ db.commands, row.idempotencyKey ≠ input.idempotencyKey := by
      intro row hrow hkey
      exact (List.find?_eq_none.mp hfsh) row hrow (decide_eq_true hkey)
    split
    · exact .unmoved rfl (rejected_unmoved db input _)
    · split
      · exact .unmoved rfl (rejected_unmoved db input _)
      · split
        · rename_i result events committed hrun
          obtain ⟨claimed, moved, hcommits⟩ := runCommand_ok hids hrun
          exact .committed hfsh hrun hcommits
        · exact .unmoved rfl (.refl db)

end MarketLens.Replay
