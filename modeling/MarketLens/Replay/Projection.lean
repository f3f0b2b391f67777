import MarketLens.Replay.IdlePath
import MarketLens.Replay.QuietRows

/-!
# The projection a command answers with

A command that drafts no trade event answers with the projection its actor held. A
mark is a write that drafts no event. So the answer is right as long as a step that
trades nothing finds every mark already standing, and as long as the actor hears of
every command that changes the projection.
-/

namespace MarketLens.Replay

open Journal List Option Replay.System Fallible Runs Ledger

/-! ## Trade events -/

def EventDraft.byRow : EventDraft → Bool
  | .bracketOrderCreated .. | .orderFilled .. | .fillCreated .. | .positionUpdated ..
  | .accountUpdated .. => true
  | _ => false

theorem EventDraft.isTrade_of_byRow {draft : EventDraft} (h : draft.byRow = true) : draft.isTrade = true := by
  cases draft <;> first | rfl | cases h

section Loud

variable {ledger after : Ledger} {drafts : List EventDraft}

theorem fillOrder_byRow {fill : FillRequest} (h : ledger.fillOrder fill = .ok (drafts, after)) :
    ∀ draft ∈ drafts, draft.byRow = true := by
  obtain ⟨-, -, ⟨-, rfl, -⟩ | ⟨row, p, position, realized, base, hfld⟩⟩ := fillOrder_ok h
  · exact nofun
  rw [hfld.drafted]
  intro draft hdraft
  simp only [mem_cons, not_mem_nil, or_false] at hdraft
  rcases hdraft with rfl | rfl | rfl | rfl <;> rfl

theorem collect_byRow {A : Type} {items : List A} {round : Ledger → A → Except ReplayError (List EventDraft × Ledger)}
    (hrnd : ∀ now a entries next, round now a = .ok (entries, next) → ∀ draft ∈ entries, draft.byRow = true)
    (h : collect round ledger items = .ok (drafts, after)) :
    ∀ draft ∈ drafts, draft.byRow = true := by
  refine collect_change (fun _ entries _ => ∀ draft ∈ entries, draft.byRow = true)
    (fun _ _ hnone => by cases hnone) (fun _ _ _ _ _ hfs hsec => ?_)
    (fun now a entries next _ => hrnd now a entries next) h
  exact forall_mem_append.mpr ⟨hfs, hsec⟩

theorem processRow_byRow {trackId : Uuid} {symbol : String} {bar : Bar}
    (h : processRow trackId symbol ledger bar = .ok (drafts, after)) :
    ∀ draft ∈ drafts, draft.byRow = true := by
  obtain ⟨brackets, mid, fills, final, hbrks, hfills, rfl, -⟩ := processRow_ok h
  refine forall_mem_append.mpr ⟨collect_byRow (fun now p entries next hrnd => ?_) hbrks,
    collect_byRow (fun now order entries next hrnd => ?_) hfills⟩
  · rcases processBracket_ok hrnd with ⟨rfl, -⟩ | ⟨price, kind, id, placed, filled, -, -, hfill, rfl⟩
    · exact fun _ hnone => by cases hnone
    · exact forall_mem_cons.mpr ⟨rfl, fillOrder_byRow hfill⟩
  · rcases processOrder_ok hrnd with ⟨rfl, -⟩ | ⟨price, -, hfill⟩
    · exact nofun
    · exact fillOrder_byRow hfill

theorem reveal_byRow {useLedger batch : Bool} {pairs : List (Track × Bar)} {revealed : List Revealed}
    (h : collect (revealTrack useLedger batch) ledger pairs = .ok (revealed, after)) :
    ∀ draft ∈ revealed.flatMap (·.trading), draft.byRow = true := by
  refine reveal_change (fun _ entries _ => ∀ draft ∈ entries, draft.byRow = true)
    (fun _ _ hnone => by cases hnone) (fun _ _ _ _ _ hfs hsec => ?_)
    (fun _ _ _ _ _ _ _ hrow => processRow_byRow hrow) h
  exact forall_mem_append.mpr ⟨hfs, hsec⟩

/-- What the rows of a step trade is all trade events. -/
theorem reveal_trades {useLedger batch : Bool} {pairs : List (Track × Bar)} {revealed : List Revealed}
    (h : collect (revealTrack useLedger batch) ledger pairs = .ok (revealed, after)) :
    tradeDrafts (revealed.flatMap (·.trading)) = revealed.flatMap (·.trading) := by
  unfold tradeDrafts
  rw [filter_eq_self]
  intro draft hdraft
  exact EventDraft.isTrade_of_byRow (reveal_byRow h draft hdraft)

theorem TradeCases.loud {session : Session} {track : Track}
    (h : TradeCases session track ledger drafts after) : tradeDrafts drafts ≠ [] := by
  have hfs : ∀ (draft : EventDraft) (rest : List EventDraft), draft.isTrade = true → tradeDrafts (draft :: rest) ≠ [] := by
    intro draft rest hdraft
    unfold tradeDrafts
    rw [filter_cons_of_pos hdraft]
    exact cons_ne_nil _ _
  cases h with
  | place view payload sees places =>
    obtain ⟨order, id, placed, -, -, ⟨-, rfl, -⟩ | ⟨filled, -, -, rfl⟩⟩ := place_ok places
    · exact hfs _ _ rfl
    · exact hfs _ _ rfl
  | cancel orderId cancels =>
    obtain ⟨id, rfl, -⟩ := cancel_ok cancels
    exact hfs _ _ rfl
  | close view payload sees closes =>
    obtain ⟨body, p, clientOrderId, id, placed, filled, -, -, -, -, -, -, rfl⟩ := closePosition_ok closes
    exact hfs _ _ rfl
  | update payload updates =>
    obtain ⟨id, trackId, sl, tp, rfl, -⟩ := updateBracket_ok updates
    exact hfs _ _ rfl
  | reset => exact hfs _ _ rfl

end Loud

/-! ## Steps seen and unseen -/

/-- The row each track would show after a step; none if it does not run. -/
def Database.stepRows (db : Database) (command : Command) : List (Track × Bar) :=
  match stepCount db.session command with
  | .ok (some count) =>
    match resolveReplayStepTarget db.tracks (stepTarget db.session db.tracks count)
        (completionTime db.session db.tracks) with
    | .ok (selected, _) => db.tracks.zip selected
    | .error _ => []
  | _ => []

/-- A step that runs its rows through the ledger triggers something on one of them, or every mark
stands at the rows it reaches. -/
def SeesMarks (db : Database) (input : CommandInput) : Prop :=
  canReuseIdleTradingProjection input = false →
    (db.stepRows input.command).any db.ledger.tradesOn = true ∨
      (db.stepRows input.command).all db.ledger.stands = true

instance (db : Database) (input : CommandInput) : Decidable (SeesMarks db input) :=
  inferInstanceAs (Decidable (_ → _ ∨ _))

/-- A command that trades nothing, resets nothing and moves no mark. -/
structure LeavesProjection (db : Database) (input : CommandInput) : Prop where
  noTrade : input.command.isTrade = false
  noReset : ∀ target, seekTarget db.session input.command = .ok (target, true) →
    target < db.session.simulatedTime → db.ledger.hasFills = false
  noRow : canReuseIdleTradingProjection input = false →
    (db.stepRows input.command).any db.ledger.tradesOn = false ∧
      (db.stepRows input.command).all db.ledger.stands = true

section Command

variable {db db' : Database} {input : CommandInput} {result : CommandResult} {claimed : Session}
  {moved : Moved} {response : Response}

theorem load_eq {before after : Ledger} {uuids : Nat → Uuid} (h : after = { before with uuids := uuids }) :
    loadTradingSnapshot after = loadTradingSnapshot before := by
  rw [h]
  rfl

theorem Unmoved.load (h : Unmoved db db') : loadTradingSnapshot db'.ledger = loadTradingSnapshot db.ledger := by
  obtain ⟨uuids, hldg⟩ := h.ledger
  exact load_eq hldg

theorem Committed.load (h : Committed db input result db' claimed moved) :
    loadTradingSnapshot db'.ledger = loadTradingSnapshot moved.ledger := by
  obtain ⟨seq, at_, hldg⟩ := h.ledger
  rw [hldg]
  split
  · exact recordEquity_load _ _ _
  · rfl

theorem stepRows_eq {lease : Option Lease} {count : Nat} {selected : List Bar} {target : Int}
    (hcnt : stepCount { db.session with lease := lease } input.command = .ok (some count))
    (hreso : resolveReplayStepTarget db.tracks (stepTarget { db.session with lease := lease } db.tracks count)
      (completionTime { db.session with lease := lease } db.tracks) = .ok (selected, target)) :
    db.stepRows input.command = db.tracks.zip selected := by
  have hcnt : stepCount db.session input.command = .ok (some count) := by
    rw [← hcnt]
    cases input.command <;> rfl
  have hreso : resolveReplayStepTarget db.tracks (stepTarget db.session db.tracks count)
    (completionTime db.session db.tracks) = .ok (selected, target) := hreso
  unfold Database.stepRows
  rw [hcnt]
  dsimp only
  rw [hreso]

/-- The ids still to be drawn matter to no mark. -/
theorem foldl_markedBy_uuids (uuids : Nat → Uuid) (pairs : List (Track × Bar)) (ledger : Ledger) :
    pairs.foldl markedBy { ledger with uuids := uuids } = { pairs.foldl markedBy ledger with uuids := uuids } := by
  induction pairs generalizing ledger with
  | nil => rfl
  | cons next rest ih =>
    have hnext : markedBy { ledger with uuids := uuids } next = { ledger.markedBy next with uuids := uuids } := by
      have hactv : Ledger.hasActiveMarketState { ledger with uuids := uuids } next.1.id =
        ledger.hasActiveMarketState next.1.id := rfl
      unfold markedBy
      rw [hactv]
      by_cases hmoves : (next.1.cursorSeq < next.2.seq && ledger.hasActiveMarketState next.1.id) = true
      · rw [if_pos hmoves, if_pos hmoves]
        rfl
      · rw [if_neg hmoves, if_neg hmoves]
    rw [foldl_cons, foldl_cons, hnext, ih]

/-- **A command that drafts no trade event keeps the projection, or is a step that only marks.** -/
theorem Committed.silent (h : Committed db input result db' claimed moved) (hquiet : tradeDrafts moved.drafts = []) :
    loadTradingSnapshot db'.ledger = loadTradingSnapshot db.ledger ∨ (canReuseIdleTradingProjection input = false ∧
        (db.stepRows input.command).any db.ledger.tradesOn = false ∧
        loadTradingSnapshot db'.ledger = loadTradingSnapshot ((db.stepRows input.command).foldl markedBy db.ledger)) := by
  obtain ⟨lease, rfl⟩ := h.claim
  rw [h.load]
  have hmoves := h.moves
  cases hmoves with
  | kept _ _ _ sameLedger => exact .inl (load_eq sameLedger)
  | stepped count batch selected target revealed steps resolved reveals _ _ drafted counted =>
    have hrows := stepRows_eq counted resolved
    have hnothing : revealed.flatMap (·.trading) = [] := by
      rw [← reveal_trades reveals, ← drafted, hquiet]
    cases hreuse : canReuseIdleTradingProjection input with
    | true =>
      rw [hreuse] at reveals
      exact .inl (load_eq (reveal_idle reveals))
    | false =>
      rw [hreuse] at reveals
      have hsel : ∀ next ∈ db.tracks.zip selected, next.2 ∈ next.1.dataset.bars :=
        fun next hnext =>
          (forall₂_zip (resolveReplayStepTarget_ok resolved).1 hnext).mem
      obtain ⟨hnone, haft⟩ := reveal_silent hsel reveals
      rw [hrows]
      have hmarked := (haft hnothing).trans (foldl_markedBy_uuids db.ledger.drawn _ _)
      exact .inr ⟨rfl, hnone.mp hnothing, load_eq hmarked⟩
  | sought target resetTrading resetDrafts _ rewinds _ _ _ _ drafted =>
    rcases rewind_ok rewinds with ⟨-, hkept⟩ | ⟨-, -, -, -, hreset⟩
    · exact .inl (load_eq hkept)
    · -- a reset is logged
      rw [hquiet, ← (Prod.mk.inj hreset).1] at drafted
      cases drafted
  | traded track drafts _ _ _ _ operates _ _ drafted =>
    rw [hquiet] at drafted
    exact absurd drafted.symm (tradeLedger_cases operates).loud

/-- An answer shows what is stored, if the projection handed in did and the step sees its marks. -/
theorem Committed.fresh (h : Committed db input result db' claimed moved)
    (hcached : input.runtimeTrading = loadTradingSnapshot db.ledger) (hsees : SeesMarks db input) :
    result.snapshot.trading = loadTradingSnapshot db'.ledger := by
  have htrdg := h.trading
  by_cases hreread : (input.runtimeTrading.isNone || tradeChangedInDrafts moved.drafts) = true
  · rwa [if_pos hreread] at htrdg
  · rw [if_neg hreread] at htrdg
    rw [Bool.not_eq_true, Bool.or_eq_false_iff] at hreread
    have hquiet := tradeChangedInDrafts_eq_false.mp hreread.2
    rw [htrdg, hcached]
    rcases h.silent hquiet with hsame | ⟨hldg, hnone, hmarked⟩
    · exact hsame.symm
    · rcases hsees hldg with htrades | hstand
      · rw [hnone] at htrades
        cases htrades
      · rw [hmarked, foldl_markedBy hstand]

theorem runCommand_checkpoints {events : List EventRow} (h : runCommand db input = .ok (result, events, db')) :
    ∀ point ∈ db'.checkpoints, point ∈ db.checkpoints ∨ point.snapshot = result.snapshot := by
  unfold runCommand at h
  obtain ⟨⟨claimed, leased⟩, -, h⟩ := bind_ok.mp h
  rw [unit_bind_ok, bind_ok] at h
  obtain ⟨-, moved, -, h⟩ := h
  rw [unit_bind_ok, unit_bind_ok] at h
  obtain ⟨-, -, h⟩ := h
  cases h
  intro point hpoint
  dsimp only at hpoint
  split at hpoint
  · rcases mem_append.mp hpoint with hold | hnew
    · exact .inl hold
    · rw [mem_singleton.mp hnew]
      exact .inr rfl
  · exact .inl hpoint

/-- A new answer shows what is stored. -/
theorem Commanded.fresh {events : List EventRow} (h : Commanded db input (.ok (result, events)) db')
    (hcached : input.runtimeTrading = loadTradingSnapshot db.ledger) (hsees : SeesMarks db input)
    (hnew : result.duplicate = false) :
    result.snapshot.trading = loadTradingSnapshot db'.ledger ∧
      ∀ point ∈ db'.checkpoints, point ∈ db.checkpoints ∨ point.snapshot = result.snapshot := by
  cases h with
  | unmoved notApplied =>
    unfold Response.applied at notApplied
    dsimp only at notApplied
    rw [hnew] at notApplied
    cases notApplied
  | committed _ ran commits => exact ⟨commits.fresh hcached hsees, runCommand_checkpoints ran⟩

theorem Commanded.load (h : Commanded db input response db') (hleaves : LeavesProjection db input) :
    loadTradingSnapshot db'.ledger = loadTradingSnapshot db.ledger := by
  cases h with
  | unmoved _ same => exact same.load
  | committed _ _ commits =>
    obtain ⟨lease, rfl⟩ := commits.claim
    rw [commits.load]
    have hmoves := commits.moves
    cases hmoves with
    | kept _ _ _ sameLedger => exact load_eq sameLedger
    | stepped count batch selected target revealed steps resolved reveals _ _ drafted counted =>
      cases hreuse : canReuseIdleTradingProjection input with
      | true =>
        rw [hreuse] at reveals
        exact load_eq (reveal_idle reveals)
      | false =>
        rw [hreuse] at reveals
        obtain ⟨hnone, hstand⟩ := hleaves.noRow hreuse
        rw [stepRows_eq counted resolved] at hnone hstand
        have hsel : ∀ next ∈ db.tracks.zip selected, next.2 ∈ next.1.dataset.bars :=
          fun next hnext =>
            (forall₂_zip (resolveReplayStepTarget_ok resolved).1 hnext).mem
        obtain ⟨hsilent, haft⟩ := reveal_silent hsel reveals
        have hmarked := (haft (hsilent.mpr hnone)).trans (foldl_markedBy_uuids db.ledger.drawn _ _)
        rw [load_eq hmarked, foldl_markedBy hstand]
    | sought target resetTrading resetDrafts seeks rewinds =>
      rcases rewind_ok rewinds with ⟨-, hkept⟩ | ⟨-, hback, hfills, hreset, -⟩
      · exact load_eq hkept
      · rw [hreset] at seeks
        have hseeks : seekTarget db.session input.command = .ok (target, true) := by
          rw [← seeks]
          cases input.command <;> rfl
        have hfills : db.ledger.hasFills = true := hfills
        rw [hleaves.noReset target hseeks hback] at hfills
        cases hfills
    | traded _ _ trades =>
      rw [hleaves.noTrade] at trades
      cases trades

end Command

/-! ## Runs through one actor -/

/-- What goes on through one session actor: it is made from one reading of what is stored, its steps
see the marks they make, and an answer is lost only when the projection stays as it is. -/
def KeepsFresh (s : System) : Act → Prop
  | .openActor _ _ reads => (∀ j, s.actors j = none) ∧ reads.account = s.past.length
  | .command i request delivered => ∀ actor, s.actors i = some actor →
      if delivered then SeesMarks s.db (actor.input request)
      else LeavesProjection s.db (actor.input request)
  | _ => True

/-- There is one actor at most, and it holds the projection of what is stored. -/
structure System.Fresh (s : System) : Prop where
  distinct : (s.db.tracks.map (·.id)).Nodup
  single : s.Single
  held : ∀ i actor, s.actors i = some actor →
    actor.snapshot.trading = loadTradingSnapshot s.db.ledger

section Runs

variable {start : Database} {s s' : System} {a : Act}

/-- A write that leaves the projection. -/
theorem System.Fresh.wrote {db : Database} (h : s.Fresh) (hids : (db.tracks.map (·.id)).Nodup)
    (hload : loadTradingSnapshot db.ledger = loadTradingSnapshot s.db.ledger) : (s.wrote db).Fresh :=
  ⟨hids, h.single, fun i actor hactor => (h.held i actor hactor).trans hload.symm⟩

theorem System.Fresh.put {i : Nat} {actor : Option Actor} (hids : (s.db.tracks.map (·.id)).Nodup)
    (hoths : ∀ j, j ≠ i → s.actors j = none)
    (hheld : ∀ held, actor = some held → held.snapshot.trading = loadTradingSnapshot s.db.ledger) :
    (s.put i actor).Fresh :=
  ⟨hids, put_single hoths, fun _ held hsome => hheld held (put_only hoths hsome).2⟩

/-- An actor made from one reading holds the projection of what is stored. -/
theorem read_fresh {owner : String} {reads : Reads} {actor : Actor}
    (hnow : reads.account = s.past.length) (hread : s.read owner reads = some actor) :
    actor.snapshot.trading = loadTradingSnapshot s.db.ledger := by
  obtain ⟨hturn, session, tracks, account, orders, fills, positions, hacct, hords, hfills, hposs, rfl⟩ := read_ok hread
  unfold Reads.inTurn at hturn
  simp only [Bool.and_eq_true, decide_eq_true_eq] at hturn
  have hacct := states_last hnow (Nat.le_refl _) hacct
  have hords := states_last hnow (by omega) hords
  have hfills := states_last hnow (by omega) hfills
  have hposs := states_last hnow (by omega) hposs
  rw [hacct, hords, hfills, hposs]
  rfl

theorem recovery_leaves (db : Database) (key : String) (now : Int) : LeavesProjection db (recovery key now) :=
  ⟨rfl, nofun, fun _ => ⟨rfl, rfl⟩⟩

theorem step_fresh (h : s.Fresh) (hkeeps : KeepsFresh s a) (hstep : s.step a = some s') : s'.Fresh := by
  cases a with
  | openActor =>
    obtain ⟨hfs, hnow⟩ := hkeeps
    unfold step at hstep
    dsimp only at hstep
    split at hstep
    · cases hstep
    obtain ⟨actor, hread, rfl⟩ := map_eq_some_iff.mp hstep
    refine .put h.distinct (fun j _ => hfs j) fun held hheld => ?_
    cases hheld
    exact read_fresh hnow hread
  | command i request delivered =>
    obtain ⟨actor, hactor, rfl⟩ := command_step hstep
    have hkeeps := hkeeps actor hactor
    have hcs := applyCommand_cases h.distinct (actor.input request)
    have hheld := h.held i actor hactor
    have hids : ((applyCommand s.db (actor.input request)).2.tracks.map (·.id)).Nodup := by
      rw [forall₂_sameTrack_ids hcs.sameTracks]
      exact h.distinct
    refine .put hids (h.single.others hactor) fun held hans => ?_
    cases delivered with
    | false =>
      cases hans
      exact hheld.trans (hcs.load hkeeps).symm
    | true =>
      rcases answered_cases hans with ⟨hnot, rfl⟩ | ⟨result, events, hresp, hfsh, rfl⟩
      · exact hheld.trans (hcs.unmoved_of hnot).load.symm
      · rw [if_pos rfl] at hresp
        rw [hresp] at hcs
        exact (hcs.fresh hheld hkeeps hfsh).1
  | recover key now =>
    cases hstep
    have hcs := applyCommand_cases h.distinct (recovery key now)
    refine h.wrote ?_ (hcs.load (recovery_leaves s.db key now))
    rw [forall₂_sameTrack_ids hcs.sameTracks]
    exact h.distinct
  | renew =>
    cases hstep
    refine h.wrote ?_ ?_ <;> unfold Database.renewActorLease <;> split <;>
      first | exact h.distinct | rfl
  | release =>
    cases hstep
    refine h.wrote ?_ ?_ <;> unfold Database.releaseActorLease <;> split <;>
      first | exact h.distinct | rfl
  | stop i =>
    cases hstep
    refine ⟨h.distinct, h.single.stop i, fun j held hsome => ?_⟩
    exact h.held j held (put_none hsome)

theorem reaches_fresh (hprep : Prepared start) (hrun : Reaches System.step KeepsFresh (System.init start) s) : s.Fresh := by
  refine hrun.invariant System.Fresh ⟨hprep.distinct, ?_, ?_⟩ ?_
  · exact fun i j hi _ => by cases hi
  · exact fun i actor hactor => by cases hactor
  · exact fun _ _ _ h hkeeps hstep => step_fresh h hkeeps hstep

/--
**The projection of a new answer is that of what its command stored**, and so is the
one in its checkpoint, in every run through one actor whose steps see the marks they
make and whose lost answers left the projection.
-/
theorem projection_fresh (hprepared : Prepared start) (hrun : Reaches System.step KeepsFresh (System.init start) s) :
    ∀ i actor request result events, s.actors i = some actor → SeesMarks s.db (actor.input request) →
      (applyCommand s.db (actor.input request)).1 = .ok (result, events) →
      result.duplicate = false →
      result.snapshot.trading = loadTradingSnapshot (applyCommand s.db (actor.input request)).2.ledger ∧
        ∀ point ∈ (applyCommand s.db (actor.input request)).2.checkpoints,
          point ∈ s.db.checkpoints ∨ point.snapshot = result.snapshot := by
  intro i actor request result events hactor hsees hans hnew
  have hfsh := reaches_fresh hprepared hrun
  have hcs := applyCommand_cases hfsh.distinct (actor.input request)
  rw [hans] at hcs
  exact hcs.fresh (hfsh.held i actor hactor) hsees hnew

end Runs

/-! ## A mark that is not shown -/

/-- A command whose answer arrives, of an actor whose step sees the marks it makes. -/
def seen (s : System) : Act → Bool
  | .command i request delivered => delivered &&
      (s.actors i).all fun actor => SeesMarks s.db (actor.input request)
  | _ => false

/-- The next minute, as the first actor asks for it, answers with what `test` looks for. -/
def answersNext (test : CommandResult → Database → Bool) (s : System) : Bool :=
  (s.actors 0).any fun actor =>
    (applyCommand s.db (actor.input nextMinute)).1.toOption.any fun answer =>
      !answer.1.duplicate && test answer.1 (applyCommand s.db (actor.input nextMinute)).2

theorem answersNext_spec {test : CommandResult → Database → Bool} {s : System}
    (h : answersNext test s = true) : ∃ actor result events, s.actors 0 = some actor ∧
      (applyCommand s.db (actor.input nextMinute)).1 = .ok (result, events) ∧
      result.duplicate = false ∧
      test result (applyCommand s.db (actor.input nextMinute)).2 = true := by
  obtain ⟨actor, hactor, h⟩ := (any_eq_true _ _).mp h
  obtain ⟨⟨result, events⟩, hans, h⟩ := (any_eq_true _ _).mp h
  rw [Bool.and_eq_true, Bool.not_eq_true'] at h
  exact ⟨actor, result, events, hactor, toOption_some hans, h.1, h.2⟩

/-- A stop triggered on the next minute: the answer shows the position it opened. -/
theorem triggered_stop_shown : ∃ s actor result events,
    Reaches System.step KeepsFresh (System.init risingMinutes) s ∧ s.actors 0 = some actor ∧
    SeesMarks s.db (actor.input nextMinute) ∧
    (applyCommand s.db (actor.input nextMinute)).1 = .ok (result, events) ∧
    (result.snapshot.trading.any fun trading => trading.positions.length = 1) = true ∧
    result.snapshot.trading = loadTradingSnapshot (applyCommand s.db (actor.input nextMinute)).2.ledger := by
  have hopen : ∃ opened, step (init risingMinutes) (.openActor 0 "first" atFirst)
      = some opened ∧ ((exec step seen opened [.command 0 buyStop true]).map fun s =>
        (s.actors 0).all (fun actor => SeesMarks s.db (actor.input nextMinute)) &&
          answersNext (fun result _ => result.snapshot.trading.any fun trading =>
            trading.positions.length = 1) s) = some true := by
    refine ⟨_, rfl, ?_⟩
    decide +kernel
  obtain ⟨opened, hopened, hrun⟩ := hopen
  obtain ⟨s, hexec, htest⟩ := map_eq_some_iff.mp hrun
  rw [Bool.and_eq_true] at htest
  obtain ⟨hsees, hanswers⟩ := htest
  obtain ⟨actor, result, events, hactor, hans, hnew, hposs⟩ := answersNext_spec hanswers
  rw [hactor, all_some, decide_eq_true_iff] at hsees
  have hkeeps : KeepsFresh (init risingMinutes) (.openActor 0 "first" atFirst) :=
    ⟨fun _ => rfl, rfl⟩
  have hrch : Reaches step KeepsFresh (init risingMinutes) s := by
    refine .trans (.step .refl hkeeps hopened) (reaches_of_exec (fun s a h => ?_) hexec)
    cases a with
    | command =>
      unfold seen at h
      rw [Bool.and_eq_true, Option.all_eq_true] at h
      intro actor hactor
      rw [h.1, if_pos rfl]
      exact of_decide_eq_true (h.2 actor hactor)
    | _ => cases h
  refine ⟨s, actor, result, events, hrch, hactor, hsees, hans, hposs, ?_⟩
  exact (projection_fresh risingMinutes_prepared hrch 0 actor nextMinute result events hactor hsees hans hnew).1

/-- Two units bought at one, and stepped to a minute at three: what is stored is marked up by four,
and the answer still shows nothing unrealized. -/
theorem mark_not_shown : Prepared risingMinutes ∧ ∃ s actor result events,
    Reaches System.step Alone (System.init risingMinutes) s ∧ s.actors 0 = some actor ∧
    (applyCommand s.db (actor.input nextMinute)).1 = .ok (result, events) ∧
    result.duplicate = false ∧ result.snapshot.trading ≠
      loadTradingSnapshot (applyCommand s.db (actor.input nextMinute)).2.ledger := by
  have hopen :
      ∃ opened, step (init risingMinutes) (.openActor 0 "first" atFirst) = some opened ∧ ((exec step heard opened
        [.command 0 (clientRequest "buy" buyTwo.command) true]).map (answersNext fun result db =>
          result.snapshot.trading ≠ loadTradingSnapshot db.ledger)) = some true := by
    refine ⟨_, rfl, ?_⟩
    decide +kernel
  obtain ⟨opened, hopened, hrun⟩ := hopen
  obtain ⟨s, hexec, htest⟩ := map_eq_some_iff.mp hrun
  obtain ⟨actor, result, events, hactor, hans, hnew, hstale⟩ := answersNext_spec htest
  have halo : Alone (init risingMinutes) (.openActor 0 "first" atFirst) :=
    ⟨fun _ => rfl, rfl⟩
  have hrch : Reaches step Alone (init risingMinutes) s :=
    .trans (.step .refl halo hopened) (reaches_of_exec (fun _ _ h => alone_of_heard h) hexec)
  exact ⟨risingMinutes_prepared, s, actor, result, events, hrch, hactor, hans, hnew, of_decide_eq_true hstale⟩

end MarketLens.Replay
