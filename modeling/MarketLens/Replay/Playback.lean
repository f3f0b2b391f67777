import MarketLens.Replay.Sessions

/-!
# Playback

Steps and clock steps reveal the rows of every track in order, some at a time. However
the rows are split over commands, each track sees the same rows one after the other.
What a track's candles and the ledger come to depends on that only.
-/

namespace MarketLens.Replay

open List Option Bool Journal Except Ledger Dataset Fallible

/-! ## Ranges of rows -/

namespace Dataset

variable {dataset : Dataset} {first mid last : Nat}

theorem barsBySeqRange_self (dataset : Dataset) (seq : Nat) : dataset.barsBySeqRange seq seq = [] := by
  refine eq_nil_iff_forall_not_mem.mpr fun bar hbar => ?_
  obtain ⟨-, haft, hthru⟩ := mem_barsBySeqRange.mp hbar
  omega

theorem barsBySeqRange_append (hfs : first ≤ mid) (hlast : mid ≤ last) :
    dataset.barsBySeqRange first mid ++ dataset.barsBySeqRange mid last = dataset.barsBySeqRange first last := by
  have hsrt : dataset.bars.Pairwise fun a b => a.seq < b.seq := by
    refine pairwise_iff_getElem.mpr fun i j hi hj hlt => ?_
    rw [seq_getElem hi, seq_getElem hj]
    exact hlt
  have hpart : ∀ low high, (dataset.barsBySeqRange low high).Pairwise fun a b => a.seq < b.seq :=
    fun _ _ => hsrt.sublist filter_sublist
  have hboth : (dataset.barsBySeqRange first mid ++ dataset.barsBySeqRange mid last).Pairwise fun a b => a.seq < b.seq := by
    refine pairwise_append.mpr ⟨hpart _ _, hpart _ _, fun a ha b hb => ?_⟩
    exact lt_of_le_of_lt (mem_barsBySeqRange.mp ha).2.2 (mem_barsBySeqRange.mp hb).2.1
  have hndp : ∀ {bars : List Bar}, bars.Pairwise (fun a b => a.seq < b.seq) → bars.Nodup := fun h =>
    h.imp fun hlt hsame => absurd (congrArg Bar.seq hsame) (ne_of_lt hlt)
  -- the same rows, each part in the order of their numbers
  refine Perm.eq_of_pairwise (fun _ _ _ _ hlt hlt' => absurd hlt (lt_asymm hlt')) hboth (hpart _ _) ?_
  refine (perm_ext_iff_of_nodup (hndp hboth) (hndp (hpart _ _))).mpr fun bar => ?_
  rw [mem_append, mem_barsBySeqRange, mem_barsBySeqRange, mem_barsBySeqRange]
  constructor
  · rintro (⟨hbar, haft, hthru⟩ | ⟨hbar, haft, hthru⟩)
    · exact ⟨hbar, haft, hthru.trans hlast⟩
    · exact ⟨hbar, lt_of_le_of_lt hfs haft, hthru⟩
  · rintro ⟨hbar, haft, hthru⟩
    rcases Nat.lt_or_ge mid bar.seq with hlate | hear
    · exact .inr ⟨hbar, hlate, hthru⟩
    · exact .inl ⟨hbar, haft, hear⟩

end Dataset

/-! ## Candles -/

/-- Rows are folded into the candles one part after the other. -/
theorem aggregateSourceBars_append {state final : AggregateState} {timeframe : Timeframe} {rows more : List Bar}
    {upserts : List ReplayBar} : aggregateSourceBars state timeframe (rows ++ more) = some (final, upserts) ↔
      ∃ mid first later, aggregateSourceBars state timeframe rows = some (mid, first) ∧
        aggregateSourceBars mid timeframe more = some (final, later) ∧ upserts = first ++ later := by
  induction rows generalizing state upserts with
  | nil =>
    constructor
    · exact fun h => ⟨state, [], upserts, rfl, h, rfl⟩
    · rintro ⟨mid, first, later, hfs, hlat, rfl⟩
      cases hfs
      exact hlat
  | cons row rows ih =>
    rw [cons_append, aggregateSourceBars, aggregateSourceBars]
    split
    · exact iff_of_false nofun (by rintro ⟨_, _, _, hfs, -⟩; cases hfs)
    · dsimp only [bind, pure]
      rw [bind_eq_some_iff]
      constructor
      · rintro ⟨⟨next, emitted⟩, hnext, h⟩
        cases h
        obtain ⟨mid, first, later, hfs, hlat, rfl⟩ := ih.mp hnext
        refine ⟨mid, _, later, ?_, hlat, (append_assoc _ _ _).symm⟩
        rw [hfs]
        rfl
      · rintro ⟨mid, first, later, hfs, hlat, rfl⟩
        obtain ⟨⟨next, emitted⟩, hnext, h⟩ := bind_eq_some_iff.mp hfs
        cases h
        exact ⟨_, ih.mpr ⟨next, emitted, later, hnext, hlat, rfl⟩, by rw [append_assoc]⟩

/-- The candles know the last row that went into them. -/
theorem aggregateSourceBars_lastSourceSeq {state final : AggregateState} {timeframe : Timeframe}
    {front : List Bar} {last : Bar} {upserts : List ReplayBar}
    (h : aggregateSourceBars state timeframe (front ++ [last]) = some (final, upserts)) :
    final.lastSourceSeq = last.seq := by
  obtain ⟨mid, first, later, -, hlat, -⟩ := aggregateSourceBars_append.mp h
  rw [aggregateSourceBars] at hlat
  split at hlat
  · cases hlat
  · cases hlat
    rfl

/-- A track moved on over its rows, its candles with it. -/
structure Track.MovedOn (before after : Track) : Prop where
  further : before.cursorSeq < after.cursorSeq
  shows : ∃ bar ∈ before.dataset.bars, ∃ state, after = before.movedTo bar state
  folds : ∃ state upserts, before.currentAggregateState = .ok state ∧
    aggregateSourceBars state before.chartTimeframe
      (before.dataset.barsBySeqRange before.cursorSeq after.cursorSeq) =
        some (after.aggregateState, upserts)

/-- What playback does to a track: nothing, or it moves on. -/
def Track.PlayedTo (before after : Track) : Prop := after = before ∨ before.MovedOn after

namespace Track

variable {before mid after other : Track}

/-- A track that moved on has candles up to its cursor. -/
theorem MovedOn.current (h : before.MovedOn after) : after.currentAggregateState = .ok after.aggregateState := by
  obtain ⟨bar, hbar, state, haft⟩ := h.shows
  obtain ⟨start, upserts, -, hfold⟩ := h.folds
  have hcsr : after.cursorSeq = bar.seq := by rw [haft]; rfl
  have hfurther := h.further
  rw [hcsr] at hfold hfurther
  obtain ⟨front, hrows⟩ := barsBySeqRange_last hbar hfurther
  rw [hrows] at hfold
  unfold currentAggregateState
  rw [if_pos]
  rw [hcsr]
  exact aggregateSourceBars_lastSourceSeq hfold

theorem PlayedTo.le (h : before.PlayedTo after) : before.cursorSeq ≤ after.cursorSeq := by
  rcases h with rfl | h
  · exact Nat.le_refl _
  · exact h.further.le

theorem PlayedTo.kept (h : before.PlayedTo after) : after.id = before.id ∧ after.symbol = before.symbol ∧
    after.dataset = before.dataset := by
  rcases h with rfl | h
  · exact ⟨rfl, rfl, rfl⟩
  · obtain ⟨bar, -, state, rfl⟩ := h.shows
    exact ⟨rfl, rfl, rfl⟩

/-- **A track that moves on twice has moved on over all the rows.** -/
theorem PlayedTo.trans (h : before.PlayedTo mid) (h' : mid.PlayedTo after) : before.PlayedTo after := by
  rcases h with rfl | h
  · exact h'
  · rcases h' with rfl | h'
    · exact .inr h
    · obtain ⟨state, upserts, hst, hfold⟩ := h.folds
      obtain ⟨state', later, hst', hfold'⟩ := h'.folds
      rw [h.current] at hst'
      cases hst'
      obtain ⟨bar, -, middle, hmid⟩ := h.shows
      obtain ⟨row, hrow, final, haft⟩ := h'.shows
      have hdataset : mid.dataset = before.dataset := by rw [hmid]; rfl
      have htimeframe : mid.chartTimeframe = before.chartTimeframe := by rw [hmid]; rfl
      rw [hdataset] at hfold' hrow
      rw [htimeframe] at hfold'
      refine .inr ⟨h.further.trans h'.further, ⟨row, hrow, final, ?_⟩, state, upserts ++ later, hst, ?_⟩
      · rw [haft, hmid]
        rfl
      · rw [← barsBySeqRange_append h.further.le h'.further.le]
        exact aggregateSourceBars_append.mpr ⟨_, _, _, hfold, hfold', rfl⟩

/-- **Where a track stands says what it shows.** -/
theorem PlayedTo.unique (h : before.PlayedTo after) (h' : before.PlayedTo other)
    (hcsr : after.cursorSeq = other.cursorSeq) : after = other := by
  rcases h with rfl | h
  · rcases h' with rfl | h'
    · rfl
    · exact absurd h'.further (by omega)
  · rcases h' with rfl | h'
    · exact absurd h.further (by omega)
    obtain ⟨state, upserts, hst, hfold⟩ := h.folds
    obtain ⟨state', later, hst', hfold'⟩ := h'.folds
    rw [hst] at hst'
    cases hst'
    rw [hcsr, hfold'] at hfold
    have hcandles : after.aggregateState = other.aggregateState :=
      (congrArg Prod.fst (Option.some.inj hfold)).symm
    obtain ⟨bar, hbar, final, haft⟩ := h.shows
    obtain ⟨row, hrow, final', hoth⟩ := h'.shows
    subst haft hoth
    have hsame : final = final' := hcandles
    rw [eq_of_seq hbar hrow hcsr, hsame]

end Track

/-! ## Trading on the rows -/

/-- The rows a track shows on its way. -/
def Track.rowsTo (before after : Track) : List Bar :=
  before.dataset.barsBySeqRange before.cursorSeq after.cursorSeq

theorem Track.rowsTo_self (track : Track) : track.rowsTo track = [] := barsBySeqRange_self _ _

namespace Ledger

def tradeShown (ledger : Ledger) (way : Track × Track) : Except ReplayError (List EventDraft × Ledger) :=
  ledger.processRows way.1.id way.1.symbol (way.1.rowsTo way.2)

def tradeBetween (ledger : Ledger) (before after : List Track) :
    Except ReplayError (List EventDraft × Ledger) :=
  Journal.collect tradeShown ledger (before.zip after)

/-- No track has an open position or a working order. -/
def AtRest (ledger : Ledger) : Prop := ∀ trackId, ledger.hasActiveMarketState trackId = false

theorem tradeShown_nil {ledger : Ledger} {way : Track × Track} (h : way.1.rowsTo way.2 = []) :
    ledger.tradeShown way = .ok ([], ledger) := by
  unfold tradeShown processRows
  rw [h]
  split <;> rfl

theorem tradeBetween_self (ledger : Ledger) (tracks : List Track) : ledger.tradeBetween tracks tracks = .ok ([], ledger) := by
  unfold tradeBetween
  induction tracks with
  | nil => rfl
  | cons track rest ih =>
    rw [zip_cons_cons, collect, tradeShown_nil track.rowsTo_self]
    simp only [bind, Except.bind, ih]
    rfl

end Ledger

section Reveal

variable {useLedger batch : Bool} {track : Track} {selected : Bar} {ledger : Ledger}

theorem tradeRows_processRows {drafts : List EventDraft} {after : Ledger} (hrest : useLedger = false → ledger.AtRest)
    (h : tradeRows useLedger track selected ledger = .ok (drafts, after)) :
    ledger.processRows track.id track.symbol (track.revealedBy selected) = .ok (drafts, after) ∧
      (useLedger = false → after.AtRest) := by
  cases useLedger with
  | true => exact ⟨h, nofun⟩
  | false =>
    cases h
    refine ⟨?_, hrest⟩
    unfold processRows
    rw [hrest rfl track.id]
    rfl

/-- **One track of a step, whatever ledger it trades on.** -/
theorem revealRows_played {revealed : Revealed} (hsel : selected ∈ track.dataset.bars) (hrest : useLedger = false → ledger.AtRest)
    (h : revealRows useLedger batch track selected ledger = .ok revealed) :
    track.PlayedTo revealed.track ∧ ledger.tradeShown (track, revealed.track) = .ok (revealed.trading, revealed.ledger) ∧
      (useLedger = false → revealed.ledger.AtRest) ∧
      ∀ M drafts M', Ledger.tradeShown M (track, revealed.track) = .ok (drafts, M') →
        ∃ again, revealRows true batch track selected M = .ok again ∧ again.track = revealed.track ∧ again.ledger = M' := by
  unfold revealRows at h
  split at h
  · rename_i hle
    cases h
    refine ⟨.inl rfl, tradeShown_nil track.rowsTo_self, hrest, fun M drafts M' hM => ?_⟩
    rw [tradeShown_nil track.rowsTo_self] at hM
    cases hM
    exact ⟨⟨track, M, [], []⟩, if_pos hle, rfl, rfl⟩
  · rename_i hgt
    obtain ⟨state, hst, h⟩ := bind_ok.mp h
    obtain ⟨⟨next, upserts⟩, hfold, h⟩ := bind_ok.mp h
    obtain ⟨⟨trading, after⟩, htrd, h⟩ := bind_ok.mp h
    cases h
    obtain ⟨hproc, haft⟩ := tradeRows_processRows hrest htrd
    have hfolds := hfold
    rw [require_ok] at hfolds
    refine ⟨.inr ⟨not_le.mp hgt, ⟨selected, hsel, next, rfl⟩, state, upserts, hst, hfolds⟩, hproc, haft, fun M drafts M' hM => ?_⟩
    have hM : M.processRows track.id track.symbol (track.revealedBy selected) = .ok (drafts, M') := hM
    refine ⟨⟨track.movedTo selected next, M', replayBarDrafts track.id (coalesceBarUpserts upserts) batch, drafts⟩, ?_, rfl, rfl⟩
    unfold revealRows tradeRows
    rw [if_neg hgt, hst]
    simp only [bind, Except.bind, hfold, if_true, hM]
    rfl

/-- **All tracks of a step.** -/
theorem reveal_played {tracks : List Track} {bars : List Bar} {revealed : List Revealed} {after : Ledger}
    (hsel : Forall₂ (fun track bar => bar ∈ track.dataset.bars) tracks bars)
    (hrest : useLedger = false → ledger.AtRest)
    (h : collect (revealTrack useLedger batch) ledger (tracks.zip bars) = .ok (revealed, after)) :
    Forall₂ Track.PlayedTo tracks (revealed.map (·.track)) ∧
      (∃ drafts, ledger.tradeBetween tracks (revealed.map (·.track)) = .ok (drafts, after)) ∧
      ∀ M drafts M', Ledger.tradeBetween M tracks (revealed.map (·.track)) = .ok (drafts, M') →
        ∃ again, collect (revealTrack true batch) M (tracks.zip bars) = .ok (again, M') ∧
          again.map (·.track) = revealed.map (·.track) := by
  induction hsel generalizing ledger revealed with
  | nil =>
    cases h
    refine ⟨.nil, ⟨[], rfl⟩, fun M drafts M' hM => ?_⟩
    cases hM
    exact ⟨[], rfl, rfl⟩
  | @cons track bar tracks bars hbar _ ih =>
    obtain ⟨first, mid, more, hrnd, hmore, rfl⟩ := collect_cons_ok h
    obtain ⟨shown, rfl, rfl, hrows⟩ := revealTrack_ok hrnd
    obtain ⟨hplayed, htrad, hmid, haga⟩ := revealRows_played hbar hrest hrows
    obtain ⟨htrks, ⟨drafts, hbetween⟩, hrestAgain⟩ := ih hmid hmore
    refine ⟨.cons hplayed htrks, ⟨shown.trading ++ drafts, collect_cons htrad hbetween⟩, fun M entries M' hM => ?_⟩
    · obtain ⟨trading, middle, others, hfs, hoths, rfl⟩ := collect_cons_ok hM
      obtain ⟨once, honce, hsame, rfl⟩ := haga M trading middle hfs
      obtain ⟨again, hcollected, htrackAgain⟩ := hrestAgain _ others M' hoths
      refine ⟨once :: again, ?_, ?_⟩
      · have hfirstRound : revealTrack true batch M (track, bar) = .ok ([once], once.ledger) := by
          unfold revealTrack
          rw [honce]
          rfl
        exact collect_cons hfirstRound hcollected
      · rw [map_cons, singleton_append, map_cons, hsame, htrackAgain]

end Reveal

/-! ## Commands -/

/-- The commands that let the session play on: all but the seeks and the trades. -/
def Command.playsOn (command : Command) : Bool := !command.isSeek && !command.isTrade

/-- A session as its commands see it. -/
structure Playback where
  session : Session
  tracks : List Track
  ledger : Ledger

/-- A command that plays on. The ledger may be left out only when it is at rest. -/
def Playback.Plays (p : Playback) (command : Command) (q : Playback) : Prop :=
  command.playsOn = true ∧ ∃ useLedger now moved, (useLedger = false → p.ledger.AtRest) ∧
    applyRuntimeTransitionTracks useLedger p.session p.tracks p.ledger now command = .ok moved ∧
    q = ⟨moved.session, moved.tracks, moved.ledger⟩

/-- What a transition does, whatever ledger it works on. -/
structure Shows (tracks : List Track) (ledger : Ledger)
    (again : Ledger → Except ReplayError Moved) (moved : Moved) : Prop where
  played : List.Forall₂ Track.PlayedTo tracks moved.tracks
  traded : ∃ drafts, ledger.tradeBetween tracks moved.tracks = .ok (drafts, moved.ledger)
  repeats : ∀ M drafts M', Ledger.tradeBetween M tracks moved.tracks = .ok (drafts, M') →
    ∃ other, again M = .ok other ∧ other.session = moved.session ∧ other.tracks = moved.tracks ∧
      other.ledger = M'

theorem shows_kept {tracks : List Track} {ledger : Ledger} {again : Ledger → Except ReplayError Moved}
    {moved : Moved} (htrks : moved.tracks = tracks) (hldg : moved.ledger = ledger)
    (haga : ∀ M, ∃ other, again M = .ok other ∧ other.session = moved.session ∧
      other.tracks = tracks ∧ other.ledger = M) : Shows tracks ledger again moved := by
  refine ⟨?_, ⟨[], ?_⟩, fun M drafts M' hM => ?_⟩
  · rw [htrks, forall₂_same]
    exact fun _ _ => .inl rfl
  · rw [htrks, hldg]
    exact ledger.tradeBetween_self tracks
  · rw [htrks, tradeBetween_self] at hM
    cases hM
    obtain ⟨other, hoth, hsess, hsame, hM⟩ := haga M
    exact ⟨other, hoth, hsess, hsame.trans htrks.symm, hM⟩

section Transitions

variable {useLedger : Bool} {session : Session} {track : Track} {tracks : List Track} {ledger : Ledger}
  {command : Command} {now : Int} {moved : Moved}

theorem concluded_rows (session : Session) (track : Track) (attempt : Attempt) (remarshalled isClose : Bool) :
    (concluded session track attempt remarshalled isClose).1.session = attempt.session ∧
      (concluded session track attempt remarshalled isClose).1.track = attempt.track ∧
      (concluded session track attempt remarshalled isClose).1.ledger = attempt.ledger := by
  unfold concluded
  dsimp only
  split <;> exact ⟨rfl, rfl, rfl⟩

theorem transition_transport (hplays : command.playsOn = true) (hstep : command.isStep = false) :
    applyRuntimeTransition useLedger session track ledger now command = transport session track now command >>= fun after =>
        .ok (concluded session track ⟨after, track, ledger, [], false⟩ false (command = .close)) := by
  cases command with
  | step | clockStep => cases hstep
  | seek | restart | placeOrder | cancelOrder | closePosition | updateOrder | resetTrading =>
    cases hplays
  | _ => rfl

theorem onTrack_ok : onTrack useLedger session tracks ledger now command track = .ok moved ↔
    ∃ made, applyRuntimeTransition useLedger session track ledger now command = .ok made ∧
      moved = ⟨made.1.session, tracks.map fun other => if other.id = track.id then made.1.track else other,
        made.1.ledger, made.1.drafts, made.2⟩ := by
  unfold onTrack
  rw [bind_ok]
  exact exists_congr fun made => and_congr_right fun _ => ⟨fun h => (ok.inj h).symm, fun h => h ▸ rfl⟩

theorem onTrack_shows (hplays : command.playsOn = true) (hstep : command.isStep = false)
    (hids : (tracks.map (·.id)).Nodup) (hmem : track ∈ tracks)
    (h : onTrack useLedger session tracks ledger now command track = .ok moved) :
    Shows tracks ledger (fun M => onTrack true session tracks M now command track) moved := by
  obtain ⟨made, hmade, rfl⟩ := onTrack_ok.mp h
  rw [transition_transport hplays hstep, bind_ok] at hmade
  obtain ⟨after, haft, hconcluded⟩ := hmade
  have hrows := fun M : Ledger =>
    concluded_rows session track ⟨after, track, M, [], false⟩ false (command = .close)
  obtain ⟨hsess, htrk, hldg⟩ := hrows ledger
  rw [ok.inj hconcluded] at hsess htrk hldg
  refine shows_kept ?_ hldg fun M => ?_
  · rw [htrk]
    exact map_replace_self hids hmem
  · obtain ⟨hsessionM, htrackM, hledgerM⟩ := hrows M
    refine ⟨_, onTrack_ok.mpr ⟨_, ?_, rfl⟩, hsessionM.trans hsess.symm, ?_, hledgerM⟩
    · rw [transition_transport hplays hstep, haft]
      rfl
    · rw [htrackM]
      exact map_replace_self hids hmem

section AtRest

variable (hrest : useLedger = false → ledger.AtRest)
include hrest

theorem stepOne_played {found : Option Attempt} (h : stepOne useLedger session track ledger command = .ok found) :
    (found = none ∧ ∀ M, stepOne true session track M command = .ok none) ∨
      ∃ attempt, found = some attempt ∧ track.PlayedTo attempt.track ∧
        (∃ drafts, ledger.tradeShown (track, attempt.track) = .ok (drafts, attempt.ledger)) ∧
        ∀ M drafts M', Ledger.tradeShown M (track, attempt.track) = .ok (drafts, M') →
          ∃ again, stepOne true session track M command = .ok (some again) ∧
            again.session = attempt.session ∧ again.track = attempt.track ∧ again.ledger = M' := by
  obtain ⟨counted, hcnt, h⟩ := bind_ok.mp h
  cases counted with
  | none =>
    cases h
    refine .inl ⟨rfl, fun M => ?_⟩
    unfold stepOne
    rw [hcnt]
    rfl
  | some =>
    obtain ⟨⟨rows, target⟩, hreso, h⟩ := bind_ok.mp h
    obtain ⟨selected, hsel, h⟩ := bind_ok.mp h
    obtain ⟨revealed, hrevl, h⟩ := bind_ok.mp h
    cases h
    have hmem : selected ∈ track.dataset.bars := by
      cases (resolveReplayStepTarget_ok hreso).1 with
      | cons hlast hnil =>
        cases hnil
        cases hsel
        exact hlast.mem
    obtain ⟨hplayed, htrad, -, haga⟩ := revealRows_played hmem hrest hrevl
    refine .inr ⟨_, rfl, hplayed, ⟨_, htrad⟩, fun M drafts M' hM => ?_⟩
    obtain ⟨again, hrows, hsame, hldg⟩ := haga M drafts M' hM
    refine ⟨⟨session.arrived target (completionTime session [track]), again.track, again.ledger,
      again.drafts ++ again.trading, !again.trading.isEmpty⟩, ?_, rfl, hsame, hldg⟩
    unfold stepOne
    simp only [bind, Except.bind, hcnt, hreso, hsel, hrows]
    rfl

/-- A step of one track shows the same rows whatever ledger it works on. -/
theorem stepOn_shows (hstep : command.isStep = true)
    (h : onTrack useLedger session [track] ledger now command track = .ok moved) :
    Shows [track] ledger (fun M => onTrack true session [track] M now command track) moved := by
  have hdispatch : ∀ (u : Bool) (M : Ledger), applyRuntimeTransition u session track M now command =
      stepOne u session track M command >>= fun found => .ok (found.elim (⟨session, track, M, [], false⟩, false)
        fun attempt => concluded session track attempt false false) := by
    intro u M
    cases command with
    | step | clockStep =>
      refine bind_congr fun found => ?_
      cases found <;> rfl
    | _ => cases hstep
  have honly : ∀ shown : Track, ([track].map fun other => if other.id = track.id then shown else other) =
      [shown] := fun shown => congrArg (fun other => [other]) (if_pos rfl)
  obtain ⟨made, hmade, rfl⟩ := onTrack_ok.mp h
  rw [hdispatch, bind_ok] at hmade
  obtain ⟨found, hfnd, hmade⟩ := hmade
  rcases stepOne_played hrest hfnd with ⟨rfl, haga⟩ | ⟨attempt, rfl, hplayed, ⟨drafts, htrad⟩, haga⟩
  -- no row is due: nothing is shown, on whatever ledger
  · cases hmade
    refine shows_kept (honly track) rfl fun M => ⟨_,
      onTrack_ok.mpr ⟨(⟨session, track, M, [], false⟩, false), ?_, rfl⟩, rfl, honly track, rfl⟩
    rw [hdispatch, haga]
    rfl
  · obtain ⟨hsess, htrk, hldg⟩ := concluded_rows session track attempt false false
    have hconcluded : concluded session track attempt false false = made := ok.inj hmade
    rw [hconcluded] at hsess htrk hldg
    have hmvd := honly made.1.track
    rw [htrk] at hmvd
    have hmvd' : ([track].map fun other => if other.id = track.id then made.1.track else other) =
        [attempt.track] := by rw [htrk]; exact hmvd
    refine ⟨?_, ⟨drafts, ?_⟩, fun M entries M' hM => ?_⟩
    · rw [hmvd']
      exact .cons hplayed .nil
    · rw [hmvd', tradeBetween, zip_cons_cons, collect, htrad, hldg]
      simp only [bind, Except.bind, zip_nil_left, collect, pure, Except.pure, append_nil]
    · rw [hmvd', tradeBetween, zip_cons_cons] at hM
      obtain ⟨first, mid, more, hfs, hmore, -⟩ := collect_cons_ok hM
      cases hmore
      obtain ⟨again, honce, hsessionAgain, htrackAgain, hledgerAgain⟩ := haga M first _ hfs
      obtain ⟨hsess', htrk', hldg'⟩ := concluded_rows session track again false false
      refine ⟨_, onTrack_ok.mpr ⟨concluded session track again false false, ?_, rfl⟩, ?_, ?_, ?_⟩
      · rw [hdispatch, honce]
        rfl
      · exact hsess'.trans (hsessionAgain.trans hsess.symm)
      · rw [hmvd', htrk', htrackAgain]
        exact honly attempt.track
      · exact hldg'.trans hledgerAgain

theorem applySynchronizedStep_shows (h : applySynchronizedStep useLedger session tracks ledger command = .ok moved) :
    Shows tracks ledger (fun M => applySynchronizedStep true session tracks M command) moved := by
  obtain ⟨counted, hcnt, h⟩ := bind_ok.mp h
  cases counted with
  | none =>
    cases h
    refine shows_kept rfl rfl fun M => ⟨⟨session, tracks, M, [], false⟩, ?_, rfl, rfl, rfl⟩
    unfold applySynchronizedStep
    rw [hcnt]
    rfl
  | some =>
    obtain ⟨⟨selected, target⟩, hreso, h⟩ := bind_ok.mp h
    obtain ⟨⟨revealed, after⟩, hreveal, h⟩ := bind_ok.mp h
    cases h
    have hmem := (resolveReplayStepTarget_ok hreso).1.imp fun _ _ hlast => hlast.mem
    obtain ⟨hplayed, htrad, haga⟩ := reveal_played hmem hrest hreveal
    refine ⟨hplayed, htrad, fun M drafts M' hM => ?_⟩
    obtain ⟨again, hcollected, hsame⟩ := haga M drafts M' hM
    have hmade : ∃ other, applySynchronizedStep true session tracks M command = .ok other ∧
        other.session = session.arrived target (completionTime session tracks) ∧
        other.tracks = again.map (·.track) ∧ other.ledger = M' := by
      unfold applySynchronizedStep
      simp only [bind, Except.bind, hcnt, hreso, hcollected]
      exact ⟨_, rfl, rfl, rfl, rfl⟩
    obtain ⟨other, hoth, hsess, htrks, hldg⟩ := hmade
    exact ⟨other, hoth, hsess, htrks.trans hsame, hldg⟩

/-- **What a command that plays on shows and trades, whatever ledger it works on.** -/
theorem transition_shows (hids : (tracks.map (·.id)).Nodup) (hplays : command.playsOn = true)
    (h : applyRuntimeTransitionTracks useLedger session tracks ledger now command = .ok moved) :
    Shows tracks ledger (fun M => applyRuntimeTransitionTracks true session tracks M now command) moved := by
  match tracks, hids, h with
  | [], _, h => cases h
  | [track], hids, h =>
    cases hstep : command.isStep with
    | true => exact stepOn_shows hrest hstep h
    | false => exact onTrack_shows hplays hstep hids mem_cons_self h
  | first :: second :: rest, hids, h =>
    cases command with
    | step | clockStep => exact applySynchronizedStep_shows hrest h
    | setReplayInterval requested =>
      obtain ⟨given, hgiven, h⟩ := bind_ok.mp h
      obtain ⟨interval, hiv, h⟩ := bind_ok.mp h
      have haga : ∀ M : Ledger, applyRuntimeTransitionTracks true session (first :: second :: rest) M now
          (.setReplayInterval requested) =
          if interval = session.replayIntervalSeconds then
            .ok ⟨session, first :: second :: rest, M, [], false⟩
          else .ok ⟨{ session with replayIntervalSeconds := interval }, first :: second :: rest, M,
            [Session.stateChanged { session with replayIntervalSeconds := interval }], true⟩ := by
        intro M
        show applySynchronizedReplayInterval session (first :: second :: rest) M requested = _
        unfold applySynchronizedReplayInterval
        simp only [bind, Except.bind, hgiven, hiv]
        rfl
      split at h
      · rename_i hsame
        cases h
        exact shows_kept rfl rfl fun M => ⟨_, (haga M).trans (if_pos hsame), rfl, rfl, rfl⟩
      · rename_i hnew
        cases h
        exact shows_kept rfl rfl fun M => ⟨_, (haga M).trans (if_neg hnew), rfl, rfl, rfl⟩
    | seek | restart | placeOrder | cancelOrder | closePosition | updateOrder | resetTrading =>
      cases hplays
    | _ => exact onTrack_shows hplays rfl hids mem_cons_self h

end AtRest

end Transitions

end MarketLens.Replay
