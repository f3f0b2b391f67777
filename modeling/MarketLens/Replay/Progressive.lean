import MarketLens.Lib.Latest
import MarketLens.Replay.Playback
import MarketLens.Replay.StoredAggregate

/-!
# Candles built in parts

A session folds its rows into candles some at a time, stores the aggregate between
them and sends the last candle of every bucket each time. The candles that are there
in the end, one for each bucket and the last one sent, are those of all rows folded at
once, and each is made of the rows of its bucket. A candle is closed by the row that
reaches the end of its bucket or by the first one of a later bucket, so only the last
one is open.
-/

namespace MarketLens.Replay

open List Option Latest

/-! ## What a candle says -/

/-- The rows of the bucket that starts at a time. -/
def rowsIn (timeframe : Timeframe) (start : Int) (rows : List Bar) : List Bar :=
  rows.filter fun row => bucketStart timeframe row.openTime = start

structure ReplayBar.Summarizes (bar : ReplayBar) (rows : List Bar) : Prop where
  opens : rows.head?.map (·.open) = some bar.open
  closes : rows.getLast?.map (·.close) = some bar.close
  highest : bar.high ∈ rows.map (·.high) ∧ ∀ row ∈ rows, row.high ≤ bar.high
  lowest : bar.low ∈ rows.map (·.low) ∧ ∀ row ∈ rows, bar.low ≤ row.low
  total : bar.volume = (rows.map (·.volume)).sum

theorem openCandle_summarizes (start : Int) (row : Bar) : (openCandle start row).Summarizes [row] := by
  refine ⟨rfl, rfl, ⟨mem_cons_self, fun other hoth => ?_⟩, ⟨mem_cons_self, fun other hoth => ?_⟩, ?_⟩
  · rw [mem_singleton.mp hoth]
    exact le_refl _
  · rw [mem_singleton.mp hoth]
    exact le_refl _
  · simp [openCandle]

variable {bar : ReplayBar} {rows : List Bar}

theorem growCandle_summarizes (h : bar.Summarizes rows) (row : Bar) : (growCandle bar row).Summarizes (rows ++ [row]) := by
  have hhigh : (growCandle bar row).high = max bar.high row.high := by
    unfold growCandle
    split
    · rename_i hhigher
      exact (max_eq_right (le_of_lt hhigher)).symm
    · rename_i hnot
      exact (max_eq_left (not_lt.mp hnot)).symm
  have hlow : (growCandle bar row).low = min bar.low row.low := by
    unfold growCandle
    dsimp only
    split
    · rename_i hlower
      exact (min_eq_right (le_of_lt hlower)).symm
    · rename_i hnot
      exact (min_eq_left (not_lt.mp hnot)).symm
  refine ⟨?_, ?_, ⟨?_, ?_⟩, ⟨?_, ?_⟩, ?_⟩
  · cases rows with
    | nil => exact absurd h.opens (by simp)
    | cons => exact h.opens
  · rw [getLast?_concat]
    rfl
  · rw [hhigh, map_append]
    rcases max_choice bar.high row.high with hmax | hmax
    · rw [hmax]
      exact mem_append_left _ h.highest.1
    · rw [hmax]
      exact mem_append_right _ mem_cons_self
  · intro other hoth
    rw [hhigh]
    rcases mem_append.mp hoth with hold | hnew
    · exact le_max_of_le_left (h.highest.2 other hold)
    · rw [mem_singleton.mp hnew]
      exact le_max_right _ _
  · rw [hlow, map_append]
    rcases min_choice bar.low row.low with hmin | hmin
    · rw [hmin]
      exact mem_append_left _ h.lowest.1
    · rw [hmin]
      exact mem_append_right _ mem_cons_self
  · intro other hoth
    rw [hlow]
    rcases mem_append.mp hoth with hold | hnew
    · exact min_le_of_left_le (h.lowest.2 other hold)
    · rw [mem_singleton.mp hnew]
      exact min_le_right _ _
  · rw [map_append, sum_append, map_singleton, sum_singleton, ← h.total]
    rfl

/-- Closing a candle changes nothing it says. -/
theorem ReplayBar.Summarizes.closed (h : bar.Summarizes rows) (complete : Bool) :
    ({ bar with complete := complete } : ReplayBar).Summarizes rows :=
  ⟨h.opens, h.closes, h.highest, h.lowest, h.total⟩

theorem coalesceBarUpserts_eq (upserts : List ReplayBar) : coalesceBarUpserts upserts = compact (·.time) upserts := rfl

/-! ## One row -/

section Row

variable {timeframe : Timeframe} {state : AggregateState} {row : Bar}

/-- What a row does before it is known whether it closes its candle: the candle it closes before its own, and its own. -/
def touchCandle (state : AggregateState) (start : Int) (row : Bar) : List ReplayBar × ReplayBar :=
  match state.current with
  | none => ([], openCandle start row)
  | some current =>
    if current.time = start then ([], growCandle current row)
    else if current.complete then ([], openCandle start row)
    else ([{ current with complete := true }], openCandle start row)

theorem aggregateRow_eq (state : AggregateState) (timeframe : Timeframe) (row : Bar) :
    ∃ complete, aggregateRow state timeframe row
      = ((touchCandle state (bucketStart timeframe row.openTime) row).1
          ++ [{ (touchCandle state (bucketStart timeframe row.openTime) row).2 with complete := complete }],
        { (touchCandle state (bucketStart timeframe row.openTime) row).2 with complete := complete }) := by
  have heq :
        aggregateRow state timeframe row = ((touchCandle state (bucketStart timeframe row.openTime) row).1
          ++ [if row.openTime + row.intervalSeconds * second < (replayBucket row.openTime timeframe).2
              then (touchCandle state (bucketStart timeframe row.openTime) row).2
              else { (touchCandle state (bucketStart timeframe row.openTime) row).2 with complete := true }],
        if row.openTime + row.intervalSeconds * second < (replayBucket row.openTime timeframe).2
        then (touchCandle state (bucketStart timeframe row.openTime) row).2
        else { (touchCandle state (bucketStart timeframe row.openTime) row).2 with complete := true }) := rfl
  rw [heq]
  split
  · exact ⟨_, rfl⟩
  · exact ⟨_, rfl⟩

theorem touchCandle_same {current : ReplayBar} {start : Int} (hcurr : state.current = some current) (h : current.time = start) :
    touchCandle state start row = ([], growCandle current row) := by
  unfold touchCandle
  rw [hcurr]
  exact if_pos h

/-- The candle before the row's is closed now, if it was not. -/
theorem touchCandle_later {current : ReplayBar} {start : Int} (hcurr : state.current = some current) (h : current.time ≠ start) :
    (touchCandle state start row).2 = openCandle start row ∧
      ((current.complete = true ∧ (touchCandle state start row).1 = []) ∨
        (touchCandle state start row).1 = [{ current with complete := true }]) := by
  unfold touchCandle
  rw [hcurr]
  dsimp only
  rw [if_neg h]
  split
  · rename_i hcmpl
    exact ⟨rfl, .inl ⟨hcmpl, rfl⟩⟩
  · exact ⟨rfl, .inr rfl⟩

end Row

/-! ## All rows -/

/-- What was sent last of a bucket: nothing if it has no row, else a candle of its rows, and a closed one if the bucket is over. -/
inductive SentOf (rows : List Bar) (finished : Prop) : Option ReplayBar → Prop where
  | nothing (empty : rows = []) : SentOf rows finished none
  | candle (bar : ReplayBar) (summarizes : bar.Summarizes rows) (closed : finished → bar.complete = true) : SentOf rows finished (some bar)

theorem SentOf.mono {finished less : Prop} {sent : Option ReplayBar} (h : SentOf rows finished sent) (hless : less → finished) :
    SentOf rows less sent := by
  cases h with
  | nothing empty => exact .nothing empty
  | candle bar summarizes closed => exact .candle bar summarizes fun h => closed (hless h)

/-- What the candles show once the rows up to `last` are folded. -/
structure FoldedTo (timeframe : Timeframe) (rows : List Bar) (last : Bar) (state : AggregateState) (upserts : List ReplayBar) : Prop where
  current : ∃ bar, state = ⟨last.seq, some bar⟩ ∧ bar.time = bucketStart timeframe last.openTime ∧
    lastUnder (·.time) upserts bar.time = some bar
  sent : ∀ start, SentOf (rowsIn timeframe start rows) (start ≠ bucketStart timeframe last.openTime)
    (lastUnder (·.time) upserts start)

theorem rowsIn_concat (timeframe : Timeframe) (start : Int) (rows : List Bar) (row : Bar) :
    rowsIn timeframe start (rows ++ [row])
      = if bucketStart timeframe row.openTime = start then rowsIn timeframe start rows ++ [row] else rowsIn timeframe start rows := by
  unfold rowsIn
  by_cases h : bucketStart timeframe row.openTime = start
  · simp [h]
  · simp [h]

variable {upserts : List ReplayBar} {candle : ReplayBar}

theorem foldedTo_first (timeframe : Timeframe) (row : Bar)
    (h : aggregateRow newAggregateState timeframe row = (upserts, candle)) :
    FoldedTo timeframe [row] row ⟨row.seq, some candle⟩ upserts := by
  obtain ⟨complete, hrow⟩ := aggregateRow_eq newAggregateState timeframe row
  rw [hrow] at h
  cases h
  have hsin : ∀ start, lastUnder (·.time) [{ openCandle (bucketStart timeframe row.openTime) row with complete := complete }] start
      = if bucketStart timeframe row.openTime = start
        then some { openCandle (bucketStart timeframe row.openTime) row with complete := complete } else none := fun start =>
    @lastUnder_concat _ _ _ _ [] _ _
  refine ⟨⟨_, rfl, rfl, ?_⟩, fun start => ?_⟩
  · exact (hsin _).trans (if_pos rfl)
  · have hrows := rowsIn_concat timeframe start [] row
    rw [nil_append] at hrows
    rw [hrows]
    show SentOf _ _ (lastUnder _ [{ openCandle (bucketStart timeframe row.openTime) row with complete := complete }] start)
    rw [hsin]
    by_cases hstart : bucketStart timeframe row.openTime = start
    · rw [if_pos hstart, if_pos hstart]
      exact .candle _ ((openCandle_summarizes _ row).closed complete) fun hover => absurd hstart.symm hover
    · rw [if_neg hstart, if_neg hstart]
      exact .nothing rfl

variable {timeframe : Timeframe} {state : AggregateState}

/-- **A row grows the candle of its bucket, or closes the last one and opens its own.** -/
theorem FoldedTo.row {last row : Bar} {upserts more : List ReplayBar} (h : FoldedTo timeframe rows last state upserts)
    (hbef : ∀ other ∈ rows, bucketStart timeframe other.openTime ≤ bucketStart timeframe last.openTime)
    (haft : bucketStart timeframe last.openTime ≤ bucketStart timeframe row.openTime)
    (hrow : aggregateRow state timeframe row = (more, candle)) :
    FoldedTo timeframe (rows ++ [row]) row ⟨row.seq, some candle⟩ (upserts ++ more) := by
  obtain ⟨current, hst, htime, hcurr⟩ := h.current
  have hstateCurrent : state.current = some current := by rw [hst]
  obtain ⟨complete, htouch⟩ := aggregateRow_eq state timeframe row
  rw [htouch] at hrow
  by_cases hsame : bucketStart timeframe last.openTime = bucketStart timeframe row.openTime
  · rw [touchCandle_same hstateCurrent (htime.trans hsame)] at hrow
    cases hrow
    have hgrown : ({ growCandle current row with complete := complete } : ReplayBar).time = bucketStart timeframe row.openTime :=
      htime.trans hsame
    refine ⟨⟨_, rfl, hgrown, ?_⟩, fun start => ?_⟩
    · rw [nil_append, lastUnder_concat]
      exact if_pos rfl
    · rw [nil_append, lastUnder_concat, hgrown, rowsIn_concat]
      by_cases hstart : bucketStart timeframe row.openTime = start
      · rw [if_pos hstart, if_pos hstart]
        -- The rows of the bucket so far are those of the current candle.
        have hsent := h.sent start
        rw [← hstart, ← hsame, ← htime, hcurr] at hsent
        cases hsent with
        | candle _ summarizes =>
          rw [htime, hsame, hstart] at summarizes
          exact .candle _ ((growCandle_summarizes summarizes row).closed complete) fun hover => absurd hstart.symm hover
      · rw [if_neg hstart, if_neg hstart]
        have hsent := h.sent start
        rw [hsame] at hsent
        exact hsent
  · have hne : current.time ≠ bucketStart timeframe row.openTime := fun heq => hsame (htime.symm.trans heq)
    obtain ⟨hcandle, hclosing⟩ := @touchCandle_later _ row _ _ hstateCurrent hne
    rw [hcandle] at hrow
    cases hrow
    -- Whatever was open before is closed now.
    have hover : ∀ start, SentOf (rowsIn timeframe start rows) True
        (lastUnder (·.time) (upserts ++ (touchCandle state (bucketStart timeframe row.openTime) row).1) start) := by
      intro start
      have hsent := h.sent start
      by_cases hstart : current.time = start
      · rw [← hstart, hcurr] at hsent
        rw [← hstart]
        cases hsent with
        | candle _ summarizes =>
          rcases hclosing with ⟨hcmpl, hnone⟩ | hclosing
          · rw [hnone, append_nil, hcurr]
            exact .candle _ summarizes fun _ => hcmpl
          · rw [hclosing, lastUnder_concat]
            rw [if_pos rfl]
            exact .candle _ (summarizes.closed true) fun _ => rfl
      · have hsame : lastUnder (·.time) (upserts ++ (touchCandle state (bucketStart timeframe row.openTime) row).1) start
            = lastUnder (·.time) upserts start := by
          rcases hclosing with ⟨-, hnone⟩ | hclosing
          · rw [hnone, append_nil]
          · rw [hclosing, lastUnder_concat]
            exact if_neg hstart
        rw [hsame]
        have hgone : start ≠ bucketStart timeframe last.openTime := fun heq => hstart (htime.trans heq.symm)
        exact hsent.mono fun _ => hgone
    have hopened :
        ∀ start, lastUnder (·.time) (upserts ++ ((touchCandle state (bucketStart timeframe row.openTime) row).1
          ++ [{ openCandle (bucketStart timeframe row.openTime) row with complete := complete }])) start
        = if bucketStart timeframe row.openTime = start
          then some { openCandle (bucketStart timeframe row.openTime) row with complete := complete }
          else lastUnder (·.time) (upserts ++ (touchCandle state (bucketStart timeframe row.openTime) row).1) start := by
      intro start
      rw [← append_assoc]
      exact lastUnder_concat
    refine ⟨⟨_, rfl, rfl, (hopened _).trans (if_pos rfl)⟩, fun start => ?_⟩
    · rw [hopened, rowsIn_concat]
      by_cases hstart : bucketStart timeframe row.openTime = start
      · rw [if_pos hstart, if_pos hstart]
        have hnone : rowsIn timeframe start rows = [] := by
          unfold rowsIn
          rw [filter_eq_nil_iff]
          intro other hoth heq
          have hle := hbef other hoth
          have heq := of_decide_eq_true heq
          omega
        rw [hnone, nil_append]
        exact .candle _ ((openCandle_summarizes _ row).closed complete) fun hgone => absurd hstart.symm hgone
      · rw [if_neg hstart, if_neg hstart]
        exact (hover start).mono fun _ => trivial

/-- The rows are in the order of the feed: later ones have higher numbers and later times. -/
def InOrder (rows : List Bar) : Prop := rows.Pairwise fun a b => a.seq < b.seq ∧ a.openTime < b.openTime

theorem aggregateSourceBars_singleton {row : Bar} (hseq : state.lastSourceSeq < row.seq)
    (h : aggregateRow state timeframe row = (upserts, candle)) :
    aggregateSourceBars state timeframe [row] = some (⟨row.seq, some candle⟩, upserts) := by
  rw [aggregateSourceBars, if_neg (not_le.mpr hseq), h]
  show some (_, upserts ++ []) = _
  rw [append_nil]

/-- **All rows are folded, and what was sent last of every bucket is the candle of its rows.** -/
theorem aggregate_shown (timeframe : Timeframe) {last : Bar} (h : InOrder (rows ++ [last])) :
    ∃ state upserts, aggregateSourceBars newAggregateState timeframe (rows ++ [last]) = some (state, upserts) ∧
      FoldedTo timeframe (rows ++ [last]) last state upserts := by
  induction rows using reverseRecOn generalizing last with
  | nil =>
    rcases hrow : aggregateRow newAggregateState timeframe last with ⟨upserts, candle⟩
    have hseq : newAggregateState.lastSourceSeq < last.seq := by
      show (-1 : Int) < last.seq
      omega
    exact ⟨_, upserts, aggregateSourceBars_singleton hseq hrow, foldedTo_first timeframe last hrow⟩
  | append_singleton rows before ih =>
    obtain ⟨hold, -, hnew⟩ := pairwise_append.mp h
    obtain ⟨state, upserts, hfold, hshn⟩ := ih hold
    obtain ⟨current, hst, -⟩ := hshn.current
    obtain ⟨hseq, htime⟩ := hnew before (mem_append_right _ mem_cons_self) last mem_cons_self
    have hlat : state.lastSourceSeq < last.seq := by
      rw [hst]
      show (before.seq : Int) < last.seq
      omega
    rcases hrow : aggregateRow state timeframe last with ⟨more, candle⟩
    refine ⟨_, _, aggregateSourceBars_append.mpr ⟨_, _, _, hfold, aggregateSourceBars_singleton hlat hrow, rfl⟩, ?_⟩
    refine hshn.row (fun other hoth => ?_) (bucketStart_mono timeframe htime.le) hrow
    refine bucketStart_mono timeframe ?_
    rcases mem_append.mp hoth with hmem | hmem
    · exact ((pairwise_append.mp hold).2.2 other hmem before mem_cons_self).2.le
    · rw [mem_singleton.mp hmem]

structure CandlesOf (timeframe : Timeframe) (rows : List Bar) (bars : List ReplayBar) : Prop where
  ordered : bars.Pairwise fun a b => a.time < b.time
  covers : ∀ row ∈ rows, ∃ bar ∈ bars, bar.time = (replayBucket row.openTime timeframe).1
  made : ∀ bar ∈ bars, bar.Summarizes (rowsIn timeframe bar.time rows)
  closed : ∀ bar ∈ bars.dropLast, bar.complete = true

theorem FoldedTo.candles {last : Bar} (h : FoldedTo timeframe rows last state upserts)
    (hlast : ∀ row ∈ rows, bucketStart timeframe row.openTime ≤ bucketStart timeframe last.openTime) :
    CandlesOf timeframe rows (coalesceBarUpserts upserts) := by
  have hsent : ∀ bar ∈ coalesceBarUpserts upserts, bar.Summarizes (rowsIn timeframe bar.time rows) ∧
      (bar.time ≠ bucketStart timeframe last.openTime → bar.complete = true) := by
    intro bar hbar
    have hbar : lastUnder (·.time) upserts bar.time = some bar := mem_compact.mp hbar
    have hsent := h.sent bar.time
    rw [hbar] at hsent
    cases hsent with
    | candle _ summarizes closed => exact ⟨summarizes, closed⟩
  have hordd : (coalesceBarUpserts upserts).Pairwise fun a b => a.time < b.time := sorted_compact
  refine ⟨hordd, fun row hrow => ?_, fun bar hbar => (hsent bar hbar).1, fun bar hbar => ?_⟩
  · cases hbar : lastUnder (·.time) upserts (bucketStart timeframe row.openTime) with
    | none =>
      have hsent := h.sent (bucketStart timeframe row.openTime)
      rw [hbar] at hsent
      cases hsent with
      | nothing empty =>
        exact absurd (decide_eq_true rfl) (filter_eq_nil_iff.mp empty row hrow)
    | some bar =>
      obtain ⟨-, htime⟩ := lastUnder_some hbar
      refine ⟨bar, mem_compact.mpr ?_, htime⟩
      rw [htime]
      exact hbar
  · -- The last candle is of a later bucket, and no bucket is later than that of the last row.
    obtain ⟨hsummary, hclsd⟩ := hsent bar (dropLast_subset _ hbar)
    refine hclsd fun htime => ?_
    have hne : coalesceBarUpserts upserts ≠ [] := by
      intro hnil
      rw [hnil] at hbar
      cases hbar
    have hspl := dropLast_append_getLast hne
    have hlat : bar.time < ((coalesceBarUpserts upserts).getLast hne).time := by
      rw [← hspl] at hordd
      exact (pairwise_append.mp hordd).2.2 bar hbar _ mem_cons_self
    have hfinal := (hsent _ (getLast_mem hne)).1.highest.1
    obtain ⟨row, hrow, -⟩ := mem_map.mp hfinal
    obtain ⟨hmem, hstart⟩ := mem_filter.mp hrow
    have hstart := of_decide_eq_true hstart
    have hle := hlast row hmem
    omega

/-! ## Rows in parts -/

/-- A track between two parts of its rows: what is stored, the rows revealed, the aggregate they left and every upsert
sent, those of a part coalesced. -/
structure Progress where
  stored : StoredAggregate
  revealed : List Bar
  state : AggregateState
  sent : List ReplayBar

/-- Before any row. -/
def Progress.start : Progress := ⟨marshalAggregateState newAggregateState, [], newAggregateState, []⟩

/-- The aggregate a command goes on from. -/
def Progress.current (timeframe : Timeframe) (progress : Progress) : Option AggregateState :=
  progress.stored.currentAggregateState timeframe ((progress.revealed.getLast?.map fun row => (row.seq : Int)).getD (-1))
    progress.revealed

/-- The next part of the rows, from the aggregate that is read. -/
def Progress.advance (read : Progress → Option AggregateState) (timeframe : Timeframe) (progress : Progress) (part : List Bar) :
    Option Progress := do
  let state ← read progress
  let (state, upserts) ← aggregateSourceBars state timeframe part
  return ⟨marshalAggregateState state, progress.revealed ++ part, state, progress.sent ++ coalesceBarUpserts upserts⟩

/-- What was done in parts is what the revealed rows come to at once. -/
structure Progress.Follows (timeframe : Timeframe) (progress : Progress) : Prop where
  stored : progress.stored = marshalAggregateState progress.state
  folded : ∃ upserts, aggregateSourceBars newAggregateState timeframe progress.revealed = some (progress.state, upserts) ∧
    ∀ time, lastUnder (·.time) progress.sent time = lastUnder (·.time) upserts time

theorem start_follows (timeframe : Timeframe) : Progress.start.Follows timeframe := ⟨rfl, [], rfl, fun _ => rfl⟩

section Progress

variable {timeframe : Timeframe} {progress : Progress} {read : Progress → Option AggregateState} {rows part : List Bar}
  {parts : List (List Bar)}

section Follows

variable (h : progress.Follows timeframe) (hord : InOrder progress.revealed)
include h hord

/-- The current candle is that of the bucket of the last row. -/
theorem Progress.Follows.state_cases :
    (progress.revealed = [] ∧ progress.state = newAggregateState) ∨
      ∃ last bar, progress.revealed.getLast? = some last ∧ progress.state = ⟨last.seq, some bar⟩ ∧
        bar.time = bucketStart timeframe last.openTime := by
  obtain ⟨upserts, hfold, -⟩ := h.folded
  rcases eq_nil_or_concat progress.revealed with hnil | ⟨front, last, hrows⟩
  · rw [hnil] at hfold
    exact .inl ⟨hnil, (Prod.mk.inj (Option.some.inj hfold)).1.symm⟩
  · rw [concat_eq_append] at hrows
    rw [hrows] at hfold hord
    obtain ⟨state, sent, hshn, hcandles⟩ := aggregate_shown timeframe hord
    rw [hfold] at hshn
    cases hshn
    obtain ⟨bar, hst, htime, -⟩ := hcandles.current
    refine .inr ⟨last, bar, ?_, hst, htime⟩
    rw [hrows, getLast?_concat]

theorem Progress.Follows.whole (hcurr : progress.state.current = some bar) : bar.time % second = 0 := by
  rcases h.state_cases hord with ⟨-, hst⟩ | ⟨last, candle, -, hst, htime⟩
  · rw [hst] at hcurr
    cases hcurr
  · rw [hst] at hcurr
    cases hcurr
    rw [htime, bucketStart_eq]
    exact Int.mul_emod_left _ _

/-- **The next command goes on from the aggregate the last one left.** -/
theorem Progress.Follows.current : progress.current timeframe = some progress.state := by
  obtain ⟨upserts, hfold, -⟩ := h.folded
  have hbat : (aggregateRevealedBars timeframe progress.revealed).map (·.2) = some progress.state := by
    unfold aggregateRevealedBars
    rw [hfold]
    rfl
  unfold Progress.current
  rw [h.stored]
  refine currentAggregateState_marshal (fun bar hbar => h.whole hord hbar) ?_ (fun bar hbar => ?_) hbat
  · rcases h.state_cases hord with ⟨hnil, hst⟩ | ⟨last, candle, hlast, hst, -⟩
    · rw [hnil, hst]
      rfl
    · rw [hlast, hst]
      rfl
  · rcases h.state_cases hord with ⟨-, hst⟩ | ⟨last, candle, hlast, hst, -⟩
    · rw [hst] at hbar
      cases hbar
    · rw [hlast]
      show (0 : Int) ≤ last.seq
      omega

/-- The same without the rows to fall back on, where the bucket of every row can be written. -/
theorem Progress.Follows.parsed
    (hyears : ∀ row ∈ progress.revealed, 0 ≤ yearOf (bucketStart timeframe row.openTime) ∧
      yearOf (bucketStart timeframe row.openTime) ≤ 9999) :
    parseAggregateState progress.stored = some progress.state := by
  rw [h.stored]
  refine parse_marshal (fun bar hbar => h.whole hord hbar) fun bar hbar => ?_
  rcases h.state_cases hord with ⟨-, hst⟩ | ⟨last, candle, hlast, hst, htime⟩
  · rw [hst] at hbar
    cases hbar
  · rw [hst] at hbar
    cases hbar
    unfold ReplayBar.Writable
    rw [htime]
    exact hyears last (mem_of_getLast? hlast)

end Follows

theorem InOrder.left {more : List Bar} (h : InOrder (rows ++ more)) : InOrder rows := (pairwise_append.mp h).1

theorem InOrder.folds (h : InOrder rows) :
    ∃ state upserts, aggregateSourceBars newAggregateState timeframe rows = some (state, upserts) := by
  rcases eq_nil_or_concat rows with rfl | ⟨front, last, hrows⟩
  · exact ⟨_, _, rfl⟩
  · rw [concat_eq_append] at hrows
    rw [hrows] at h ⊢
    obtain ⟨state, upserts, hfold, -⟩ := aggregate_shown timeframe h
    exact ⟨state, upserts, hfold⟩

theorem Progress.Follows.advance (h : progress.Follows timeframe) (hread : read progress = some progress.state)
    (hord : InOrder (progress.revealed ++ part)) :
    ∃ next, progress.advance read timeframe part = some next ∧ next.Follows timeframe ∧ next.revealed = progress.revealed ++ part := by
  obtain ⟨upserts, hfold, hsent⟩ := h.folded
  obtain ⟨final, all, hall⟩ := @InOrder.folds timeframe _ hord
  obtain ⟨mid, first, later, hfs, hlat, hspl⟩ := aggregateSourceBars_append.mp hall
  rw [hfold] at hfs
  cases hfs
  refine ⟨⟨marshalAggregateState final, progress.revealed ++ part, final, progress.sent ++ coalesceBarUpserts later⟩, ?_,
    ⟨rfl, all, hall, fun time => ?_⟩, rfl⟩
  · unfold Progress.advance
    rw [hread]
    show (aggregateSourceBars progress.state timeframe part >>= _) = _
    rw [hlat]
    rfl
  · rw [coalesceBarUpserts_eq, hspl, lastUnder_append, lastUnder_append, lastUnder_compact, hsent]

theorem Progress.Follows.run (h : progress.Follows timeframe) (hord : InOrder (progress.revealed ++ parts.flatten))
    (hread : ∀ reached : Progress, reached.Follows timeframe → reached.revealed <+: progress.revealed ++ parts.flatten →
      read reached = some reached.state) :
    ∃ final, parts.foldlM (Progress.advance read timeframe) progress = some final ∧ final.Follows timeframe ∧
      final.revealed = progress.revealed ++ parts.flatten := by
  induction parts generalizing progress with
  | nil => exact ⟨progress, rfl, h, by rw [flatten_nil, append_nil]⟩
  | cons part parts ih =>
    rw [flatten_cons, ← append_assoc] at hord hread ⊢
    have hhere := hread progress h ⟨part ++ parts.flatten, by rw [append_assoc]⟩
    obtain ⟨next, hnext, hfoll, hrevl⟩ := h.advance hhere hord.left
    rw [← hrevl] at hord hread
    obtain ⟨final, hfinal, hend, hrows⟩ := ih hfoll hord hread
    refine ⟨final, ?_, hend, by rw [hrows, hrevl]⟩
    rw [foldlM_cons, hnext]
    exact hfinal

theorem Progress.Follows.coalesced (h : progress.Follows timeframe) :
    aggregateRevealedBars timeframe progress.revealed = some (coalesceBarUpserts progress.sent, progress.state) := by
  obtain ⟨upserts, hfold, hsent⟩ := h.folded
  have hsame : coalesceBarUpserts progress.sent = coalesceBarUpserts upserts := compact_congr hsent
  unfold aggregateRevealedBars
  rw [hfold, hsame]
  rfl

end Progress

theorem InOrder.candles {bars : List ReplayBar}
    (h : InOrder rows) (hbat : aggregateRevealedBars timeframe rows = some (bars, state)) : CandlesOf timeframe rows bars := by
  rcases eq_nil_or_concat rows with rfl | ⟨front, last, hrows⟩
  · have hnone : coalesceBarUpserts [] = [] := mergeSort_nil
    cases hbat
    rw [hnone]
    refine ⟨List.Pairwise.nil, fun row hrow => ?_, fun bar hbar => ?_, fun bar hbar => ?_⟩
    · cases hrow
    · cases hbar
    · cases hbar
  · rw [concat_eq_append] at hrows
    rw [hrows] at h hbat ⊢
    obtain ⟨final, upserts, hfold, hshn⟩ := aggregate_shown timeframe h
    unfold aggregateRevealedBars at hbat
    rw [hfold] at hbat
    cases hbat
    refine hshn.candles fun row hrow => bucketStart_mono timeframe ?_
    rcases mem_append.mp hrow with hmem | hmem
    · exact ((pairwise_append.mp h).2.2 row hmem last mem_cons_self).2.le
    · rw [mem_singleton.mp hmem]

/--
**Folding rows in parts comes to what folding them at once does**, and that is the candles of the rows: with the aggregate
read from what is stored or folded anew, and, where the years can be written, from what is stored alone.
-/
theorem progressive_eq_batch (timeframe : Timeframe) {rows : List Bar} (horder : InOrder rows) {parts : List (List Bar)}
    (hparts : parts.flatten = rows) :
    ∃ bars state, aggregateRevealedBars timeframe rows = some (bars, state) ∧ CandlesOf timeframe rows bars ∧
      (∃ progress, parts.foldlM (Progress.advance (Progress.current timeframe) timeframe) Progress.start = some progress ∧
        coalesceBarUpserts progress.sent = bars ∧ progress.state = state) ∧
      ((∀ row ∈ rows, 0 ≤ yearOf (replayBucket row.openTime timeframe).1 ∧ yearOf (replayBucket row.openTime timeframe).1 ≤ 9999) →
        ∃ progress, parts.foldlM (Progress.advance (fun progress => parseAggregateState progress.stored) timeframe) Progress.start
            = some progress ∧ coalesceBarUpserts progress.sent = bars ∧ progress.state = state) := by
  have hrevl : Progress.start.revealed ++ parts.flatten = rows := hparts
  have hall : InOrder (Progress.start.revealed ++ parts.flatten) := by
    rw [hrevl]
    exact horder
  -- However the aggregate is read, the parts come to the same as the rows at once.
  have hrun : ∀ read : Progress → Option AggregateState,
      (∀ reached : Progress, reached.Follows timeframe → reached.revealed <+: rows → read reached = some reached.state) →
      ∃ progress, parts.foldlM (Progress.advance read timeframe) Progress.start = some progress ∧
        aggregateRevealedBars timeframe rows = some (coalesceBarUpserts progress.sent, progress.state) := by
    intro read hread
    rw [← hrevl] at hread
    obtain ⟨progress, hprog, hfoll, hrows⟩ := (start_follows timeframe).run hall hread
    have hbat := hfoll.coalesced
    rw [hrows, hrevl] at hbat
    exact ⟨progress, hprog, hbat⟩
  have hfrt : ∀ reached : Progress, reached.revealed <+: rows → InOrder reached.revealed := fun reached hle =>
    List.Pairwise.sublist hle.sublist horder
  obtain ⟨progress, hprog, hbat⟩ := hrun _ fun reached hfoll hle => hfoll.current (hfrt reached hle)
  refine ⟨_, _, hbat, horder.candles hbat, ⟨progress, hprog, rfl, rfl⟩, fun hyears => ?_⟩
  obtain ⟨other, hoth, hsame⟩ := hrun _ fun reached hfoll hle =>
    hfoll.parsed (hfrt reached hle) fun row hrow => hyears row (hle.subset hrow)
  rw [hbat] at hsame
  obtain ⟨hbars, hst⟩ := Prod.mk.inj (Option.some.inj hsame)
  exact ⟨other, hoth, hbars.symm, hst.symm⟩

def fourMinutes : List Bar :=
  (List.range 4).map fun i => ⟨i, i * 60 * second, 60, i, i + 1, i, i + 1, 1⟩

/-- Three of them make a candle, in two parts, and the fourth begins the next. -/
theorem fourMinutes_in_parts : InOrder fourMinutes ∧
    ∃ bars state, aggregateRevealedBars .m3 fourMinutes = some (bars, state) ∧ CandlesOf .m3 fourMinutes bars ∧
      ∃ progress, [fourMinutes.take 2, fourMinutes.drop 2].foldlM (Progress.advance (Progress.current .m3) .m3) Progress.start
        = some progress ∧ coalesceBarUpserts progress.sent = bars ∧ progress.state = state := by
  have hord : InOrder fourMinutes := by
    unfold InOrder
    decide
  have hparts : [fourMinutes.take 2, fourMinutes.drop 2].flatten = fourMinutes := by
    rw [List.flatten_cons, List.flatten_cons, List.flatten_nil, List.append_nil, List.take_append_drop]
  obtain ⟨bars, state, hbat, hcandles, hprog, -⟩ := progressive_eq_batch .m3 hord hparts
  exact ⟨hord, bars, state, hbat, hcandles, hprog⟩

end MarketLens.Replay
