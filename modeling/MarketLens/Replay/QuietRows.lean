import MarketLens.Replay.Equity

/-!
# Rows that trigger nothing

Whether a revealed row takes a position out or fills an order can be told from the
ledger the step starts from: until something triggers, rows only mark the open
positions, and a mark changes nothing that triggers look at. A step that trades
nothing has done no more than mark each track it moved at the row it moved to.
-/

namespace MarketLens.Replay

open List Bool Journal Fallible Table

variable {symbol : String}

namespace Ledger

variable {ledger after : Ledger} {drafts : List EventDraft} {trackId : Uuid} {bar : Bar}

/-- A row takes a position of its track out by a bracket that has not yet done so. -/
def bracketFires (ledger : Ledger) (bar : Bar) (p : PositionRow) : Bool :=
  (bracketPrice p bar).isSome &&
    !ledger.orders.any fun row => row.clientOrderId = bracketClientId p bar

/-- A row fills an order that it has not yet filled. -/
def orderFires (ledger : Ledger) (bar : Bar) (order : OrderRow) : Bool :=
  (triggerPrice order bar).isSome &&
    !ledger.fills.any fun fill => fill.orderId = order.id && fill.datasetSeq = bar.seq

/-- A row triggers a bracket or an order of its track. -/
def triggers (ledger : Ledger) (trackId : Uuid) (bar : Bar) : Bool :=
  ledger.positions.any (fun p => p.trackId = trackId && p.netQuantity ≠ 0 &&
      ledger.bracketFires bar p) ||
    ledger.orders.any fun order => order.trackId = trackId && order.status.active &&
      ledger.orderFires bar order

/-- In terms of the positions and orders a row is processed with. -/
theorem triggers_eq_false : ledger.triggers trackId bar = false ↔
    (∀ p ∈ ledger.openPositions trackId, ledger.bracketFires bar p = false) ∧
      ∀ order ∈ ledger.pendingOrders trackId, ledger.orderFires bar order = false := by
  unfold triggers
  rw [or_eq_false_iff, any_eq_false, any_eq_false]
  refine and_congr ?_ ?_
  · constructor
    · intro hnone p hp
      obtain ⟨hmem, htrk, hopen⟩ := mem_openPositions hp
      have := hnone p hmem
      rwa [decide_eq_true htrk, decide_eq_true hopen, Bool.true_and, Bool.true_and, Bool.not_eq_true] at this
    · intro hnone p hmem hfires
      rw [and_eq_true, and_eq_true, decide_eq_true_iff, decide_eq_true_iff] at hfires
      have hp : p ∈ ledger.openPositions trackId := by
        unfold openPositions
        rw [mem_mergeSort, mem_filter, and_eq_true, decide_eq_true_iff,
          decide_eq_true_iff]
        exact ⟨hmem, hfires.1⟩
      rw [hnone p hp] at hfires
      cases hfires.2
  · constructor
    · intro hnone order hord
      obtain ⟨hmem, htrk, hactv⟩ := mem_pendingOrders.mp hord
      have := hnone order hmem
      rwa [decide_eq_true htrk, hactv, Bool.true_and, Bool.true_and, Bool.not_eq_true] at this
    · intro hnone order hmem hfires
      rw [and_eq_true, and_eq_true, decide_eq_true_iff] at hfires
      rw [hnone order (mem_pendingOrders.mpr ⟨hmem, hfires.1⟩)] at hfires
      cases hfires.2

/-! ## One row -/

theorem processBracket_silent {p : PositionRow} (h : processBracket bar ledger p = .ok (drafts, after)) :
    (drafts = [] ↔ ledger.bracketFires bar p = false) ∧ (drafts = [] → after = ledger) := by
  unfold processBracket at h
  unfold bracketFires
  split at h
  · rename_i hprc
    cases h
    rw [hprc]
    exact ⟨iff_of_true rfl rfl, fun _ => rfl⟩
  · rename_i price kind hprc
    rw [hprc, Option.isSome_some, Bool.true_and, Bool.not_eq_false']
    split at h
    · rename_i htak
      cases h
      exact ⟨iff_of_true rfl htak, fun _ => rfl⟩
    · rename_i hfree
      obtain ⟨⟨id, placed⟩, -, h⟩ := bind_ok.mp h
      obtain ⟨⟨filled, closed⟩, -, h⟩ := bind_ok.mp h
      cases h
      exact ⟨iff_of_false (cons_ne_nil _ _) hfree, nofun⟩

theorem processOrder_silent {order : OrderRow} (h : processOrder symbol bar ledger order = .ok (drafts, after)) :
    (drafts = [] ↔ ledger.orderFires bar order = false) ∧ (drafts = [] → after = ledger) := by
  unfold orderFires
  cases hprc : triggerPrice order bar with
  | none =>
    unfold processOrder at h
    rw [hprc] at h
    cases h
    exact ⟨iff_of_true rfl rfl, fun _ => rfl⟩
  | some =>
    unfold processOrder at h
    rw [hprc] at h
    rw [Option.isSome_some, Bool.true_and, Bool.not_eq_false', any_eq_true]
    obtain ⟨-, -, ⟨⟨fill, hfill, hsame⟩, rfl, rfl⟩ | ⟨row, p, position, realized, base, hfld⟩⟩ :=
      fillOrder_ok h
    · refine ⟨iff_of_true rfl ⟨fill, hfill, ?_⟩, fun _ => rfl⟩
      rw [and_eq_true, decide_eq_true_iff, decide_eq_true_iff]
      exact hsame
    · have hdrfs : drafts ≠ [] := by
        rw [hfld.drafted]
        exact cons_ne_nil _ _
      refine ⟨iff_of_false hdrfs ?_, fun hnone => absurd hnone hdrfs⟩
      rintro ⟨fill, hfill, hsame⟩
      rw [and_eq_true, decide_eq_true_iff, decide_eq_true_iff] at hsame
      exact hfld.first fill hfill hsame

/-- A loop that leaves the ledger as long as it drafts nothing. -/
theorem collect_still {A : Type} {items : List A} (fires : Ledger → A → Bool)
    {round : Ledger → A → Except ReplayError (List EventDraft × Ledger)}
    (hrnd : ∀ now a entries next, round now a = .ok (entries, next) →
      (entries = [] ↔ fires now a = false) ∧ (entries = [] → next = now))
    (h : collect round ledger items = .ok (drafts, after)) :
    (drafts = [] ↔ ∀ a ∈ items, fires ledger a = false) ∧ (drafts = [] → after = ledger) := by
  have hloop := collect_silent (fun entries => entries = []) (fun now a => fires now a = false)
    (fun now _ => now) rfl (fun _ _ => append_eq_nil_iff) (fun _ _ _ => Iff.rfl)
    (fun now a entries next _ => hrnd now a entries next) h
  rwa [foldl_fixed] at hloop

theorem processRow_silent (h : processRow trackId symbol ledger bar = .ok (drafts, after)) :
    (drafts = [] ↔ ledger.triggers trackId bar = false) ∧ (drafts = [] → after = ledger.markToMarket trackId bar) := by
  obtain ⟨brackets, mid, fills, final, hbrks, hfills, rfl, rfl⟩ := processRow_ok h
  obtain ⟨hquiet, hmid⟩ := collect_still (fun now p => now.bracketFires bar p) (fun _ _ _ _ hrnd => processBracket_silent hrnd) hbrks
  rw [append_eq_nil_iff, triggers_eq_false, ← hquiet]
  obtain ⟨hquiet', hfinal⟩ := collect_still (fun now order => now.orderFires bar order)
    (fun _ _ _ _ hrnd => processOrder_silent hrnd) hfills
  constructor
  · refine and_congr_right fun hnone => ?_
    rw [hquiet', hmid hnone]
  · rintro ⟨hnone, hnone'⟩
    rw [hfinal hnone', hmid hnone]

/-! ## Marks -/

end Ledger

section
variable (p : PositionRow) (trackId : Uuid)

def PositionRow.markedOn (bar : Bar) : PositionRow :=
  if p.trackId = trackId && p.netQuantity ≠ 0 then { p with unrealizedPnl := p.mark bar.close } else p

theorem PositionRow.markedOn_again (first second : Bar) :
    (p.markedOn trackId first).markedOn trackId second = p.markedOn trackId second := by
  unfold PositionRow.markedOn
  by_cases hopen : (p.trackId = trackId && p.netQuantity ≠ 0) = true
  · rw [if_pos hopen, if_pos hopen, if_pos hopen]
    rfl
  · rw [if_neg hopen, if_neg hopen]

/-- A mark changes nothing but the unrealized profit. -/
theorem PositionRow.markedOn_same (bar : Bar) :
    ∃ unrealized, p.markedOn trackId bar = { p with unrealizedPnl := unrealized } := by
  unfold PositionRow.markedOn
  split
  · exact ⟨_, rfl⟩
  · exact ⟨p.unrealizedPnl, rfl⟩

end

namespace Ledger

variable {ledger after : Ledger} {drafts : List EventDraft} {trackId : Uuid} {bar : Bar}

theorem markToMarket_positions (ledger : Ledger) (trackId : Uuid) (bar : Bar) :
    (ledger.markToMarket trackId bar).positions = ledger.positions.map fun p => p.markedOn trackId bar := rfl

theorem markToMarket_account (ledger : Ledger) (trackId : Uuid) (bar : Bar) :
    (ledger.markToMarket trackId bar).account = ledger.account.map fun account =>
      { account with equity := account.balance + ((ledger.markToMarket trackId bar).positions.map (·.unrealizedPnl)).sum } := rfl

theorem any_marked {test : PositionRow → Bool} (ledger : Ledger) (trackId : Uuid) (bar : Bar)
    (htest : ∀ (p : PositionRow) unrealized, test { p with unrealizedPnl := unrealized } = test p) :
    (ledger.markToMarket trackId bar).positions.any test = ledger.positions.any test := by
  rw [markToMarket_positions, any_map]
  congr 1
  funext p
  obtain ⟨unrealized, hsame⟩ := p.markedOn_same trackId bar
  rw [Function.comp_apply, hsame]
  exact htest p unrealized

/-- A mark changes nothing that brackets and orders look at. -/
theorem markToMarket_triggers (ledger : Ledger) (trackId other : Uuid) (bar row : Bar) :
    (ledger.markToMarket trackId bar).triggers other row = ledger.triggers other row := by
  unfold triggers
  rw [any_marked ledger trackId bar fun _ _ => rfl]
  rfl

theorem markToMarket_again (ledger : Ledger) (trackId : Uuid) (first second : Bar) :
    (ledger.markToMarket trackId first).markToMarket trackId second = ledger.markToMarket trackId second := by
  have hposs : ((ledger.markToMarket trackId first).markToMarket trackId second).positions =
      (ledger.markToMarket trackId second).positions := by
    rw [markToMarket_positions, markToMarket_positions, markToMarket_positions, map_map]
    exact map_congr_left fun p _ => p.markedOn_again trackId first second
  refine Ledger.ext ?_ rfl rfl hposs rfl rfl
  rw [markToMarket_account, markToMarket_account, markToMarket_account, hposs, Option.map_map]
  rfl

/-- A track with nothing at work triggers nothing. -/
theorem triggers_of_inactive (h : ledger.hasActiveMarketState trackId = false) (bar : Bar) :
    ledger.triggers trackId bar = false := by
  unfold hasActiveMarketState at h
  unfold triggers
  rw [or_eq_false_iff, any_eq_false, any_eq_false] at h ⊢
  refine ⟨fun p hp hfires => h.2 p hp ?_, fun order hord hfires => h.1 order hord ?_⟩
  · rw [and_eq_true] at hfires
    exact hfires.1
  · rw [and_eq_true] at hfires
    exact hfires.1

/-! ## The rows of a step -/

theorem processRows_silent {front : List Bar} {last : Bar}
    (h : ledger.processRows trackId symbol (front ++ [last]) = .ok (drafts, after)) :
    (drafts = [] ↔ ∀ row ∈ front ++ [last], ledger.triggers trackId row = false) ∧
      (drafts = [] → after = if ledger.hasActiveMarketState trackId then
        ledger.markToMarket trackId last else ledger) := by
  unfold processRows at h
  split at h
  · rename_i hactv
    obtain ⟨hquiet, haft⟩ := collect_silent (fun entries => entries = [])
      (fun now row => now.triggers trackId row = false) (fun now row => now.markToMarket trackId row)
      rfl (fun _ _ => append_eq_nil_iff)
      (fun now row other => by rw [markToMarket_triggers])
      (fun _ _ _ _ _ hrnd => processRow_silent hrnd) h
    refine ⟨hquiet, fun hnone => ?_⟩
    rw [if_pos hactv, haft hnone, foldl_append, foldl_cons, foldl_nil]
    have hfold : ∀ (rows : List Bar) (now : Ledger),
        (rows.foldl (fun now row => now.markToMarket trackId row) now).markToMarket trackId last =
          now.markToMarket trackId last := by
      intro rows
      induction rows with
      | nil => exact fun _ => rfl
      | cons row rest ih =>
        intro now
        rw [foldl_cons, ih, markToMarket_again]
    exact hfold front ledger
  · rename_i hinact
    cases h
    refine ⟨iff_of_true rfl fun row _ => triggers_of_inactive ?_ row, fun _ => (if_neg hinact).symm⟩
    rwa [not_eq_true] at hinact

/-! ## The tracks of a step -/

section
variable (ledger : Ledger) (next : Track × Bar)

/-- Some row that a step reveals on a track triggers something. -/
def tradesOn : Bool :=
  (next.1.revealedBy next.2).any (ledger.triggers next.1.id)

/-- The ledger after the mark of a track that moves. -/
def markedBy : Ledger :=
  if next.1.cursorSeq < next.2.seq && ledger.hasActiveMarketState next.1.id then
    ledger.markToMarket next.1.id next.2
  else ledger

/-- The mark of a track that moves changes nothing. -/
def stands : Bool :=
  (ledger.markedBy next).account = ledger.account && (ledger.markedBy next).positions = ledger.positions

end

theorem markedBy_of_stands {next : Track × Bar} (h : ledger.stands next = true) : ledger.markedBy next = ledger := by
  unfold stands at h
  rw [and_eq_true, decide_eq_true_iff, decide_eq_true_iff] at h
  refine Ledger.ext h.1 ?_ ?_ h.2 ?_ ?_ <;> unfold markedBy <;> split <;> rfl

theorem markedBy_tradesOn (ledger : Ledger) (next other : Track × Bar) :
    (ledger.markedBy next).tradesOn other = ledger.tradesOn other := by
  unfold markedBy tradesOn
  split
  · congr 1
    funext row
    exact markToMarket_triggers ledger next.1.id other.1.id next.2 row
  · rfl

/-- Marks that all stand change nothing together. -/
theorem foldl_markedBy {pairs : List (Track × Bar)} (h : pairs.all ledger.stands = true) :
    pairs.foldl markedBy ledger = ledger := by
  induction pairs with
  | nil => rfl
  | cons next rest ih =>
    rw [all_cons, and_eq_true] at h
    rw [foldl_cons, markedBy_of_stands h.1, ih h.2]

/-- One track of a step: it trades when a row triggers, and else it is marked at the last row. -/
theorem revealTrack_silent {batch : Bool} {next : Track × Bar} {entries : List Revealed} (hsel : next.2 ∈ next.1.dataset.bars)
    (h : revealTrack true batch ledger next = .ok (entries, after)) :
    (entries.flatMap (·.trading) = [] ↔ ledger.tradesOn next = false) ∧
      (entries.flatMap (·.trading) = [] → after = ledger.markedBy next) := by
  obtain ⟨revealed, rfl, rfl, hrows⟩ := revealTrack_ok h
  rw [flatMap_cons, flatMap_nil, append_nil]
  unfold tradesOn markedBy
  rcases revealRows_ok hrows with ⟨hle, rfl⟩ | ⟨hlt, -, -, htrd⟩
  · refine ⟨iff_of_true rfl ?_, fun _ => ?_⟩
    · rw [any_eq_false]
      intro row hrow
      obtain ⟨-, haft, hupto⟩ := Dataset.mem_barsBySeqRange.mp hrow
      omega
    · rw [decide_eq_false (by omega), Bool.false_and, if_neg Bool.false_ne_true]
  · obtain ⟨front, hfrt⟩ := Dataset.barsBySeqRange_last hsel hlt
    unfold tradeRows Track.revealedBy at htrd
    rw [if_pos rfl, hfrt] at htrd
    obtain ⟨hquiet, haft⟩ := processRows_silent htrd
    unfold Track.revealedBy
    rw [hfrt, any_eq_false, decide_eq_true hlt, Bool.true_and]
    refine ⟨hquiet.trans ?_, haft⟩
    exact forall₂_congr fun row _ => (Bool.not_eq_true _).symm.to_iff

/-- **A step trades when a row of it triggers; else it only marks the tracks it moves.** -/
theorem reveal_silent {batch : Bool} {pairs : List (Track × Bar)} {revealed : List Revealed}
    (hsel : ∀ next ∈ pairs, next.2 ∈ next.1.dataset.bars)
    (h : Journal.collect (revealTrack true batch) ledger pairs = .ok (revealed, after)) :
    (revealed.flatMap (·.trading) = [] ↔ pairs.any ledger.tradesOn = false) ∧
      (revealed.flatMap (·.trading) = [] → after = pairs.foldl markedBy ledger) := by
  have hloop := Journal.collect_silent (fun entries => entries.flatMap (·.trading) = [])
    (fun now next => now.tradesOn next = false) markedBy rfl
    (fun _ _ => by rw [flatMap_append, append_eq_nil_iff])
    (fun now next other => by rw [markedBy_tradesOn])
    (fun now next entries after hnext hrnd => revealTrack_silent (hsel next hnext) hrnd) h
  rw [any_eq_false]
  refine ⟨hloop.1.trans ?_, hloop.2⟩
  exact forall₂_congr fun next _ => (Bool.not_eq_true _).symm.to_iff

end Ledger

end MarketLens.Replay
