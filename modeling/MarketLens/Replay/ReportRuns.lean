import Mathlib.Data.List.Sort
import MarketLens.Replay.Causality
import MarketLens.Replay.ReportOrder

/-!
# Reports of a session

Whatever commands a session takes, its log tells of the positions and its fills of the
balance, as long as trading is not reset. So a report agrees with the ledger wherever it
reads the fills in the order they were made.
-/

namespace MarketLens.Replay

open List Option Bool Function Journal Ledger Database Fallible Runs Table Interleave

structure Reconciled (tracks : List Track) (log : List EventDraft) (L : Ledger) : Prop where
  keyed : L.Keyed
  told : Told tracks log L

/-- Drafts that tell of no position. -/
def Unmoving (drafts : List EventDraft) : Prop := drafts.filterMap EventDraft.movedTo = []

namespace Ledger

variable {tracks : List Track} {track : Track} {log drafts : List EventDraft} {L L' : Ledger}

/-! ## Orders that stay -/

/-- Orders keep their ids, tracks and sides. -/
def KeepsSides (L L' : Ledger) : Prop :=
  ∀ order ∈ L.orders, ∃ row ∈ L'.orders, row.id = order.id ∧ row.trackId = order.trackId ∧
    row.side = order.side

theorem KeepsSides.refl (L : Ledger) : KeepsSides L L := fun order hord => ⟨order, hord, rfl, rfl, rfl⟩

theorem KeepsSides.trans {M : Ledger} (h : KeepsSides L M) (h' : KeepsSides M L') : KeepsSides L L' := by
  intro order hord
  obtain ⟨row, hrow, hid, htrk, hside⟩ := h order hord
  obtain ⟨last, hlast, hid', htrk', hside'⟩ := h' row hrow
  exact ⟨last, hlast, hid'.trans hid, htrk'.trans htrk, hside'.trans hside⟩

/-- The order is in the ledger, on its track and with its side. -/
def Holds (order : OrderRow) (L : Ledger) : Prop :=
  ∃ row ∈ L.orders, row.id = order.id ∧ row.trackId = order.trackId ∧ row.side = order.side

variable {order : OrderRow}

theorem Holds.kept (h : Holds order L) (hkeeps : KeepsSides L L') : Holds order L' := by
  obtain ⟨row, hrow, hid, htrk, hside⟩ := h
  obtain ⟨last, hlast, hid', htrk', hside'⟩ := hkeeps row hrow
  exact ⟨last, hlast, hid'.trans hid, htrk'.trans htrk, hside'.trans hside⟩

/-! ## Writes -/

theorem Inserted.reconciled {id : Uuid} (hins : Inserted L order id L')
    (h : Reconciled tracks log L) (drafts : List EventDraft) (hdrfs : Unmoving drafts) :
    Reconciled tracks (log ++ drafts) L' ∧ KeepsSides L L' ∧ Holds { order with id := id } L' := by
  refine ⟨⟨h.keyed.inserted hins, ?_⟩, ?_, ?_⟩
  · refine h.told.quiet (hins.madeSides h.keyed) ?_ ?_ ?_ hdrfs <;> rw [hins.rows]
  · rw [hins.rows]
    exact fun row hrow => ⟨row, mem_append_left _ hrow, rfl, rfl, rfl⟩
  · rw [hins.rows]
    exact ⟨_, mem_append_right _ mem_cons_self, rfl, rfl, rfl⟩

theorem fillOrder_reconciled {fill : FillRequest} (h : Reconciled tracks log L)
    (hids : (tracks.map (·.id)).Nodup) (hhld : Holds order L)
    (hfill : order.id = fill.orderId ∧ order.trackId = fill.trackId ∧ order.side = fill.side)
    (htrk : track ∈ tracks) (hmkt : track.id = fill.trackId ∧ track.symbol = fill.symbol)
    (hmade : L.fillOrder fill = .ok (drafts, L')) :
    Reconciled tracks (log ++ drafts) L' ∧ KeepsSides L L' := by
  obtain ⟨row, hrow, hid, hrowTrack, hside⟩ := hhld
  obtain ⟨hqty, -, ⟨-, rfl, rfl⟩ | ⟨fillRow, p, position, realized, base, hfld⟩⟩ := fillOrder_ok hmade
  · rw [append_nil]
    exact ⟨h, .refl L'⟩
  · have hhas : HasOrder fill.trackId fill.orderId L :=
      ⟨row, hrow, hid.trans hfill.1, hrowTrack.trans hfill.2.1⟩
    refine ⟨⟨hfld.keyed h.keyed hhas, ?_⟩, ?_⟩
    · exact h.told.filled h.keyed hids hqty hfld hrow (hid.trans hfill.1) (hside.trans hfill.2.2) htrk hmkt
    · intro other hoth
      rw [hfld.orders]
      exact exists_updateWhere hoth ⟨rfl, rfl, rfl⟩ fun _ => ⟨rfl, rfl, rfl⟩

theorem markToMarket_reconciled (h : Reconciled tracks log L) (t : Uuid) (bar : Bar) :
    Reconciled tracks log (L.markToMarket t bar) ∧ KeepsSides L (L.markToMarket t bar) := by
  refine ⟨⟨(markToMarket_beside (C := fun _ => True) h.keyed bar).1, ?_⟩, .refl L⟩
  rw [← append_nil log]
  refine h.told.quiet (madeSides_same rfl fun _ _ => rfl) rfl ?_ ?_ rfl
  · exact map_updateWhere (by intro _; rfl) _
  · unfold markToMarket refreshEquity
    rw [Option.map_map]
    rfl

/-! ## Revealed rows -/

/-- A loop over operations that stay reconciled, none of which takes the ground from a later one. -/
theorem collect_reconciled {I : Type} {round : Ledger → I → Except ReplayError (List EventDraft × Ledger)}
    {items : List I} (Has : I → Ledger → Prop)
    (hrnd : ∀ item ∈ items, ∀ {log L drafts L'}, Reconciled tracks log L → Has item L →
      round L item = .ok (drafts, L') → Reconciled tracks (log ++ drafts) L' ∧ KeepsSides L L')
    (hkeeps : ∀ {L L' item}, KeepsSides L L' → Has item L → Has item L')
    (h : Reconciled tracks log L) (hhas : ∀ item ∈ items, Has item L)
    (hloop : collect round L items = .ok (drafts, L')) :
    Reconciled tracks (log ++ drafts) L' ∧ KeepsSides L L' := by
  induction items generalizing log L drafts with
  | nil =>
    cases hloop
    rw [append_nil]
    exact ⟨h, .refl _⟩
  | cons item items ih =>
    obtain ⟨first, mid, more, hfs, hmore, rfl⟩ := collect_cons_ok hloop
    obtain ⟨hmid, hside⟩ := hrnd item mem_cons_self h (hhas item mem_cons_self) hfs
    obtain ⟨hfinal, hsides⟩ := ih (fun other hoth => hrnd other (mem_cons_of_mem _ hoth)) hmid
      (fun other hoth => hkeeps hside (hhas other (mem_cons_of_mem _ hoth))) hmore
    rw [← append_assoc]
    exact ⟨hfinal, hside.trans hsides⟩

variable {bar : Bar}

variable (hids : (tracks.map (·.id)).Nodup) (htrk : track ∈ tracks)
include hids htrk

theorem processBracket_reconciled {p : PositionRow} (hmkt : track.id = p.trackId ∧ track.symbol = p.symbol)
    (h : Reconciled tracks log L) (hrnd : processBracket bar L p = .ok (drafts, L')) :
    Reconciled tracks (log ++ drafts) L' ∧ KeepsSides L L' := by
  rcases processBracket_ok hrnd with ⟨rfl, rfl⟩ | ⟨price, kind, id, placed, filled, -, hins, hfill, hdrfs⟩
  · rw [append_nil]
    exact ⟨h, .refl _⟩
  · obtain ⟨hplaced, hkeeps, hhld⟩ :=
      hins.reconciled h [.bracketOrderCreated id kind] rfl
    obtain ⟨hfinal, hmore⟩ := fillOrder_reconciled hplaced hids hhld ⟨rfl, rfl, rfl⟩ htrk hmkt hfill
    rw [hdrfs]
    rw [append_assoc] at hfinal
    exact ⟨hfinal, hkeeps.trans hmore⟩

theorem processOrder_reconciled {symbol : String}
    (hmkt : track.id = order.trackId ∧ track.symbol = symbol) (h : Reconciled tracks log L)
    (hhld : Holds order L) (hrnd : processOrder symbol bar L order = .ok (drafts, L')) :
    Reconciled tracks (log ++ drafts) L' ∧ KeepsSides L L' := by
  rcases processOrder_ok hrnd with ⟨rfl, rfl⟩ | ⟨price, -, hfill⟩
  · rw [append_nil]
    exact ⟨h, .refl _⟩
  · exact fillOrder_reconciled h hids hhld ⟨rfl, rfl, rfl⟩ htrk hmkt hfill

theorem processRow_reconciled (h : Reconciled tracks log L) (hrow : processRow track.id track.symbol L bar = .ok (drafts, L')) :
    Reconciled tracks (log ++ drafts) L' := by
  obtain ⟨brackets, mid, fills, final, hmade, hfld, rfl, rfl⟩ := processRow_ok hrow
  have hmarkets := h.told.markets
  obtain ⟨hmid, -⟩ := collect_reconciled
    (fun (p : PositionRow) _ => ∃ track ∈ tracks, track.id = p.trackId ∧ track.symbol = p.symbol)
    (fun p _ log L drafts L' hnow ⟨owner, howner, hmkt⟩ hrnd =>
      processBracket_reconciled hids howner hmkt hnow hrnd)
    (fun _ hmkt => hmkt) h (fun p hp => hmarkets p (mem_openPositions hp).1) hmade
  obtain ⟨hfinal, -⟩ := collect_reconciled Holds (fun order hord log L drafts L' hnow hhld hrnd =>
      processOrder_reconciled hids htrk ⟨(mem_pendingOrders.mp hord).2.1.symm, rfl⟩ hnow hhld hrnd)
    (fun hkeeps hhld => hhld.kept hkeeps) hmid
    (fun order hord => ⟨order, (mem_pendingOrders.mp hord).1, rfl, rfl, rfl⟩) hfld
  rw [append_assoc] at hfinal
  exact (markToMarket_reconciled hfinal track.id bar).1

end Ledger

/-! ## Commands -/

section Commands

variable {tracks : List Track} {track : Track} {log drafts : List EventDraft} {L L' : Ledger}
  {useLedger : Bool} {session : Session} {command : Command}

theorem Told.sameTracks {after : List Track} (h : Told tracks log L)
    (hsame : Forall₂ Track.SameTrack tracks after) : Told after log L := by
  have hents : ∀ f : Uuid → Decimal, (after.map fun track => f track.id) = tracks.map fun track => f track.id := by
    intro f
    clear h
    induction hsame with
    | nil => rfl
    | cons hfs _ ih => rw [map_cons, map_cons, ih, hfs.id]
  have hmkt : ∀ track ∈ tracks, ∃ other ∈ after, other.id = track.id ∧ other.symbol = track.symbol := by
    clear hents h
    induction hsame with
    | nil => exact fun _ hno => (by cases hno)
    | cons hfs _ ih =>
      intro track htrk
      rcases mem_cons.mp htrk with rfl | htrk
      · exact ⟨_, mem_cons_self, hfs.id, hfs.symbol⟩
      · obtain ⟨other, hoth, hsame⟩ := ih track htrk
        exact ⟨other, mem_cons_of_mem _ hoth, hsame⟩
  refine ⟨h.path, h.whole, h.one, fun p hp => ?_, h.stands, h.flat, ?_⟩
  · obtain ⟨track, htrk, hid, hsym⟩ := h.markets p hp
    obtain ⟨other, hoth, hid', hsym'⟩ := hmkt track htrk
    exact ⟨other, hoth, hid'.trans hid, hsym'.trans hsym⟩
  · rw [hents fun id => (statesAfter allFlat L.madeSides id).entryCommission]
    exact h.money

theorem movedTo_tradeDrafts (drafts : List EventDraft) :
    (tradeDrafts drafts).filterMap EventDraft.movedTo = drafts.filterMap EventDraft.movedTo := by
  unfold tradeDrafts
  rw [filterMap_filter]
  refine filterMap_congr fun draft _ => ?_
  cases draft <;> rfl

/-- Only what the drafts tell of positions counts. -/
theorem Told.redrafted {more : List EventDraft} (h : Told tracks (log ++ drafts) L)
    (hsame : tradeDrafts more = tradeDrafts drafts) : Told tracks (log ++ more) L := by
  have hmvd := congrArg (filterMap EventDraft.movedTo) hsame
  rw [movedTo_tradeDrafts, movedTo_tradeDrafts] at hmvd
  refine ⟨?_, h.whole, h.one, h.markets, h.stands, h.flat, h.money⟩
  rw [filterMap_append, hmvd, ← filterMap_append]
  exact h.path

theorem Told.uuids (h : Told tracks log L) (uuids : Nat → Uuid) : Told tracks log { L with uuids := uuids } :=
  ⟨h.path, h.whole, h.one, h.markets, h.stands, h.flat, h.money⟩

theorem reveal_reconciled {batch : Bool} {pairs : List (Track × Bar)} {revealed : List Revealed}
    (hids : (tracks.map (·.id)).Nodup) (hpairs : ∀ pair ∈ pairs, pair.1 ∈ tracks)
    (h : Reconciled tracks log L)
    (hreveal : collect (revealTrack useLedger batch) L pairs = .ok (revealed, L')) :
    Reconciled tracks (log ++ revealed.flatMap (·.trading)) L' := by
  refine reveal_change (fun now entries next => ∀ log, Reconciled tracks log now → Reconciled tracks (log ++ entries) next)
    (fun now log hnow => ?_) (fun now first next second last hfs hsec log hnow => ?_)
    (fun pair hpair now bar entries after _ hrow log hnow => processRow_reconciled hids (hpairs pair hpair) hnow hrow)
    hreveal log h
  · rw [append_nil]
    exact hnow
  · rw [← append_assoc]
    exact hsec _ (hfs _ hnow)

theorem trade_reconciled (hids : (tracks.map (·.id)).Nodup) (htrk : track ∈ tracks)
    (h : Reconciled tracks log L) (hreset : ∀ at_, .tradingReset at_ ∉ drafts)
    (htrd : TradeCases session track L drafts L') : Reconciled tracks (log ++ drafts) L' := by
  have hsame : ∀ {X : Ledger} {f : OrderRow → OrderRow} {p : OrderRow → Bool},
      X.fills = L.fills → X.orders = updateWhere p f L.orders →
      (∀ order, (f order).id = order.id ∧ (f order).side = order.side) → X.madeSides = L.madeSides := by
    intro X f p hfills hords hf
    refine madeSides_same hfills fun fill _ => ?_
    rw [hords]
    exact sidesOf_updateWhere hf L.orders fill.orderId
  have hkyd := trade_keyed h.keyed htrd
  cases htrd with
  | place view payload sees places =>
    obtain ⟨hid, hsym, -, -⟩ := marketView_ok sees
    obtain ⟨order, id, placed, hreqd, hins, ⟨-, rfl, rfl⟩ | ⟨filled, -, hfill, rfl⟩⟩ :=
      place_ok places
    · exact (hins.reconciled h [.orderCreated id order.clientOrderId view.trackId] rfl).1
    · obtain ⟨hplaced, -, hhld⟩ :=
        hins.reconciled h [.orderCreated id order.clientOrderId view.trackId] rfl
      have hfinal := (fillOrder_reconciled hplaced hids hhld ⟨rfl, hreqd.track, rfl⟩ htrk ⟨hid.symm, hsym.symm⟩ hfill).1
      rw [append_assoc] at hfinal
      exact hfinal
  | cancel _ cancels =>
    obtain ⟨id, rfl, rfl⟩ := cancel_ok cancels
    exact ⟨hkyd, h.told.quiet (hsame rfl rfl fun _ => ⟨rfl, rfl⟩) rfl rfl rfl rfl⟩
  | close view payload sees closes =>
    obtain ⟨body, p, clientOrderId, id, placed, filled, -, -, hp, -, hins, hfill, rfl⟩ :=
      closePosition_ok closes
    obtain ⟨owner, howner, hmkt⟩ := h.told.markets p hp
    obtain ⟨hplaced, -, hhld⟩ := hins.reconciled h [.orderCreated id clientOrderId p.trackId] rfl
    have hfinal := (fillOrder_reconciled hplaced hids hhld ⟨rfl, rfl, rfl⟩ howner hmkt hfill).1
    rw [append_assoc] at hfinal
    exact hfinal
  | update _ updates =>
    obtain ⟨id, trackId, sl, tp, rfl, rfl⟩ := updateBracket_ok updates
    refine ⟨hkyd, h.told.quiet (hsame rfl rfl fun _ => ⟨rfl, rfl⟩) rfl ?_ rfl rfl⟩
    exact map_updateWhere (by intro _; rfl) _
  | reset => exact absurd mem_cons_self (hreset _)

/-- **A command that does not reset trading leaves a ledger told by its log.** -/
theorem Moves.reconciled {moved : Moved} (h : Moves useLedger session tracks L command moved)
    (hids : (tracks.map (·.id)).Nodup) (hgood : Reconciled tracks log L)
    (hreset : ∀ at_, .tradingReset at_ ∉ moved.drafts) :
    Reconciled tracks (log ++ moved.drafts) moved.ledger := by
  have hback : ∀ {drafts : List EventDraft} {at_ : Int}, tradeDrafts moved.drafts = tradeDrafts drafts →
      .tradingReset at_ ∉ drafts := by
    intro drafts at_ hsame hmem
    have htrd : EventDraft.tradingReset at_ ∈ tradeDrafts drafts := mem_filter.mpr ⟨hmem, rfl⟩
    rw [← hsame] at htrd
    exact hreset at_ (mem_filter.mp htrd).1
  cases h with
  | kept _ _ _ sameLedger _ _ quiet =>
    rw [sameLedger]
    refine ⟨hgood.keyed, (?_ : Told tracks (log ++ []) L).redrafted quiet⟩
    rw [append_nil]
    exact hgood.told
  | stepped _ _ _ _ _ _ _ reveals _ _ drafted =>
    have hrevl := reveal_reconciled hids (fun pair hpair => (of_mem_zip hpair).1) hgood reveals
    exact ⟨hrevl.keyed, hrevl.told.redrafted drafted⟩
  | sought target resetTrading resetDrafts _ rewinds _ _ _ _ drafted =>
    rcases rewind_ok rewinds with ⟨rfl, hsame⟩ | ⟨-, -, -, -, hdone⟩
    · rw [hsame]
      refine ⟨hgood.keyed, (?_ : Told tracks (log ++ []) L).redrafted drafted⟩
      rw [append_nil]
      exact hgood.told
    · have hdrfs : [.tradingReset target] = resetDrafts := congrArg Prod.fst hdone
      exact absurd (hdrfs ▸ mem_cons_self) (@hback _ target drafted)
  | traded track drafts _ _ _ onTrack operates _ _ drafted =>
    have htrad := trade_reconciled hids onTrack hgood (fun at_ => hback drafted) (tradeLedger_cases operates)
    exact ⟨htrad.keyed, htrad.told.redrafted drafted⟩

end Commands

/-! ## Runs -/

/-- How many moves take a position down, from the positions of before. -/
def reductions (nets : Uuid → Decimal) : List (Uuid × Decimal × Decimal) → Nat
  | [] => 0
  | (id, net, _) :: rest =>
    (if reduces (nets id) (net - nets id) then 1 else 0) +
      reductions (fun other => if other = id then net else nets other) rest

theorem visitOf_reduces {states : Uuid → ReportPositionState} {row : FillRow × Side} {n : Int}
    (hn : (states row.1.trackId).net = volume n) (hqty : 0 < row.1.quantity) :
    (∃ m : Int, (visitOf states row).state.net = volume m) ∧
      (visitOf states row).closed.isSome = reduces (states row.1.trackId).net
        ((visitOf states row).state.net - (states row.1.trackId).net) := by
  have hmatches : (states row.1.trackId).Matches
      { emptyPosition 0 0 "" with netQuantity := n, averagePrice := (states row.1.trackId).average } := ⟨hn, rfl⟩
  obtain ⟨haft, hclsd, -⟩ :=
    applyReportFill_matches row.2 row.1.price row.1.commission none none hmatches hqty
  have hnet := haft.net
  rw [filled_net] at hnet
  refine ⟨⟨_, hnet⟩, ?_⟩
  unfold visitOf
  rw [hclsd, hnet, hn, volume_add, add_sub_cancel_left]

theorem reductions_visits {states : Uuid → ReportPositionState} {rows : List (FillRow × Side)}
    (hnets : ∀ id, ∃ n : Int, (states id).net = volume n) (hqty : ∀ row ∈ rows, 0 < row.1.quantity) :
    reductions (fun id => (states id).net) ((visits states rows).map Visit.place) =
      (visits states rows).countP (·.closed.isSome) := by
  induction rows generalizing states with
  | nil => rfl
  | cons row rows ih =>
    obtain ⟨n, hn⟩ := hnets row.1.trackId
    obtain ⟨⟨m, hm⟩, hclsd⟩ := visitOf_reduces hn (hqty row mem_cons_self)
    have hnext : ∀ id, ∃ n : Int, (visited states (visitOf states row) id).net = volume n := by
      intro id
      unfold visited
      split
      · exact ⟨m, hm⟩
      · exact hnets id
    have hstates : (fun id => (visited states (visitOf states row) id).net) = fun id =>
        if id = row.1.trackId then (visitOf states row).state.net else (states id).net := by
      funext id
      exact apply_ite _ _ _ _
    rw [visits, map_cons, countP_cons, ← ih hnext fun other hoth =>
      hqty other (mem_cons_of_mem _ hoth), hstates, hclsd, Nat.add_comm]
    rfl

/-- Trading has not been reset. -/
def Database.NeverReset (db : Database) : Prop := ∀ at_, .tradingReset at_ ∉ db.log

/-- What the commands of a session keep. -/
structure Database.Reconciled (db : Database) : Prop where
  ids : (db.tracks.map (·.id)).Nodup
  keyed : db.ledger.Keyed
  told : db.NeverReset → Told db.tracks db.log db.ledger

theorem prepared_reconciled {start : Database} (h : Prepared start) (hfsh : Injective start.ledger.uuids) : start.Reconciled := by
  have hemp : start.ledger.orders = [] ∧ start.ledger.fills = [] ∧ start.ledger.positions = [] ∧
      ∀ account, start.ledger.account = some account → account.balance = account.startingEquity := by
    rcases h.account with ⟨currency, equity, commission, uuids, hldg⟩ | ⟨uuids, hldg⟩ <;> rw [hldg]
    · refine ⟨rfl, rfl, rfl, fun account hacct => ?_⟩
      rw [← some.inj hacct]
    · exact ⟨rfl, rfl, rfl, nofun⟩
  obtain ⟨-, hfills, hposs, hmoney⟩ := hemp
  have hsides : start.ledger.madeSides = [] := by
    rw [madeSides_eq, hfills]
    rfl
  have hlog : start.log = [] := by
    unfold log
    rw [h.unlogged.2.1]
    rfl
  refine ⟨h.distinct, prepared_keyed h hfsh, fun _ => ?_⟩
  constructor
  · rw [hlog, hsides]
    rfl
  · rw [hfills]
    exact nofun
  · rw [hposs]
    exact nodup_nil
  · rw [hposs]
    exact nofun
  · rw [hposs]
    exact nofun
  · intro k _
    rw [hsides]
    rfl
  · intro account hacct
    have hzero : (start.tracks.map fun track => (statesAfter allFlat [] track.id).entryCommission) =
        start.tracks.map fun _ => (0 : Decimal) := rfl
    rw [hsides, hzero, map_const', sum_replicate, nsmul_zero, hmoney account hacct, sub_self, sub_zero]
    rfl

theorem command_reconciled {db db' : Database} {input : CommandInput} (h : db.Reconciled)
    (hstep : db.command input = some db') : db'.Reconciled := by
  refine ⟨command_distinct h.ids hstep, command_keyed h.ids h.keyed hstep, fun hreset => ?_⟩
  obtain ⟨response, hcommanded⟩ := commanded_of_command h.ids hstep
  cases hcommanded with
  | unmoved _ same =>
    obtain ⟨uuids, hldg⟩ := same.ledger
    have hlog : db'.log = db.log := congrArg (map EventRow.draft) same.events
    rw [same.tracks, hlog, hldg]
    refine (h.told fun at_ hmem => hreset at_ ?_).uuids uuids
    rw [hlog]
    exact hmem
  | committed _ _ commits =>
    have hlog := commits.log
    have hbef : db.NeverReset := fun at_ hmem => hreset at_ (hlog ▸ mem_append_left _ hmem)
    obtain ⟨seq, at_, hldg⟩ := commits.ledger
    have hmvd := (commits.moves.reconciled h.ids ⟨h.keyed.drawn, (h.told hbef).uuids _⟩
      fun at_ hmem => hreset at_ (hlog ▸ mem_append_right _ hmem)).told
    rw [hlog, hldg]
    refine Told.sameTracks (?_ : Told db.tracks (db.log ++ _) _) commits.sameTracks
    split
    · unfold recordEquity
      split
      · exact hmvd
      · exact ⟨hmvd.path, hmvd.whole, hmvd.one, hmvd.markets, hmvd.stands, hmvd.flat, hmvd.money⟩
    · exact hmvd

def Ledger.reportSides (ledger : Ledger) : List (FillRow × Side) :=
  sidesMade ledger.reportRows

/-- The positions the log tells of. -/
def Database.positionPath (db : Database) : List (Uuid × Decimal × Decimal) :=
  db.log.filterMap EventDraft.movedTo

/--
**In every session that has not reset trading and has made the fills of every track in the
order the report takes them, the report agrees with the ledger:** it goes through the positions
the fills left, counts the fills that took one down, and books what the balance has moved, but
for the commissions of what is still open.
-/
theorem report_agrees {start db : Database} {ok : Database → CommandInput → Prop} {report : ReplayReport}
    (hprepared : Prepared start) (hfresh : Function.Injective start.ledger.uuids)
    (hrun : Reaches Database.command ok start db) (hreset : db.NeverReset)
    (horder : db.ledger.FilledInOrder) (hreport : buildReplayReport db.ledger = .ok report) :
    (∀ trackId, ofKey (·.1) trackId ((visits allFlat db.ledger.reportSides).map Visit.place) =
      ofKey (·.1) trackId db.positionPath) ∧
    report.closedTrades = reductions (fun _ => 0) db.positionPath ∧
    ((visits allFlat db.ledger.reportSides).map Visit.profit).sum -
        (db.tracks.map fun track => (statesAfter allFlat db.ledger.reportSides track.id).entryCommission).sum =
      report.account.balance - report.account.startingEquity := by
  have hgood := hrun.invariant Database.Reconciled (prepared_reconciled hprepared hfresh)
    fun _ _ _ hnow _ hstep => command_reconciled hnow hstep
  have htold := hgood.told hreset
  -- the report walks the sides in its own order, which per track is that of the fills
  obtain ⟨-, hperm, hstates⟩ := @visits_perm allFlat _ _ horder.sides
  unfold buildReplayReport at hreport
  obtain ⟨trading, htrdg, hreport⟩ := bind_ok.mp hreport
  rw [require_ok] at htrdg
  cases hreport
  refine ⟨fun trackId => ?_, ?_, ?_⟩
  · have hvisits := (@visits_perm allFlat _ _ horder.sides).1 trackId
    have hpl : ∀ list : List Visit, ofKey (·.1) trackId (list.map Visit.place) =
        (ofKey (·.trackId) trackId list).map Visit.place := by
      intro list
      unfold ofKey
      rw [List.filter_map]
      rfl
    unfold positionPath
    rw [htold.path, hpl, hpl]
    exact congrArg _ hvisits
  · have hqty : ∀ row ∈ db.ledger.madeSides, 0 < row.1.quantity := by
      intro row hrow
      rw [madeSides_eq] at hrow
      obtain ⟨fill, hfill, hmem⟩ := mem_flatMap.mp hrow
      obtain ⟨side, -, rfl⟩ := mem_map.mp hmem
      exact htold.whole fill hfill
    have hcnt := @reductions_visits allFlat _ (fun _ => ⟨0, volume_zero.symm⟩) hqty
    rw [tally_closedTrades, positionPath, htold.path]
    refine (Nat.zero_add _).trans ((hperm.countP_eq _).trans hcnt.symm)
  · obtain ⟨account, hacct, rfl⟩ := map_eq_some_iff.mp htrdg
    have hmoney := htold.money account hacct
    have hprofits := (hperm.map Visit.profit).sum_eq
    unfold reportSides
    rw [hprofits, hstates]
    exact hmoney

/-! ## Two sessions -/

def sortsApart (rows : List (FillRow × OrderRow)) : Bool :=
  decide (rows.Pairwise fun a b => Ledger.reportBefore a b = true) &&
    decide (∀ a ∈ rows, ∀ b ∈ rows, Ledger.reportBefore a b = true → Ledger.reportBefore b a = true → a = b)

theorem reportRows_of {L : Ledger} {rows : List (FillRow × OrderRow)} (hperm : rows.Perm L.madeRows)
    (hsorts : sortsApart rows = true) : L.reportRows = rows := by
  unfold sortsApart at hsorts
  rw [and_eq_true, decide_eq_true_iff, decide_eq_true_iff] at hsorts
  have hback : (L.madeRows.mergeSort reportBefore).Perm rows := (mergeSort_perm _ _).trans hperm.symm
  refine List.Perm.eq_of_pairwise (fun a b ha hb => hsorts.2 a (hback.mem_iff.mp ha) b hb) ?_ hsorts.1 hback
  exact pairwise_mergeSort reportBefore_trans reportBefore_total _

/-- The fills by insertion into the order of the report. -/
def Ledger.sortedRows (ledger : Ledger) : List (FillRow × OrderRow) :=
  ledger.madeRows.insertionSort fun a b => Ledger.reportBefore a b = true

def marketOrder (client side : String) (qty : Decimal) : CommandInput :=
  clientCommand client (.placeOrder (some ⟨client, none, side, "market", qty, none, none, none, none⟩))

/-- Whether a log has no reset. -/
def keepsTrading (log : List EventDraft) : Bool := log.all fun draft => draft.typ ≠ "trading.reset"

theorem neverReset_of_keeps {db : Database} (h : keepsTrading db.log = true) : db.NeverReset := by
  intro at_ hmem
  have hdraft := all_eq_true.mp h _ hmem
  rw [decide_eq_true_iff] at hdraft
  exact hdraft rfl

theorem report_exists {L : Ledger} (h : L.account.isSome = true) : ∃ report, buildReplayReport L = .ok report := by
  obtain ⟨account, hacct⟩ := isSome_iff_exists.mp h
  unfold buildReplayReport loadTradingSnapshot
  rw [hacct]
  exact ⟨_, rfl⟩

/-- What was bought at the first minute is sold at the second. -/
theorem later_sale_agrees : ∃ db report, Reaches Database.command always (tradedMinutes 3 1 3) db ∧
    buildReplayReport db.ledger = .ok report ∧ report.closedTrades = 1 ∧
    ∀ trackId, ofKey (·.1) trackId ((visits allFlat db.ledger.reportSides).map Visit.place) =
      ofKey (·.1) trackId db.positionPath := by
  have hrun : ((exec command (fun _ _ => true) (tradedMinutes 3 1 3)
      [marketOrder "b" "buy" 1, clientCommand "step" (.step (some 1)), marketOrder "a" "sell" 1]).map fun db =>
        (keepsTrading db.log, db.ledger.account.isSome,
          decide (db.ledger.madeRows.Pairwise fun a b => reportBefore a b = true),
          reductions (fun _ => 0) db.positionPath)) = some (true, true, true, 1) := by decide +kernel
  obtain ⟨db, hrch, htest⟩ := reached_of_map hrun
  simp only [Prod.mk.injEq, decide_eq_true_iff] at htest
  obtain ⟨hkeeps, hacct, hsrt, hcnt⟩ := htest
  obtain ⟨report, hrpt⟩ := report_exists hacct
  have hagrees := report_agrees (tradedMinutes_prepared 3 1 3) injective_id hrch
    (neverReset_of_keeps hkeeps) (fun trackId => hsrt.sublist filter_sublist) hrpt
  exact ⟨db, report, hrch, hrpt, hagrees.2.1.trans hcnt, hagrees.1⟩

/-- Two sales and a purchase of both, at one time. The report takes the purchase before the second
sale, and counts a trade closed by each. -/
theorem purchase_taken_early : ∃ start db report, Prepared start ∧ Function.Injective start.ledger.uuids ∧
    Reaches Database.command always start db ∧ db.NeverReset ∧ buildReplayReport db.ledger = .ok report ∧
    ofKey (·.1) 0 ((visits allFlat db.ledger.reportSides).map Visit.place) ≠ ofKey (·.1) 0 db.positionPath ∧
    report.closedTrades = 2 ∧ reductions (fun _ => 0) db.positionPath = 1 := by
  have hrun : ((exec command (fun _ _ => true) (tradedMinutes 3 1 3)
      [marketOrder "a" "sell" 1, marketOrder "c" "sell" 1, marketOrder "b" "buy" 2]).map fun db =>
        ((keepsTrading db.log && db.ledger.account.isSome && sortsApart db.ledger.sortedRows,
          decide (ofKey (·.1) 0 ((visits allFlat (sidesMade db.ledger.sortedRows)).map Visit.place) =
            ofKey (·.1) 0 db.positionPath)),
          (visits allFlat (sidesMade db.ledger.sortedRows)).countP (·.closed.isSome),
          reductions (fun _ => 0) db.positionPath)) =
      some ((true, false), 2, 1) := by decide +kernel
  obtain ⟨db, hrch, htest⟩ := reached_of_map hrun
  simp only [Prod.mk.injEq, Bool.and_eq_true, decide_eq_false_iff_not] at htest
  obtain ⟨⟨⟨⟨hkeeps, hacct⟩, hsorts⟩, hpath⟩, hclsd, hcnt⟩ := htest
  have hrows := reportRows_of (perm_insertionSort _ _) hsorts
  obtain ⟨report, hrpt⟩ := report_exists hacct
  refine ⟨_, db, report, tradedMinutes_prepared 3 1 3, injective_id, hrch, neverReset_of_keeps hkeeps, hrpt, ?_, ?_, hcnt⟩
  · unfold reportSides
    rw [hrows]
    exact hpath
  · unfold buildReplayReport at hrpt
    obtain ⟨trading, -, hrpt⟩ := bind_ok.mp hrpt
    cases hrpt
    dsimp only
    rw [tally_closedTrades, hrows]
    exact (Nat.zero_add _).trans hclsd

end MarketLens.Replay
