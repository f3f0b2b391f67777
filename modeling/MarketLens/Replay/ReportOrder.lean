import MarketLens.Replay.Keys
import MarketLens.Replay.Visits
import MarketLens.Replay.Work

/-!
# The order of a report

A report takes the fills by the time and the row they were made on, and by client id
where these are the same. A session makes several fills on one row, the brackets before
the working orders and these by submission, and at one time, as its commands come. On
every track where both orders agree, the report goes through the positions of the ledger.
-/

namespace MarketLens.Replay

open List Bool Function PositionRow Fallible Runs Table Interleave

/-! ## The fills of a ledger -/

namespace Ledger

variable {L L' : Ledger}

def madeRows (ledger : Ledger) : List (FillRow × OrderRow) :=
  ledger.fills.flatMap fun fill =>
    (ledger.orders.filter fun order => order.id = fill.orderId).map fun order => (fill, order)

/-- The fills as the report reads them. -/
def madeSides (ledger : Ledger) : List (FillRow × Side) :=
  sidesMade ledger.madeRows

theorem reportBefore_iff {a b : FillRow × OrderRow} : reportBefore a b = true ↔
    a.1.simulatedAt < b.1.simulatedAt ∨ (a.1.simulatedAt = b.1.simulatedAt ∧
      (a.1.datasetSeq < b.1.datasetSeq ∨ (a.1.datasetSeq = b.1.datasetSeq ∧ a.2.clientOrderId ≤ b.2.clientOrderId))) := by
  unfold reportBefore
  simp only [or_eq_true, and_eq_true, decide_eq_true_iff]

theorem reportBefore_trans (a b c : FillRow × OrderRow) (h : reportBefore a b = true)
    (h' : reportBefore b c = true) : reportBefore a c = true := by
  rw [reportBefore_iff] at h h' ⊢
  rcases h with h | ⟨htime, h | ⟨hseq, h⟩⟩
  · rcases h' with h' | ⟨htime', -⟩
    · exact .inl (h.trans h')
    · exact .inl (htime' ▸ h)
  · rcases h' with h' | ⟨htime', h' | ⟨hseq', -⟩⟩
    · exact .inl (htime ▸ h')
    · exact .inr ⟨htime.trans htime', .inl (h.trans h')⟩
    · exact .inr ⟨htime.trans htime', .inl (hseq' ▸ h)⟩
  · rcases h' with h' | ⟨htime', h' | ⟨hseq', h'⟩⟩
    · exact .inl (htime ▸ h')
    · exact .inr ⟨htime.trans htime', .inl (hseq ▸ h')⟩
    · exact .inr ⟨htime.trans htime', .inr ⟨hseq.trans hseq', String.le_trans h h'⟩⟩

theorem reportBefore_total (a b : FillRow × OrderRow) : (reportBefore a b || reportBefore b a) = true := by
  rw [or_eq_true, reportBefore_iff, reportBefore_iff]
  rcases lt_trichotomy a.1.simulatedAt b.1.simulatedAt with htime | htime | htime
  · exact .inl (.inl htime)
  · rcases lt_trichotomy a.1.datasetSeq b.1.datasetSeq with hseq | hseq | hseq
    · exact .inl (.inr ⟨htime, .inl hseq⟩)
    · rcases String.le_total a.2.clientOrderId b.2.clientOrderId with hcl | hcl
      · exact .inl (.inr ⟨htime, .inr ⟨hseq, hcl⟩⟩)
      · exact .inr (.inr ⟨htime.symm, .inr ⟨hseq.symm, hcl⟩⟩)
    · exact .inr (.inr ⟨htime.symm, .inl hseq⟩)
  · exact .inr (.inl htime)

/-- On every track the fills were made in the order of the report. -/
def FilledInOrder (ledger : Ledger) : Prop :=
  ∀ trackId, (ofKey (·.1.trackId) trackId ledger.madeRows).Pairwise fun a b => reportBefore a b = true

theorem FilledInOrder.ofKey (h : L.FilledInOrder) (k : Uuid) :
    Interleave.ofKey (·.1.trackId) k L.reportRows = Interleave.ofKey (·.1.trackId) k L.madeRows := by
  have hsub : (Interleave.ofKey (·.1.trackId) k L.madeRows).Sublist (L.madeRows.mergeSort reportBefore) :=
    sublist_mergeSort reportBefore_trans reportBefore_total (h k) filter_sublist
  have hfiltered := hsub.filter fun row => row.1.trackId = k
  have hself : (Interleave.ofKey (·.1.trackId) k L.madeRows).filter (fun row => row.1.trackId = k) =
      Interleave.ofKey (·.1.trackId) k L.madeRows := by
    unfold Interleave.ofKey
    rw [filter_filter]
    exact filter_congr fun row _ => Bool.and_self _
  rw [hself] at hfiltered
  have hperm : (Interleave.ofKey (·.1.trackId) k (L.madeRows.mergeSort reportBefore)).Perm
      (Interleave.ofKey (·.1.trackId) k L.madeRows) := (mergeSort_perm _ _).filter _
  exact (hfiltered.eq_of_length hperm.length_eq.symm).symm

theorem FilledInOrder.sides (h : L.FilledInOrder) (k : Uuid) :
    Interleave.ofKey (·.1.trackId) k (sidesMade L.reportRows) = Interleave.ofKey (·.1.trackId) k L.madeSides := by
  have hmap :
      ∀ rows : List (FillRow × OrderRow), Interleave.ofKey (·.1.trackId) k (sidesMade rows) =
        (Interleave.ofKey (·.1.trackId) k rows).map fun row => (row.1, row.2.side) := by
    intro rows
    unfold Interleave.ofKey sidesMade
    rw [filter_map]
    rfl
  rw [madeSides, hmap, hmap, h.ofKey]

/-! ## What is written on the fills -/

def sidesOf (orders : List OrderRow) (id : Uuid) : List Side :=
  (orders.filter fun order => order.id = id).map (·.side)

theorem madeSides_eq (ledger : Ledger) : ledger.madeSides =
    ledger.fills.flatMap fun fill => (sidesOf ledger.orders fill.orderId).map fun side => (fill, side) := by
  unfold madeSides sidesMade madeRows sidesOf
  rw [map_flatMap]
  simp only [map_map, comp_def]

theorem madeSides_same (hfills : L'.fills = L.fills)
    (hords : ∀ fill ∈ L.fills, sidesOf L'.orders fill.orderId = sidesOf L.orders fill.orderId) :
    L'.madeSides = L.madeSides := by
  rw [madeSides_eq, madeSides_eq, hfills]
  refine congrArg flatten (map_congr_left fun fill hfill => ?_)
  rw [hords fill hfill]

theorem sidesOf_updateWhere {p : OrderRow → Bool} {f : OrderRow → OrderRow}
    (hf : ∀ order, (f order).id = order.id ∧ (f order).side = order.side) (orders : List OrderRow) (id : Uuid) :
    sidesOf (updateWhere p f orders) id = sidesOf orders id := by
  unfold sidesOf updateWhere
  rw [filter_map, map_map]
  have hsame : ∀ order : OrderRow, (if p order then f order else order).id = order.id ∧
      (if p order then f order else order).side = order.side := by
    intro order
    split
    · exact hf order
    · exact ⟨rfl, rfl⟩
  rw [filter_congr fun order _ => by rw [comp_apply, (hsame order).1]]
  exact map_congr_left fun order _ => (hsame order).2

variable {order : OrderRow}

theorem sidesOf_unique {orders : List OrderRow} (hids : (orders.map (·.id)).Nodup)
    (h : order ∈ orders) : sidesOf orders order.id = [order.side] := by
  unfold sidesOf
  have hfilter : (orders.filter fun other => other.id = order.id) = [order] := by
    refine perm_singleton.mp ((perm_ext_iff_of_nodup ?_ (nodup_singleton _)).mpr fun other => ?_)
    · exact (List.Nodup.of_map _ hids).filter _
    · rw [mem_filter, decide_eq_true_iff, mem_singleton]
      constructor
      · exact fun hoth => inj_on_of_nodup_map hids hoth.1 h hoth.2
      · rintro rfl
        exact ⟨h, rfl⟩
  rw [hfilter]
  rfl

theorem Inserted.madeSides {id : Uuid} (h : Inserted L order id L') (hkyd : L.Keyed) : L'.madeSides = L.madeSides := by
  refine madeSides_same (by rw [h.rows]) fun fill hfill => ?_
  obtain ⟨owner, howner, hid, -⟩ := hkyd.owned fill hfill
  rw [h.rows]
  unfold sidesOf
  rw [filter_append, filter_cons_of_neg, filter_nil, append_nil]
  rw [decide_eq_true_iff]
  exact fun hsame => h.newId owner howner (hid.trans hsame.symm)

section Filled

variable {fill : FillRequest} {drafts : List EventDraft} {row : FillRow} {p position : PositionRow}
  {realized : Decimal} {base : Ledger}

section Filled

variable (h : Filled L fill drafts L' row p position realized base)
include h

theorem Filled.madeSides (hkyd : L.Keyed) (hord : order ∈ L.orders) (hid : order.id = fill.orderId) :
    L'.madeSides = L.madeSides ++ [(row, order.side)] := by
  have hsides : ∀ id, sidesOf L'.orders id = sidesOf L.orders id := by
    intro id
    rw [h.orders]
    exact sidesOf_updateWhere (f := filledOrder) (fun _ => ⟨rfl, rfl⟩) L.orders id
  have hrow : row.orderId = order.id := by
    rw [hid, h.made]
  rw [madeSides_eq, h.fills, flatMap_append, madeSides_eq, flatMap_cons, flatMap_nil, append_nil]
  simp only [hsides]
  rw [hrow, sidesOf_unique hkyd.orders hord]
  rfl

theorem Filled.account_some {account : AccountRow} (hacct : L'.account = some account) :
    ∃ old, L.account = some old ∧
      account.balance = old.balance + (realized - row.commission) ∧
      account.startingEquity = old.startingEquity := by
  have hbase := h.applies.account
  rw [h.rows] at hacct
  unfold refreshEquity book at hacct
  rw [hbase, Option.map_map, Option.map_eq_some_iff] at hacct
  obtain ⟨old, hold, rfl⟩ := hacct
  exact ⟨old, hold, rfl, rfl⟩

theorem Filled.tracks_nodup (hkyd : L.Keyed) (hone : (L.positions.map (·.trackId)).Nodup)
    (honly : ∀ q ∈ L.positions, q.trackId = fill.trackId → q.id = p.id) :
    (L'.positions.map (·.trackId)).Nodup := by
  have hmvd : ∀ q ∈ base.positions, q.id = p.id → q.trackId = fill.trackId := by
    intro q hq hid
    have happ := h.applies
    have htrk := happ.trackId
    cases happ with
    | found mem =>
      rw [inj_on_of_nodup_map hkyd.positions hq mem hid]
      exact htrk
    | opened _ newId =>
      rcases mem_append.mp hq with hold | hnew
      · exact absurd hid (newId q hold)
      · rw [mem_singleton.mp hnew]
        exact htrk
  have hkept : L'.positions.map (·.trackId) = base.positions.map (·.trackId) := by
    rw [h.positions]
    unfold updateWhere
    rw [map_map]
    refine map_congr_left fun q hq => ?_
    rw [comp_apply]
    split
    · rename_i hid
      rw [h.position_track, hmvd q hq (of_decide_eq_true hid)]
    · rfl
  rw [hkept]
  have happ := h.applies
  cases happ with
  | found => exact hone
  | opened none newId empty =>
    refine nodup_insert hone fun q hq hsame => ?_
    rw [empty] at hsame
    exact newId q hq (honly q hq hsame)

end Filled

end Filled

end Ledger

/-! ## The ledger and its log -/

def EventDraft.movedTo : EventDraft → Option (Uuid × Decimal × Decimal)
  | .positionUpdated p => some (p.trackId, volume p.netQuantity, p.averagePrice)
  | _ => none

/-- Where a visit leaves its track. -/
def Visit.place (visit : Visit) : Uuid × Decimal × Decimal :=
  (visit.trackId, visit.state.net, visit.state.average)

/-- What a visit booked. -/
def Visit.profit (visit : Visit) : Decimal := visit.closed.getD 0

/-- No track has a position. -/
def allFlat : Uuid → ReportPositionState := ReportTally.none.states

structure Told (tracks : List Track) (log : List EventDraft) (L : Ledger) : Prop where
  path : log.filterMap EventDraft.movedTo = (visits allFlat L.madeSides).map Visit.place
  whole : ∀ fill ∈ L.fills, 0 < fill.quantity
  one : (L.positions.map (·.trackId)).Nodup
  markets : ∀ p ∈ L.positions, ∃ track ∈ tracks, track.id = p.trackId ∧ track.symbol = p.symbol
  stands : ∀ p ∈ L.positions, (statesAfter allFlat L.madeSides p.trackId).Matches p
  flat : ∀ k, (∀ p ∈ L.positions, p.trackId ≠ k) → statesAfter allFlat L.madeSides k = .flat
  money : ∀ account, L.account = some account →
    ((visits allFlat L.madeSides).map Visit.profit).sum -
      (tracks.map fun track => (statesAfter allFlat L.madeSides track.id).entryCommission).sum =
        account.balance - account.startingEquity

/-- A position as the log tells of it. -/
def PositionRow.market (p : PositionRow) : Uuid × String × Int × Decimal :=
  (p.trackId, p.symbol, p.netQuantity, p.averagePrice)

def AccountRow.money (account : AccountRow) : Decimal × Decimal := (account.balance, account.startingEquity)

section Told

variable {tracks : List Track} {log drafts : List EventDraft} {L L' : Ledger}

/-- A write that leaves the fills, the positions and the balance. -/
theorem Told.quiet (h : Told tracks log L) (hsides : L'.madeSides = L.madeSides) (hfills : L'.fills = L.fills)
    (hposs : L'.positions.map PositionRow.market = L.positions.map PositionRow.market)
    (hacct : L'.account.map AccountRow.money = L.account.map AccountRow.money)
    (hdrfs : drafts.filterMap EventDraft.movedTo = []) : Told tracks (log ++ drafts) L' := by
  refine ⟨?_, hfills ▸ h.whole, ?_, fun p hp => ?_, fun p hp => ?_, fun k hk => ?_, fun account hacct' => ?_⟩
  · rw [filterMap_append, hdrfs, append_nil, hsides]
    exact h.path
  · have htrks : ∀ X : Ledger, X.positions.map (·.trackId) = (X.positions.map market).map (·.1) := by
      intro X
      rw [map_map]
      rfl
    rw [htrks, hposs, ← htrks]
    exact h.one
  · obtain ⟨q, hq, hsame⟩ := exists_of_map_eq hposs hp
    obtain ⟨track, htrk, hid, hsym⟩ := h.markets q hq
    simp only [market, Prod.mk.injEq] at hsame
    exact ⟨track, htrk, hid.trans hsame.1, hsym.trans hsame.2.1⟩
  · obtain ⟨q, hq, hsame⟩ := exists_of_map_eq hposs hp
    obtain ⟨hnet, haverage⟩ := h.stands q hq
    simp only [market, Prod.mk.injEq] at hsame
    rw [hsides, ← hsame.1]
    exact ⟨hnet.trans (by rw [hsame.2.2.1]), haverage.trans hsame.2.2.2⟩
  · rw [hsides]
    refine h.flat k fun q hq htrk => ?_
    obtain ⟨p, hp, hsame⟩ := exists_of_map_eq hposs.symm hq
    simp only [market, Prod.mk.injEq] at hsame
    exact hk p hp (hsame.1.trans htrk)
  · rw [hacct', Option.map_some, eq_comm, Option.map_eq_some_iff] at hacct
    obtain ⟨old, hold, hsame⟩ := hacct
    simp only [AccountRow.money, Prod.mk.injEq] at hsame
    rw [hsides, h.money old hold, hsame.1, hsame.2]

theorem sum_visited {states : Uuid → ReportPositionState} {visit : Visit} {track : Track}
    (hids : (tracks.map (·.id)).Nodup) (htrk : track ∈ tracks) (hid : track.id = visit.trackId) :
    (tracks.map fun other => (visited states visit other.id).entryCommission).sum =
      (tracks.map fun other => (states other.id).entryCommission).sum +
        (visit.state.entryCommission - (states visit.trackId).entryCommission) := by
  have hoth : ∀ other ∈ tracks, other.id ≠ track.id →
      (visited states visit other.id).entryCommission = (states other.id).entryCommission := by
    intro other _ hne
    unfold visited
    rw [if_neg (hid ▸ hne)]
  rw [Table.sum_map_of_one hids htrk hoth]
  unfold visited
  rw [if_pos hid, hid]

/-- **A fill tells of the position it leaves**, and of the money it moves. -/
theorem Told.filled {fill : Ledger.FillRequest} {row : FillRow} {p position : PositionRow} {realized : Decimal}
    {base : Ledger} {order : OrderRow} {track : Track} (h : Told tracks log L) (hkyd : L.Keyed)
    (hids : (tracks.map (·.id)).Nodup) (hqty : 0 < fill.qty)
    (hfld : Ledger.Filled L fill drafts L' row p position realized base)
    (hord : order ∈ L.orders) (hid : order.id = fill.orderId) (hside : order.side = fill.side)
    (htrk : track ∈ tracks) (hmkt : track.id = fill.trackId ∧ track.symbol = fill.symbol) :
    Told tracks (log ++ drafts) L' := by
  have hrow : row.trackId = fill.trackId ∧ row.price = fill.price ∧ row.quantity = fill.qty := by
    rw [hfld.made]
    exact ⟨rfl, rfl, rfl⟩
  have hsides := hfld.madeSides hkyd hord hid
  rw [hside] at hsides
  -- the position before the fill is where the report stands
  have hbef : (statesAfter allFlat L.madeSides fill.trackId).Matches p ∧ p.symbol = fill.symbol ∧
      ∀ q ∈ L.positions, q.trackId = fill.trackId ↔ q.id = p.id := by
    have happ := hfld.applies
    cases happ with
    | found mem track_ market =>
      refine ⟨track_ ▸ h.stands p mem, market, fun q hq => ⟨fun hsame => ?_, fun hsame => ?_⟩⟩
      · rw [inj_on_of_nodup_map h.one hq mem (hsame.trans track_.symm)]
      · rw [inj_on_of_nodup_map hkyd.positions hq mem hsame]
        exact track_
    | opened none newId empty =>
      have hnone : ∀ q ∈ L.positions, q.trackId ≠ fill.trackId := by
        intro q hq hsame
        obtain ⟨other, hoth, hotherId, hsym⟩ := h.markets q hq
        have hone := inj_on_of_nodup_map hids hoth htrk (hotherId.trans (hsame.trans hmkt.1.symm))
        rw [hone] at hsym
        exact none q hq ⟨hsame, hsym.symm.trans hmkt.2⟩
      refine ⟨?_, by rw [empty]; rfl, fun q hq => iff_of_false (hnone q hq) (newId q hq)⟩
      rw [h.flat _ hnone, empty]
      exact ⟨volume_zero.symm, rfl⟩
  obtain ⟨hmatches, -, hmoney⟩ := applyReportFill_matches fill.side fill.price row.commission fill.sl fill.tp hbef.1 hqty
  have hposn := hfld.position_eq
  have hrealized : realized = (p.filled fill.side fill.qty fill.price fill.sl fill.tp).2 :=
    congrArg Prod.snd hfld.moves
  rw [← hposn] at hmatches
  rw [← hrealized] at hmoney
  -- the visit of the fill
  obtain ⟨visit, hvisit⟩ : ∃ visit, visit = visitOf (statesAfter allFlat L.madeSides) (row, fill.side) :=
    ⟨_, rfl⟩
  have hseen :
      visit.trackId = fill.trackId ∧ visit.state.Matches position ∧ visit.profit - (visit.state.entryCommission -
        (statesAfter allFlat L.madeSides visit.trackId).entryCommission) = realized - row.commission := by
    have hmade :
        visit = ⟨fill.trackId, (applyReportFill (statesAfter allFlat L.madeSides fill.trackId) fill.side fill.price
          (volume fill.qty) row.commission).1,
        (applyReportFill (statesAfter allFlat L.madeSides fill.trackId) fill.side fill.price
          (volume fill.qty) row.commission).2⟩ := by
      rw [hvisit]
      unfold visitOf
      rw [hrow.1, hrow.2.1, hrow.2.2]
    rw [hmade]
    exact ⟨rfl, hmatches, hmoney⟩
  have hvisits : visits allFlat L'.madeSides = visits allFlat L.madeSides ++ [visit] := by
    rw [hsides, visits_append, hvisit]
    rfl
  have hstates : statesAfter allFlat L'.madeSides = visited (statesAfter allFlat L.madeSides) visit := by
    rw [hsides, statesAfter_append, hvisit]
    rfl
  have hmem (q : PositionRow) : q ∈ L'.positions ↔ q = position ∨ (q ∈ L.positions ∧ q.id ≠ p.id) :=
    hfld.mem_positions_iff
  have hposTrk := hfld.position_track
  have hsame := @filled_same p fill.side fill.qty fill.price fill.sl fill.tp
  have hoth : ∀ k, k ≠ fill.trackId → statesAfter allFlat L'.madeSides k = statesAfter allFlat L.madeSides k := by
    intro k hk
    rw [hstates]
    unfold visited
    rw [if_neg (by rw [hseen.1]; exact hk)]
  refine ⟨?_, fun other hoth => ?_, ?_, fun q hq => ?_, fun q hq => ?_, fun k hk => ?_, fun account hacct => ?_⟩
  · have hpl : visit.place = (position.trackId, volume position.netQuantity, position.averagePrice) := by
      unfold Visit.place
      rw [hseen.1, hposTrk, hseen.2.1.net, hseen.2.1.average]
    rw [filterMap_append, h.path, hvisits, map_append, map_singleton, hpl, hfld.drafted]
    rfl
  · rw [hfld.fills] at hoth
    rcases mem_append.mp hoth with hold | hnew
    · exact h.whole other hold
    · rw [mem_singleton.mp hnew, hrow.2.2]
      exact hqty
  · exact hfld.tracks_nodup hkyd h.one (fun q hq hsame => (hbef.2.2 q hq).mp hsame)
  · rcases (hmem q).mp hq with rfl | ⟨hold, -⟩
    · refine ⟨track, htrk, hmkt.1.trans hposTrk.symm, hmkt.2.trans ?_⟩
      rw [hposn, hsame.2.2.1, hbef.2.1]
    · exact h.markets q hold
  · rcases (hmem q).mp hq with rfl | ⟨hold, hapa⟩
    · rw [hstates]
      unfold visited
      rw [hposTrk, if_pos hseen.1.symm]
      exact hseen.2.1
    · have hk : q.trackId ≠ fill.trackId := fun hk => hapa ((hbef.2.2 q hold).mp hk)
      rw [hoth _ hk]
      exact h.stands q hold
  · have hk' : k ≠ fill.trackId := by
      have hposn' := hk position ((hmem position).mpr (.inl rfl))
      rw [hposTrk] at hposn'
      exact hposn'.symm
    rw [hoth k hk']
    refine h.flat k fun q hq hqk => hk q ((hmem q).mpr (.inr ⟨hq, fun hid => ?_⟩)) hqk
    exact hk' (hqk.symm.trans ((hbef.2.2 q hq).mpr hid))
  · obtain ⟨old, hold, hbal, hstart⟩ := hfld.account_some hacct
    rw [hvisits, hstates, map_append, sum_append, map_singleton, sum_singleton,
      sum_visited hids htrk (hmkt.1.trans hseen.1.symm), hbal, hstart]
    have hsofar := h.money old hold
    linarith

end Told

end MarketLens.Replay
