import MarketLens.Replay.Causality
import MarketLens.Replay.Marks

/-!
# What the ledger conserves

As long as nothing is reset the fills account for everything: the net quantity of a
position is what was filled on its track, what it has realized less what it holds at
its average price is what was spent, the balance is what was realized and charged,
and an order is filled by its fills and no further.
-/

namespace MarketLens.Replay

open List Option Bool Journal Function Ledger Fallible Table Runs

namespace Ledger

/-! ## What is conserved -/

section Sums

variable (ledger : Ledger)

def orderSide (orderId : Uuid) : Option Side := (ledger.orders.find? fun order => order.id = orderId).map (·.side)

/-- The quantity of a fill, with the sign of its order's side. -/
def signedFill (fill : FillRow) : Int := ((ledger.orderSide fill.orderId).map (·.signed fill.quantity)).getD 0

def fillsOf (trackId : Uuid) : List FillRow := ledger.fills.filter fun fill => fill.trackId = trackId

/-- The signed sum of the quantities filled on a track. -/
def netOf (trackId : Uuid) : Int := ((ledger.fillsOf trackId).map ledger.signedFill).sum

/-- The signed sum of price times quantity of the fills on a track. -/
def costOf (trackId : Uuid) : Decimal :=
  ((ledger.fillsOf trackId).map fun fill => fill.price * volume (ledger.signedFill fill)).sum

def filledOf (orderId : Uuid) : Int :=
  ((ledger.fills.filter fun fill => fill.orderId = orderId).map (·.quantity)).sum

end Sums

structure Conserved (ledger : Ledger) : Prop where
  /-- A track has one position, if it has a fill. -/
  single : (ledger.positions.map (·.trackId)).Nodup
  placed : ∀ fill ∈ ledger.fills, ∃ p ∈ ledger.positions, p.trackId = fill.trackId
  owned : ∀ fill ∈ ledger.fills, ∃ order ∈ ledger.orders, order.id = fill.orderId
  net : ∀ p ∈ ledger.positions, p.netQuantity = ledger.netOf p.trackId
  cost : ∀ p ∈ ledger.positions, p.realizedPnl - p.averagePrice * volume p.netQuantity = -ledger.costOf p.trackId
  balance : ∀ account, ledger.account = some account → account.balance =
    account.startingEquity + (ledger.positions.map (·.realizedPnl)).sum - (ledger.fills.map (·.commission)).sum
  filled : ∀ order ∈ ledger.orders, order.filledQuantity = ledger.filledOf order.id ∧ order.filledQuantity ≤ order.quantity

structure Accounted (market : Uuid → String → Prop) (ledger : Ledger) : Prop where
  conserved : ledger.Conserved
  orderIds : (ledger.orders.map (·.id)).Nodup
  positionIds : (ledger.positions.map (·.id)).Nodup
  markets : ∀ p ∈ ledger.positions, market p.trackId p.symbol

variable {ledger after : Ledger} {drafts : List EventDraft} {market : Uuid → String → Prop}

/-! ## One position -/

/-- **A fill changes what is realized less what is held by what it spends.** -/
theorem filled_cost (p : PositionRow) (side : Side) {qty : Int} (price : Decimal) (sl tp : Option Decimal) (hqty : 0 < qty) :
    (p.filled side qty price sl tp).1.realizedPnl = p.realizedPnl + (p.filled side qty price sl tp).2 ∧
    (p.filled side qty price sl tp).1.realizedPnl
        - (p.filled side qty price sl tp).1.averagePrice * volume (p.filled side qty price sl tp).1.netQuantity
      = p.realizedPnl - p.averagePrice * volume p.netQuantity - price * volume (side.signed qty) := by
  have hsig : side.signed qty = qty ∨ side.signed qty = -qty := by
    cases side with
    | buy => exact .inl rfl
    | sell => exact .inr rfl
  -- What a fill that takes no less than the position realizes.
  have hwho : |p.netQuantity| ≤ qty → p.realizedBy qty price = (price - p.averagePrice) * volume p.netQuantity := by
    intro hle
    unfold PositionRow.realizedBy
    rw [min_eq_left hle]
    split
    · rename_i hneg
      rw [abs_of_neg hneg, volume_neg]
      ring
    · rename_i hpos
      rw [abs_of_nonneg (not_lt.mp hpos)]
  rcases filled_cases p side qty price sl tp with
    ⟨hadds, h⟩ | ⟨hne, hopposite, ⟨hflat, h⟩ | ⟨hleft, hturned, h⟩ | ⟨hpart, h⟩⟩ <;> rw [h] <;> dsimp only
  · refine ⟨(add_zero _).symm, ?_⟩
    have htotal : volume |p.netQuantity| + volume qty ≠ 0 := by
      have hheld : 0 ≤ volume |p.netQuantity| := by unfold volume; positivity
      have hadded := volume_pos hqty
      positivity
    have hproduct : (p.averagePrice * volume |p.netQuantity| + price * volume qty) / (volume |p.netQuantity| + volume qty)
        * (volume |p.netQuantity| + volume qty) = p.averagePrice * volume |p.netQuantity| + price * volume qty :=
      div_mul_cancel₀ _ htotal
    rw [sameSign_iff] at hadds
    rcases hsig with hbuy | hsell
    · have hnonneg : 0 ≤ p.netQuantity := by omega
      rw [hbuy, volume_add]
      rw [abs_of_nonneg hnonneg] at hproduct ⊢
      linarith
    · have hnonpos : p.netQuantity ≤ 0 := by omega
      rw [hsell, volume_add, volume_neg]
      rw [abs_of_nonpos hnonpos, volume_neg] at hproduct ⊢
      linarith
  · refine ⟨rfl, ?_⟩
    have hle : |p.netQuantity| ≤ qty := by
      rw [abs_le]
      omega
    have hback : volume (side.signed qty) = -volume p.netQuantity := by
      rw [← volume_neg]
      exact congrArg volume (by omega)
    rw [hwho hle, hback]
    ring
  · refine ⟨rfl, ?_⟩
    have hle : |p.netQuantity| ≤ qty := by
      rw [eq_false_iff, Ne, sameSign_iff] at hturned hopposite
      rw [abs_le]
      omega
    rw [hwho hle, volume_add]
    ring
  · refine ⟨rfl, ?_⟩
    rw [eq_false_iff, Ne, sameSign_iff] at hopposite
    rw [sameSign_iff] at hpart
    have hle : qty ≤ |p.netQuantity| := by
      rw [le_abs]
      omega
    have hpartly : p.realizedBy qty price = -((price - p.averagePrice) * volume (side.signed qty)) := by
      unfold PositionRow.realizedBy
      rw [min_eq_right hle]
      split
      · have hbuy : side.signed qty = qty := by omega
        rw [hbuy]
      · have hsell : side.signed qty = -qty := by omega
        rw [hsell, volume_neg]
        ring
    rw [hpartly, volume_add]
    ring

/-! ## Rows that say the same -/

theorem orderSide_congr (h : (after.orders.map fun order => (order.id, order.side))
    = ledger.orders.map fun order => (order.id, order.side)) : after.orderSide = ledger.orderSide := by
  have hcolumns : ∀ (one : Ledger) (orderId : Uuid), one.orderSide orderId
      = ((one.orders.map fun order => (order.id, order.side)).find? fun row => row.1 = orderId).map (·.2) := by
    intro one orderId
    rw [find?_map, Option.map_map]
    rfl
  funext orderId
  rw [hcolumns, hcolumns, h]

theorem signedFill_congr (h : after.orderSide = ledger.orderSide) : after.signedFill = ledger.signedFill := by
  funext fill
  unfold signedFill
  rw [h]

/-- The same fills add up to the same, if their orders are on the same sides. -/
theorem sums_congr (hfills : after.fills = ledger.fills) (hsig : ∀ fill ∈ ledger.fills, after.signedFill fill = ledger.signedFill fill)
    (trackId : Uuid) : after.netOf trackId = ledger.netOf trackId ∧ after.costOf trackId = ledger.costOf trackId := by
  have hmem : ∀ fill ∈ ledger.fillsOf trackId, after.signedFill fill = ledger.signedFill fill := fun fill hfill =>
    hsig fill (mem_of_mem_filter hfill)
  have hof : after.fillsOf trackId = ledger.fillsOf trackId := by
    unfold fillsOf
    rw [hfills]
  unfold netOf costOf
  rw [hof]
  refine ⟨congrArg sum (map_congr_left hmem), congrArg sum (map_congr_left fun fill hfill => ?_)⟩
  rw [hmem fill hfill]

theorem filledOf_congr (hfills : after.fills = ledger.fills) : after.filledOf = ledger.filledOf := by
  funext orderId
  unfold filledOf
  rw [hfills]

structure SameColumns (before after : Ledger) : Prop where
  orders : (after.orders.map fun order => (order.id, order.side, order.quantity, order.filledQuantity))
    = before.orders.map fun order => (order.id, order.side, order.quantity, order.filledQuantity)
  fills : after.fills = before.fills
  positions : (after.positions.map fun p => (p.id, p.trackId, p.symbol, p.netQuantity, p.averagePrice, p.realizedPnl))
    = before.positions.map fun p => (p.id, p.trackId, p.symbol, p.netQuantity, p.averagePrice, p.realizedPnl)
  account : (after.account.map fun account => (account.startingEquity, account.balance))
    = before.account.map fun account => (account.startingEquity, account.balance)

theorem Accounted.of_columns (h : ledger.Accounted market) (hsame : SameColumns ledger after) : after.Accounted market := by
  have hord : ∀ order ∈ after.orders, ∃ old ∈ ledger.orders, old.id = order.id ∧ old.quantity = order.quantity ∧
      old.filledQuantity = order.filledQuantity := by
    intro order hmem
    obtain ⟨old, hold, heq⟩ := exists_of_map_eq hsame.orders hmem
    simp only [Prod.mk.injEq] at heq
    exact ⟨old, hold, heq.1, heq.2.2.1, heq.2.2.2⟩
  have hposn : ∀ p ∈ after.positions, ∃ old ∈ ledger.positions, old.trackId = p.trackId ∧ old.symbol = p.symbol ∧
      old.netQuantity = p.netQuantity ∧ old.averagePrice = p.averagePrice ∧ old.realizedPnl = p.realizedPnl := by
    intro p hmem
    obtain ⟨old, hold, heq⟩ := exists_of_map_eq hsame.positions hmem
    simp only [Prod.mk.injEq] at heq
    exact ⟨old, hold, heq.2.1, heq.2.2.1, heq.2.2.2.1, heq.2.2.2.2.1, heq.2.2.2.2.2⟩
  have htrks : after.positions.map (·.trackId) = ledger.positions.map (·.trackId) := by
    simpa only [List.map_map, comp_def] using congrArg (List.map fun column => column.2.1) hsame.positions
  have hids : after.positions.map (·.id) = ledger.positions.map (·.id) := by
    simpa only [List.map_map, comp_def] using congrArg (List.map fun column => column.1) hsame.positions
  have hrealized : after.positions.map (·.realizedPnl) = ledger.positions.map (·.realizedPnl) := by
    simpa only [List.map_map, comp_def] using congrArg (List.map fun column => column.2.2.2.2.2) hsame.positions
  have horderIds : after.orders.map (·.id) = ledger.orders.map (·.id) := by
    simpa only [List.map_map, comp_def] using congrArg (List.map fun column => column.1) hsame.orders
  have hsides : after.orderSide = ledger.orderSide := by
    refine orderSide_congr ?_
    simpa only [List.map_map, comp_def] using congrArg (List.map fun column => (column.1, column.2.1)) hsame.orders
  have hsums := sums_congr hsame.fills fun fill _ => congrFun (signedFill_congr hsides) fill
  have hfld := filledOf_congr hsame.fills
  -- Every part of the accounting reads columns that the two ledgers share.
  refine ⟨⟨?_, ?_, ?_, ?_, ?_, ?_, ?_⟩, ?_, ?_, ?_⟩
  · rw [htrks]
    exact h.conserved.single
  · intro fill hfill
    rw [hsame.fills] at hfill
    obtain ⟨p, hp, htrk⟩ := h.conserved.placed fill hfill
    obtain ⟨q, hq, heq⟩ := exists_of_map_eq htrks.symm hp
    exact ⟨q, hq, heq.trans htrk⟩
  · intro fill hfill
    rw [hsame.fills] at hfill
    obtain ⟨order, hmem, hid⟩ := h.conserved.owned fill hfill
    obtain ⟨other, hoth, heq⟩ := exists_of_map_eq horderIds.symm hmem
    exact ⟨other, hoth, heq.trans hid⟩
  · intro p hp
    obtain ⟨old, hold, htrk, -, hnet, -, -⟩ := hposn p hp
    rw [← hnet, ← htrk, (hsums old.trackId).1]
    exact h.conserved.net old hold
  · intro p hp
    obtain ⟨old, hold, htrk, -, hnet, haverage, hreal⟩ := hposn p hp
    rw [← hnet, ← htrk, ← haverage, ← hreal, (hsums old.trackId).2]
    exact h.conserved.cost old hold
  · intro account hacct
    have hcolumn := hsame.account
    rw [hacct, map_some, eq_comm, Option.map_eq_some_iff] at hcolumn
    obtain ⟨old, hold, heq⟩ := hcolumn
    simp only [Prod.mk.injEq] at heq
    rw [← heq.1, ← heq.2, hrealized, hsame.fills]
    exact h.conserved.balance old hold
  · intro order hmem
    obtain ⟨old, hold, hid, hqnt, hdone⟩ := hord order hmem
    rw [← hid, ← hqnt, ← hdone, hfld]
    exact h.conserved.filled old hold
  · rw [horderIds]
    exact h.orderIds
  · rw [hids]
    exact h.positionIds
  · intro p hp
    obtain ⟨old, hold, htrk, hsym, -⟩ := hposn p hp
    rw [← htrk, ← hsym]
    exact h.markets old hold

/-! ## Inserts -/

theorem Inserted.accounted {order : OrderRow} {id : Uuid} {placed : Ledger} (hins : Inserted ledger order id placed)
    (hemp : order.filledQuantity = 0) (h : ledger.Accounted market) : placed.Accounted market := by
  have hords := hins.orders
  have hfills := hins.fills
  have hposs : placed.positions = ledger.positions := by rw [hins.rows]
  have hacct : placed.account = ledger.account := by rw [hins.rows]
  -- An order that has a fill is found before the new one.
  have hsig : ∀ fill ∈ ledger.fills, placed.signedFill fill = ledger.signedFill fill := by
    intro fill hfill
    obtain ⟨old, hold, hid⟩ := h.conserved.owned fill hfill
    have hfnd : (ledger.orders.find? fun row => row.id = fill.orderId).isSome = true := by
      rw [find?_isSome]
      exact ⟨old, hold, decide_eq_true hid⟩
    unfold signedFill orderSide
    rw [hords, find?_append, or_of_isSome hfnd]
  have hsums := sums_congr hfills hsig
  have hfld := filledOf_congr hfills
  refine ⟨⟨?_, ?_, ?_, ?_, ?_, ?_, ?_⟩, hins.distinct h.orderIds, ?_, ?_⟩
  · rw [hposs]
    exact h.conserved.single
  · rw [hfills, hposs]
    exact h.conserved.placed
  · intro fill hfill
    rw [hfills] at hfill
    obtain ⟨old, hold, hid⟩ := h.conserved.owned fill hfill
    refine ⟨old, ?_, hid⟩
    rw [hords]
    exact mem_append_left _ hold
  · intro p hp
    rw [hposs] at hp
    rw [(hsums p.trackId).1]
    exact h.conserved.net p hp
  · intro p hp
    rw [hposs] at hp
    rw [(hsums p.trackId).2]
    exact h.conserved.cost p hp
  · rw [hacct, hposs, hfills]
    exact h.conserved.balance
  · intro row hrow
    rw [hfld]
    rw [hords] at hrow
    rcases mem_append.mp hrow with hold | hnew
    · exact h.conserved.filled row hold
    · rw [mem_singleton.mp hnew]
      have hnone : ledger.fills.filter (fun fill => fill.orderId = id) = [] := by
        rw [filter_eq_nil_iff]
        intro fill hfill hsame
        obtain ⟨old, hold, hid⟩ := h.conserved.owned fill hfill
        exact hins.newId old hold (hid.trans (of_decide_eq_true hsame))
      unfold filledOf
      rw [hnone, hemp]
      exact ⟨rfl, hins.positive.le⟩
  · rw [hposs]
    exact h.positionIds
  · rw [hposs]
    exact h.markets

/-! ## Fills -/

section Fills

variable {fill : FillRequest} {row : FillRow} {p position : PositionRow} {realized : Decimal} {base : Ledger}

structure Fits (market : Uuid → String → Prop) (ledger : Ledger) (fill : FillRequest) : Prop where
  order : ∃ order ∈ ledger.orders, order.id = fill.orderId ∧ order.side = fill.side ∧
    order.quantity = order.filledQuantity + fill.qty
  onMarket : market fill.trackId fill.symbol
  oneMarket : ∀ symbol, market fill.trackId symbol → symbol = fill.symbol

section Filled

variable (h : Filled ledger fill drafts after row p position realized base)
include h

theorem Filled.orderSide : after.orderSide = ledger.orderSide := by
  refine orderSide_congr ?_
  rw [h.orders, map_updateWhere (f := filledOrder) fun _ => rfl]

theorem Filled.sums (hside : ledger.orderSide fill.orderId = some fill.side) (trackId : Uuid) :
    after.netOf trackId = ledger.netOf trackId + (if fill.trackId = trackId then fill.side.signed fill.qty else 0) ∧
    after.costOf trackId = ledger.costOf trackId
      + (if fill.trackId = trackId then fill.price * volume (fill.side.signed fill.qty) else 0) := by
  have hsig := signedFill_congr h.orderSide
  have hrow : ledger.signedFill row = fill.side.signed fill.qty := by
    unfold signedFill
    rw [h.made]
    rw [hside]
    rfl
  have hprc : row.price = fill.price := by rw [h.made]
  have htrk : row.trackId = fill.trackId := by rw [h.made]
  unfold netOf costOf fillsOf
  rw [hsig, h.fills, filter_append]
  by_cases hsame : fill.trackId = trackId
  · have hof : [row].filter (fun other => other.trackId = trackId) = [row] := by simp [htrk, hsame]
    rw [hof, if_pos hsame, if_pos hsame]
    simp [hrow, hprc]
  · have hof : [row].filter (fun other => other.trackId = trackId) = [] := by simp [htrk, hsame]
    rw [hof, if_neg hsame, if_neg hsame]
    simp

theorem Filled.filledOf (orderId : Uuid) :
    after.filledOf orderId = ledger.filledOf orderId + (if fill.orderId = orderId then fill.qty else 0) := by
  have hid : row.orderId = fill.orderId := by rw [h.made]
  have hqty : row.quantity = fill.qty := by rw [h.made]
  unfold Ledger.filledOf
  rw [h.fills, filter_append]
  by_cases hsame : fill.orderId = orderId
  · simp [hid, hsame, hqty]
  · simp [hid, hsame]

theorem Filled.balance {account : AccountRow} (hacct : after.account = some account) :
    ∃ old, ledger.account = some old ∧
      account.startingEquity = old.startingEquity ∧ account.balance = old.balance + (realized - row.commission) := by
  have hbase := h.applies.account
  rw [h.rows] at hacct
  unfold book refreshEquity at hacct
  rw [hbase, Option.map_map, Option.map_eq_some_iff] at hacct
  obtain ⟨old, hold, rfl⟩ := hacct
  exact ⟨old, hold, rfl, rfl⟩

end Filled

/-- The positions before a fill, with the one it applies to among them. -/
structure Held (market : Uuid → String → Prop) (ledger : Ledger) (positions : List PositionRow) (p : PositionRow) : Prop where
  mem : p ∈ positions
  ids : (positions.map (·.id)).Nodup
  single : (positions.map (·.trackId)).Nodup
  markets : ∀ q ∈ positions, market q.trackId q.symbol
  placed : ∀ fill ∈ ledger.fills, ∃ q ∈ positions, q.trackId = fill.trackId
  net : ∀ q ∈ positions, q.netQuantity = ledger.netOf q.trackId
  cost : ∀ q ∈ positions, q.realizedPnl - q.averagePrice * volume q.netQuantity = -ledger.costOf q.trackId
  realized : (positions.map (·.realizedPnl)).sum = (ledger.positions.map (·.realizedPnl)).sum

theorem Filled.held (h : Filled ledger fill drafts after row p position realized base)
    (hfits : Fits market ledger fill) (haccd : ledger.Accounted market) : Held market ledger base.positions p := by
  have happ := h.applies
  cases happ with
  | found mem =>
    exact ⟨mem, haccd.positionIds, haccd.conserved.single, haccd.markets, haccd.conserved.placed,
      haccd.conserved.net, haccd.conserved.cost, rfl⟩
  | opened none newId empty =>
    have hnone : ∀ q ∈ ledger.positions, q.trackId ≠ fill.trackId := by
      intro q hq htrk
      have honMkt := haccd.markets q hq
      rw [htrk] at honMkt
      exact none q hq ⟨htrk, hfits.oneMarket _ honMkt⟩
    have hof : ledger.fillsOf fill.trackId = [] := by
      unfold fillsOf
      rw [filter_eq_nil_iff]
      intro made hmade hsame
      obtain ⟨q, hq, htrk⟩ := haccd.conserved.placed made hmade
      exact hnone q hq (htrk.trans (of_decide_eq_true hsame))
    have hp : p.trackId = fill.trackId ∧ p.symbol = fill.symbol ∧ p.netQuantity = 0 ∧ p.averagePrice = 0 ∧ p.realizedPnl = 0 := by
      rw [empty]
      exact ⟨rfl, rfl, rfl, rfl, rfl⟩
    obtain ⟨htrk, hsym, hnet, haverage, hreal⟩ := hp
    have hcs : ∀ q, q ∈ ledger.positions ++ [p] → q ∈ ledger.positions ∨ q = p := fun q hq =>
      (mem_append.mp hq).imp_right mem_singleton.mp
    refine ⟨mem_append_right _ mem_cons_self, ?_, ?_, ?_, ?_, ?_, ?_, ?_⟩
    · exact nodup_insert haccd.positionIds newId
    · exact nodup_insert haccd.conserved.single fun q hq hsame => hnone q hq (hsame.trans htrk)
    · intro q hq
      rcases hcs q hq with hold | rfl
      · exact haccd.markets q hold
      · rw [htrk, hsym]
        exact hfits.onMarket
    · intro made hmade
      obtain ⟨q, hq, hsame⟩ := haccd.conserved.placed made hmade
      exact ⟨q, mem_append_left _ hq, hsame⟩
    · intro q hq
      rcases hcs q hq with hold | rfl
      · exact haccd.conserved.net q hold
      · unfold netOf
        rw [htrk, hof, hnet]
        rfl
    · intro q hq
      rcases hcs q hq with hold | rfl
      · exact haccd.conserved.cost q hold
      · unfold costOf
        rw [htrk, hof, haverage, hreal]
        simp
    · show ((ledger.positions ++ [p]).map (·.realizedPnl)).sum = _
      rw [map_append, sum_append, map_singleton, sum_singleton, hreal, add_zero]

/-- **A fill that fits its order keeps the ledger accounted for.** -/
theorem Filled.accounted (h : Filled ledger fill drafts after row p position realized base) (hqty : 0 < fill.qty)
    (hfits : Fits market ledger fill) (haccd : ledger.Accounted market) : after.Accounted market := by
  obtain ⟨order, hord, hid, hside, hleft⟩ := hfits.order
  have hside' : ledger.orderSide fill.orderId = some fill.side := by
    unfold Ledger.orderSide
    rw [← hid, find?_key haccd.orderIds hord, ← hside]
    rfl
  have hheld := h.held hfits haccd
  have hsums := h.sums hside'
  have htrk := h.applies.trackId
  have hmvd := filled_cost p fill.side fill.price fill.sl fill.tp hqty
  rw [← h.moves] at hmvd
  obtain ⟨hrealized, hcost⟩ := hmvd
  have hnet : position.netQuantity = p.netQuantity + fill.side.signed fill.qty := by
    rw [h.position_eq]
    exact filled_net
  have hposTrk := h.position_track
  have hsym : position.symbol = p.symbol := by
    rw [h.position_eq]
    exact filled_same.2.2.1
  -- Another position is on another track.
  have hoths : ∀ q ∈ base.positions, q.id ≠ p.id → fill.trackId ≠ q.trackId := by
    intro q hq hne hsame
    refine hne (congrArg PositionRow.id (inj_on_of_nodup_map hheld.single hq hheld.mem ?_))
    exact hsame.symm.trans htrk.symm
  have hposs := h.positions
  have hcs : ∀ q ∈ after.positions, (q ∈ base.positions ∧ fill.trackId ≠ q.trackId) ∨ q = position := by
    intro q hq
    rw [hposs] at hq
    rcases updateWhere_cases hq with ⟨hold, hoth⟩ | ⟨_, _, _, rfl⟩
    · exact .inl ⟨hold, hoths q hold (of_decide_eq_false hoth)⟩
    · exact .inr rfl
  refine ⟨⟨?_, ?_, ?_, ?_, ?_, ?_, ?_⟩, ?_, h.distinct haccd.positionIds, ?_⟩
  · have hids : ∀ q ∈ base.positions, q.id = p.id → q = p := fun q hq hsame =>
      inj_on_of_nodup_map hheld.ids hq hheld.mem hsame
    have hsame : after.positions.map (·.trackId) = base.positions.map (·.trackId) := by
      rw [hposs]
      unfold updateWhere
      rw [List.map_map]
      refine map_congr_left fun q hq => ?_
      rw [comp_apply]
      split
      · rename_i hmat
        rw [hids q hq (of_decide_eq_true hmat), hposTrk, htrk]
      · rfl
    rw [hsame]
    exact hheld.single
  · intro made hmade
    have hold : ∃ q ∈ base.positions, q.trackId = made.trackId := by
      rw [h.fills] at hmade
      rcases mem_append.mp hmade with hold | hnew
      · exact hheld.placed made hold
      · refine ⟨p, hheld.mem, ?_⟩
        rw [mem_singleton.mp hnew, h.made]
        exact htrk
    obtain ⟨q, hq, hsame⟩ := hold
    by_cases hmoves : q.id = p.id
    · have hp : q = p := inj_on_of_nodup_map hheld.ids hq hheld.mem hmoves
      refine ⟨position, ?_, ?_⟩
      · rw [hposs]
        exact updated_mem hq (decide_eq_true hmoves)
      · rw [hposTrk, ← hsame, hp, htrk]
    · refine ⟨q, ?_, hsame⟩
      rw [hposs]
      exact unmatched_mem hq (by simpa using hmoves)
  · intro made hmade
    have hold : ∃ other ∈ ledger.orders, other.id = made.orderId := by
      rw [h.fills] at hmade
      rcases mem_append.mp hmade with hold | hnew
      · exact haccd.conserved.owned made hold
      · refine ⟨order, hord, ?_⟩
        rw [mem_singleton.mp hnew, h.made]
        exact hid
    obtain ⟨other, hoth, hsame⟩ := hold
    obtain ⟨kept, hkept, hkeptId, -⟩ := h.keepsOrders other hoth
    exact ⟨kept, hkept, hkeptId.trans hsame⟩
  · intro q hq
    rw [(hsums q.trackId).1]
    rcases hcs q hq with ⟨hold, hoth⟩ | rfl
    · rw [if_neg hoth, add_zero]
      exact hheld.net q hold
    · rw [if_pos hposTrk.symm, hnet, hheld.net p hheld.mem, htrk, hposTrk]
  · intro q hq
    rw [(hsums q.trackId).2]
    rcases hcs q hq with ⟨hold, hoth⟩ | rfl
    · rw [if_neg hoth, add_zero]
      exact hheld.cost q hold
    · rw [if_pos hposTrk.symm, hcost, hheld.cost p hheld.mem, htrk, hposTrk]
      ring
  · intro account hacct
    obtain ⟨old, hold, hstart, hbal⟩ := h.balance hacct
    have hsum : (after.positions.map (·.realizedPnl)).sum = (ledger.positions.map (·.realizedPnl)).sum + realized := by
      rw [hposs, sum_map_updateWhere hheld.ids hheld.mem, hheld.realized, hrealized]
      ring
    have hcommissions : (after.fills.map (·.commission)).sum = (ledger.fills.map (·.commission)).sum + row.commission := by
      rw [h.fills, map_append, sum_append, map_singleton, sum_singleton]
    rw [hsum, hcommissions, hbal, hstart, haccd.conserved.balance old hold]
    ring
  · intro other hoth
    rw [h.filledOf]
    rw [h.orders] at hoth
    rcases updateWhere_cases hoth with ⟨hold, hnot⟩ | ⟨old, hold, hmat, rfl⟩
    · rw [if_neg fun hsame => of_decide_eq_false hnot hsame.symm, add_zero]
      exact haccd.conserved.filled other hold
    · -- The filled order is the one the fill fits.
      have hsame : old = order := inj_on_of_nodup_map haccd.orderIds hold hord ((of_decide_eq_true hmat).trans hid.symm)
      obtain ⟨hdone, -⟩ := haccd.conserved.filled order hord
      rw [hsame]
      unfold filledOrder
      rw [hid, if_pos rfl, ← hid, ← hdone, hleft]
      exact ⟨rfl, le_refl _⟩
  · rw [h.orders, map_updateWhere (f := filledOrder) fun _ => rfl]
    exact haccd.orderIds
  · intro q hq
    rcases hcs q hq with ⟨hold, -⟩ | rfl
    · exact hheld.markets q hold
    · rw [hposTrk, hsym, ← htrk]
      exact hheld.markets p hheld.mem

/-- A fill that fits, made now or made before. -/
theorem fillOrder_accounted (hfill : ledger.fillOrder fill = .ok (drafts, after)) (hfits : Fits market ledger fill)
    (h : ledger.Accounted market) : after.Accounted market := by
  obtain ⟨hqty, -, ⟨-, -, rfl⟩ | ⟨row, p, position, realized, base, hfld⟩⟩ := fillOrder_ok hfill
  · exact h
  · exact hfld.accounted hqty hfits h

theorem Inserted.accounted_filled {order : OrderRow} {id : Uuid} {placed : Ledger} (hins : Inserted ledger order id placed)
    (hfill : placed.fillOrder fill = .ok (drafts, after)) (hemp : order.filledQuantity = 0) (hid : fill.orderId = id)
    (hside : fill.side = order.side) (hqty : fill.qty = order.quantity) (honMkt : market fill.trackId fill.symbol)
    (honeMarket : ∀ symbol, market fill.trackId symbol → symbol = fill.symbol) (h : ledger.Accounted market) :
    after.Accounted market := by
  refine fillOrder_accounted hfill ⟨⟨{ order with id := id }, ?_, hid.symm, hside.symm, ?_⟩, honMkt, honeMarket⟩
    (hins.accounted hemp h)
  · rw [hins.orders]
    exact mem_append_right _ mem_cons_self
  · rw [hemp, hqty, Int.zero_add]

end Fills

/-! ## Revealed rows -/

section Rows

variable {trackId : Uuid} {symbol : String} {bar : Bar}

theorem markToMarket_accounted (h : ledger.Accounted market) (trackId : Uuid) (bar : Bar) :
    (ledger.markToMarket trackId bar).Accounted market := by
  refine h.of_columns ⟨rfl, rfl, ?_, ?_⟩
  · unfold markToMarket refreshEquity
    rw [map_updateWhere]
    exact fun _ => rfl
  · unfold markToMarket refreshEquity
    rw [Option.map_map]
    rfl

/-- The order is as it was when the row came, or it has a fill on the row. -/
def StillThere (bar : Bar) (now : Ledger) (order : OrderRow) : Prop :=
  order ∈ now.orders ∨ ∃ fill ∈ now.fills, fill.orderId = order.id ∧ fill.datasetSeq = bar.seq

variable (hmkt : ∀ id first second, market id first → market id second → first = second)
include hmkt

theorem processBrackets_accounted (h : ledger.Accounted market) (hproc : ledger.processBrackets trackId bar = .ok (drafts, after)) :
    after.Accounted market := by
  refine collect_invariant (fun now => now.Accounted market) ?_ h hproc
  intro now p entries next hp haccd hrnd
  rcases processBracket_ok hrnd with ⟨-, rfl⟩ | ⟨price, kind, id, placed, filled, -, hins, hfill, -⟩
  · exact haccd
  · have honMkt := h.markets p (mem_openPositions hp).1
    exact hins.accounted_filled hfill rfl rfl rfl rfl honMkt (fun other hoth => hmkt _ _ _ hoth honMkt) haccd

variable (honMkt : market trackId symbol)
include honMkt

theorem processOrders_accounted (h : ledger.Accounted market)
    (hproc : collect (processOrder symbol bar) ledger (ledger.pendingOrders trackId) = .ok (drafts, after)) :
    after.Accounted market := by
  have hloop : after.Accounted market ∧ ∀ order ∈ ledger.pendingOrders trackId, StillThere bar after order := by
    refine collect_invariant (fun now => now.Accounted market ∧
      ∀ order ∈ ledger.pendingOrders trackId, StillThere bar now order) ?_
      ⟨h, fun order hord => .inl (mem_pendingOrders.mp hord).1⟩ hproc
    intro now order entries next hpend ⟨haccd, hthere⟩ hrnd
    rcases processOrder_ok hrnd with ⟨-, rfl⟩ | ⟨price, -, hfill⟩
    · exact ⟨haccd, hthere⟩
    · obtain ⟨hqty, -, ⟨-, -, rfl⟩ | ⟨row, p, position, realized, base, hfld⟩⟩ := fillOrder_ok hfill
      · exact ⟨haccd, hthere⟩
      · -- A first fill of the order on the row finds the order as it was.
        have hmem : order ∈ now.orders := by
          rcases hthere order hpend with hmem | ⟨made, hmade, hid, hseq⟩
          · exact hmem
          · exact absurd ⟨hid, hseq⟩ (hfld.first made hmade)
        obtain ⟨hold, htrk, -⟩ := mem_pendingOrders.mp hpend
        refine ⟨hfld.accounted hqty ⟨⟨order, hmem, rfl, rfl, ?_⟩, ?_, ?_⟩ haccd, ?_⟩
        · show order.quantity = order.filledQuantity + (order.quantity - order.filledQuantity)
          omega
        · rw [← htrk] at honMkt
          exact honMkt
        · intro other hoth
          rw [← htrk] at honMkt
          exact hmkt _ _ _ hoth honMkt
        · intro other hoth
          by_cases hsame : other.id = order.id
          · refine .inr ⟨row, ?_, ?_, ?_⟩
            · rw [hfld.fills]
              exact mem_append_right _ mem_cons_self
            · rw [hfld.made]
              exact hsame.symm
            · rw [hfld.made]
          · rcases hthere other hoth with hmem | ⟨made, hmade, hid, hseq⟩
            · refine .inl ?_
              rw [hfld.orders]
              exact unmatched_mem hmem (by simpa using hsame)
            · refine .inr ⟨made, ?_, hid, hseq⟩
              rw [hfld.fills]
              exact mem_append_left _ hmade
  exact hloop.1

theorem processRow_accounted (h : ledger.Accounted market)
    (hproc : processRow trackId symbol ledger bar = .ok (drafts, after)) : after.Accounted market := by
  obtain ⟨brackets, mid, fills, final, hbrks, hfills, -, rfl⟩ := processRow_ok hproc
  have hmid := processBrackets_accounted hmkt h hbrks
  have hfinal := processOrders_accounted hmkt honMkt hmid hfills
  exact markToMarket_accounted hfinal trackId bar

end Rows

/-! ## Trade commands -/

theorem trade_accounted {session : Session} {track : Track} {command : Command}
    (hmkt : ∀ id first second, market id first → market id second → first = second)
    (honMkt : market track.id track.symbol) (hkept : command ≠ .resetTrading) (htrd : command.isTrade = true)
    (h : ledger.Accounted market) (hop : tradeLedger session track ledger command = .ok (drafts, after)) :
    after.Accounted market := by
  cases command with
  | placeOrder =>
    rw [tradeLedger, bind_ok] at hop
    obtain ⟨view, hview, hpl⟩ := hop
    obtain ⟨hid, hsym, -, -⟩ := marketView_ok hview
    obtain ⟨order, id, placed, hreqd, hins, ⟨-, -, rfl⟩ | ⟨filled, -, hfill, -⟩⟩ := place_ok hpl
    · exact hins.accounted hreqd.empty h
    · rw [← hid, ← hsym] at honMkt
      exact hins.accounted_filled hfill hreqd.empty rfl rfl rfl honMkt (fun other hoth => hmkt _ _ _ hoth honMkt) h
  | closePosition =>
    rw [tradeLedger, bind_ok] at hop
    obtain ⟨view, -, hclose⟩ := hop
    obtain ⟨body, p, clientOrderId, id, placed, filled, -, -, hp, -, hins, hfill, -⟩ := closePosition_ok hclose
    have honMkt := h.markets p hp
    exact hins.accounted_filled hfill rfl rfl rfl rfl honMkt (fun other hoth => hmkt _ _ _ hoth honMkt) h
  | cancelOrder =>
    obtain ⟨id, -, rfl⟩ := cancel_ok hop
    refine h.of_columns ⟨?_, rfl, rfl, rfl⟩
    rw [map_updateWhere]
    exact fun _ => rfl
  | updateOrder =>
    obtain ⟨id, trackId, sl, tp, -, rfl⟩ := updateBracket_ok hop
    refine h.of_columns ⟨?_, rfl, ?_, rfl⟩
    · rw [map_updateWhere]
      exact fun _ => rfl
    · rw [map_updateWhere]
      exact fun _ => rfl
  | resetTrading => exact absurd rfl hkept
  | _ => cases htrd

theorem Accounted.mono {more : Uuid → String → Prop} (h : ledger.Accounted market)
    (hmore : ∀ id symbol, market id symbol → more id symbol) : ledger.Accounted more :=
  ⟨h.conserved, h.orderIds, h.positionIds, fun p hp => hmore _ _ (h.markets p hp)⟩

end Ledger

/-! ## One command -/

/-- The market of a track. -/
def onTracks (tracks : List Track) (id : Uuid) (symbol : String) : Prop :=
  ∃ track ∈ tracks, track.id = id ∧ track.symbol = symbol

theorem onTracks_one {tracks : List Track} (h : (tracks.map (·.id)).Nodup) (id : Uuid) (first second : String)
    (hfs : onTracks tracks id first) (hsec : onTracks tracks id second) : first = second := by
  obtain ⟨track, htrk, hid, rfl⟩ := hfs
  obtain ⟨other, hoth, hotherId, rfl⟩ := hsec
  rw [inj_on_of_nodup_map h htrk hoth (hid.trans hotherId.symm)]

theorem onTracks_mono {tracks after : List Track} (h : Forall₂ Track.SameTrack tracks after) (id : Uuid)
    (symbol : String) (hon : onTracks tracks id symbol) : onTracks after id symbol := by
  obtain ⟨track, htrk, hid, hsym⟩ := hon
  obtain ⟨moved, hmvd, hsame⟩ := forall₂_mem_right h.flip htrk
  exact ⟨moved, hmvd, hsame.id.trans hid, hsame.symbol.trans hsym⟩

/-- Neither the reset nor a seek that resets. -/
def NoReset (db : Database) (input : CommandInput) : Prop :=
  input.command ≠ .resetTrading ∧ ∀ target resetTrading, seekTarget db.session input.command = .ok (target, resetTrading) →
    ¬(target < db.session.simulatedTime ∧ db.ledger.hasFills = true ∧ resetTrading = true)

section Command

variable {db db' : Database} {input : CommandInput} {result : CommandResult} {claimed : Session} {moved : Moved}

theorem reveal_accounted {useLedger batch : Bool} {tracks : List Track} {selected : List Bar} {ledger after : Ledger}
    {revealed : List Revealed} (hids : (tracks.map (·.id)).Nodup) (h : ledger.Accounted (onTracks tracks))
    (hreveal : collect (revealTrack useLedger batch) ledger (tracks.zip selected) = .ok (revealed, after)) :
    after.Accounted (onTracks tracks) := by
  refine reveal_keeps _ (fun next hnext now bar entries after _ hrow haccd => ?_) hreveal h
  exact processRow_accounted (onTracks_one hids) ⟨_, (of_mem_zip hnext).1, rfl, rfl⟩ haccd hrow

theorem recordEquity_accounted {ledger : Ledger} {market : Uuid → String → Prop} (h : ledger.Accounted market)
    (seq : Nat) (at_ : Int) : (ledger.recordEquity seq at_).Accounted market := by
  unfold recordEquity
  split
  · exact h
  · exact h.of_columns ⟨rfl, rfl, rfl, rfl⟩

theorem Committed.moved_accounted (hids : (db.tracks.map (·.id)).Nodup) (hkept : NoReset db input)
    (haccd : db.ledger.Accounted (onTracks db.tracks)) (h : Committed db input result db' claimed moved) :
    moved.ledger.Accounted (onTracks moved.tracks) := by
  obtain ⟨lease, rfl⟩ := h.claim
  have hdrawn : ({ db.ledger with uuids := db.ledger.drawn } : Ledger).Accounted (onTracks db.tracks) :=
    haccd.of_columns ⟨rfl, rfl, rfl, rfl⟩
  cases h.moves with
  | kept _ _ sameTracks sameLedger =>
    rw [sameTracks, sameLedger]
    exact hdrawn
  | stepped count batch selected target revealed steps resolved reveals shown =>
    have hsame : Forall₂ Track.SameTrack db.tracks moved.tracks := by
      have hsel := (resolveReplayStepTarget_ok resolved).1
      rw [shown]
      exact (stepped_forall₂ hsel.length_eq (revealed_tracks reveals)).imp fun _ _ hmvd => hmvd.1
    exact (reveal_accounted hids hdrawn reveals).mono (onTracks_mono hsame)
  | sought target resetTrading resetDrafts seeks rewinds placed =>
    have hsame : Forall₂ Track.SameTrack db.tracks moved.tracks := placed.imp fun _ _ hsought => (seekTrack_ok hsought).1
    rcases rewind_ok rewinds with ⟨-, hldg⟩ | ⟨-, hback, hfills, hreset, -⟩
    · rw [hldg]
      exact hdrawn.mono (onTracks_mono hsame)
    · exact absurd ⟨hback, hfills, hreset⟩ (hkept.2 target resetTrading seeks)
  | traded track drafts trades hasLedger enabled onTrack operates sameTracks =>
    rw [sameTracks]
    exact trade_accounted (onTracks_one hids) ⟨track, onTrack, rfl, rfl⟩ hkept.1 trades hdrawn operates

theorem command_accounted (hids : (db.tracks.map (·.id)).Nodup) (hkept : NoReset db input)
    (haccd : db.ledger.Accounted (onTracks db.tracks)) (h : db.command input = some db') :
    db'.ledger.Accounted (onTracks db'.tracks) := by
  obtain ⟨response, hcs⟩ := commanded_of_command hids h
  cases hcs with
  | unmoved _ same =>
    obtain ⟨uuids, hldg⟩ := same.ledger
    rw [same.tracks, hldg]
    exact haccd.of_columns ⟨rfl, rfl, rfl, rfl⟩
  | committed _ _ commits =>
    exact commits.stored (fun _ tracks ledger => ledger.Accounted (onTracks tracks)) (haccd.of_columns ⟨rfl, rfl, rfl, rfl⟩)
      (commits.moved_accounted hids hkept haccd) fun _ _ _ seq at_ h => recordEquity_accounted h seq at_

end Command

/-! ## Runs -/

section Runs

variable {start db : Database}

theorem prepared_accounted (h : Prepared start) : start.ledger.Accounted (onTracks start.tracks) := by
  have hnone : ∀ {α : Type} {P : α → Prop}, ∀ row ∈ ([] : List α), P row := nofun
  rcases h.account with ⟨currency, equity, commission, uuids, hldg⟩ | ⟨uuids, hldg⟩ <;> rw [hldg]
  · refine ⟨⟨nodup_nil, hnone, hnone, hnone, hnone, fun account hacct => ?_, hnone⟩, nodup_nil, nodup_nil, hnone⟩
    cases hacct
    simp [create]
  · refine ⟨⟨nodup_nil, hnone, hnone, hnone, hnone, fun account hacct => ?_, hnone⟩, nodup_nil, nodup_nil, hnone⟩
    cases hacct

/-- **In every run without a reset the ledger is conserved.** -/
theorem ledger_conserved (hprepared : Prepared start) (hrun : Reaches Database.command NoReset start db) :
    db.ledger.Conserved := by
  have hinvariant : (db.tracks.map (·.id)).Nodup ∧ db.ledger.Accounted (onTracks db.tracks) := by
    refine hrun.invariant (fun db => (db.tracks.map (·.id)).Nodup ∧ db.ledger.Accounted (onTracks db.tracks))
      ⟨hprepared.distinct, prepared_accounted hprepared⟩ ?_
    intro db input db' ⟨hids, haccd⟩ hkept hstep
    exact ⟨command_distinct hids hstep, command_accounted hids hkept haccd hstep⟩
  exact hinvariant.2.conserved

end Runs

/-- A request to sell three units at the market. -/
def sellThree : CommandInput :=
  clientCommand "sell" (.placeOrder (some ⟨"sell-1", none, "sell", "market", 3, none, none, none, none⟩))

/-- Two units bought at one, one of them closed at three, and three sold there: two of them are owed. -/
theorem turned_position_conserved : ∃ db, Reaches Database.command NoReset risingMinutes db ∧
    (db.ledger.positions.map fun p => (p.netQuantity, p.averagePrice, p.realizedPnl)) = [(-20000000000, 3, 4)] ∧
    db.ledger.Conserved := by
  have hrun : ((exec Database.command (fun _ input => input.command.isPlain) risingMinutes
      [buyTwo, clientCommand "step" (.step (some 1)), closeHalf, sellThree]).map fun db =>
        db.ledger.positions.map fun p => (p.netQuantity, p.averagePrice, p.realizedPnl)) = some [(-20000000000, 3, 4)] := by
    decide +kernel
  obtain ⟨db, hexec, htest⟩ := Option.map_eq_some_iff.mp hrun
  have hrch : Reaches Database.command NoReset risingMinutes db := by
    refine reaches_of_exec (fun db input hplain => ⟨?_, fun target resetTrading hseek => ?_⟩) hexec
    · intro hreset
      rw [hreset] at hplain
      cases hplain
    · exact absurd hseek (not_sought_of_plain hplain)
  exact ⟨db, hrch, htest, ledger_conserved risingMinutes_prepared hrch⟩

end MarketLens.Replay
