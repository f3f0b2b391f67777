import MarketLens.Replay.Transition

/-!
# What the ledger operations write

One inversion for each operation that inserts or fills: what it checked, and the
rows it leaves. Later proofs use these and never open an operation again.
-/

namespace MarketLens.Replay

open Fallible Table List

variable {view : MarketView}

namespace Ledger

variable {ledger after : Ledger} {drafts : List EventDraft}

/-! ## Inserts -/

structure Inserted (ledger : Ledger) (order : OrderRow) (id : Uuid) (placed : Ledger) : Prop where
  newClient : ∀ row ∈ ledger.orders, row.clientOrderId ≠ order.clientOrderId
  newId : ∀ row ∈ ledger.orders, row.id ≠ id
  positive : 0 < order.quantity
  drawn : id = ledger.nextId
  rows : placed = { ledger with
    orders := ledger.orders ++ [{ order with id := id }], uuids := ledger.drawn }

variable {order : OrderRow}

theorem insertOrder_ok {id : Uuid} {placed : Ledger}
    (h : ledger.insertOrder order = .ok (id, placed)) : Inserted ledger order id placed := by
  unfold insertOrder at h
  rw [unit_bind_ok, refuseIf_ok, unit_bind_ok, refuseIf_ok, Bool.or_eq_false_iff] at h
  obtain ⟨hcl, ⟨hqnt, hid⟩, h⟩ := h
  cases h
  refine ⟨?_, ?_, ?_, rfl, rfl⟩
  · intro row hrow hsame
    exact (any_eq_false.mp hcl) row hrow (decide_eq_true hsame)
  · intro row hrow hsame
    exact (any_eq_false.mp hid) row hrow (decide_eq_true hsame)
  · have := of_decide_eq_false hqnt
    omega

/-- The position a fill applies to: the first of its market, or a new flat one. -/
inductive PositionFor (ledger : Ledger) (trackId : Uuid) (symbol : String) (p : PositionRow) :
    Ledger → Prop where
  | found (mem : p ∈ ledger.positions) (track : p.trackId = trackId) (market : p.symbol = symbol) :
      PositionFor ledger trackId symbol p ledger
  | opened (none : ∀ row ∈ ledger.positions, ¬(row.trackId = trackId ∧ row.symbol = symbol))
      (newId : ∀ row ∈ ledger.positions, row.id ≠ p.id)
      (empty : p = emptyPosition ledger.nextId trackId symbol) :
      PositionFor ledger trackId symbol p
        { ledger with positions := ledger.positions ++ [p], uuids := ledger.drawn }

variable {symbol : String} {p : PositionRow}

theorem positionFor_ok {trackId : Uuid} {base : Ledger} (h : ledger.positionFor trackId symbol = .ok (p, base)) :
    PositionFor ledger trackId symbol p base := by
  unfold positionFor at h
  split at h
  · rename_i found hfnd
    cases h
    have hmat := find?_some hfnd
    rw [Bool.and_eq_true, decide_eq_true_iff, decide_eq_true_iff] at hmat
    exact .found (mem_of_find?_eq_some hfnd) hmat.1 hmat.2
  · rename_i hnone
    rw [unit_bind_ok, refuseIf_ok] at h
    obtain ⟨hid, h⟩ := h
    cases h
    refine .opened (fun row hrow hmat => ?_) (fun row hrow hsame => ?_) rfl
    · refine (find?_eq_none.mp hnone) row hrow ?_
      rw [Bool.and_eq_true, decide_eq_true_iff, decide_eq_true_iff]
      exact hmat
    · exact (any_eq_false.mp hid) row hrow (decide_eq_true hsame)

theorem PositionFor.trackId {trackId : Uuid} {base : Ledger}
    (h : PositionFor ledger trackId symbol p base) : p.trackId = trackId := by
  cases h with
  | found _ track => exact track
  | opened _ _ empty =>
    rw [empty]
    rfl

/-! ## Fills -/

structure Filled (ledger : Ledger) (fill : FillRequest) (drafts : List EventDraft) (after : Ledger)
    (row : FillRow) (p position : PositionRow) (realized : Decimal) (base : Ledger) : Prop where
  charged : ledger.commission fill.qty = .ok row.commission
  first : ∀ other ∈ ledger.fills, ¬(other.orderId = fill.orderId ∧ other.datasetSeq = fill.seq)
  newId : ∀ other ∈ ledger.fills, other.id ≠ row.id
  made : row = ⟨ledger.nextId, fill.orderId, fill.trackId, fill.seq, fill.at, fill.price, fill.qty,
    row.commission⟩
  applies : PositionFor (ledger.recordFill row) fill.trackId fill.symbol p base
  moves : (position, realized) = p.filled fill.side fill.qty fill.price fill.sl fill.tp
  drafted : drafts = [.orderFilled fill.orderId fill.price fill.qty, .fillCreated row,
    .positionUpdated position, .accountUpdated realized]
  rows : after = (Ledger.book { base with
    positions := updateWhere (fun other => other.id = p.id) (fun _ => position) base.positions }
      (realized - row.commission)).refreshEquity

/-- A fill is made, or it was made before and nothing is written. -/
theorem fillOrder_ok {fill : FillRequest} (h : ledger.fillOrder fill = .ok (drafts, after)) :
    0 < fill.qty ∧ 0 < fill.price ∧
      ((∃ row ∈ ledger.fills, row.orderId = fill.orderId ∧ row.datasetSeq = fill.seq) ∧
          drafts = [] ∧ after = ledger ∨
        ∃ row p position realized base,
          Filled ledger fill drafts after row p position realized base) := by
  unfold fillOrder at h
  rw [unit_bind_ok, refuseIf_ok, Bool.or_eq_false_iff, bind_ok] at h
  obtain ⟨⟨hqty, hprc⟩, commission, hcommi, h⟩ := h
  refine ⟨Int.not_le.mp (of_decide_eq_false hqty), not_le.mp (of_decide_eq_false hprc), ?_⟩
  split at h
  · rename_i htak
    cases h
    obtain ⟨row, hrow, hsame⟩ := any_eq_true.mp htak
    rw [Bool.and_eq_true, decide_eq_true_iff, decide_eq_true_iff] at hsame
    exact .inl ⟨⟨row, hrow, hsame⟩, rfl, rfl⟩
  · rename_i hfs
    rw [unit_bind_ok, refuseIf_ok, bind_ok] at h
    obtain ⟨hid, ⟨⟨position, realized⟩, moved⟩, happly, h⟩ := h
    cases h
    unfold applyPositionFill at happly
    obtain ⟨⟨p, base⟩, hposn, happly⟩ := bind_ok.mp happly
    have hfld : ((p.filled fill.side fill.qty fill.price fill.sl fill.tp), { base with
        positions := updateWhere (fun row => row.id = p.id)
          (fun _ => (p.filled fill.side fill.qty fill.price fill.sl fill.tp).1) base.positions })
        = ((position, realized), moved) := Except.ok.inj happly
    rw [Prod.mk.injEq] at hfld
    obtain ⟨hposn', rfl⟩ := hfld
    rw [Bool.not_eq_true] at hfs
    refine .inr ⟨_, p, position, realized, base, hcommi, ?_, ?_, rfl, positionFor_ok hposn, hposn'.symm, rfl, ?_⟩
    · intro other hoth hsame
      refine (any_eq_false.mp hfs) other hoth ?_
      rw [Bool.and_eq_true, decide_eq_true_iff, decide_eq_true_iff]
      exact hsame
    · intro other hoth hsame
      exact (any_eq_false.mp hid) other hoth (decide_eq_true hsame)
    · rw [hposn']

section Filled

variable {fill : FillRequest} {row : FillRow} {position : PositionRow} {realized : Decimal} {base : Ledger}

section PositionFor

variable {trackId : Uuid} (h : PositionFor ledger trackId symbol p base)
include h

theorem PositionFor.orders : base.orders = ledger.orders := by
  cases h <;> rfl

theorem PositionFor.fills : base.fills = ledger.fills := by
  cases h <;> rfl

theorem PositionFor.equityPoints : base.equityPoints = ledger.equityPoints := by
  cases h <;> rfl

theorem PositionFor.account : base.account = ledger.account := by
  cases h <;> rfl

end PositionFor

def filledOrder (order : OrderRow) : OrderRow :=
  { order with filledQuantity := order.quantity, status := .filled }

section FilledWrites

variable (h : Filled ledger fill drafts after row p position realized base)
include h

theorem Filled.orders : after.orders = updateWhere (fun order => order.id = fill.orderId) filledOrder ledger.orders := by
  have hid : row.orderId = fill.orderId := by rw [h.made]
  have hbase := h.applies.orders
  rw [h.rows]
  refine hbase.trans ?_
  rw [← hid]
  rfl

theorem Filled.fills : after.fills = ledger.fills ++ [row] := by
  rw [h.rows]
  exact h.applies.fills

theorem Filled.equityPoints : after.equityPoints = ledger.equityPoints := by
  rw [h.rows]
  exact h.applies.equityPoints

end FilledWrites

end Filled

/-! ## Revealed rows -/

variable {bar : Bar}

theorem processBracket_ok (h : processBracket bar ledger p = .ok (drafts, after)) :
    (drafts = [] ∧ after = ledger) ∨ ∃ price kind id placed filled, bracketPrice p bar = some (price, kind) ∧
      Inserted ledger (closingOrder p (bracketClientId p bar) |p.netQuantity| bar.openTime) id placed ∧
      placed.fillOrder ⟨id, p.trackId, p.symbol, closingSide p.netQuantity, |p.netQuantity|, price,
        bar.seq, bar.openTime, none, none⟩ = .ok (filled, after) ∧
      drafts = .bracketOrderCreated id kind :: filled := by
  unfold processBracket at h
  split at h
  · cases h
    exact .inl ⟨rfl, rfl⟩
  · rename_i price kind hprc
    split at h
    · cases h
      exact .inl ⟨rfl, rfl⟩
    · obtain ⟨⟨id, placed⟩, hinse, h⟩ := bind_ok.mp h
      obtain ⟨⟨filled, closed⟩, hfill, h⟩ := bind_ok.mp h
      cases h
      exact .inr ⟨price, kind, id, placed, filled, hprc, insertOrder_ok hinse, hfill, rfl⟩

theorem processOrder_ok (h : processOrder symbol bar ledger order = .ok (drafts, after)) :
    (drafts = [] ∧ after = ledger) ∨ ∃ price, triggerPrice order bar = some price ∧
      ledger.fillOrder ⟨order.id, order.trackId, symbol, order.side,
        order.quantity - order.filledQuantity, price, bar.seq, bar.openTime, order.stopLoss,
        order.takeProfit⟩ = .ok (drafts, after) := by
  unfold processOrder at h
  split at h
  · cases h
    exact .inl ⟨rfl, rfl⟩
  · rename_i price hprc
    exact .inr ⟨price, hprc, h⟩

theorem processRow_ok {trackId : Uuid} (h : processRow trackId symbol ledger bar = .ok (drafts, after)) :
    ∃ brackets mid fills final, ledger.processBrackets trackId bar = .ok (brackets, mid) ∧
      Journal.collect (processOrder symbol bar) mid (mid.pendingOrders trackId) = .ok (fills, final) ∧
      drafts = brackets ++ fills ∧ after = final.markToMarket trackId bar := by
  unfold processRow at h
  obtain ⟨⟨brackets, mid⟩, hbrks, h⟩ := bind_ok.mp h
  obtain ⟨⟨fills, final⟩, hfills, h⟩ := bind_ok.mp h
  cases h
  exact ⟨brackets, mid, fills, final, hbrks, hfills, rfl, rfl⟩

theorem mem_openPositions {trackId : Uuid} (h : p ∈ ledger.openPositions trackId) :
    p ∈ ledger.positions ∧ p.trackId = trackId ∧ p.netQuantity ≠ 0 := by
  unfold openPositions at h
  rw [mem_mergeSort, mem_filter, Bool.and_eq_true, decide_eq_true_iff,
    decide_eq_true_iff] at h
  exact h

theorem mem_pendingOrders {trackId : Uuid} : order ∈ ledger.pendingOrders trackId ↔
      order ∈ ledger.orders ∧ order.trackId = trackId ∧ order.status.active = true := by
  unfold pendingOrders
  rw [mem_mergeSort, mem_filter, Bool.and_eq_true, decide_eq_true_iff]

/-! ## Commands -/

structure Requested (view : MarketView) (payload : Option PlaceBody) (order : OrderRow) : Prop where
  body : ∃ body, payload = some body ∧ parseSide body.side = some order.side ∧
    parseOrderType body.orderType = some order.orderType ∧
    order.quantity = toUnits body.quantity ∧ ∀ id, body.trackId = some id → id = view.trackId
  track : order.trackId = view.trackId
  submitted : order.submittedAt = view.simulatedTime
  works : order.status = .pending
  empty : order.filledQuantity = 0

theorem place_ok {payload : Option PlaceBody} (h : ledger.place view payload = .ok (drafts, after)) :
    ∃ order id placed, Requested view payload order ∧ Inserted ledger order id placed ∧
      ((order.orderType ≠ .market ∧
          drafts = [.orderCreated id order.clientOrderId view.trackId] ∧ after = placed) ∨
        ∃ filled, order.orderType = .market ∧
          placed.fillOrder ⟨id, view.trackId, view.symbol, order.side, order.quantity, view.bar.close,
            view.bar.seq, view.simulatedTime, order.stopLoss, order.takeProfit⟩ = .ok (filled, after) ∧
          drafts = .orderCreated id order.clientOrderId view.trackId :: filled) := by
  unfold place at h
  obtain ⟨body, hbody, h⟩ := bind_ok.mp h
  obtain ⟨side, hside, h⟩ := bind_ok.mp h
  obtain ⟨-, h⟩ := unit_bind_ok.mp h
  obtain ⟨orderType, htype, h⟩ := bind_ok.mp h
  rw [require_ok] at hbody hside htype
  split at h
  · cases h
  rw [unit_bind_ok, unit_bind_ok, refuseIf_ok, refuseIf_ok, bind_ok] at h
  obtain ⟨-, htrk, ⟨id, placed⟩, hinse, h⟩ := h
  have hins := insertOrder_ok hinse
  have hnamed : ∀ id, body.trackId = some id → id = view.trackId := by
    intro id hid
    rw [hid, Option.any_some, decide_eq_false_iff_not, not_not] at htrk
    exact htrk
  have hreqd : Requested view payload ⟨0, view.trackId, trim body.clientOrderId, side,
      orderType, .pending, toUnits body.quantity, 0, body.limitPrice, body.stopPrice,
      body.takeProfit, body.stopLoss, view.simulatedTime⟩ :=
    ⟨⟨body, hbody, hside, htype, rfl, hnamed⟩, rfl, rfl, rfl, rfl⟩
  dsimp only at h
  split at h
  · rename_i hmkt
    obtain ⟨⟨filled, final⟩, hfill, h⟩ := bind_ok.mp h
    cases h
    exact ⟨_, id, placed, hreqd, hins, .inr ⟨filled, hmkt, hfill, rfl⟩⟩
  · rename_i hwaits
    cases h
    exact ⟨_, id, _, hreqd, hins, .inl ⟨hwaits, rfl, rfl⟩⟩

/-- A part of an open position of the track closed at the row under the cursor. -/
theorem closePosition_ok {version : Nat} {payload : Option CloseBody}
    (h : ledger.closePosition view version payload = .ok (drafts, after)) :
    ∃ body p clientOrderId id placed filled, payload = some body ∧ body.positionId = some p.id ∧
      p ∈ ledger.positions ∧ p.trackId = view.trackId ∧
      Inserted ledger (closingOrder p clientOrderId (toUnits (closeQuantity body p.netQuantity)) view.simulatedTime) id placed ∧
      placed.fillOrder ⟨id, p.trackId, p.symbol, closingSide p.netQuantity,
        toUnits (closeQuantity body p.netQuantity), view.bar.close, view.bar.seq, view.simulatedTime,
        none, none⟩ = .ok (filled, after) ∧
      drafts = .orderCreated id clientOrderId p.trackId :: filled := by
  unfold closePosition at h
  obtain ⟨body, hbody, h⟩ := bind_ok.mp h
  obtain ⟨positionId, hid, h⟩ := bind_ok.mp h
  obtain ⟨p, hp, h⟩ := bind_ok.mp h
  rw [require_ok] at hbody hid hp
  rw [unit_bind_ok, unit_bind_ok, unit_bind_ok, refuseIf_ok, bind_ok] at h
  obtain ⟨htrk, -, -, ⟨id, placed⟩, hinse, h⟩ := h
  obtain ⟨⟨filled, final⟩, hfill, h⟩ := bind_ok.mp h
  cases h
  rw [Bool.or_eq_false_iff, decide_eq_false_iff_not, not_not] at htrk
  have hfnd := find?_some hp
  have hsame : p.id = positionId := of_decide_eq_true hfnd
  exact ⟨body, p, _, id, placed, filled, hbody, hid.trans (congrArg some hsame.symm),
    mem_of_find?_eq_some hp, htrk.1, insertOrder_ok hinse, hfill, rfl⟩

theorem cancel_ok {orderId : Option Uuid} (h : ledger.cancel orderId = .ok (drafts, after)) :
    ∃ id, drafts = [.orderCancelled id] ∧ after = { ledger with
      orders := updateWhere (fun order => order.id = id && order.status.active)
        (fun order => { order with status := .cancelled }) ledger.orders } := by
  unfold cancel at h
  obtain ⟨id, -, h⟩ := bind_ok.mp h
  obtain ⟨-, h⟩ := unit_bind_ok.mp h
  cases h
  exact ⟨id, rfl, rfl⟩

theorem updateBracket_ok {payload : Option UpdateBody} (h : ledger.updateBracket payload = .ok (drafts, after)) :
    ∃ id trackId sl tp, drafts = [.orderUpdated id sl tp] ∧ after = { ledger with
      orders := updateWhere (fun row => row.id = id) (fun row => { row with stopLoss := sl, takeProfit := tp }) ledger.orders
      positions := updateWhere (fun p => p.trackId = trackId && p.netQuantity ≠ 0)
        (fun p => { p with stopLoss := sl, takeProfit := tp }) ledger.positions } := by
  unfold updateBracket at h
  obtain ⟨body, -, h⟩ := bind_ok.mp h
  obtain ⟨id, -, h⟩ := bind_ok.mp h
  obtain ⟨-, h⟩ := unit_bind_ok.mp h
  obtain ⟨order, -, h⟩ := bind_ok.mp h
  rw [unit_bind_ok, unit_bind_ok] at h
  obtain ⟨-, -, h⟩ := h
  cases h
  exact ⟨id, order.trackId, body.stopLoss, body.takeProfit, rfl, rfl⟩

end Ledger

theorem marketView_ok {session : Session} {track : Track} (h : marketView session track = .ok view) :
    view.trackId = track.id ∧ view.symbol = track.symbol ∧ view.simulatedTime = session.simulatedTime ∧
      track.dataset.barBySeq track.cursorSeq = some view.bar := by
  unfold marketView at h
  obtain ⟨bar, hbar, h⟩ := bind_ok.mp h
  cases h
  rw [require_ok] at hbar
  exact ⟨rfl, rfl, rfl, hbar⟩

/-- The ledger operations of the trade commands. -/
inductive TradeCases (session : Session) (track : Track) (ledger : Ledger) :
    List EventDraft → Ledger → Prop where
  | place {drafts : List EventDraft} {after : Ledger} (view : MarketView) (payload : Option PlaceBody)
      (sees : marketView session track = .ok view)
      (places : ledger.place view payload = .ok (drafts, after)) :
      TradeCases session track ledger drafts after
  | cancel {drafts : List EventDraft} {after : Ledger} (orderId : Option Uuid)
      (cancels : ledger.cancel orderId = .ok (drafts, after)) :
      TradeCases session track ledger drafts after
  | close {drafts : List EventDraft} {after : Ledger} (view : MarketView) (payload : Option CloseBody)
      (sees : marketView session track = .ok view)
      (closes : ledger.closePosition view session.version payload = .ok (drafts, after)) :
      TradeCases session track ledger drafts after
  | update {drafts : List EventDraft} {after : Ledger} (payload : Option UpdateBody)
      (updates : ledger.updateBracket payload = .ok (drafts, after)) :
      TradeCases session track ledger drafts after
  | reset : TradeCases session track ledger [.tradingReset session.simulatedTime]
      (ledger.reset session.simulatedTime).2

theorem tradeLedger_cases {session : Session} {track : Track} {ledger after : Ledger}
    {command : Command} {drafts : List EventDraft}
    (h : tradeLedger session track ledger command = .ok (drafts, after)) :
    TradeCases session track ledger drafts after := by
  cases command with
  | placeOrder body =>
    rw [tradeLedger, bind_ok] at h
    obtain ⟨view, hview, h⟩ := h
    exact .place view body hview h
  | cancelOrder orderId => exact .cancel orderId h
  | closePosition body =>
    rw [tradeLedger, bind_ok] at h
    obtain ⟨view, hview, h⟩ := h
    exact .close view body hview h
  | updateOrder body => exact .update body h
  | _ =>
    cases h
    exact .reset

end MarketLens.Replay
