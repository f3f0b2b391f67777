import MarketLens.Replay.Locality

/-!
# The keys of a session

The tables of a session keep their keys, whatever commands it takes: ids are unique, a
fill belongs to an order of its track, and an id that is drawn is new.
-/

namespace MarketLens.Replay

open List Bool Function Journal Fallible Runs Table

namespace Ledger

variable {ledger after : Ledger} {drafts : List EventDraft}

/-! ## Writes -/

theorem Keyed.ordersUpdated {p : OrderRow → Bool} {f : OrderRow → OrderRow} (h : ledger.Keyed)
    (hf : ∀ order, (f order).id = order.id ∧ (f order).trackId = order.trackId) :
    ({ ledger with orders := updateWhere p f ledger.orders } : Ledger).Keyed := by
  refine ⟨?_, h.positions, fun fill hfill => ?_, h.injective, fun order hord n => ?_, h.newFill, h.newPosition⟩
  · rw [map_updateWhere fun order => (hf order).1]
    exact h.orders
  · obtain ⟨order, hord, hid, htrk⟩ := h.owned fill hfill
    exact exists_updateWhere hord ⟨hid, htrk⟩ fun _ => ⟨(hf order).1.trans hid, (hf order).2.trans htrk⟩
  · rcases updateWhere_cases hord with ⟨hold, -⟩ | ⟨old, hold, -, rfl⟩
    · exact h.newOrder order hold n
    · rw [(hf old).1]
      exact h.newOrder old hold n

theorem Keyed.positionsUpdated {p : PositionRow → Bool} {f : PositionRow → PositionRow} (h : ledger.Keyed)
    (hf : ∀ position, (f position).id = position.id) :
    ({ ledger with positions := updateWhere p f ledger.positions } : Ledger).Keyed := by
  refine ⟨h.orders, ?_, h.owned, h.injective, h.newOrder, h.newFill, fun position hposn n => ?_⟩
  · rw [map_updateWhere hf]
    exact h.positions
  · rcases updateWhere_cases hposn with ⟨hold, -⟩ | ⟨old, hold, -, rfl⟩
    · exact h.newPosition position hold n
    · rw [hf old]
      exact h.newPosition old hold n

theorem Inserted.keyed_filled {order : OrderRow} {id : Uuid} {placed : Ledger} {fill : FillRequest}
    (hins : Inserted ledger order id placed) (h : ledger.Keyed)
    (hfill : placed.fillOrder fill = .ok (drafts, after)) (hid : fill.orderId = id)
    (htrk : fill.trackId = order.trackId) : after.Keyed := by
  refine (fillOrder_beside (C := fun _ => True) hfill (h.inserted hins) ?_).1
  rw [hins.rows]
  exact ⟨_, mem_append_right _ mem_cons_self, hid.symm, htrk.symm⟩

/-- Without their orders no fills are left. -/
theorem reset_keyed (h : ledger.Keyed) (at_ : Int) : (ledger.reset at_).2.Keyed := by
  have hnone : (ledger.reset at_).2.fills = [] := by
    refine filter_eq_nil_iff.mpr fun fill hfill hkept => ?_
    obtain ⟨order, hord, hid, -⟩ := h.owned fill hfill
    rw [not_eq_true', any_eq_false] at hkept
    exact hkept order hord (decide_eq_true hid)
  refine ⟨nodup_nil, h.positions, fun fill hfill => ?_, h.injective, fun order hord => ?_, fun fill hfill => ?_, h.newPosition⟩
  · rw [hnone] at hfill
    cases hfill
  · cases hord
  · rw [hnone] at hfill
    cases hfill

theorem trade_keyed {session : Session} {track : Track} (h : ledger.Keyed)
    (htrd : TradeCases session track ledger drafts after) : after.Keyed := by
  cases htrd with
  | place view payload _ places =>
    obtain ⟨order, id, placed, hreqd, hins, ⟨-, -, rfl⟩ | ⟨filled, -, hfill, -⟩⟩ :=
      place_ok places
    · exact h.inserted hins
    · exact hins.keyed_filled h hfill rfl hreqd.track.symm
  | cancel _ cancels =>
    obtain ⟨id, -, rfl⟩ := cancel_ok cancels
    exact h.ordersUpdated fun _ => ⟨rfl, rfl⟩
  | close view payload _ closes =>
    obtain ⟨body, p, clientOrderId, id, placed, filled, -, -, -, -, hins, hfill, -⟩ :=
      closePosition_ok closes
    exact hins.keyed_filled h hfill rfl rfl
  | update _ updates =>
    obtain ⟨id, trackId, sl, tp, -, rfl⟩ := updateBracket_ok updates
    exact (h.ordersUpdated (f := fun row => { row with stopLoss := sl, takeProfit := tp })
      fun _ => ⟨rfl, rfl⟩).positionsUpdated fun _ => rfl
  | reset => exact reset_keyed h _

theorem recordEquity_keyed (h : ledger.Keyed) (seq : Nat) (at_ : Int) : (ledger.recordEquity seq at_).Keyed := by
  unfold recordEquity
  split
  · exact h
  · exact ⟨h.orders, h.positions, h.owned, h.injective, h.newOrder, h.newFill, h.newPosition⟩

theorem processRow_keyed {t : Uuid} {symbol : String} {bar : Bar} (h : ledger.Keyed)
    (hrow : processRow t symbol ledger bar = .ok (drafts, after)) : after.Keyed := by
  have hlocal : Local t (fun _ => True) _ fun L => processRow t symbol L bar := processRow_local
  exact (hlocal.kept h (fun _ _ => trivial) hrow).1

theorem processRows_keyed {t : Uuid} {symbol : String} {rows : List Bar} (h : ledger.Keyed)
    (hrows : ledger.processRows t symbol rows = .ok (drafts, after)) : after.Keyed := by
  exact processRows_change (fun now _ next => now.Keyed → next.Keyed) (fun _ => id)
    (fun _ _ _ _ _ hfs hsec hnow => hsec (hfs hnow)) (fun _ _ _ _ _ hrow hnow => processRow_keyed hnow hrow) hrows h

end Ledger

/-! ## Commands -/

theorem Moves.keyed {useLedger : Bool} {session : Session} {tracks : List Track} {ledger : Ledger}
    {command : Command} {moved : Moved} (h : Moves useLedger session tracks ledger command moved)
    (hkyd : ledger.Keyed) : moved.ledger.Keyed := by
  cases h with
  | kept _ _ _ sameLedger => exact sameLedger ▸ hkyd
  | stepped _ _ _ _ _ _ _ reveals =>
    exact reveal_keeps Ledger.Keyed (fun _ _ _ _ _ _ _ hrow hnow => Ledger.processRow_keyed hnow hrow) reveals hkyd
  | sought target resetTrading _ _ rewinds =>
    rcases rewind_ok rewinds with ⟨-, hsame⟩ | ⟨-, -, -, -, hreset⟩
    · exact hsame ▸ hkyd
    · have haft : (ledger.reset target).2 = moved.ledger := congrArg Prod.snd hreset
      exact haft ▸ Ledger.reset_keyed hkyd target
  | traded _ _ _ _ _ _ operates => exact Ledger.trade_keyed hkyd (tradeLedger_cases operates)

theorem command_keyed {db db' : Database} {input : CommandInput} (hids : (db.tracks.map (·.id)).Nodup)
    (hkyd : db.ledger.Keyed) (h : db.command input = some db') : db'.ledger.Keyed := by
  cases h
  unfold applyCommand
  split
  · exact hkyd
  split
  · exact hkyd.drawn
  · split
    · exact hkyd.drawn
    · split
      · rename_i result events committed hrun
        obtain ⟨claimed, moved, hcommits⟩ := runCommand_ok hids hrun
        obtain ⟨seq, at_, hldg⟩ := hcommits.ledger
        have hmvd := hcommits.moves.keyed hkyd.drawn
        rw [hldg]
        split
        · exact Ledger.recordEquity_keyed hmvd seq at_
        · exact hmvd
      · exact hkyd

theorem prepared_keyed {start : Database} (h : Prepared start) (hfsh : Injective start.ledger.uuids) : start.ledger.Keyed := by
  rcases h.account with ⟨currency, equity, commission, uuids, hldg⟩ | ⟨uuids, hldg⟩
  all_goals
    rw [hldg] at hfsh ⊢
    exact ⟨nodup_nil, nodup_nil, fun _ hno => (by cases hno), hfsh,
      fun _ hno => (by cases hno), fun _ hno => (by cases hno), fun _ hno => (by cases hno)⟩

/-- **Every session keeps its keys**, if `gen_random_uuid` never draws an id twice. -/
theorem reaches_keyed {start db : Database} {ok : Database → CommandInput → Prop} (hprep : Prepared start)
    (hfsh : Injective start.ledger.uuids) (h : Reaches Database.command ok start db) :
    db.ledger.Keyed :=
  h.invariant_along (fun db => db.ledger.Keyed) (prepared_keyed hprep hfsh)
    fun _ _ _ hrun hkyd _ hstep => command_keyed (reaches_distinct hprep hrun) hkyd hstep

end MarketLens.Replay
