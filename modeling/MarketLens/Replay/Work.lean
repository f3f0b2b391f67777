import MarketLens.Replay.Equity

/-!
# The work the event log leaves

Every command that puts an order to work, takes one out, or moves a position says so
in the event log. So the log alone tells which orders are working and which
positions are open: playing it from the start gives the ledger's own answer.
-/

namespace MarketLens.Replay

open List Bool Journal Fallible Table Runs

/-- The ids of the orders at work and of the open positions. -/
structure Work where
  orders : List Uuid
  positions : List Uuid

namespace Work

def none : Work := ⟨[], []⟩

/-- What one event says about the work. -/
def after (work : Work) : EventDraft → Work
  | .orderCreated id _ _ | .bracketOrderCreated id _ => { work with orders := id :: work.orders }
  | .orderFilled id _ _ | .orderCancelled id => { work with orders := work.orders.filter (· ≠ id) }
  | .positionUpdated p => { work with positions :=
      if p.netQuantity = 0 then work.positions.filter (· ≠ p.id) else p.id :: work.positions }
  | .tradingReset _ => { work with orders := [] }
  | _ => work

/-- What a log says about the work. -/
def play (work : Work) (drafts : List EventDraft) : Work := drafts.foldl after work

@[simp] theorem play_nil (work : Work) : work.play [] = work := rfl

@[simp] theorem play_cons (work : Work) (draft : EventDraft) (rest : List EventDraft) :
    work.play (draft :: rest) = (work.after draft).play rest := rfl

theorem play_append (work : Work) (first second : List EventDraft) :
    work.play (first ++ second) = (work.play first).play second :=
  foldl_append

theorem play_orders {work other : Work} (h : work.orders = other.orders) (drafts : List EventDraft) :
    (work.play drafts).orders = (other.play drafts).orders := by
  induction drafts generalizing work other with
  | nil => exact h
  | cons draft rest ih =>
    refine ih ?_
    cases draft <;> unfold after <;> dsimp only <;> rw [h]

/-- The open positions do not depend on the orders. -/
theorem play_positions {work other : Work} (h : work.positions = other.positions)
    (drafts : List EventDraft) : (work.play drafts).positions = (other.play drafts).positions := by
  induction drafts generalizing work other with
  | nil => exact h
  | cons draft rest ih =>
    refine ih ?_
    cases draft <;> unfold after <;> dsimp only <;> rw [h]

theorem play_tradeDrafts (work : Work) (drafts : List EventDraft) :
    work.play (drafts.filter EventDraft.isTrade) = work.play drafts := by
  induction drafts generalizing work with
  | nil => rfl
  | cons draft rest ih =>
    cases htrd : draft.isTrade with
    | true => rw [filter_cons_of_pos htrd, play_cons, play_cons, ih]
    | false =>
      have hsilent : work.after draft = work := by
        cases draft <;> first | rfl | cases htrd
      rw [filter_cons_of_neg (by rw [htrd]; exact false_ne_true), play_cons, hsilent, ih]

end Work

namespace Ledger

variable {ledger after : Ledger} {drafts : List EventDraft} {work : Work}

/-- No order is at work and no position is open. -/
def Idle (ledger : Ledger) : Prop :=
  (∀ order ∈ ledger.orders, order.status.active = false) ∧
    ∀ p ∈ ledger.positions, p.netQuantity = 0

structure Has (ledger : Ledger) (work : Work) : Prop where
  orders : ∀ id, id ∈ work.orders ↔ ∃ order ∈ ledger.orders, order.id = id ∧
    order.status.active = true
  positions : ∀ id, id ∈ work.positions ↔ ∃ p ∈ ledger.positions, p.id = id ∧ p.netQuantity ≠ 0

theorem Has.orders_eq_nil (h : ledger.Has work) : work.orders = [] ↔ ∀ order ∈ ledger.orders, order.status.active = false := by
  rw [eq_nil_iff_forall_not_mem]
  constructor
  · intro hnone order hord
    by_contra hactv
    rw [not_eq_false] at hactv
    exact hnone order.id ((h.orders order.id).mpr ⟨order, hord, rfl, hactv⟩)
  · intro hidle id hid
    obtain ⟨order, hord, -, hactv⟩ := (h.orders id).mp hid
    rw [hidle order hord] at hactv
    cases hactv

theorem Has.positions_eq_nil (h : ledger.Has work) : work.positions = [] ↔ ∀ p ∈ ledger.positions, p.netQuantity = 0 := by
  rw [eq_nil_iff_forall_not_mem]
  constructor
  · intro hnone p hp
    by_contra hopen
    exact hnone p.id ((h.positions p.id).mpr ⟨p, hp, rfl, hopen⟩)
  · intro hidle id hid
    obtain ⟨p, hp, -, hopen⟩ := (h.positions id).mp hid
    exact hopen (hidle p hp)

theorem Has.idle_iff (h : ledger.Has work) : ledger.Idle ↔ work.orders = [] ∧ work.positions = [] := by
  unfold Idle
  rw [h.orders_eq_nil, h.positions_eq_nil]

theorem Has.of_rows {other : Ledger} (h : ledger.Has work) (hords : other.orders = ledger.orders)
    (hposs : other.positions = ledger.positions) : other.Has work := by
  constructor
  · rw [hords]
    exact h.orders
  · rw [hposs]
    exact h.positions

/-! ## Rows -/

variable {order : OrderRow}

theorem Inserted.has {id : Uuid} {placed : Ledger} (hins : Inserted ledger order id placed) (hactv : order.status.active = true)
    (h : ledger.Has work) : placed.Has { work with orders := id :: work.orders } := by
  have hrows : placed.orders = ledger.orders ++ [{ order with id := id }] := by
    rw [hins.rows]
  constructor
  · intro other
    rw [hrows, mem_cons, h.orders]
    constructor
    · rintro (rfl | ⟨row, hrow, hid, hworks⟩)
      · exact ⟨_, mem_append_right _ mem_cons_self, rfl, hactv⟩
      · exact ⟨row, mem_append_left _ hrow, hid, hworks⟩
    · rintro ⟨row, hrow, hid, hworks⟩
      rcases mem_append.mp hrow with hold | hnew
      · exact .inr ⟨row, hold, hid, hworks⟩
      · rw [mem_singleton.mp hnew] at hid
        exact .inl hid.symm
  · have hposs : placed.positions = ledger.positions := by rw [hins.rows]
    rw [hposs]
    exact h.positions

theorem mem_taken_out {p : OrderRow → Bool} {f : OrderRow → OrderRow} {id other : Uuid}
    (h : ∀ other, other ∈ work.orders ↔ ∃ order ∈ ledger.orders, order.id = other ∧ order.status.active = true)
    (hp : ∀ order, p order = true → order.id = id)
    (hid : ∀ order, order.id = id → order.status.active = true → p order = true)
    (hdone : ∀ order, (f order).status.active = false) :
    other ∈ work.orders.filter (· ≠ id) ↔ ∃ order ∈ updateWhere p f ledger.orders,
      order.id = other ∧ order.status.active = true := by
  rw [mem_filter, h, decide_eq_true_iff]
  constructor
  · rintro ⟨⟨order, hord, hsame, hworks⟩, hoth⟩
    refine ⟨order, mem_updateWhere.mpr ⟨order, hord, ?_⟩, hsame, hworks⟩
    cases hpo : p order with
    | false => rfl
    | true => exact absurd (hsame.symm.trans (hp order hpo)) hoth
  · rintro ⟨order, hord, hsame, hworks⟩
    rcases updateWhere_cases hord with ⟨hold, hpass⟩ | ⟨old, -, -, rfl⟩
    · refine ⟨⟨order, hold, hsame, hworks⟩, ?_⟩
      intro heq
      rw [hid order (hsame.trans heq) hworks] at hpass
      cases hpass
    · rw [hdone] at hworks
      cases hworks

variable {fill : FillRequest}

theorem Filled.has {row : FillRow} {p position : PositionRow} {realized : Decimal} {base : Ledger}
    (hfld : Filled ledger fill drafts after row p position realized base) (h : ledger.Has work) :
    after.Has (work.play drafts) := by
  have hplay : work.play drafts = ⟨work.orders.filter (· ≠ fill.orderId),
      if position.netQuantity = 0 then work.positions.filter (· ≠ position.id)
      else position.id :: work.positions⟩ := by
    rw [hfld.drafted]
    rfl
  rw [hplay]
  constructor
  · intro other
    rw [hfld.orders]
    refine mem_taken_out h.orders (fun order hsame => of_decide_eq_true hsame)
      (fun order hsame _ => decide_eq_true hsame) fun _ => rfl
  · intro other
    have hold : ∀ q : PositionRow, q.id ≠ position.id → (q ∈ after.positions ↔ q ∈ ledger.positions) := by
      intro q hoth
      rw [hfld.mem_positions_iff, ← hfld.position_id]
      constructor
      · rintro (rfl | ⟨hq, -⟩)
        · exact absurd rfl hoth
        · exact hq
      · exact fun hq => .inr ⟨hq, hoth⟩
    have hself : ∀ q ∈ after.positions, q.id = position.id → q = position := by
      intro q hq hsame
      rcases hfld.mem_positions_iff.mp hq with heq | ⟨-, hne⟩
      · exact heq
      · exact absurd (hsame.trans hfld.position_id) hne
    have hmem : position ∈ after.positions := hfld.mem_positions_iff.mpr (.inl rfl)
    by_cases hoth : other = position.id
    · -- the position of the fill itself
      rw [hoth]
      split
      · rename_i hflat
        refine iff_of_false (fun hin => ?_) ?_
        · rw [mem_filter, decide_eq_true_iff] at hin
          exact hin.2 rfl
        · rintro ⟨q, hq, hsame, hopen⟩
          rw [hself q hq hsame] at hopen
          exact hopen hflat
      · rename_i hopen
        exact iff_of_true mem_cons_self ⟨position, hmem, rfl, hopen⟩
    · have hthere : (∃ q ∈ after.positions, q.id = other ∧ q.netQuantity ≠ 0) ↔ other ∈ work.positions := by
        rw [h.positions]
        constructor
        · rintro ⟨q, hq, rfl, hopen⟩
          exact ⟨q, (hold q hoth).mp hq, rfl, hopen⟩
        · rintro ⟨q, hq, rfl, hopen⟩
          exact ⟨q, (hold q hoth).mpr hq, rfl, hopen⟩
      rw [hthere]
      split
      · rw [mem_filter, decide_eq_true_iff]
        exact and_iff_left hoth
      · rw [mem_cons]
        exact or_iff_right hoth

/-! ## Operations -/

/-- The drafts say what an operation does to the work, whatever it was. -/
def Plays (ledger : Ledger) (drafts : List EventDraft) (after : Ledger) : Prop :=
  ∀ work, ledger.Has work → after.Has (work.play drafts)

theorem Plays.refl (ledger : Ledger) : Plays ledger [] ledger := fun _ h => h

theorem Plays.trans {first second third : Ledger} {drafts more : List EventDraft}
    (h : Plays first drafts second) (h' : Plays second more third) :
    Plays first (drafts ++ more) third := by
  intro work hwork
  rw [Work.play_append]
  exact h' _ (h work hwork)

/-- An operation on neither orders nor positions has nothing to say. -/
theorem Plays.of_rows {other : Ledger} (h : Plays ledger drafts after)
    (hords : other.orders = after.orders) (hposs : other.positions = after.positions) :
    Plays ledger drafts other :=
  fun work hwork => (h work hwork).of_rows hords hposs

theorem fillOrder_plays (h : ledger.fillOrder fill = .ok (drafts, after)) : Plays ledger drafts after := by
  intro work hwork
  obtain ⟨-, -, ⟨-, rfl, rfl⟩ | ⟨row, p, position, realized, base, hfld⟩⟩ := fillOrder_ok h
  · exact hwork
  · exact hfld.has hwork

theorem Inserted.plays_filled {id : Uuid} {placed : Ledger}
    {created : EventDraft} {filled : List EventDraft} (hins : Inserted ledger order id placed)
    (hactv : order.status.active = true)
    (hcrtd : ∀ work : Work, work.after created = { work with orders := id :: work.orders })
    (hfill : placed.fillOrder fill = .ok (filled, after)) : Plays ledger (created :: filled) after := by
  intro work hwork
  rw [Work.play_cons, hcrtd]
  exact fillOrder_plays hfill _ (hins.has hactv hwork)

/-- A mark moves no quantity. -/
theorem markToMarket_plays (ledger : Ledger) (trackId : Uuid) (bar : Bar) :
    Plays ledger [] (ledger.markToMarket trackId bar) := by
  intro work hwork
  refine ⟨hwork.orders, fun id => ?_⟩
  rw [Work.play_nil, hwork.positions]
  exact Iff.symm (exists_updateWhere_iff fun _ => by rfl)

variable {bar : Bar}

theorem processBracket_plays {p : PositionRow}
    (h : processBracket bar ledger p = .ok (drafts, after)) : Plays ledger drafts after := by
  rcases processBracket_ok h with ⟨rfl, rfl⟩ | ⟨price, kind, id, placed, filled, -, hins, hfill, rfl⟩
  · exact .refl _
  · exact hins.plays_filled rfl (fun _ => rfl) hfill

variable {symbol : String}

theorem processOrder_plays (h : processOrder symbol bar ledger order = .ok (drafts, after)) : Plays ledger drafts after := by
  rcases processOrder_ok h with ⟨rfl, rfl⟩ | ⟨price, -, hfill⟩
  · exact .refl _
  · exact fillOrder_plays hfill

/-- What every round says of the work, the loop says of it. -/
theorem collect_plays {A : Type} {items : List A} {round : Ledger → A → Except ReplayError (List EventDraft × Ledger)}
    (hrnd : ∀ now item entries next, round now item = .ok (entries, next) → Plays now entries next)
    (h : collect round ledger items = .ok (drafts, after)) : Plays ledger drafts after :=
  collect_change Plays Plays.refl (fun _ _ _ _ _ first second => first.trans second)
    (fun now item entries next _ => hrnd now item entries next) h

theorem processRow_plays {trackId : Uuid}
    (h : processRow trackId symbol ledger bar = .ok (drafts, after)) : Plays ledger drafts after := by
  obtain ⟨brackets, mid, fills, final, hbrks, hfills, rfl, rfl⟩ := processRow_ok h
  have hmid : Plays ledger brackets mid :=
    collect_plays (fun _ _ _ _ hrnd => processBracket_plays hrnd) hbrks
  have hfinal : Plays mid fills final :=
    collect_plays (fun _ _ _ _ hrnd => processOrder_plays hrnd) hfills
  have hmarked := (hmid.trans hfinal).trans (markToMarket_plays final trackId bar)
  rwa [append_nil] at hmarked

/-- A reset leaves no order, and the positions. -/
theorem reset_plays (ledger : Ledger) (at_ : Int) : Plays ledger (ledger.reset at_).1 (ledger.reset at_).2 := by
  intro work hwork
  refine ⟨fun id => ?_, hwork.positions⟩
  refine iff_of_false not_mem_nil ?_
  rintro ⟨order, hord, -⟩
  cases hord

theorem cancel_plays {orderId : Option Uuid} (h : ledger.cancel orderId = .ok (drafts, after)) : Plays ledger drafts after := by
  obtain ⟨id, rfl, rfl⟩ := cancel_ok h
  intro work hwork
  refine ⟨fun other => ?_, hwork.positions⟩
  refine mem_taken_out hwork.orders (fun order hsame => ?_) (fun order hsame hworks => ?_) fun _ => rfl
  · rw [Bool.and_eq_true, decide_eq_true_iff] at hsame
    exact hsame.1
  · rw [hworks, Bool.and_true]
    exact decide_eq_true hsame

theorem updateBracket_plays {payload : Option UpdateBody}
    (h : ledger.updateBracket payload = .ok (drafts, after)) : Plays ledger drafts after := by
  obtain ⟨id, trackId, sl, tp, rfl, rfl⟩ := updateBracket_ok h
  intro work hwork
  -- the brackets are in no key of the work
  exact ⟨fun other => (hwork.orders other).trans (Iff.symm (exists_updateWhere_iff fun _ => by rfl)),
    fun other => (hwork.positions other).trans (Iff.symm (exists_updateWhere_iff fun _ => by rfl))⟩

theorem place_plays {view : MarketView} {payload : Option PlaceBody}
    (h : ledger.place view payload = .ok (drafts, after)) : Plays ledger drafts after := by
  obtain ⟨order, id, placed, hreqd, hins, hwaits | hfills⟩ := place_ok h
  · obtain ⟨-, rfl, rfl⟩ := hwaits
    exact fun work hwork => hins.has (by rw [hreqd.works]; rfl) hwork
  · obtain ⟨filled, -, hfill, rfl⟩ := hfills
    exact hins.plays_filled (by rw [hreqd.works]; rfl) (fun _ => rfl) hfill

theorem closePosition_plays {view : MarketView} {version : Nat} {payload : Option CloseBody}
    (h : ledger.closePosition view version payload = .ok (drafts, after)) :
    Plays ledger drafts after := by
  obtain ⟨body, p, clientOrderId, id, placed, filled, -, -, -, -, hins, hfill, rfl⟩ :=
    closePosition_ok h
  exact hins.plays_filled rfl (fun _ => rfl) hfill

end Ledger

open Ledger

theorem TradeCases.plays {session : Session} {track : Track} {ledger after : Ledger}
    {drafts : List EventDraft} (h : TradeCases session track ledger drafts after) :
    Plays ledger drafts after := by
  cases h with
  | place view payload sees places => exact place_plays places
  | cancel orderId cancels => exact cancel_plays cancels
  | close view payload sees closes => exact closePosition_plays closes
  | update payload updates => exact updateBracket_plays updates
  | reset => exact reset_plays ledger session.simulatedTime

theorem revealed_plays {useLedger batch : Bool} {ledger after : Ledger} {pairs : List (Track × Bar)} {revealed : List Revealed}
    (h : collect (revealTrack useLedger batch) ledger pairs = .ok (revealed, after)) :
    Plays ledger (revealed.flatMap (·.trading)) after :=
  reveal_change Plays Plays.refl (fun _ _ _ _ _ first second => first.trans second)
    (fun _ _ _ _ _ _ _ hrow => processRow_plays hrow) h

/-- **The trade events of a command say all it does to the work.** -/
theorem Moves.plays {useLedger : Bool} {session : Session} {tracks : List Track} {ledger : Ledger}
    {command : Command} {moved : Moved} (h : Moves useLedger session tracks ledger command moved) :
    Plays ledger moved.drafts moved.ledger := by
  have hquiet : ∀ {drafts : List EventDraft}, tradeDrafts moved.drafts = tradeDrafts drafts →
      Plays ledger drafts moved.ledger → Plays ledger moved.drafts moved.ledger := by
    intro drafts hdrafted hplays work hwork
    have hsame : work.play moved.drafts = work.play drafts := by
      rw [← Work.play_tradeDrafts, ← Work.play_tradeDrafts work drafts]
      exact congrArg work.play hdrafted
    rw [hsame]
    exact hplays work hwork
  cases h with
  | kept _ _ _ sameLedger _ _ quiet =>
    have hkept : Plays ledger [] moved.ledger := by
      rw [sameLedger]
      exact .refl _
    have hnone : tradeDrafts moved.drafts = tradeDrafts [] := quiet
    exact hquiet hnone hkept
  | stepped _ _ _ _ _ _ _ reveals _ _ drafted => exact hquiet drafted (revealed_plays reveals)
  | sought target _ resetDrafts _ rewinds _ _ _ _ drafted =>
    refine hquiet drafted ?_
    unfold rewind at rewinds
    split at rewinds
    · split at rewinds
      · have hreset : (resetDrafts, moved.ledger) = ledger.reset target :=
          (Except.ok.inj rewinds).symm
        rw [Prod.mk.injEq] at hreset
        rw [hreset.1, hreset.2]
        exact reset_plays ledger target
      · cases rewinds
    · cases rewinds
      exact .refl _
  | traded _ drafts _ _ _ _ operates _ _ drafted =>
    exact hquiet drafted (tradeLedger_cases operates).plays

/-! ## Runs -/

/-- The drafts of the events logged so far. -/
def Database.log (db : Database) : List EventDraft := db.events.map (·.draft)

section Command

variable {db db' : Database} {input : CommandInput} {response : Response} {result : CommandResult}
  {claimed : Session} {moved : Moved}

theorem Committed.log (h : Committed db input result db' claimed moved) : db'.log = db.log ++ moved.drafts := by
  obtain ⟨events, hevs, hdrfs, -⟩ := h.events
  unfold Database.log
  rw [hevs, map_append, hdrfs]

theorem Committed.plays (h : Committed db input result db' claimed moved) : Plays db.ledger moved.drafts db'.ledger := by
  have hmvd : Plays db.ledger moved.drafts moved.ledger :=
    fun work hwork => h.moves.plays work (hwork.of_rows rfl rfl)
  obtain ⟨seq, at_, hldg⟩ := h.ledger
  rw [hldg]
  split
  · refine hmvd.of_rows ?_ ?_ <;> unfold recordEquity <;> split <;> rfl
  · exact hmvd

theorem Commanded.plays (h : Commanded db input response db') :
    ∃ drafts, db'.log = db.log ++ drafts ∧ Plays db.ledger drafts db'.ledger := by
  cases h with
  | unmoved _ same =>
    obtain ⟨uuids, hldg⟩ := same.ledger
    refine ⟨[], ?_, ?_⟩
    · unfold Database.log
      rw [same.events, append_nil]
    · rw [hldg]
      exact (Plays.refl db.ledger).of_rows rfl rfl
  | committed _ _ commits => exact ⟨_, commits.log, commits.plays⟩

/-- The ledger has the work its log leaves. -/
def Database.Logged (db : Database) : Prop := db.ledger.Has (Work.none.play db.log)

theorem prepared_logged {start : Database} (h : Prepared start) : start.Logged := by
  have hemp : start.ledger.orders = [] ∧ start.ledger.positions = [] := by
    rcases h.account with ⟨_, _, _, _, hldg⟩ | ⟨_, hldg⟩ <;> rw [hldg] <;> exact ⟨rfl, rfl⟩
  have hlog : start.log = [] := by
    unfold Database.log
    rw [h.unlogged.2.1]
    rfl
  unfold Database.Logged
  rw [hlog]
  constructor
  · intro id
    rw [hemp.1]
    exact iff_of_false not_mem_nil fun ⟨_, hnone, _⟩ => by cases hnone
  · intro id
    rw [hemp.2]
    exact iff_of_false not_mem_nil fun ⟨_, hnone, _⟩ => by cases hnone

theorem Commanded.logged (h : Commanded db input response db') (hlogg : db.Logged) : db'.Logged := by
  obtain ⟨drafts, hlog, hplays⟩ := h.plays
  unfold Database.Logged
  rw [hlog, Work.play_append]
  exact hplays _ hlogg

end Command

end MarketLens.Replay
