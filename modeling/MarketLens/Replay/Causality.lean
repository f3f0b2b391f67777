import MarketLens.Replay.Sessions
import MarketLens.Replay.Writes

/-!
# No fill before its order

A fill happens on a row the track has still to reveal. So fills follow their orders
as long as every working order was submitted before any row to come. Placing and
stepping keep that. A seek back to before an order was submitted does not, and only
a reset takes such an order away.
-/

namespace MarketLens.Replay

open List Bool Journal Ledger Fallible Table Runs

variable {track : Track}

namespace Ledger

variable {ledger after : Ledger} {drafts : List EventDraft} {opens : Uuid → Int → Prop}

/-- Fills belong to orders submitted no later, and where `opens` says that a track has still to
show a row at a time, every working order of the track was submitted by then. -/
structure Causal (opens : Uuid → Int → Prop) (ledger : Ledger) : Prop where
  distinct : (ledger.orders.map (·.id)).Nodup
  caused : ∀ fill ∈ ledger.fills, ∃ order ∈ ledger.orders,
    order.id = fill.orderId ∧ order.submittedAt ≤ fill.simulatedAt
  waits : ∀ order ∈ ledger.orders, order.status.active = true →
    ∀ time, opens order.trackId time → order.submittedAt ≤ time

theorem Causal.of_rows {other : Ledger} (h : ledger.Causal opens) (hords : other.orders = ledger.orders)
    (hfills : other.fills = ledger.fills) : other.Causal opens := by
  constructor
  · rw [hords]
    exact h.distinct
  · rw [hords, hfills]
    exact h.caused
  · rw [hords]
    exact h.waits

theorem Causal.mono {fewer : Uuid → Int → Prop} (h : ledger.Causal opens)
    (hfewer : ∀ id time, fewer id time → opens id time) : ledger.Causal fewer :=
  ⟨h.distinct, h.caused, fun order hord hactv time hops =>
    h.waits order hord hactv time (hfewer _ _ hops)⟩

theorem Causal.updated {p : OrderRow → Bool} {f : OrderRow → OrderRow} (h : ledger.Causal opens)
    (hords : after.orders = updateWhere p f ledger.orders) (hfills : after.fills = ledger.fills)
    (hid : ∀ order, (f order).id = order.id) (htrk : ∀ order, (f order).trackId = order.trackId)
    (hsubmitted : ∀ order, (f order).submittedAt = order.submittedAt)
    (hactv : ∀ order, (f order).status.active = true → order.status.active = true) :
    after.Causal opens := by
  constructor
  · rw [hords, map_updateWhere hid]
    exact h.distinct
  · intro fill hfill
    rw [hfills] at hfill
    obtain ⟨order, hord, hsame, hle⟩ := h.caused fill hfill
    rw [hords]
    refine exists_updateWhere hord ⟨hsame, hle⟩ fun _ => ?_
    rw [hid, hsubmitted]
    exact ⟨hsame, hle⟩
  · intro order hord hworks time hops
    rw [hords] at hord
    rcases updateWhere_cases hord with ⟨hold, -⟩ | ⟨old, hold, -, rfl⟩
    · exact h.waits order hold hworks time hops
    · rw [htrk] at hops
      rw [hsubmitted]
      exact h.waits old hold (hactv old hworks) time hops

/-- Every order row is still there, under its id and with the time of its submission. -/
def KeepsOrders (before after : Ledger) : Prop :=
  ∀ order ∈ before.orders, ∃ row ∈ after.orders, row.id = order.id ∧
    row.submittedAt = order.submittedAt

theorem keepsOrders_refl (ledger : Ledger) : KeepsOrders ledger ledger :=
  fun order hord => ⟨order, hord, rfl, rfl⟩

theorem keepsOrders_trans {first second third : Ledger} (h : KeepsOrders first second)
    (h' : KeepsOrders second third) : KeepsOrders first third := by
  intro order hord
  obtain ⟨mid, hmid, hmidId, hmidTime⟩ := h order hord
  obtain ⟨last, hlast, hlastId, hlastTime⟩ := h' mid hmid
  exact ⟨last, hlast, hlastId.trans hmidId, hlastTime.trans hmidTime⟩

variable {fill : FillRequest}

theorem Filled.keepsOrders {row : FillRow} {p position : PositionRow} {realized : Decimal} {base : Ledger}
    (h : Filled ledger fill drafts after row p position realized base) :
    KeepsOrders ledger after := by
  intro order hord
  rw [h.orders]
  exact exists_updateWhere hord ⟨rfl, rfl⟩ fun _ => ⟨rfl, rfl⟩

theorem Filled.causal {row : FillRow} {p position : PositionRow} {realized : Decimal} {base : Ledger}
    (hfld : Filled ledger fill drafts after row p position realized base)
    (h : ledger.Causal opens) {order : OrderRow} (hord : order ∈ ledger.orders)
    (hid : order.id = fill.orderId) (htime : order.submittedAt ≤ fill.at) : after.Causal opens := by
  constructor
  · rw [hfld.orders, map_updateWhere (f := filledOrder) fun _ => rfl]
    exact h.distinct
  · intro made hmade
    rw [hfld.fills] at hmade
    -- the order an older fill belongs to is still there, and so is the one of the new fill
    have hcaused : ∃ order ∈ ledger.orders, order.id = made.orderId ∧ order.submittedAt ≤ made.simulatedAt := by
      rcases mem_append.mp hmade with hold | hnew
      · exact h.caused made hold
      · rw [mem_singleton.mp hnew, hfld.made]
        exact ⟨order, hord, hid, htime⟩
    obtain ⟨old, hold, hsame, hle⟩ := hcaused
    obtain ⟨kept, hkept, hkeptId, hkeptTime⟩ := hfld.keepsOrders old hold
    exact ⟨kept, hkept, hkeptId.trans hsame, by rw [hkeptTime]; exact hle⟩
  · intro working hworking hactv time hops
    rw [hfld.orders] at hworking
    rcases updateWhere_cases hworking with ⟨hold, -⟩ | ⟨old, -, -, rfl⟩
    · exact h.waits working hold hactv time hops
    · cases hactv

theorem fillOrder_causal (hfill : ledger.fillOrder fill = .ok (drafts, after))
    (h : ledger.Causal opens) {order : OrderRow} (hord : order ∈ ledger.orders)
    (hid : order.id = fill.orderId) (htime : order.submittedAt ≤ fill.at) :
    after.Causal opens ∧ KeepsOrders ledger after := by
  obtain ⟨-, -, ⟨-, -, rfl⟩ | ⟨row, p, position, realized, base, hfld⟩⟩ := fillOrder_ok hfill
  · exact ⟨h, keepsOrders_refl _⟩
  · exact ⟨hfld.causal h hord hid htime, hfld.keepsOrders⟩

section Inserted

variable {order : OrderRow} {id : Uuid} {placed : Ledger}

theorem Inserted.orders (h : Inserted ledger order id placed) : placed.orders = ledger.orders ++ [{ order with id := id }] := by
  rw [h.rows]

theorem Inserted.fills (h : Inserted ledger order id placed) : placed.fills = ledger.fills := by
  rw [h.rows]

theorem Inserted.distinct (hins : Inserted ledger order id placed)
    (h : (ledger.orders.map (·.id)).Nodup) : (placed.orders.map (·.id)).Nodup := by
  rw [hins.orders]
  exact nodup_insert h hins.newId

/-- An order placed to wait, no later than any row its track has still to show. -/
theorem Inserted.causal (hins : Inserted ledger order id placed) (h : ledger.Causal opens)
    (hear : ∀ time, opens order.trackId time → order.submittedAt ≤ time) :
    placed.Causal opens := by
  constructor
  · exact hins.distinct h.distinct
  · intro fill hfill
    rw [hins.fills] at hfill
    obtain ⟨old, hold, hcaused⟩ := h.caused fill hfill
    refine ⟨old, ?_, hcaused⟩
    rw [hins.orders]
    exact mem_append_left _ hold
  · intro row hrow hactv time hops
    rw [hins.orders] at hrow
    rcases mem_append.mp hrow with hold | hnew
    · exact h.waits row hold hactv time hops
    · rw [mem_singleton.mp hnew] at hops ⊢
      exact hear time hops

theorem Inserted.causal_filled (hins : Inserted ledger order id placed)
    (hfill : placed.fillOrder fill = .ok (drafts, after)) (hid : fill.orderId = id)
    (htime : order.submittedAt ≤ fill.at) (h : ledger.Causal opens) : after.Causal opens := by
  obtain ⟨-, -, ⟨⟨row, hrow, hsame, -⟩, -⟩ | ⟨row, p, position, realized, base, hfld⟩⟩ :=
    fillOrder_ok hfill
  · -- an earlier fill of the order would need an order with its id
    rw [hins.fills] at hrow
    obtain ⟨old, hold, hcaused, -⟩ := h.caused row hrow
    exact absurd (hcaused.trans (hsame.trans hid)) (hins.newId old hold)
  · have hplaced : placed.Causal fun _ _ => False :=
      hins.causal (h.mono fun _ _ hnever => hnever.elim) fun _ hnever => hnever.elim
    have hnew : { order with id := id } ∈ placed.orders := by
      rw [hins.orders]
      exact mem_append_right _ mem_cons_self
    have haft := hfld.causal hplaced hnew hid.symm htime
    refine ⟨haft.distinct, haft.caused, ?_⟩
    intro working hworking hactv time hops
    rw [hfld.orders] at hworking
    rcases updateWhere_cases hworking with ⟨hold, hoth⟩ | ⟨old, -, -, rfl⟩
    · rw [hins.orders] at hold
      rcases mem_append.mp hold with hold | hsame
      · exact h.waits working hold hactv time hops
      · -- the new order itself is filled
        rw [mem_singleton.mp hsame, hid, decide_eq_false_iff_not] at hoth
        exact absurd rfl hoth
    · cases hactv

end Inserted

/-! ## Revealed rows -/

variable {trackId : Uuid} {bar : Bar}

section Causal

variable (h : ledger.Causal opens)
include h

theorem processBrackets_causal (hproc : ledger.processBrackets trackId bar = .ok (drafts, after)) : after.Causal opens := by
  refine collect_invariant (fun ledger => ledger.Causal opens) ?_ h hproc
  intro ledger p entries after _ hcau hrnd
  rcases processBracket_ok hrnd with ⟨-, rfl⟩ | ⟨price, kind, id, placed, filled, -, hins, hfill, -⟩
  · exact hcau
  · exact hins.causal_filled hfill rfl (Int.le_refl _) hcau

variable {symbol : String}

/-- The working orders of a track on a row it shows only now. -/
theorem processOrders_causal (hops : opens trackId bar.openTime)
    (hproc : collect (processOrder symbol bar) ledger (ledger.pendingOrders trackId)
      = .ok (drafts, after)) : after.Causal opens := by
  have hloop : after.Causal opens ∧ KeepsOrders ledger after := by
    refine collect_invariant (fun now => now.Causal opens ∧ KeepsOrders ledger now) ?_ ⟨h, keepsOrders_refl ledger⟩ hproc
    intro now order entries next hpend ⟨hcau, hkeeps⟩ hrnd
    rcases processOrder_ok hrnd with ⟨-, rfl⟩ | ⟨price, -, hfill⟩
    · exact ⟨hcau, hkeeps⟩
    · obtain ⟨hord, htrk, hactv⟩ := mem_pendingOrders.mp hpend
      have hear := h.waits order hord hactv bar.openTime (by rw [htrk]; exact hops)
      obtain ⟨row, hrow, hid, hsubmitted⟩ := hkeeps order hord
      obtain ⟨hnext, hmore⟩ := fillOrder_causal hfill hcau hrow hid (by rw [hsubmitted]; exact hear)
      exact ⟨hnext, keepsOrders_trans hkeeps hmore⟩
  exact hloop.1

theorem processRow_causal (hops : opens trackId bar.openTime)
    (hproc : processRow trackId symbol ledger bar = .ok (drafts, after)) : after.Causal opens := by
  obtain ⟨brackets, mid, fills, final, hbrks, hfills, -, rfl⟩ := processRow_ok hproc
  have hmid := processBrackets_causal h hbrks
  have hfinal := processOrders_causal hmid hops hfills
  exact hfinal.of_rows rfl rfl

/-! ## Commands -/

theorem reset_causal (at_ : Int) : (ledger.reset at_).2.Causal opens := by
  refine ⟨nodup_nil, fun fill hfill => ?_, fun _ hnone => by cases hnone⟩
  have hfill : fill ∈ ledger.fills.filter fun fill =>
      !ledger.orders.any fun order => order.id = fill.orderId := hfill
  rw [mem_filter, not_eq_true', any_eq_false] at hfill
  obtain ⟨order, hord, hid, -⟩ := h.caused fill hfill.1
  exact absurd (decide_eq_true hid) (hfill.2 order hord)

/-- The trade commands, at a time before every row still to come. -/
theorem trade_causal {session : Session} (hear : ∀ id time, opens id time → session.simulatedTime ≤ time)
    (htrd : TradeCases session track ledger drafts after) : after.Causal opens := by
  cases htrd with
  | place view payload sees places =>
    obtain ⟨order, id, placed, hreqd, hins, ⟨-, -, rfl⟩ | ⟨filled, -, hfill, -⟩⟩ :=
      place_ok places
    · refine hins.causal h fun time hops => ?_
      rw [hreqd.submitted, (marketView_ok sees).2.2.1]
      exact hear _ time hops
    · exact hins.causal_filled hfill rfl (Int.le_of_eq hreqd.submitted) h
  | cancel orderId cancels =>
    obtain ⟨id, -, rfl⟩ := cancel_ok cancels
    exact h.updated rfl rfl (fun _ => rfl) (fun _ => rfl) (fun _ => rfl) fun _ hactv => by cases hactv
  | close view payload sees closes =>
    obtain ⟨body, p, clientOrderId, id, placed, filled, -, -, -, -, hins, hfill, -⟩ :=
      closePosition_ok closes
    exact hins.causal_filled hfill rfl (Int.le_refl _) h
  | update payload updates =>
    obtain ⟨id, trackId, sl, tp, -, rfl⟩ := updateBracket_ok updates
    exact h.updated rfl rfl (fun _ => rfl) (fun _ => rfl) (fun _ => rfl) fun _ hactv => hactv
  | reset => exact reset_causal h _

end Causal

end Ledger

/-! ## Sessions -/

/-- Some track of this id has still to show a row that opens at the time. -/
def opensOn (tracks : List Track) (id : Uuid) (time : Int) : Prop :=
  ∃ track ∈ tracks, track.id = id ∧
    ∃ bar ∈ track.dataset.bars, track.cursorSeq < bar.seq ∧ bar.openTime = time

/-- A seek or restart resets the ledger, or it leaves no working order that was submitted after a
row it puts back ahead of the order's track. -/
def SeekLeavesNoneEarly (db : Database) (input : CommandInput) : Prop :=
  ∀ target resetTrading, seekTarget db.session input.command = .ok (target, resetTrading) →
    (target < db.session.simulatedTime ∧ db.ledger.hasFills = true ∧ resetTrading = true) ∨
      ∀ order ∈ db.ledger.orders, order.status.active = true →
        ∀ track ∈ db.tracks, track.id = order.trackId →
          ∀ bar ∈ track.dataset.bars, target < bar.openTime → order.submittedAt ≤ bar.openTime

/-- The invariant behind causality: rows to come are in the future, and no working order is. -/
structure Database.Causal (db : Database) : Prop where
  ledger : db.ledger.Causal (opensOn db.tracks)
  ahead : ∀ id time, opensOn db.tracks id time → db.session.simulatedTime < time

section Tracks

variable {tracks after : List Track} {id : Uuid} {time target : Int}

/-- A track that has moved on has no rows to come that it had not before. -/
theorem opensOn_forward
    (h : Forall₂ (fun before after => Track.SameTrack before after ∧ before.cursorSeq ≤ after.cursorSeq) tracks after)
    (hops : opensOn after id time) :
    opensOn tracks id time := by
  obtain ⟨track, htrk, hid, bar, hbar, hcsr, htime⟩ := hops
  obtain ⟨before, hbef, hsame, hle⟩ := forall₂_mem_right h htrk
  rw [hsame.dataset] at hbar
  exact ⟨before, hbef, hsame.id.symm.trans hid, bar, hbar, by omega, htime⟩

theorem future_of_lastRowAt {bar row : Bar} (hlast : track.dataset.LastRowAt target row) (hbar : bar ∈ track.dataset.bars)
    (hcsr : row.seq < bar.seq) : target < bar.openTime := by
  by_contra hpast
  have := hlast.last bar hbar (Int.not_lt.mp hpast)
  omega

theorem opensOn_sought (h : Forall₂ (fun before after => seekTrack target before = .ok after) tracks after)
    (hops : opensOn after id time) :
    target < time ∧ ∃ track ∈ tracks, track.id = id ∧ ∃ bar ∈ track.dataset.bars, bar.openTime = time := by
  obtain ⟨track, htrk, hid, bar, hbar, hcsr, htime⟩ := hops
  obtain ⟨before, hbef, hmvd⟩ := forall₂_mem_right h htrk
  obtain ⟨hsame, row, hlast, hseq, -⟩ := seekTrack_ok hmvd
  rw [hsame.dataset] at hbar
  rw [hseq] at hcsr
  refine ⟨?_, before, hbef, hsame.id.symm.trans hid, bar, hbar, htime⟩
  rw [← htime]
  exact future_of_lastRowAt hlast hbar hcsr

theorem opensOn_stepped {selected : List Bar} {shown : List Track}
    (hsel : Forall₂ (fun track bar => track.dataset.LastRowAt target bar) tracks selected)
    (h : Forall₂ (fun next shown => Track.SameTrack next.1 shown ∧ shown.cursorSeq = max next.1.cursorSeq next.2.seq ∧
        (next.2.seq ≤ next.1.cursorSeq → shown = next.1)) (tracks.zip selected) shown)
    (hops : opensOn shown id time) : target < time := by
  obtain ⟨track, htrk, -, bar, hbar, hcsr, htime⟩ := hops
  obtain ⟨⟨before, row⟩, hpair, hsame, hmax, -⟩ := forall₂_mem_right h htrk
  have hlast := forall₂_zip hsel hpair
  rw [hsame.dataset] at hbar
  rw [hmax] at hcsr
  dsimp only at hcsr
  rw [← htime]
  exact future_of_lastRowAt hlast hbar (by omega)

end Tracks

/-! ## One command -/

theorem reveal_causal {useLedger batch : Bool} {tracks : List Track} {selected : List Bar}
    {ledger after : Ledger} {revealed : List Revealed} (h : ledger.Causal (opensOn tracks))
    (hreveal : collect (revealTrack useLedger batch) ledger (tracks.zip selected)
      = .ok (revealed, after)) : after.Causal (opensOn tracks) := by
  refine reveal_keeps _ (fun next hnext now bar entries after hbar hrow hcau => ?_) hreveal h
  obtain ⟨hmem, haft, -⟩ := Dataset.mem_barsBySeqRange.mp hbar
  exact processRow_causal hcau ⟨next.1, (of_mem_zip hnext).1, rfl, bar, hmem, haft, rfl⟩ hrow

section Command

variable {db db' : Database} {input : CommandInput} {result : CommandResult} {claimed : Session}
  {moved : Moved}

theorem recordEquity_causal {ledger : Ledger} {opens : Uuid → Int → Prop} (h : ledger.Causal opens)
    (seq : Nat) (at_ : Int) : (ledger.recordEquity seq at_).Causal opens := by
  unfold recordEquity
  split
  · exact h
  · exact h.of_rows rfl rfl

theorem usesLedger_of_seek {target : Int × Bool} (h : seekTarget db.session input.command = .ok target) :
    (!canReuseIdleTradingProjection input) = true := by
  unfold canReuseIdleTradingProjection
  rw [seekTarget_notStep h]
  rfl

theorem rewind_resets {useLedger : Bool} (session : Session) (ledger : Ledger) {target : Int}
    (huse : useLedger = true) (hback : target < session.simulatedTime)
    (hfills : ledger.hasFills = true) :
    rewind useLedger session target true ledger = .ok (ledger.reset target) := by
  unfold rewind
  rw [huse, hfills, decide_eq_true hback]
  rfl

theorem Committed.moved_causal (hseek : SeekLeavesNoneEarly db input) (hcau : db.Causal)
    (h : Committed db input result db' claimed moved) :
    moved.ledger.Causal (opensOn moved.tracks) ∧
      ∀ id time, opensOn moved.tracks id time → moved.session.simulatedTime < time := by
  obtain ⟨lease, rfl⟩ := h.claim
  have hdrawn : ({ db.ledger with uuids := db.ledger.drawn } : Ledger).Causal (opensOn db.tracks) :=
    hcau.ledger.of_rows rfl rfl
  cases h.moves with
  | kept _ _ sameTracks sameLedger sameTime =>
    rw [sameTracks, sameLedger, sameTime]
    exact ⟨hdrawn, hcau.ahead⟩
  | stepped count batch selected target revealed steps resolved reveals shown arrives =>
    have hsel := (resolveReplayStepTarget_ok resolved).1
    have htrks := revealed_tracks reveals
    rw [shown, arrives]
    refine ⟨(reveal_causal hdrawn reveals).mono fun id time hops => ?_, fun id time hops => ?_⟩
    · exact opensOn_forward (stepped_forall₂ hsel.length_eq htrks) hops
    · have htime := opensOn_stepped hsel htrks hops
      unfold Session.arrived
      split <;> exact htime
  | sought target resetTrading resetDrafts seeks rewinds placed =>
    refine ⟨?_, fun id time hops => ?_⟩
    · rcases rewind_ok rewinds with ⟨-, hkept⟩ | ⟨-, hback, hfills, hreset, hldg⟩
      · rw [hkept]
        refine ⟨hdrawn.distinct, hdrawn.caused, fun order hord hactv time hops => ?_⟩
        obtain ⟨haft, track, htrk, hid, bar, hbar, htime⟩ := opensOn_sought placed hops
        rcases hseek target resetTrading seeks with ⟨hback, hfills, hreset⟩ | hnone
        · -- the guard would have reset the ledger, but then it has no order left
          have hresets := rewind_resets { db.session with lease := lease }
            { db.ledger with uuids := db.ledger.drawn } (usesLedger_of_seek seeks) hback hfills
          rw [hreset, hresets] at rewinds
          have hemp : moved.ledger.orders = [] := by
            rw [← (Prod.mk.inj (Except.ok.inj rewinds)).2]
          rw [hkept] at hemp
          have hnone : order ∈ ([] : List OrderRow) := hemp ▸ hord
          cases hnone
        · rw [← htime] at haft ⊢
          exact hnone order hord hactv track htrk hid bar hbar haft
      -- the ledger was reset to the target
      · have haft := (Prod.mk.inj hldg).2
        rw [← haft]
        have hreset := reset_causal hdrawn target
        exact ⟨hreset.distinct, hreset.caused, fun _ hnone => by cases hnone⟩
    · have hfuture := (opensOn_sought placed hops).1
      omega
  | traded track drafts trades hasLedger enabled onTrack operates sameTracks sameSession =>
    rw [sameTracks, sameSession]
    refine ⟨trade_causal hdrawn (fun id time hops => ?_) (tradeLedger_cases operates), hcau.ahead⟩
    have := hcau.ahead id time hops
    exact Int.le_of_lt this

theorem Committed.causal (hseek : SeekLeavesNoneEarly db input) (hcau : db.Causal)
    (h : Committed db input result db' claimed moved) : db'.Causal := by
  obtain ⟨hldg, hahead⟩ := h.moved_causal hseek hcau
  have hstrd := h.stored (fun now tracks ledger => ledger.Causal (opensOn tracks) ∧
      ∀ id time, opensOn tracks id time → now < time)
    ⟨hcau.ledger.of_rows rfl rfl, hcau.ahead⟩ ⟨hldg, hahead⟩
    fun _ _ _ seq at_ hrows => ⟨recordEquity_causal hrows.1 seq at_, hrows.2⟩
  exact ⟨hstrd.1, hstrd.2⟩

theorem command_causal (hids : (db.tracks.map (·.id)).Nodup) (hseek : SeekLeavesNoneEarly db input)
    (hcau : db.Causal) (h : db.command input = some db') : db'.Causal := by
  obtain ⟨response, hcs⟩ := commanded_of_command hids h
  cases hcs with
  | unmoved _ same =>
    obtain ⟨uuids, hldg⟩ := same.ledger
    constructor
    · rw [same.tracks, hldg]
      exact hcau.ledger.of_rows rfl rfl
    · rw [same.tracks, same.session]
      exact hcau.ahead
  | committed _ _ commits => exact commits.causal hseek hcau

end Command

/-! ## Runs -/

section Runs

variable {start db : Database}

theorem prepared_causal (h : Prepared start) : start.Causal := by
  have hemp : start.ledger.orders = [] ∧ start.ledger.fills = [] := by
    rcases h.account with ⟨currency, equity, commission, uuids, hldg⟩ | ⟨uuids, hldg⟩ <;>
      rw [hldg] <;> exact ⟨rfl, rfl⟩
  constructor
  · constructor
    · rw [hemp.1]
      exact nodup_nil
    · rw [hemp.2]
      exact nofun
    · rw [hemp.1]
      exact fun _ hnone => by cases hnone
  · rintro id time ⟨track, htrk, -, bar, hbar, hcsr, rfl⟩
    obtain ⟨row, hlast, hseq⟩ := h.placed track htrk
    rw [← hseq] at hcsr
    rw [h.atStart]
    exact future_of_lastRowAt hlast hbar hcsr

/--
**In every run whose seeks leave no order early, every fill is of an order submitted
no later, and no working order was submitted after a row its track has still to show.**
-/
theorem fills_follow_orders (hprepared : Prepared start) (hrun : Reaches Database.command SeekLeavesNoneEarly start db) :
    (∀ fill ∈ db.ledger.fills, ∃ order ∈ db.ledger.orders, order.id = fill.orderId) ∧
    (∀ fill ∈ db.ledger.fills, ∀ order ∈ db.ledger.orders, order.id = fill.orderId → order.submittedAt ≤ fill.simulatedAt) ∧
    ∀ order ∈ db.ledger.orders, order.status.active = true → ∀ track ∈ db.tracks,
      track.id = order.trackId → ∀ bar ∈ track.dataset.bars, track.cursorSeq < bar.seq → order.submittedAt ≤ bar.openTime := by
  have hcau : db.Causal := by
    refine hrun.invariant_along Database.Causal (prepared_causal hprepared) ?_
    intro db input db' hrun hcau hseek hstep
    exact command_causal (reaches_distinct hprepared hrun) hseek hcau hstep
  have hldg := hcau.ledger
  refine ⟨fun fill hfill => ?_, fun fill hfill order hord hid => ?_, fun order hord hactv track htrk hid bar hbar hcsr => ?_⟩
  · obtain ⟨order, hord, hid, -⟩ := hldg.caused fill hfill
    exact ⟨order, hord, hid⟩
  · obtain ⟨other, hoth, hotherId, hle⟩ := hldg.caused fill hfill
    rw [List.inj_on_of_nodup_map hldg.distinct hord hoth (hid.trans hotherId.symm)]
    exact hle
  · exact hldg.waits order hord hactv bar.openTime ⟨track, htrk, hid, bar, hbar, hcsr, rfl⟩

end Runs

/-! ## A rewind over a working order -/

/-- Three minutes of one track at the given prices, in a session that trades. -/
def tradedMinutes (first second third : Decimal) : Database :=
  minuteSession [minuteTrack 0 [first, second, third] (List.cons_ne_nil _ _)] none
    (Ledger.create "USD" 100 ⟨"", none⟩ id)

theorem tradedMinutes_prepared (first second third : Decimal) : Prepared (tradedMinutes first second third) := by
  refine minuteSession_prepared ?_ (nodup_singleton _) ?_ (.inl ⟨_, _, _, _, rfl⟩)
  · rw [length_singleton]
    omega
  intro track htrk
  rw [mem_singleton.mp htrk]
  exact minuteTrack_onClock _ _ _

/-- A request to buy one unit at a limit of two. -/
def buyAtTwo : CommandInput :=
  clientCommand "buy" (.placeOrder (some ⟨"buy-1", none, "buy", "limit", 1, some 2, none, none, none⟩))

/-- Some fill is earlier than the submission of its order. -/
def Ledger.fillsEarly (ledger : Ledger) : Bool :=
  ledger.fills.any fun fill => ledger.orders.any fun order =>
    order.id = fill.orderId && fill.simulatedAt < order.submittedAt

theorem not_early {ledger : Ledger} (h : ∀ fill ∈ ledger.fills, ∀ order ∈ ledger.orders,
    order.id = fill.orderId → order.submittedAt ≤ fill.simulatedAt) : ledger.fillsEarly = false := by
  unfold fillsEarly
  rw [any_eq_false]
  intro fill hfill hany
  obtain ⟨order, hord, hear⟩ := any_eq_true.mp hany
  rw [and_eq_true, decide_eq_true_iff, decide_eq_true_iff] at hear
  have := h fill hfill order hord hear.1
  omega

/-- The order waits at the first minute and fills on the second. -/
theorem limit_order_follows : ∃ db, Reaches Database.command SeekLeavesNoneEarly (tradedMinutes 3 1 3) db ∧
    db.ledger.fills ≠ [] ∧ db.ledger.fillsEarly = false := by
  have hrun : ((exec Database.command (fun _ input => !input.command.isSeek) (tradedMinutes 3 1 3)
      [buyAtTwo, clientCommand "step" (.step (some 1))]).map fun db =>
        !db.ledger.fills.isEmpty) = some true := by decide +kernel
  obtain ⟨db, hexec, htest⟩ := Option.map_eq_some_iff.mp hrun
  have hrch : Reaches Database.command SeekLeavesNoneEarly (tradedMinutes 3 1 3) db := by
    refine reaches_of_exec (fun db input h target resetTrading hseek => ?_) hexec
    rw [seekTarget_isSeek hseek] at h
    cases h
  have hfoll := (fills_follow_orders (tradedMinutes_prepared 3 1 3) hrch).2.1
  refine ⟨db, hrch, fun hnone => ?_, not_early hfoll⟩
  rw [hnone] at htest
  cases htest

/-- The order is placed at the third minute, the session is put back to the first, and the order
fills on the second: the minute before it was placed. -/
theorem rewound_order_fills_early : ¬ ∀ start db, Prepared start → Reaches Database.command always start db →
    ∀ fill ∈ db.ledger.fills, ∀ order ∈ db.ledger.orders, order.id = fill.orderId → order.submittedAt ≤ fill.simulatedAt := by
  intro h
  have hrun : ((exec Database.command (fun _ _ => true) (tradedMinutes 3 1 3)
      [clientCommand "second" (.step (some 1)), clientCommand "third" (.step (some 1)), buyAtTwo,
       clientCommand "back" (.seek (some (some 0, false))),
       clientCommand "step" (.step (some 1))]).map fun db => db.ledger.fillsEarly) = some true := by
    decide +kernel
  obtain ⟨db, hrch, htest⟩ := reached_of_map hrun
  rw [not_early (h _ db (tradedMinutes_prepared 3 1 3) hrch)] at htest
  cases htest

end MarketLens.Replay
