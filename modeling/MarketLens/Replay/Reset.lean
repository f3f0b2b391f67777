import Mathlib.Data.Finset.Sort
import MarketLens.Replay.Causality
import MarketLens.Replay.Projection
import MarketLens.Replay.Report

/-!
# What a reset leaves

`ledgerRuntime.reset` deletes the orders, the fills go with them, and the account is
put back. Positions and equity points belong to the session, not to an order, and
nothing deletes them. So a reset makes a session like new only while there is
nothing to take back.
-/

namespace MarketLens.Replay

open List Option Bool Journal Fallible Table Runs Ledger

/-! ## Rows that stay sound -/

/-- The columns of an account that are written when it is created. -/
def AccountRow.terms (account : AccountRow) : String × Decimal × CommissionModel :=
  (account.baseCurrency, account.startingEquity, account.commissionModel)

variable {track : Track}

namespace Ledger

variable {ledger after : Ledger} {drafts : List EventDraft}
  {terms : Option (String × Decimal × CommissionModel)} {points : List EquityPoint}

/-- An account on these terms, an equity curve of these points, and no fill without its order. -/
structure Sound (terms : Option (String × Decimal × CommissionModel)) (points : List EquityPoint)
    (ledger : Ledger) : Prop where
  terms : ledger.account.map AccountRow.terms = terms
  points : ledger.equityPoints = points
  ordered : ∀ fill ∈ ledger.fills, ∃ order ∈ ledger.orders, order.id = fill.orderId

theorem Sound.kept (h : ledger.Sound terms points)
    (hterms : after.account.map AccountRow.terms = ledger.account.map AccountRow.terms)
    (hpoints : after.equityPoints = ledger.equityPoints) (hfills : after.fills = ledger.fills)
    (hords : KeepsOrders ledger after) : after.Sound terms points := by
  refine ⟨hterms.trans h.terms, hpoints.trans h.points, fun fill hfill => ?_⟩
  rw [hfills] at hfill
  obtain ⟨order, hord, hid⟩ := h.ordered fill hfill
  obtain ⟨row, hrow, hsame, -⟩ := hords order hord
  exact ⟨row, hrow, hsame.trans hid⟩

theorem keepsOrders_updateWhere {p : OrderRow → Bool} {f : OrderRow → OrderRow}
    (hords : after.orders = updateWhere p f ledger.orders) (hid : ∀ order, (f order).id = order.id)
    (htime : ∀ order, (f order).submittedAt = order.submittedAt) : KeepsOrders ledger after := by
  intro order hord
  rw [hords]
  exact exists_updateWhere hord ⟨rfl, rfl⟩ fun _ => ⟨hid order, htime order⟩

variable {order : OrderRow} {id : Uuid} {placed : Ledger}

theorem Inserted.keepsOrders (h : Inserted ledger order id placed) : KeepsOrders ledger placed := by
  intro row hrow
  refine ⟨row, ?_, rfl, rfl⟩
  rw [h.orders]
  exact mem_append_left _ hrow

variable {fill : FillRequest}

theorem Filled.keepsTerms {row : FillRow} {p position : PositionRow} {realized : Decimal} {base : Ledger}
    (h : Filled ledger fill drafts after row p position realized base) :
    after.account.map AccountRow.terms = ledger.account.map AccountRow.terms := by
  have hbase : base.account = ledger.account := h.applies.account
  rw [h.rows]
  unfold refreshEquity book
  rw [hbase, Option.map_map, Option.map_map]
  rfl

section Sound

variable (h : ledger.Sound terms points)
include h

theorem Inserted.sound (hins : Inserted ledger order id placed) : placed.Sound terms points := by
  have hrows := hins.rows
  refine h.kept ?_ ?_ hins.fills hins.keepsOrders
  · rw [hrows]
  · rw [hrows]

theorem fillOrder_sound (hfill : ledger.fillOrder fill = .ok (drafts, after)) (hord : order ∈ ledger.orders)
    (hid : order.id = fill.orderId) : after.Sound terms points ∧ KeepsOrders ledger after := by
  obtain ⟨-, -, ⟨-, -, rfl⟩ | ⟨row, p, position, realized, base, hfld⟩⟩ := fillOrder_ok hfill
  · exact ⟨h, keepsOrders_refl _⟩
  refine ⟨⟨hfld.keepsTerms.trans h.terms, hfld.equityPoints.trans h.points, ?_⟩, hfld.keepsOrders⟩
  intro made hmade
  rw [hfld.fills] at hmade
  have hmade : ∃ order ∈ ledger.orders, order.id = made.orderId := by
    rcases mem_append.mp hmade with hold | hnew
    · exact h.ordered made hold
    · rw [mem_singleton.mp hnew, hfld.made]
      exact ⟨order, hord, hid⟩
  obtain ⟨old, hold, hsame⟩ := hmade
  obtain ⟨kept, hkept, hkeptId, -⟩ := hfld.keepsOrders old hold
  exact ⟨kept, hkept, hkeptId.trans hsame⟩

theorem Inserted.sound_filled (hins : Inserted ledger order id placed)
    (hfill : placed.fillOrder fill = .ok (drafts, after)) (hid : fill.orderId = id) : after.Sound terms points := by
  have hnew : { order with id := id } ∈ placed.orders := by
    rw [hins.orders]
    exact mem_append_right _ mem_cons_self
  exact (fillOrder_sound (hins.sound h) hfill hnew hid.symm).1

theorem markToMarket_sound (trackId : Uuid) (bar : Bar) : (ledger.markToMarket trackId bar).Sound terms points := by
  refine h.kept ?_ rfl rfl (keepsOrders_refl ledger)
  rw [markToMarket_account, Option.map_map]
  rfl

/-! ## Rows and commands -/

variable {bar : Bar}

theorem processBracket_sound {p : PositionRow}
    (hrnd : processBracket bar ledger p = .ok (drafts, after)) : after.Sound terms points := by
  rcases processBracket_ok hrnd with ⟨-, rfl⟩ | ⟨price, kind, id, placed, filled, -, hins, hfill, -⟩
  · exact h
  · exact hins.sound_filled h hfill rfl

variable {trackId : Uuid} {symbol : String}

/-- The working orders of a track are rows of the ledger, and stay rows while others fill. -/
theorem processOrders_sound
    (hproc : collect (processOrder symbol bar) ledger (ledger.pendingOrders trackId)
      = .ok (drafts, after)) : after.Sound terms points := by
  have hloop : after.Sound terms points ∧ KeepsOrders ledger after := by
    refine collect_invariant (fun now => now.Sound terms points ∧ KeepsOrders ledger now) ?_ ⟨h, keepsOrders_refl ledger⟩ hproc
    intro now order entries next hpend ⟨hsnd, hkeeps⟩ hrnd
    rcases processOrder_ok hrnd with ⟨-, rfl⟩ | ⟨price, -, hfill⟩
    · exact ⟨hsnd, hkeeps⟩
    · obtain ⟨hord, -⟩ := mem_pendingOrders.mp hpend
      obtain ⟨row, hrow, hid, -⟩ := hkeeps order hord
      obtain ⟨hnext, hmore⟩ := fillOrder_sound hsnd hfill hrow hid
      exact ⟨hnext, keepsOrders_trans hkeeps hmore⟩
  exact hloop.1

theorem processRow_sound (hproc : processRow trackId symbol ledger bar = .ok (drafts, after)) : after.Sound terms points := by
  obtain ⟨brackets, mid, fills, final, hbrks, hfills, -, rfl⟩ := processRow_ok hproc
  have hmid : mid.Sound terms points :=
    collect_invariant (fun now => now.Sound terms points) (fun _ _ _ _ _ hnow hrnd => processBracket_sound hnow hrnd) h hbrks
  exact markToMarket_sound (processOrders_sound hmid hfills) trackId bar

theorem reset_sound (at_ : Int) : (ledger.reset at_).2.Sound terms points ∧ (ledger.reset at_).2.fills = [] := by
  have hfills : (ledger.reset at_).2.fills = [] := by
    unfold reset
    rw [filter_eq_nil_iff]
    intro fill hfill hkept
    obtain ⟨order, hord, hid⟩ := h.ordered fill hfill
    rw [not_eq_true', List.any_eq_false] at hkept
    exact hkept order hord (decide_eq_true hid)
  refine ⟨⟨?_, h.points, ?_⟩, hfills⟩
  · rw [← h.terms]
    unfold reset
    rw [Option.map_map]
    rfl
  · rw [hfills]
    exact nofun

theorem trade_sound {session : Session} (htrd : TradeCases session track ledger drafts after) : after.Sound terms points := by
  cases htrd with
  | place view payload sees places =>
    obtain ⟨order, id, placed, -, hins, ⟨-, -, rfl⟩ | ⟨filled, -, hfill, -⟩⟩ := place_ok places
    · exact hins.sound h
    · exact hins.sound_filled h hfill rfl
  | cancel orderId cancels =>
    obtain ⟨id, -, rfl⟩ := cancel_ok cancels
    exact h.kept rfl rfl rfl (keepsOrders_updateWhere rfl (fun _ => rfl) fun _ => rfl)
  | close view payload sees closes =>
    obtain ⟨body, p, clientOrderId, id, placed, filled, -, -, -, -, hins, hfill, -⟩ :=
      closePosition_ok closes
    exact hins.sound_filled h hfill rfl
  | update payload updates =>
    obtain ⟨id, trackId, sl, tp, -, rfl⟩ := updateBracket_ok updates
    exact h.kept rfl rfl rfl (keepsOrders_updateWhere rfl (fun _ => rfl) fun _ => rfl)
  | reset => exact (reset_sound h _).1

end Sound

end Ledger

/-! ## Nothing recorded, nothing traded -/

/-- No order and no position. -/
def Ledger.Bare (ledger : Ledger) : Prop := ledger.orders = [] ∧ ledger.positions = []

/-- A projection without orders and positions is that of a bare ledger. -/
theorem Ledger.Bare.of_load {before after : Ledger} (h : before.Bare) {account : AccountRow}
    (hacct : after.account = some account)
    (hload : loadTradingSnapshot after = loadTradingSnapshot before) : after.Bare := by
  unfold loadTradingSnapshot at hload
  rw [hacct, h.1, h.2, map_some] at hload
  obtain ⟨_, -, hsnp⟩ := map_eq_some_iff.mp hload.symm
  have hords := congrArg TradingSnapshot.orders hsnp
  have hposs := congrArg TradingSnapshot.positions hsnp
  dsimp only at hords hposs
  constructor
  · have hperm := mergeSort_perm after.orders fun a b =>
      a.submittedAt < b.submittedAt || (a.submittedAt = b.submittedAt && a.id ≤ b.id)
    rw [← hords, mergeSort_nil] at hperm
    exact nil_perm.mp hperm
  · have hperm := mergeSort_perm after.positions fun a b =>
      a.symbol < b.symbol || (a.symbol = b.symbol && a.id ≤ b.id)
    rw [← hposs, mergeSort_nil] at hperm
    exact nil_perm.mp hperm

theorem Ledger.Bare.stands {ledger : Ledger} (h : ledger.Bare) (pairs : List (Track × Bar)) : pairs.all ledger.stands = true := by
  rw [List.all_eq_true]
  intro next _
  have hinact : ledger.hasActiveMarketState next.1.id = false := by
    unfold hasActiveMarketState
    rw [h.1, h.2]
    rfl
  have hsame : ledger.markedBy next = ledger := by
    unfold markedBy
    rw [hinact, Bool.and_false, if_neg Bool.false_ne_true]
  unfold Ledger.stands
  rw [hsame, decide_eq_true rfl, decide_eq_true rfl]
  rfl

/-- What holds of the trading rows in every state of a session with an account on these terms. -/
structure Database.Recorded (terms : String × Decimal × CommissionModel) (db : Database) : Prop where
  sound : db.ledger.Sound (some terms) db.ledger.equityPoints
  recorded : db.ledger.equityPoints = [] → db.ledger.Bare

variable {at_ : Int}

section Command

variable {db db' : Database} {input : CommandInput} {result : CommandResult} {claimed : Session}
  {moved : Moved} {terms : String × Decimal × CommissionModel}

variable {ledger : Ledger}

theorem Ledger.Sound.account {points : List EquityPoint}
    (h : ledger.Sound (some terms) points) : ∃ account, ledger.account = some account ∧ account.terms = terms :=
  map_eq_some_iff.mp h.terms

theorem recordEquity_sound {points : List EquityPoint} (h : ledger.Sound (some terms) points) (seq : Nat) (at_ : Int) :
    (ledger.recordEquity seq at_).Sound (some terms) (ledger.recordEquity seq at_).equityPoints := by
  have hterms := h.terms
  have hordd := h.ordered
  unfold recordEquity
  split
  · exact ⟨hterms, rfl, hordd⟩
  · exact ⟨hterms, rfl, hordd⟩

/-- A trade command leaves a point on the curve, its own or an older one. -/
theorem recordEquity_points {account : AccountRow} (hacct : ledger.account = some account) (seq : Nat) (at_ : Int) :
    (ledger.recordEquity seq at_).equityPoints ≠ [] := by
  unfold recordEquity
  rw [hacct]
  unfold insertUnless
  dsimp only
  split
  · rename_i htak
    intro hnone
    rw [hnone] at htak
    cases htak
  · exact append_ne_nil_of_right_ne_nil _ (cons_ne_nil _ _)

/-- A point of an event that has none yet is added to the curve. -/
theorem recordEquity_new {account : AccountRow} {seq : Nat} (at_ : Int) (hacct : ledger.account = some account)
    (hnew : ∀ point ∈ ledger.equityPoints, point.eventSeq ≠ seq) :
    (ledger.recordEquity seq at_).equityPoints.length = ledger.equityPoints.length + 1 := by
  have hfree : (ledger.equityPoints.any fun other => other.eventSeq = seq) = false := by
    rw [List.any_eq_false]
    intro point hpoint hsame
    exact hnew point hpoint (of_decide_eq_true hsame)
  unfold recordEquity insertUnless
  rw [hacct]
  dsimp only
  rw [hfree, if_neg Bool.false_ne_true, length_append, length_singleton]

theorem Committed.moved_sound (hsnd : db.ledger.Sound (some terms) db.ledger.equityPoints)
    (h : Committed db input result db' claimed moved) :
    moved.ledger.Sound (some terms) db.ledger.equityPoints := by
  have hdrawn : ({ db.ledger with uuids := db.ledger.drawn } : Ledger).Sound (some terms)
      db.ledger.equityPoints := hsnd.kept rfl rfl rfl (keepsOrders_refl _)
  cases h.moves with
  | kept _ _ _ sameLedger =>
    rw [sameLedger]
    exact hdrawn
  | stepped _ _ _ _ _ _ _ reveals =>
    exact reveal_keeps _ (fun _ _ _ _ _ _ _ hrow hsnd => processRow_sound hsnd hrow) reveals hdrawn
  | sought target _ _ _ rewinds =>
    rcases rewind_ok rewinds with ⟨-, hkept⟩ | ⟨-, -, -, -, hreset⟩
    · rw [hkept]
      exact hdrawn
    · rw [← (Prod.mk.inj hreset).2]
      exact (Ledger.reset_sound hdrawn target).1
  | traded _ _ _ _ _ _ operates => exact trade_sound hdrawn (tradeLedger_cases operates)

theorem Committed.recorded (hrecd : db.Recorded terms)
    (h : Committed db input result db' claimed moved) : db'.Recorded terms := by
  have hmvd := h.moved_sound hrecd.sound
  obtain ⟨seq, at_, hldg⟩ := h.ledger
  by_cases htrad : tradeChangedInDrafts moved.drafts = true
  · rw [if_pos htrad] at hldg
    obtain ⟨account, hacct, -⟩ := hmvd.account
    constructor
    · rw [hldg]
      exact recordEquity_sound hmvd seq at_
    · intro hnone
      rw [hldg] at hnone
      exact absurd hnone (recordEquity_points hacct seq at_)
  · rw [if_neg htrad] at hldg
    have hsnd : db'.ledger.Sound (some terms) db.ledger.equityPoints := by
      rw [hldg]
      exact hmvd
    constructor
    · rw [hsnd.points]
      exact hsnd
    · intro hnone
      rw [hsnd.points] at hnone
      have hbare := hrecd.recorded hnone
      obtain ⟨account, hacct, -⟩ := hsnd.account
      -- a command that drafts no trade event keeps the projection, or marks what is not there
      rw [not_eq_true] at htrad
      rcases h.silent (tradeChangedInDrafts_eq_false.mp htrad) with hsame | ⟨-, -, hmarked⟩
      · exact hbare.of_load hacct hsame
      · rw [foldl_markedBy (hbare.stands _)] at hmarked
        exact hbare.of_load hacct hmarked

theorem command_recorded (hids : (db.tracks.map (·.id)).Nodup) (hrecd : db.Recorded terms)
    (h : db.command input = some db') : db'.Recorded terms := by
  obtain ⟨response, hcs⟩ := commanded_of_command hids h
  cases hcs with
  | unmoved _ same =>
    obtain ⟨uuids, hldg⟩ := same.ledger
    constructor
    · rw [hldg]
      exact hrecd.sound.kept rfl rfl rfl (keepsOrders_refl _)
    · rw [hldg]
      exact hrecd.recorded
  | committed _ _ commits => exact commits.recorded hrecd

/-! ## Commands that reset -/

theorem TradeCases.resets {session : Session} {ledger after : Ledger}
    {drafts : List EventDraft} (h : TradeCases session track ledger drafts after)
    (hreset : EventDraft.tradingReset at_ ∈ drafts) : after = (ledger.reset at_).2 := by
  have hfill : ∀ {placed closed : Ledger} {fill : Ledger.FillRequest} {filled : List EventDraft}
      {created : EventDraft}, placed.fillOrder fill = .ok (filled, closed) →
      created ≠ .tradingReset at_ → EventDraft.tradingReset at_ ∉ created :: filled := by
    intro placed closed fill filled created hfld hcrtd hmem
    rcases mem_cons.mp hmem with hsame | hrest
    · exact hcrtd hsame.symm
    · have := fillOrder_byRow hfld _ hrest
      cases this
  cases h with
  | place view payload sees places =>
    obtain ⟨order, id, placed, -, -, ⟨-, rfl, -⟩ | ⟨filled, -, hfld, rfl⟩⟩ := place_ok places
    · cases mem_singleton.mp hreset
    · exact absurd hreset (hfill hfld nofun)
  | cancel orderId cancels =>
    obtain ⟨id, rfl, -⟩ := cancel_ok cancels
    cases mem_singleton.mp hreset
  | close view payload sees closes =>
    obtain ⟨body, p, clientOrderId, id, placed, filled, -, -, -, -, -, hfld, rfl⟩ :=
      closePosition_ok closes
    exact absurd hreset (hfill hfld nofun)
  | update payload updates =>
    obtain ⟨id, trackId, sl, tp, rfl, -⟩ := updateBracket_ok updates
    cases mem_singleton.mp hreset
  | reset =>
    cases mem_singleton.mp hreset
    rfl

theorem Committed.moved_reset (h : Committed db input result db' claimed moved)
    (hreset : EventDraft.tradingReset at_ ∈ moved.drafts) :
    moved.ledger = (Ledger.reset { db.ledger with uuids := db.ledger.drawn } at_).2 := by
  have htrd : EventDraft.tradingReset at_ ∈ tradeDrafts moved.drafts :=
    mem_filter.mpr ⟨hreset, rfl⟩
  cases h.moves with
  | kept _ _ _ _ _ _ quiet =>
    rw [quiet] at htrd
    cases htrd
  | stepped _ _ _ _ revealed _ _ reveals _ _ drafted =>
    rw [drafted] at htrd
    have hrow := reveal_byRow reveals _ (mem_filter.mp htrd).1
    cases hrow
  | sought target _ resetDrafts _ rewinds _ _ _ _ drafted =>
    rw [drafted] at htrd
    rcases rewind_ok rewinds with ⟨rfl, -⟩ | ⟨-, -, -, -, hresets⟩
    · cases htrd
    obtain ⟨hdrfs, hldg⟩ := Prod.mk.inj hresets
    rw [← hdrfs] at htrd
    cases mem_singleton.mp (mem_filter.mp htrd).1
    exact hldg.symm
  | traded track drafts _ _ _ _ operates _ _ drafted =>
    rw [drafted] at htrd
    exact (tradeLedger_cases operates).resets (mem_filter.mp htrd).1

end Command

/-! ## Resets seen from outside -/

/-- What a client can read of the trading of a session. -/
structure TradingView where
  projection : Option TradingSnapshot
  equityPoints : List EquityPoint
  report : Except ReplayError ReplayReport

def Ledger.view (ledger : Ledger) : TradingView :=
  ⟨loadTradingSnapshot ledger, ledger.equityPoints, buildReplayReport ledger⟩

namespace Database

variable (db : Database)

/-- The session with this ledger, once its command has added the point of its last event. -/
def resumed (ledger : Ledger) (eventSeq : Nat) (simulatedAt : Int) : Database :=
  { db with ledger := ledger.recordEquity eventSeq simulatedAt }

def after (inputs : List CommandInput) : Database :=
  inputs.foldl (fun db input => (applyCommand db input).2) db

end Database

/-- A reset of this ledger cannot be told from creating the account anew, right away or after any
further commands in any session; `fresh` is the new account, given the ids still to draw. -/
structure ResetComplete (fresh : (Nat → Uuid) → Ledger) (ledger : Ledger) (at_ : Int) : Prop where
  noOrders : (ledger.reset at_).2.orders = []
  noFills : (ledger.reset at_).2.fills = []
  flat : ∀ p ∈ (ledger.reset at_).2.positions, p.netQuantity = 0
  settled : (ledger.reset at_).2.account = (fresh ledger.uuids).account
  replays : ∀ (db : Database) (uuids : Nat → Uuid) (eventSeq : Nat) (simulatedAt : Int)
    (inputs : List CommandInput),
    ((db.resumed { (ledger.reset at_).2 with uuids := uuids } eventSeq simulatedAt).after
        inputs).ledger.view =
      ((db.resumed (fresh uuids) eventSeq simulatedAt).after inputs).ledger.view

section Runs

variable {start db : Database} {currency : String} {equity : Decimal} {commission : CommissionModel}

theorem prepared_recorded {uuids : Nat → Uuid} (h : start.ledger = Ledger.create currency equity commission uuids) :
    start.Recorded (currency, equity, commission) := by
  constructor
  · rw [h]
    exact ⟨rfl, rfl, nofun⟩
  · rw [h]
    exact fun _ => ⟨rfl, rfl⟩

theorem reaches_recorded {uuids : Nat → Uuid} (hprep : Prepared start)
    (hldg : start.ledger = Ledger.create currency equity commission uuids)
    (hrun : Reaches Database.command always start db) :
    db.Recorded (currency, equity, commission) :=
  hrun.invariant_along (·.Recorded (currency, equity, commission)) (prepared_recorded hldg)
    fun _ _ _ hrun hrecd _ hstep => command_recorded (reaches_distinct hprep hrun) hrecd hstep

theorem Database.Recorded.reset_account (h : db.Recorded (currency, equity, commission)) (at_ : Int) :
    (db.ledger.reset at_).2.account = some ⟨currency, equity, equity, equity, commission⟩ := by
  obtain ⟨account, hacct, hterms⟩ := h.sound.account
  obtain ⟨rfl, rfl, rfl⟩ := hterms
  unfold reset
  rw [hacct]
  rfl

/-- With nothing recorded a reset leaves the rows of a new account. -/
theorem Database.Recorded.reset_fresh (h : db.Recorded (currency, equity, commission))
    (hnone : db.ledger.equityPoints = []) (at_ : Int) (uuids : Nat → Uuid) :
    ({ (db.ledger.reset at_).2 with uuids := uuids } : Ledger) = Ledger.create currency equity commission uuids :=
  Ledger.ext (h.reset_account at_) rfl (Ledger.reset_sound h.sound at_).2 (h.recorded hnone).2 hnone
    rfl

/-- The points a reset keeps can be read, beside the one its own command adds. -/
theorem ResetComplete.unrecorded (h : ResetComplete (Ledger.create currency equity commission) db.ledger at_) :
    db.ledger.equityPoints = [] := by
  obtain ⟨seq, hseq⟩ := Infinite.exists_notMem_finset (db.ledger.equityPoints.map (·.eventSeq)).toFinset
  rw [List.mem_toFinset] at hseq
  have hkept : ((db.ledger.reset at_).2.recordEquity seq at_).equityPoints.length = db.ledger.equityPoints.length + 1 :=
    recordEquity_new at_ h.settled fun point hpoint hsame =>
      hseq (mem_map.mpr ⟨point, hpoint, hsame⟩)
  have hcrtd : ((create currency equity commission db.ledger.uuids).recordEquity seq
      at_).equityPoints.length = 1 := recordEquity_new at_ rfl nofun
  have hview := congrArg TradingView.equityPoints (h.replays db db.ledger.uuids seq at_ [])
  have hsame : ((db.ledger.reset at_).2.recordEquity seq at_).equityPoints =
    ((create currency equity commission db.ledger.uuids).recordEquity seq at_).equityPoints :=
    hview
  rw [hsame, hcrtd] at hkept
  exact eq_nil_of_length_eq_zero (by omega)

theorem runCommand_of_answer {db' : Database} {input : CommandInput} {result : CommandResult}
    {events : List EventRow} {event : EventRow}
    (h : applyCommand db input = (.ok (result, events), db')) (hevt : event ∈ events) :
    runCommand db input = .ok (result, events, db') := by
  unfold applyCommand at h
  split at h
  · -- an answer from the log publishes nothing
    rename_i row _
    have hans := (Prod.mk.inj h).1
    cases hlogg : duplicateCommandResult row.outcome with
    | error =>
      rw [hlogg] at hans
      cases hans
    | ok =>
      rw [hlogg] at hans
      cases hans
      cases hevt
  · split at h
    · cases h
    split at h
    · cases h
    split at h
    · rename_i hrun
      cases h
      exact hrun
    · cases h

/-- A command that announces a reset has gone through it and added its point to the curve. -/
theorem reset_announced {db' : Database} {input : CommandInput} {result : CommandResult}
    {events : List EventRow} {event : EventRow} (hids : (db.tracks.map (·.id)).Nodup)
    (h : applyCommand db input = (.ok (result, events), db')) (hevt : event ∈ events)
    (hreset : event.draft = .tradingReset at_) :
    ∃ uuids eventSeq simulatedAt, db' = db'.resumed { (db.ledger.reset at_).2 with uuids := uuids } eventSeq simulatedAt := by
  have hran := runCommand_of_answer h hevt
  obtain ⟨claimed, moved, hcommits⟩ := runCommand_ok hids hran
  obtain ⟨added, hadded, hdrfs, -⟩ := hcommits.events
  rw [runCommand_events hran, append_cancel_left_eq] at hadded
  have hdraft : EventDraft.tradingReset at_ ∈ moved.drafts := by
    rw [← hdrfs, ← hadded, ← hreset]
    exact mem_map_of_mem hevt
  have htrad : tradeChangedInDrafts moved.drafts = true :=
    any_eq_true.mpr ⟨_, hdraft, rfl⟩
  obtain ⟨seq, time, hldg⟩ := hcommits.ledger
  rw [if_pos htrad, hcommits.moved_reset hdraft] at hldg
  have hresumed : db'.ledger = ({ (db.ledger.reset at_).2 with uuids := db.ledger.drawn } : Ledger).recordEquity seq time := hldg
  refine ⟨db.ledger.drawn, seq, time, ?_⟩
  unfold Database.resumed
  rw [← hresumed]

/--
**A reset takes back the orders, the fills and the account in every reachable session,
and never a position. It cannot be told from a new account exactly while no trade event
has been recorded.**
-/
theorem reset_complete_iff {uuids : Nat → Uuid} (hprepared : Prepared start)
    (hledger : start.ledger = Ledger.create currency equity commission uuids)
    (hrun : Reaches Database.command always start db) :
    (∀ at_, (db.ledger.reset at_).2.orders = [] ∧ (db.ledger.reset at_).2.fills = [] ∧
      (db.ledger.reset at_).2.account = some ⟨currency, equity, equity, equity, commission⟩ ∧
      (db.ledger.reset at_).2.positions = db.ledger.positions) ∧
    (∀ at_, ResetComplete (Ledger.create currency equity commission) db.ledger at_ ↔ db.ledger.equityPoints = []) ∧
    ∀ db' input result events event at_, applyCommand db input = (.ok (result, events), db') →
      event ∈ events → event.draft = .tradingReset at_ → ∃ uuids eventSeq simulatedAt,
        db' = db'.resumed { (db.ledger.reset at_).2 with uuids := uuids } eventSeq simulatedAt := by
  have hrecd := reaches_recorded hprepared hledger hrun
  refine ⟨fun at_ => ?_, fun at_ => ⟨ResetComplete.unrecorded, fun hnone => ?_⟩, ?_⟩
  · exact ⟨rfl, (Ledger.reset_sound hrecd.sound at_).2, hrecd.reset_account at_, rfl⟩
  · have hbare := hrecd.recorded hnone
    constructor
    · rfl
    · exact (Ledger.reset_sound hrecd.sound at_).2
    · intro p hp
      have hp : p ∈ db.ledger.positions := hp
      rw [hbare.2] at hp
      cases hp
    · exact hrecd.reset_account at_
    · intro other uuids seq time inputs
      rw [hrecd.reset_fresh hnone at_ uuids]
  · intro db' input result events event at_ h hevt hreset
    exact reset_announced (reaches_distinct hprepared hrun) h hevt hreset

end Runs

/-! ## A position that outlives its reset -/

/-- A request to reset the trading of the session. -/
def resetTrading : CommandInput := clientCommand "reset" .resetTrading

/-- A minute has been shown and nothing traded: a reset is complete. -/
theorem unused_reset_complete : Prepared risingMinutes ∧ ∃ db, Reaches Database.command always risingMinutes db ∧
    db.tracks.map (·.cursorSeq) = [1] ∧ ∀ at_, ResetComplete (Ledger.create "USD" 100 ⟨"", none⟩) db.ledger at_ := by
  have hrun : ((exec Database.command (fun _ _ => true) risingMinutes [clientCommand "step" (.step (some 1))]).map fun db =>
      (db.tracks.map (·.cursorSeq), db.ledger.equityPoints.length)) = some ([1], 0) := by decide +kernel
  obtain ⟨db, hrch, htest⟩ := reached_of_map hrun
  obtain ⟨hcursors, hpoints⟩ := Prod.mk.inj htest
  refine ⟨risingMinutes_prepared, db, hrch, hcursors, fun at_ => ?_⟩
  exact ((reset_complete_iff risingMinutes_prepared rfl hrch).2.1 at_).mpr (length_eq_zero_iff.mp hpoints)

/-- Two units are bought at one and the trading is reset. The position is still open, and a minute
at three later the equity of an account reset to 100 is 104. -/
theorem reset_keeps_position : Prepared risingMinutes ∧ ∃ db, Reaches Database.command always risingMinutes db ∧
    ¬ ResetComplete (Ledger.create "USD" 100 ⟨"", none⟩) db.ledger db.session.simulatedTime ∧
    (db.after [resetTrading, clientCommand "step" (.step (some 1))]).ledger.account.map (·.equity) = some 104 := by
  have hrun : ((exec Database.command (fun _ _ => true) risingMinutes [buyTwo]).map fun db =>
      db.ledger.positions.any (fun p => p.netQuantity ≠ 0) &&
        (db.after [resetTrading, clientCommand "step" (.step (some 1))]).ledger.account.map (·.equity)
          = some 104) = some true := by decide +kernel
  obtain ⟨db, hrch, htest⟩ := reached_of_map hrun
  rw [and_eq_true, decide_eq_true_iff, List.any_eq_true] at htest
  obtain ⟨⟨p, hp, hopen⟩, hequity⟩ := htest
  refine ⟨risingMinutes_prepared, db, hrch, fun hcmpl => ?_, hequity⟩
  exact of_decide_eq_true hopen (hcmpl.flat p hp)

end MarketLens.Replay
