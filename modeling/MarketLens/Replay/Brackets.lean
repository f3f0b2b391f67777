import MarketLens.Replay.Causality

/-!
# Whose brackets an update moves

`update_order` names an order and finds the position of its track. The bracket of a working
order is checked against that position as soon as it is open, and written into it.
-/

namespace MarketLens.Replay

open Fallible Table Runs

/-! ## The order's own -/

/-- The price an order waits for: what `place` measures its bracket against. -/
def OrderRow.waitsFor (order : OrderRow) : Option Decimal :=
  match order.orderType with
  | .market => none
  | .limit | .stopLimit => order.limitPrice
  | .stop => order.stopPrice

/-- A bracket is on the right sides of an entry, where there is one. -/
def fits (side : Side) (entry : Option Decimal) (stopLoss takeProfit : Option Decimal) : Bool :=
  entry.all fun entry => validBracket side entry stopLoss takeProfit

/-- The prices of a bracket are positive. -/
def positive (stopLoss takeProfit : Option Decimal) : Bool := stopLoss.all validPrice && takeProfit.all validPrice

/-! ## The fills a position is made of -/

/-- A track's net quantity, and the fills that brought the open position to it. -/
structure Holding where
  net : Int
  joined : List FillRow

/-- A fill opens a position, joins it, takes of it, ends it or turns it round. -/
def Holding.after (holding : Holding) (side : Side) (fill : FillRow) : Holding :=
  let signed := side.signed fill.quantity
  let next := holding.net + signed
  if holding.net = 0 || sameSign holding.net signed then ⟨next, holding.joined ++ [fill]⟩
  else if next = 0 then ⟨0, []⟩
  else if sameSign holding.net next then ⟨next, holding.joined⟩
  else ⟨next, [fill]⟩

namespace Ledger

variable (ledger : Ledger)

def sideOf (fill : FillRow) : Side := ((ledger.orders.find? fun order => order.id = fill.orderId).map (·.side)).getD .buy

def holding (trackId : Uuid) : Holding :=
  (ledger.fills.filter fun fill => fill.trackId = trackId).foldl (fun holding fill => holding.after (ledger.sideOf fill) fill)
    ⟨0, []⟩

/-- The order was filled into the position that is open on its track. -/
def FilledInto (order : OrderRow) : Prop := ∃ fill ∈ (ledger.holding order.trackId).joined, fill.orderId = order.id

instance (order : OrderRow) : Decidable (ledger.FilledInto order) :=
  inferInstanceAs (Decidable (∃ fill ∈ (ledger.holding order.trackId).joined, fill.orderId = order.id))

/-! ## What an update does -/

def accepts (order : OrderRow) (stopLoss takeProfit : Option Decimal) : Bool :=
  positive stopLoss takeProfit &&
    fits (ledger.bracketReference order).1 (ledger.bracketReference order).2 stopLoss takeProfit &&
      order.status ≠ .cancelled

/-- The ledger an accepted update leaves. -/
def bracketed (order : OrderRow) (stopLoss takeProfit : Option Decimal) : Ledger :=
  { ledger with
    orders := updateWhere (fun row => row.id = order.id) (fun row => { row with stopLoss, takeProfit }) ledger.orders
    positions := updateWhere (fun p => p.trackId = order.trackId && p.netQuantity ≠ 0)
      (fun p => { p with stopLoss, takeProfit }) ledger.positions }

def named (body : UpdateBody) : Option OrderRow := body.orderId.bind fun id => ledger.orders.find? fun order => order.id = id

variable {ledger} {order : OrderRow} {body : UpdateBody} {drafts : List EventDraft} {after : Ledger}

theorem updateBracket_ok_iff (hord : ledger.named body = some order) :
    ledger.updateBracket (some body) = .ok (drafts, after) ↔ ledger.accepts order body.stopLoss body.takeProfit = true ∧
        drafts = [.orderUpdated order.id body.stopLoss body.takeProfit] ∧
        after = ledger.bracketed order body.stopLoss body.takeProfit := by
  obtain ⟨id, hid, hfind⟩ := Option.bind_eq_some_iff.mp hord
  have hsame : order.id = id := by simpa using List.find?_some hfind
  have hchecks : ledger.accepts order body.stopLoss body.takeProfit = true ↔
      (!(body.stopLoss.all validPrice && body.takeProfit.all validPrice)) = false ∧
        ((ledger.bracketReference order).2.any fun entry =>
          !validBracket (ledger.bracketReference order).1 entry body.stopLoss body.takeProfit) = false ∧
        decide (order.status = .cancelled) = false := by
    unfold accepts positive fits
    cases (ledger.bracketReference order).2 <;> simp [and_assoc]
  unfold updateBracket bracketed
  rw [hchecks, bind_ok]
  constructor
  · rintro ⟨found, hfnd, h⟩
    cases (require_ok.mp hfnd)
    obtain ⟨orderId, horderId, h⟩ := bind_ok.mp h
    cases (require_ok.mp horderId).symm.trans hid
    rw [unit_bind_ok, refuseIf_ok, bind_ok] at h
    obtain ⟨hprices, row, hrow, h⟩ := h
    cases (require_ok.mp hrow).symm.trans hfind
    rw [unit_bind_ok, unit_bind_ok, refuseIf_ok, refuseIf_ok] at h
    obtain ⟨hfits, hlive, h⟩ := h
    cases h
    exact ⟨⟨hprices, hfits, hlive⟩, by rw [hsame], by rw [hsame]⟩
  · rintro ⟨⟨hprices, hfits, hlive⟩, rfl, rfl⟩
    refine ⟨body, rfl, ?_⟩
    rw [bind_ok]
    refine ⟨id, require_ok.mpr hid, ?_⟩
    rw [unit_bind_ok, refuseIf_ok, bind_ok]
    refine ⟨hprices, order, require_ok.mpr hfind, ?_⟩
    rw [unit_bind_ok, unit_bind_ok, refuseIf_ok, refuseIf_ok]
    refine ⟨hfits, hlive, ?_⟩
    rw [hsame]
    rfl

def KeepsBracket (ledger : Ledger) (order : OrderRow) (before now : PositionRow) : Prop :=
  before.netQuantity ≠ 0 → (now.stopLoss = before.stopLoss ∧ now.takeProfit = before.takeProfit) ∨
    (before.trackId = order.trackId ∧ ledger.FilledInto order)

/-- An update touches what it names: that of a working order is checked against the order's own side and price, and
no open position gets another bracket that the order was not filled into. -/
structure TouchesOwn (ledger : Ledger) (body : UpdateBody) (order : OrderRow) : Prop where
  checked : order.status.active = true →
    ((∃ drafts after, ledger.updateBracket (some body) = .ok (drafts, after)) ↔
      positive body.stopLoss body.takeProfit = true ∧
        fits order.side order.waitsFor body.stopLoss body.takeProfit = true)
  positions : ∀ drafts after, ledger.updateBracket (some body) = .ok (drafts, after) →
    List.Forall₂ (ledger.KeepsBracket order) ledger.positions after.positions

/-- When an update touches what it names: the position it looks at finds the bracket of a working order right if the
order does, and an open position of the track is one the order was filled into, or has the bracket already, unless
the update is refused. -/
structure BracketsAgree (ledger : Ledger) (body : UpdateBody) (order : OrderRow) : Prop where
  checks : order.status.active = true → positive body.stopLoss body.takeProfit = true →
    fits (ledger.bracketReference order).1 (ledger.bracketReference order).2 body.stopLoss body.takeProfit =
      fits order.side order.waitsFor body.stopLoss body.takeProfit
  positions : ∀ p ∈ ledger.positions, p.trackId = order.trackId → p.netQuantity ≠ 0 →
    ledger.FilledInto order ∨ (body.stopLoss = p.stopLoss ∧ body.takeProfit = p.takeProfit) ∨
      ledger.accepts order body.stopLoss body.takeProfit = false

theorem accepts_of_active (hactv : order.status.active = true) (stopLoss takeProfit : Option Decimal) :
    ledger.accepts order stopLoss takeProfit = true ↔ positive stopLoss takeProfit = true ∧
      fits (ledger.bracketReference order).1 (ledger.bracketReference order).2 stopLoss takeProfit = true := by
  have hlive : order.status ≠ .cancelled := by
    intro hcancelled
    rw [hcancelled] at hactv
    cases hactv
  unfold accepts
  simp [hlive]

theorem touchesOwn_iff (hord : ledger.named body = some order) :
    ledger.TouchesOwn body order ↔ ledger.BracketsAgree body order := by
  have hgoes : (∃ drafts after, ledger.updateBracket (some body) = .ok (drafts, after)) ↔
      ledger.accepts order body.stopLoss body.takeProfit = true := by
    constructor
    · rintro ⟨drafts, after, h⟩
      exact ((updateBracket_ok_iff hord).mp h).1
    · intro h
      exact ⟨_, _, (updateBracket_ok_iff hord).mpr ⟨h, rfl, rfl⟩⟩
  constructor
  · intro h
    constructor
    · intro hactv hpos
      have hchecked := h.checked hactv
      rw [hgoes, accepts_of_active hactv] at hchecked
      rw [Bool.eq_iff_iff]
      exact ⟨fun hfits => (hchecked.mp ⟨hpos, hfits⟩).2, fun hfits => (hchecked.mpr ⟨hpos, hfits⟩).2⟩
    · intro p hp htrk hopen
      cases haccs : ledger.accepts order body.stopLoss body.takeProfit with
      | false => exact .inr (.inr rfl)
      | true =>
        have hkept := h.positions _ _ ((updateBracket_ok_iff hord).mpr ⟨haccs, rfl, rfl⟩)
        unfold bracketed updateWhere at hkept
        rw [List.forall₂_map_right_iff, List.forall₂_same] at hkept
        have hhit : (decide (p.trackId = order.trackId) && decide (p.netQuantity ≠ 0)) = true := by
          simp [htrk, hopen]
        rcases hkept p hp hopen with hsame | ⟨-, hfld⟩
        · rw [if_pos hhit] at hsame
          exact .inr (.inl hsame)
        · exact .inl hfld
  · intro h
    constructor
    · intro hactv
      rw [hgoes, accepts_of_active hactv]
      constructor
      · rintro ⟨hpos, hfits⟩
        exact ⟨hpos, (h.checks hactv hpos).symm.trans hfits⟩
      · rintro ⟨hpos, hfits⟩
        exact ⟨hpos, (h.checks hactv hpos).trans hfits⟩
    · intro drafts after hgone
      obtain ⟨haccs, -, rfl⟩ := (updateBracket_ok_iff hord).mp hgone
      unfold bracketed updateWhere
      rw [List.forall₂_map_right_iff, List.forall₂_same]
      intro p hp hopen
      by_cases hhit : (decide (p.trackId = order.trackId) && decide (p.netQuantity ≠ 0)) = true
      · rw [if_pos hhit]
        have htrk : p.trackId = order.trackId := by simpa [hopen] using hhit
        rcases h.positions p hp htrk hopen with hfld | hsame | hrefd
        · exact .inr ⟨htrk, hfld⟩
        · exact .inl hsame
        · cases haccs.symm.trans hrefd
      · rw [if_neg hhit]
        exact .inl ⟨rfl, rfl⟩

/-- **An update touches what it names exactly when the position of the track has nothing else to say**: on any ledger
and for any update of an order that is there. -/
theorem update_own_iff (ledger : Ledger) (body : UpdateBody) :
    (∀ order, ledger.named body = some order → ledger.TouchesOwn body order) ↔
      ∀ order, ledger.named body = some order → ledger.BracketsAgree body order := by
  constructor
  · intro h order hord
    exact (touchesOwn_iff hord).mp (h order hord)
  · intro h order hord
    exact (touchesOwn_iff hord).mpr (h order hord)

end Ledger

/-! ## A working order beside a position -/

/-- A request to buy one unit now, with a stop at one. -/
def buyStopped : CommandInput :=
  clientCommand "buy" (.placeOrder (some ⟨"buy-1", none, "buy", "market", 1, none, none, none, some 1⟩))

/-- A request to sell one unit at a limit of four. -/
def sellAtFour : CommandInput :=
  clientCommand "sell" (.placeOrder (some ⟨"sell-1", none, "sell", "limit", 1, some 4, none, none, none⟩))

/-- The waiting order gets a target, and the position loses its stop for it. -/
theorem working_order_moves_stop : ¬ ∀ start db, Prepared start → Reaches Database.command always start db →
    ∀ body order, db.ledger.named body = some order → db.ledger.TouchesOwn body order := by
  intro h
  have hrun : ((exec Database.command (fun _ _ => true) (tradedMinutes 3 3 3) [buyStopped, sellAtFour]).map fun db =>
      db.ledger.orders.any fun order =>
        decide (db.ledger.named ⟨some order.id, none, some (7 / 2)⟩ = some order) && order.status.active &&
          db.ledger.accepts order none (some (7 / 2)) && !decide (db.ledger.FilledInto order) &&
          db.ledger.positions.any fun p => p.trackId = order.trackId && p.netQuantity ≠ 0 && p.stopLoss = some 1) =
      some true := by
    decide +kernel
  obtain ⟨db, hrch, htest⟩ := reached_of_map hrun
  obtain ⟨order, -, htest⟩ := List.any_eq_true.mp htest
  simp only [Bool.and_eq_true, decide_eq_true_eq, Bool.not_eq_true', decide_eq_false_iff_not, List.any_eq_true] at htest
  obtain ⟨⟨⟨⟨hnamed, -⟩, haccs⟩, hfld⟩, p, hp, ⟨htrk, hopen⟩, hstop⟩ := htest
  have hown := (Ledger.touchesOwn_iff hnamed).mp (h _ db (tradedMinutes_prepared 3 3 3) hrch _ _ hnamed)
  rcases hown.positions p hp htrk hopen with hjoined | ⟨hsame, -⟩ | hrefd
  · exact hfld hjoined
  · cases hsame.trans hstop
  · cases haccs.symm.trans hrefd

end MarketLens.Replay
