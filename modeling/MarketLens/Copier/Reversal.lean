import MarketLens.Copier.Command

/-!
# Reversed trades

A target may take the other side of everything its source does. The order that opens
a copy, the change of a position's protection and the change of a waiting order turn
the source's terms around in three functions of their own. They mean the same
opposite trade wherever the group copies protection at all; where it does not, the
order leaves the levels out, and a change of the waiting order puts them in.
-/

namespace MarketLens.Copier

open Fallible

/-! ## The terms of a trade -/

/-- What a trade is on, besides its volume. -/
structure TradeTerms where
  side : Side
  kind : OrderKind
  /-- The price a limit or stop order waits for. -/
  price : Option Decimal
  stopLoss : Option Decimal
  takeProfit : Option Decimal

/-- The opposite trade at the same price. -/
def TradeTerms.mirrored (terms : TradeTerms) : TradeTerms where
  side := copierReverseSide terms.side
  kind := copierReverseKind terms.kind
  price := terms.price
  stopLoss := terms.takeProfit
  takeProfit := terms.stopLoss

def TradeTerms.onTarget (terms : TradeTerms) (reverseTrade : Bool) : TradeTerms :=
  if reverseTrade then terms.mirrored else terms

/-- The terms as far as the group copies them. -/
def TradeTerms.copied (terms : TradeTerms) (copyStopLossTakeProfit : Bool) : TradeTerms :=
  if copyStopLossTakeProfit then terms else { terms with stopLoss := none, takeProfit := none }

/-- From the entry, the stop loss lies where the trade loses and the take profit where it gains. -/
def TradeTerms.ProtectedAt (terms : TradeTerms) (entry : Decimal) : Prop :=
  match terms.side with
  | .buy => (∀ stop ∈ terms.stopLoss, stop < entry) ∧ ∀ target ∈ terms.takeProfit, entry < target
  | .sell => (∀ stop ∈ terms.stopLoss, entry < stop) ∧ ∀ target ∈ terms.takeProfit, target < entry

section Terms

variable (terms : TradeTerms)

@[simp] theorem copierReverseSide_twice (side : Side) : copierReverseSide (copierReverseSide side) = side := by
  cases side <;> rfl

@[simp] theorem copierReverseKind_twice (kind : OrderKind) : copierReverseKind (copierReverseKind kind) = kind := by
  cases kind <;> rfl

theorem copierReverseKind_market {kind : OrderKind} : copierReverseKind kind = .market ↔ kind = .market := by
  cases kind <;> decide

/-- The opposite of the opposite trade is the trade itself. -/
@[simp] theorem TradeTerms.mirrored_mirrored : terms.mirrored.mirrored = terms := by
  simp [TradeTerms.mirrored]

theorem TradeTerms.mirrored_copied (copyStopLossTakeProfit : Bool) :
    terms.mirrored.copied copyStopLossTakeProfit = (terms.copied copyStopLossTakeProfit).mirrored := by
  cases copyStopLossTakeProfit <;> rfl

theorem TradeTerms.copied_copied (copyStopLossTakeProfit : Bool) :
    (terms.copied copyStopLossTakeProfit).copied copyStopLossTakeProfit = terms.copied copyStopLossTakeProfit := by
  cases copyStopLossTakeProfit <;> rfl

/-- Only the levels may be left out, and they are where the group does not copy them. -/
theorem TradeTerms.copied_parts (copyStopLossTakeProfit : Bool) : (terms.copied copyStopLossTakeProfit).side = terms.side ∧
    (terms.copied copyStopLossTakeProfit).kind = terms.kind ∧ (terms.copied copyStopLossTakeProfit).price = terms.price ∧
    ((terms.copied copyStopLossTakeProfit).stopLoss = terms.stopLoss ∧
      (terms.copied copyStopLossTakeProfit).takeProfit = terms.takeProfit ↔
        copyStopLossTakeProfit = true ∨ (terms.stopLoss = none ∧ terms.takeProfit = none)) := by
  cases copyStopLossTakeProfit with
  | true => simp [TradeTerms.copied]
  | false => simp [TradeTerms.copied, eq_comm]

/-- What protects a trade protects the opposite one, crossed over. -/
theorem TradeTerms.mirrored_protectedAt (entry : Decimal) : terms.mirrored.ProtectedAt entry ↔ terms.ProtectedAt entry := by
  unfold TradeTerms.ProtectedAt TradeTerms.mirrored
  cases terms.side with
  | buy | sell => exact and_comm

theorem TradeTerms.ProtectedAt.copied {entry : Decimal} (h : terms.ProtectedAt entry) (copyStopLossTakeProfit : Bool) :
    (terms.copied copyStopLossTakeProfit).ProtectedAt entry := by
  cases copyStopLossTakeProfit with
  | true => exact h
  | false =>
    unfold TradeTerms.ProtectedAt TradeTerms.copied
    cases terms.side <;> simp

end Terms

/-! ## What the source has -/

/-- A position of the source, or an order of it that waits. -/
inductive SourceTrade where
  | position (snapshot : EaPositionSnapshot)
  | pending (order : EaPendingOrderSnapshot) (waits : order.kind ≠ .market)

def SourceTrade.terms : SourceTrade → TradeTerms
  | .position snapshot => ⟨snapshot.side, .market, none, snapshot.stopLoss, snapshot.takeProfit⟩
  | .pending order _ => ⟨order.side, order.kind, some order.price, order.stopLoss, order.takeProfit⟩

def SourceTrade.entry : SourceTrade → Decimal
  | .position snapshot => snapshot.openPrice
  | .pending order _ => order.price

def SourceTrade.canonicalSymbol : SourceTrade → String
  | .position snapshot => snapshot.canonicalSymbol
  | .pending order _ => order.canonicalSymbol

/-- The changes that have a volume of the trade copied by a new order. -/
inductive SourceTrade.PlacedBy : SourceTrade → CopyOperation → PortfolioChange → Decimal → Prop where
  | opened {position : EaPositionSnapshot} :
      PlacedBy (.position position) .openMarket (.positionOpened position) position.quantity
  | increased {previous position : EaPositionSnapshot} {delta : Decimal} :
      PlacedBy (.position position) .openMarket (.positionIncreased previous position delta) delta
  | filled {order : EaPendingOrderSnapshot} {position : EaPositionSnapshot} :
      PlacedBy (.position position) .openMarket (.pendingFilled order position) order.quantity
  | created {order : EaPendingOrderSnapshot} {waits : order.kind ≠ .market} :
      PlacedBy (.pending order waits) .placePending (.pendingCreated order) order.quantity
  | replaced {previous order : EaPendingOrderSnapshot} {waits : order.kind ≠ .market} :
      PlacedBy (.pending order waits) .placePending (.pendingReplaced previous order) order.quantity

/-- The changes that have the trade's terms copied to an order or a position that is there. -/
inductive SourceTrade.ModifiedBy : SourceTrade → PortfolioChange → Prop where
  | protectionChanged {previous position : EaPositionSnapshot} :
      ModifiedBy (.position position) (.positionProtectionChanged previous position)
  | modified {previous order : EaPendingOrderSnapshot} {waits : order.kind ≠ .market} :
      ModifiedBy (.pending order waits) (.pendingModified previous order)

/-! ## What the copier makes of it -/

section
variable (intent : OrderIntent)

/-- The terms of an order: its price is the one the field of its kind has. -/
def intentTerms : TradeTerms where
  side := intent.side
  kind := intent.kind
  price := match intent.kind with
    | .market => none
    | .limit => intent.limitPrice
    | .stop => intent.stopPrice
  stopLoss := intent.stopLoss
  takeProfit := intent.takeProfit

/-- No price stands in a field that is not of the order's kind. -/
def PricedByKind : Prop :=
  (intent.limitPrice.isSome → intent.kind = .limit) ∧ (intent.stopPrice.isSome → intent.kind = .stop)

/-- The price and the levels that a change gives to what is there already. -/
def copierModification (change : PortfolioChange) (reverseTrade : Bool) :
    Except CopierWorkError (Option Decimal × Option Decimal × Option Decimal) :=
  match change with
  | .positionProtectionChanged .. => do
    let (stopLoss, takeProfit) ← copierPositionProtection change reverseTrade
    return (none, stopLoss, takeProfit)
  | change => do
    let (price, stopLoss, takeProfit) ← copierPendingModification change reverseTrade
    return (some price, stopLoss, takeProfit)

/-- The volume of an order. -/
def intentQuantity : Decimal :=
  match intent.sizing with
  | .fixed quantity _ => quantity
  | .riskPercent _ => 0

/-- What the account that carries out an order of the trade reports. -/
def SourceTrade.carriedOut : SourceTrade → PortfolioChange
  | .position snapshot => .positionOpened { snapshot with
      side := intent.side
      quantity := intentQuantity intent
      stopLoss := intent.stopLoss
      takeProfit := intent.takeProfit }
  | .pending order _ => .pendingCreated { order with
      side := intent.side
      kind := intent.kind
      quantity := intentQuantity intent
      price := (intentTerms intent).price.getD order.price
      stopLoss := intent.stopLoss
      takeProfit := intent.takeProfit }

end

/-- What the account reports that carries out a change of the trade's price and levels. -/
def SourceTrade.changedTo (price stopLoss takeProfit : Option Decimal) : SourceTrade → PortfolioChange
  | .position snapshot => .positionProtectionChanged snapshot { snapshot with stopLoss, takeProfit }
  | .pending order _ => .pendingModified order { order with price := price.getD order.price, stopLoss, takeProfit }

section Copy

/-- What the order of a copy is made with, besides the trade. -/
structure OrderSettings where
  target : ContinuousCopyTargetConfig
  commandId : String
  idempotencyKey : String
  sourceAccountId : Option String
  copyStopLossTakeProfit : Bool

variable (settings : OrderSettings)

/-- The order of a trade on given terms. -/
def intentOn (canonicalSymbol : String) (quantity : Decimal) (terms : TradeTerms) : OrderIntent where
  commandId := settings.commandId
  idempotencyKey := settings.idempotencyKey
  sourceAccountId := settings.sourceAccountId
  canonicalSymbol
  side := terms.side
  kind := terms.kind
  sizing := .fixed quantity .lots
  limitPrice := if terms.kind = .limit then terms.price else none
  stopPrice := if terms.kind = .stop then terms.price else none
  stopLoss := terms.stopLoss
  takeProfit := terms.takeProfit

/-- The order that a target, which reverses or does not, is to place for a change. -/
def orderOf (reverseTrade : Bool) (operation : CopyOperation) (change : PortfolioChange) : Except CopierWorkError OrderIntent :=
  copierOrderIntent change { settings.target with reverseTrade } settings.commandId settings.idempotencyKey operation
    settings.sourceAccountId settings.copyStopLossTakeProfit

/-- The terms of the trade as far as they are copied. -/
def copiedTerms (trade : SourceTrade) : TradeTerms := trade.terms.copied settings.copyStopLossTakeProfit

/-- The order that opens a reversed copy, and the change of what is there, are on the same terms of the other side. -/
def Agrees (trade : SourceTrade) (operation : CopyOperation) (change modification : PortfolioChange) : Prop :=
  ∃ intent price stopLoss takeProfit, orderOf settings true operation change = .ok intent ∧
    copierModification modification true = .ok (price, stopLoss, takeProfit) ∧
    intent.side = copierReverseSide trade.terms.side ∧ PricedByKind intent ∧
    (intentTerms intent).price = price ∧ intent.stopLoss = stopLoss ∧ intent.takeProfit = takeProfit

/-- The functions that turn a trade around mean one opposite trade: turning around twice changes nothing, and what protects
the trade protects its opposite. -/
structure TurnsAround (trade : SourceTrade) (operation : CopyOperation) (change modification : PortfolioChange) : Prop where
  agrees : Agrees settings trade operation change modification
  twice : ∀ intent, orderOf settings true operation change = .ok intent →
    orderOf settings true operation (trade.carriedOut intent) = orderOf settings false operation change
  twiceModified : ∀ price stopLoss takeProfit, copierModification modification true = .ok (price, stopLoss, takeProfit) →
    copierModification (trade.changedTo price stopLoss takeProfit) true = copierModification modification false
  sides : trade.terms.ProtectedAt trade.entry → ∀ intent, orderOf settings true operation change = .ok intent →
    (intentTerms intent).ProtectedAt trade.entry
  sidesModified : trade.terms.ProtectedAt trade.entry → ∀ price stopLoss takeProfit,
    copierModification modification true = .ok (price, stopLoss, takeProfit) →
    { trade.terms.mirrored with price, stopLoss, takeProfit : TradeTerms }.ProtectedAt trade.entry

variable {trade : SourceTrade} {operation : CopyOperation} {change modification : PortfolioChange} {quantity : Decimal}

theorem orderSource_placed (h : trade.PlacedBy operation change quantity) :
    orderSource operation change = .ok ⟨trade.canonicalSymbol, trade.terms.side, trade.terms.kind, quantity, trade.terms.price,
      trade.terms.stopLoss, trade.terms.takeProfit⟩ := by
  cases h <;> rfl

/-- **The order of a copy is on the source's terms, as far as they are copied and turned around where the target reverses.** -/
theorem orderOf_placed (reverseTrade : Bool) (h : trade.PlacedBy operation change quantity) (hqty : 0 < quantity) :
    orderOf settings reverseTrade operation change = .ok (intentOn settings trade.canonicalSymbol quantity
      ((copiedTerms settings trade).onTarget reverseTrade)) := by
  unfold orderOf copiedTerms copierOrderIntent
  refine bind_ok.mpr ⟨_, orderSource_placed h, unit_bind_ok.mpr ⟨?_, ?_⟩⟩
  · rw [refuseIf_ok]
    exact decide_eq_false (not_le.mpr hqty)
  · cases settings.copyStopLossTakeProfit <;> cases reverseTrade <;> rfl

/-- **A change of what is there is on the source's terms, turned around where the target reverses.** -/
theorem copierModification_modified (h : trade.ModifiedBy modification) (reverseTrade : Bool) :
    copierModification modification reverseTrade = .ok ((trade.terms.onTarget reverseTrade).price,
      (trade.terms.onTarget reverseTrade).stopLoss, (trade.terms.onTarget reverseTrade).takeProfit) := by
  cases h <;> cases reverseTrade <;> rfl

theorem intentTerms_intentOn (canonicalSymbol : String) (terms : TradeTerms) (hpriced : terms.kind = .market → terms.price = none) :
    intentTerms (intentOn settings canonicalSymbol quantity terms) = terms ∧
      PricedByKind (intentOn settings canonicalSymbol quantity terms) := by
  obtain ⟨side, kind, price, stopLoss, takeProfit⟩ := terms
  cases kind with
  | market =>
    obtain rfl : price = none := hpriced rfl
    exact ⟨rfl, by simp [PricedByKind, intentOn]⟩
  | limit | stop => exact ⟨rfl, by simp [PricedByKind, intentOn]⟩

section PlacedBy

variable (h : trade.PlacedBy operation change quantity)
include h

/-- The order of a reversed copy, and the terms it is on. -/
theorem orderOf_reversed (hqty : 0 < quantity) : ∃ intent,
    orderOf settings true operation change = .ok intent ∧ intentTerms intent = (copiedTerms settings trade).mirrored ∧
    PricedByKind intent ∧ intentQuantity intent = quantity := by
  have hpriced : (copiedTerms settings trade).mirrored.kind = .market → (copiedTerms settings trade).mirrored.price = none := by
    obtain ⟨-, hkind, hprice, -⟩ := trade.terms.copied_parts settings.copyStopLossTakeProfit
    intro hmarket
    replace hmarket := hkind.symm.trans (copierReverseKind_market.mp hmarket)
    refine hprice.trans ?_
    cases trade with
    | position => rfl
    | pending order waits => exact absurd hmarket waits
  obtain ⟨hterms, hfields⟩ := intentTerms_intentOn settings trade.canonicalSymbol _ hpriced
  exact ⟨_, orderOf_placed _ _ h hqty, hterms, hfields, rfl⟩

/-- What is reported of an order that was carried out is a trade on the order's terms. -/
theorem carriedOut_placed {intent : OrderIntent} (hkind : (intentTerms intent).kind = copierReverseKind trade.terms.kind)
    (hprice : (intentTerms intent).price = trade.terms.price) : ∃ copy : SourceTrade,
    copy.PlacedBy operation (trade.carriedOut intent) (intentQuantity intent) ∧ copy.terms = intentTerms intent ∧
      copy.canonicalSymbol = trade.canonicalSymbol := by
  cases trade with
  | position =>
    have hterms : (⟨intent.side, .market, none, intent.stopLoss, intent.takeProfit⟩ : TradeTerms) = intentTerms intent := by
      rw [show none = (intentTerms intent).price from hprice.symm, show OrderKind.market = (intentTerms intent).kind from hkind.symm]
      rfl
    cases h <;> exact ⟨.position _, .opened, hterms, rfl⟩
  | pending order waits =>
    have hwaits : intent.kind ≠ .market := fun hmarket => waits (copierReverseKind_market.mp (hkind.symm.trans hmarket))
    have hterms : (⟨intent.side, intent.kind, some ((intentTerms intent).price.getD order.price), intent.stopLoss,
        intent.takeProfit⟩ : TradeTerms) = intentTerms intent := by
      rw [hprice]
      exact congrArg (fun price => (⟨intent.side, intent.kind, price, intent.stopLoss, intent.takeProfit⟩ : TradeTerms)) hprice.symm
    cases h <;> exact ⟨.pending _ hwaits, .created, hterms, rfl⟩

theorem orderOf_twice (hqty : 0 < quantity) {intent : OrderIntent}
    (hintent : orderOf settings true operation change = .ok intent) :
    orderOf settings true operation (trade.carriedOut intent) = orderOf settings false operation change := by
  obtain ⟨placed, hplaced, hterms, -, hvolume⟩ := orderOf_reversed settings h hqty
  obtain rfl : placed = intent := Except.ok.inj (hplaced.symm.trans hintent)
  obtain ⟨-, hkind, hprice, -⟩ := trade.terms.copied_parts settings.copyStopLossTakeProfit
  obtain ⟨copy, hcopy, hsame, hsymbol⟩ := carriedOut_placed h
    ((congrArg TradeTerms.kind hterms).trans (congrArg copierReverseKind hkind)) ((congrArg TradeTerms.price hterms).trans hprice)
  rw [hvolume] at hcopy
  rw [orderOf_placed _ _ hcopy hqty, orderOf_placed _ _ h hqty, hsymbol]
  have hcopied : copiedTerms settings copy = (copiedTerms settings trade).mirrored := by
    unfold copiedTerms
    rw [hsame, hterms, copiedTerms, TradeTerms.mirrored_copied, TradeTerms.copied_copied]
  rw [hcopied]
  exact congrArg (fun terms => Except.ok (intentOn settings trade.canonicalSymbol quantity terms)) (TradeTerms.mirrored_mirrored _)

end PlacedBy

theorem copierModification_twice (h : trade.ModifiedBy modification) {price stopLoss takeProfit : Option Decimal}
    (hmodification : copierModification modification true = .ok (price, stopLoss, takeProfit)) :
    copierModification (trade.changedTo price stopLoss takeProfit) true = copierModification modification false := by
  rw [copierModification_modified h] at hmodification
  cases hmodification
  cases h <;> rfl

theorem agrees_iff (hplaced : trade.PlacedBy operation change quantity) (hqty : 0 < quantity)
    (hmodified : trade.ModifiedBy modification) :
    Agrees settings trade operation change modification ↔
      settings.copyStopLossTakeProfit = true ∨ (trade.terms.stopLoss = none ∧ trade.terms.takeProfit = none) := by
  obtain ⟨placed, hintent, hterms, hpriced, -⟩ := orderOf_reversed settings hplaced hqty
  have hmodification := copierModification_modified hmodified true
  have hstop : placed.stopLoss = (copiedTerms settings trade).takeProfit := congrArg TradeTerms.stopLoss hterms
  have htarget : placed.takeProfit = (copiedTerms settings trade).stopLoss := congrArg TradeTerms.takeProfit hterms
  obtain ⟨hside, -, hprice, hlevels⟩ := trade.terms.copied_parts settings.copyStopLossTakeProfit
  rw [← hlevels]
  constructor
  · rintro ⟨intent, price, stopLoss, takeProfit, hintent', hmodification', -, -, -, hstop', htarget'⟩
    obtain rfl : placed = intent := Except.ok.inj (hintent.symm.trans hintent')
    cases hmodification.symm.trans hmodification'
    exact ⟨htarget.symm.trans htarget', hstop.symm.trans hstop'⟩
  · rintro ⟨hsame, hsame'⟩
    exact ⟨placed, _, _, _, hintent, hmodification, (congrArg TradeTerms.side hterms).trans (congrArg copierReverseSide hside),
      hpriced, (congrArg TradeTerms.price hterms).trans hprice, hstop.trans hsame', htarget.trans hsame⟩

/-- **The three functions turn a trade around alike exactly where the group copies protection or there is none to copy.** -/
theorem turnsAround_iff (hplaced : trade.PlacedBy operation change quantity) (hqty : 0 < quantity)
    (hmodified : trade.ModifiedBy modification) :
    TurnsAround settings trade operation change modification ↔
      settings.copyStopLossTakeProfit = true ∨ (trade.terms.stopLoss = none ∧ trade.terms.takeProfit = none) := by
  rw [← agrees_iff settings hplaced hqty hmodified]
  refine ⟨fun hturns => hturns.agrees, fun hagrees => ⟨hagrees, ?_, ?_, ?_, ?_⟩⟩
  · intro intent hintent
    exact orderOf_twice settings hplaced hqty hintent
  · intro price stopLoss takeProfit hmodification
    exact copierModification_twice hmodified hmodification
  · intro hprotected intent hintent
    obtain ⟨placed, hplaced, hterms, -, -⟩ := orderOf_reversed settings hplaced hqty
    obtain rfl : placed = intent := Except.ok.inj (hplaced.symm.trans hintent)
    rw [hterms, TradeTerms.mirrored_protectedAt]
    exact hprotected.copied _ _
  · intro hprotected price stopLoss takeProfit hmodification
    cases (copierModification_modified hmodified true).symm.trans hmodification
    exact (TradeTerms.mirrored_protectedAt trade.terms trade.entry).mpr hprotected

end Copy

/-! A sell position whose levels are both set, and a waiting order with them, in a group that copies protection or does not. -/

def reversingTarget : ContinuousCopyTargetConfig := { legacyCopyTargetConfig with reverseTrade := true }

def soldPosition : EaPositionSnapshot :=
  ⟨"31", "EURUSD", "EURUSD", .sell, 1, 11 / 10, 108 / 100, some (112 / 100), some (105 / 100), 0, 0, 0, 0, "", 900, 1000⟩

def waitingSell : EaPendingOrderSnapshot :=
  ⟨"41", "EURUSD", "EURUSD", .sell, .limit, 1, 11 / 10, some (112 / 100), some (105 / 100), 0, "", 900, 1000⟩

theorem sold_position_turned_around : TurnsAround ⟨reversingTarget, "cp:1", "cpc:1", none, true⟩ (.position soldPosition) .openMarket
    (.positionOpened soldPosition) (.positionProtectionChanged soldPosition soldPosition) :=
  (turnsAround_iff ⟨reversingTarget, "cp:1", "cpc:1", none, true⟩ .opened (by decide) .protectionChanged).mpr (.inl rfl)

/-- Its order leaves the levels out, as the group does not copy them; moving its price puts them in. -/
theorem waiting_sell_given_levels :
    CopyOperation.modifyPending ∈ copyWorkOperations (.pendingModified { waitingSell with price := 109 / 100 } waitingSell)
      { copyStopLossTakeProfit := false } ∧
    ¬ ∀ (settings : OrderSettings) (trade : SourceTrade) (operation : CopyOperation) (change modification : PortfolioChange)
      (quantity : Decimal), trade.PlacedBy operation change quantity → 0 < quantity → trade.ModifiedBy modification →
      TurnsAround settings trade operation change modification := by
  refine ⟨by decide, fun hclaim => ?_⟩
  obtain ⟨intent, price, stopLoss, takeProfit, hintent, hmodification, -, -, -, hstop, -⟩ :=
    (hclaim ⟨reversingTarget, "cp:1", "cpc:1", none, false⟩ (.pending waitingSell (by decide)) .placePending
      (.pendingCreated waitingSell) (.pendingModified { waitingSell with price := 109 / 100 } waitingSell) 1
      .created (by decide) .modified).agrees
  cases hintent
  cases hmodification
  cases hstop

end MarketLens.Copier
