import MarketLens.Copier.DiffComplete

/-!
# The ledger of a diff

Beyond reaching the right portfolio, a copier must not book volume twice. The
ledger is kept per ticket: what the changes book as filled on a position plus
what they book as opened or increased is the position's increase, and a vanished
pending order is settled once. Both are sums over the four walks in which only
one ticket's entry contributes.
-/

namespace MarketLens.Copier

open List KeyedMap PortfolioPair

open Std (TreeMap)

namespace PortfolioPair

variable {pair : PortfolioPair} {evidence : TreeMap String String compare}

/-! ## Fills -/

variable {id : String}

theorem filledOn_of_pendingTicket {change : PortfolioChange} (h : change.pendingTicket = none) : filledOn id change = 0 := by
  cases change with
  | pendingFilled => exact absurd h (Option.some_ne_none _)
  | _ => rfl

theorem settles_of_pendingTicket {change : PortfolioChange} (h : change.pendingTicket = none) : settles id change = false := by
  refine settles_other ?_
  rw [h]
  exact Option.some_ne_none id ∘ Eq.symm

variable {current : EaPositionSnapshot}

theorem filledOn_vanishedChange {C : PositionMap} {N : PendingMap} (hC : PositionKeyed C) (hcurr : C[id]? = some current)
    (entry : String × EaPendingOrderSnapshot) :
    ((vanishedChange C N evidence entry).map (filledOn id)).sum = attributedVolume N evidence id entry := by
  by_cases hhere : N.contains entry.1 = false ∧ evidence[entry.1]? = some id
  · have hfill : creditedPosition C evidence entry.1 = some current :=
      creditedPosition_eq_some.mpr ⟨id, hhere.2, hcurr⟩
    rw [attributedVolume, if_pos hhere]
    simp only [vanishedChange, hhere.1, Bool.false_eq_true, if_false, hfill, map_cons,
      map_nil, sum_cons, sum_nil, filledOn, hC id current hcurr, if_true,
      add_zero]
  · rw [attributedVolume, if_neg hhere]
    refine sum_eq_zero fun volume hvol => ?_
    obtain ⟨change, hchg, rfl⟩ := mem_map.mp hvol
    exact filledOn_other (vanishedChange_other hC (fun h => hhere ⟨h.1, h.2.1⟩) change hchg)

theorem sum_map_flatMap {α β : Type} (entries : List α) (emit : α → List β) (book : β → Decimal) :
    ((entries.flatMap emit).map book).sum = (entries.map fun e => ((emit e).map book).sum).sum := by
  induction entries with
  | nil => rfl
  | cons e rest ih =>
    rw [flatMap_cons, map_append, sum_append, ih, map_cons, sum_cons]

/-- Segments that never book anything sum to nothing. -/
theorem sum_map_zero {α : Type} {items : List α} {book : α → Decimal}
    (h : ∀ item ∈ items, book item = 0) : (items.map book).sum = 0 := by
  refine sum_eq_zero fun volume hvol => ?_
  obtain ⟨item, hitem, rfl⟩ := mem_map.mp hvol
  exact h item hitem

theorem sum_flatMap_zero {α β : Type} {entries : List α} {emit : α → List β} {book : β → Decimal}
    (h : ∀ e ∈ entries, ∀ item ∈ emit e, book item = 0) :
    ((entries.flatMap emit).map book).sum = 0 := by
  refine sum_map_zero fun item hitem => ?_
  obtain ⟨e, he, hin⟩ := mem_flatMap.mp hitem
  exact h e he item hin

section Sums

variable (hfits : pair.EvidenceFits evidence) (hcurr : (positionMap pair.currentPositions)[id]? = some current)
include hfits hcurr

theorem filled_sum : ((pair.diff evidence).map (filledOn id)).sum = pair.attributedTotal evidence id := by
  have hpend : ∀ entry ∈ (pendingMap pair.currentPending).toList,
      ∀ change ∈ pendingChanges (pendingMap pair.previousPending) entry, filledOn id change = 0 := by
    intro entry _ change hent
    refine filledOn_other ?_
    rw [(pendingChanges_tickets hent).2.1]
    exact Option.some_ne_none id ∘ Eq.symm
  have hsttl : ∀ entry ∈ (positionMap pair.previousPositions).toList, ∀ change ∈ positionChanges
      (pair.unmatched evidence) (positionMap pair.currentPositions) entry, filledOn id change = 0 :=
    fun entry hmem change hent => filledOn_of_pendingTicket
      (positionChanges_tickets (positionMap_keyed pair.previousPositions_nodup)
        (positionMap_keyed pair.currentPositions_nodup) hmem hent).2
  rw [diff_shape hfits, map_append, map_append, map_append, sum_append, sum_append, sum_append,
    sum_flatMap_zero fun _ _ _ hent => filledOn_of_pendingTicket (openedChanges_tickets hent).2,
    sum_flatMap_zero hsttl, sum_flatMap_zero hpend, add_zero, add_zero, add_zero,
    sum_map_flatMap, attributedTotal, ← attributedVolume_sum]
  refine congrArg sum (map_congr_left fun entry _ => ?_)
  exact filledOn_vanishedChange (positionMap_keyed pair.currentPositions_nodup) hcurr entry

/-! ## Growth -/

theorem grownOn_openedChanges :
    ((openedChanges (pair.unmatched evidence) (positionMap pair.previousPositions)
      (id, current)).map (grownOn id)).sum
      = if (positionMap pair.previousPositions).contains id = true then 0
        else pair.increase current - pair.attributedTotal evidence id := by
  obtain ⟨_, hid⟩ := mem_currentPositions hcurr
  obtain ⟨hunm, _, hle⟩ := unmatched_getD hfits hcurr
  cases hold : (positionMap pair.previousPositions).contains id with
  | true => simp only [openedChanges, hold, if_true, map_nil, sum_nil]
  | false =>
    simp only [openedChanges, hold, hunm, Bool.false_eq_true, if_false]
    by_cases hfull : pair.increase current - pair.attributedTotal evidence id ≤ 0
    · rw [if_pos hfull, map_nil, sum_nil]
      linarith
    · simp only [hfull, if_false, map_cons, map_nil, sum_cons, sum_nil, grownOn, hid, if_true, add_zero]

theorem grownOn_positionChanges {previous : EaPositionSnapshot}
    (hprev : (positionMap pair.previousPositions)[id]? = some previous) :
    ((positionChanges (pair.unmatched evidence) (positionMap pair.currentPositions) (id, previous)).map (grownOn id)).sum
      = pair.increase current - pair.attributedTotal evidence id := by
  obtain ⟨_, hid⟩ := mem_currentPositions hcurr
  obtain ⟨hunm, hnonneg, hle⟩ := unmatched_getD hfits hcurr
  have hincrease := increase_kept hprev hcurr
  have hprotection :
      ((if current.stopLoss ≠ previous.stopLoss ∨ current.takeProfit ≠ previous.takeProfit then
        [PortfolioChange.positionProtectionChanged previous current] else []).map (grownOn id)).sum = 0 := by
    split <;> simp [grownOn]
  simp only [positionChanges, hcurr, hunm]
  rw [map_append, sum_append, hprotection, add_zero]
  by_cases hgrown : current.quantity > previous.quantity ∧ pair.increase current - pair.attributedTotal evidence id > 0
  · rw [if_pos hgrown, map_cons, map_nil, sum_cons, sum_nil, grownOn, if_pos hid, add_zero]
  · have hnone : pair.increase current - pair.attributedTotal evidence id = 0 := by
      by_cases hgt : current.quantity > previous.quantity
      · exact le_antisymm (not_lt.mp fun h => hgrown ⟨hgt, h⟩) (by linarith)
      · rw [hincrease, max_eq_left (by linarith)] at hle ⊢
        linarith
    rw [if_neg hgrown, hnone]
    split <;> simp [grownOn]

/-- What the changes of an entity add up to is what it grew by and no fill explains. -/
theorem grown_sum : ((pair.diff evidence).map (grownOn id)).sum = pair.increase current - pair.attributedTotal evidence id := by
  have hC := positionMap_keyed pair.currentPositions_nodup
  have hvanished : ∀ entry ∈ (pendingMap pair.previousPending).toList, ∀ change ∈ vanishedChange
      (positionMap pair.currentPositions) (pendingMap pair.currentPending) evidence entry,
      grownOn id change = 0 := by
    intro entry _ change hent
    have htkt := (vanishedChange_tickets hent).2.1
    cases change with
    | positionOpened | positionIncreased => exact absurd htkt.symm (Option.some_ne_none _)
    | _ => rfl
  have hpend : ∀ entry ∈ (pendingMap pair.currentPending).toList,
      ∀ change ∈ pendingChanges (pendingMap pair.previousPending) entry, grownOn id change = 0 := by
    intro entry _ change hent
    refine grownOn_other ?_
    rw [(pendingChanges_tickets hent).2.1]
    exact Option.some_ne_none id ∘ Eq.symm
  have hopened : (((positionMap pair.currentPositions).toList.flatMap
      (openedChanges (pair.unmatched evidence) (positionMap pair.previousPositions))).map (grownOn id)).sum
      = if (positionMap pair.previousPositions).contains id = true then 0
        else pair.increase current - pair.attributedTotal evidence id := by
    rw [sum_map_flatMap, sum_toList_local _ id, hcurr, Option.map_some, Option.getD_some, grownOn_openedChanges hfits hcurr]
    intro e he hne
    refine sum_map_zero fun change hchg => grownOn_other ?_
    rw [(openedChanges_tickets hchg).1, hC e.1 e.2 (TreeMap.mem_toList_iff_getElem?_eq_some.mp he)]
    exact fun h => hne (Option.some.inj h)
  have hsttl : (((positionMap pair.previousPositions).toList.flatMap
      (positionChanges (pair.unmatched evidence) (positionMap pair.currentPositions))).map (grownOn id)).sum
      = if (positionMap pair.previousPositions).contains id = true then
          pair.increase current - pair.attributedTotal evidence id else 0 := by
    rw [sum_map_flatMap, sum_toList_local _ id, TreeMap.contains_eq_isSome_getElem?]
    · cases hprev : (positionMap pair.previousPositions)[id]? with
      | none => rfl
      | some => exact grownOn_positionChanges hfits hcurr hprev
    · intro e he hne
      refine sum_map_zero fun change hchg => grownOn_other ?_
      rw [(positionChanges_tickets (positionMap_keyed pair.previousPositions_nodup) hC he hchg).1]
      exact fun h => hne (Option.some.inj h)
  -- fills and pending orders add nothing; the position is in one of the two walks
  rw [diff_shape hfits, map_append, map_append, map_append, sum_append,
    sum_append, sum_append, sum_flatMap_zero hvanished, hopened, hsttl, sum_flatMap_zero hpend]
  split <;> ring

end Sums

/-! ## Settlement of vanished orders -/

theorem countP_flatMap_zero {α β : Type} {entries : List α} {emit : α → List β} {p : β → Bool}
    (h : ∀ e ∈ entries, ∀ item ∈ emit e, p item = false) : (entries.flatMap emit).countP p = 0 := by
  rw [countP_eq_zero]
  intro item hitem
  obtain ⟨e, he, hin⟩ := mem_flatMap.mp hitem
  rw [h e he item hin]
  exact Bool.false_ne_true

/-- **A vanished order is settled by exactly one change.** -/
theorem settled_once (hfits : pair.EvidenceFits evidence) {order : EaPendingOrderSnapshot} (hvanished : pair.Vanished order) :
    (pair.diff evidence).countP (settles order.brokerOrderId) = 1 := by
  obtain ⟨hmem, habse⟩ := hvanished
  have hO := pendingMap_keyed pair.previousPending_nodup
  have hprev : (pendingMap pair.previousPending)[order.brokerOrderId]? = some order :=
    (getElem?_index pair.previousPending_nodup).mpr ⟨hmem, rfl⟩
  have hgone : (pendingMap pair.currentPending).contains order.brokerOrderId = false := by
    rw [contains_currentPending]
    simpa using habse
  have hsttl : ∀ entry ∈ (positionMap pair.previousPositions).toList, ∀ change ∈ positionChanges
      (pair.unmatched evidence) (positionMap pair.currentPositions) entry,
      settles order.brokerOrderId change = false :=
    fun entry hent change hin => settles_of_pendingTicket
      (positionChanges_tickets (positionMap_keyed pair.previousPositions_nodup)
        (positionMap_keyed pair.currentPositions_nodup) hent hin).2
  rw [diff_shape hfits, countP_append, countP_append, countP_append,
    countP_flatMap_zero fun _ _ _ hent => settles_of_pendingTicket (openedChanges_tickets hent).2,
    countP_flatMap_zero hsttl,
    countP_flatMap_zero fun _ _ _ hent => (pendingChanges_tickets hent).2.2 order.brokerOrderId, countP_flatMap,
    sum_toList_local _ order.brokerOrderId, hprev, Option.map_some, Option.getD_some]
  · simp only [Function.comp_apply, vanishedChange, hgone, Bool.false_eq_true, if_false]
    cases creditedPosition (positionMap pair.currentPositions) evidence order.brokerOrderId with
    | none | some => simp [settles]
  · intro e he hne
    rw [Function.comp_apply, countP_eq_zero]
    intro change hchg
    have hoth : settles order.brokerOrderId change = false := by
      refine settles_other ?_
      rw [(vanishedChange_tickets hchg).2.1, hO e.1 e.2 (TreeMap.mem_toList_iff_getElem?_eq_some.mp he)]
      exact fun h => hne (Option.some.inj h)
    rw [hoth]
    exact Bool.false_ne_true

/-! ## The empty diff -/

/-- A ticket the two portfolios agree on is in both of them, in one state. -/
theorem agree_position (hagr : pair.previous = pair.current) (id : String) :
    (positionMap pair.previousPositions)[id]?.map positionState = (positionMap pair.currentPositions)[id]?.map positionState := by
  rw [← previous_position, ← current_position, hagr]

theorem agree_pending (hagr : pair.previous = pair.current) (id : String) :
    (pendingMap pair.previousPending)[id]?.map pendingState = (pendingMap pair.currentPending)[id]?.map pendingState := by
  rw [← previous_pending, ← current_pending, hagr]

theorem diff_nil_of_agree (hfits : pair.EvidenceFits evidence)
    (hagr : pair.previous = pair.current) : pair.diff evidence = [] := by
  rw [diff_shape hfits]
  simp only [append_eq_nil_iff, flatMap_eq_nil_iff]
  refine ⟨⟨⟨?_, ?_⟩, ?_⟩, ?_⟩
  · intro e he
    have hprev := TreeMap.mem_toList_iff_getElem?_eq_some.mp he
    have hstill := agree_pending hagr e.1
    rw [hprev, Option.map_some, eq_comm, Option.map_eq_some_iff] at hstill
    obtain ⟨order, hord, _⟩ := hstill
    have hkept : (pendingMap pair.currentPending).contains e.1 = true := by
      rw [TreeMap.contains_eq_isSome_getElem?, hord]
      rfl
    rw [vanishedChange, if_pos hkept]
  · intro e he
    have hcur := TreeMap.mem_toList_iff_getElem?_eq_some.mp he
    have hbef := agree_position hagr e.1
    rw [hcur, Option.map_some, Option.map_eq_some_iff] at hbef
    obtain ⟨previous, hprv, _⟩ := hbef
    have hold : (positionMap pair.previousPositions).contains e.1 = true := by
      rw [TreeMap.contains_eq_isSome_getElem?, hprv]
      rfl
    simp only [openedChanges, hold, if_true]
  · intro e he
    have hprev := TreeMap.mem_toList_iff_getElem?_eq_some.mp he
    have haft := agree_position hagr e.1
    rw [hprev, Option.map_some, eq_comm, Option.map_eq_some_iff] at haft
    obtain ⟨current, hcurr, hst⟩ := haft
    simp only [positionState, PositionState.mk.injEq] at hst
    obtain ⟨hqnt, hstop, htake⟩ := hst
    simp only [positionChanges, hcurr, hqnt, hstop, htake, gt_iff_lt, lt_irrefl, false_and,
      if_false, ne_eq, not_true_eq_false, or_self, append_nil]
  · intro e he
    have hcur := TreeMap.mem_toList_iff_getElem?_eq_some.mp he
    have hbef := agree_pending hagr e.1
    rw [hcur, Option.map_some, Option.map_eq_some_iff] at hbef
    obtain ⟨previous, hprv, hst⟩ := hbef
    simp only [pendingState, PendingState.mk.injEq] at hst
    obtain ⟨hkind, hqnt, hprc, hstop, htake⟩ := hst
    simp only [pendingChanges, hprv, hkind, hqnt, hprc, hstop, htake, ne_eq, not_true_eq_false, or_self, if_false]

/-- **The diff is empty exactly when the portfolios agree.** -/
theorem diff_nil_iff (hfits : pair.EvidenceFits evidence) : pair.diff evidence = [] ↔ pair.previous = pair.current := by
  refine ⟨fun hnil => ?_, diff_nil_of_agree hfits⟩
  have h := apply_diff hfits
  rwa [hnil] at h

end PortfolioPair

/--
**`diffPortfolio` is a complete diff that counts nothing twice.**

For fill evidence that fits the snapshots: the changes turn the previous
portfolio into the current one, fills and growth of a position add up to its
increase, a vanished order is settled exactly once, and there is nothing to do
exactly when the portfolios agree.
-/
theorem diffPortfolio_complete (pair : PortfolioPair) (evidence : TreeMap String String compare)
    (hfits : pair.EvidenceFits evidence) :
    applyChanges (pair.diff evidence) pair.previous = pair.current
      ∧ (∀ position ∈ pair.currentPositions,
          ((pair.diff evidence).map (filledOn position.brokerPositionId)).sum
            + ((pair.diff evidence).map (grownOn position.brokerPositionId)).sum
          = pair.increase position)
      ∧ (∀ order, pair.Vanished order → (pair.diff evidence).countP (settles order.brokerOrderId) = 1)
      ∧ (pair.diff evidence = [] ↔ pair.previous = pair.current) := by
  refine ⟨apply_diff hfits, ?_, fun order h => settled_once hfits h, diff_nil_iff hfits⟩
  intro position hposn
  have hcurr : (positionMap pair.currentPositions)[position.brokerPositionId]? = some position :=
    (getElem?_index pair.currentPositions_nodup).mpr ⟨hposn, rfl⟩
  rw [filled_sum hfits hcurr, grown_sum hfits hcurr]
  ring

def eurusdPosition (id : String) (quantity : Decimal) (stopLoss : Option Decimal) :
    EaPositionSnapshot where
  brokerPositionId := id
  canonicalSymbol := "EURUSD"
  venueSymbol := "EURUSD"
  side := .buy
  quantity := quantity
  openPrice := 1.10
  currentPrice := 1.11
  stopLoss := stopLoss
  takeProfit := none
  profit := 0
  swap := 0
  commission := 0
  magic := 42
  comment := "manual"
  openedAtMs := 2000
  observedAtMs := 3000

/-- A EURUSD buy limit. -/
def eurusdPending (id : String) (quantity : Decimal) : EaPendingOrderSnapshot where
  brokerOrderId := id
  canonicalSymbol := "EURUSD"
  venueSymbol := "EURUSD"
  side := .buy
  kind := .limit
  quantity := quantity
  price := 1.09
  stopLoss := none
  takeProfit := none
  magic := 42
  comment := "manual"
  createdAtMs := 1000
  observedAtMs := 2000

/-- A netting account: orders 11 and 12 are filled into position 1, order 13 is cancelled,
position 1 also grows by hand and position 2 is opened. -/
def nettingPair : PortfolioPair where
  previousPositions := [eurusdPosition "1" 0.50 none]
  previousPending := [eurusdPending "11" 0.25, eurusdPending "12" 0.10, eurusdPending "13" 0.30]
  currentPositions := [eurusdPosition "1" 0.90 (some 1.05), eurusdPosition "2" 0.20 none]
  currentPending := [eurusdPending "14" 0.15]
  previousPositions_nodup := by decide
  previousPending_nodup := by decide
  currentPositions_nodup := by decide
  currentPending_nodup := by decide

def nettingEvidence : TreeMap String String compare :=
  TreeMap.ofList [("11", "1"), ("12", "1")]

theorem nettingPair_complete : nettingPair.EvidenceFits nettingEvidence
      ∧ applyChanges (nettingPair.diff nettingEvidence) nettingPair.previous = nettingPair.current := by
  have hfits : nettingPair.EvidenceFits nettingEvidence :=
    ⟨by decide +kernel, by decide +kernel, by decide +kernel⟩
  exact ⟨hfits, (diffPortfolio_complete nettingPair nettingEvidence hfits).1⟩

end MarketLens.Copier
