import MarketLens.Copier.DiffProof

/-!
# Applying the diff yields the reported portfolio

The main results about `diffPortfolio`, for a pair of portfolios with distinct
tickets and fill evidence that fits the snapshots (`EvidenceFits`):

* applying the diff to the previous portfolio gives the current one;
* on every position, fills and growth add up to its increase exactly;
* every vanished pending order is settled by exactly one change;
* the diff is empty exactly when the portfolios agree.
-/

namespace MarketLens.Copier

open List KeyedMap

open Std (TreeMap)

namespace PortfolioPair

variable {pair : PortfolioPair} {evidence : TreeMap String String compare}

/-! ## The four segments -/

/-- The volume attributed to a ticket. -/
def attributedTotal (pair : PortfolioPair) (evidence : TreeMap String String compare)
    (id : String) : Decimal :=
  ((pair.attributed evidence id).map (·.quantity)).sum

variable {id : String} {current : EaPositionSnapshot}

section Current

variable (h : (positionMap pair.currentPositions)[id]? = some current)
include h

theorem mem_currentPositions : current ∈ pair.currentPositions ∧ current.brokerPositionId = id :=
  (getElem?_index pair.currentPositions_nodup).mp h

theorem increase_eq : pair.increase current = max 0 (current.quantity
      - previousQuantity (positionMap pair.previousPositions) id) := by
  rw [increase, (mem_currentPositions h).2, previous_position, previousQuantity, Option.map_map]
  rfl

theorem positionIncreases_getD :
    (positionIncreases (positionMap pair.previousPositions)
      (positionMap pair.currentPositions))[id]?.getD 0 = pair.increase current := by
  rw [increase_eq h, positionIncreases, TreeMap.getElem?_filterMap', h, Option.bind_some]
  dsimp only
  split
  · rename_i hpos
    exact (max_eq_right (le_of_lt hpos)).symm
  · rename_i hpos
    exact (max_eq_left (le_of_not_gt hpos)).symm

end Current

theorem attributedPositive (hfits : pair.EvidenceFits evidence) :
    AttributedPositive (positionMap pair.currentPositions) (pendingMap pair.currentPending)
      evidence (pendingMap pair.previousPending).toList := by
  intro e he id hev hgone hcntn
  obtain ⟨current, hcurr⟩ : ∃ current, (positionMap pair.currentPositions)[id]? = some current := by
    rw [TreeMap.contains_eq_isSome_getElem?] at hcntn
    exact Option.isSome_iff_exists.mp hcntn
  obtain ⟨hmem, hid⟩ := mem_currentPositions hcurr
  obtain ⟨hord, hkey⟩ := (getElem?_index pair.previousPending_nodup).mp (TreeMap.mem_toList_iff_getElem?_eq_some.mp he)
  refine hfits.positive current hmem e.2 ?_
  rw [contains_currentPending, ← hkey] at hgone
  rw [← hkey] at hev
  exact mem_filter.mpr ⟨hord, by simpa [hid, hev] using hgone⟩

theorem attributedTotal_nonneg (hfits : pair.EvidenceFits evidence)
    (hcntn : (positionMap pair.currentPositions).contains id = true) :
    0 ≤ pair.attributedTotal evidence id := by
  rw [attributedTotal, ← attributedVolume_sum]
  exact attributedVolume_nonneg hcntn (attributedPositive hfits)

/-- The loop state after the scan over the previous pending orders. -/
def scan (pair : PortfolioPair) (evidence : TreeMap String String compare) : FillScan :=
  (pendingMap pair.previousPending).toList.foldl
    (FillScan.visit (positionMap pair.currentPositions) (pendingMap pair.currentPending) evidence)
    ⟨positionIncreases (positionMap pair.previousPositions) (positionMap pair.currentPositions), []⟩

/-- The volume of a current position nobody has claimed when the scan is over. -/
def unmatched (pair : PortfolioPair) (evidence : TreeMap String String compare) :
    TreeMap String Decimal compare :=
  (pair.scan evidence).unmatchedPositionIncrease

section Fits

variable (hfits : pair.EvidenceFits evidence)
include hfits

theorem scan_room : ∀ id, (positionMap pair.currentPositions).contains id →
      ((pendingMap pair.previousPending).toList.map (attributedVolume (pendingMap pair.currentPending) evidence id)).sum
      ≤ (positionIncreases (positionMap pair.previousPositions) (positionMap pair.currentPositions))[id]?.getD 0 := by
  intro id hcntn
  rw [TreeMap.contains_eq_isSome_getElem?] at hcntn
  obtain ⟨current, hcurr⟩ := Option.isSome_iff_exists.mp hcntn
  obtain ⟨hmem, hid⟩ := mem_currentPositions hcurr
  rw [attributedVolume_sum, positionIncreases_getD hcurr, ← hid]
  exact hfits.fits current hmem

theorem scan_result :
      (pair.scan evidence).changes = (pendingMap pair.previousPending).toList.flatMap
        (vanishedChange (positionMap pair.currentPositions) (pendingMap pair.currentPending) evidence)
      ∧ ∀ id, (positionMap pair.currentPositions).contains id → (pair.unmatched evidence)[id]?.getD 0
          = (positionIncreases (positionMap pair.previousPositions) (positionMap pair.currentPositions))[id]?.getD 0
            - ((pendingMap pair.previousPending).toList.map
              (attributedVolume (pendingMap pair.currentPending) evidence id)).sum := by
  have h := scan_spec (pendingMap pair.previousPending).toList
    ⟨positionIncreases (positionMap pair.previousPositions) (positionMap pair.currentPositions), []⟩
    (attributedPositive hfits) (scan_room hfits)
  exact h

theorem unmatched_getD (hcurr : (positionMap pair.currentPositions)[id]? = some current) :
    (pair.unmatched evidence)[id]?.getD 0 = pair.increase current - pair.attributedTotal evidence id
      ∧ 0 ≤ pair.attributedTotal evidence id
      ∧ pair.attributedTotal evidence id ≤ pair.increase current := by
  have hcntn : (positionMap pair.currentPositions).contains id = true := by
    rw [TreeMap.contains_eq_isSome_getElem?, hcurr]
    rfl
  obtain ⟨hmem, hid⟩ := mem_currentPositions hcurr
  refine ⟨?_, attributedTotal_nonneg hfits hcntn, ?_⟩
  · rw [(scan_result hfits).2 id hcntn, positionIncreases_getD hcurr, attributedVolume_sum, attributedTotal]
  · have := hfits.fits current hmem
    rwa [hid] at this

/-- **The shape of the diff.** Four walks, with the vanished orders booked in full. -/
theorem diff_shape :
        pair.diff evidence = (pendingMap pair.previousPending).toList.flatMap
          (vanishedChange (positionMap pair.currentPositions) (pendingMap pair.currentPending) evidence)
        ++ (positionMap pair.currentPositions).toList.flatMap
          (openedChanges (pair.unmatched evidence) (positionMap pair.previousPositions))
        ++ (positionMap pair.previousPositions).toList.flatMap
          (positionChanges (pair.unmatched evidence) (positionMap pair.currentPositions))
        ++ (pendingMap pair.currentPending).toList.flatMap (pendingChanges (pendingMap pair.previousPending)) := by
  rw [← (scan_result hfits).1]
  rfl

end Fits

/-! ## Completeness, position by position -/

theorem pendingWalk_position (O N : PendingMap) (id : String) (held : Option PositionState) :
    (N.toList.flatMap (pendingChanges O)).foldl (stepPosition id) held = held := by
  refine foldl_inert _ ?_ held
  intro change hchg
  obtain ⟨entry, _, hent⟩ := mem_flatMap.mp hchg
  refine stepPosition_other ?_
  rw [(pendingChanges_tickets hent).2.1]
  exact Option.some_ne_none id ∘ Eq.symm

section
variable (pair : PortfolioPair) (evidence : TreeMap String String compare) (id : String)

/-- A position ticket once the vanished orders have been replayed. -/
def afterVanished :
    Option PositionState :=
  ((pendingMap pair.previousPending).toList.flatMap
    (vanishedChange (positionMap pair.currentPositions) (pendingMap pair.currentPending)
      evidence)).foldl (stepPosition id) (pair.previous.position id)

/-- A position ticket once the new positions have been replayed as well. -/
def afterOpened :
    Option PositionState :=
  (positionMap pair.currentPositions)[id]?.elim (pair.afterVanished evidence id) fun current =>
    (openedChanges (pair.unmatched evidence) (positionMap pair.previousPositions)
      (id, current)).foldl (stepPosition id) (pair.afterVanished evidence id)

end

/-- What the diff does to one position ticket, walk by walk. -/
theorem apply_position (hfits : pair.EvidenceFits evidence) (id : String) :
    (applyChanges (pair.diff evidence) pair.previous).position id
      = (positionMap pair.previousPositions)[id]?.elim (pair.afterOpened evidence id)
          fun previous => (positionChanges (pair.unmatched evidence)
            (positionMap pair.currentPositions) (id, previous)).foldl (stepPosition id)
            (pair.afterOpened evidence id) := by
  rw [applyChanges_position, diff_shape hfits, foldl_append, foldl_append, foldl_append, pendingWalk_position,
    settled_position (positionMap_keyed pair.previousPositions_nodup) (positionMap_keyed pair.currentPositions_nodup),
    opened_position (positionMap_keyed pair.currentPositions_nodup)]
  rfl

theorem afterVanished_gone (hgone : (positionMap pair.currentPositions)[id]? = none) :
    pair.afterVanished evidence id = pair.previous.position id :=
  vanished_position_absent (positionMap_keyed pair.currentPositions_nodup) hgone _ _

theorem afterVanished_current (hfits : pair.EvidenceFits evidence)
    (hcurr : (positionMap pair.currentPositions)[id]? = some current) :
    pair.afterVanished evidence id = if pair.attributedTotal evidence id = 0 then pair.previous.position id
        else some (addVolume (pair.attributedTotal evidence id) current (pair.previous.position id)) := by
  rw [afterVanished, vanished_position (positionMap_keyed pair.currentPositions_nodup) hcurr _ _
    (attributedPositive hfits), attributedVolume_sum]
  rfl

/-- A ticket that is gone: whatever was held is closed. -/
theorem apply_position_gone (hfits : pair.EvidenceFits evidence) (hgone : (positionMap pair.currentPositions)[id]? = none) :
    (applyChanges (pair.diff evidence) pair.previous).position id = none := by
  rw [apply_position hfits, afterOpened, hgone, Option.elim_none, afterVanished_gone hgone, pair.previous_position]
  cases hprev : (positionMap pair.previousPositions)[id]? with
  | none => rfl
  | some previous =>
    have hid := positionMap_keyed pair.previousPositions_nodup id previous hprev
    simp only [Option.elim_some, positionChanges, hgone, foldl_cons, foldl_nil, stepPosition, hid, if_true]

/-- A new ticket: fills and the opening volume make up the reported position. -/
theorem apply_position_new (hfits : pair.EvidenceFits evidence) (hnew : (positionMap pair.previousPositions)[id]? = none)
    (hcurr : (positionMap pair.currentPositions)[id]? = some current) :
    (applyChanges (pair.diff evidence) pair.previous).position id = some (positionState current) := by
  obtain ⟨hmem, hid⟩ := mem_currentPositions hcurr
  obtain ⟨hunm, hnonneg, hle⟩ := unmatched_getD hfits hcurr
  have hprv : pair.previous.position id = none := by
    rw [pair.previous_position, hnew, Option.map_none]
  have hpos : 0 < current.quantity := hfits.opened current hmem (by rw [hid, hprv])
  have hincrease : pair.increase current = current.quantity := by
    rw [increase_eq hcurr, previousQuantity, hnew, Option.map_none, Option.getD_none, sub_zero, max_eq_right (le_of_lt hpos)]
  rw [hincrease] at hunm hle
  have hold : (positionMap pair.previousPositions).contains id = false := by
    rw [TreeMap.contains_eq_isSome_getElem?, hnew]
    rfl
  rw [apply_position hfits, hnew, Option.elim_none, afterOpened, hcurr, Option.elim_some, afterVanished_current hfits hcurr, hprv]
  simp only [openedChanges, hold, hunm, Bool.false_eq_true, if_false]
  by_cases hfull : current.quantity - pair.attributedTotal evidence id ≤ 0
  · -- fills explain the whole position
    have hall : pair.attributedTotal evidence id = current.quantity := by linarith
    rw [if_pos hfull, foldl_nil, if_neg (by rw [hall]; exact ne_of_gt hpos), hall]
    rfl
  · rw [if_neg hfull, foldl_cons, foldl_nil, stepPosition, if_pos hid]
    by_cases hzero : pair.attributedTotal evidence id = 0
    · rw [if_pos hzero, hzero, sub_zero]
      rfl
    · rw [if_neg hzero]
      simp only [addVolume, positionState, add_sub_cancel]

variable {previous current : EaPositionSnapshot}

/-- The growth half of a surviving ticket ends at the reported quantity. -/
theorem foldl_growth {filled left : Decimal} (hid : current.brokerPositionId = id)
    (hleft : left = max 0 (current.quantity - previous.quantity) - filled) (hnonneg : 0 ≤ filled)
    (hle : filled ≤ max 0 (current.quantity - previous.quantity)) :
    (if current.quantity > previous.quantity ∧ left > 0 then
      [PortfolioChange.positionIncreased previous current left]
    else if current.quantity < previous.quantity then
      [.positionReduced previous current (previous.quantity - current.quantity)]
    else []).foldl (stepPosition id) (some { positionState previous with quantity := previous.quantity + filled })
      = some { positionState previous with quantity := current.quantity } := by
  rcases lt_trichotomy current.quantity previous.quantity with hlt | heq | hgt
  · rw [max_eq_left (by linarith)] at hleft hle
    have hzero : filled = 0 := le_antisymm hle hnonneg
    rw [if_neg (fun h => absurd h.1 (not_lt.mpr (le_of_lt hlt))), if_pos hlt, hzero, add_zero,
      foldl_cons, foldl_nil, stepPosition, if_pos hid, Option.map_some]
    simp only [sub_sub_cancel]
  · rw [heq, sub_self, max_self] at hle
    have hzero : filled = 0 := le_antisymm hle hnonneg
    rw [if_neg (fun h => absurd h.1 (not_lt.mpr (le_of_eq heq))),
      if_neg (fun h => absurd h (not_lt.mpr (le_of_eq heq.symm))), foldl_nil, hzero, add_zero,
      heq]
  · rw [max_eq_right (by linarith)] at hleft hle
    by_cases hsome : left > 0
    · rw [if_pos ⟨hgt, hsome⟩, foldl_cons, foldl_nil, stepPosition, if_pos hid]
      have htotal : previous.quantity + filled + left = current.quantity := by
        rw [hleft]
        ring
      simp only [addVolume, htotal]
    · have hall : previous.quantity + filled = current.quantity := by linarith
      rw [if_neg (fun h => hsome h.2), if_neg (not_lt.mpr (le_of_lt hgt)), foldl_nil, hall]

/-- The protection half of a surviving ticket ends at the reported stops. -/
theorem foldl_protection (hid : current.brokerPositionId = id) :
    (if current.stopLoss ≠ previous.stopLoss ∨ current.takeProfit ≠ previous.takeProfit then
      [PortfolioChange.positionProtectionChanged previous current]
    else []).foldl (stepPosition id) (some { positionState previous with quantity := current.quantity })
      = some (positionState current) := by
  by_cases hchgd : current.stopLoss ≠ previous.stopLoss ∨ current.takeProfit ≠ previous.takeProfit
  · rw [if_pos hchgd, foldl_cons, foldl_nil, stepPosition, if_pos hid]
    rfl
  · rw [if_neg hchgd, foldl_nil]
    simp only [ne_eq, not_or, not_not] at hchgd
    simp only [positionState, hchgd.1, hchgd.2]

theorem increase_kept (hprev : (positionMap pair.previousPositions)[id]? = some previous)
    (hcurr : (positionMap pair.currentPositions)[id]? = some current) :
    pair.increase current = max 0 (current.quantity - previous.quantity) := by
  rw [increase_eq hcurr, previousQuantity, hprev, Option.map_some, Option.getD_some]

/-- A surviving ticket: growth, reduction and protection turn the old state into the new. -/
theorem apply_position_kept (hfits : pair.EvidenceFits evidence)
    (hprev : (positionMap pair.previousPositions)[id]? = some previous)
    (hcurr : (positionMap pair.currentPositions)[id]? = some current) :
    (applyChanges (pair.diff evidence) pair.previous).position id = some (positionState current) := by
  obtain ⟨_, hid⟩ := mem_currentPositions hcurr
  obtain ⟨hunm, hnonneg, hle⟩ := unmatched_getD hfits hcurr
  have hincrease := increase_kept hprev hcurr
  rw [hincrease] at hunm hle
  have hold : (positionMap pair.previousPositions).contains id = true := by
    rw [TreeMap.contains_eq_isSome_getElem?, hprev]
    rfl
  have hfld : pair.afterVanished evidence id = some { positionState previous with
      quantity := previous.quantity + pair.attributedTotal evidence id } := by
    rw [afterVanished_current hfits hcurr, pair.previous_position, hprev, Option.map_some]
    by_cases hzero : pair.attributedTotal evidence id = 0
    · rw [if_pos hzero, hzero, add_zero]
      rfl
    · rw [if_neg hzero]
      rfl
  have hopened : pair.afterOpened evidence id = pair.afterVanished evidence id := by
    rw [afterOpened, hcurr, Option.elim_some]
    simp only [openedChanges, hold, if_true, foldl_nil]
  rw [apply_position hfits, hprev, Option.elim_some, hopened, hfld]
  simp only [positionChanges, hcurr]
  rw [foldl_append, foldl_growth hid hunm hnonneg hle, foldl_protection hid]

/-! ## Completeness, pending order by pending order -/

theorem positionWalks_pending (id : String) (held : Option PendingState) :
      ((positionMap pair.currentPositions).toList.flatMap
        (openedChanges (pair.unmatched evidence) (positionMap pair.previousPositions))
      ++ (positionMap pair.previousPositions).toList.flatMap
        (positionChanges (pair.unmatched evidence) (positionMap pair.currentPositions))).foldl
        (stepPending id) held = held := by
  refine foldl_inert _ ?_ held
  intro change hchg
  refine stepPending_other ?_
  rcases mem_append.mp hchg with h | h
  · obtain ⟨entry, _, hent⟩ := mem_flatMap.mp h
    rw [(openedChanges_tickets hent).2]
    exact Option.some_ne_none id ∘ Eq.symm
  · obtain ⟨entry, hmem, hent⟩ := mem_flatMap.mp h
    rw [(positionChanges_tickets (positionMap_keyed pair.previousPositions_nodup)
      (positionMap_keyed pair.currentPositions_nodup) hmem hent).2]
    exact Option.some_ne_none id ∘ Eq.symm

/-- An order that was replaced, modified or kept ends in its reported state. -/
theorem foldl_pendingChanges {previous current : EaPendingOrderSnapshot}
    {O : PendingMap} (hprev : O[id]? = some previous) (hid : current.brokerOrderId = id) :
    (pendingChanges O (id, current)).foldl (stepPending id) (some (pendingState previous)) = some (pendingState current) := by
  simp only [pendingChanges, hprev]
  by_cases hreplaced : current.quantity ≠ previous.quantity ∨ current.kind ≠ previous.kind
  · rw [if_pos hreplaced, foldl_cons, foldl_nil, stepPending, if_pos hid]
  · rw [if_neg hreplaced]
    simp only [ne_eq, not_or, not_not] at hreplaced
    by_cases hmodified : current.price ≠ previous.price ∨ current.stopLoss ≠ previous.stopLoss
        ∨ current.takeProfit ≠ previous.takeProfit
    · rw [if_pos hmodified, foldl_cons, foldl_nil, stepPending, if_pos hid, Option.map_some]
      simp only [pendingState, hreplaced.1, hreplaced.2]
    · rw [if_neg hmodified, foldl_nil]
      simp only [ne_eq, not_or, not_not] at hmodified
      simp only [pendingState, hreplaced.1, hreplaced.2, hmodified.1, hmodified.2.1, hmodified.2.2]

/-- A vanished order is taken off the book, however it was settled. -/
theorem foldl_vanishedChange {C : PositionMap} {N : PendingMap}
    {evidence : TreeMap String String compare} {previous : EaPendingOrderSnapshot}
    (hid : previous.brokerOrderId = id) (hgone : N.contains id = false)
    (held : Option PendingState) :
    (vanishedChange C N evidence (id, previous)).foldl (stepPending id) held = none := by
  simp only [vanishedChange, hgone, Bool.false_eq_true, if_false]
  cases creditedPosition C evidence id with
  | none | some => simp only [foldl_cons, foldl_nil, stepPending, hid, if_true]

theorem apply_pending (hfits : pair.EvidenceFits evidence) (id : String) :
    (applyChanges (pair.diff evidence) pair.previous).pending id = pair.current.pending id := by
  rw [applyChanges_pending, diff_shape hfits, foldl_append, append_assoc, foldl_append, positionWalks_pending,
    vanished_pending (pendingMap_keyed pair.previousPending_nodup),
    Copier.current_pending (pendingMap_keyed pair.currentPending_nodup), pair.previous_pending,
    pair.current_pending]
  cases hcur : (pendingMap pair.currentPending)[id]? with
  | none =>
    have hgone : (pendingMap pair.currentPending).contains id = false := by
      rw [TreeMap.contains_eq_isSome_getElem?, hcur]
      rfl
    cases hprev : (pendingMap pair.previousPending)[id]? with
    | none => rfl
    | some previous =>
      exact foldl_vanishedChange (pendingMap_keyed pair.previousPending_nodup id previous hprev) hgone _
  | some current =>
    have hkept : (pendingMap pair.currentPending).contains id = true := by
      rw [TreeMap.contains_eq_isSome_getElem?, hcur]
      rfl
    have hid := pendingMap_keyed pair.currentPending_nodup id current hcur
    rw [Option.elim_some, Option.map_some]
    cases hprev : (pendingMap pair.previousPending)[id]? with
    | none =>
      simp only [pendingChanges, hprev, Option.elim_none, Option.map_none, foldl_cons, foldl_nil, stepPending, hid, if_true]
    | some previous =>
      have hstill : vanishedChange (positionMap pair.currentPositions)
          (pendingMap pair.currentPending) evidence (id, previous) = [] := by
        rw [vanishedChange, if_pos hkept]
      rw [Option.elim_some, Option.map_some, hstill, foldl_nil]
      exact foldl_pendingChanges hprev hid

/-- **Applying the diff to the previous portfolio yields the current one.** -/
theorem apply_diff (hfits : pair.EvidenceFits evidence) : applyChanges (pair.diff evidence) pair.previous = pair.current := by
  refine Portfolio.ext (funext fun id => ?_) (funext fun id => apply_pending hfits id)
  rw [pair.current_position]
  cases hcur : (positionMap pair.currentPositions)[id]? with
  | none => exact apply_position_gone hfits hcur
  | some =>
    cases hprev : (positionMap pair.previousPositions)[id]? with
    | none => exact apply_position_new hfits hprev hcur
    | some => exact apply_position_kept hfits hprev hcur

end PortfolioPair

end MarketLens.Copier
