import MarketLens.Copier.Portfolio
import Mathlib.Algebra.Order.BigOperators.Group.List
import Mathlib.Tactic.Linarith
import Mathlib.Tactic.Ring

/-!
# The diff is complete and counts nothing twice

The two halves of `diffPortfolio` are coupled through `unmatchedPositionIncrease`:
a fill takes its volume out of a position's increase, and what is left is what
the position half reports. The argument has two parts.

* **The scan.** As long as the volume attributed to a position still fits its
  unclaimed increase, every filled order is booked at its full quantity and the
  increase left over is the original one minus everything attributed. This is the
  only place where the order of the loop could matter (`scan_spec`).
* **One ticket at a time.** Each of the four segments of the diff is a walk over
  an ordered map that only concerns the key it visits, so the effect on a ticket
  is read off that ticket's own entry.
-/

namespace MarketLens.Copier

open List KeyedMap

open Std (TreeMap ReflCmp LawfulEqOrd)

/-! ## Keys and entries -/

section Entries

variable {positions : List EaPositionSnapshot} {orders : List EaPendingOrderSnapshot}

theorem positionMap_get (hnd : (positions.map (·.brokerPositionId)).Nodup) (id : String) :
    (positionMap positions)[id]? = positions.find? (·.brokerPositionId = id) := by
  cases h : positions.find? (·.brokerPositionId = id) with
  | none =>
    refine (getElem?_index_eq_none hnd).mpr fun position hp hid => ?_
    exact absurd hid (by simpa using find?_eq_none.mp h position hp)
  | some =>
    exact (getElem?_index hnd).mpr ⟨mem_of_find?_eq_some h, by simpa using find?_some h⟩

theorem pendingMap_get (hnd : (orders.map (·.brokerOrderId)).Nodup) (id : String) :
    (pendingMap orders)[id]? = orders.find? (·.brokerOrderId = id) := by
  cases h : orders.find? (·.brokerOrderId = id) with
  | none =>
    refine (getElem?_index_eq_none hnd).mpr fun order ho hid => ?_
    exact absurd hid (by simpa using find?_eq_none.mp h order ho)
  | some =>
    exact (getElem?_index hnd).mpr ⟨mem_of_find?_eq_some h, by simpa using find?_some h⟩

end Entries

/-- Every entry of the map sits under the ticket its snapshot carries. -/
def PositionKeyed (map : PositionMap) : Prop :=
  ∀ (id : String) (position : EaPositionSnapshot),
    map[id]? = some position → position.brokerPositionId = id

def PendingKeyed (map : PendingMap) : Prop :=
  ∀ (id : String) (order : EaPendingOrderSnapshot),
    map[id]? = some order → order.brokerOrderId = id

theorem positionMap_keyed {positions : List EaPositionSnapshot}
    (hnd : (positions.map (·.brokerPositionId)).Nodup) : PositionKeyed (positionMap positions) := by
  intro id position h
  exact ((getElem?_index hnd).mp h).2

theorem pendingMap_keyed {orders : List EaPendingOrderSnapshot}
    (hnd : (orders.map (·.brokerOrderId)).Nodup) : PendingKeyed (pendingMap orders) := by
  intro id order h
  exact ((getElem?_index hnd).mp h).2

/-! ## The scan over vanished orders -/

section Scan

variable (C : PositionMap) (N : PendingMap) (evidence : TreeMap String String compare)

/-- The current position a vanished order's fill evidence points at, if there is one. -/
def creditedPosition (orderId : String) : Option EaPositionSnapshot :=
  evidence[orderId]?.bind fun positionId => C[positionId]?

/-- What one entry contributes when fills are booked in full. -/
def vanishedChange (entry : String × EaPendingOrderSnapshot) : List PortfolioChange :=
  if N.contains entry.1 then []
  else
    match creditedPosition C evidence entry.1 with
    | some position => [.pendingFilled entry.2 position]
    | none => [.pendingCancelled entry.2]

/-- The volume an entry is attributed to ticket `id`. -/
def attributedVolume (id : String) (entry : String × EaPendingOrderSnapshot) : Decimal :=
  if N.contains entry.1 = false ∧ evidence[entry.1]? = some id then entry.2.quantity else 0

/-- Volume attributed to a current position is positive. -/
def AttributedPositive (entries : List (String × EaPendingOrderSnapshot)) : Prop :=
  ∀ e ∈ entries, ∀ id, evidence[e.1]? = some id → N.contains e.1 = false → C.contains id →
    0 < e.2.quantity

variable {C N evidence}

variable {orderId : String} {previous : EaPendingOrderSnapshot}

theorem attributedVolume_kept (hkept : N.contains orderId = true) (id : String) :
    attributedVolume N evidence id (orderId, previous) = 0 := by
  simp [attributedVolume, hkept]

theorem attributedVolume_cancelled (hfill : creditedPosition C evidence orderId = none) {id : String} (hid : C.contains id) :
    attributedVolume N evidence id (orderId, previous) = 0 := by
  unfold attributedVolume
  rw [if_neg]
  rintro ⟨_, hev⟩
  rw [creditedPosition, hev, Option.bind_some] at hfill
  rw [TreeMap.contains_eq_isSome_getElem?, hfill] at hid
  cases hid

theorem attributedVolume_filled {orderId positionId : String}
    (hgone : N.contains orderId = false) (hev : evidence[orderId]? = some positionId)
    (id : String) :
    attributedVolume N evidence id (orderId, previous) = if id = positionId then previous.quantity else 0 := by
  unfold attributedVolume
  simp only [hgone, hev, Option.some.injEq, true_and]
  by_cases hid : id = positionId
  · rw [if_pos hid.symm, if_pos hid]
  · rw [if_neg (Ne.symm hid), if_neg hid]

theorem attributedVolume_nonneg {id : String} (hid : C.contains id) {entries : List (String × EaPendingOrderSnapshot)}
    (hpos : AttributedPositive C N evidence entries) :
    0 ≤ (entries.map (attributedVolume N evidence id)).sum := by
  apply sum_nonneg
  intro volume hvol
  obtain ⟨e, he, rfl⟩ := mem_map.mp hvol
  unfold attributedVolume
  split
  · rename_i h
    exact le_of_lt (hpos e he id h.2 h.1 hid)
  · exact le_refl 0

theorem creditedPosition_eq_some {position : EaPositionSnapshot} :
    creditedPosition C evidence orderId = some position ↔
      ∃ positionId, evidence[orderId]? = some positionId ∧ C[positionId]? = some position := by
  exact Option.bind_eq_some_iff

/-- A round over an order that is still working does nothing. -/
theorem visit_kept (hkept : N.contains orderId = true) (scan : FillScan) (previous : EaPendingOrderSnapshot) :
    scan.visit C N evidence (orderId, previous) = scan := by
  simp only [FillScan.visit, hkept, if_true]

theorem visit_cancelled (hgone : N.contains orderId = false)
    (hfill : creditedPosition C evidence orderId = none) (scan : FillScan)
    (previous : EaPendingOrderSnapshot) :
    scan.visit C N evidence (orderId, previous) = { scan with changes := scan.changes ++ [.pendingCancelled previous] } := by
  have hnone : (evidence[orderId]?.bind fun positionId =>
      C[positionId]?.map (positionId, ·)) = none := by
    cases hev : evidence[orderId]? with
    | none => rfl
    | some =>
      rw [creditedPosition, hev, Option.bind_some] at hfill
      rw [Option.bind_some, hfill, Option.map_none]
  simp only [FillScan.visit, hgone, Bool.false_eq_true, if_false, hnone]

/-- With room left in the position's increase, a round books the order in full. -/
theorem visit_filled {orderId positionId : String} {position : EaPositionSnapshot} {scan : FillScan}
    (hgone : N.contains orderId = false) (hev : evidence[orderId]? = some positionId)
    (hcur : C[positionId]? = some position) (hqnt : 0 < previous.quantity)
    (hroom : previous.quantity ≤ scan.unmatchedPositionIncrease[positionId]?.getD 0) :
    scan.visit C N evidence (orderId, previous)
      = { unmatchedPositionIncrease :=
            scan.unmatchedPositionIncrease.modify positionId (· - previous.quantity)
          changes := scan.changes ++ [.pendingFilled previous position] } := by
  have hpair : (evidence[orderId]?.bind fun positionId =>
      C[positionId]?.map (positionId, ·)) = some (positionId, position) := by
    rw [hev, Option.bind_some, hcur, Option.map_some]
  have havailable : scan.unmatchedPositionIncrease[positionId]?.getD 0 > 0 :=
    lt_of_lt_of_le hqnt hroom
  simp only [FillScan.visit, hgone, Bool.false_eq_true, if_false, hpair, havailable, if_true, min_eq_left hroom]

/-- Booking a fill takes its volume out of that position's unclaimed increase only. -/
theorem modify_getD {unmatched : TreeMap String Decimal compare} {positionId : String} {quantity : Decimal} (hqnt : 0 < quantity)
    (hroom : quantity ≤ unmatched[positionId]?.getD 0) (id : String) :
    (unmatched.modify positionId (· - quantity))[id]?.getD 0
      = unmatched[id]?.getD 0 - if id = positionId then quantity else 0 := by
  rw [TreeMap.getElem?_modify]
  by_cases hid : id = positionId
  · subst hid
    rw [if_pos ReflCmp.compare_self, if_pos rfl]
    cases hu : unmatched[id]? with
    | some => rfl
    | none =>
      rw [hu] at hroom
      exact absurd (lt_of_lt_of_le hqnt hroom) (lt_irrefl 0)
  · rw [if_neg (fun h => hid (LawfulEqOrd.eq_of_compare h).symm), if_neg hid, sub_zero]

/--
**The scan books every evidenced fill in full.**

The increase still unclaimed covers what the remaining entries are attributed;
that is the loop invariant, and it makes `min previous.quantity available` the
order's own quantity at every round.
-/
theorem scan_spec : ∀ (entries : List (String × EaPendingOrderSnapshot)) (scan : FillScan),
    AttributedPositive C N evidence entries →
    (∀ id, C.contains id → (entries.map (attributedVolume N evidence id)).sum ≤ scan.unmatchedPositionIncrease[id]?.getD 0) →
    (entries.foldl (FillScan.visit C N evidence) scan).changes = scan.changes ++ entries.flatMap (vanishedChange C N evidence)
      ∧ ∀ id, C.contains id → (entries.foldl (FillScan.visit C N evidence) scan).unmatchedPositionIncrease[id]?.getD 0
          = scan.unmatchedPositionIncrease[id]?.getD 0 - (entries.map (attributedVolume N evidence id)).sum := by
  intro entries
  induction entries with
  | nil =>
    intro scan _ _
    simp
  | cons e rest ih =>
    intro scan hpos hfit
    obtain ⟨orderId, previous⟩ := e
    have hposRest : AttributedPositive C N evidence rest :=
      fun e he => hpos e (mem_cons_of_mem _ he)
    simp only [map_cons, sum_cons] at hfit ⊢
    rw [foldl_cons, flatMap_cons]
    by_cases hkept : N.contains orderId = true
    · simp only [attributedVolume_kept hkept, zero_add] at hfit ⊢
      rw [visit_kept hkept, vanishedChange, if_pos hkept, nil_append]
      exact ih scan hposRest hfit
    · have hgone : N.contains orderId = false := Bool.eq_false_of_not_eq_true hkept
      cases hfill : creditedPosition C evidence orderId with
      | none =>
        rw [visit_cancelled hgone hfill]
        have hfitRest : ∀ id, C.contains id → (rest.map (attributedVolume N evidence id)).sum
            ≤ scan.unmatchedPositionIncrease[id]?.getD 0 := by
          intro id hid
          have := hfit id hid
          rwa [attributedVolume_cancelled hfill hid, zero_add] at this
        obtain ⟨hchgs, hunm⟩ := ih { scan with changes := scan.changes ++ [.pendingCancelled previous] } hposRest hfitRest
        refine ⟨?_, ?_⟩
        · rw [hchgs]
          simp only [vanishedChange, hgone, hfill, Bool.false_eq_true, if_false, append_assoc]
        · intro id hid
          rw [hunm id hid, attributedVolume_cancelled hfill hid, zero_add]
      | some position =>
        obtain ⟨positionId, hev, hcur⟩ := creditedPosition_eq_some.mp hfill
        have hcntn : C.contains positionId = true := by
          rw [TreeMap.contains_eq_isSome_getElem?, hcur]
          rfl
        have hqnt : 0 < previous.quantity :=
          hpos (orderId, previous) mem_cons_self positionId hev hgone hcntn
        have hroom : previous.quantity ≤ scan.unmatchedPositionIncrease[positionId]?.getD 0 := by
          have hhere := hfit positionId hcntn
          have hrest := attributedVolume_nonneg hcntn hposRest
          rw [attributedVolume_filled hgone hev, if_pos rfl] at hhere
          linarith
        -- the order takes its own quantity, and the rest covers the orders behind it
        rw [visit_filled hgone hev hcur hqnt hroom]
        have hfitRest : ∀ id, C.contains id → (rest.map (attributedVolume N evidence id)).sum
            ≤ (scan.unmatchedPositionIncrease.modify positionId (· - previous.quantity))[id]?.getD 0 := by
          intro id hid
          have := hfit id hid
          rw [attributedVolume_filled hgone hev] at this
          rw [modify_getD hqnt hroom]
          linarith
        obtain ⟨hchgs, hunm⟩ := ih
          { unmatchedPositionIncrease :=
              scan.unmatchedPositionIncrease.modify positionId (· - previous.quantity)
            changes := scan.changes ++ [.pendingFilled previous position] } hposRest hfitRest
        refine ⟨?_, ?_⟩
        · rw [hchgs]
          simp only [vanishedChange, hgone, hfill, Bool.false_eq_true, if_false, append_assoc]
        · intro id hid
          rw [hunm id hid, modify_getD hqnt hroom, attributedVolume_filled hgone hev]
          ring

end Scan

/-! ## The vanished orders, seen from a position ticket -/

variable {entry : String × EaPendingOrderSnapshot}

section Vanished

variable {C : PositionMap} {N : PendingMap} {evidence : TreeMap String String compare}

theorem addVolume_addVolume (first second : Decimal) (reported : EaPositionSnapshot) (held : Option PositionState) :
    addVolume second reported (some (addVolume first reported held)) = addVolume (first + second) reported held := by
  cases held with
  | none => rfl
  | some => simp only [addVolume, add_assoc]

theorem vanishedChange_tickets {change : PortfolioChange} (h : change ∈ vanishedChange C N evidence entry) :
    N.contains entry.1 = false ∧ change.pendingTicket = some entry.2.brokerOrderId
      ∧ change.positionTicket = (creditedPosition C evidence entry.1).map (·.brokerPositionId) := by
  unfold vanishedChange at h
  split at h
  · cases h
  rename_i hgone
  refine ⟨Bool.eq_false_of_not_eq_true hgone, ?_⟩
  cases hfill : creditedPosition C evidence entry.1 with
  | none | some =>
    rw [hfill, mem_singleton] at h
    rw [h]
    exact ⟨rfl, rfl⟩

variable {id : String}

theorem vanishedChange_other (hkyd : PositionKeyed C)
    (hoth : ¬(N.contains entry.1 = false ∧ evidence[entry.1]? = some id ∧ C.contains id)) :
    ∀ change ∈ vanishedChange C N evidence entry, change.positionTicket ≠ some id := by
  intro change hchg htkt
  obtain ⟨hgone, _, hposn⟩ := vanishedChange_tickets hchg
  rw [htkt, eq_comm, Option.map_eq_some_iff] at hposn
  obtain ⟨position, hfill, hid⟩ := hposn
  obtain ⟨positionId, hev, hcur⟩ := creditedPosition_eq_some.mp hfill
  have hsame : positionId = id := by rw [← hid, hkyd positionId position hcur]
  subst hsame
  refine hoth ⟨hgone, hev, ?_⟩
  rw [TreeMap.contains_eq_isSome_getElem?, hcur]
  rfl

/-- A position that is not there any more is credited with nothing. -/
theorem vanished_position_absent (hkyd : PositionKeyed C) (hnone : C[id]? = none)
    (entries : List (String × EaPendingOrderSnapshot)) (held : Option PositionState) :
    (entries.flatMap (vanishedChange C N evidence)).foldl (stepPosition id) held = held := by
  refine foldl_inert _ ?_ held
  intro change hchg
  obtain ⟨entry, _, hent⟩ := mem_flatMap.mp hchg
  refine stepPosition_other (vanishedChange_other hkyd ?_ change hent)
  rintro ⟨_, _, hcntn⟩
  rw [TreeMap.contains_eq_isSome_getElem?, hnone] at hcntn
  cases hcntn

theorem vanished_position {current : EaPositionSnapshot} (hkyd : PositionKeyed C) (hcur : C[id]? = some current) :
    ∀ (entries : List (String × EaPendingOrderSnapshot)) (held : Option PositionState), AttributedPositive C N evidence entries →
      (entries.flatMap (vanishedChange C N evidence)).foldl (stepPosition id) held
        = if (entries.map (attributedVolume N evidence id)).sum = 0 then held
          else some (addVolume (entries.map (attributedVolume N evidence id)).sum current held) := by
  have hcntn : C.contains id = true := by
    rw [TreeMap.contains_eq_isSome_getElem?, hcur]
    rfl
  intro entries
  induction entries with
  | nil => intro held _; rfl
  | cons entry rest ih =>
    intro held hpos
    have hposRest : AttributedPositive C N evidence rest :=
      fun e he => hpos e (mem_cons_of_mem _ he)
    rw [flatMap_cons, foldl_append, map_cons, sum_cons]
    -- either this order filled into the position, or its change is about another entity
    by_cases hhere : N.contains entry.1 = false ∧ evidence[entry.1]? = some id
    · obtain ⟨hgone, hev⟩ := hhere
      have hqnt := hpos entry mem_cons_self id hev hgone hcntn
      have hrest := attributedVolume_nonneg hcntn hposRest
      have hfill : creditedPosition C evidence entry.1 = some current :=
        creditedPosition_eq_some.mpr ⟨id, hev, hcur⟩
      have hvol : attributedVolume N evidence id entry = entry.2.quantity := by
        rw [attributedVolume, if_pos ⟨hgone, hev⟩]
      have hstep : (vanishedChange C N evidence entry).foldl (stepPosition id) held
          = some (addVolume entry.2.quantity current held) := by
        simp only [vanishedChange, hgone, Bool.false_eq_true, if_false, hfill, foldl_cons,
          foldl_nil, stepPosition, hkyd id current hcur, if_true]
      have htotal : ¬entry.2.quantity + (rest.map (attributedVolume N evidence id)).sum = 0 := by
        intro h
        linarith
      rw [hstep, ih _ hposRest, hvol, if_neg htotal]
      by_cases hzero : (rest.map (attributedVolume N evidence id)).sum = 0
      · rw [if_pos hzero, hzero, add_zero]
      · rw [if_neg hzero, addVolume_addVolume]
    · have hvol : attributedVolume N evidence id entry = 0 := by
        rw [attributedVolume, if_neg hhere]
      have hoth : ∀ change ∈ vanishedChange C N evidence entry, ∀ held, stepPosition id held change = held := fun change hchg =>
        stepPosition_other (vanishedChange_other hkyd (fun h => hhere ⟨h.1, h.2.1⟩) change hchg)
      rw [foldl_inert _ hoth, ih _ hposRest, hvol, zero_add]

end Vanished

/-! ## The walks over the maps -/

section Walks

variable {P C : PositionMap} {O : PendingMap} {unmatched : TreeMap String Decimal compare}

variable {change : PortfolioChange}

theorem openedChanges_tickets {entry : String × EaPositionSnapshot} (h : change ∈ openedChanges unmatched P entry) :
    change.positionTicket = some entry.2.brokerPositionId ∧ change.pendingTicket = none := by
  simp only [openedChanges] at h
  split at h
  · cases h
  split at h
  · cases h
  rw [mem_singleton] at h
  rw [h]
  exact ⟨rfl, rfl⟩

theorem positionChanges_tickets (hP : PositionKeyed P) (hC : PositionKeyed C)
    {entry : String × EaPositionSnapshot} (hent : entry ∈ P.toList)
    (h : change ∈ positionChanges unmatched C entry) :
    change.positionTicket = some entry.1 ∧ change.pendingTicket = none := by
  have hprv := hP entry.1 entry.2 (TreeMap.mem_toList_iff_getElem?_eq_some.mp hent)
  simp only [positionChanges] at h
  cases hcur : C[entry.1]? with
  | none =>
    rw [hcur, mem_singleton] at h
    rw [h]
    exact ⟨congrArg some hprv, rfl⟩
  | some current =>
    have hcurr := hC entry.1 current hcur
    rw [hcur, mem_append] at h
    rcases h with hgrown | hprotected
    · split at hgrown
      · rw [mem_singleton] at hgrown
        rw [hgrown]
        exact ⟨congrArg some hcurr, rfl⟩
      · split at hgrown
        · rw [mem_singleton] at hgrown
          rw [hgrown]
          exact ⟨congrArg some hcurr, rfl⟩
        · cases hgrown
    · split at hprotected
      · rw [mem_singleton] at hprotected
        rw [hprotected]
        exact ⟨congrArg some hcurr, rfl⟩
      · cases hprotected

theorem pendingChanges_tickets (h : change ∈ pendingChanges O entry) :
    change.pendingTicket = some entry.2.brokerOrderId ∧ change.positionTicket = none ∧ ∀ id, settles id change = false := by
  simp only [pendingChanges] at h
  cases hprev : O[entry.1]? with
  | none =>
    rw [hprev, mem_singleton] at h
    rw [h]
    exact ⟨rfl, rfl, fun _ => rfl⟩
  | some =>
    rw [hprev] at h
    dsimp only at h
    split at h
    · rw [mem_singleton] at h
      rw [h]
      exact ⟨rfl, rfl, fun _ => rfl⟩
    · split at h
      · rw [mem_singleton] at h
        rw [h]
        exact ⟨rfl, rfl, fun _ => rfl⟩
      · cases h

variable {id : String}

/-- The four walks, each seen from one ticket: only that ticket's entry matters. -/
theorem opened_position (hC : PositionKeyed C) (held : Option PositionState) :
    (C.toList.flatMap (openedChanges unmatched P)).foldl (stepPosition id) held
      = C[id]?.elim held fun current =>
          (openedChanges unmatched P (id, current)).foldl (stepPosition id) held := by
  refine foldl_toList_flatMap (stepPosition id) (openedChanges unmatched P) id C held ?_
  intro e he hne
  refine foldl_inert _ ?_
  intro change hchg
  refine stepPosition_other ?_
  rw [(openedChanges_tickets hchg).1, hC e.1 e.2 (TreeMap.mem_toList_iff_getElem?_eq_some.mp he)]
  exact fun h => hne (Option.some.inj h)

theorem settled_position (hP : PositionKeyed P) (hC : PositionKeyed C) (held : Option PositionState) :
    (P.toList.flatMap (positionChanges unmatched C)).foldl (stepPosition id) held
      = P[id]?.elim held fun previous =>
          (positionChanges unmatched C (id, previous)).foldl (stepPosition id) held := by
  refine foldl_toList_flatMap (stepPosition id) (positionChanges unmatched C) id P held ?_
  intro e he hne
  refine foldl_inert _ ?_
  intro change hchg
  refine stepPosition_other ?_
  rw [(positionChanges_tickets hP hC he hchg).1]
  exact fun h => hne (Option.some.inj h)

theorem vanished_pending {N : PendingMap} {evidence : TreeMap String String compare}
    (hO : PendingKeyed O) (held : Option PendingState) :
    (O.toList.flatMap (vanishedChange C N evidence)).foldl (stepPending id) held
      = O[id]?.elim held fun previous =>
          (vanishedChange C N evidence (id, previous)).foldl (stepPending id) held := by
  refine foldl_toList_flatMap (stepPending id) (vanishedChange C N evidence) id O held ?_
  intro e he hne
  refine foldl_inert _ ?_
  intro change hchg
  refine stepPending_other ?_
  rw [(vanishedChange_tickets hchg).2.1, hO e.1 e.2 (TreeMap.mem_toList_iff_getElem?_eq_some.mp he)]
  exact fun h => hne (Option.some.inj h)

theorem current_pending {N : PendingMap} (hN : PendingKeyed N) (held : Option PendingState) :
    (N.toList.flatMap (pendingChanges O)).foldl (stepPending id) held
      = N[id]?.elim held fun current =>
          (pendingChanges O (id, current)).foldl (stepPending id) held := by
  refine foldl_toList_flatMap (stepPending id) (pendingChanges O) id N held ?_
  intro e he hne
  refine foldl_inert _ ?_
  intro change hchg
  refine stepPending_other ?_
  rw [(pendingChanges_tickets hchg).1, hN e.1 e.2 (TreeMap.mem_toList_iff_getElem?_eq_some.mp he)]
  exact fun h => hne (Option.some.inj h)

end Walks

/-! ## The diff of a pair of portfolios -/

namespace PortfolioPair

variable (pair : PortfolioPair) (evidence : TreeMap String String compare)

section
variable (id : String)

theorem previous_position :
    pair.previous.position id = (positionMap pair.previousPositions)[id]?.map positionState := by
  rw [positionMap_get pair.previousPositions_nodup]
  rfl

theorem current_position :
    pair.current.position id = (positionMap pair.currentPositions)[id]?.map positionState := by
  rw [positionMap_get pair.currentPositions_nodup]
  rfl

theorem previous_pending : pair.previous.pending id = (pendingMap pair.previousPending)[id]?.map pendingState := by
  rw [pendingMap_get pair.previousPending_nodup]
  rfl

theorem current_pending : pair.current.pending id = (pendingMap pair.currentPending)[id]?.map pendingState := by
  rw [pendingMap_get pair.currentPending_nodup]
  rfl

/-- An order is kept exactly when some current order carries its ticket. -/
theorem contains_currentPending :
    (pendingMap pair.currentPending).contains id = false
      ↔ pair.currentPending.all (·.brokerOrderId ≠ id) = true := by
  rw [← Bool.not_eq_true, pendingMap, contains_index pair.currentPending_nodup]
  simp

theorem attributedVolume_sum :
      ((pendingMap pair.previousPending).toList.map
        (attributedVolume (pendingMap pair.currentPending) evidence id)).sum
      = ((pair.attributed evidence id).map (·.quantity)).sum := by
  have hents : (pendingMap pair.previousPending).toList.map (attributedVolume (pendingMap pair.currentPending) evidence id)
      = ((pendingMap pair.previousPending).toList.map Prod.snd).map fun order =>
        attributedVolume (pendingMap pair.currentPending) evidence id (order.brokerOrderId, order) := by
    rw [map_map]
    refine map_congr_left fun e he => ?_
    have hkey := pendingMap_keyed pair.previousPending_nodup e.1 e.2 (TreeMap.mem_toList_iff_getElem?_eq_some.mp he)
    simp only [Function.comp_apply, hkey]
  have hperm : ((pendingMap pair.previousPending).toList.map Prod.snd).Perm pair.previousPending :=
    values_index_perm pair.previousPending_nodup
  rw [hents, (hperm.map _).sum_eq]
  unfold attributed
  induction pair.previousPending with
  | nil => rfl
  | cons order rest ih =>
    rw [map_cons, sum_cons, ih]
    simp only [attributedVolume, pair.contains_currentPending]
    by_cases h : pair.currentPending.all (·.brokerOrderId ≠ order.brokerOrderId) = true ∧ evidence[order.brokerOrderId]? = some id
    · rw [if_pos h, filter_cons_of_pos (by simpa using h), map_cons, sum_cons]
    · rw [if_neg h, filter_cons_of_neg (by simpa using h), zero_add]

end

end PortfolioPair

end MarketLens.Copier
