import MarketLens.Lib.Interleave
import MarketLens.Replay.Equity
import MarketLens.Replay.Report

/-!
# The positions a report visits

`applyReportFill` keeps the position of a track a second time, from the fills alone. On
the fills in the order they were made it goes through the same positions as
`applyPositionFill` does. What it visits on a track depends on the fills of that track
and their order only.
-/

namespace MarketLens.Replay

open Interleave List

/-! ## One fill -/

theorem volume_le {a b : Int} : volume a ≤ volume b ↔ a ≤ b := by
  unfold volume
  rw [div_le_div_iff_of_pos_right (by positivity)]
  exact Int.cast_le

theorem volume_lt {a b : Int} : volume a < volume b ↔ a < b := by
  rw [← not_le, volume_le, not_le]

theorem volume_zero : volume 0 = 0 := by
  unfold volume
  simp

theorem volume_eq_zero {a : Int} : volume a = 0 ↔ a = 0 :=
  ⟨fun h => by_contra fun ha => volume_ne_zero ha h, fun h => h ▸ volume_zero⟩

theorem abs_volume (a : Int) : |volume a| = volume |a| := by
  rcases le_total 0 a with ha | ha
  · rw [abs_of_nonneg ha, abs_of_nonneg (by rw [← volume_zero]; exact volume_le.mpr ha)]
  · rw [abs_of_nonpos ha, abs_of_nonpos (by rw [← volume_zero]; exact volume_le.mpr ha), volume_neg]

theorem min_volume (a b : Int) : min (volume a) (volume b) = volume (min a b) := by
  rcases le_total a b with hab | hab
  · rw [min_eq_left hab, min_eq_left (volume_le.mpr hab)]
  · rw [min_eq_right hab, min_eq_right (volume_le.mpr hab)]

theorem sameDirection_volume (a b : Int) : sameDirection (volume a) (volume b) = sameSign a b := by
  have hpos : ∀ c : Int, decide (0 < volume c) = decide (0 < c) := fun c => by
    rw [decide_eq_decide, ← volume_zero, volume_lt]
  have hneg : ∀ c : Int, decide (volume c < 0) = decide (c < 0) := fun c => by
    rw [decide_eq_decide, ← volume_zero, volume_lt]
  unfold sameDirection sameSign
  rw [hpos, hpos, hneg, hneg]

/-- The report stands on a track where the ledger does. -/
structure ReportPositionState.Matches (state : ReportPositionState) (p : PositionRow) : Prop where
  net : state.net = volume p.netQuantity
  average : state.average = p.averagePrice

/-- A fill of the quantity `signed` takes a position of `net` down. -/
def reduces (net signed : Decimal) : Bool := net ≠ 0 && !sameDirection net signed

section Fill

variable {state : ReportPositionState} {p : PositionRow} {side : Side} {qty : Int}

/-- The four outcomes of a fill, as the report computes them. -/
theorem applyReportFill_cases (side : Side) (qty : Int) (price commission : Decimal) (hnet : state.net = volume p.netQuantity) :
    ((p.netQuantity = 0 ∨ sameSign p.netQuantity (side.signed qty) = true) ∧
      applyReportFill state side price (volume qty) commission = (⟨volume (p.netQuantity + side.signed qty),
          (state.average * volume |p.netQuantity| + price * volume qty) /
            (volume |p.netQuantity| + volume qty), state.entryCommission + commission⟩, none)) ∨
    (p.netQuantity ≠ 0 ∧ sameSign p.netQuantity (side.signed qty) = false ∧
      ∃ pnl, pnl = (if p.netQuantity < 0 then
          -((price - state.average) * volume (min |p.netQuantity| qty))
        else (price - state.average) * volume (min |p.netQuantity| qty)) -
          (state.entryCommission * volume (min |p.netQuantity| qty) / volume |p.netQuantity| +
            commission * volume (min |p.netQuantity| qty) / volume qty) ∧
      ((p.netQuantity + side.signed qty = 0 ∧ applyReportFill state side price (volume qty) commission = (.flat, some pnl)) ∨
        (p.netQuantity + side.signed qty ≠ 0 ∧ sameSign p.netQuantity (p.netQuantity + side.signed qty) = false ∧
          applyReportFill state side price (volume qty) commission = (⟨volume (p.netQuantity + side.signed qty), price,
              commission - commission * volume (min |p.netQuantity| qty) / volume qty⟩, some pnl)) ∨
        (sameSign p.netQuantity (p.netQuantity + side.signed qty) = true ∧
          applyReportFill state side price (volume qty) commission =
            (⟨volume (p.netQuantity + side.signed qty), state.average, state.entryCommission -
                state.entryCommission * volume (min |p.netQuantity| qty) / volume |p.netQuantity|⟩,
              some pnl)))) := by
  -- the questions of the report, in the units of the ledger
  have hflat : (state.net = 0) = (p.netQuantity = 0) := by
    rw [hnet, volume_eq_zero]
  have hnext : ∀ signed : Int, state.net + volume signed = volume (p.netQuantity + signed) :=
    fun signed => by rw [hnet, volume_add]
  have hturned : ∀ next : Int, sameDirection state.net (volume next) = sameSign p.netQuantity next :=
    fun next => by rw [hnet, sameDirection_volume]
  have hbelow : (state.net < 0) = (p.netQuantity < 0) := by
    rw [hnet, ← volume_zero, volume_lt]
  have hheld : |state.net| = volume |p.netQuantity| := by rw [hnet, abs_volume]
  have hdust : ∀ next : Int, (|volume next| < dust) = (next = 0) := fun next => propext volume_dust
  unfold applyReportFill
  cases side
  on_goal 2 => simp only [← volume_neg]
  all_goals
    simp only [Side.signed, hflat, hnext, hturned, hbelow, hheld, hdust, min_volume]
    split
    · rename_i hadds
      rw [Bool.or_eq_true, decide_eq_true_iff] at hadds
      exact .inl ⟨hadds, rfl⟩
    · rename_i hcloses
      rw [Bool.or_eq_true, decide_eq_true_iff, not_or, Bool.not_eq_true] at hcloses
      refine .inr ⟨hcloses.1, hcloses.2, _, rfl, ?_⟩
      split
      · rename_i hzero
        exact .inl ⟨hzero, rfl⟩
      · rename_i hleft
        split
        · rename_i hrnd
          rw [Bool.not_eq_true'] at hrnd
          exact .inr (.inl ⟨hleft, hrnd, rfl⟩)
        · rename_i hpart
          rw [Bool.not_eq_true, Bool.not_eq_false'] at hpart
          exact .inr (.inr ⟨hpart, rfl⟩)

/-- How much of a position a fill against it takes. -/
theorem closed_part (hqty : 0 < qty) (hagainst : sameSign p.netQuantity (side.signed qty) = false) :
    (p.netQuantity + side.signed qty = 0 → |p.netQuantity| = qty) ∧ (p.netQuantity + side.signed qty ≠ 0 →
        sameSign p.netQuantity (p.netQuantity + side.signed qty) = false → |p.netQuantity| ≤ qty) ∧
      (sameSign p.netQuantity (p.netQuantity + side.signed qty) = true → qty ≤ |p.netQuantity|) := by
  rw [← Bool.not_eq_true, sameSign_iff] at hagainst
  rw [← Bool.not_eq_true, sameSign_iff]
  cases side with
  | buy =>
    have hsig : Side.buy.signed qty = qty := rfl
    rw [abs_of_nonpos (by omega)]
    omega
  | sell =>
    have hsig : Side.sell.signed qty = -qty := rfl
    rw [abs_of_nonneg (by omega)]
    omega

/-- **The report takes a fill as the ledger does**, and books the same money on it. -/
theorem applyReportFill_matches (side : Side) (price commission : Decimal) (sl tp : Option Decimal)
    (h : state.Matches p) (hqty : 0 < qty) :
    (applyReportFill state side price (volume qty) commission).1.Matches (p.filled side qty price sl tp).1 ∧
      ((applyReportFill state side price (volume qty) commission).2.isSome =
        reduces (volume p.netQuantity) (volume (side.signed qty))) ∧
      ((applyReportFill state side price (volume qty) commission).2.getD 0 -
          ((applyReportFill state side price (volume qty) commission).1.entryCommission - state.entryCommission) =
        (p.filled side qty price sl tp).2 - commission) := by
  have hreduces : reduces (volume p.netQuantity) (volume (side.signed qty)) =
      (p.netQuantity ≠ 0 && !sameSign p.netQuantity (side.signed qty) : Bool) := by
    unfold reduces
    rw [sameDirection_volume]
    congr 1
    rw [decide_eq_decide, not_iff_not, volume_eq_zero]
  have hvqty : volume qty ≠ 0 := volume_ne_zero (by omega)
  rw [hreduces]
  rcases applyReportFill_cases side qty price commission h.net with ⟨hadds, hrpt⟩ | ⟨hopen, hagainst, pnl, hpnl, hrpt⟩
  -- opened or added to: nothing is realized, and the entry bears the commission
  · rcases filled_cases p side qty price sl tp with ⟨-, hldg⟩ | ⟨hopen, hagainst, -⟩
    · rw [hrpt, hldg]
      refine ⟨⟨rfl, ?_⟩, ?_, ?_⟩
      · rw [h.average]
      · rcases hadds with hzero | hsame
        · rw [decide_eq_false (not_not.mpr hzero)]
          rfl
        · rw [hsame, Bool.not_true, Bool.and_false]
          rfl
      · dsimp only [Option.getD]
        ring
    · rcases hadds with hzero | hsame
      · exact absurd hzero hopen
      · rw [hsame] at hagainst
        cases hagainst
  · obtain ⟨hwho, hturn, hpart⟩ := closed_part hqty hagainst
    have hvnet : volume |p.netQuantity| ≠ 0 := volume_ne_zero (abs_ne_zero.mpr hopen)
    have hreduced : (p.netQuantity ≠ 0 && !sameSign p.netQuantity (side.signed qty) : Bool) = true := by
      rw [decide_eq_true hopen, hagainst]
      rfl
    rw [h.average] at hpnl
    have hrealized : pnl = p.realizedBy qty price -
        (state.entryCommission * volume (min |p.netQuantity| qty) / volume |p.netQuantity| +
          commission * volume (min |p.netQuantity| qty) / volume qty) := hpnl
    rcases filled_cases p side qty price sl tp with ⟨hadds, -⟩ | ⟨-, -, hldg⟩
    · rcases hadds with hzero | hsame
      · exact absurd hzero hopen
      · rw [hsame] at hagainst
        cases hagainst
    · rw [hreduced]
      rcases hrpt with ⟨hflat, hrpt⟩ | ⟨hleft, hrnd, hrpt⟩ | ⟨hsame, hrpt⟩
      · -- taken down to nothing: the whole entry commission is booked
        rcases hldg with ⟨-, hldg⟩ | ⟨hleft, -⟩ | ⟨hsame, -⟩
        · have hsize := hwho hflat
          rw [hrpt, hldg]
          refine ⟨⟨volume_zero.symm, rfl⟩, rfl, ?_⟩
          dsimp only [Option.getD, ReportPositionState.flat]
          rw [hrealized, hsize, min_self, mul_div_cancel_right₀ _ hvqty, mul_div_cancel_right₀ _ hvqty]
          ring
        · exact absurd hflat hleft
        · rw [hflat, sameSign_iff] at hsame
          omega
      · -- turned round: the rest of the commission opens the new position
        rcases hldg with ⟨hflat, -⟩ | ⟨-, -, hldg⟩ | ⟨hsame, -⟩
        · exact absurd hflat hleft
        · rw [hrpt, hldg]
          refine ⟨⟨rfl, rfl⟩, rfl, ?_⟩
          dsimp only [Option.getD]
          rw [hrealized, min_eq_left (hturn hleft hrnd), mul_div_cancel_right₀ _ hvnet]
          ring
        · rw [hsame] at hrnd
          cases hrnd
      · -- a part of it: so much of the entry commission is booked
        rcases hldg with ⟨hflat, -⟩ | ⟨-, hrnd, -⟩ | ⟨-, hldg⟩
        · rw [hflat, sameSign_iff] at hsame
          omega
        · rw [hsame] at hrnd
          cases hrnd
        · rw [hrpt, hldg]
          refine ⟨⟨rfl, h.average⟩, rfl, ?_⟩
          dsimp only [Option.getD]
          rw [hrealized, min_eq_right (hpart hsame), mul_div_cancel_right₀ _ hvqty]
          ring

end Fill

/-! ## Many fills -/

/-- A fill as the report has taken it: the state it leaves, and what it booked if it closed. -/
structure Visit where
  trackId : Uuid
  state : ReportPositionState
  closed : Option Decimal
deriving DecidableEq

def visitOf (states : Uuid → ReportPositionState) (row : FillRow × Side) : Visit :=
  let taken := applyReportFill (states row.1.trackId) row.2 row.1.price (volume row.1.quantity)
    row.1.commission
  ⟨row.1.trackId, taken.1, taken.2⟩

/-- The states of the tracks after a visit. -/
def visited (states : Uuid → ReportPositionState) (visit : Visit) : Uuid → ReportPositionState :=
  fun id => if id = visit.trackId then visit.state else states id

def visits (states : Uuid → ReportPositionState) : List (FillRow × Side) → List Visit
  | [] => []
  | row :: rest => visitOf states row :: visits (visited states (visitOf states row)) rest

def statesAfter (states : Uuid → ReportPositionState) (rows : List (FillRow × Side)) :
    Uuid → ReportPositionState :=
  (visits states rows).foldl visited states

def sidesMade (rows : List (FillRow × OrderRow)) : List (FillRow × Side) :=
  rows.map fun row => (row.1, row.2.side)

section Visits

variable {states other : Uuid → ReportPositionState} {rows more : List (FillRow × Side)} {k : Uuid}

theorem statesAfter_cons (row : FillRow × Side) (rows : List (FillRow × Side)) :
    statesAfter states (row :: rows) = statesAfter (visited states (visitOf states row)) rows := rfl

/-- The visits of a longer list end with those of its last part. -/
theorem visits_append : visits states (rows ++ more) = visits states rows ++ visits (statesAfter states rows) more := by
  induction rows generalizing states with
  | nil => rfl
  | cons row rows ih =>
    rw [cons_append, visits, ih, visits, cons_append, statesAfter_cons]

theorem statesAfter_append : statesAfter states (rows ++ more) = statesAfter (statesAfter states rows) more := by
  unfold statesAfter
  rw [visits_append, foldl_append]
  rfl

/-- **The visits of a track are those of its own fills.** -/
theorem ofKey_visits (h : states k = other k) :
    ofKey (·.trackId) k (visits states rows) = visits other (ofKey (·.1.trackId) k rows) ∧
      statesAfter states rows k = statesAfter other (ofKey (·.1.trackId) k rows) k := by
  induction rows generalizing states other with
  | nil => exact ⟨rfl, h⟩
  | cons row rows ih =>
    by_cases hk : row.1.trackId = k
    · have hsame : visitOf states row = visitOf other row := by
        unfold visitOf
        rw [hk, h]
      have hnext : visited states (visitOf states row) k = visited other (visitOf other row) k := by
        rw [hsame]
        unfold visited
        split
        · rfl
        · exact h
      obtain ⟨hvisits, hstates⟩ := ih hnext
      have hrow : ofKey (fun row : FillRow × Side => row.1.trackId) k (row :: rows) =
          row :: ofKey (fun row : FillRow × Side => row.1.trackId) k rows :=
        filter_cons_of_pos (decide_eq_true hk)
      have hvisit : ∀ more, ofKey Visit.trackId k (visitOf states row :: more) =
          visitOf states row :: ofKey Visit.trackId k more := ofKey_self hk
      rw [hrow, visits, visits, hvisit, hvisits, hsame, statesAfter_cons, statesAfter_cons, hstates]
      exact ⟨rfl, rfl⟩
    · have hnext : visited states (visitOf states row) k = other k := by
        unfold visited
        rw [if_neg fun hsame => hk hsame.symm]
        exact h
      obtain ⟨hvisits, hstates⟩ := ih hnext
      have hrow : ofKey (fun row : FillRow × Side => row.1.trackId) k (row :: rows) =
          ofKey (fun row : FillRow × Side => row.1.trackId) k rows :=
        filter_cons_of_neg fun hsame => hk (of_decide_eq_true hsame)
      have hvisit : ∀ more, ofKey Visit.trackId k (visitOf states row :: more) = ofKey Visit.trackId k more := ofKey_other hk
      rw [hrow, visits, hvisit, statesAfter_cons]
      exact ⟨hvisits, hstates⟩

/-- **Fills in another order that is the same on every track** are visited alike on every track. -/
theorem visits_perm (h : ∀ k, ofKey (·.1.trackId) k rows = ofKey (·.1.trackId) k more) :
    (∀ k, ofKey (·.trackId) k (visits states rows) = ofKey (·.trackId) k (visits states more)) ∧
      (visits states rows).Perm (visits states more) ∧ statesAfter states rows = statesAfter states more := by
  have hvisits : ∀ k, ofKey (·.trackId) k (visits states rows) = ofKey (·.trackId) k (visits states more) := by
    intro k
    rw [(ofKey_visits (k := k) rfl).1, h, ← (ofKey_visits (k := k) rfl).1]
  refine ⟨hvisits, perm_of_ofKey hvisits, funext fun k => ?_⟩
  rw [(ofKey_visits (k := k) rfl).2, h, ← (ofKey_visits (k := k) rfl).2]

theorem tally_closedTrades (rows : List (FillRow × OrderRow)) (tally : ReportTally) :
    (rows.foldl ReportTally.after tally).closedTrades = tally.closedTrades +
      (visits tally.states (sidesMade rows)).countP (·.closed.isSome) := by
  induction rows generalizing tally with
  | nil => rfl
  | cons row rows ih =>
    have hstates : (tally.after row).states = visited tally.states (visitOf tally.states (row.1, row.2.side)) := by
      unfold ReportTally.after
      dsimp only
      split
      · rfl
      · split <;> rfl
    have hclsd : (tally.after row).closedTrades = tally.closedTrades +
        if (visitOf tally.states (row.1, row.2.side)).closed.isSome then 1 else 0 := by
      unfold ReportTally.after visitOf
      dsimp only
      split
      · rename_i hnone
        simp [hnone]
      · rename_i pnl hsome
        split <;> simp [hsome]
    have hsides : sidesMade (row :: rows) = (row.1, row.2.side) :: sidesMade rows := rfl
    rw [foldl_cons, ih, hstates, hclsd, hsides, visits, countP_cons]
    omega

end Visits

end MarketLens.Replay
