import MarketLens.Replay.Sessions
import MarketLens.Replay.Writes

/-!
# Marks and equity

The unrealized profit of an open position is its quantity times the distance of the
last close from its average price, and the equity of the account is its balance and
what is unrealized. The second half survives every fill and every mark. The first
half survives a step, which marks what it reveals; a fill at the close of the row
under the cursor marks its whole position at nothing, and that is right only when
no part of an older position at another price is left in it.
-/

namespace MarketLens.Replay

open Journal List Fallible Table Runs

/-! ## Quantities -/

theorem volume_add (a b : Int) : volume (a + b) = volume a + volume b := by
  unfold volume
  push_cast
  ring

theorem volume_neg (a : Int) : volume (-a) = -volume a := by
  unfold volume
  push_cast
  ring

variable {a : Int}

theorem volume_pos (h : 0 < a) : 0 < volume a := by
  unfold volume
  positivity

theorem volume_ne_zero (h : a ≠ 0) : volume a ≠ 0 := by
  unfold volume
  positivity

/-- A quantity within the dust is none: the columns are coarser. -/
theorem volume_le_dust : |volume a| ≤ dust ↔ a = 0 := by
  constructor
  · intro h
    by_contra hne
    have hone : (1 : Int) ≤ |a| := Int.one_le_abs hne
    have hcast : (1 : Decimal) ≤ |(a : Decimal)| := by
      exact_mod_cast hone
    unfold volume dust at h
    rw [abs_div, abs_of_pos (by positivity : (0 : Decimal) < 10 ^ 10), div_le_iff₀ (by positivity)] at h
    linarith
  · rintro rfl
    unfold volume dust
    norm_num

theorem volume_dust : |volume a| < dust ↔ a = 0 := by
  refine ⟨fun h => volume_le_dust.mp h.le, ?_⟩
  rintro rfl
  unfold volume dust
  norm_num

theorem sameSign_iff {a b : Int} : sameSign a b = true ↔ (0 < a ∧ 0 < b) ∨ (a < 0 ∧ b < 0) := by
  unfold sameSign
  rw [Bool.or_eq_true, Bool.and_eq_true, Bool.and_eq_true, decide_eq_true_iff, decide_eq_true_iff,
    decide_eq_true_iff, decide_eq_true_iff]

/-! ## One fill of one position -/

/-- What an open position is worth at a close, beyond what it cost. -/
def PositionRow.mark (p : PositionRow) (close : Decimal) : Decimal :=
  (close - p.averagePrice) * volume p.netQuantity

/-- The profit a fill against a position realizes. -/
def PositionRow.realizedBy (p : PositionRow) (qty : Int) (price : Decimal) : Decimal :=
  if p.netQuantity < 0 then -((price - p.averagePrice) * volume (min |p.netQuantity| qty))
  else (price - p.averagePrice) * volume (min |p.netQuantity| qty)

section Filled

variable {p : PositionRow} {side : Side} {qty : Int} {price : Decimal} {sl tp : Option Decimal}

/-- The four outcomes of a fill: it adds to the position, takes it down to nothing, turns it round
or takes a part of it. -/
theorem filled_cases (p : PositionRow) (side : Side) (qty : Int) (price : Decimal) (sl tp : Option Decimal) :
    ((p.netQuantity = 0 ∨ sameSign p.netQuantity (side.signed qty) = true) ∧ p.filled side qty price sl tp = ({ p with
        netQuantity := p.netQuantity + side.signed qty
        averagePrice := (p.averagePrice * volume |p.netQuantity| + price * volume qty) / (volume |p.netQuantity| + volume qty)
        unrealizedPnl := 0
        stopLoss := sl.orElse fun _ => p.stopLoss
        takeProfit := tp.orElse fun _ => p.takeProfit }, 0)) ∨
    (p.netQuantity ≠ 0 ∧ sameSign p.netQuantity (side.signed qty) = false ∧
      ((p.netQuantity + side.signed qty = 0 ∧
          p.filled side qty price sl tp = ({ p with
            netQuantity := 0, averagePrice := 0
            realizedPnl := p.realizedPnl + p.realizedBy qty price, unrealizedPnl := 0
            stopLoss := none, takeProfit := none }, p.realizedBy qty price)) ∨
        (p.netQuantity + side.signed qty ≠ 0 ∧ sameSign p.netQuantity (p.netQuantity + side.signed qty) = false ∧
          p.filled side qty price sl tp = ({ p with
            netQuantity := p.netQuantity + side.signed qty, averagePrice := price
            realizedPnl := p.realizedPnl + p.realizedBy qty price, unrealizedPnl := 0
            stopLoss := sl, takeProfit := tp }, p.realizedBy qty price)) ∨
        (sameSign p.netQuantity (p.netQuantity + side.signed qty) = true ∧ p.filled side qty price sl tp = ({ p with
            netQuantity := p.netQuantity + side.signed qty
            realizedPnl := p.realizedPnl + p.realizedBy qty price, unrealizedPnl := 0 },
            p.realizedBy qty price)))) := by
  unfold PositionRow.filled PositionRow.realizedBy
  dsimp only
  split
  · rename_i hadds
    rw [Bool.or_eq_true, decide_eq_true_iff] at hadds
    exact .inl ⟨hadds, rfl⟩
  · rename_i hcloses
    rw [Bool.or_eq_true, decide_eq_true_iff, not_or, Bool.not_eq_true] at hcloses
    refine .inr ⟨hcloses.1, hcloses.2, ?_⟩
    split
    · rename_i hdust
      exact .inl ⟨volume_dust.mp hdust, rfl⟩
    · rename_i hleft
      rw [volume_dust] at hleft
      split
      · rename_i hturned
        rw [Bool.not_eq_true'] at hturned
        exact .inr (.inl ⟨hleft, hturned, rfl⟩)
      · rename_i hpart
        rw [Bool.not_eq_true, Bool.not_eq_false'] at hpart
        exact .inr (.inr ⟨hpart, rfl⟩)

theorem filled_same : (p.filled side qty price sl tp).1.id = p.id ∧ (p.filled side qty price sl tp).1.trackId = p.trackId ∧
    (p.filled side qty price sl tp).1.symbol = p.symbol ∧
    (p.filled side qty price sl tp).1.unrealizedPnl = 0 := by
  rcases filled_cases p side qty price sl tp with ⟨-, h⟩ | ⟨-, -, ⟨-, h⟩ | ⟨-, -, h⟩ | ⟨-, h⟩⟩ <;>
    rw [h] <;> exact ⟨rfl, rfl, rfl, rfl⟩

theorem filled_net : (p.filled side qty price sl tp).1.netQuantity = p.netQuantity + side.signed qty := by
  rcases filled_cases p side qty price sl tp with
    ⟨-, h⟩ | ⟨-, -, ⟨hflat, h⟩ | ⟨-, -, h⟩ | ⟨-, h⟩⟩ <;> rw [h]
  exact hflat.symm

theorem blend_mark (average price held added : Decimal) (hheld : 0 ≤ held) (hadded : 0 < added) :
    (price - (average * held + price * added) / (held + added)) * (held + added) = (price - average) * held := by
  field_simp
  ring

theorem abs_add_signed (hqty : 0 < qty) (hsign : p.netQuantity = 0 ∨ sameSign p.netQuantity (side.signed qty) = true) :
    |p.netQuantity + side.signed qty| = |p.netQuantity| + qty := by
  rw [sameSign_iff] at hsign
  cases side with
  | buy =>
    have hnonneg : 0 ≤ p.netQuantity := by
      rcases hsign with hzero | hboth | ⟨-, hneg⟩
      · omega
      · omega
      · have hneg : qty < 0 := hneg
        omega
    have hsum : Side.buy.signed qty = qty := rfl
    rw [hsum, abs_of_nonneg hnonneg, abs_of_nonneg (by omega)]
  | sell =>
    have hnonpos : p.netQuantity ≤ 0 := by
      rcases hsign with hzero | ⟨-, hpos⟩ | hboth
      · omega
      · have hpos : 0 < -qty := hpos
        omega
      · omega
    have hsum : Side.sell.signed qty = -qty := rfl
    rw [hsum, abs_of_nonpos hnonpos, abs_of_nonpos (by omega)]
    omega

/-- A product with a quantity vanishes with the product with its size. -/
theorem mul_volume_eq_zero {x : Decimal} : x * volume a = 0 ↔ x * volume |a| = 0 := by
  rcases abs_choice a with habs | habs
  · rw [habs]
  · rw [habs, volume_neg, mul_neg, neg_eq_zero]

/-- **A fill leaves a position that is worth nothing at its price, except for an older part of
another price.** -/
theorem filled_mark_eq_zero (hqty : 0 < qty) :
    (p.filled side qty price sl tp).1.mark price = 0 ↔
      (sameSign p.netQuantity (p.netQuantity + side.signed qty) = true → p.averagePrice = price) := by
  have hvacuous : ∀ {x : Decimal}, sameSign p.netQuantity (p.netQuantity + side.signed qty) = false →
      x = 0 → (x = 0 ↔ (sameSign p.netQuantity (p.netQuantity + side.signed qty) = true → p.averagePrice = price)) := by
    intro x hsign hx
    rw [hsign]
    exact ⟨fun _ hfalse => absurd hfalse Bool.false_ne_true, fun _ => hx⟩
  rcases filled_cases p side qty price sl tp with
    ⟨hadds, h⟩ | ⟨hne, hopposite, ⟨hflat, h⟩ | ⟨hleft, hturned, h⟩ | ⟨hpart, h⟩⟩ <;> rw [h] <;> unfold PositionRow.mark <;> dsimp only
  · -- the position is added to: what it was worth before is what it is worth now
    have hblend := blend_mark p.averagePrice price (volume |p.netQuantity|) (volume qty)
      (by unfold volume; positivity) (volume_pos hqty)
    rw [mul_volume_eq_zero, abs_add_signed hqty hadds, volume_add, hblend]
    rcases hadds with hzero | hsame
    · refine hvacuous ?_ ?_
      · rw [Bool.eq_false_iff, Ne, sameSign_iff]
        omega
      · rw [hzero, abs_zero]
        unfold volume
        norm_num
    · have hkept : sameSign p.netQuantity (p.netQuantity + side.signed qty) = true := by
        rw [sameSign_iff] at hsame ⊢
        omega
      have hheld : volume |p.netQuantity| ≠ 0 := by
        refine volume_ne_zero ?_
        rw [sameSign_iff] at hsame
        rw [abs_ne_zero]
        omega
      rw [mul_eq_zero, or_iff_left hheld, sub_eq_zero, eq_comm]
      exact ⟨fun heq _ => heq, fun heq => heq hkept⟩
  · refine hvacuous ?_ ?_
    · rw [hflat, Bool.eq_false_iff, Ne, sameSign_iff]
      omega
    · unfold volume
      norm_num
  · exact hvacuous hturned (by rw [sub_self, zero_mul])
  · have hrest : volume (p.netQuantity + side.signed qty) ≠ 0 := by
      refine volume_ne_zero ?_
      rw [sameSign_iff] at hpart
      omega
    rw [mul_eq_zero, or_iff_left hrest, sub_eq_zero, eq_comm]
    exact ⟨fun heq _ => heq, fun heq => heq hpart⟩

end Filled

namespace Ledger

variable {ledger after : Ledger} {drafts : List EventDraft}

/-! ## The account -/

/-- The equity of the account is its balance and what is unrealized. -/
def Balanced (ledger : Ledger) : Prop :=
  ∀ account, ledger.account = some account →
    account.equity = account.balance + (ledger.positions.map (·.unrealizedPnl)).sum

theorem refreshEquity_balanced (ledger : Ledger) : ledger.refreshEquity.Balanced := by
  intro account hacct
  unfold refreshEquity at hacct ⊢
  obtain ⟨old, -, rfl⟩ := Option.map_eq_some_iff.mp hacct
  rfl

/-- Positions have different ids, and the account is balanced. -/
structure Booked (ledger : Ledger) : Prop where
  distinct : (ledger.positions.map (·.id)).Nodup
  balanced : ledger.Balanced

theorem Booked.of_rows {other : Ledger} (h : ledger.Booked)
    (hposs : other.positions = ledger.positions) (hacct : other.account = ledger.account) :
    other.Booked := by
  constructor
  · rw [hposs]
    exact h.distinct
  · unfold Balanced
    rw [hposs, hacct]
    exact h.balanced

/-- Only positions of one track are written. -/
def TouchesOnly (trackId : Uuid) (before after : Ledger) : Prop :=
  ∀ p ∈ after.positions, p.trackId ≠ trackId → p ∈ before.positions

theorem TouchesOnly.refl (trackId : Uuid) (ledger : Ledger) : TouchesOnly trackId ledger ledger :=
  fun _ hp _ => hp

variable {trackId : Uuid}

theorem TouchesOnly.trans {first second third : Ledger}
    (h : TouchesOnly trackId first second) (h' : TouchesOnly trackId second third) :
    TouchesOnly trackId first third :=
  fun p hp hoth => h p (h' p hp hoth) hoth

/-! ## Fills -/

variable {q : PositionRow}

section Fills

variable {fill : FillRequest} {row : FillRow} {p position : PositionRow} {realized : Decimal}
  {base : Ledger}

section Filled

variable (h : Filled ledger fill drafts after row p position realized base)
include h

theorem Filled.position_eq : position = (p.filled fill.side fill.qty fill.price fill.sl fill.tp).1 :=
  congrArg Prod.fst h.moves

theorem Filled.positions : after.positions = updateWhere (fun other => other.id = p.id) (fun _ => position) base.positions := by
  rw [h.rows]
  rfl

theorem Filled.position_id : position.id = p.id := by
  rw [h.position_eq]
  exact filled_same.1

theorem Filled.mem_positions_iff : q ∈ after.positions ↔ q = position ∨ (q ∈ ledger.positions ∧ q.id ≠ p.id) := by
  have hbase : p ∈ base.positions ∧ ∀ q : PositionRow, q.id ≠ p.id → (q ∈ base.positions ↔ q ∈ ledger.positions) := by
    have happ := h.applies
    cases happ with
    | found mem => exact ⟨mem, fun _ _ => Iff.rfl⟩
    | opened =>
      refine ⟨mem_append_right _ mem_cons_self, fun q hoth => ?_⟩
      constructor
      · intro hq
        rcases mem_append.mp hq with hold | hnew
        · exact hold
        · rw [mem_singleton.mp hnew] at hoth
          exact absurd rfl hoth
      · exact fun hold => mem_append_left _ hold
  rw [h.positions, mem_updateWhere]
  constructor
  · rintro ⟨old, hold, hq⟩
    by_cases hid : old.id = p.id
    · rw [decide_eq_true hid, if_pos rfl] at hq
      exact .inl hq
    · rw [decide_eq_false hid, if_neg Bool.false_ne_true] at hq
      rw [hq]
      exact .inr ⟨(hbase.2 old hid).mp hold, hid⟩
  · rintro (rfl | ⟨hold, hid⟩)
    · exact ⟨p, hbase.1, by rw [decide_eq_true rfl, if_pos rfl]⟩
    · exact ⟨q, (hbase.2 q hid).mpr hold, by rw [decide_eq_false hid, if_neg Bool.false_ne_true]⟩

theorem Filled.mem_positions (hq : q ∈ after.positions) : q = position ∨ q ∈ ledger.positions :=
  (h.mem_positions_iff.mp hq).imp_right fun hold => hold.1

theorem Filled.distinct (hids : (ledger.positions.map (·.id)).Nodup) : (after.positions.map (·.id)).Nodup := by
  rw [h.positions, map_updateWhere_of]
  · have happ := h.applies
    cases happ with
    | found => exact hids
    | opened _ newId =>
      exact nodup_insert hids newId
  · intro other hoth
    exact h.position_id.trans (of_decide_eq_true hoth).symm

theorem Filled.booked (hbooked : ledger.Booked) : after.Booked := by
  refine ⟨h.distinct hbooked.distinct, ?_⟩
  rw [h.rows]
  exact refreshEquity_balanced _

theorem Filled.position_track : position.trackId = fill.trackId := by
  rw [h.position_eq, filled_same.2.1]
  exact h.applies.trackId

end Filled

theorem fillOrder_booked (hfill : ledger.fillOrder fill = .ok (drafts, after))
    (h : ledger.Booked) : after.Booked ∧ TouchesOnly fill.trackId ledger after := by
  obtain ⟨-, -, ⟨-, -, rfl⟩ | ⟨row, p, position, realized, base, hfld⟩⟩ := fillOrder_ok hfill
  · exact ⟨h, .refl _ _⟩
  · refine ⟨hfld.booked h, fun q hq hoth => ?_⟩
    rcases hfld.mem_positions hq with rfl | hold
    · exact absurd hfld.position_track hoth
    · exact hold

theorem Inserted.booked {order : OrderRow} {id : Uuid} {placed : Ledger}
    (hins : Inserted ledger order id placed) (h : ledger.Booked) :
    placed.Booked ∧ placed.positions = ledger.positions := by
  have hposs : placed.positions = ledger.positions := by rw [hins.rows]
  exact ⟨h.of_rows hposs (by rw [hins.rows]), hposs⟩

end Fills

/-! ## Revealed rows -/

variable {bar : Bar}

/-- A mark sets the unrealized profit of the open positions of its track, and nothing else. -/
theorem mem_markToMarket (hq : q ∈ (ledger.markToMarket trackId bar).positions) :
    (q.trackId ≠ trackId → q ∈ ledger.positions) ∧
      (q.trackId = trackId → q.netQuantity ≠ 0 → q.unrealizedPnl = q.mark bar.close) := by
  rcases updateWhere_cases hq with ⟨hold, hoth⟩ | ⟨old, hold, hopen, rfl⟩
  · refine ⟨fun _ => hold, fun htrk hnet => ?_⟩
    rw [Bool.and_eq_false_iff, decide_eq_false_iff_not, decide_eq_false_iff_not] at hoth
    rcases hoth with hoth | hoth
    · exact absurd htrk hoth
    · exact absurd hnet hoth
  · rw [Bool.and_eq_true, decide_eq_true_iff] at hopen
    exact ⟨fun hoth => absurd hopen.1 hoth, fun _ _ => rfl⟩

theorem markToMarket_booked (h : ledger.Booked) (bar : Bar) : (ledger.markToMarket trackId bar).Booked := by
  constructor
  · unfold markToMarket refreshEquity
    rw [map_updateWhere_of]
    · exact h.distinct
    · exact fun _ _ => rfl
  · exact refreshEquity_balanced _

theorem processBrackets_booked (h : ledger.Booked) (hproc : ledger.processBrackets trackId bar = .ok (drafts, after)) :
    after.Booked ∧ TouchesOnly trackId ledger after := by
  refine collect_invariant (fun now => now.Booked ∧ TouchesOnly trackId ledger now) ?_ ⟨h, .refl _ _⟩ hproc
  intro now p entries next hp ⟨hbooked, htouches⟩ hrnd
  rcases processBracket_ok hrnd with ⟨-, rfl⟩ | ⟨price, kind, id, placed, filled, -, hins, hfill, -⟩
  · exact ⟨hbooked, htouches⟩
  · obtain ⟨hplaced, hposs⟩ := hins.booked hbooked
    obtain ⟨hnext, hmore⟩ := fillOrder_booked hfill hplaced
    refine ⟨hnext, htouches.trans fun q hq hoth => ?_⟩
    have htrk := (mem_openPositions hp).2.1
    rw [← hposs]
    exact hmore q hq (by rw [htrk]; exact hoth)

variable {symbol : String}

theorem processOrders_booked {orders : List OrderRow} (h : ledger.Booked) (hords : ∀ order ∈ orders, order.trackId = trackId)
    (hproc : collect (processOrder symbol bar) ledger orders = .ok (drafts, after)) :
    after.Booked ∧ TouchesOnly trackId ledger after := by
  refine collect_invariant (fun now => now.Booked ∧ TouchesOnly trackId ledger now) ?_ ⟨h, .refl _ _⟩ hproc
  intro now order entries next hord ⟨hbooked, htouches⟩ hrnd
  rcases processOrder_ok hrnd with ⟨-, rfl⟩ | ⟨price, -, hfill⟩
  · exact ⟨hbooked, htouches⟩
  · obtain ⟨hnext, hmore⟩ := fillOrder_booked hfill hbooked
    refine ⟨hnext, htouches.trans fun q hq hoth => ?_⟩
    exact hmore q hq (by rw [hords order hord]; exact hoth)

theorem processRow_booked (h : ledger.Booked) (hproc : processRow trackId symbol ledger bar = .ok (drafts, after)) :
    after.Booked ∧ TouchesOnly trackId ledger after := by
  obtain ⟨brackets, mid, fills, final, hbrks, hfills, -, rfl⟩ := processRow_ok hproc
  obtain ⟨hmid, htouches⟩ := processBrackets_booked h hbrks
  obtain ⟨hfinal, hmore⟩ := processOrders_booked hmid (fun order hord => (mem_pendingOrders.mp hord).2.1) hfills
  refine ⟨markToMarket_booked hfinal bar, ?_⟩
  exact (htouches.trans hmore).trans fun q hq hoth => (mem_markToMarket hq).1 hoth

theorem processRow_marks (hproc : processRow trackId symbol ledger bar = .ok (drafts, after)) :
    ∀ q ∈ after.positions, q.trackId = trackId → q.netQuantity ≠ 0 → q.unrealizedPnl = q.mark bar.close := by
  obtain ⟨brackets, mid, fills, final, -, -, -, rfl⟩ := processRow_ok hproc
  exact fun q hq => (mem_markToMarket hq).2

/-- A track with nothing at work has no open position. -/
theorem flat_of_inactive (h : ledger.hasActiveMarketState trackId = false) :
    ∀ q ∈ ledger.positions, q.trackId = trackId → q.netQuantity = 0 := by
  intro q hq htrk
  by_contra hopen
  unfold hasActiveMarketState at h
  rw [Bool.or_eq_false_iff] at h
  refine (any_eq_false.mp h.2) q hq ?_
  rw [Bool.and_eq_true, decide_eq_true_iff, decide_eq_true_iff]
  exact ⟨htrk, hopen⟩

/-- **The rows a step reveals on a track leave its open positions marked at the last close.** -/
theorem processRows_marks {front : List Bar} {last : Bar} (h : ledger.Booked)
    (hproc : ledger.processRows trackId symbol (front ++ [last]) = .ok (drafts, after)) :
    after.Booked ∧ TouchesOnly trackId ledger after ∧ ∀ q ∈ after.positions, q.trackId = trackId →
      q.netQuantity ≠ 0 → q.unrealizedPnl = q.mark last.close := by
  unfold processRows at hproc
  split at hproc
  · have hloop : after.Booked ∧ TouchesOnly trackId ledger after := by
      refine collect_invariant (fun now => now.Booked ∧ TouchesOnly trackId ledger now) ?_ ⟨h, .refl _ _⟩ hproc
      intro now bar entries next _ ⟨hbooked, htouches⟩ hrnd
      obtain ⟨hnext, hmore⟩ := processRow_booked hbooked hrnd
      exact ⟨hnext, htouches.trans hmore⟩
    obtain ⟨mid, more, hrnd⟩ := collect_last_ok hproc
    exact ⟨hloop.1, hloop.2, processRow_marks hrnd⟩
  · rename_i hinact
    cases hproc
    rw [Bool.not_eq_true] at hinact
    refine ⟨h, .refl _ _, fun q hq htrk hopen => ?_⟩
    exact absurd (flat_of_inactive hinact q hq htrk) hopen

end Ledger

end MarketLens.Replay
