import MarketLens.Lib.Walk
import MarketLens.Replay.Trading

/-!
# The path a row is traded along

A row tells four prices and no path. The declared one goes from the open to the
low, the high and the close when the row closes at or above its open, and to the
high before the low otherwise. An order fills where this path first passes its
level, a position leaves where it first passes one of its brackets, and a
stop-limit order is a limit order from the point on where its stop was touched, on
that row and on every later one.
-/

namespace MarketLens.Replay

open Option Bar PositionRow Walk

/-- A row as its table checks it: the high and the low bound the open and the close. -/
structure Bar.Sound (bar : Bar) : Prop where
  openBelow : bar.open ≤ bar.high
  closeBelow : bar.close ≤ bar.high
  openAbove : bar.low ≤ bar.open
  closeAbove : bar.low ≤ bar.close

/-- The row closes at or above its open. -/
def Bar.bullish (bar : Bar) : Bool := bar.open ≤ bar.close

/-- The turning points after the open. -/
def Bar.path (bar : Bar) : List Decimal :=
  if bar.bullish then [bar.low, bar.high, bar.close] else [bar.high, bar.low, bar.close]

/-! ## Orders -/

/-- A buyer's limit is passed downwards, a seller's upwards. -/
def limitLevel (side : Side) (limit : Decimal) : Level Decimal := ⟨limit, side = .sell⟩

/-- A buyer's stop is passed upwards, a seller's downwards. -/
def stopLevel (side : Side) (stop : Decimal) : Level Decimal := ⟨stop, side = .buy⟩

def stopTouched (side : Side) (stop : Decimal) (rows : List Bar) : Bool :=
  rows.any fun row => (touch (stopLevel side stop) row.open row.path).isSome

/-- Where a stop-limit order fills. It rests as a limit order once its stop was touched. -/
def walkStopLimit (side : Side) (stop limit : Decimal) (earlier : List Bar) (bar : Bar) :
    Option Decimal :=
  if stopTouched side stop earlier then touch (limitLevel side limit) bar.open bar.path
  else (touchAt (stopLevel side stop) bar.open bar.path).bind fun (reached, rest) =>
    touch (limitLevel side limit) reached rest

/-- Where a working order fills on a row along the path, after the rows it has seen before. -/
def walkOrder (order : OrderRow) (earlier : List Bar) (bar : Bar) : Option Decimal :=
  match order.orderType with
  | .market => none
  | .limit => order.limitPrice.bind fun limit =>
      touch (limitLevel order.side limit) bar.open bar.path
  | .stop => order.stopPrice.bind fun stop => touch (stopLevel order.side stop) bar.open bar.path
  | .stopLimit => order.stopPrice.bind fun stop => order.limitPrice.bind fun limit =>
      walkStopLimit order.side stop limit earlier bar

/-! ## Brackets -/

section
variable (p : PositionRow)

/-- The bracket below a position: where a long one stops and a short one takes profit. -/
def PositionRow.lowerBracket : Option Decimal :=
  if 0 < p.netQuantity then p.stopLoss else p.takeProfit

def PositionRow.upperBracket : Option Decimal :=
  if 0 < p.netQuantity then p.takeProfit else p.stopLoss

/-- Where a row takes a position out along the path. -/
def walkBracket (bar : Bar) : Option Decimal :=
  if p.netQuantity = 0 then none else leave p.lowerBracket p.upperBracket bar.open bar.path

/-- The bracket an outcome names is passed at its price. -/
def PositionRow.leftBy (price : Decimal) (kind : String) : Bool :=
  (p.lowerBracket.any (price ≤ ·) && kind = (if 0 < p.netQuantity then "stop_loss" else "take_profit"))
    || (p.upperBracket.any (· ≤ price)
      && kind = (if 0 < p.netQuantity then "take_profit" else "stop_loss"))

/-- `bracketPrice` decides along the path: it fills where the path leaves the brackets, in the name of
one that is passed there. -/
def BracketFollows (bar : Bar) : Prop :=
  (bracketPrice p bar).map Prod.fst = walkBracket p bar ∧
    ∀ outcome ∈ bracketPrice p bar, p.leftBy outcome.1 outcome.2 = true

/-! ## Where the rules follow the path -/

/-- When both brackets lie within the row, the open has not passed the one that the path comes to
second, unless it has passed the other one too. -/
def OpenLeavesOrder (bar : Bar) : Prop :=
  p.netQuantity ≠ 0 → ∀ lower ∈ p.lowerBracket, ∀ upper ∈ p.upperBracket,
    bar.low ≤ lower → upper ≤ bar.high →
      if bar.bullish then upper ≤ bar.open → bar.open ≤ lower
      else bar.open ≤ lower → upper ≤ bar.open

end

/-- The extreme of a row in the direction a level is passed. -/
def Bar.extreme (bar : Bar) (level : Level Decimal) : Decimal :=
  if level.above then bar.high else bar.low

/-- The path comes to the extreme of this level first. -/
def Bar.visitsFirst (bar : Bar) (level : Level Decimal) : Bool := level.above != bar.bullish

/-- The stop, if it matters at all, is touched on this row and not before, and the limit is filled
at its own price by the row's extreme after that. -/
def RestsWithinRow (side : Side) (stop limit : Decimal) (earlier : List Bar) (bar : Bar) : Prop :=
  let trigger := stopLevel side stop
  let resting := limitLevel side limit
  let fills := resting.passed (bar.extreme resting) = true
  let plain := resting.passed bar.open = true → bar.open = limit
  if stopTouched side stop earlier then
    fills → trigger.passed (bar.extreme trigger) = true ∧ plain
  else if trigger.passed bar.open then fills → plain
  else trigger.passed (bar.extreme trigger) = true →
    if resting.passed stop then stop = limit
    else bar.visitsFirst trigger = true ∨ (fills → resting.passed bar.close = true)

/-- A stop-limit order rests within the row; nothing is asked of another order. -/
def OrderRests (order : OrderRow) (earlier : List Bar) (bar : Bar) : Prop :=
  order.orderType = .stopLimit → ∀ stop ∈ order.stopPrice, ∀ limit ∈ order.limitPrice,
    RestsWithinRow order.side stop limit earlier bar

variable {bar : Bar}

theorem Bar.Sound.within (h : bar.Sound) :
    (bar.low ≤ bar.open ∧ bar.open ≤ bar.high) ∧ ∀ p ∈ bar.path, bar.low ≤ p ∧ p ≤ bar.high := by
  refine ⟨⟨h.openAbove, h.openBelow⟩, fun p hp => ?_⟩
  have hlow : bar.low ≤ bar.high := h.openAbove.trans h.openBelow
  unfold path at hp
  split at hp <;> simp only [List.mem_cons, List.not_mem_nil, or_false] at hp <;>
    rcases hp with rfl | rfl | rfl
  · exact ⟨le_rfl, hlow⟩
  · exact ⟨hlow, le_rfl⟩
  · exact ⟨h.closeAbove, h.closeBelow⟩
  · exact ⟨hlow, le_rfl⟩
  · exact ⟨le_rfl, hlow⟩
  · exact ⟨h.closeAbove, h.closeBelow⟩

/-- A fill along the path is a price the row traded at. -/
theorem walkOrder_within {order : OrderRow} {earlier : List Bar} {price : Decimal} (h : bar.Sound)
    (hwalk : walkOrder order earlier bar = some price) : bar.low ≤ price ∧ price ≤ bar.high := by
  obtain ⟨hopen, hpath⟩ := h.within
  unfold walkOrder at hwalk
  split at hwalk
  · cases hwalk
  · obtain ⟨limit, -, hwalk⟩ := bind_eq_some_iff.mp hwalk
    exact touch_within hopen hpath hwalk
  · obtain ⟨stop, -, hwalk⟩ := bind_eq_some_iff.mp hwalk
    exact touch_within hopen hpath hwalk
  · obtain ⟨stop, -, hwalk⟩ := bind_eq_some_iff.mp hwalk
    obtain ⟨limit, -, hwalk⟩ := bind_eq_some_iff.mp hwalk
    unfold walkStopLimit at hwalk
    split at hwalk
    · exact touch_within hopen hpath hwalk
    · obtain ⟨⟨reached, rest⟩, htouch, hwalk⟩ := bind_eq_some_iff.mp hwalk
      obtain ⟨hreached, hrest⟩ := touchAt_within hopen hpath htouch
      exact touch_within hreached hrest hwalk

theorem walkBracket_within {p : PositionRow} {price : Decimal} (h : bar.Sound)
    (hwalk : walkBracket p bar = some price) : bar.low ≤ price ∧ price ≤ bar.high := by
  obtain ⟨hopen, hpath⟩ := h.within
  unfold walkBracket at hwalk
  split at hwalk
  · cases hwalk
  · exact leave_within hopen hpath hwalk

/-! ## The path of a row, read off its prices -/

theorem touch_path (h : bar.Sound) (level : Level Decimal) : touch level bar.open bar.path =
    if level.passed bar.open then some bar.open
    else if level.passed (bar.extreme level) then some level.price else none := by
  obtain ⟨hopenBelow, hcloseBelow, hopenAbove, hcloseAbove⟩ := h
  unfold touch path extreme
  cases hbull : bar.bullish <;> cases habo : level.above <;> grind [touchAt, Level.passed]

theorem touchAt_path (h : bar.Sound) (level : Level Decimal) : touchAt level bar.open bar.path =
    if level.passed bar.open then some (bar.open, bar.path)
    else if level.passed (bar.extreme level) then
      some (level.price, if bar.visitsFirst level then bar.path else bar.path.tail)
    else none := by
  obtain ⟨hopenBelow, hcloseBelow, hopenAbove, hcloseAbove⟩ := h
  unfold path extreme visitsFirst
  cases hbull : bar.bullish <;> cases habo : level.above <;> grind [touchAt, Level.passed]

theorem leave_path (h : bar.Sound) (lower upper : Option Decimal) :
    leave lower upper bar.open bar.path =
      if lower.any (bar.open ≤ ·) || upper.any (· ≤ bar.open) then some bar.open
      else if lower.any (bar.low ≤ ·) && (bar.bullish || !upper.any (· ≤ bar.high)) then lower
      else if upper.any (· ≤ bar.high) then upper else none := by
  obtain ⟨hopenBelow, hcloseBelow, hopenAbove, hcloseAbove⟩ := h
  unfold path
  cases hbull : bar.bullish <;> cases lower <;> cases upper <;> grind [leave]

/-! ## Orders along the path -/

section Orders

variable {order : OrderRow} {side : Side} {stop limit : Decimal} {earlier : List Bar}

theorem limit_follows (h : bar.Sound) (htype : order.orderType = .limit) :
    triggerPrice order bar = walkOrder order earlier bar := by
  unfold triggerPrice walkOrder
  rw [htype]
  have hwthn := h.within.1
  cases order.side <;> dsimp only <;> congr 1 <;> funext limit <;> rw [touch_path h] <;>
    simp only [limitLevel, Level.passed, extreme] <;> grind

theorem stop_follows (h : bar.Sound) (htype : order.orderType = .stop) :
    triggerPrice order bar = walkOrder order earlier bar := by
  unfold triggerPrice walkOrder
  rw [htype]
  have hwthn := h.within.1
  cases order.side <;> dsimp only <;> congr 1 <;> funext stop <;> rw [touch_path h] <;>
    simp only [stopLevel, Level.passed, extreme] <;> grind

theorem triggerPrice_stopLimit (htype : order.orderType = .stopLimit)
    (hstop : order.stopPrice = some stop) (hlimit : order.limitPrice = some limit) :
    triggerPrice order bar =
      if (stopLevel order.side stop).passed (bar.extreme (stopLevel order.side stop))
          && (limitLevel order.side limit).passed (bar.extreme (limitLevel order.side limit))
        then some limit else none := by
  unfold triggerPrice
  rw [htype, hstop, hlimit]
  cases order.side <;> rfl

/-- What a resting limit order has left of the row that touched its stop. -/
theorem touch_afterStop (h : bar.Sound) (hopen : (stopLevel side stop).passed bar.open = false)
    (hrch : (stopLevel side stop).passed (bar.extreme (stopLevel side stop)) = true) :
    touch (limitLevel side limit) stop (if bar.visitsFirst (stopLevel side stop) then bar.path else bar.path.tail) =
      if (limitLevel side limit).passed stop then some stop
      else if (if bar.visitsFirst (stopLevel side stop)
          then (limitLevel side limit).passed (bar.extreme (limitLevel side limit))
          else (limitLevel side limit).passed bar.close) then some limit else none := by
  obtain ⟨hopenBelow, hcloseBelow, hopenAbove, hcloseAbove⟩ := h
  unfold touch path extreme visitsFirst
  cases hbull : bar.bullish <;> cases side <;>
    simp only [stopLevel, limitLevel, Level.passed, extreme] at hopen hrch ⊢ <;>
    grind [touchAt, Level.passed]

theorem limit_extreme (side : Side) (limit : Decimal) {point : Decimal} (hpoint : bar.low ≤ point ∧ point ≤ bar.high)
    (hpass : (limitLevel side limit).passed point = true) :
    (limitLevel side limit).passed (bar.extreme (limitLevel side limit)) = true := by
  cases side <;> simp only [limitLevel, Level.passed, extreme] at hpass ⊢ <;> grind

theorem stopLimit_follows (h : bar.Sound) (htype : order.orderType = .stopLimit)
    (hstop : order.stopPrice = some stop) (hlimit : order.limitPrice = some limit) :
    triggerPrice order bar = walkStopLimit order.side stop limit earlier bar ↔
      RestsWithinRow order.side stop limit earlier bar := by
  rw [triggerPrice_stopLimit htype hstop hlimit]
  unfold walkStopLimit RestsWithinRow
  have hopenLimit := limit_extreme order.side limit h.within.1
  cases harmed : stopTouched order.side stop earlier with
  | true =>
    rw [if_pos rfl, if_pos rfl, touch_path h]
    grind [limitLevel]
  | false =>
    rw [if_neg Bool.false_ne_true, if_neg Bool.false_ne_true, touchAt_path h]
    cases hopen : (stopLevel order.side stop).passed bar.open with
    | true =>
      -- the stop is touched at the open, and so at the extreme
      have hrch : (stopLevel order.side stop).passed (bar.extreme (stopLevel order.side stop)) = true := by
        have hwthn := h.within.1
        cases hside : order.side <;> simp only [hside, stopLevel, Level.passed, extreme] at hopen ⊢ <;>
          grind
      rw [if_pos rfl, if_pos rfl, Option.bind_some]
      dsimp only
      rw [touch_path h, hrch]
      grind [limitLevel]
    | false =>
      rw [if_neg Bool.false_ne_true, if_neg Bool.false_ne_true]
      cases hrch : (stopLevel order.side stop).passed (bar.extreme (stopLevel order.side stop)) with
      | false => simp
      | true =>
        rw [if_pos rfl, Option.bind_some]
        dsimp only
        have hprc : (stopLevel order.side stop).price = stop := rfl
        have hstopLimit : (limitLevel order.side limit).passed stop = true →
            (limitLevel order.side limit).passed (bar.extreme (limitLevel order.side limit)) = true := by
          have hwthn := h.within.1
          cases hside : order.side <;>
            simp only [hside, stopLevel, limitLevel, Level.passed, extreme] at hopen hrch ⊢ <;> grind
        have hcloseLimit := limit_extreme order.side limit ⟨h.closeAbove, h.closeBelow⟩
        rw [hprc, touch_afterStop h hopen hrch]
        grind

theorem order_follows (h : bar.Sound) (order : OrderRow) (earlier : List Bar) :
    triggerPrice order bar = walkOrder order earlier bar ↔ OrderRests order earlier bar := by
  unfold OrderRests
  cases htype : order.orderType with
  | market =>
    refine iff_of_true ?_ nofun
    unfold triggerPrice walkOrder
    rw [htype]
  | limit => exact iff_of_true (limit_follows h htype) nofun
  | stop => exact iff_of_true (stop_follows h htype) nofun
  | stopLimit =>
    unfold walkOrder
    rw [htype]
    cases hstop : order.stopPrice with
    | none =>
      refine iff_of_true ?_ nofun
      unfold triggerPrice
      rw [htype, hstop]
      cases order.side <;> rfl
    | some stop =>
      cases hlimit : order.limitPrice with
      | none =>
        refine iff_of_true ?_ nofun
        unfold triggerPrice
        rw [htype, hstop, hlimit]
        cases order.side <;> rfl
      | some limit =>
        refine (stopLimit_follows h htype hstop hlimit).trans ⟨fun hrests _ _ hs _ hl => ?_, fun hrests => ?_⟩
        · cases hs
          cases hl
          exact hrests
        · exact hrests rfl stop rfl limit rfl

end Orders

/-! ## Brackets along the path -/

theorem bracketPrice_leftBy {p : PositionRow} {outcome : Decimal × String}
    (h : bracketPrice p bar = some outcome) : p.leftBy outcome.1 outcome.2 = true := by
  unfold bracketPrice at h
  unfold leftBy lowerBracket upperBracket
  cases hstop : p.stopLoss <;> cases htgt : p.takeProfit <;> grind [gapOrLevel]

theorem bracketPrice_follows (h : bar.Sound) (p : PositionRow) :
    (bracketPrice p bar).map Prod.fst = walkBracket p bar ↔ OpenLeavesOrder p bar := by
  unfold bracketPrice walkBracket OpenLeavesOrder lowerBracket upperBracket
  rw [leave_path h]
  obtain ⟨hopenBelow, hcloseBelow, hopenAbove, hcloseAbove⟩ := h
  rcases lt_trichotomy p.netQuantity 0 with hnet | hnet | hnet
  · cases hstop : p.stopLoss <;> cases htgt : p.takeProfit <;> cases hbull : bar.bullish <;>
      simp [bullish, gapOrLevel, hnet.ne] at * <;> grind
  · simp [hnet]
  · cases hstop : p.stopLoss <;> cases htgt : p.takeProfit <;> cases hbull : bar.bullish <;>
      simp [bullish, gapOrLevel, hnet.ne'] at * <;> grind

theorem bracket_follows (h : bar.Sound) (p : PositionRow) : BracketFollows p bar ↔ OpenLeavesOrder p bar :=
  ⟨fun hfoll => (bracketPrice_follows h p).mp hfoll.1, fun hord =>
    ⟨(bracketPrice_follows h p).mpr hord, fun _ => bracketPrice_leftBy⟩⟩

/-- **The fill rules walk the declared path** exactly where the open does not overtake the path's
order of the brackets and a stop-limit order rests within the row; and every fill on the path is a
price of the row. -/
theorem fills_follow_path (h : bar.Sound) : (∀ p, BracketFollows p bar ↔ OpenLeavesOrder p bar) ∧
    (∀ order earlier, triggerPrice order bar = walkOrder order earlier bar ↔ OrderRests order earlier bar) ∧
    (∀ p price, walkBracket p bar = some price → bar.low ≤ price ∧ price ≤ bar.high) ∧
    ∀ order earlier price, walkOrder order earlier bar = some price → bar.low ≤ price ∧ price ≤ bar.high :=
  ⟨bracket_follows h, order_follows h, fun _ _ => walkBracket_within h, fun _ _ _ => walkOrder_within h⟩

/-! A row that opens beyond the target of a long position and falls to its stop. -/

/-- A row of these four prices. -/
def pricedRow («open» high low close : Decimal) : Bar := ⟨7, 0, 60, «open», high, low, close, 1⟩

/-- A long position between these brackets. -/
def bracketed (stop target : Decimal) : PositionRow :=
  ⟨1, 1, "EURUSD", 1, 100, 0, 0, some stop, some target⟩

def buyStopLimit (stop limit : Decimal) : OrderRow :=
  ⟨1, 1, "breakout", .buy, .stopLimit, .pending, 1, 0, some limit, some stop, none, none, 0⟩

theorem pricedRow_sound : (pricedRow 100 106 94 101).Sound := by
  refine ⟨?_, ?_, ?_, ?_⟩ <;> decide +kernel

/-- Within its brackets at the open, the position leaves through the stop the path reaches first. -/
theorem stop_before_target :
    BracketFollows (bracketed 95 105) (pricedRow 100 106 94 101) ∧
      bracketPrice (bracketed 95 105) (pricedRow 100 106 94 101) = some (95, "stop_loss") := by
  refine ⟨((fills_follow_path pricedRow_sound).1 _).mpr ?_, by decide +kernel⟩
  intro _ lower hlower upper hupper _ _
  cases hlower
  cases hupper
  decide +kernel

/-- The gap over the target fills at the stop, and a limit beyond the row fills outside it. -/
theorem gap_overtaken : (pricedRow 106 107 94 (213 / 2)).Sound ∧
      ¬ BracketFollows (bracketed 95 105) (pricedRow 106 107 94 (213 / 2)) ∧
      triggerPrice (buyStopLimit 100 105) (pricedRow 99 101 98 100) = some 105 ∧
      walkOrder (buyStopLimit 100 105) [] (pricedRow 99 101 98 100) = some 100 := by
  refine ⟨⟨?_, ?_, ?_, ?_⟩, ?_, ?_, ?_⟩
  · decide +kernel
  · decide +kernel
  · decide +kernel
  · decide +kernel
  · rintro ⟨hprc, -⟩
    revert hprc
    decide +kernel
  · decide +kernel
  · decide +kernel

/-- A stop touched on one row is a limit order on the next. -/
example : walkOrder (buyStopLimit 100 98) [pricedRow 99 101 99 100] (pricedRow 99 99 97 98) = some 98 ∧
    triggerPrice (buyStopLimit 100 98) (pricedRow 99 99 97 98) = none := by decide +kernel

end MarketLens.Replay
