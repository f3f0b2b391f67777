import MarketLens.Replay.Dataset

/-!
# Chart candles of a replay

Chart candles are built only from the source rows a session has revealed. Rows
are folded into the candle of their bucket in source order; a candle is repainted
by every row of its bucket and once more when a later row proves it has closed.
Buckets are UTC: fixed widths inside a day, calendar days, weeks from Monday, and
calendar months.
-/

namespace MarketLens.Replay

/-! ## Timeframes -/

/-- The keys of `timeframeSeconds`. -/
inductive Timeframe where
  | m1 | m3 | m5 | m15 | m30 | h1 | h2 | h4 | d1 | w1 | mo1
deriving DecidableEq

/-- `timeframeSeconds`. -/
def Timeframe.seconds : Timeframe → Nat
  | .m1 => 60
  | .m3 => 180
  | .m5 => 300
  | .m15 => 900
  | .m30 => 1800
  | .h1 => 3600
  | .h2 => 7200
  | .h4 => 14400
  | .d1 => 86400
  | .w1 => 604800
  | .mo1 => 2592000

def Timeframe.text : Timeframe → String
  | .m1 => "1m"
  | .m3 => "3m"
  | .m5 => "5m"
  | .m15 => "15m"
  | .m30 => "30m"
  | .h1 => "1H"
  | .h2 => "2H"
  | .h4 => "4H"
  | .d1 => "1D"
  | .w1 => "1W"
  | .mo1 => "1M"

/-- `normalizeTimeframe`: only the lower-case aliases are trimmed. -/
def normalizeTimeframe (value : String) : Option Timeframe :=
  match trim value with
  | "1h" => some .h1
  | "2h" => some .h2
  | "4h" => some .h4
  | "1d" => some .d1
  | "1w" => some .w1
  | "1mo" => some .mo1
  | _ =>
    match value with
    | "1m" => some .m1
    | "3m" => some .m3
    | "5m" => some .m5
    | "15m" => some .m15
    | "30m" => some .m30
    | "1H" => some .h1
    | "2H" => some .h2
    | "4H" => some .h4
    | "1D" => some .d1
    | "1W" => some .w1
    | "1M" => some .mo1
    | _ => none

/-! ## Buckets -/

/-- Year and month of a day counted from the Unix epoch, in the proleptic Gregorian calendar. -/
def monthOfDay (day : Int) : Int × Int :=
  let shifted := day + 719468
  let era := shifted / 146097
  let dayOfEra := shifted - era * 146097
  let yearOfEra := (dayOfEra - dayOfEra / 1460 + dayOfEra / 36524 - dayOfEra / 146096) / 365
  let dayOfYear := dayOfEra - (365 * yearOfEra + yearOfEra / 4 - yearOfEra / 100)
  let shiftedMonth := (5 * dayOfYear + 2) / 153
  let month := if shiftedMonth < 10 then shiftedMonth + 3 else shiftedMonth - 9
  (yearOfEra + era * 400 + (if month ≤ 2 then 1 else 0), month)

/-- The first day of a month, counted from the Unix epoch. -/
def firstDayOfMonth (year month : Int) : Int :=
  let shiftedYear := if month ≤ 2 then year - 1 else year
  let era := shiftedYear / 400
  let yearOfEra := shiftedYear - era * 400
  let shiftedMonth := if 2 < month then month - 3 else month + 9
  let dayOfEra := yearOfEra * 365 + yearOfEra / 4 - yearOfEra / 100 + (153 * shiftedMonth + 2) / 5
  era * 146097 + dayOfEra - 719468

example : monthOfDay 19782 = (2024, 2) := by decide
example : firstDayOfMonth 2024 3 - firstDayOfMonth 2024 2 = 29 := by decide

/-- `replayBucket`: the bucket a time belongs to and where the next one starts. -/
def replayBucket (value : Int) (timeframe : Timeframe) : Int × Int :=
  let unix := value / second
  let day := unix / 86400
  match timeframe with
  | .d1 => (day * 86400 * second, (day + 1) * 86400 * second)
  | .w1 =>
    -- the epoch is a Thursday
    let monday := day - (day + 3) % 7
    (monday * 86400 * second, (monday + 7) * 86400 * second)
  | .mo1 =>
    let (year, month) := monthOfDay day
    let next := if month = 12 then firstDayOfMonth (year + 1) 1 else firstDayOfMonth year (month + 1)
    (firstDayOfMonth year month * 86400 * second, next * 86400 * second)
  | other =>
    let start := unix - unix.tmod other.seconds
    (start * second, (start + other.seconds) * second)

/-! ## Aggregation -/

/-- A chart candle. -/
structure ReplayBar where
  time : Int
  «open» : Decimal
  high : Decimal
  low : Decimal
  close : Decimal
  volume : Decimal
  complete : Bool

/-- The stored aggregate: the last source row folded in and the candle it belongs to. -/
structure AggregateState where
  lastSourceSeq : Int
  current : Option ReplayBar

/-- `newAggregateState`. -/
def newAggregateState : AggregateState := ⟨-1, none⟩

def openCandle (bucketStart : Int) (row : Bar) : ReplayBar :=
  ⟨bucketStart, row.open, row.high, row.low, row.close, row.volume, false⟩

/-- A further row of the same bucket. -/
def growCandle (current : ReplayBar) (row : Bar) : ReplayBar :=
  { current with
    high := if row.high > current.high then row.high else current.high
    low := if row.low < current.low then row.low else current.low
    close := row.close
    volume := current.volume + row.volume }

/-- One row of the aggregation loop: the candles it emits and the candle it leaves current. -/
def aggregateRow (state : AggregateState) (timeframe : Timeframe) (row : Bar) :
    List ReplayBar × ReplayBar :=
  let (bucketStart, bucketEnd) := replayBucket row.openTime timeframe
  let (closed, candle) :=
    match state.current with
    | none => ([], openCandle bucketStart row)
    | some current =>
      if current.time = bucketStart then ([], growCandle current row)
      else if current.complete then ([], openCandle bucketStart row)
      else ([{ current with complete := true }], openCandle bucketStart row)
  let candle :=
    if row.openTime + row.intervalSeconds * second < bucketEnd then candle
    else { candle with complete := true }
  (closed ++ [candle], candle)

/-- `aggregateSourceBars`: the new aggregate and every upsert in source order. -/
def aggregateSourceBars (state : AggregateState) (timeframe : Timeframe) :
    List Bar → Option (AggregateState × List ReplayBar)
  | [] => some (state, [])
  | row :: rest =>
    if (row.seq : Int) ≤ state.lastSourceSeq then none
    else do
      let (upserts, candle) := aggregateRow state timeframe row
      let (final, more) ← aggregateSourceBars ⟨row.seq, some candle⟩ timeframe rest
      return (final, upserts ++ more)

/-- `coalesceBarUpserts`: the final state of each bucket touched, in time order. -/
def coalesceBarUpserts (upserts : List ReplayBar) : List ReplayBar :=
  (upserts.foldl (fun latest bar => latest.filter (fun old => old.time ≠ bar.time) ++ [bar])
    []).mergeSort fun a b => a.time ≤ b.time

/-- `aggregateRevealedBars`. -/
def aggregateRevealedBars (timeframe : Timeframe) (rows : List Bar) :
    Option (List ReplayBar × AggregateState) := do
  let (state, upserts) ← aggregateSourceBars newAggregateState timeframe rows
  return (coalesceBarUpserts upserts, state)

end MarketLens.Replay
