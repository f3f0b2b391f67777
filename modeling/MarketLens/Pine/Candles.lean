import MarketLens.Pine.Number

/-!
# Candles and their timeframes

The candles a script runs on, the seconds a timeframe stands for, and the buckets of a
higher timeframe that `request.security` aggregates them into.
-/

namespace MarketLens.Pine

structure Candle where
  time : Int
  «open» : Decimal
  high : Decimal
  low : Decimal
  close : Decimal
  volume : Decimal

def Candle.field (candle : Candle) (name : String) : Option Decimal :=
  match name with
  | "open" => some candle.open
  | "high" => some candle.high
  | "low" => some candle.low
  | "close" => some candle.close
  | "volume" => some candle.volume
  | "time" => some candle.time
  | _ => none

/-! ## Timeframes -/

/-- `strconv.ParseInt` in base ten. -/
def parseInt (text : List Char) : Option Int :=
  let (sign, digits) : Int × List Char := match text with
    | '-' :: rest => (-1, rest)
    | '+' :: rest => (1, rest)
    | _ => (1, text)
  if digits.isEmpty || !digits.all Char.isDigit then none
  else
    let value := sign * (digits.foldl (fun n c => 10 * n + (c.toNat - '0'.toNat : Int)) 0)
    if wrap64 value = value then some value else none

def unitSeconds (unit : Option Char) : Option Int :=
  match unit with
  | none | some 'm' => some 60
  | some 'S' | some 's' => some 1
  | some 'H' | some 'h' => some 3600
  | some 'D' | some 'd' => some 86400
  | some 'W' | some 'w' => some 604800
  | some 'M' => some 2592000
  | some _ => none

/-- `timeframeSeconds`; zero for the timeframe of the chart. -/
def timeframeSeconds (value : String) : Option Int :=
  let raw := trim value
  if raw = "" || raw.toLower = "chart" then some 0
  else
    let text := raw.toList
    let unit := text.getLast?.filter fun last => !last.isDigit
    let amountText := if unit.isNone then text else (trim (String.ofList text.dropLast)).toList
    let amountText := if amountText.isEmpty && unit.isSome then ['1'] else amountText
    (parseInt amountText).bind fun amount =>
      if amount ≤ 0 then none
      else
        (unitSeconds unit).bind fun multiplier =>
          if amount > (-int64Min - 1) / multiplier then none else some (amount * multiplier)

/-- The start of the bucket of a time; Go's remainder has the sign of the time. -/
def bucketOf (seconds time : Int) : Int := time - time.tmod seconds

/-- A candle into the bucket before it, or into one of its own. -/
def mergeCandle (seconds : Int) (out : List Candle) (candle : Candle) : List Candle :=
  match out with
  | current :: earlier =>
    if current.time = bucketOf seconds candle.time then
      { current with
        high := if current.high < candle.high then candle.high else current.high
        low := if candle.low < current.low then candle.low else current.low
        close := candle.close
        volume := current.volume + candle.volume } :: earlier
    else { candle with time := bucketOf seconds candle.time } :: out
  | [] => [{ candle with time := bucketOf seconds candle.time }]

/-- `aggregateRuntimeCandles`; `mergeCandle` keeps the newest bucket first. -/
def aggregateRuntimeCandles (candles : List Candle) (seconds : Int) : List Candle :=
  if seconds ≤ 0 then candles else (candles.foldl (mergeCandle seconds) []).reverse

/-- `statefulCandleInterval`: the least positive step between neighbours. -/
def statefulCandleInterval (candles : List Candle) : Int :=
  let steps := (List.zipWith (fun next candle : Candle => next.time - candle.time) candles.tail candles).filter
    fun step => 0 < step
  (steps.min?).getD 60

/-- `candleStepSeconds`. -/
def candleStepSeconds (candles : List Candle) : Int :=
  match candles.reverse with
  | last :: before :: _ => if 0 < last.time - before.time then last.time - before.time else 60
  | _ => 60

/-! ## The least price step -/

/-- The decimals of a value printed with six of them, trailing zeros cut off. -/
def printedDecimals (value : Decimal) : Nat :=
  let scaled := (roundHalfEven (value * 1000000)).natAbs
  if scaled % 1000000 = 0 then 0
  else if scaled % 100000 = 0 then 1
  else if scaled % 10000 = 0 then 2
  else if scaled % 1000 = 0 then 3
  else if scaled % 100 = 0 then 4
  else if scaled % 10 = 0 then 5
  else 6

/-- `inferPricePrecision`, from the last hundred candles. -/
def inferPricePrecision (candles : List Candle) : Nat :=
  let recent := candles.drop (candles.length - 100)
  let decimals := recent.flatMap fun candle =>
    [candle.open, candle.high, candle.low, candle.close].map printedDecimals
  min 5 ((decimals.max?).getD 0)

/-- `inferMintick`. -/
def inferMintick (candles : List Candle) : Decimal := 1 / 10 ^ inferPricePrecision candles

end MarketLens.Pine
