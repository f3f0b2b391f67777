import MarketLens.Pine.Stateful.Calls

/-!
# Calls that look back

A call that needs earlier values records its arguments under its address each time it is
evaluated, and computes on what it has recorded.
-/

namespace MarketLens.Pine

open Programs

/-- A usable number, or `na`. -/
def usableNumber (p : Point) : StatefulValue :=
  if usable p then .number p else .na

/-! ## Moving averages -/

/-- The average a name stands for, on the recorded series. -/
def averageNamed (name : String) (values volumes : List Point) (length : Int) : List Point :=
  match name with
  | "ta.sma" | "sma" => rollingAverage values length
  | "ta.ema" | "ema" => exponentialAverage values length
  | "ta.rma" | "rma" => runningMovingAverage values length
  | "ta.wma" | "wma" => weightedMovingAverage values length
  | _ => volumeWeightedMovingAverage values volumes length

namespace CallFrame

variable (frame : CallFrame)

/-- The series of a call of a moving average with the values of a bar. -/
def recordNumericCall (bar : Nat) (point volume : Point) (memory : Memory) : Memory :=
  let (values, volumes) := (memory.numericCalls frame.site).getD ([], [])
  { memory with
    numericCalls := put memory.numericCalls frame.site
      (some (recordAt none values bar point, recordAt none volumes bar volume)) }

/-- `evaluateMovingAverage`. -/
def evaluateMovingAverage (name : String) : CallM StatefulValue := do
  let source ← frame.callArgument "source" 0
  let lengthValue ← frame.callArgument "length" 1
  let length := roundedAtLeast 1 (statefulNumeric lengthValue)
  let bar ← currentBar
  let volume := (← candleAgo 0).map Candle.volume
  modifyMemory (frame.recordNumericCall bar (statefulNumeric source) volume)
  let (values, volumes) := ((← getMemory).numericCalls frame.site).getD ([], [])
  return usableNumber (pointAt (averageNamed name values volumes length) bar)

end CallFrame

/-! ## Recorded arguments -/

section
variable (histories : List (List StatefulValue))

/-- What `recordHistoryCall` makes of the recorded arguments. -/
def recordHistory (bar : Nat) (values : List StatefulValue) :
    List (List StatefulValue) :=
  let filled := ((histories[0]?).map List.length).getD 0
  let present := histories ++ List.replicate (values.length - histories.length) (List.replicate filled .na)
  present.mapIdx fun k history =>
    match values[k]? with
    | some value => recordAt .na history bar value
    | none => if history.length ≤ bar then recordAt .na history bar .na else history

/-- `statefulHistoryAt`. -/
def statefulHistoryAt (argument : Nat) (bar : Int) : StatefulValue :=
  if bar < 0 then .na else (((histories[argument]?).getD [])[bar.toNat]?).getD .na

def numberAt (argument : Nat) (bar : Int) : Point :=
  statefulNumeric (statefulHistoryAt histories argument bar)

/-- `statefulHistoryNumbers`. -/
def statefulHistoryNumbers (argument : Nat) : List Point :=
  ((histories[argument]?).getD []).map statefulNumeric

/-- `statefulWindowNumbers`: the usable numbers of the last bars. -/
def statefulWindowNumbers (argument «end» : Nat) (length : Int) :
    List Decimal :=
  ((List.range («end» + 1)).drop («end» + 1 - length.toNat)).filterMap fun bar => numberAt histories argument bar

end

/-- `statefulMeanAndDeviation`, of a list that is not empty. -/
def statefulMeanAndDeviation (library : Library) (values : List Decimal) : Decimal × Point :=
  let mean := values.sum / values.length
  (mean, library.sqrt ((values.map fun value => (value - mean) * (value - mean)).sum / values.length))

namespace CallFrame

variable (frame : CallFrame)

/-- `recordHistoryCall`. -/
def recordHistoryCall (values : List StatefulValue) : CallM (List (List StatefulValue)) := do
  let bar ← currentBar
  modifyMemory fun memory =>
    { memory with
      historyCalls := put memory.historyCalls frame.site
        (some (recordHistory ((memory.historyCalls frame.site).getD []) bar values)) }
  return ((← getMemory).historyCalls frame.site).getD []

/-- `evaluateRollingSum`. -/
def evaluateRollingSum : CallM StatefulValue := do
  let source ← frame.callArgument "source" 0
  let length ← frame.callLength "length" 1 1
  let histories ← frame.recordHistoryCall [source]
  let values := statefulWindowNumbers histories 0 (← currentBar) length
  if (values.length : Int) < length then return .na else return .number (some values.sum)

/-- `evaluateValueWhen`. -/
def evaluateValueWhen : CallM StatefulValue := do
  let condition ← frame.callArgument "condition" 0
  let truthy ← booleanValue frame.setting.version condition
  let source ← frame.callArgument "source" 1
  let occurrence := roundedAtLeast 0 (statefulNumeric (← frame.callArgument "occurrence" 2))
  let bar ← currentBar
  let state := ((← getMemory).valueWhenCalls frame.site).getD ⟨[], -1⟩
  let values := if state.lastBar ≠ bar && truthy then state.values ++ [source] else state.values
  modifyMemory fun memory =>
    { memory with valueWhenCalls := put memory.valueWhenCalls frame.site (some ⟨values, bar⟩) }
  let index := wrap64 ((values.length : Int) - 1 - occurrence)
  return if index < 0 then .na else (values[index.toNat]?).getD .na

/-- `ta.cum`. -/
def evaluateCumulative : CallM StatefulValue := do
  match ← frame.numberArgument "" 0 with
  | some point =>
    modifyMemory fun memory =>
      { memory with
        cumulativeCalls := put memory.cumulativeCalls frame.site (memory.cumulativeCalls frame.site + point) }
  | none => pure ()
  return .number (some ((← getMemory).cumulativeCalls frame.site))

end CallFrame

/-! ## Technical analysis -/

/-- The change into every index of a recorded series, from the second on. -/
def changesOf (values : List Point) : List Point :=
  (List.range values.length).map fun i => if i = 0 then none else (pointAt values i).sub (pointAt values (i - 1))

/-- The series of the relative strength: the gains and the losses averaged apart. -/
def statefulRSI (values : List Point) (length : Int) (bar : Nat) : StatefulValue :=
  let gain := pointAt (runningMovingAverage ((changesOf values).map (Point.atLeast 0)) length) bar
  let loss := pointAt (runningMovingAverage ((changesOf values).map fun change => Point.atLeast 0 change.neg) length) bar
  if usable gain && usable loss then .number (relativeStrength gain loss) else .na

/-- The Hull average: half the length rounds up, and so does the root. -/
def statefulHMA (values : List Point) (length : Int) (bar : Nat) : StatefulValue :=
  let half := max 1 (roundAway ((length : Decimal) / 2))
  let root := max 1 (roundSqrt length.toNat : Int)
  usableNumber (pointAt (weightedMovingAverage
    (doubleLess (weightedMovingAverage values half) (weightedMovingAverage values length)) root) bar)

/-- The lines of `macd` at a bar. -/
def statefulMACD (values : List Point) (fast slow signal : Int) (bar : Nat) : StatefulValue :=
  let line := List.zipWith Point.sub (exponentialAverage values fast) (exponentialAverage values slow)
  match pointAt line bar, pointAt (exponentialAverage line signal) bar with
  | some a, some b => .tuple [.number (some a), .number (some b), .number (some (a - b))]
  | _, _ => .tuple [.na, .na, .na]

/-- The best number of the last bars and how long ago it was; the latest of equal ones. -/
def bestOf (highest : Bool) (histories : List (List StatefulValue)) (bar : Nat) (length : Int) : Option (Decimal × Nat) :=
  (List.range (min length.toNat (bar + 1))).foldl (fun best (offset : Nat) =>
    match numberAt histories 0 ((bar : Int) - offset), best with
    | none, _ => best
    | some value, none => some (value, offset)
    | some value, some (held, _) =>
      if (if highest then held < value else value < held) then some (value, offset) else best) none

/-- Whether the number of a bar is beyond those of the last bars that have one. -/
def movesBeyond (rising : Bool) (histories : List (List StatefulValue)) (bar : Nat) (length : Int) : Bool :=
  match numberAt histories 0 bar with
  | none => false
  | some current =>
    (List.range (min length.toNat bar)).all (fun offset =>
      match numberAt histories 0 ((bar : Int) - (offset + 1)) with
      | none => true
      | some value => if rising then value < current else current < value) && 0 < bar

/-- `cross`, `crossover` and `crossunder`. -/
def statefulCross (name : String) (histories : List (List StatefulValue)) (bar : Nat) : Bool :=
  match numberAt histories 0 bar, numberAt histories 1 bar, numberAt histories 0 ((bar : Int) - 1),
      numberAt histories 1 ((bar : Int) - 1) with
  | some a, some b, some a', some b' =>
    let upward := b < a && a' ≤ b'
    let under := a < b && b' ≤ a'
    match name with
    | "crossover" => upward
    | "crossunder" => under
    | _ => upward || under
  | _, _, _, _ => false

/-- The number of bars since the recorded value was true. -/
def barsSince (histories : List (List StatefulValue)) (bar : Nat) : StatefulValue :=
  match (List.range (bar + 1)).find? fun ago =>
      match statefulHistoryAt histories 0 ((bar : Int) - ago) with
      | .bool value => value
      | _ => false with
  | some ago => .number (some ago)
  | none => .na

/-- `change` on the recorded values. -/
def statefulChange (histories : List (List StatefulValue)) (bar : Nat) (length : Int) : StatefulValue :=
  match statefulHistoryAt histories 0 bar, statefulHistoryAt histories 0 ((bar : Int) - length) with
  | .bool current, .bool previous => .bool (current != previous)
  | current, previous => usableNumber ((statefulNumeric current).sub (statefulNumeric previous))

namespace CallFrame

variable (frame : CallFrame)

/-- The functions of a window that has all its numbers. -/
def evaluateDeviation (name : String) (values : List Decimal) : CallM StatefulValue := do
  let (mean, deviation) := statefulMeanAndDeviation frame.library values
  match name with
  | "dev" => return .number (some ((values.map fun value => |value - mean|).sum / values.length))
  | "stdev" => return .number deviation
  | "variance" => return .number (deviation.mul deviation)
  | "range" => return .number (some (values.foldl max values.headI - values.foldl min values.headI))
  | _ =>
    let mult ← frame.numberArgument "mult" 2
    let upper := Point.add (some mean) (mult.mul deviation)
    let lower := Point.sub (some mean) (mult.mul deviation)
    if name = "bbw" then
      if mean = 0 then return .na else return .number ((upper.sub lower).div (some mean))
    else return .tuple [.number (some mean), .number upper, .number lower]

/-- The candles up to the current bar, oldest first. -/
def candlesSoFar : List Nat → MachineM (List Candle)
  | [] => return []
  | ago :: rest => do
    match ← candleAgo ago with
    | some candle => return candle :: (← candlesSoFar rest)
    | none => panic "index out of range"

end CallFrame

def trueRanges (candles : List Candle) : List Point :=
  candles.mapIdx fun i candle =>
    match candles[i - 1]? with
    | some before =>
      if i = 0 then some (candle.high - candle.low)
      else some (max (candle.high - candle.low) (max |candle.high - before.close| |candle.low - before.close|))
    | none => none

namespace CallFrame

variable (frame : CallFrame)

/-- `evaluateTrueRangeFunction`. -/
def evaluateTrueRangeFunction (name : String) : CallM StatefulValue := do
  let bar ← currentBar
  let ranges := trueRanges (← candlesSoFar (List.range (bar + 1)).reverse)
  if name = "tr" then return .number (pointAt ranges bar)
  else
    let length ← frame.callLength "length" 0 14
    return usableNumber (pointAt (runningMovingAverage ranges length) bar)

/-- The functions of one source and a length, on what they have recorded. -/
def evaluateRecorded (name : String) (histories : List (List StatefulValue)) (bar : Nat) (length : Int) :
    CallM StatefulValue :=
  let current := numberAt histories 0 bar
  let previous := numberAt histories 0 ((bar : Int) - length)
  match name with
  | "change" => return statefulChange histories bar length
  | "mom" => return usableNumber (current.sub previous)
  | "roc" => return usableNumber ((Point.mul (some 100) (current.sub previous)).div previous)
  | "highest" | "lowest" =>
    return usableNumber ((bestOf (name = "highest") histories bar length).map Prod.fst)
  | "highestbars" | "lowestbars" =>
    return usableNumber ((bestOf (name = "highestbars") histories bar length).map fun best => -(best.2 : Decimal))
  | "rising" | "falling" => return .bool (movesBeyond (name = "rising") histories bar length)
  | "dev" | "stdev" | "variance" | "range" | "bb" | "bbw" =>
    let values := statefulWindowNumbers histories 0 bar length
    if (values.length : Int) < length then return if name = "bb" then .tuple [.na, .na, .na] else .na
    else frame.evaluateDeviation name values
  | "rsi" => return statefulRSI (statefulHistoryNumbers histories 0) length bar
  | "hma" => return statefulHMA (statefulHistoryNumbers histories 0) length bar
  | _ => fail ("unsupported TA function ta." ++ name ++ "()")

/-- The source of a function and the place of its length: `highest` and its like may be called with a
length only. -/
def recordedSource (name : String) : CallM (StatefulValue × Nat) := do
  if ["highest", "highestbars", "lowest", "lowestbars"].contains name && frame.call.arguments.length = 1 then
    let field := if name = "highest" || name = "highestbars" then "high" else "low"
    return (← resolveIdentifier field frame.scope, 0)
  else return (← frame.callArgument "source" 0, 1)

/-- `evaluateTAFunction`, of the name without `ta.`. -/
def evaluateTAFunction (name : String) : CallM StatefulValue := do
  if name = "atr" || name = "tr" then frame.evaluateTrueRangeFunction name
  else
    let (source, lengthIndex) ← frame.recordedSource name
    match name with
    | "cross" | "crossover" | "crossunder" =>
      let second ← frame.callArgument "source2" 1
      let histories ← frame.recordHistoryCall [source, second]
      return .bool (statefulCross name histories (← currentBar))
    | "barssince" =>
      let histories ← frame.recordHistoryCall [source]
      return barsSince histories (← currentBar)
    | "macd" =>
      let fast ← frame.callLength "fastlen" 1 12
      let slow ← frame.callLength "slowlen" 2 26
      let signal ← frame.callLength "siglen" 3 9
      let histories ← frame.recordHistoryCall [source]
      return statefulMACD (statefulHistoryNumbers histories 0) fast slow signal (← currentBar)
    | _ =>
      let length ← frame.callLength "length" lengthIndex 1
      let histories ← frame.recordHistoryCall [source]
      frame.evaluateRecorded name histories (← currentBar) length

/-! ## Pivots -/

/-- `numericExpressionAtOffset`, of an identifier. -/
def identifierAtOffset (name : String) (offset : Int) : MachineM Point := do
  let memory ← getMemory
  let bar ← currentBar
  match memory.lookup frame.scope name with
  | some (_, cell) =>
    if offset = 0 then return statefulNumeric cell.value
    else
      let place := wrap64 ((cell.history.length : Int) - offset)
      return if place < 0 then none else (cell.history[place.toNat]?).elim none statefulNumeric
  | none =>
    let place := wrap64 ((bar : Int) - offset)
    if place < 0 || (bar : Int) < place then return none
    else
      let candle ← candleAgo (bar - place.toNat)
      return if name = "time" then none else candle.bind fun candle => candle.field name

/-- `numericExpressionAtOffset`: the source is the argument at a place, or the name. -/
def numericExpressionAtOffset (place : Option Nat) (name : String) (offset : Int) : CallM Point := do
  match place with
  | none => frame.identifierAtOffset name offset
  | some k =>
    match (frame.call.arguments[k]?).map Prod.snd with
    | some (.identifier written) => frame.identifierAtOffset written offset
    | _ => if offset ≠ 0 then return none else return statefulNumeric (← argumentAt k)

def standsOut (place : Option Nat) (high : Bool) (center : Decimal) : List Int → CallM Bool
  | [] => return true
  | offset :: rest => do
    let neighbor ← frame.numericExpressionAtOffset place (if high then "high" else "low") offset
    if outranked high center neighbor then standsOut place high center rest else return false

/-- `evaluatePivot`. -/
def evaluatePivot (high : Bool) : CallM StatefulValue := do
  let kind := if high then "high" else "low"
  let positional := frame.call.arguments.countP fun argument => argument.1 = ""
  let sourced := 3 ≤ positional || frame.call.arguments.any fun argument => argument.1 = "source"
  let place := if sourced then frame.call.argumentPlace "source" 0 else none
  if sourced && place.isNone then fail ("ta.pivot" ++ kind ++ "() is missing its source")
  else
    let leftValue ← frame.callArgument "leftbars" (if sourced then 1 else 0)
    let rightValue ← frame.callArgument "rightbars" (if sourced then 2 else 1)
    let left := roundedAtLeast 1 (statefulNumeric leftValue)
    let right := roundedAtLeast 1 (statefulNumeric rightValue)
    let bar ← currentBar
    let last := wrap64 (left + right)
    if (bar : Int) < last then return .na
    else
      match ← frame.numericExpressionAtOffset place kind right with
      | none => return .na
      | some center =>
        let older := (List.range (last - right).toNat).map fun (k : Nat) => right + 1 + k
        let newer := (List.range right.toNat).reverse.map fun (k : Nat) => (k : Int)
        if !(← frame.standsOut place high center older) then return .na
        else if !(← frame.standsOut place high center newer) then return .na
        else return .number (some center)

end CallFrame

end MarketLens.Pine
