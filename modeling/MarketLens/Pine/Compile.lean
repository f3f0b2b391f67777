import Mathlib.Data.List.Sort
import MarketLens.Lib.Search
import MarketLens.Pine.Candles

/-!
# Compiling a script on a window of candles

A request is screened, its candles are put in order, cut at the replay cutoff and cut down to
the last five thousand, and one of two evaluators runs the script on what is left. With a
cutoff the result is clamped once more, since a script may draw into the future.

The scanners of the source text and the two evaluators are functions of what they are given,
and nothing else is asked of them here. Some of them may panic.
-/

namespace MarketLens.Pine

/-! ## Requests and results -/

/-- A candle as it is received: its prices and its volume may be unusable. -/
structure InputCandle where
  time : Int
  «open» : Point
  high : Point
  low : Point
  close : Point
  volume : Point

/-- Settings of a script by their keys, each as the text of its value. -/
abbrev Overrides := List (String × String)

/-- `CompileRequest`. -/
structure CompileRequest (C : Type) where
  scriptId : String
  sourceCode : String
  timeframe : String
  symbol : String
  symbolType : String
  mintick : Point
  timezone : String
  candles : List C
  inputOverrides : Overrides
  styleOverrides : Overrides
  replayCutoff : Option Int

structure LinePoint where
  time : Int
  value : Point
  color : Option String

/-- `IndicatorSeries`. -/
structure IndicatorSeries where
  key : String
  color : String
  data : List LinePoint
  type : String
  valueFormat : String
  lineWidth : Option Int
  lineStyle : Option Int
  baseValue : Option Point
  fillBelowBase : Option Bool
  lastValueVisible : Option Bool
  statusLineVisible : Option Bool
  extendToVisibleRange : Option Bool
  lineVisible : Option Bool
  precision : Option Nat

/-- `IndicatorOverlayLabel`. -/
structure IndicatorOverlayLabel where
  key : String
  price : Point
  text : String
  color : String
  backgroundColor : String
  style : String
  tooltip : String
  time : Option Int

structure IndicatorDashboardRow where
  label : String
  value : String
  valueColor : String

structure IndicatorDashboard where
  key : String
  title : String
  subtitle : String
  position : String
  textSize : String
  rows : List IndicatorDashboardRow

structure IndicatorResult where
  id : String
  series : List IndicatorSeries
  labels : List IndicatorOverlayLabel
  dashboard : Option IndicatorDashboard

structure RuntimeError where
  message : String
  line : Nat

def RuntimeError.of (message : String) : RuntimeError := ⟨message, 0⟩

/-- What is read off a declaration. -/
structure ScriptMeta where
  name : String
  version : Int
  properties : Overrides

structure CompileResponse where
  scriptMeta : ScriptMeta
  result : IndicatorResult
  errors : List RuntimeError
  warnings : List RuntimeError
  unsupportedFeatures : List String

/-! ## The window of candles -/

def maxSourceBytes : Nat := 262144
def maxCompileCandles : Nat := 5000
def maxReplayCutoff : Int := 253402300799

/-- A candle of a positive time whose numbers are all usable. -/
def InputCandle.candle? (candle : InputCandle) : Option Candle :=
  if candle.time ≤ 0 then none
  else do
    let «open» ← candle.open
    let high ← candle.high
    let low ← candle.low
    let close ← candle.close
    let volume ← candle.volume
    return { time := candle.time, «open», high, low, close, volume }

/-- `byTime[time]`: the last candle of the time. -/
def candleAt (candles : List Candle) (time : Int) : Option Candle := candles.reverse.find? (·.time = time)

/-- `normalizeRuntimeCandles`: one candle of each time, in the order of the times. -/
def normalizeRuntimeCandles (candles : List InputCandle) : List Candle :=
  let usable := candles.filterMap InputCandle.candle?
  (((usable.map Candle.time).dedup).insertionSort (· ≤ ·)).filterMap (candleAt usable)

/-- `candlesThroughReplayCutoff`. -/
def candlesThroughReplayCutoff (candles : List Candle) (cutoff : Int) : List Candle :=
  candles.take (Search.search candles.length fun index => candles[index]?.any fun candle => cutoff < candle.time)

/-- `validateReplayCutoff`. -/
def validReplayCutoff (cutoff : Option Int) : Bool := cutoff.all fun cutoff => 0 < cutoff && cutoff ≤ maxReplayCutoff

/-- The candles in order, up to the cutoff if there is one. -/
def CompileRequest.cut (req : CompileRequest InputCandle) : List Candle :=
  match req.replayCutoff with
  | none => normalizeRuntimeCandles req.candles
  | some cutoff => candlesThroughReplayCutoff (normalizeRuntimeCandles req.candles) cutoff

/-- The request as the evaluators get it. -/
def CompileRequest.windowed (req : CompileRequest InputCandle) : CompileRequest Candle :=
  { req with candles := req.cut.drop (req.cut.length - maxCompileCandles) }

/-! ## Clamping a result to the cutoff -/

/-- `replayBoundaryPoint`. The differences of times are taken in 64 bits. -/
def replayBoundaryPoint (previous next : LinePoint) (cutoff : Int) : LinePoint :=
  let point := { next with time := cutoff, color := previous.color.or next.color }
  if next.time = previous.time then { point with value := previous.value }
  else
    let ratio : Decimal := (wrap64 (cutoff - previous.time) : Decimal) / (wrap64 (next.time - previous.time) : Decimal)
    let ratio := min 1 (max 0 ratio)
    { point with value := previous.value.add ((next.value.sub previous.value).mul (some ratio)) }

/-- The points of a sorted line up to the cutoff, after `previous`. -/
def clipPoints (cutoff : Int) (interpolate : Bool) : Option LinePoint → List LinePoint → List LinePoint
  | _, [] => []
  | previous, point :: rest =>
    if point.time ≤ cutoff then point :: clipPoints cutoff interpolate (some point) rest
    else
      match previous with
      | none => []
      | some previous =>
        if interpolate && previous.time < cutoff then [replayBoundaryPoint previous point cutoff] else []

/-- `clipLinePointsToReplay`. -/
def clipLinePointsToReplay (data : List LinePoint) (cutoff : Int) (interpolate : Bool) : List LinePoint :=
  clipPoints cutoff interpolate none (data.insertionSort fun left right => left.time ≤ right.time)

/-- `replaySeriesCanInterpolate`. -/
def replaySeriesCanInterpolate (seriesType : String) : Bool := seriesType ≠ "histogram"

/-- A series up to the cutoff, if anything is left of it. -/
def IndicatorSeries.clamp (item : IndicatorSeries) (cutoff : Int) : Option IndicatorSeries :=
  let data := clipLinePointsToReplay item.data cutoff (replaySeriesCanInterpolate item.type)
  if data.isEmpty then none else some { item with data, extendToVisibleRange := some false }

/-- `clampIndicatorResultToReplay`. -/
def clampIndicatorResultToReplay (result : IndicatorResult) (cutoff : Int) : IndicatorResult :=
  { result with
    series := result.series.filterMap (·.clamp cutoff)
    labels := result.labels.filter fun label => !label.time.any fun time => cutoff < time }

/-! ## What a compilation is made of -/

/-- `hlineDef`. -/
structure Hline where
  id : String
  title : String
  value : Point
  visible : Bool
  color : String
  lineWidth : Int
  lineStyle : Int

/-- What no code decides: whether the caller has gone by one of the moments the code looks, and
which of the concurrent branches fail, in this order. -/
structure Schedule where
  cancelledBefore : Option String
  cancelledAfter : Option String
  failing : List Nat

/-- The scanners of the source and the evaluators; an error is the text of a panic. -/
structure Evaluators (Context : Type) where
  extractMeta : String → ScriptMeta
  unsupportedFeatures : String → List String
  blockingUnsupportedFeatures : String → List String
  unsupportedDeclarationExecutionProperties : ScriptMeta → List String
  normalizedIndicatorValueFormat : ScriptMeta → String
  indicatorOutputPrecision : ScriptMeta → Overrides → Option Nat
  normalizeSource : String → String
  compileStatefulPine : Schedule → CompileRequest Candle → String →
    Except String (Option (IndicatorResult × List RuntimeError))
  readAssignments : String → CompileRequest Candle → Except String (Context × List RuntimeError)
  readHlines : String → Context → Overrides → Except String (List Hline × List RuntimeError)
  readFills : String → Context → List Hline → List Candle → Overrides → Except String (List IndicatorSeries × List RuntimeError)
  readPlots : String → Context → List Candle → Overrides → Except String (List IndicatorSeries × List RuntimeError)
  compileObjectRuntime : String → List Candle → String → Context → Overrides →
    Except String (Option IndicatorResult × List RuntimeError)

/-- `compileOutput`. -/
structure CompileOutput where
  series : List IndicatorSeries
  labels : List IndicatorOverlayLabel
  dashboard : Option IndicatorDashboard
  errors : List RuntimeError

/-- `runOrderedJobs`: the outputs in the order of the jobs, unless a job fails or the caller goes. -/
def runOrderedJobs {A : Type} (schedule : Schedule) (jobs : List (Except String A)) : Except String (List A) :=
  let failure (index : Nat) : Option String :=
    match jobs[index]? with
    | some (.error panic) => some ("ordered runtime job panicked: " ++ panic)
    | _ => none
  match schedule.failing.findSome? failure, schedule.cancelledAfter with
  | some first, _ => .error first
  | none, some gone => .error gone
  | none, none =>
    match (List.range jobs.length).findSome? failure with
    | some first => .error first
    | none => .ok (jobs.filterMap Except.toOption)

/-- `flatLinePoints`. -/
def flatLinePoints (value : Point) (candles : List Candle) : List LinePoint :=
  match candles.head?, candles.getLast? with
  | some first, some last =>
    if !usable value then []
    else if last.time ≠ first.time then [⟨first.time, value, none⟩, ⟨last.time, value, none⟩]
    else [⟨first.time, value, none⟩]
  | _, _ => []

def Hline.series (line : Hline) (candles : List Candle) : IndicatorSeries :=
  { key := line.title, color := line.color, data := flatLinePoints line.value candles, type := "line"
    valueFormat := "", lineWidth := some line.lineWidth, lineStyle := some line.lineStyle
    baseValue := none, fillBelowBase := none, lastValueVisible := none, statusLineVisible := none
    extendToVisibleRange := some true, lineVisible := none, precision := none }

section Compile

variable {Context : Type} (evaluators : Evaluators Context)

section
variable (cleaned : String) (context : Context) (req : CompileRequest Candle)

/-- The branch of horizontal lines and fills. -/
def compileLines : Except String CompileOutput := do
  let (hlines, lineErrors) ← evaluators.readHlines cleaned context req.styleOverrides
  let (fills, fillErrors) ← evaluators.readFills cleaned context hlines req.candles req.styleOverrides
  return ⟨fills ++ (hlines.filter Hline.visible).map (·.series req.candles), [], none, lineErrors ++ fillErrors⟩

/-- The branch of plots. -/
def compilePlots : Except String CompileOutput := do
  let (series, errors) ← evaluators.readPlots cleaned context req.candles req.styleOverrides
  return ⟨series, [], none, errors⟩

end

/-- The branch of drawings. -/
def compileObjects (cleaned : String) (id : String) (context : Context) (req : CompileRequest Candle) :
    Except String CompileOutput := do
  let (objects, errors) ← evaluators.compileObjectRuntime cleaned req.candles id context req.styleOverrides
  match objects with
  | none => return ⟨[], [], none, errors⟩
  | some result => return ⟨result.series, result.labels, result.dashboard, errors⟩

/-- `applyIndicatorOutputPresentation`. -/
def applyIndicatorOutputPresentation (result : IndicatorResult) (scriptMeta : ScriptMeta) (styles : Overrides) :
    IndicatorResult :=
  let valueFormat := evaluators.normalizedIndicatorValueFormat scriptMeta
  let precision := evaluators.indicatorOutputPrecision scriptMeta styles
  if valueFormat = "" && precision.isNone then result
  else
    { result with
      series := result.series.map fun item => { item with valueFormat, precision := precision.or item.precision } }

def lastDashboard (outputs : List CompileOutput) : Option IndicatorDashboard :=
  (outputs.filterMap CompileOutput.dashboard).getLast?

def noOutput : RuntimeError := .of "No supported plot(), hline(), fill(), or drawing object output found"

/-- The evaluation of the script on its window, before it is presented: what it shows, the errors,
and whether it came that far. -/
def evaluateWindow (schedule : Schedule) (req : CompileRequest Candle) (id : String) :
    Except String (IndicatorResult × List RuntimeError × Bool) := do
  match ← evaluators.compileStatefulPine schedule req id with
  | some (result, errors) => return ({ result with id }, errors, true)
  | none =>
    let cleaned := evaluators.normalizeSource req.sourceCode
    let (context, errors) ← evaluators.readAssignments cleaned req
    match runOrderedJobs schedule
        [compileLines evaluators cleaned context req, compilePlots evaluators cleaned context req,
          compileObjects evaluators cleaned id context req] with
    | .error first => return (⟨id, [], [], none⟩, errors ++ [.of first], false)
    | .ok outputs =>
      let result : IndicatorResult :=
        ⟨id, outputs.flatMap CompileOutput.series, outputs.flatMap CompileOutput.labels, lastDashboard outputs⟩
      let errors := errors ++ outputs.flatMap CompileOutput.errors
      let silent := result.series.isEmpty && result.labels.isEmpty && result.dashboard.isNone && errors.isEmpty
      return (result, if silent then errors ++ [noOutput] else errors, true)

def versionWarnings (version : Int) : List RuntimeError :=
  if version = 0 then [.of "Pine version is not declared; using the v5-compatible historical subset"]
  else if version < 5 then
    [.of ("legacy Pine v" ++ toString version
      ++ " syntax is accepted through the compatibility subset; v5/v6 semantics are preferred")]
  else if version = 6 then
    [.of "Pine v6 runs in documented closed-bar compatibility mode; realtime rollback and varip semantics remain unsupported"]
  else []

/-- Why a script of a supported version is refused before its candles are looked at. -/
def refusal (scriptMeta : ScriptMeta) (req : CompileRequest InputCandle) : Option String :=
  let features := evaluators.blockingUnsupportedFeatures req.sourceCode
  let properties := evaluators.unsupportedDeclarationExecutionProperties scriptMeta
  if features ≠ [] then some ("unsupported Pine features: " ++ ", ".intercalate features)
  else if properties ≠ [] then
    some ("unsupported Pine declaration execution properties: " ++ ", ".intercalate properties)
  else if !validReplayCutoff req.replayCutoff then
    some "replayCutoff must be a Unix timestamp in seconds between 1 and 253402300799"
  else none

/-- The result as it is shown: with its formats, and clamped if there is a cutoff. -/
def presentResult (scriptMeta : ScriptMeta) (req : CompileRequest InputCandle) (result : IndicatorResult) :
    IndicatorResult :=
  let result := applyIndicatorOutputPresentation evaluators result scriptMeta req.styleOverrides
  match req.replayCutoff with
  | none => result
  | some cutoff => clampIndicatorResultToReplay result cutoff

/-- The id a result is given. -/
def CompileRequest.resultId {C : Type} (req : CompileRequest C) : String :=
  if req.scriptId = "" then "custom" else req.scriptId

/-- `Compile`. -/
def compile (schedule : Schedule) (req : CompileRequest InputCandle) : Except String CompileResponse := do
  let scriptMeta := evaluators.extractMeta req.sourceCode
  let empty : IndicatorResult := ⟨req.resultId, [], [], none⟩
  let features := evaluators.unsupportedFeatures req.sourceCode
  if maxSourceBytes < req.sourceCode.utf8ByteSize then
    return ⟨scriptMeta, empty, [.of "source is too large"], [], features⟩
  else if 6 < scriptMeta.version then
    let feature := "Pine version " ++ toString scriptMeta.version ++ " (only versions through v6 are supported)"
    return ⟨scriptMeta, empty, [.of ("unsupported Pine version: " ++ feature)], [], features ++ [feature]⟩
  else
    let warnings := versionWarnings scriptMeta.version
    match refusal evaluators scriptMeta req with
    | some message => return ⟨scriptMeta, empty, [.of message], warnings, features⟩
    | none =>
      let warnings :=
        if maxCompileCandles < req.cut.length then
          warnings ++ [.of ("compile input truncated to " ++ toString maxCompileCandles ++ " candles")]
        else warnings
      match schedule.cancelledBefore with
      | some gone => return ⟨scriptMeta, empty, [.of gone], warnings, features⟩
      | none =>
        let (result, errors, finished) ← evaluateWindow evaluators schedule req.windowed req.resultId
        return ⟨scriptMeta, if finished then presentResult evaluators scriptMeta req result else result, errors, warnings,
          features⟩

end Compile

end MarketLens.Pine
