import MarketLens.Pine.Compile
import MarketLens.Pine.Stateful.Run

/-!
# What a run shows

The result of a VM has the series of its boxes and lines in the order they were made, then those
of its plots, then those of its fills, and of all these only the last ones up to a limit. A box or
a line makes one series at most, so does a plot; a fill makes one for each of its segments.
-/

namespace MarketLens.Pine

/-! ## Texts of the schema -/

/-- `strings.TrimPrefix`. -/
def trimLead (lead text : String) : String :=
  if lead.toList.isPrefixOf text.toList then String.ofList (text.toList.drop lead.length) else text

/-- `strings.Contains`, over characters. -/
def hasPart (part : List Char) : List Char → Bool
  | [] => part.isEmpty
  | c :: rest => part.isPrefixOf (c :: rest) || hasPart part rest

/-- `lineStyle`. -/
def lineStyle (expression : String) : Int :=
  let lowered := String.ofList ((trim expression).toList.map Char.toLower)
  match ["plot.style_", "line.style_", "hline.style_"].foldl (fun key lead => trimLead lead key) lowered with
  | "dotted" => 1
  | "dashed" => 2
  | "large_dashed" => 3
  | "sparse_dotted" => 4
  | _ => 0

/-- `plotType`. -/
def plotType (expression : String) : String :=
  let key := (trim expression).toList.map Char.toLower
  if hasPart "columns".toList key || hasPart "histogram".toList key then "histogram" else "line"

/-! ## Drawings -/

section
variable (candles : List Candle)

/-- `objectTime`. -/
def objectTime (value : Point) (xloc : String) : Option Int :=
  match value, candles[0]?, candles[candles.length - 1]? with
  | some value, some first, some last =>
    if xloc = "xloc.bar_time" then
      some (toInt (Point.round (some (if 10000000000 < value then value / 1000 else value))))
    else
      let index := toInt (Point.round (some value))
      let step := candleStepSeconds candles
      if index < 0 then some (wrap64 (first.time + index * step))
      else if candles.length ≤ index then some (wrap64 (last.time + (index - candles.length + 1) * step))
      else (candles[index.toNat]?).map Candle.time
  | _, _, _ => none

/-- A series without the parts that a drawing, a plot and a fill do not all have. -/
def plainSeries (key color type : String) (data : List LinePoint) : IndicatorSeries where
  key := key
  color := color
  data := data
  type := type
  valueFormat := ""
  lineWidth := none
  lineStyle := none
  baseValue := none
  fillBelowBase := none
  lastValueVisible := none
  statusLineVisible := none
  extendToVisibleRange := none
  lineVisible := none
  precision := none

section
variable (object : StatefulObject)

/-- `boxSeries`. -/
def boxSeries : Option IndicatorSeries :=
  match objectTime candles object.x1 object.xloc, objectTime candles object.x2 object.xloc with
  | some left, some right =>
    if usable object.y1 && usable object.y2 then
      some { plainSeries ("stateful:box:" ++ toString object.id) object.background "baselineFill"
          [⟨left, object.y1, none⟩, ⟨right, object.y1, none⟩] with
        baseValue := some object.y2, lineVisible := some false, lastValueVisible := some false
        statusLineVisible := some false }
    else none
  | _, _ => none

/-- `lineSeries`. -/
def lineSeries : Option IndicatorSeries :=
  match objectTime candles object.x1 object.xloc, objectTime candles object.x2 object.xloc with
  | some x1, some x2 =>
    if usable object.y1 && usable object.y2 then
      let extendsRight := (candles[candles.length - 1]?).any fun last => last.time < x2
      some { plainSeries ("stateful:line:" ++ toString object.id) object.color "line"
          [⟨x1, object.y1, none⟩, ⟨x2, object.y2, none⟩] with
        lineWidth := some (if object.width ≤ 0 then 1 else object.width)
        lineStyle := some (lineStyle object.style), lastValueVisible := some extendsRight
        statusLineVisible := some extendsRight, extendToVisibleRange := some extendsRight }
    else none
  | _, _ => none

/-- `labelResult`. -/
def labelResult : Option IndicatorOverlayLabel :=
  if !usable object.y1 || trim object.text = "" then none
  else some {
    key := "stateful:label:" ++ toString object.id, price := object.y1, text := object.text, color := object.color
    backgroundColor := object.background, style := object.style, tooltip := object.tooltip
    time := objectTime candles object.x1 object.xloc }

/-- The words of a text, as `strings.Fields` has them. -/
def wordsOf (text : List Char) : List (List Char) :=
  (text.splitBy fun a b => isWhiteSpace a == isWhiteSpace b).filter fun word => !word.all isWhiteSpace

/-- `statefulDisplayEnum`. -/
def statefulDisplayEnum (value : String) : String :=
  let text := ((trim value).toList.reverse.takeWhile (· ≠ '.')).reverse
  let parts := (wordsOf (text.map fun c => if c = '_' then ' ' else c)).map fun word =>
    String.ofList ((word.take 1).map Char.toUpper ++ (word.drop 1).map Char.toLower)
  String.intercalate " " parts

/-- `statefulTableDashboard`: the cells of the row above and of the column to the left are headings. -/
def statefulTableDashboard : Option IndicatorDashboard :=
  let textAt (row column : Int) : String :=
    ((object.table.find? fun cell => cell.1 = (row, column)).map fun cell => cell.2.text).getD ""
  let inner := (object.table.filter fun cell => 0 < cell.1.1 && 0 < cell.1.2).insertionSort fun a b =>
    a.1.1 < b.1.1 ∨ (a.1.1 = b.1.1 ∧ a.1.2 ≤ b.1.2)
  let rows := inner.filterMap fun cell =>
    let label := trim (trim (textAt 0 cell.1.2) ++ " " ++ trim (textAt cell.1.1 0))
    if label = "" && cell.2.text = "" then none
    else some (⟨label, cell.2.text, cell.2.textColor⟩ : IndicatorDashboardRow)
  if object.deleted || rows.isEmpty then none
  else some {
    key := "stateful:table:" ++ toString object.id, title := "Dashboard", subtitle := ""
    position := statefulDisplayEnum object.position, textSize := statefulDisplayEnum object.textSize, rows := rows }

end

/-! ## Plots -/

/-- A color that shows. -/
def isVisible (color : String) : Bool := color ≠ "" && color ≠ "transparent"

/-- The points of a plot: a value shifted off the chart has none. -/
def plotData (plot : StatefulPlot) : List LinePoint :=
  plot.values.zipIdx.filterMap fun (value, index) =>
    let target := wrap64 (index + plot.offset)
    if target < 0 || !usable value then none
    else (candles[target.toNat]?).map fun candle =>
      { time := candle.time, value := value, color := (plot.colors[index]?).filter (· ≠ "") }

/-- `plotSeries`; its color is the last one that shows. -/
def plotSeries (plot : StatefulPlot) : Option IndicatorSeries :=
  let color := ((plot.colors.take plot.values.length).filter isVisible).getLast?.getD ""
  let data := plotData candles plot
  if data.isEmpty || color = "" then none
  else some { plainSeries ("stateful:plot:" ++ toString plot.id ++ ":" ++ plot.name) color (plotType plot.style) data with
    lineWidth := some (if plot.width ≤ 0 then 1 else plot.width) }

end

/-! ## Fills -/

structure FillSegment where
  start : Nat
  base : Decimal
  color : String

/-- What `fillSeries` has so far. -/
structure FillProgress where
  segment : Option FillSegment
  series : List IndicatorSeries

/-- The points of a fill between two bars. -/
def segmentData (candles : List Candle) (values : List Point) (start stop : Nat) : List LinePoint :=
  (List.range' start (stop - start)).filterMap fun index =>
    match candles[index]?, (values[index]?).join with
    | some candle, some value => some ⟨candle.time, some value, none⟩
    | _, _ => none

/-- `flush`: the segment ends before a bar. -/
def FillProgress.flush (progress : FillProgress) (candles : List Candle) (id : Nat) (values : List Point) (stop : Nat) :
    FillProgress :=
  match progress.segment with
  | none => progress
  | some segment =>
    let data := segmentData candles values segment.start stop
    if data.isEmpty || segment.color = "" then { progress with segment := none }
    else
      let below := data.any fun point => point.value.any (· < segment.base)
      { segment := none
        series := progress.series ++
          [{ plainSeries ("stateful:fill:" ++ toString id ++ ":" ++ toString (progress.series.length + 1)) segment.color
              "baselineFill" data with
            baseValue := some (some segment.base), fillBelowBase := some below, lineVisible := some false
            lastValueVisible := some false, statusLineVisible := some false }] }

/-- The base and the color of a bar, if it can be filled; without a color of its own it has that of the
segment before it. -/
def fillAt (segment : Option FillSegment) (first second : Point) (given : Option String) : Option (Decimal × String) :=
  match first, second with
  | some _, some base =>
    let color := (given.filter (· ≠ "")).getD ((segment.map FillSegment.color).getD "")
    if color = "" then none else some (base, color)
  | _, _ => none

/-- Whether a bar does not go on with the segment before it. -/
def FillSegment.endsAt (segment : FillSegment) (base : Decimal) (color : String) : Bool :=
  1 / 1000000000000 < |base - segment.base| || color ≠ segment.color

/-- One bar of `fillSeries`. -/
def FillProgress.step (candles : List Candle) (id : Nat) (firsts seconds : List Point) (colors : List String)
    (progress : FillProgress) (index : Nat) : FillProgress :=
  match fillAt progress.segment (firsts[index]?).join (seconds[index]?).join colors[index]? with
  | none => progress.flush candles id firsts index
  | some (base, color) =>
    match progress.segment with
    | none => { progress with segment := some ⟨index, base, color⟩ }
    | some held =>
      if held.endsAt base color then
        { progress.flush candles id firsts index with segment := some ⟨index, base, color⟩ }
      else progress

/-- `fillSeries`, of two plots. -/
def fillSeries (candles : List Candle) (id : Nat) (colors : List String) (first second : StatefulPlot) :
    List IndicatorSeries :=
  let length := min candles.length (min first.values.length second.values.length)
  let progress := (List.range length).foldl (FillProgress.step candles id first.values second.values colors) ⟨none, []⟩
  (progress.flush candles id first.values length).series

/-! ## The result -/

/-- `statefulLimitSeries`. -/
def statefulLimitSeries {α : Type} (series : List α) (limit : Int) : List α :=
  if limit ≤ 0 || (series.length : Int) ≤ limit then series else series.drop (series.length - limit.toNat)

namespace Vm

variable (vm : Vm) (s : VmState)

def objectAt (ref : Ref) : Option StatefulObject :=
  match s.load ref with
  | some (.object object) => some object
  | _ => none

def plotAt (ref : Ref) : Option StatefulPlot :=
  match s.load ref with
  | some (.plot plot) => some plot
  | _ => none

/-- The series of a drawing: labels and tables have none. -/
def drawingSeries (object : StatefulObject) : Option IndicatorSeries :=
  if object.deleted then none
  else
    match object.kind with
    | .box => boxSeries vm.candles object
    | .line => lineSeries vm.candles object
    | .label | .table => none

/-- The segments of a fill that is among those of the VM. -/
def segmentsOf (site : Site) : List IndicatorSeries :=
  match s.memory.fillCalls site with
  | none => []
  | some fill =>
    match plotAt s fill.first, plotAt s fill.second with
    | some first, some second => fillSeries vm.candles fill.id fill.colors first second
    | _, _ => []

/-- The limit of the result. -/
def seriesLimit : Int :=
  wrap64 (vm.setting.program.maxBoxes + vm.setting.program.maxLines + s.memory.plots.length * 2)

/-- `result`. -/
def result (id : String) : IndicatorResult :=
  let objects := s.memory.objects.filterMap (objectAt s)
  let drawn := objects.filterMap vm.drawingSeries
  let plotted := (s.memory.plots.filterMap (plotAt s)).filterMap (plotSeries vm.candles)
  let filled := s.memory.fills.flatMap (vm.segmentsOf s)
  let kept := objects.filter fun object => !object.deleted
  { id := id
    series := statefulLimitSeries (drawn ++ plotted ++ filled) (vm.seriesLimit s)
    labels := (kept.filter fun object => object.kind = .label).filterMap (labelResult vm.candles)
    dashboard := (kept.filter fun object => object.kind = .table).findSome? statefulTableDashboard }

end Vm

end MarketLens.Pine
