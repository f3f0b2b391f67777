import MarketLens.Pine.Stateful.Collections

/-!
# Drawings and plots

What a call draws is an object on the heap. A VM retains its objects up to a limit for
each kind, the oldest are deleted; that of a `request.security` retains none.
-/

namespace MarketLens.Pine

open Programs

/-! ## Objects -/

def loadObject (ref : Ref) : MachineM StatefulObject := do
  match ← load ref with
  | some (.object object) => return object
  | _ => nilReference

/-- `newObject`; it is put on the heap when it is complete. -/
def newObject (kind : StatefulObjectKind) : MachineM StatefulObject := do
  modifyMemory fun memory => { memory with nextObjectID := memory.nextObjectID + 1 }
  let memory ← getMemory
  return {
    id := memory.nextObjectID, kind := kind, deleted := false, createdBar := (← currentBar), x1 := some 0,
    y1 := some 0, x2 := some 0, y2 := some 0, xloc := "", color := "", background := "", style := "", width := 1,
    text := "", tooltip := "", position := "", textSize := "", table := [] }

/-- The loop of `retainObject`, over the objects from the latest on. -/
def deleteBeyond (kind : StatefulObjectKind) (limit : Int) : Int → List Ref → MachineM Unit
  | _, [] => return ()
  | count, ref :: rest => do
    let candidate ← loadObject ref
    if candidate.kind ≠ kind || candidate.deleted then deleteBeyond kind limit count rest
    else
      if limit < count + 1 then store ref (.object { candidate with deleted := true })
      deleteBeyond kind limit (count + 1) rest

namespace CallFrame

variable (frame : CallFrame)

/-- `retainObject`: the object is put on the heap, and among those of the VM. -/
def retainObject (object : StatefulObject) (limit : Int) : MachineM StatefulValue := do
  let ref ← alloc (.object object)
  if frame.setting.outputSuppressed then return .object ref
  else
    modifyMemory fun memory => { memory with objects := memory.objects ++ [ref] }
    if 0 < limit then deleteBeyond object.kind limit 0 (← getMemory).objects.reverse
    return .object ref

/-- `constructBox`. -/
def constructBox : CallM StatefulValue := do
  let object ← newObject .box
  let x1 ← frame.numberArgument "left" 0
  let y1 ← frame.numberArgument "top" 1
  let x2 ← frame.numberArgument "right" 2
  let y2 ← frame.numberArgument "bottom" 3
  let xloc ← frame.textArgument "xloc" 8 "xloc.bar_index"
  let background ← frame.colorArgument "bgcolor" 9 defaultColor
  let color ← frame.colorArgument "border_color" 4 ""
  frame.retainObject { object with x1, y1, x2, y2, xloc, background, color } frame.setting.program.maxBoxes

/-- `constructLine`. -/
def constructLine : CallM StatefulValue := do
  let object ← newObject .line
  let x1 ← frame.numberArgument "x1" 0
  let y1 ← frame.numberArgument "y1" 1
  let x2 ← frame.numberArgument "x2" 2
  let y2 ← frame.numberArgument "y2" 3
  let xloc ← frame.textArgument "xloc" 4 "xloc.bar_index"
  let color ← frame.colorArgument "color" 6 defaultColor
  let style ← frame.textArgument "style" 7 "line.style_solid"
  let width := roundedAtLeast 1 (some (← frame.numberArgumentOr "width" 8 1))
  frame.retainObject { object with x1, y1, x2, y2, xloc, color, style, width } frame.setting.program.maxLines

/-- `constructLabel`. -/
def constructLabel : CallM StatefulValue := do
  let object ← newObject .label
  let x1 ← frame.numberArgument "x" 0
  let y1 ← frame.numberArgument "y" 1
  let text ← frame.textArgument "text" 2 ""
  let xloc ← frame.textArgument "xloc" 3 "xloc.bar_index"
  let background ← frame.colorArgument "color" 5 "#2196f3"
  let style ← frame.textArgument "style" 6 "label.style_label_down"
  let color ← frame.colorArgument "textcolor" 7 "#ffffff"
  let tooltip ← frame.textArgument "tooltip" 10 ""
  frame.retainObject { object with x1, y1, text, xloc, background, style, color, tooltip } frame.setting.program.maxLabels

/-- `constructTable`: a table is retained whatever the VM. -/
def constructTable : CallM StatefulValue := do
  let object ← newObject .table
  let position ← frame.textArgument "position" 0 "position.top_right"
  let ref ← alloc (.object { object with position })
  modifyMemory fun memory => { memory with objects := memory.objects ++ [ref] }
  return .object ref

/-! ## Changes of objects -/

/-- The line an argument refers to, if it is one that was not deleted. -/
def lineArgument : CallM (Option (Ref × StatefulObject)) := do
  match ← frame.callArgument "id" 0 with
  | .object ref =>
    let object ← loadObject ref
    return if object.kind ≠ .line || object.deleted then none else some (ref, object)
  | _ => return none

/-- `lineCoordinate`, of `x2`. -/
def lineCoordinate : CallM StatefulValue := do
  match ← frame.lineArgument with
  | none => return .na
  | some (_, object) => return .number object.x2

/-- `setLineCoordinate`, of `x2`. -/
def setLineCoordinate : CallM StatefulValue := do
  match ← frame.lineArgument with
  | none => return .na
  | some (ref, _) =>
    match ← frame.numberArgument "x2" 1 with
    | none => return .na
    | some point =>
      store ref (.object { ← loadObject ref with x2 := some point })
      return .na

/-- `evaluateTableCell`. -/
def evaluateTableCell (ref : Ref) : CallM StatefulValue := do
  let column := toInt (Point.round (some (← frame.numberArgumentOr "column" 0 (-1))))
  let row := toInt (Point.round (some (← frame.numberArgumentOr "row" 1 (-1))))
  if column < 0 || row < 0 then fail "table cell coordinates must be non-negative"
  else
    let text ← frame.textArgument "text" 2 ""
    let textColor ← frame.colorArgument "text_color" 5 "#ffffff"
    let textSize ← frame.textArgument "text_size" 8 ""
    let object ← loadObject ref
    let cells := object.table.filter (fun cell => cell.1 ≠ (row, column)) ++ [((row, column), ⟨text, textColor, textSize⟩)]
    store ref (.object
      { object with table := cells, textSize := if textSize ≠ "" then textSize else object.textSize })
    return .na

/-- The methods of `evaluateMethod` on a drawing; there is no other if none is returned. -/
def evaluateObjectMethod (name : String) (ref : Ref) : CallM (Option StatefulValue) := do
  match name with
  | "delete" =>
    store ref (.object { ← loadObject ref with deleted := true })
    return some .na
  | "cell" =>
    if (← loadObject ref).kind ≠ .table then fail "cell() receiver is not a table"
    else return some (← frame.evaluateTableCell ref)
  | _ => return none

/-! ## Plots -/

def loadPlot (ref : Ref) : MachineM StatefulPlot := do
  match ← load ref with
  | some (.plot plot) => return plot
  | _ => nilReference

/-- The plot of the call, made when it is evaluated first. -/
def plotOfCall : CallM Ref := do
  let memory ← getMemory
  match memory.plotCalls frame.site with
  | some ref => return ref
  | none =>
    modifyMemory fun memory => { memory with nextPlotID := memory.nextPlotID + 1 }
    let name ← frame.textArgument "title" 1 memory.assigningName
    let style ← frame.textArgument "style" 4 "plot.style_line"
    let width := roundedAtLeast 1 (some (← frame.numberArgumentOr "linewidth" 3 1))
    let offset := toInt (Point.round (some (← frame.numberArgumentOr "offset" 7 0)))
    let id := (← getMemory).nextPlotID
    let ref ← alloc (.plot { id, name, style, width, offset, values := [], colors := [] })
    modifyMemory fun memory =>
      { memory with
        plotCalls := put memory.plotCalls frame.site (some ref)
        plots := if frame.setting.outputSuppressed then memory.plots else memory.plots ++ [ref] }
    return ref

/-- `evaluatePlot`. -/
def evaluatePlot : CallM StatefulValue := do
  let ref ← frame.plotOfCall
  let point ← frame.numberArgument "series" 0
  let color ← frame.colorArgument "color" 2 defaultColor
  let bar ← currentBar
  let plot ← loadPlot ref
  store ref (.plot
    { plot with values := recordAt none plot.values bar point, colors := recordAt "" plot.colors bar color })
  return .plot ref

/-- `statefulShapeText`. -/
def statefulShapeText (style : String) : String :=
  match style with
  | "shape.triangleup" => "▲"
  | "shape.triangledown" => "▼"
  | "shape.arrowup" => "↑"
  | "shape.arrowdown" => "↓"
  | "shape.circle" => "●"
  | "shape.square" => "■"
  | "shape.diamond" => "◆"
  | "shape.cross" => "+"
  | "shape.labelup" | "shape.labeldown" => ""
  | _ => "×"

/-- The character, the location and the height of a marker, unless it is not to be seen. -/
def markerOf (name : String) (series : StatefulValue) (candle : Candle) : CallM (Option (String × String × Point)) := do
  let location ← frame.textArgument "location" 3 "location.abovebar"
  if name = "plotarrow" then
    match statefulNumeric series with
    | none => return none
    | some value =>
      if value = 0 then return none
      else if 0 < value then return some ("▲", "location.belowbar", some candle.low)
      else return some ("▼", "location.abovebar", some candle.high)
  else if !(← booleanValue frame.setting.version series) then return none
  else
    let height : Point := if location = "location.belowbar" then some candle.low else some candle.high
    let placed := if location = "location.absolute" then statefulNumeric series else height
    if name = "plotchar" then return some (← frame.textArgument "char" 2 "•", location, placed)
    else
      let style ← frame.textArgument "style" 2 "shape.xcross"
      let text ← frame.textArgument "text" 6 ""
      return some (if text ≠ "" then text else statefulShapeText style, location, placed)

/-- `evaluatePlotMarker`. -/
def evaluatePlotMarker (name : String) : CallM StatefulValue := do
  let series ← frame.callArgument "series" 0
  match ← candleAgo 0 with
  | none => indexPanic
  | some candle =>
    match ← frame.markerOf name series candle with
    | none => return .na
    | some (text, position, y1) =>
      let object ← newObject .label
      let x1 : Point := some ((← currentBar) + (← frame.numberArgumentOr "offset" 5 0))
      let fallback ← frame.colorArgument "color" 4 defaultColor
      let color ← frame.colorArgument "textcolor" 7 fallback
      let textSize ← frame.textArgument "size" 9 "size.auto"
      frame.retainObject
        { object with
          x1, y1, text, color, position, textSize, xloc := "xloc.bar_index", style := "label.style_none",
          background := "transparent" }
        frame.setting.program.maxLabels

/-! ## Fills -/

/-- The fill of the call, made when it is evaluated first. -/
def fillOfCall (first second : Ref) : CallM StatefulFill := do
  let memory ← getMemory
  match memory.fillCalls frame.site with
  | some fill => return fill
  | none =>
    let fill : StatefulFill := ⟨memory.nextFillID + 1, first, second, []⟩
    modifyMemory fun memory =>
      { memory with
        nextFillID := memory.nextFillID + 1
        fillCalls := put memory.fillCalls frame.site (some fill)
        fills := if frame.setting.outputSuppressed then memory.fills else memory.fills ++ [frame.site] }
    return fill

/-- `evaluateFill`. -/
def evaluateFill : CallM StatefulValue := do
  let first ← frame.callArgument "plot1" 0
  let second ← frame.callArgument "plot2" 1
  match first, second with
  | .plot first, .plot second =>
    let fill ← frame.fillOfCall first second
    let color ← frame.colorArgument "color" 2 ""
    let bar ← currentBar
    modifyMemory fun memory =>
      let held := (memory.fillCalls frame.site).getD fill
      { memory with
        fillCalls := put memory.fillCalls frame.site
          (some { held with colors := recordAt "" held.colors bar color }) }
    return .na
  | _, _ => fail "fill() expects plot handles"

end CallFrame

end MarketLens.Pine
