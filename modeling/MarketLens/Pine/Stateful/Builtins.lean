import MarketLens.Pine.Stateful.Drawings
import MarketLens.Pine.Stateful.History

/-!
# The calls the VM knows

The calls that are neither the script's own nor `request.security`, by their names, and the
methods of the values that have some.
-/

namespace MarketLens.Pine

open Programs

/-- `statefulNamespace`. -/
def statefulNamespace (name : String) : Bool :=
  ["input", "array", "map", "matrix", "math", "ta", "color", "str", "request", "box", "line", "label", "table",
    "plot", "shape", "location", "extend"].contains name

/-- The functions `evaluateTAFunction` takes, without `ta.`. -/
def taFunctions : List String :=
  ["change", "mom", "highest", "lowest", "highestbars", "lowestbars", "barssince", "cross", "crossover", "crossunder",
    "rising", "falling", "dev", "stdev", "variance", "range", "roc", "rsi", "atr", "tr", "hma", "bb", "bbw", "macd"]

/-- A name without a namespace before it. -/
def trimNamespace (name «namespace» : String) : String :=
  if «namespace».toList.isPrefixOf name.toList then String.ofList (name.toList.drop «namespace».length) else name

namespace CallFrame

variable (frame : CallFrame)

section
variable (name : String)

/-- Calls on numbers. -/
def mathBuiltin : Option (CallM StatefulValue) :=
  match name with
  | "math.min" | "min" => some (frame.numericReduce min)
  | "math.max" | "max" => some (frame.numericReduce max)
  | "math.abs" | "abs" => some do return .number ((← frame.numberArgument "" 0).map abs)
  | "math.exp" | "exp" | "math.sin" | "sin" | "math.cos" | "cos" | "math.tan" | "tan" | "math.asin" | "math.acos"
  | "math.atan" | "math.sqrt" | "sqrt" | "math.log" | "math.log10" | "math.round" | "round" | "math.floor" | "floor"
  | "math.ceil" | "math.sign" | "int" | "float" => some (frame.numericUnary (unaryOperation frame.library name))
  | "math.pow" => some (frame.numericBinary frame.library.pow)
  | "math.avg" => some frame.numericAverage
  | "math.sum" => some frame.evaluateRollingSum
  | _ => none

/-- Calls on values, text and colors. -/
def valueBuiltin : Option (CallM StatefulValue) :=
  match name with
  | "bool" => some do return .bool (← statefulTruthy (← frame.callArgument "" 0))
  | "string" => some do return .string (frame.textOf (← frame.callArgument "" 0))
  | "color.new" => some frame.colorNew
  | "color" => some frame.colorCast
  | "color.r" | "color.g" | "color.b" => some (frame.colorComponent name)
  | "color.rgb" => some frame.colorRGB
  | "str.tostring" => some frame.strTostring
  | "str.length" | "str.lower" | "str.upper" | "str.trim" | "str.contains" | "str.startswith" | "str.endswith"
  | "str.replace_all" | "str.substring" | "str.pos" | "str.repeat" | "str.format" =>
    some (frame.evaluateStringFunction name)
  | "na" => some frame.naTest
  | "nz" => some frame.nz
  | "input" | "input.int" | "input.float" | "input.bool" | "input.color" | "input.string" | "input.timeframe"
  | "input.source" | "input.symbol" | "input.session" | "input.text_area" => some (frame.evaluateInput name)
  | "array.new" | "array.new_float" | "array.new_int" | "array.new_bool" | "array.new_string" | "array.new_color"
  | "array.new_line" | "array.new_box" | "array.new_label" => some frame.constructArray
  | "array.from" => some frame.constructArrayFrom
  | "map.new" => some frame.constructMap
  | "matrix.new" => some frame.constructMatrix
  | _ => none

/-- Calls that record what they are given. -/
def historyBuiltin : Option (CallM StatefulValue) :=
  match name with
  | "ta.sma" | "sma" | "ta.ema" | "ema" | "ta.rma" | "rma" | "ta.wma" | "wma" | "ta.vwma" | "vwma" =>
    some (frame.evaluateMovingAverage name)
  | "ta.valuewhen" | "valuewhen" => some frame.evaluateValueWhen
  | "ta.cum" | "cum" => some frame.evaluateCumulative
  | "ta.pivothigh" | "pivothigh" => some (frame.evaluatePivot true)
  | "ta.pivotlow" | "pivotlow" => some (frame.evaluatePivot false)
  | _ =>
    let short := trimNamespace name "ta."
    if taFunctions.contains short then some (frame.evaluateTAFunction short) else none

def drawingBuiltin : Option (CallM StatefulValue) :=
  match name with
  | "box.new" => some frame.constructBox
  | "line.new" => some frame.constructLine
  | "line.get_x2" => some frame.lineCoordinate
  | "line.set_x2" => some frame.setLineCoordinate
  | "label.new" => some frame.constructLabel
  | "table.new" => some frame.constructTable
  | "plot" => some frame.evaluatePlot
  | "plotshape" | "plotchar" | "plotarrow" => some (frame.evaluatePlotMarker name)
  | "fill" => some frame.evaluateFill
  | "alertcondition" => some (return .na)
  | _ => none

/-- The switch of `evaluateCall`. -/
def builtin : CallM StatefulValue :=
  (((frame.mathBuiltin name).orElse fun _ => frame.valueBuiltin name).orElse fun _ =>
    (frame.historyBuiltin name).orElse fun _ => frame.drawingBuiltin name).getD
      (fail ("unsupported call " ++ name ++ "()"))

/-- The methods of the receiver's own, in `evaluateMethod`. -/
def builtinMethod (receiver : StatefulValue) : CallM (Option StatefulValue) :=
  match receiver with
  | .array ref => frame.evaluateArrayMethod name ref
  | .map ref => some <$> frame.evaluateMapMethod name ref
  | .matrix ref => some <$> frame.evaluateMatrixMethod name ref
  | .object ref => frame.evaluateObjectMethod name ref
  | _ => return none

end

end CallFrame

end MarketLens.Pine
