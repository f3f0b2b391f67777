import MarketLens.Pine.Colors
import MarketLens.Pine.Stateful.Syntax

/-!
# Values of the stateful VM

What an expression has for a value at one bar. Collections, drawings and plots are
references into a heap; a value copied out of a cell still refers to the same one, so
`cloneStatefulValue` is the identity here.
-/

namespace MarketLens.Pine

/-! ## Addresses -/

/-- The address of a call: a node of the tree, or a copy made while the program runs. -/
inductive CallId where
  | node (node : Nat)
  | copy (number : Nat)
deriving DecidableEq

/-- `*statefulScope`. The scope of a function is made for a call and the scope that calls, once. -/
inductive ScopeId where
  | global
  | call (site : CallId) (caller : ScopeId)
deriving DecidableEq

/-- `statefulCallSite`. -/
abbrev Site := CallId × ScopeId

/-- A VM: the chart's has no site, that of a `request.security` the sites that lead to it. -/
abbrev Region := List Site

/-- The address of something on the heap, in the part of the VM that made it. -/
structure Ref where
  region : Region
  index : Nat
deriving DecidableEq

/-! ## Values -/

/-- `statefulValue`. -/
inductive StatefulValue where
  | na
  | number (value : Point)
  | bool (value : Bool)
  | string (text : String)
  | color (text : String)
  | tuple (values : List StatefulValue)
  | record (typeName : String) (fields : List (String × StatefulValue))
  | array (ref : Ref)
  | map (ref : Ref)
  | matrix (ref : Ref)
  | object (ref : Ref)
  | plot (ref : Ref)

namespace StatefulValue

def isBool : StatefulValue → Bool
  | bool _ => true
  | _ => false

def isText : StatefulValue → Bool
  | string _ | color _ => true
  | _ => false

/-- The test for `na` of the calls: `na` itself or an unusable number. -/
def isNa : StatefulValue → Bool
  | na => true
  | number value => !usable value
  | _ => false

/-- `statefulKindName`. -/
def kindName : StatefulValue → String
  | na => "na"
  | number _ => "number"
  | bool _ => "bool"
  | string _ => "string"
  | color _ => "color"
  | tuple _ => "tuple"
  | record .. => "UDT"
  | array _ => "array"
  | map _ => "map"
  | matrix _ => "matrix"
  | object _ => "drawing"
  | plot _ => "plot"

end StatefulValue

def Literal.value : Literal → StatefulValue
  | .number value => .number value
  | .string text => .string text
  | .color text => .color text

/-- `statefulNumeric`. -/
def statefulNumeric : StatefulValue → Point
  | .number value => value
  | .bool value => some (if value then 1 else 0)
  | _ => none

/-- `statefulValueText`. -/
def statefulValueText (library : Library) (value : StatefulValue) (format : String) : String :=
  match value with
  | .string text | .color text => text
  | .bool value => if value then "true" else "false"
  | .number none => "NaN"
  | .number (some value) =>
    if format = "format.percent" then library.fixed 1 value ++ "%" else library.decimal value
  | _ => ""

/-- `statefulColorText`. -/
def statefulColorText : StatefulValue → String
  | .color text | .string text => text
  | _ => ""

/-- The address of a collection or a drawing, by its kind. -/
def refOf (kind : String) (value : StatefulValue) : Option Ref :=
  match value with
  | .array ref => if kind = "array" then some ref else none
  | .map ref => if kind = "map" then some ref else none
  | .matrix ref => if kind = "matrix" then some ref else none
  | .object ref => if kind = "object" then some ref else none
  | _ => none

/-- Whether one of two values has an address of a kind. -/
def hasRef (kind : String) (left right : StatefulValue) : Bool :=
  (refOf kind left).isSome || (refOf kind right).isSome

/-- `statefulEqual`. -/
def statefulEqual (library : Library) (left right : StatefulValue) : Bool :=
  match left, right with
  | .na, _ | _, .na => false
  | _, _ =>
    if left.isText || right.isText then statefulValueText library left "" = statefulValueText library right ""
    else if hasRef "object" left right then refOf "object" left = refOf "object" right
    else if hasRef "array" left right then refOf "array" left = refOf "array" right
    else if hasRef "map" left right then refOf "map" left = refOf "map" right
    else if hasRef "matrix" left right then refOf "matrix" left = refOf "matrix" right
    else (statefulNumeric left).test (· = ·) (statefulNumeric right)

def isOrdering (operator : String) : Bool :=
  operator = ">" || operator = ">=" || operator = "<" || operator = "<="

/-- `math.Mod`. -/
def mod (a b : Decimal) : Decimal := a - b * truncate (a / b)

/-- `statefulBinary`, of the operators that are not `and` and `or`: these `evaluate` takes itself. -/
def statefulBinary (library : Library) (operator : String) (left right : StatefulValue) :
    Except String StatefulValue :=
  if operator = "==" then .ok (.bool (statefulEqual library left right))
  else if operator = "!=" then .ok (.bool (!statefulEqual library left right))
  else if (left.isText || right.isText) && operator = "+" then
    .ok (.string (statefulValueText library left "" ++ statefulValueText library right ""))
  else
    match statefulNumeric left, statefulNumeric right with
    | some a, some b =>
      match operator with
      | "+" => .ok (.number (some (a + b)))
      | "-" => .ok (.number (some (a - b)))
      | "*" => .ok (.number (some (a * b)))
      | "/" => .ok (if b = 0 then .na else .number (some (a / b)))
      | "%" => .ok (if b = 0 then .na else .number (some (mod a b)))
      | ">" => .ok (.bool (b < a))
      | ">=" => .ok (.bool (b ≤ a))
      | "<" => .ok (.bool (a < b))
      | "<=" => .ok (.bool (a ≤ b))
      | _ => .error ("unsupported operator " ++ operator)
    | _, _ => .ok (if isOrdering operator then .bool false else .na)

/-! ## What is on the heap -/

/-- `statefulTableCell`. -/
structure StatefulTableCell where
  text : String
  textColor : String
  textSize : String

inductive StatefulObjectKind where
  | box
  | line
  | label
  | table
deriving DecidableEq

/-- `statefulObject`; the cells of a table by row and column. -/
structure StatefulObject where
  id : Nat
  kind : StatefulObjectKind
  deleted : Bool
  createdBar : Int
  x1 : Point
  y1 : Point
  x2 : Point
  y2 : Point
  xloc : String
  color : String
  background : String
  style : String
  width : Int
  text : String
  tooltip : String
  position : String
  textSize : String
  table : List ((Int × Int) × StatefulTableCell)

/-- `statefulPlot`. -/
structure StatefulPlot where
  id : Nat
  name : String
  style : String
  width : Int
  offset : Int
  values : List Point
  colors : List String

/-- A place on the heap. -/
inductive StatefulNode where
  | array (elementType : String) (values : List StatefulValue)
  | map (keyType valueType : String) (entries : List (StatefulValue × StatefulValue))
  | matrix (elementType : String) (rows : List (List StatefulValue))
  | object (object : StatefulObject)
  | plot (plot : StatefulPlot)

end MarketLens.Pine
