import MarketLens.Pine.Stateful.Machine

/-!
# Calls of functions on numbers, text and colors

Code of a call asks for its arguments by name or position, in the order and as often as
the source evaluates them, and decides on their values.
-/

namespace MarketLens.Pine

open Programs

/-- A call being evaluated: its expression, the address it is known under and the scope it is in. -/
structure CallFrame where
  setting : Setting
  call : StatefulCall
  id : CallId
  scope : ScopeId

namespace CallFrame

variable (frame : CallFrame)

def site : Site := (frame.id, frame.scope)

def library : Library := frame.setting.library

/-- `statefulValueText` without a format. -/
def textOf (value : StatefulValue) : String := statefulValueText frame.library value ""

end CallFrame

/-! ## Arguments -/

def StatefulCall.argumentPlace (call : StatefulCall) (name : String) (index : Nat) : Option Nat :=
  let named := if name = "" then none else call.arguments.findIdx? fun argument => argument.1 = name
  named.orElse fun _ =>
    (((List.range call.arguments.length).filter fun k => (call.arguments[k]?).any fun argument => argument.1 = "")[index]?)

/-- The value of the argument at a place of the list. -/
def argumentAt (k : Nat) : CallM StatefulValue := ExceptT.mk (Program.request (CallOp.argument k))

/-- What code does without if it ends in an error. -/
def attempt {α : Type} (code : CallM α) : CallM (Option α) :=
  ExceptT.mk do
    match ← code.run with
    | .ok value => return .ok (some value)
    | .error stop => if stop.kind = .panicked then return .error stop else return .ok none

namespace CallFrame

variable (frame : CallFrame)

section
variable (name : String) (index : Nat)

/-- Whether `rawArgument` finds an expression. -/
def hasArgument : Bool := (frame.call.argumentPlace name index).isSome

def callArgument : CallM StatefulValue :=
  match frame.call.argumentPlace name index with
  | some k => argumentAt k
  | none => return .na

def numberArgument : CallM Point := do
  return statefulNumeric (← frame.callArgument name index)

def numberArgumentOr (fallback : Decimal) : CallM Decimal := do
  return (← attempt (frame.numberArgument name index)).join.getD fallback

def textArgument (fallback : String) : CallM String := do
  match ← attempt (frame.callArgument name index) with
  | none => return fallback
  | some value =>
    let text := frame.textOf value
    return if text = "" || text = "NaN" then fallback else text

def colorArgument (fallback : String) : CallM String := do
  if frame.hasArgument name index then
    match ← attempt (frame.callArgument name index) with
    | none => return fallback
    | some value =>
      if value.isNa then return "transparent"
      else return if statefulColorText value ≠ "" then statefulColorText value else fallback
  else return fallback

/-- `callLength`. -/
def callLength (fallback : Int) : CallM Int := do
  match ← frame.numberArgument name index with
  | none => return fallback
  | some number =>
    let length := toInt (Point.round (some number))
    if length ≤ 0 then fail "length must be greater than zero" else return length

end

/-! ## Numbers -/

/-- The rest of `numericReduce`. -/
def reduceArguments (reducer : Decimal → Decimal → Decimal) : Decimal → List Nat → CallM StatefulValue
  | point, [] => return .number (some point)
  | point, k :: rest => do
    match statefulNumeric (← argumentAt k) with
    | none => return .na
    | some other => reduceArguments reducer (reducer point other) rest

def numericReduce (reducer : Decimal → Decimal → Decimal) : CallM StatefulValue := do
  if frame.call.arguments.isEmpty then return .na
  else
    match statefulNumeric (← argumentAt 0) with
    | none => return .na
    | some point => reduceArguments reducer point (List.range' 1 (frame.call.arguments.length - 1))

def numericUnary (operation : Decimal → Point) : CallM StatefulValue := do
  match ← frame.numberArgument "" 0 with
  | none => return .na
  | some point => return .number (operation point)

def numericBinary (operation : Decimal → Decimal → Point) : CallM StatefulValue := do
  let left ← frame.numberArgument "" 0
  let right ← frame.numberArgument "" 1
  match left, right with
  | some a, some b => return .number (operation a b)
  | _, _ => return .na

/-- The loop of `numericAverage`. -/
def totalArguments (count : Nat) : Decimal → List Nat → CallM StatefulValue
  | total, [] => return .number (some (total / count))
  | total, k :: rest => do
    match statefulNumeric (← argumentAt k) with
    | none => return .na
    | some number => totalArguments count (total + number) rest

def numericAverage : CallM StatefulValue :=
  if frame.call.arguments.isEmpty then return .na
  else totalArguments frame.call.arguments.length 0 (List.range frame.call.arguments.length)

end CallFrame

/-- The rounding functions of `math`, `math.sign` and the casts, and the library's other functions. -/
def unaryOperation (library : Library) (name : String) (value : Decimal) : Point :=
  match name with
  | "math.sqrt" | "sqrt" => library.sqrt value
  | "math.round" | "round" => some (roundAway value)
  | "math.floor" | "floor" => some ⌊value⌋
  | "math.ceil" => some ⌈value⌉
  | "math.sign" => some (if 0 < value then 1 else if value < 0 then -1 else 0)
  | "int" => some (truncate value)
  | "float" => some value
  | _ => library.unary name value

/-! ## Text -/

/-- `strings.ReplaceAll` of a text that is not empty; so many characters are still part of the last one
found. -/
def replaceFrom (old new : List Char) : Nat → List Char → List Char
  | _, [] => []
  | skip + 1, _ :: rest => replaceFrom old new skip rest
  | 0, c :: rest =>
    if old.isPrefixOf (c :: rest) then new ++ replaceFrom old new (old.length - 1) rest
    else c :: replaceFrom old new 0 rest

def replaceAll (text old new : String) : String :=
  if old = "" then
    String.ofList (new.toList ++ text.toList.flatMap fun c => c :: new.toList)
  else String.ofList (replaceFrom old.toList new.toList 0 text.toList)

/-- `strings.Index`, in bytes. -/
def indexFrom (target : List Char) : List Char → Int → Int
  | [], at_ => if target.isEmpty then at_ else -1
  | c :: rest, at_ =>
    if target.isPrefixOf (c :: rest) then at_ else indexFrom target rest (at_ + c.utf8Size)

namespace CallFrame

variable (frame : CallFrame)

/-- The loop of `str.format`. -/
def formatArguments : List Nat → String → CallM StatefulValue
  | [], formatted => return .string formatted
  | k :: rest, formatted => do
    let value ← argumentAt k
    formatArguments rest (replaceAll formatted ("\x7b" ++ toString (k - 1) ++ "\x7d") (frame.textOf value))

/-- Where a part of a text of so many characters ends. -/
def endPosition (count : Nat) : CallM Int := do
  if 2 < frame.call.arguments.length then
    let point ← frame.numberArgument "end_pos" 2
    return toInt point.round
  else return count

/-- `evaluateStringFunction`. -/
def evaluateStringFunction (name : String) : CallM StatefulValue := do
  let sourceValue ← frame.callArgument "source" 0
  let source := frame.textOf sourceValue
  match name with
  | "str.length" => return .number (some (source.length : Decimal))
  | "str.lower" => return .string (frame.library.lower source)
  | "str.upper" => return .string (frame.library.upper source)
  | "str.trim" => return .string (trim source)
  | "str.format" => frame.formatArguments (List.range' 1 (frame.call.arguments.length - 1)) source
  | _ =>
    let targetValue ← frame.callArgument "str" 1
    let target := frame.textOf targetValue
    match name with
    | "str.contains" => return .bool (decide (0 ≤ indexFrom target.toList source.toList 0))
    | "str.startswith" => return .bool (target.toList.isPrefixOf source.toList)
    | "str.endswith" => return .bool (target.toList.isSuffixOf source.toList)
    | "str.pos" => return .number (some (indexFrom target.toList source.toList 0 : Decimal))
    | "str.repeat" =>
      let count := roundedAtLeast 0 (statefulNumeric targetValue)
      if count < 0 then panic "strings: negative Repeat count"
      else return .string (String.ofList (List.replicate count.toNat source.toList).flatten)
    | "str.replace_all" =>
      let replacementValue ← frame.callArgument "replacement" 2
      return .string (replaceAll source target (frame.textOf replacementValue))
    | "str.substring" =>
      let runes := source.toList
      let begin_ := toInt (statefulNumeric targetValue).round
      let end_ ← frame.endPosition runes.length
      if begin_ < 0 || end_ < begin_ || (runes.length : Int) < end_ then
        fail ("substring indexes [" ++ toString begin_ ++ "," ++ toString end_ ++ "] out of bounds")
      else return .string (String.ofList ((runes.take end_.toNat).drop begin_.toNat))
    | _ => fail ("unsupported string function " ++ name ++ "()")

def strTostring : CallM StatefulValue := do
  let value ← frame.callArgument "" 0
  if 1 < frame.call.arguments.length then
    let formatValue ← argumentAt 1
    return .string (statefulValueText frame.library value (frame.textOf formatValue))
  else return .string (frame.textOf value)

/-! ## Colors -/

def colorNew : CallM StatefulValue := do
  let base ← frame.callArgument "color" 0
  let transparency ← frame.callArgument "transp" 1
  let color := statefulColorText base
  if color = "" then return .na
  else
    match statefulNumeric transparency with
    | none => return .color color
    | some point => return .color (withTransparency frame.library color point)

def colorComponent (name : String) : CallM StatefulValue := do
  let (r, g, b) := statefulRGBComponents (statefulColorText (← frame.callArgument "" 0))
  match name with
  | "color.r" => return .number (some r)
  | "color.g" => return .number (some g)
  | _ => return .number (some b)

/-- Two hexadecimal digits of a number below 256. -/
def hexByte (n : Nat) : String :=
  let digit := fun d => if d < 10 then Char.ofNat ('0'.toNat + d) else Char.ofNat ('a'.toNat + (d - 10))
  String.ofList [digit (n / 16), digit (n % 16)]

/-- A component brought between 0 and 255; an unusable one converts to the least integer, whose digits
are those of its sign. -/
def rgbComponent (p : Point) : String :=
  match p with
  | some value => hexByte (max 0 (min 255 (roundAway value))).toNat
  | none => "-8000000000000000"

def colorRGB : CallM StatefulValue := do
  let r ← frame.numberArgument "" 0
  let g ← frame.numberArgument "" 1
  let b ← frame.numberArgument "" 2
  let color := "#" ++ rgbComponent r ++ rgbComponent g ++ rgbComponent b
  if 3 < frame.call.arguments.length then
    match ← frame.numberArgument "transp" 3 with
    | some point => return .color (withTransparency frame.library color point)
    | none => return .color color
  else return .color color

/-- The cast `color(…)`. -/
def colorCast : CallM StatefulValue := do
  let value ← frame.callArgument "" 0
  if value.isNa then return .na
  else if statefulColorText value ≠ "" then return .color (statefulColorText value)
  else return .color (frame.textOf value)

/-! ## na -/

def naTest : CallM StatefulValue := do
  if frame.call.arguments.isEmpty then return .bool true
  else return .bool (← argumentAt 0).isNa

def nz : CallM StatefulValue := do
  let value ← frame.callArgument "" 0
  if !value.isNa then return value
  else if 1 < frame.call.arguments.length then argumentAt 1
  else return .number (some 0)

/-! ## Inputs -/

/-- `fmt.Sprint` of an override. -/
def printed (override : InputValue) : String :=
  match override with
  | .bool value => if value then "true" else "false"
  | .number value => frame.library.general value
  | .text value => value
  | .null => "<nil>"

end CallFrame

/-- `strconv.ParseBool`, false if there is an error. -/
def parseBool (text : String) : Bool := ["1", "t", "T", "TRUE", "true", "True"].contains text

/-- Digits with a point among them. -/
def parseFraction (text : List Char) : Option Decimal :=
  let whole := text.takeWhile Char.isDigit
  let rest := text.drop whole.length
  let value := fun digits : List Char => (digits.foldl (fun n c => 10 * n + (c.toNat - '0'.toNat)) 0 : Nat)
  match rest with
  | [] => if whole.isEmpty then none else some (value whole)
  | '.' :: part =>
    if (whole.isEmpty && part.isEmpty) || !part.all Char.isDigit then none
    else some (value whole + value part / 10 ^ part.length)
  | _ => none

/-- `parseNumberLiteral`: a sign, digits with a point and an exponent, or the name of a number that is
not usable. -/
def parseNumberLiteral (text : String) : Option Point :=
  let chars := (trim text).toList.map Char.toLower
  let (negative, digits) : Bool × List Char := match chars with
    | '-' :: rest => (true, rest)
    | '+' :: rest => (false, rest)
    | _ => (false, chars)
  if ["inf", "infinity", "nan"].contains (String.ofList digits) then some none
  else
    let mantissa := digits.takeWhile (· ≠ 'e')
    let exponent : Option Int := match digits.drop mantissa.length with
      | [] => some 0
      | _ :: rest => parseInt rest
    (parseFraction mantissa).bind fun value => exponent.map fun e =>
      some ((if negative then -value else value) * (10 : Decimal) ^ e)

/-- `inputValueAsFloat`. -/
def inputValueAsFloat (raw : InputValue) : Point :=
  match raw with
  | .number value => some value
  | .text text => (parseNumberLiteral text).getD (some 0)
  | .bool _ | .null => some 0

namespace CallFrame

variable (frame : CallFrame)

/-- `statefulInputOverride`. -/
def statefulInputOverride (raw : InputValue) (declared : StatefulValue) : StatefulValue :=
  match declared with
  | .bool _ =>
    match raw with
    | .bool value => .bool value
    | _ => .bool (parseBool (trim (frame.printed raw)))
  | .number _ => .number (inputValueAsFloat raw)
  | .color _ => .color (frame.printed raw)
  | .string _ => .string (frame.printed raw)
  | _ =>
    match raw with
    | .bool value => .bool value
    | .text value => .string value
    | .number value => .number (some value)
    | .null => .string (frame.printed raw)

/-- The series an `input.source` override names. -/
def sourceOverride (override : InputValue) : CallM StatefulValue := do
  match ← candleAgo 0 with
  | none => return .na
  | some candle =>
    match frame.library.lower (trim (frame.printed override)) with
    | "open" => return .number (some candle.open)
    | "high" => return .number (some candle.high)
    | "low" => return .number (some candle.low)
    | "close" => return .number (some candle.close)
    | "hl2" => return .number (some ((candle.high + candle.low) / 2))
    | "hlc3" => return .number (some ((candle.high + candle.low + candle.close) / 3))
    | "ohlc4" => return .number (some ((candle.open + candle.high + candle.low + candle.close) / 4))
    | "hlcc4" => return .number (some ((candle.high + candle.low + candle.close * 2) / 4))
    | _ => fail ("unsupported input.source override " ++ frame.printed override)

/-- `evaluateInput`. -/
def evaluateInput (name : String) : CallM StatefulValue := do
  match frame.setting.overrides (← getMemory).assigningName with
  | none => frame.callArgument "defval" 0
  | some override =>
    match name with
    | "input" => return frame.statefulInputOverride override (← frame.callArgument "defval" 0)
    | "input.bool" => return frame.statefulInputOverride override (.bool false)
    | "input.int" | "input.float" => return .number (inputValueAsFloat override)
    | "input.color" => return .color (frame.printed override)
    | "input.source" => frame.sourceOverride override
    | _ => return .string (frame.printed override)

end CallFrame

end MarketLens.Pine
