import MarketLens.Pine.Stateful.Calls

/-!
# Arrays, maps and matrices

Collections live on the heap. A method that evaluates an argument looks at the collection
again afterwards: the argument may have changed it.
-/

namespace MarketLens.Pine

open Programs

/-- What a reference that leads nowhere does. -/
def nilReference {α : Type} : MachineM α := panic "invalid memory address or nil pointer dereference"

def indexPanic {α : Type} : MachineM α := panic "index out of range"

def loadArray (ref : Ref) : MachineM (String × List StatefulValue) := do
  match ← load ref with
  | some (.array elementType values) => return (elementType, values)
  | _ => nilReference

def storeArray (ref : Ref) (values : List StatefulValue) : MachineM Unit := do
  let (elementType, _) ← loadArray ref
  store ref (.array elementType values)

def newArray (elementType : String) (values : List StatefulValue) : MachineM StatefulValue := do
  return .array (← alloc (.array elementType values))

/-! ## Constructors -/

/-- The rest of `constructArrayFrom`. -/
def argumentValues : List Nat → CallM (List StatefulValue)
  | [] => return []
  | k :: rest => do
    let value ← argumentAt k
    return value :: (← argumentValues rest)

/-- As many values as a size says. -/
def makeSlice {α : Type} (size : Int) (value : α) : MachineM (List α) :=
  if size < 0 then panic "makeslice: len out of range" else return List.replicate size.toNat value

namespace CallFrame

variable (frame : CallFrame)

/-- `constructArray`. -/
def constructArray : CallM StatefulValue := do
  let size ← if 0 < frame.call.arguments.length then
      (fun value => roundedAtLeast 0 (statefulNumeric value)) <$> argumentAt 0
    else pure 0
  let initial ← if 1 < frame.call.arguments.length then argumentAt 1 else pure .na
  newArray frame.call.generic (← makeSlice size initial)

/-- `constructArrayFrom`. -/
def constructArrayFrom : CallM StatefulValue := do
  newArray "" (← argumentValues (List.range frame.call.arguments.length))

/-- `constructMap`. -/
def constructMap : CallM StatefulValue := do
  let keyType := frame.call.generic.toList.takeWhile (· ≠ ',')
  let valueType := frame.call.generic.toList.drop (keyType.length + 1)
  return .map (← alloc (.map (String.ofList keyType) (String.ofList valueType) []))

/-- `constructMatrix`. -/
def constructMatrix : CallM StatefulValue := do
  let rowValue ← frame.callArgument "rows" 0
  let columnValue ← frame.callArgument "columns" 1
  let rows := roundedAtLeast 0 (statefulNumeric rowValue)
  let columns := roundedAtLeast 0 (statefulNumeric columnValue)
  let initial ← if 2 < frame.call.arguments.length then frame.callArgument "initial_value" 2 else pure .na
  if rows = 0 then return .matrix (← alloc (.matrix frame.call.generic []))
  else
    let row ← makeSlice columns initial
    return .matrix (← alloc (.matrix frame.call.generic (← makeSlice rows row)))

end CallFrame

/-! ## Arrays -/

/-- `statefulArrayIndex`. -/
def statefulArrayIndex (library : Library) (values : List StatefulValue) (target : StatefulValue) (reverse : Bool) : Int :=
  let found := if reverse then
      (values.reverse.findIdx? fun value => statefulEqual library value target).map fun k => values.length - 1 - k
    else values.findIdx? fun value => statefulEqual library value target
  match found with
  | some k => k
  | none => -1

/-- `statefulArrayAggregate`. -/
def statefulArrayAggregate (values : List StatefulValue) (operation : String) : StatefulValue :=
  match values.filterMap statefulNumeric with
  | [] => .na
  | number :: rest =>
    match operation with
    | "sum" => .number (some (number :: rest).sum)
    | "avg" => .number (some ((number :: rest).sum / (number :: rest).length))
    | "min" => .number (some (rest.foldl min number))
    | _ => .number (some (rest.foldl max number))

def valueAt (values : List StatefulValue) (index : Nat) : MachineM StatefulValue :=
  match values[index]? with
  | some value => return value
  | none => indexPanic

/-- An index has to be between zero and a bound. -/
def checkIndex (index : Int) (within : Bool) : MachineM Nat :=
  if index < 0 || !within then fail ("array index " ++ toString index ++ " out of bounds") else return index.toNat

namespace CallFrame

variable (frame : CallFrame)

/-- `methodIndex`. -/
def methodIndex : CallM Int := do
  match ← frame.numberArgument "" 0 with
  | none => fail "array index is na"
  | some point => return toInt (Point.round (some point))

/-- The methods of `evaluateMethod` on an array; there is no other if none is returned. -/
def evaluateArrayMethod (name : String) (ref : Ref) : CallM (Option StatefulValue) := do
  match name with
  | "size" =>
    let (_, values) ← loadArray ref
    return some (.number (some (values.length : Decimal)))
  | "get" =>
    let index ← frame.methodIndex
    let (_, values) ← loadArray ref
    let k ← checkIndex index (index < values.length)
    return some (← valueAt values k)
  | "set" =>
    let index ← frame.methodIndex
    let (_, before) ← loadArray ref
    let k ← checkIndex index (index < before.length)
    let value ← frame.callArgument "" 1
    let (_, values) ← loadArray ref
    if values.length ≤ k then indexPanic
    else
      storeArray ref (values.set k value)
      return some .na
  | "first" | "last" | "pop" | "shift" =>
    let (_, values) ← loadArray ref
    match values.head?, values.getLast? with
    | some first, some last =>
      if name = "first" then return some first
      else if name = "last" then return some last
      else if name = "pop" then
        storeArray ref values.dropLast
        return some last
      else
        storeArray ref values.tail
        return some first
    | _, _ => fail "array is empty"
  | "remove" =>
    let index ← frame.methodIndex
    let (_, values) ← loadArray ref
    let k ← checkIndex index (index < values.length)
    storeArray ref (values.eraseIdx k)
    return some (← valueAt values k)
  | "unshift" =>
    let value ← frame.callArgument "" 0
    let (_, values) ← loadArray ref
    storeArray ref (value :: values)
    return some .na
  | "insert" =>
    let index ← frame.methodIndex
    let (_, before) ← loadArray ref
    let k ← checkIndex index (index ≤ before.length)
    let value ← frame.callArgument "" 1
    let (_, values) ← loadArray ref
    if values.length < k then indexPanic
    else
      storeArray ref (values.take k ++ value :: values.drop k)
      return some .na
  | "push" =>
    let value ← frame.callArgument "" 0
    let (_, values) ← loadArray ref
    storeArray ref (values ++ [value])
    return some .na
  | "clear" =>
    storeArray ref []
    return some .na
  | "includes" | "indexof" | "lastindexof" =>
    let value ← frame.callArgument "" 0
    let (_, values) ← loadArray ref
    let index := statefulArrayIndex frame.library values value (name = "lastindexof")
    if name = "includes" then return some (.bool (decide (0 ≤ index))) else return some (.number (some (index : Decimal)))
  | "copy" =>
    let (elementType, values) ← loadArray ref
    return some (← newArray elementType values)
  | "reverse" =>
    let (_, values) ← loadArray ref
    storeArray ref values.reverse
    return some .na
  | "concat" =>
    match ← frame.callArgument "" 0 with
    | .array other =>
      let (_, added) ← loadArray other
      let (_, values) ← loadArray ref
      storeArray ref (values ++ added)
      return some (.array ref)
    | _ => fail "array.concat() expects an array"
  | "sum" | "avg" | "min" | "max" =>
    let (_, values) ← loadArray ref
    return some (statefulArrayAggregate values name)
  | _ => return none

end CallFrame

/-! ## Maps -/

def loadMap (ref : Ref) : MachineM (String × String × List (StatefulValue × StatefulValue)) := do
  match ← load ref with
  | some (.map keyType valueType entries) => return (keyType, valueType, entries)
  | _ => nilReference

def storeMap (ref : Ref) (entries : List (StatefulValue × StatefulValue)) : MachineM Unit := do
  let (keyType, valueType, _) ← loadMap ref
  store ref (.map keyType valueType entries)

namespace CallFrame

variable (frame : CallFrame)

/-- `statefulMapIndex`. -/
def statefulMapIndex (entries : List (StatefulValue × StatefulValue)) (key : StatefulValue) : Option Nat :=
  entries.findIdx? fun entry => statefulEqual frame.library entry.1 key

def evaluateKeyMethod (name : String) (ref : Ref) : CallM StatefulValue := do
  let key ← frame.callArgument "key" 0
  let (_, _, entries) ← loadMap ref
  let index := frame.statefulMapIndex entries key
  match name with
  | "contains" => return .bool index.isSome
  | "get" => return (index.bind fun k => (entries[k]?).map Prod.snd).getD .na
  | "remove" =>
    match index with
    | none => return .na
    | some k =>
      storeMap ref (entries.eraseIdx k)
      return ((entries[k]?).map Prod.snd).getD .na
  | "put" =>
    let value ← frame.callArgument "value" 1
    let (_, _, now) ← loadMap ref
    match index with
    | none =>
      storeMap ref (now ++ [(key, value)])
      return .na
    | some k =>
      match now[k]? with
      | none => indexPanic
      | some entry =>
        storeMap ref (now.set k (entry.1, value))
        return .na
  | _ => fail ("unsupported map method " ++ name ++ "()")

/-- `evaluateMapMethod`. -/
def evaluateMapMethod (name : String) (ref : Ref) : CallM StatefulValue := do
  match name with
  | "size" =>
    let (_, _, entries) ← loadMap ref
    return .number (some (entries.length : Decimal))
  | "clear" =>
    storeMap ref []
    return .na
  | "copy" =>
    let (keyType, valueType, entries) ← loadMap ref
    return .map (← alloc (.map keyType valueType entries))
  | "keys" | "values" =>
    let (_, _, entries) ← loadMap ref
    newArray "" (entries.map fun entry => if name = "keys" then entry.1 else entry.2)
  | _ => frame.evaluateKeyMethod name ref

end CallFrame

/-! ## Matrices -/

def loadMatrix (ref : Ref) : MachineM (String × List (List StatefulValue)) := do
  match ← load ref with
  | some (.matrix elementType rows) => return (elementType, rows)
  | _ => nilReference

def storeMatrix (ref : Ref) (rows : List (List StatefulValue)) : MachineM Unit := do
  let (elementType, _) ← loadMatrix ref
  store ref (.matrix elementType rows)

/-- `statefulMatrixDimensions`. -/
def statefulMatrixDimensions (rows : List (List StatefulValue)) : Nat × Nat :=
  (rows.length, (rows.head?.map List.length).getD 0)

/-- The columns of a matrix as rows. -/
def transposed (rows : List (List StatefulValue)) : List (List StatefulValue) :=
  (List.range (statefulMatrixDimensions rows).2).map fun column => rows.map fun row => (row[column]?).getD .na

namespace CallFrame

variable (frame : CallFrame)

/-- The methods of a matrix that have a row and a column. -/
def evaluateElementMethod (name : String) (ref : Ref) : CallM StatefulValue := do
  let (_, shape) ← loadMatrix ref
  let (rows, columns) := statefulMatrixDimensions shape
  let rowValue ← frame.callArgument "row" 0
  let columnValue ← frame.callArgument "column" 1
  let row := toInt (statefulNumeric rowValue).round
  let column := toInt (statefulNumeric columnValue).round
  if row < 0 || (rows : Int) ≤ row || column < 0 || (columns : Int) ≤ column then
    fail ("matrix index [" ++ toString row ++ "," ++ toString column ++ "] out of bounds")
  else
    match name with
    | "get" =>
      let (_, values) ← loadMatrix ref
      return (((values[row.toNat]?).getD [])[column.toNat]?).getD .na
    | "set" =>
      let value ← frame.callArgument "value" 2
      let (_, values) ← loadMatrix ref
      storeMatrix ref (values.set row.toNat (((values[row.toNat]?).getD []).set column.toNat value))
      return .na
    | _ => fail ("unsupported matrix method " ++ name ++ "()")

/-- `evaluateMatrixMethod`. -/
def evaluateMatrixMethod (name : String) (ref : Ref) : CallM StatefulValue := do
  match name with
  | "rows" | "columns" =>
    let (_, rows) ← loadMatrix ref
    let (count, width) := statefulMatrixDimensions rows
    return .number (some ((if name = "rows" then count else width : Nat) : Decimal))
  | "copy" =>
    let (elementType, rows) ← loadMatrix ref
    return .matrix (← alloc (.matrix elementType rows))
  | "transpose" =>
    let (elementType, rows) ← loadMatrix ref
    return .matrix (← alloc (.matrix elementType (transposed rows)))
  | "fill" =>
    let value ← frame.callArgument "value" 0
    let (_, rows) ← loadMatrix ref
    storeMatrix ref (rows.map fun row => row.map fun _ => value)
    return .na
  | _ => frame.evaluateElementMethod name ref

end CallFrame

end MarketLens.Pine
