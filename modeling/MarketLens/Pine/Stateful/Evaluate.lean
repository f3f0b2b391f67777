import MarketLens.Pine.Stateful.Builtins

/-!
# The evaluator, one nesting deep

Each function of the evaluator as code that asks for whatever it evaluates in turn: an
expression inside, a block, the run of a `request.security`.
-/

namespace MarketLens.Pine

open Programs

/-! ## Asking for more -/

def evaluate (expression : StatefulExpr) (scope : ScopeId) : VmM StatefulValue :=
  ExceptT.mk (Program.request (VmOp.evaluate expression scope))

def executeBlock (statements : List StatefulStmt) (scope : ScopeId) : VmM StatefulValue :=
  ExceptT.mk (Program.request (VmOp.block statements scope))

def caught {α : Type} (code : VmM α) : VmM (Except Stop α) :=
  ExceptT.mk do return .ok (← code.run)

/-- What an operation of a call is for the VM. -/
def callStep (call : StatefulCall) (scope : ScopeId) : (op : CallOp) → Program VmOp.Answer op.Answer
  | .machine op => Program.request (VmOp.machine op)
  | .argument k =>
    match call.arguments[k]? with
    | some argument => Program.request (VmOp.evaluate argument.2 scope)
    | none => .done (.error ⟨.panicked, "index out of range"⟩)

/-- Code of a call, with the arguments evaluated in the scope of the call. -/
def CallFrame.perform {α : Type} (frame : CallFrame) (code : CallM α) : VmM α :=
  ExceptT.mk (code.run.translate (callStep frame.call frame.scope))

/-- `statefulMaxLoopIterations`. -/
def statefulMaxLoopIterations : Nat := 10000

def loopLimit {α : Type} : VmM α := fail "loop iteration limit exceeded"

/-! ## Statements -/

/-- An assignment to several names; those without a value get none. -/
def assignTuple (scope : ScopeId) : List String → List StatefulValue → MachineM Unit
  | [], _ => return ()
  | name :: names, values => do
    modifyMemory fun memory => memory.assign scope name (values.headD .na)
    assignTuple scope names values.tail

def compoundOperator (op : String) : Option String :=
  match op with
  | "+=" => some "+"
  | "-=" => some "-"
  | "*=" => some "*"
  | "/=" => some "/"
  | "%=" => some "%"
  | _ => none

/-- The value an assignment stores; the cell a compound assignment reads is that of the scope itself. -/
def assignedValue (setting : Setting) (op : String) (held value : StatefulValue) : MachineM StatefulValue :=
  match compoundOperator op with
  | none => return value
  | some operator =>
    match statefulBinary setting.library operator held value with
    | .ok result => return result
    | .error message => fail message

/-- `executeAssignment`. -/
def executeAssignment (setting : Setting) (targets : List String) (op : String) (expression : StatefulExpr)
    (persistent : Bool) (scope : ScopeId) : VmM StatefulValue := do
  match targets with
  | [] => fail "assignment has no target"
  | name :: others =>
    let memory ← getMemory
    match (memory.cells scope name).filter fun cell => persistent && cell.initialized with
    | some cell => return cell.value
    | none =>
      modifyMemory fun memory => { memory with assigningName := name }
      let result ← caught (evaluate expression scope)
      modifyMemory fun now => { now with assigningName := memory.assigningName }
      let value ← MonadExcept.ofExcept result
      if others ≠ [] then
        match value with
        | .tuple values =>
          assignTuple scope targets values
          return value
        | _ => fail ("tuple assignment expects " ++ toString targets.length ++ " values")
      else
        let now ← getMemory
        let (ensured, cell) := now.ensure scope name
        modifyMemory fun _ => ensured
        let value ← assignedValue setting op cell.value value
        modifyMemory fun memory => memory.assign scope name value
        return value

/-- `executeIf`. -/
def executeIf (setting : Setting) (scope : ScopeId) (other : List StatefulStmt) :
    List StatefulBranch → VmM StatefulValue
  | [] => executeBlock other scope
  | .mk condition body :: rest => do
    let value ← evaluate condition scope
    if ← booleanValue setting.version value then executeBlock body scope
    else executeIf setting scope other rest

/-- The loop of `executeFor` over a collection, with so many iterations left. -/
def forEach (scope : ScopeId) (name : String) (body : List StatefulStmt) :
    Nat → StatefulValue → List StatefulValue → VmM StatefulValue
  | _, last, [] => return last
  | 0, _, _ :: _ => loopLimit
  | remaining + 1, _, value :: rest => do
    modifyMemory fun memory => memory.assign scope name value
    match ← caught (executeBlock body scope) with
    | .ok last => forEach scope name body remaining last rest
    | .error stop =>
      match stop.kind with
      | .broke => return .na
      | .continued => forEach scope name body remaining .na rest
      | .failed | .panicked => throw stop

/-- `executeFor`, over a collection. -/
def executeForIn (name : String) (collection : StatefulExpr) (body : List StatefulStmt) (scope : ScopeId) :
    VmM StatefulValue := do
  modifyMemory fun memory => (memory.ensure scope name).1
  match ← evaluate collection scope with
  | .array ref =>
    let (_, values) ← loadArray ref
    forEach scope name body statefulMaxLoopIterations .na values
  | .tuple values => forEach scope name body statefulMaxLoopIterations .na values
  | _ => fail "foreach expects an array"

def roundedNumeric (value : StatefulValue) : Int := toInt (statefulNumeric value).round

/-- The loop of `executeFor` over a range: the end is evaluated each time, and so is the direction. -/
def forRange (scope : ScopeId) (name : String) (start : Int) (limit : StatefulExpr) (stepSize : Int)
    (body : List StatefulStmt) : Nat → Int → StatefulValue → VmM StatefulValue
  | remaining, current, last => do
    let stop := roundedNumeric (← evaluate limit scope)
    let step := if stop < start then -stepSize else stepSize
    if (0 < step && stop < current) || (step < 0 && current < stop) then return last
    else
      match remaining with
      | 0 => loopLimit
      | remaining + 1 =>
        modifyMemory fun memory => memory.assign scope name (.number (some (current : Decimal)))
        match ← caught (executeBlock body scope) with
        | .ok last => forRange scope name start limit stepSize body remaining (wrap64 (current + step)) last
        | .error stop =>
          match stop.kind with
          | .broke => return .na
          | .continued => forRange scope name start limit stepSize body remaining (wrap64 (current + step)) .na
          | .failed | .panicked => throw stop

/-- The step of a loop over a range. -/
def stepOf (step : Option StatefulExpr) (scope : ScopeId) : VmM Int := do
  match step with
  | none => return 1
  | some step =>
    let stepSize := roundedNumeric (← evaluate step scope)
    if stepSize ≤ 0 then fail "for loop step must be greater than zero" else return stepSize

/-- `executeFor`, over a range. -/
def executeForRange (name : String) (start limit : StatefulExpr) (step : Option StatefulExpr)
    (body : List StatefulStmt) (scope : ScopeId) : VmM StatefulValue := do
  modifyMemory fun memory => (memory.ensure scope name).1
  let first := roundedNumeric (← evaluate start scope)
  let stepSize ← stepOf step scope
  forRange scope name first limit stepSize body statefulMaxLoopIterations first .na

/-- `executeWhile`, with so many iterations left. -/
def executeWhile (setting : Setting) (condition : StatefulExpr) (body : List StatefulStmt) (scope : ScopeId) :
    Nat → StatefulValue → VmM StatefulValue
  | 0, _ => loopLimit
  | remaining + 1, last => do
    let value ← evaluate condition scope
    if ← booleanValue setting.version value then
      match ← caught (executeBlock body scope) with
      | .ok last => executeWhile setting condition body scope remaining last
      | .error stop =>
        match stop.kind with
        | .broke => return .na
        | .continued => executeWhile setting condition body scope remaining .na
        | .failed | .panicked => throw stop
    else return last

/-- A statement other than a `noop`. -/
def executeStatement (setting : Setting) (scope : ScopeId) : StatefulStmt → VmM StatefulValue
  | .assign _ targets op expression persistent => executeAssignment setting targets op expression persistent scope
  | .expr _ expression => evaluate expression scope
  | .if _ branches other => executeIf setting scope other branches
  | .forRange _ name start limit step body => executeForRange name start limit step body scope
  | .forIn _ name collection body => executeForIn name collection body scope
  | .while _ condition body => executeWhile setting condition body scope statefulMaxLoopIterations .na
  | .control _ kind => throw (if kind = "break" then ⟨.broke, "break"⟩ else ⟨.continued, "continue"⟩)
  | .noop _ => return .na

/-- Code whose error is wrapped in another. -/
def within {α : Type} (lead : String) (code : VmM α) : VmM α := do
  match ← caught code with
  | .ok value => return value
  | .error stop => throw (stop.within lead)

/-- `executeBlock`. -/
def blockStep (setting : Setting) (scope : ScopeId) : List StatefulStmt → StatefulValue → VmM StatefulValue
  | [], last => return last
  | .noop _ :: rest, last => blockStep setting scope rest last
  | statement :: rest, _ => do
    let value ← within ("line " ++ toString statement.lineNumber ++ ": ") (executeStatement setting scope statement)
    blockStep setting scope rest value

/-! ## Expressions -/

def unaryValue (setting : Setting) (operator : String) (operand : StatefulValue) : MachineM StatefulValue := do
  if operator = "not" then return .bool (!(← booleanValue setting.version operand))
  else
    match statefulNumeric operand with
    | none => return .na
    | some number => return .number (some (if operator = "+" then number else -number))

/-- `and` and `or`: from version 6 on the right operand is left alone if the left one decides. -/
def evaluateLogical (setting : Setting) (operator : String) (left right : StatefulExpr) (scope : ScopeId) :
    VmM StatefulValue := do
  let leftTruthy ← booleanValue setting.version (← evaluate left scope)
  if 6 ≤ setting.version && operator = "and" && !leftTruthy then return .bool false
  else if 6 ≤ setting.version && operator = "or" && leftTruthy then return .bool true
  else
    let rightTruthy ← booleanValue setting.version (← evaluate right scope)
    return .bool (if operator = "and" then leftTruthy && rightTruthy else leftTruthy || rightTruthy)

/-- The values of a tuple. -/
def evaluateAll (scope : ScopeId) : List StatefulExpr → VmM (List StatefulValue)
  | [] => return []
  | expression :: rest => do
    let value ← evaluate expression scope
    return value :: (← evaluateAll scope rest)

def fieldOf (receiver : StatefulValue) (name : String) : MachineM StatefulValue :=
  match receiver with
  | .record typeName fields =>
    match fields.find? fun field => field.1 = name with
    | some field => return field.2
    | none => fail ("type " ++ typeName ++ " has no field " ++ name)
  | .string text => return .string (text ++ "." ++ name)
  | _ => fail ("cannot access field " ++ name)

/-- `evaluateField`. -/
def evaluateField (setting : Setting) (receiver : StatefulExpr) (name : String) (scope : ScopeId) :
    VmM StatefulValue := do
  let known ← match receiver with
    | .identifier identifier => liftM (qualifiedValue setting identifier name)
    | _ => pure none
  match known with
  | some value => return value
  | none => fieldOf (← evaluate receiver scope) name

/-- The value of a name so many bars ago, unless it has to be evaluated: a cell's history ends at the
bar before. -/
def identifierAgo (name : String) (offset : Int) (scope : ScopeId) : MachineM (Option StatefulValue) := do
  let memory ← getMemory
  match memory.lookup scope name with
  | some (_, cell) =>
    if offset = 0 then return some cell.value
    else
      let place := wrap64 ((cell.history.length : Int) - offset)
      return some (if place < 0 then .na else (cell.history[place.toNat]?).getD .na)
  | none =>
    let bar ← currentBar
    let place := wrap64 ((bar : Int) - offset)
    if place < 0 || (bar : Int) < place then return some .na
    else
      let candle ← candleAgo (bar - place.toNat)
      return (candle.bind fun candle => candle.field name).map fun value => .number (some value)

/-- The element of an array, or nothing. -/
def elementOf (receiver : StatefulValue) (offset : Int) : MachineM StatefulValue := do
  match receiver with
  | .array ref =>
    let (_, values) ← loadArray ref
    if (values.length : Int) ≤ offset then return .na
    else if offset < 0 then indexPanic
    else return (values[offset.toNat]?).getD .na
  | _ => return .na

/-- `evaluateIndex`. -/
def evaluateIndex (receiver at_ : StatefulExpr) (scope : ScopeId) : VmM StatefulValue := do
  let offset := roundedAtLeast 0 (statefulNumeric (← evaluate at_ scope))
  let known ← match receiver with
    | .identifier name => liftM (identifierAgo name offset scope)
    | _ => pure none
  match known with
  | some value => return value
  | none => elementOf (← evaluate receiver scope) offset

/-! ## Calls -/

/-- The parameters of a function get the receiver, the arguments in their order, and nothing. -/
def bindParameters (caller : ScopeId) (local_ : ScopeId) :
    List String → Option StatefulValue → List StatefulExpr → VmM Unit
  | [], _, _ => return ()
  | parameter :: rest, some receiver, arguments => do
    modifyMemory fun memory => memory.assign local_ parameter receiver
    bindParameters caller local_ rest none arguments
  | parameter :: rest, none, argument :: arguments => do
    let value ← evaluate argument caller
    modifyMemory fun memory => memory.assign local_ parameter value
    bindParameters caller local_ rest none arguments
  | parameter :: rest, none, [] => do
    modifyMemory fun memory => memory.assign local_ parameter .na
    bindParameters caller local_ rest none []

/-- `callFunction`. -/
def callFunction (function : StatefulFunction) (frame : CallFrame) (receiver : Option StatefulValue) :
    VmM StatefulValue := do
  let bar ← currentBar
  modifyMemory fun memory => { memory with functionLastBar := put memory.functionLastBar frame.site (some bar) }
  let local_ := ScopeId.call frame.id frame.scope
  bindParameters frame.scope local_ function.parameters receiver (frame.call.arguments.map Prod.snd)
  match function.inline with
  | some inline => evaluate inline local_
  | none => executeBlock function.body local_

/-- `evaluateMethod`. -/
def evaluateMethod (frame : CallFrame) (name : String) (receiver : StatefulValue) : VmM StatefulValue := do
  match ← frame.perform (frame.builtinMethod name receiver) with
  | some value => return value
  | none =>
    match frame.setting.program.methodNamed name with
    | some method => callFunction method frame (some receiver)
    | none => fail ("unsupported method " ++ name ++ "()")

/-- The field an argument of a constructor is for: the next, or the one named. -/
def recordField (typeDef : StatefulType) (name : String) (nextPositional : Nat) (namedSeen : Bool) :
    MachineM Nat :=
  if name = "" then
    if namedSeen then fail (typeDef.name ++ ".new() positional argument cannot follow a named argument")
    else if typeDef.fields.length ≤ nextPositional then fail (typeDef.name ++ ".new() received too many arguments")
    else return nextPositional
  else
    match typeDef.fields.reverse.findIdx? fun field => field.name = name with
    | some k => return typeDef.fields.length - 1 - k
    | none => fail (typeDef.name ++ ".new() has no field \"" ++ name ++ "\"")

def recordArguments (typeDef : StatefulType) (scope : ScopeId) :
    List (String × StatefulExpr) → Nat → Bool → List (Nat × StatefulValue) → VmM (List (Nat × StatefulValue))
  | [], _, _, assigned => return assigned
  | (name, expression) :: rest, nextPositional, namedSeen, assigned => do
    let index ← recordField typeDef name nextPositional namedSeen
    if assigned.any fun given => given.1 = index then
      fail (typeDef.name ++ ".new() field \"" ++ ((typeDef.fields[index]?).elim "" StatefulField.name) ++
        "\" was assigned more than once")
    else
      let value ← evaluate expression scope
      recordArguments typeDef scope rest (if name = "" then nextPositional + 1 else nextPositional)
        (namedSeen || name ≠ "") (assigned ++ [(index, value)])

def recordFields (scope : ScopeId) (assigned : List (Nat × StatefulValue)) :
    Nat → List StatefulField → List (String × StatefulValue) → VmM (List (String × StatefulValue))
  | _, [], fields => return fields
  | index, field :: rest, fields => do
    let value ← match assigned.find? (fun given => given.1 = index), field.defaultExp with
      | some given, _ => pure given.2
      | none, some expression => evaluate expression scope
      | none, none => pure .na
    recordFields scope assigned (index + 1) rest ((fields.filter fun held => held.1 ≠ field.name) ++ [(field.name, value)])

/-- `constructRecord`. -/
def constructRecord (typeDef : StatefulType) (call : StatefulCall) (scope : ScopeId) : VmM StatefulValue := do
  let assigned ← recordArguments typeDef scope call.arguments 0 false []
  return .record typeDef.name (← recordFields scope assigned 0 typeDef.fields [])

/-- `evaluateSecurity`: the timeframe is evaluated in the chart's VM, the request by `security`. -/
def evaluateSecurity (frame : CallFrame) : VmM StatefulValue := do
  match ← (ExceptT.lift (Program.request (VmOp.cached frame.site)) : VmM _) with
  | some value => return value
  | none =>
    let argument := fun name index => ((frame.call.argumentPlace name index).bind fun k => frame.call.arguments[k]?).map Prod.snd
    match argument "symbol" 0, argument "timeframe" 1, argument "expression" 2 with
    | some _, some timeframe, some requested =>
      let timeframe := frame.textOf (← evaluate timeframe frame.scope)
      ExceptT.mk (Program.request (VmOp.security frame.site frame.call.node timeframe requested))
    | _, _, _ => fail "request.security() expects symbol, timeframe, and expression"

def StatefulProgram.constructedType (program : StatefulProgram) (name : String) : Option StatefulType :=
  let text := name.toList
  if ['.', 'n', 'e', 'w'].isSuffixOf text && 4 < text.length then
    program.typeNamed (String.ofList (text.take (text.length - 4)))
  else none

/-- The receiver of a method and its name, if the callee is one: the names of a namespace are not. -/
def methodCallee (callee : StatefulExpr) : Option (StatefulExpr × String) :=
  match callee with
  | .field (.identifier receiver) name =>
    if statefulNamespace receiver then none else some (.identifier receiver, name)
  | .field receiver name => some (receiver, name)
  | _ => none

/-- The method a function of a collection's namespace stands for. -/
def namespaceMethod (name : String) : Option String :=
  if name = "array.from" || "array.new_".toList.isPrefixOf name.toList then none
  else
    (["array.", "map.", "matrix."].find? fun «namespace» =>
      «namespace».toList.isPrefixOf name.toList && name ≠ «namespace» ++ "new").map (trimNamespace name)

/-- The call a function of a collection's namespace is evaluated as, under an address of its own. -/
def methodCall (frame : CallFrame) (name : String) : VmM StatefulValue := do
  let receiver ← frame.perform (frame.callArgument "" 0)
  match frame.call.arguments with
  | [] => panic "slice bounds out of range"
  | _ :: rest =>
    let copy := (← getMemory).nextCopy
    modifyMemory fun memory => { memory with nextCopy := copy + 1 }
    evaluateMethod { frame with call := { frame.call with arguments := rest }, id := .copy copy } name receiver

/-- `evaluateCall`. -/
def evaluateCall (frame : CallFrame) : VmM StatefulValue := do
  let name := statefulExpressionName frame.call.callee
  if name = "request.security" then evaluateSecurity frame
  else
    match frame.setting.program.constructedType name, methodCallee frame.call.callee,
        frame.setting.program.functionNamed name, namespaceMethod name with
    | some typeDef, _, _, _ => constructRecord typeDef frame.call frame.scope
    | none, some (receiver, method), _, _ => do
      let value ← evaluate receiver frame.scope
      evaluateMethod frame method value
    | none, none, some function, _ => callFunction function frame none
    | none, none, none, some method => methodCall frame method
    | none, none, none, none => frame.perform (frame.builtin name)

/-- `evaluate`, of an expression that asks for those inside it. -/
def evaluateStep (setting : Setting) (scope : ScopeId) : StatefulExpr → VmM StatefulValue
  | .literal value => return value.value
  | .identifier name => resolveIdentifier name scope
  | .unary operator value => do unaryValue setting operator (← evaluate value scope)
  | .binary operator left right => do
    if operator = "and" || operator = "or" then evaluateLogical setting operator left right scope
    else
      let a ← evaluate left scope
      let b ← evaluate right scope
      match statefulBinary setting.library operator a b with
      | .ok value => return value
      | .error message => fail message
  | .ternary condition whenTrue whenFalse => do
    let value ← evaluate condition scope
    if ← booleanValue setting.version value then evaluate whenTrue scope else evaluate whenFalse scope
  | .field receiver name => evaluateField setting receiver name scope
  | .index receiver at_ => evaluateIndex receiver at_ scope
  | .tuple values => do return .tuple (← evaluateAll scope values)
  | .call node callee generic arguments =>
    evaluateCall { setting, call := { node, callee, generic, arguments }, id := .node node, scope }

end MarketLens.Pine
