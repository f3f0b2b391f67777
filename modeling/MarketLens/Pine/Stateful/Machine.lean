import MarketLens.Lib.Program
import MarketLens.Pine.Stateful.Value

/-!
# What the VM does to itself

The memory of a VM and the operations its code is made of. Code has no other way to a
candle than `candle ago`, a number of bars back from the one the VM is at. Code of a call
can ask for the values of the arguments of that call, and for nothing else to be evaluated.
-/

namespace MarketLens.Pine

open Programs

/-! ## Stops -/

inductive StopKind where
  | failed
  | broke
  | continued
  | panicked
deriving DecidableEq

/-- Why code does not go on: an error, `errStatefulBreak` and `errStatefulContinue` among them, or a
panic of the runtime. -/
structure Stop where
  kind : StopKind
  message : String

def Stop.error (message : String) : Stop := ⟨.failed, message⟩

/-- An error wrapped in another; a panic is not one. -/
def Stop.within (lead : String) (stop : Stop) : Stop :=
  if stop.kind = .panicked then stop else { stop with message := lead ++ stop.message }

/-! ## Memory -/

/-- `statefulCell`. -/
structure StatefulCell where
  value : StatefulValue
  history : List StatefulValue
  initialized : Bool

/-- `statefulValueWhenCall`. -/
structure StatefulValueWhenCall where
  values : List StatefulValue
  lastBar : Int

/-- `statefulFill`; its last bar is that of the last color. -/
structure StatefulFill where
  id : Nat
  first : Ref
  second : Ref
  colors : List String

/-- `statefulVM`, without what never changes, the candles and the results of `request.security`. The
recorded series of a call end at its last bar. -/
structure Memory where
  cells : ScopeId → String → Option StatefulCell
  assigningName : String
  objects : List Ref
  plots : List Ref
  fills : List Site
  plotCalls : Site → Option Ref
  fillCalls : Site → Option StatefulFill
  functionLastBar : Site → Option Nat
  numericCalls : Site → Option (List Point × List Point)
  valueWhenCalls : Site → Option StatefulValueWhenCall
  historyCalls : Site → Option (List (List StatefulValue))
  cumulativeCalls : Site → Decimal
  nextObjectID : Nat
  nextPlotID : Nat
  nextFillID : Nat
  nextCopy : Nat

/-- `newStatefulVM`. -/
def Memory.new : Memory where
  cells := fun _ _ => none
  assigningName := ""
  objects := []
  plots := []
  fills := []
  plotCalls := fun _ => none
  fillCalls := fun _ => none
  functionLastBar := fun _ => none
  numericCalls := fun _ => none
  valueWhenCalls := fun _ => none
  historyCalls := fun _ => none
  cumulativeCalls := fun _ => 0
  nextObjectID := 0
  nextPlotID := 0
  nextFillID := 0
  nextCopy := 0

/-- A function changed at one place. -/
def put {κ α : Type} [DecidableEq κ] (f : κ → α) (key : κ) (value : α) : κ → α :=
  fun other => if other = key then value else f other

namespace Memory

variable (memory : Memory)

section
variable (scope : ScopeId) (name : String)

/-- `statefulScope.lookup`: the cell and the scope that has it. -/
def lookup : Option (ScopeId × StatefulCell) :=
  match memory.cells scope name, scope with
  | some cell, _ => some (scope, cell)
  | none, .global => none
  | none, .call .. => (memory.cells .global name).map fun cell => (.global, cell)

def setCell (cell : StatefulCell) : Memory :=
  { memory with cells := put memory.cells scope (put (memory.cells scope) name (some cell)) }

/-- `statefulScope.ensure`. -/
def ensure : Memory × StatefulCell :=
  match memory.cells scope name with
  | some cell => (memory, cell)
  | none => (memory.setCell scope name ⟨.na, [], false⟩, ⟨.na, [], false⟩)

/-- A cell is given a value. -/
def assign (value : StatefulValue) : Memory :=
  let (memory, cell) := memory.ensure scope name
  memory.setCell scope name { cell with value := value, initialized := true }

end

/-- `commitBar`: the cells of the VM and of the functions called on the bar remember their values. -/
def commitBar (bar : Nat) : Memory :=
  { memory with
    cells := fun scope name => (memory.cells scope name).map fun cell =>
      let called := match scope with
        | .global => true
        | .call site caller => memory.functionLastBar (site, caller) = some bar
      if called then { cell with history := cell.history ++ [cell.value] } else cell }

end Memory

def recordAt {α : Type} (blank : α) (values : List α) (bar : Nat) (value : α) : List α :=
  if values.length ≤ bar then values ++ List.replicate (bar - values.length) blank ++ [value]
  else values.set bar value

/-! ## Operations -/

inductive MachineOp where
  | memory
  | setMemory (memory : Memory)
  | load (ref : Ref)
  | store (ref : Ref) (node : StatefulNode)
  | alloc (node : StatefulNode)
  | candle (ago : Nat)
  | bar
  | isLast
  | mintick

def MachineOp.Answer : MachineOp → Type
  | memory => Memory
  | setMemory _ | store .. => Unit
  | load _ => Option StatefulNode
  | alloc _ => Ref
  | candle _ => Option Candle
  | bar => Nat
  | isLast => Bool
  | mintick => Decimal

/-- The operations of a call: those of the VM, and the value of an argument of the call. -/
inductive CallOp where
  | machine (op : MachineOp)
  | argument (k : Nat)

def CallOp.Answer : CallOp → Type
  | machine op => op.Answer
  | argument _ => Except Stop StatefulValue

/-- The operations of the evaluator. -/
inductive VmOp where
  | machine (op : MachineOp)
  | evaluate (expression : StatefulExpr) (scope : ScopeId)
  | block (statements : List StatefulStmt) (scope : ScopeId)
  | cached (site : Site)
  | security (site : Site) (node : Nat) (timeframe : String) (requested : StatefulExpr)

/-- Nothing is cached, or the value at the bar is, or there is none. -/
def VmOp.Answer : VmOp → Type
  | machine op => op.Answer
  | evaluate .. | block .. | security .. => Except Stop StatefulValue
  | cached _ => Option StatefulValue

abbrev MachineM := ExceptT Stop (Program MachineOp.Answer)
abbrev CallM := ExceptT Stop (Program CallOp.Answer)
abbrev VmM := ExceptT Stop (Program VmOp.Answer)

instance : MonadLift MachineM CallM where
  monadLift code := ExceptT.mk (code.run.translate fun op => Program.request (CallOp.machine op))

instance : MonadLift MachineM VmM where
  monadLift code := ExceptT.mk (code.run.translate fun op => Program.request (VmOp.machine op))

/-- One operation of the VM. -/
def MachineOp.perform (op : MachineOp) : MachineM op.Answer := ExceptT.lift (Program.request op)

def getMemory : MachineM Memory := MachineOp.memory.perform

def modifyMemory (f : Memory → Memory) : MachineM Unit := do
  let memory ← getMemory
  (MachineOp.setMemory (f memory)).perform

def load (ref : Ref) : MachineM (Option StatefulNode) := (MachineOp.load ref).perform

def store (ref : Ref) (node : StatefulNode) : MachineM Unit := (MachineOp.store ref node).perform

def alloc (node : StatefulNode) : MachineM Ref := (MachineOp.alloc node).perform

def candleAgo (ago : Nat) : MachineM (Option Candle) := (MachineOp.candle ago).perform

def currentBar : MachineM Nat := MachineOp.bar.perform

/-- The code goes on with an error. -/
def fail {α : Type} (message : String) : MachineM α := throw (.error message)

def panic {α : Type} (message : String) : MachineM α := throw ⟨.panicked, message⟩

/-! ## Truth -/

/-- `statefulTruthy`; a drawing is true until it is deleted. -/
def statefulTruthy (value : StatefulValue) : MachineM Bool :=
  match value with
  | .bool value => return value
  | .number (some value) => return value ≠ 0
  | .string text | .color text => return text ≠ ""
  | .tuple values => return !values.isEmpty
  | .record .. | .array _ | .plot _ => return true
  | .object ref => do
    match ← load ref with
    | some (.object object) => return !object.deleted
    | _ => return false
  | .number none | .na | .map _ | .matrix _ => return false

/-- `booleanValue`: from version 6 on a condition has to be a boolean. -/
def booleanValue (version : Nat) (value : StatefulValue) : MachineM Bool :=
  if 6 ≤ version && !value.isBool then
    fail ("Pine v6 condition expects bool, got " ++ value.kindName)
  else statefulTruthy value

/-! ## What a script is run with -/

/-- An override of an input, as JSON has it. -/
inductive InputValue where
  | bool (value : Bool)
  | number (value : Decimal)
  | text (value : String)
  | null

/-- What a VM is made with and never changes. -/
structure Setting where
  library : Library
  program : StatefulProgram
  version : Nat
  symbol : String
  symbolType : String
  timezone : String
  mintick : Decimal
  overrides : String → Option InputValue
  outputSuppressed : Bool

/-- A namespace or another name that stands for itself. -/
def isNamespaceName (name : String) : Bool :=
  ["syminfo", "xloc", "position", "size", "format", "line", "box", "label", "table", "array", "map", "matrix",
    "color", "math", "str", "ta", "request", "plot", "shape", "location", "extend"].contains name

/-- `resolveIdentifier`. -/
def resolveIdentifier (name : String) (scope : ScopeId) : MachineM StatefulValue := do
  let memory ← getMemory
  let held := (memory.lookup scope name).filter fun found => found.2.initialized
  match held, namedColor name with
  | some (_, cell), _ => return cell.value
  | none, some color => return .color color
  | none, none =>
    let candle ← candleAgo 0
    match candle.bind fun candle => candle.field name with
    | some value => return .number (some value)
    | none =>
      match name with
      | "bar_index" => return .number (some ((← currentBar : Nat) : Decimal))
      | "true" => return .bool true
      | "false" => return .bool false
      | "na" => return .na
      | "barstate" => return .string "barstate"
      | _ => if isNamespaceName name then return .string name else fail ("unknown identifier " ++ name)

/-- The names `evaluateField` answers without looking at a receiver. -/
def qualifiedValue (setting : Setting) (identifier name : String) : MachineM (Option StatefulValue) := do
  let qualified := identifier ++ "." ++ name
  match namedColor qualified with
  | some color => return some (.color color)
  | none =>
    match qualified with
    | "barstate.isfirst" => return some (.bool ((← currentBar) = 0))
    | "barstate.islast" => return some (.bool (← MachineOp.isLast.perform))
    | "barstate.isconfirmed" | "barstate.ishistory" => return some (.bool true)
    | "barstate.isrealtime" => return some (.bool false)
    | "syminfo.tickerid" => return some (.string (trim setting.symbol))
    | "syminfo.type" =>
      return some (.string (if trim setting.symbolType ≠ "" then trim setting.symbolType else "forex"))
    | "syminfo.mintick" =>
      if 0 < setting.mintick then return some (.number (some setting.mintick))
      else return some (.number (some (← MachineOp.mintick.perform)))
    | "syminfo.timezone" =>
      return some (.string (if trim setting.timezone ≠ "" then trim setting.timezone else "UTC"))
    | _ =>
      if ["xloc", "position", "size", "format", "line", "box", "label", "plot", "shape", "location",
          "extend"].contains identifier then return some (.string qualified)
      else return none

end MarketLens.Pine
