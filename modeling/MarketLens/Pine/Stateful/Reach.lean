import MarketLens.Pine.Stateful.Run

/-!
# What evaluation leads to

Whatever the values are, the code of an expression or a block asks for parts of it, and for
the bodies its calls can have. What a task leads to is read off the program alone.
-/

namespace MarketLens.Pine

open List Option StatefulStmt Programs

/-- What a VM can be asked to evaluate, wherever it is asked. -/
inductive Task where
  | evaluate (expression : StatefulExpr)
  | block (statements : List StatefulStmt)
  | security (node : Nat) (requested : StatefulExpr)

/-- The body of a function. -/
def StatefulFunction.task (function : StatefulFunction) : Task :=
  match function.inline with
  | some inline => .evaluate inline
  | none => .block function.body

/-- The defaults of the fields of a type. -/
def StatefulType.tasks (typeDef : StatefulType) : List Task :=
  (typeDef.fields.filterMap StatefulField.defaultExp).map .evaluate

namespace StatefulProgram

variable (program : StatefulProgram)

def methodTasks (name : String) : List Task := ((program.methodNamed name).map StatefulFunction.task).toList

/-- What a call leads to beyond its arguments. -/
def calleeTasks (call : StatefulCall) : List Task :=
  let name := statefulExpressionName call.callee
  if name = "request.security" then
    (((call.argumentPlace "expression" 2).bind fun k => call.arguments[k]?).map
      fun argument => Task.security call.node argument.2).toList
  else
    match program.constructedType name, methodCallee call.callee, program.functionNamed name, namespaceMethod name with
    | some typeDef, _, _, _ => typeDef.tasks
    | none, some (receiver, method), _, _ => .evaluate receiver :: program.methodTasks method
    | none, none, some function, _ => [function.task]
    | none, none, none, some method => program.methodTasks method
    | none, none, none, none => []

end StatefulProgram

/-- The parts of a branch. -/
def StatefulBranch.tasks : StatefulBranch → List Task
  | mk condition body => [.evaluate condition, .block body]

/-- The parts of a statement. -/
def StatefulStmt.tasks : StatefulStmt → List Task
  | assign _ _ _ expression _ | expr _ expression => [.evaluate expression]
  | «if» _ branches other => branches.flatMap StatefulBranch.tasks ++ [.block other]
  | forRange _ _ start limit step body => .evaluate start :: .evaluate limit :: .block body :: step.toList.map .evaluate
  | forIn _ _ collection body => [.evaluate collection, .block body]
  | «while» _ condition body => [.evaluate condition, .block body]
  | control .. | noop _ => []

/-- What an expression leads to. -/
def StatefulExpr.tasks (program : StatefulProgram) : StatefulExpr → List Task
  | literal _ | identifier _ => []
  | unary _ value => [.evaluate value]
  | binary _ left right => [.evaluate left, .evaluate right]
  | ternary condition whenTrue whenFalse => [.evaluate condition, .evaluate whenTrue, .evaluate whenFalse]
  | field receiver _ => [.evaluate receiver]
  | index receiver at_ => [.evaluate receiver, .evaluate at_]
  | tuple values => values.map .evaluate
  | call node callee generic arguments =>
    arguments.map (fun argument => .evaluate argument.2) ++ program.calleeTasks ⟨node, callee, generic, arguments⟩

/-- What a task leads to at once. -/
def Task.subtasks (program : StatefulProgram) : Task → List Task
  | evaluate expression => expression.tasks program
  | block statements => statements.flatMap StatefulStmt.tasks
  | security node requested =>
    [.block (statefulStatementsBeforeCall program.statements node), .evaluate requested]

/-! ## What code asks -/

/-- An operation asks for tasks that satisfy `Q` only. -/
def Within (Q : Task → Prop) : VmOp → Prop
  | .machine _ | .cached _ => True
  | .evaluate expression _ => Q (.evaluate expression)
  | .block statements _ => Q (.block statements)
  | .security site node _ requested => site.1 = .node node ∧ Q (.security node requested)

section Asking

variable {Q : Task → Prop} {α : Type} {setting : Setting} {scope : ScopeId}

variable {frame : CallFrame}

variable {name : String} {body : List StatefulStmt}

section Arguments

variable (hargs : ∀ argument ∈ frame.call.arguments, Q (.evaluate argument.2))
include hargs

end Arguments

end Asking

end MarketLens.Pine
