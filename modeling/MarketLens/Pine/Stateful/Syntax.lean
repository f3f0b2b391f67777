import MarketLens.Pine.Number

/-!
# Programs of the stateful VM

The syntax tree the stateful parser builds. A call carries the address of its node: the
VM keeps what it knows of a call under that address, and finds a call by comparing it.
-/

namespace MarketLens.Pine

inductive Literal where
  | number (value : Point)
  | string (text : String)
  | color (text : String)

/-- `statefulExpr`. -/
inductive StatefulExpr where
  | literal (value : Literal)
  | identifier (name : String)
  | unary (operator : String) (value : StatefulExpr)
  | binary (operator : String) (left right : StatefulExpr)
  | ternary (condition whenTrue whenFalse : StatefulExpr)
  | field (receiver : StatefulExpr) (name : String)
  | index (receiver at_ : StatefulExpr)
  | tuple (values : List StatefulExpr)
  | call (node : Nat) (callee : StatefulExpr) (generic : String) (arguments : List (String × StatefulExpr))

/-- `statefulCallExpr`, taken out of its expression. -/
structure StatefulCall where
  node : Nat
  callee : StatefulExpr
  generic : String
  arguments : List (String × StatefulExpr)

/-- `statefulExpressionName`. -/
def statefulExpressionName : StatefulExpr → String
  | .identifier name => name
  | .field receiver name =>
    if statefulExpressionName receiver = "" then name else statefulExpressionName receiver ++ "." ++ name
  | _ => ""

mutual

/-- `statefulStmt`. A loop over a range and a loop over a collection are one type in the source, told
apart by `in`. -/
inductive StatefulStmt where
  | assign (line : Nat) (targets : List String) (op : String) (expression : StatefulExpr) (persistent : Bool)
  | expr (line : Nat) (expression : StatefulExpr)
  | «if» (line : Nat) (branches : List StatefulBranch) (other : List StatefulStmt)
  | forRange (line : Nat) («variable» : String) («from» «to» : StatefulExpr) (step : Option StatefulExpr)
      (body : List StatefulStmt)
  | forIn (line : Nat) («variable» : String) («in» : StatefulExpr) (body : List StatefulStmt)
  | while (line : Nat) (condition : StatefulExpr) (body : List StatefulStmt)
  | control (line : Nat) (kind : String)
  | noop (line : Nat)

/-- `statefulIfBranch`. -/
inductive StatefulBranch where
  | mk (condition : StatefulExpr) (body : List StatefulStmt)

end

def StatefulStmt.lineNumber : StatefulStmt → Nat
  | assign line .. | expr line _ | «if» line .. | forRange line .. | forIn line .. | «while» line ..
  | control line _ | noop line => line

/-- `statefulField`. -/
structure StatefulField where
  name : String
  defaultExp : Option StatefulExpr

/-- `statefulType`. -/
structure StatefulType where
  name : String
  fields : List StatefulField

/-- `statefulFunction`; an inline function has an expression instead of a body. -/
structure StatefulFunction where
  name : String
  parameters : List String
  body : List StatefulStmt
  inline : Option StatefulExpr

/-- `statefulProgram`. -/
structure StatefulProgram where
  types : List StatefulType
  functions : List StatefulFunction
  methods : List StatefulFunction
  statements : List StatefulStmt
  maxBoxes : Int
  maxLines : Int
  maxLabels : Int

section
variable (program : StatefulProgram) (name : String)

def StatefulProgram.typeNamed : Option StatefulType :=
  program.types.find? fun typeDef => typeDef.name = name

def StatefulProgram.functionNamed : Option StatefulFunction :=
  program.functions.find? fun function => function.name = name

def StatefulProgram.methodNamed : Option StatefulFunction :=
  program.methods.find? fun function => function.name = name

end

/-! ## Finding a call -/

mutual

/-- `statefulExpressionContainsCall`. -/
def statefulExpressionContainsCall (target : Nat) : StatefulExpr → Bool
  | .literal _ | .identifier _ => false
  | .unary _ value => statefulExpressionContainsCall target value
  | .binary _ left right =>
    statefulExpressionContainsCall target left || statefulExpressionContainsCall target right
  | .ternary condition whenTrue whenFalse =>
    statefulExpressionContainsCall target condition || statefulExpressionContainsCall target whenTrue ||
      statefulExpressionContainsCall target whenFalse
  | .field receiver _ => statefulExpressionContainsCall target receiver
  | .index receiver at_ =>
    statefulExpressionContainsCall target receiver || statefulExpressionContainsCall target at_
  | .tuple values => statefulExpressionsContainCall target values
  | .call node callee _ arguments =>
    node = target || statefulExpressionContainsCall target callee || statefulArgumentsContainCall target arguments

def statefulExpressionsContainCall (target : Nat) : List StatefulExpr → Bool
  | [] => false
  | value :: rest => statefulExpressionContainsCall target value || statefulExpressionsContainCall target rest

def statefulArgumentsContainCall (target : Nat) : List (String × StatefulExpr) → Bool
  | [] => false
  | (_, value) :: rest => statefulExpressionContainsCall target value || statefulArgumentsContainCall target rest

end

mutual

/-- `statefulStatementContainsCall`: a `while` and the step of a `for` are not looked into. -/
def statefulStatementContainsCall (target : Nat) : StatefulStmt → Bool
  | .assign _ _ _ expression _ => statefulExpressionContainsCall target expression
  | .expr _ expression => statefulExpressionContainsCall target expression
  | .if _ branches other =>
    statefulBranchesContainCall target branches || statefulStatementsContainCall target other
  | .forRange _ _ start limit _ body =>
    statefulExpressionContainsCall target start || statefulExpressionContainsCall target limit ||
      statefulStatementsContainCall target body
  | .forIn _ _ collection body =>
    statefulExpressionContainsCall target collection || statefulStatementsContainCall target body
  | .while .. | .control .. | .noop _ => false

def statefulStatementsContainCall (target : Nat) : List StatefulStmt → Bool
  | [] => false
  | statement :: rest => statefulStatementContainsCall target statement || statefulStatementsContainCall target rest

def statefulBranchesContainCall (target : Nat) : List StatefulBranch → Bool
  | [] => false
  | .mk condition body :: rest =>
    statefulExpressionContainsCall target condition || statefulStatementsContainCall target body ||
      statefulBranchesContainCall target rest

end

/-- `statefulStatementsBeforeCall`: all the statements if none contains the call. -/
def statefulStatementsBeforeCall (statements : List StatefulStmt) (target : Nat) : List StatefulStmt :=
  statements.takeWhile fun statement => !statefulStatementContainsCall target statement

end MarketLens.Pine
