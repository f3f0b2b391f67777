import Mathlib.Data.List.Infix
import Mathlib.Data.List.TakeWhile
import MarketLens.Pine.Stateful.Reach

/-!
# What a program text holds

The calls of a program in the order of its text, what the search for one finds, and what
each task leads to: a part of itself, a request in it, or a definition a call in it enters.
-/

namespace MarketLens.Pine

open Programs List Pine.Task StatefulProgram

/-! ## The calls of a program -/

mutual

/-- The calls of an expression, a call after those inside it. -/
def StatefulExpr.calls : StatefulExpr → List StatefulCall
  | .literal _ | .identifier _ => []
  | .unary _ value => value.calls
  | .binary _ left right => left.calls ++ right.calls
  | .ternary condition whenTrue whenFalse => condition.calls ++ whenTrue.calls ++ whenFalse.calls
  | .field receiver _ => receiver.calls
  | .index receiver at_ => receiver.calls ++ at_.calls
  | .tuple values => callsOfAll values
  | .call node callee generic arguments =>
    callee.calls ++ callsOfArguments arguments ++ [⟨node, callee, generic, arguments⟩]

def callsOfAll : List StatefulExpr → List StatefulCall
  | [] => []
  | value :: rest => value.calls ++ callsOfAll rest

def callsOfArguments : List (String × StatefulExpr) → List StatefulCall
  | [] => []
  | (_, value) :: rest => value.calls ++ callsOfArguments rest

end

mutual

def StatefulStmt.calls : StatefulStmt → List StatefulCall
  | .assign _ _ _ expression _ => expression.calls
  | .expr _ expression => expression.calls
  | .if _ branches other => callsOfBranches branches ++ callsOfBlock other
  | .forRange _ _ start limit step body =>
    start.calls ++ limit.calls ++ (step.elim [] StatefulExpr.calls) ++ callsOfBlock body
  | .forIn _ _ collection body => collection.calls ++ callsOfBlock body
  | .while _ condition body => condition.calls ++ callsOfBlock body
  | .control .. | .noop _ => []

def callsOfBlock : List StatefulStmt → List StatefulCall
  | [] => []
  | statement :: rest => statement.calls ++ callsOfBlock rest

def callsOfBranches : List StatefulBranch → List StatefulCall
  | [] => []
  | .mk condition body :: rest => condition.calls ++ callsOfBlock body ++ callsOfBranches rest

end

/-- Their addresses. -/
def nodesOfBlock (statements : List StatefulStmt) : List Nat := (callsOfBlock statements).map StatefulCall.node

def StatefulFunction.calls (function : StatefulFunction) : List StatefulCall :=
  callsOfBlock function.body ++ function.inline.elim [] StatefulExpr.calls

def StatefulType.calls (typeDef : StatefulType) : List StatefulCall :=
  callsOfAll (typeDef.fields.filterMap StatefulField.defaultExp)

namespace StatefulProgram

variable (program : StatefulProgram)

/-- The addresses of the calls in the definitions of a program. -/
def definedNodes : List Nat :=
  (program.types.flatMap StatefulType.calls ++ program.functions.flatMap StatefulFunction.calls ++
    program.methods.flatMap StatefulFunction.calls).map StatefulCall.node

/-- No two calls have one address: the parser makes a node for each. -/
def Addressed : Prop := (nodesOfBlock program.statements ++ program.definedNodes).Nodup

def Leads (t t' : Task) : Prop := t' ∈ t.subtasks program

/-- A task is led to in some steps. -/
def Reaches : Task → Task → Prop := Relation.ReflTransGen program.Leads

/-- A block can come to the `request.security` of an address. -/
def MayRequest (statements : List StatefulStmt) (node : Nat) : Prop :=
  ∃ requested, program.Reaches (.block statements) (.security node requested)

/-- Whether `statefulStatementsBeforeCall` finds a call. -/
def finds (node : Nat) : Bool := statefulStatementsContainCall node program.statements

/-- Every `request.security` the program can come to stands where the search looks. -/
def Searched : Prop := ∀ node, program.MayRequest program.statements node → program.finds node

end StatefulProgram

theorem callsOfAll_eq (values : List StatefulExpr) : callsOfAll values = values.flatMap StatefulExpr.calls := by
  induction values with
  | nil => rfl
  | cons value rest ih => rw [callsOfAll, ih, flatMap_cons]

theorem callsOfArguments_eq (arguments : List (String × StatefulExpr)) :
    callsOfArguments arguments = arguments.flatMap fun argument => argument.2.calls := by
  induction arguments with
  | nil => rfl
  | cons argument rest ih =>
    rw [callsOfArguments, ih, flatMap_cons]

theorem callsOfBlock_eq (statements : List StatefulStmt) : callsOfBlock statements = statements.flatMap StatefulStmt.calls := by
  induction statements with
  | nil => rfl
  | cons statement rest ih => rw [callsOfBlock, ih, flatMap_cons]

theorem infix_flatMap {α β : Type} {f : α → List β} {x : α} {l : List α} (h : x ∈ l) : f x <:+: l.flatMap f := by
  obtain ⟨before, after, rfl⟩ := append_of_mem h
  exact ⟨before.flatMap f, after.flatMap f, by simp⟩

/-! ## What the search finds is there -/

/-- A call with an address is among some. -/
def Has (target : Nat) (calls : List StatefulCall) : Prop := ∃ call ∈ calls, call.node = target

theorem has_append {target : Nat} {calls calls' : List StatefulCall} :
    Has target (calls ++ calls') ↔ Has target calls ∨ Has target calls' := by
  simp only [Has, mem_append, or_and_right, exists_or]

mutual

variable {target : Nat}

theorem has_of_contains : ∀ {expression : StatefulExpr},
    statefulExpressionContainsCall target expression = true → Has target expression.calls
  | .literal _, h | .identifier _, h => by simp [statefulExpressionContainsCall] at h
  | .unary _ value, h => (has_of_contains h : Has target value.calls)
  | .binary _ left right, h => by
    simp only [statefulExpressionContainsCall, Bool.or_eq_true] at h
    rw [StatefulExpr.calls, has_append]
    exact h.imp has_of_contains has_of_contains
  | .ternary condition whenTrue whenFalse, h => by
    simp only [statefulExpressionContainsCall, Bool.or_eq_true] at h
    rw [StatefulExpr.calls, has_append, has_append]
    exact h.imp (Or.imp has_of_contains has_of_contains) has_of_contains
  | .field receiver _, h => (has_of_contains h : Has target receiver.calls)
  | .index receiver at_, h => by
    simp only [statefulExpressionContainsCall, Bool.or_eq_true] at h
    rw [StatefulExpr.calls, has_append]
    exact h.imp has_of_contains has_of_contains
  | .tuple values, h => has_all_of_contains h
  | .call node callee generic arguments, h => by
    simp only [statefulExpressionContainsCall, Bool.or_eq_true, decide_eq_true_eq] at h
    rw [StatefulExpr.calls, has_append, has_append]
    rcases h with (h | h) | h
    · exact .inr ⟨_, mem_singleton_self _, h⟩
    · exact .inl (.inl (has_of_contains h))
    · exact .inl (.inr (has_arguments_of_contains h))

theorem has_all_of_contains : ∀ {values : List StatefulExpr},
    statefulExpressionsContainCall target values = true → Has target (callsOfAll values)
  | [], h => by simp [statefulExpressionsContainCall] at h
  | value :: rest, h => by
    simp only [statefulExpressionsContainCall, Bool.or_eq_true] at h
    rw [callsOfAll, has_append]
    exact h.imp has_of_contains has_all_of_contains

theorem has_arguments_of_contains : ∀ {arguments : List (String × StatefulExpr)},
    statefulArgumentsContainCall target arguments = true → Has target (callsOfArguments arguments)
  | [], h => by simp [statefulArgumentsContainCall] at h
  | (_, value) :: rest, h => by
    simp only [statefulArgumentsContainCall, Bool.or_eq_true] at h
    rw [callsOfArguments, has_append]
    exact h.imp has_of_contains has_arguments_of_contains

end

mutual

variable {target : Nat}

theorem has_of_statementContains : ∀ {statement : StatefulStmt},
    statefulStatementContainsCall target statement = true → Has target statement.calls
  | .assign _ _ _ expression _, h => (has_of_contains h : Has target expression.calls)
  | .expr _ expression, h => (has_of_contains h : Has target expression.calls)
  | .if _ branches other, h => by
    simp only [statefulStatementContainsCall, Bool.or_eq_true] at h
    rw [StatefulStmt.calls, has_append]
    exact h.imp has_branches_of_contain has_block_of_contain
  | .forRange _ _ start limit step body, h => by
    simp only [statefulStatementContainsCall, Bool.or_eq_true] at h
    rw [StatefulStmt.calls, has_append, has_append, has_append]
    rcases h with (h | h) | h
    · exact .inl (.inl (.inl (has_of_contains h)))
    · exact .inl (.inl (.inr (has_of_contains h)))
    · exact .inr (has_block_of_contain h)
  | .forIn _ _ collection body, h => by
    simp only [statefulStatementContainsCall, Bool.or_eq_true] at h
    rw [StatefulStmt.calls, has_append]
    exact h.imp has_of_contains has_block_of_contain
  | .while .., h | .control .., h | .noop _, h => by simp [statefulStatementContainsCall] at h

theorem has_block_of_contain : ∀ {statements : List StatefulStmt},
    statefulStatementsContainCall target statements = true → Has target (callsOfBlock statements)
  | [], h => by simp [statefulStatementsContainCall] at h
  | statement :: rest, h => by
    simp only [statefulStatementsContainCall, Bool.or_eq_true] at h
    rw [callsOfBlock, has_append]
    exact h.imp has_of_statementContains has_block_of_contain

theorem has_branches_of_contain : ∀ {branches : List StatefulBranch},
    statefulBranchesContainCall target branches = true → Has target (callsOfBranches branches)
  | [], h => by simp [statefulBranchesContainCall] at h
  | .mk condition body :: rest, h => by
    simp only [statefulBranchesContainCall, Bool.or_eq_true] at h
    rw [callsOfBranches, has_append, has_append]
    rcases h with (h | h) | h
    · exact .inl (.inl (has_of_contains h))
    · exact .inl (.inr (has_block_of_contain h))
    · exact .inr (has_branches_of_contain h)

end

variable {statements : List StatefulStmt}

theorem statementsBefore_of_finds {node : Nat} (h : statefulStatementsContainCall node statements) :
    ∃ statement after, statements = statefulStatementsBeforeCall statements node ++ statement :: after ∧
      Has node statement.calls := by
  induction statements with
  | nil => simp [statefulStatementsContainCall] at h
  | cons statement rest ih =>
    unfold statefulStatementsBeforeCall
    cases hhere : statefulStatementContainsCall node statement with
    | true =>
      refine ⟨statement, rest, ?_, has_of_statementContains hhere⟩
      rw [takeWhile_cons_of_neg (by simp [hhere])]
      rfl
    | false =>
      rw [statefulStatementsContainCall, hhere, Bool.false_or] at h
      obtain ⟨found, after, heq, hmem⟩ := ih h
      refine ⟨found, after, ?_, hmem⟩
      rw [takeWhile_cons_of_pos (by simp [hhere]), cons_append]
      exact congrArg _ heq

def Task.calls : Task → List StatefulCall
  | .evaluate expression => expression.calls
  | .block statements => callsOfBlock statements
  | .security _ requested => requested.calls

/-- Their addresses. -/
def Task.nodes (t : Task) : List Nat := t.calls.map StatefulCall.node

/-- A task that is not a request. -/
def Task.Plain : Task → Prop
  | .evaluate _ | .block _ => True
  | .security .. => False

/-- The size of its syntax tree. -/
noncomputable def Task.size : Task → Nat
  | .evaluate expression | .security _ expression => sizeOf expression
  | .block statements => sizeOf statements

structure Task.PartOf (t : Task) (calls : List StatefulCall) (size : Nat) : Prop where
  plain : t.Plain
  calls : t.calls <:+: calls
  size : t.size < size

variable {t : Task}

theorem Task.PartOf.mono {calls calls' : List StatefulCall} {size size' : Nat} (h : t.PartOf calls size)
    (hcalls : calls <:+: calls') (hsize : size ≤ size') : t.PartOf calls' size' :=
  ⟨h.plain, h.calls.trans hcalls, Nat.lt_of_lt_of_le h.size hsize⟩

theorem tasks_of_branches {branches : List StatefulBranch} (h : t ∈ branches.flatMap StatefulBranch.tasks) :
    t.PartOf (callsOfBranches branches) (sizeOf branches) := by
  induction branches with
  | nil => cases h
  | cons branch rest ih =>
    obtain ⟨condition, body⟩ := branch
    rw [flatMap_cons, mem_append] at h
    rcases h with h | h
    · simp only [StatefulBranch.tasks, mem_cons, not_mem_nil, or_false] at h
      rcases h with rfl | rfl
      · exact ⟨trivial, ⟨[], callsOfBlock body ++ callsOfBranches rest, by simp [calls, callsOfBranches]⟩,
          by simp [size]; omega⟩
      · exact ⟨trivial, ⟨condition.calls, callsOfBranches rest, by simp [calls, callsOfBranches]⟩,
          by simp [size]; omega⟩
    · exact (ih h).mono ⟨condition.calls ++ callsOfBlock body, [], by simp [callsOfBranches]⟩ (by simp)

theorem tasks_of_statement {statement : StatefulStmt} (h : t ∈ statement.tasks) :
    t.PartOf statement.calls (sizeOf statement) := by
  cases statement with
  | assign line targets op expression persistent =>
    cases mem_singleton.mp h
    have hsize : sizeOf expression < sizeOf (StatefulStmt.assign line targets op expression persistent) := by
      simp only [StatefulStmt.assign.sizeOf_spec]
      omega
    exact ⟨trivial, infix_rfl, hsize⟩
  | expr =>
    cases mem_singleton.mp h
    exact ⟨trivial, infix_rfl, by simp [size]⟩
  | «if» line branches other =>
    rcases mem_append.mp h with h | h
    · exact (tasks_of_branches h).mono ⟨[], callsOfBlock other, by simp [StatefulStmt.calls]⟩ (by simp; omega)
    · cases mem_singleton.mp h
      exact ⟨trivial, ⟨callsOfBranches branches, [], by simp [calls, StatefulStmt.calls]⟩, by simp [size]⟩
  | forRange line name start limit step body =>
    simp only [StatefulStmt.tasks, mem_cons, mem_map, Option.mem_toList] at h
    rcases h with rfl | rfl | rfl | ⟨expression, hstep, rfl⟩
    · exact ⟨trivial, ⟨[], limit.calls ++ step.elim [] StatefulExpr.calls ++ callsOfBlock body,
        by simp [calls, StatefulStmt.calls]⟩, by simp [size]; omega⟩
    · exact ⟨trivial, ⟨start.calls, step.elim [] StatefulExpr.calls ++ callsOfBlock body,
        by simp [calls, StatefulStmt.calls]⟩, by simp [size]; omega⟩
    · exact ⟨trivial, ⟨start.calls ++ limit.calls ++ step.elim [] StatefulExpr.calls, [],
        by simp [calls, StatefulStmt.calls]⟩, by simp [size]⟩
    · cases hstep
      exact ⟨trivial, ⟨start.calls ++ limit.calls, callsOfBlock body, rfl⟩, by simp [size]; omega⟩
  | forIn line name collection body =>
    simp only [StatefulStmt.tasks, mem_cons, not_mem_nil, or_false] at h
    rcases h with rfl | rfl
    · exact ⟨trivial, ⟨[], callsOfBlock body, rfl⟩, by simp [size]; omega⟩
    · exact ⟨trivial, ⟨collection.calls, [], by simp [calls, StatefulStmt.calls]⟩, by simp [size]⟩
  | «while» line condition body =>
    simp only [StatefulStmt.tasks, mem_cons, not_mem_nil, or_false] at h
    rcases h with rfl | rfl
    · exact ⟨trivial, ⟨[], callsOfBlock body, rfl⟩, by simp [size]; omega⟩
    · exact ⟨trivial, ⟨condition.calls, [], by simp [calls, StatefulStmt.calls]⟩, by simp [size]⟩
  | control | noop => cases h

theorem tasks_of_block (h : t ∈ statements.flatMap StatefulStmt.tasks) :
    t.PartOf (callsOfBlock statements) (sizeOf statements) := by
  obtain ⟨statement, hmem, ht⟩ := mem_flatMap.mp h
  rw [callsOfBlock_eq]
  exact (tasks_of_statement ht).mono (infix_flatMap hmem) (Nat.le_of_lt (sizeOf_lt_of_mem hmem))

/-! ## The calls of definitions -/

/-- What a call can enter: a function or a method, or the defaults of a type. The statements of the
program are entered by the run. -/
inductive Definition where
  | main
  | function (function : StatefulFunction)
  | type (typeDef : StatefulType)

namespace StatefulProgram

variable (program : StatefulProgram)

/-- The definitions a call can enter. -/
def definitions : List Definition :=
  program.types.map .type ++ program.functions.map .function ++ program.methods.map .function

/-- The definition a call enters, or may enter if its receiver has no method of its own. -/
def callee (call : StatefulCall) : Option Definition :=
  let name := statefulExpressionName call.callee
  if name = "request.security" then none
  else
    match program.constructedType name, methodCallee call.callee, program.functionNamed name, namespaceMethod name with
    | some typeDef, _, _, _ => some (.type typeDef)
    | none, some (_, method), _, _ => (program.methodNamed method).map .function
    | none, none, some function, _ => some (.function function)
    | none, none, none, some method => (program.methodNamed method).map .function
    | none, none, none, none => none

end StatefulProgram

/-- What is evaluated of a definition. -/
def Definition.tasks (program : StatefulProgram) : Definition → List Task
  | main => [.block program.statements]
  | function f => [f.task]
  | type typeDef => typeDef.tasks

namespace StatefulProgram

variable (program : StatefulProgram)

def Calls (d d' : Definition) : Prop := ∃ t ∈ d.tasks program, ∃ call ∈ t.calls, program.callee call = some d'

end StatefulProgram

section Definitions

variable {program : StatefulProgram} {t : Task}

variable {call : StatefulCall} {d : Definition}

theorem mem_definitions_of_callee (h : program.callee call = some d) : d ∈ program.definitions := by
  have hmeth : ∀ name, (program.methodNamed name).map Definition.function = some d → d ∈ program.definitions := by
    intro name heq
    obtain ⟨method, hmeth, rfl⟩ := Option.map_eq_some_iff.mp heq
    exact mem_append_right _ (mem_map_of_mem (mem_of_find?_eq_some hmeth))
  unfold callee at h
  dsimp only at h
  split at h
  · cases h
  split at h
  · rename_i htype
    cases h
    simp only [constructedType, Option.ite_none_right_eq_some] at htype
    exact mem_append_left _ (mem_append_left _ (mem_map_of_mem (mem_of_find?_eq_some htype.2)))
  · exact hmeth _ h
  · rename_i hfun
    cases h
    exact mem_append_left _ (mem_append_right _ (mem_map_of_mem (mem_of_find?_eq_some hfun)))
  · exact hmeth _ h
  · cases h

/-- What is evaluated of a definition stands among the definitions. -/
theorem mem_definedNodes (hd : d ∈ program.definitions) (h : t ∈ d.tasks program) :
    t.Plain ∧ ∀ n ∈ t.nodes, n ∈ program.definedNodes := by
  have hfun : ∀ {function : StatefulFunction}, t = function.task → t.Plain ∧ ∀ call ∈ t.calls, call ∈ function.calls := by
    rintro function rfl
    unfold StatefulFunction.task StatefulFunction.calls
    split
    · rename_i inline heq
      exact ⟨trivial, fun call hcall => mem_append_right _ (by rw [heq]; exact hcall)⟩
    · exact ⟨trivial, fun call hcall => mem_append_left _ hcall⟩
  have hcalls : ∀ calls : List StatefulCall, t.Plain ∧ (∀ call ∈ t.calls, call ∈ calls) →
      calls ⊆ program.types.flatMap StatefulType.calls ++ program.functions.flatMap StatefulFunction.calls ++
        program.methods.flatMap StatefulFunction.calls → t.Plain ∧ ∀ n ∈ t.nodes, n ∈ program.definedNodes := by
    intro calls hcalls hsub
    refine ⟨hcalls.1, fun n hn => ?_⟩
    obtain ⟨call, hcall, rfl⟩ := mem_map.mp hn
    exact mem_map_of_mem (hsub (hcalls.2 call hcall))
  simp only [definitions, mem_append, mem_map] at hd
  rcases hd with (⟨typeDef, hmem, rfl⟩ | ⟨function, hmem, rfl⟩) | ⟨method, hmem, rfl⟩
  · obtain ⟨expression, hexpression, rfl⟩ := mem_map.mp h
    refine hcalls typeDef.calls ⟨trivial, fun call hcall => ?_⟩ fun call hcall => ?_
    · rw [StatefulType.calls, callsOfAll_eq]
      exact mem_flatMap.mpr ⟨expression, hexpression, hcall⟩
    · exact mem_append_left _ (mem_append_left _ (mem_flatMap.mpr ⟨typeDef, hmem, hcall⟩))
  · refine hcalls function.calls (hfun (mem_singleton.mp h)) fun call hcall => ?_
    exact mem_append_left _ (mem_append_right _ (mem_flatMap.mpr ⟨function, hmem, hcall⟩))
  · refine hcalls method.calls (hfun (mem_singleton.mp h)) fun call hcall => ?_
    exact mem_append_right _ (mem_flatMap.mpr ⟨method, hmem, hcall⟩)

theorem receiver_of_methodCallee {callee receiver : StatefulExpr} {name : String}
    (h : methodCallee callee = some (receiver, name)) : ∃ field, callee = .field receiver field := by
  unfold methodCallee at h
  split at h
  · split at h
    · cases h
    · cases h
      exact ⟨_, rfl⟩
  · cases h
    exact ⟨_, rfl⟩
  · cases h

/-- What a callee leads to: the request, its receiver, or a definition. -/
theorem mem_calleeTasks (h : t ∈ program.calleeTasks call) :
    (∃ argument ∈ call.arguments, t = .security call.node argument.2) ∨
      (∃ receiver name, call.callee = .field receiver name ∧ t = .evaluate receiver) ∨
      ∃ d, program.callee call = some d ∧ t ∈ d.tasks program := by
  have hmeth : ∀ name, t ∈ program.methodTasks name →
      ∃ d, (program.methodNamed name).map Definition.function = some d ∧ t ∈ d.tasks program := by
    intro name hmem
    simp only [methodTasks, Option.mem_toList, Option.map_eq_some_iff] at hmem
    obtain ⟨method, heq, rfl⟩ := hmem
    exact ⟨.function method, by rw [heq]; rfl, mem_singleton_self _⟩
  unfold calleeTasks at h
  dsimp only at h
  split at h
  · obtain ⟨argument, hpl, rfl⟩ := Option.map_eq_some_iff.mp (Option.mem_toList.mp h)
    obtain ⟨k, _, hk⟩ := Option.bind_eq_some_iff.mp hpl
    exact .inl ⟨argument, mem_of_getElem? hk, rfl⟩
  · rename_i hname
    split at h
    · rename_i typeDef htype
      exact .inr (.inr ⟨.type typeDef, by rw [callee, if_neg hname, htype], h⟩)
    · rename_i htype hcallee
      rcases mem_cons.mp h with rfl | h
      · obtain ⟨field, hfield⟩ := receiver_of_methodCallee hcallee
        exact .inr (.inl ⟨_, field, hfield, rfl⟩)
      · obtain ⟨d, hd, hmem⟩ := hmeth _ h
        exact .inr (.inr ⟨d, by simpa only [callee, if_neg hname, htype, hcallee] using hd, hmem⟩)
    · rename_i function htype hcallee hfun
      exact .inr (.inr ⟨.function function, by rw [callee, if_neg hname, htype, hcallee, hfun], h⟩)
    · rename_i htype hcallee hfun hnamespace
      obtain ⟨d, hd, hmem⟩ := hmeth _ h
      exact .inr (.inr ⟨d, by simpa only [callee, if_neg hname, htype, hcallee, hfun, hnamespace] using hd, hmem⟩)
    · cases h

/-- What an expression asks for is a part of it, a request behind the calls before it, or the body of a callee. -/
theorem tasks_of_expression {expression : StatefulExpr} (h : t ∈ expression.tasks program) :
    t.PartOf expression.calls (sizeOf expression) ∨
      (∃ call requested before, t = .security call.node requested ∧ requested.calls <:+: before ∧
        before ++ [call] <:+: expression.calls) ∨
      ∃ call ∈ expression.calls, ∃ d, program.callee call = some d ∧ t ∈ d.tasks program := by
  cases expression with
  | literal | identifier => cases h
  | unary =>
    cases mem_singleton.mp h
    exact .inl ⟨trivial, infix_rfl, by simp [size]⟩
  | binary operator left right =>
    simp only [StatefulExpr.tasks, mem_cons, not_mem_nil, or_false] at h
    rcases h with rfl | rfl
    · exact .inl ⟨trivial, ⟨[], right.calls, rfl⟩, by simp [size]; omega⟩
    · exact .inl ⟨trivial, ⟨left.calls, [], by simp [calls, StatefulExpr.calls]⟩, by simp [size]⟩
  | ternary condition whenTrue whenFalse =>
    simp only [StatefulExpr.tasks, mem_cons, not_mem_nil, or_false] at h
    rcases h with rfl | rfl | rfl
    · exact .inl ⟨trivial, ⟨[], whenTrue.calls ++ whenFalse.calls, by simp [calls, StatefulExpr.calls]⟩,
        by simp [size]; omega⟩
    · exact .inl ⟨trivial, ⟨condition.calls, whenFalse.calls, rfl⟩, by simp [size]; omega⟩
    · exact .inl ⟨trivial, ⟨condition.calls ++ whenTrue.calls, [], by simp [calls, StatefulExpr.calls]⟩,
        by simp [size]⟩
  | field =>
    cases mem_singleton.mp h
    exact .inl ⟨trivial, infix_rfl, by simp [size]; omega⟩
  | index receiver at_ =>
    simp only [StatefulExpr.tasks, mem_cons, not_mem_nil, or_false] at h
    rcases h with rfl | rfl
    · exact .inl ⟨trivial, ⟨[], at_.calls, rfl⟩, by simp [size]; omega⟩
    · exact .inl ⟨trivial, ⟨receiver.calls, [], by simp [calls, StatefulExpr.calls]⟩, by simp [size]⟩
  | tuple =>
    obtain ⟨value, hvalue, rfl⟩ := mem_map.mp h
    refine .inl ⟨trivial, ?_, ?_⟩
    · rw [StatefulExpr.calls, callsOfAll_eq]
      exact infix_flatMap hvalue
    · have hsize := sizeOf_lt_of_mem hvalue
      simp only [size, StatefulExpr.tuple.sizeOf_spec]
      omega
  | call node callee generic arguments =>
    have hargument : ∀ argument ∈ arguments, argument.2.calls <:+: callsOfArguments arguments := by
      intro argument hmem
      rw [callsOfArguments_eq]
      exact infix_flatMap (f := fun argument : String × StatefulExpr => argument.2.calls) hmem
    rcases mem_append.mp h with h | h
    · obtain ⟨⟨name, value⟩, hmem, rfl⟩ := mem_map.mp h
      refine .inl ⟨trivial, (hargument _ hmem).trans ⟨callee.calls, [⟨node, callee, generic, arguments⟩], rfl⟩, ?_⟩
      have hsize := sizeOf_lt_of_mem hmem
      simp only [size, StatefulExpr.call.sizeOf_spec, Prod.mk.sizeOf_spec] at hsize ⊢
      omega
    · rcases mem_calleeTasks h with ⟨argument, hmem, rfl⟩ | ⟨receiver, name, rfl, rfl⟩ | ⟨d, hd, ht⟩
      -- the request stands behind its own arguments
      · refine .inr (.inl ⟨_, argument.2, callee.calls ++ callsOfArguments arguments, rfl, ?_, infix_rfl⟩)
        exact (hargument argument hmem).trans ⟨callee.calls, [], append_nil _⟩
      · refine .inl ⟨trivial, ?_, by simp [size]; omega⟩
        exact ⟨[], callsOfArguments arguments ++ [⟨node, .field receiver name, generic, arguments⟩],
          by simp [calls, StatefulExpr.calls]⟩
      · exact .inr (.inr ⟨_, mem_append_right _ (mem_singleton_self _), d, hd, ht⟩)

end Definitions

end MarketLens.Pine
