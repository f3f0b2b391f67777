import MarketLens.Pine.Stateful.Evaluate

/-!
# Running a program

A VM answers what its code asks, one level of nesting less each time; without a level left
it gives no answer. A `request.security` runs a VM of its own, on the candles of its
timeframe, over all of them before the value at one bar is known.
-/

namespace MarketLens.Pine

open Programs

/-- What a VM is given: its candles, the bar it is at and the calls of `request.security` that lead to it. -/
structure Vm where
  setting : Setting
  candles : List Candle
  bar : Nat
  region : Region

/-- What a VM changes. The heap is shared with the VMs inside. -/
structure VmState where
  memory : Memory
  securityCalls : Site → Option (List StatefulValue)
  heap : Region → List StatefulNode

/-- A VM at its first bar. -/
def VmState.new (heap : Region → List StatefulNode) : VmState := ⟨Memory.new, fun _ => none, heap⟩

namespace VmState

variable (s : VmState)

def load (ref : Ref) : Option StatefulNode := (s.heap ref.region)[ref.index]?

def store (ref : Ref) (node : StatefulNode) : VmState :=
  { s with heap := put s.heap ref.region ((s.heap ref.region).set ref.index node) }

def alloc (region : Region) (node : StatefulNode) : Ref × VmState :=
  (⟨region, (s.heap region).length⟩, { s with heap := put s.heap region (s.heap region ++ [node]) })

end VmState

namespace Vm

variable (vm : Vm)

/-- The operations of a VM on itself. -/
def answer : (op : MachineOp) → VmState → op.Answer × VmState
  | .memory, s => (s.memory, s)
  | .setMemory memory, s => ((), { s with memory := memory })
  | .load ref, s => (s.load ref, s)
  | .store ref node, s => ((), s.store ref node)
  | .alloc node, s => s.alloc vm.region node
  | .candle ago, s => ((if vm.bar < ago then none else vm.candles[vm.bar - ago]? : Option Candle), s)
  | .bar, s => (vm.bar, s)
  | .isLast, s => (decide (vm.bar + 1 = vm.candles.length), s)
  | .mintick, s => (inferMintick vm.candles, s)

/-- The timeframe of a request in seconds: zero for the candles of the VM themselves. -/
def targetSeconds (timeframe : String) : Except Stop Int :=
  match timeframeSeconds timeframe with
  | none => .error (.error ("unsupported request.security() timeframe \"" ++ timeframe ++ "\""))
  | some seconds =>
    if 0 < seconds && seconds < statefulCandleInterval vm.candles then
      .error (.error "lower-timeframe request.security() is unsupported")
    else .ok (if seconds = statefulCandleInterval vm.candles then 0 else seconds)

/-- The VM of a `request.security`. -/
def child (site : Site) (target : List Candle) : Vm where
  setting := { vm.setting with outputSuppressed := true }
  candles := target
  bar := 0
  region := vm.region ++ [site]

end Vm

/-- The tuple without values that stands for a value of tuples. -/
def placeholder (values : List StatefulValue) : StatefulValue :=
  match values with
  | .tuple items :: _ => .tuple (items.map fun _ => .na)
  | _ => .na

/-- `mapStatefulSecurityValues`: a bucket is visible from its last bar on. -/
def mapStatefulSecurityValues (original target : List Candle) (values : List StatefulValue) (seconds : Int) :
    List StatefulValue :=
  original.mapIdx fun index candle =>
    let bucket := bucketOf seconds candle.time
    let found := (target.reverse.findIdx? fun other => other.time = bucket).map fun k => target.length - 1 - k
    match found with
    | none => placeholder values
    | some targetIndex =>
      let isFinalSubbar := (original[index + 1]?).all fun next => bucketOf seconds next.time ≠ bucket
      if isFinalSubbar then (values[targetIndex]?).getD (placeholder values)
      else if targetIndex = 0 then placeholder values
      else (values[targetIndex - 1]?).getD (placeholder values)

/-! ## The machine -/

abbrev VmMachine := Vm → Machine VmOp.Answer VmState

/-- One bar of a `request.security`: the statements before it, then what is requested. -/
def childBar (machine : VmMachine) (vm : Vm) (before : List StatefulStmt) (requested : StatefulExpr) (s : VmState) :
    Option (Except Stop StatefulValue × VmState) :=
  (machine vm (.block before .global) s).bind fun (first, s) =>
    match first with
    | .error stop => some (.error (stop.within "request.security dependency: "), s)
    | .ok _ =>
      (machine vm (.evaluate requested .global) s).map fun (value, s) =>
        match value with
        | .error stop => (.error (stop.within "request.security expression: "), s)
        | .ok value => (.ok value, { s with memory := s.memory.commitBar vm.bar })

/-- The bars of a `request.security` from one on, with the values so far. -/
def childBars (machine : VmMachine) (vm : Vm) (before : List StatefulStmt) (requested : StatefulExpr) :
    List Nat → List StatefulValue → VmState → Option (Except Stop (List StatefulValue) × VmState)
  | [], values, s => some (.ok values, s)
  | bar :: rest, values, s =>
    (childBar machine { vm with bar } before requested s).bind fun (result, s) =>
      match result with
      | .error stop => some (.error stop, s)
      | .ok value => childBars machine vm before requested rest (values ++ [value]) s

/-- The candles a request is evaluated on. -/
def targetCandles (candles : List Candle) (seconds : Int) : List Candle :=
  if 0 < seconds then aggregateRuntimeCandles candles seconds else candles

/-- The rest of `evaluateSecurity`: the VM inside starts anew and shares the heap only. -/
def runSecurity (machine : VmMachine) (vm : Vm) (site : Site) (node : Nat) (timeframe : String)
    (requested : StatefulExpr) (s : VmState) : Option (Except Stop StatefulValue × VmState) :=
  match vm.targetSeconds timeframe with
  | .error stop => some (.error stop, s)
  | .ok seconds =>
    let target := targetCandles vm.candles seconds
    let before := statefulStatementsBeforeCall vm.setting.program.statements node
    (childBars machine (vm.child site target) before requested (List.range target.length) [] (.new s.heap)).map
      fun (result, inner) =>
        let s := { s with heap := inner.heap }
        match result with
        | .error stop => (.error stop, s)
        | .ok values =>
          let mapped := if 0 < seconds then mapStatefulSecurityValues vm.candles target values seconds else values
          (.ok ((mapped[vm.bar]?).getD .na), { s with securityCalls := put s.securityCalls site (some mapped) })

/-- What a VM makes of one operation, if the operations inside are answered by a machine. -/
def vmStep (machine : VmMachine) (vm : Vm) : Machine VmOp.Answer VmState
  | .machine op, s => some (vm.answer op s)
  | .cached site, s => some ((s.securityCalls site).map fun values => (values[vm.bar]?).getD .na, s)
  | .evaluate expression scope, s => (evaluateStep vm.setting scope expression).run.run (machine vm) s
  | .block statements scope, s => (blockStep vm.setting scope statements .na).run.run (machine vm) s
  | .security site node timeframe requested, s => runSecurity machine vm site node timeframe requested s

/-- The machine of a VM with so many levels of nesting. -/
def vmMachine : Nat → VmMachine
  | 0 => fun _ _ _ => none
  | levels + 1 => vmStep (vmMachine levels)

/-! ## A run -/

/-- `statefulVM.run`, from a bar on. -/
def runBars (machine : VmMachine) (vm : Vm) : List Nat → VmState → Option (Except Stop Unit × VmState)
  | [], s => some (.ok (), s)
  | bar :: rest, s =>
    (machine { vm with bar } (.block vm.setting.program.statements .global) s).bind fun (result, s) =>
      match result with
      | .error stop => some (.error stop, s)
      | .ok _ => runBars machine vm rest { s with memory := s.memory.commitBar bar }

def chartVm (setting : Setting) (candles : List Candle) : Vm := ⟨setting, candles, 0, []⟩

def runProgram (levels : Nat) (setting : Setting) (candles : List Candle) : Option (Except Stop Unit × VmState) :=
  runBars (vmMachine levels) (chartVm setting candles) (List.range candles.length) (.new fun _ => [])

end MarketLens.Pine
