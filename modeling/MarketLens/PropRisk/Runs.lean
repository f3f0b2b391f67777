import MarketLens.Lib.Run
import MarketLens.PropRisk.Pretrade

/-!
# Runs of the guard

One prop-risk account over time: settings saves, edits of the profile catalog,
heartbeats, portfolio snapshots and order admissions, in any order. A heartbeat is
two steps, because its verdict is written by another statement than the one that
read the settings: anything may happen in between, and several heartbeats may be
under way at once. Every step has a later database time than the one before.

The system remembers which admitted orders no snapshot has shown yet, with the
budgets each was checked against. The code keeps no such list; it is there to say
what the budgets cover.
-/

namespace MarketLens.PropRisk

open Fallible Store Runs

/-- A heartbeat that has read its settings and not yet written its verdict. -/
structure Heartbeat where
  sample : GuardSample
  runtime : PropRiskRuntimeConfig
  first : Bool

/-- What an order was measured against. -/
structure Budgets where
  committed : Decimal
  perTrade : Decimal
  openRisk : Decimal
  dailyLoss : Decimal
  maxLoss : Decimal
deriving DecidableEq

/-- An order that passed the check and was enqueued. -/
structure Admitted where
  commandId : String
  risk : Decimal
  /-- Absent when the order was not measured: no enabled settings, or an unknown risk they accept. -/
  budgets : Option Budgets
  /-- The portfolio it was measured against. -/
  portfolioVersion : Nat
deriving DecidableEq

structure GuardSystem where
  tables : PropRiskTables
  portfolio : PortfolioTables
  instruments : InstrumentTable
  portfolioVersion : Nat
  heartbeats : List Heartbeat
  invisible : List Admitted
  clock : Nat

inductive GuardAction where
  | save (now : Nat) (ownsAccount : Bool) (request : PropRiskUpdateRequest)
  | editCatalog (now : Nat) (catalog : List PropRiskProfileTemplate)
  | beginHeartbeat (now : Nat) (sample : GuardSample)
  | finishHeartbeat (now : Nat) (index : Nat)
  /-- A portfolio is stored; it shows the outcome of the orders `visible`. -/
  | snapshot (now : Nat) (positions : List EaPositionSnapshot)
      (pendingOrders : List EaPendingOrderSnapshot) (complete : Bool) (visible : List String)
  | reportInstruments (now : Nat) (instruments : InstrumentTable)
  /-- An order is checked and, unless the queue refuses it, enqueued. -/
  | admitOrder (now : Nat) (nowMs : Nat) (context : RouteTargetContext) (order : RoutedOrder)
      (queued : Bool)

def GuardAction.time : GuardAction → Nat
  | .save now _ _ | .editCatalog now _ | .beginHeartbeat now _ | .finishHeartbeat now _
  | .snapshot now _ _ _ _ | .reportInstruments now _ | .admitOrder now _ _ _ _ => now

/-- The budgets of an account's settings at the routed balance and equity. -/
def budgetsAt (nowMs : Nat) (context : RouteTargetContext) (runtime : PropRiskRuntimeConfig)
    (committed : Decimal) : Budgets :=
  let evaluation := pretradeEvaluation nowMs context runtime
  { committed := committed
    perTrade := maxPerTrade runtime
    openRisk := maxOpenRisk runtime
    dailyLoss := evaluation.dailyLossRemaining - emergencyBuffer runtime
    maxLoss := evaluation.maxLossRemaining - emergencyBuffer runtime }

/-- The record of an order that passed. -/
def admittedOrder (nowMs : Nat) (context : RouteTargetContext) (order : RoutedOrder)
    (runtime : Option PropRiskRuntimeConfig) (committed : Option Decimal)
    (portfolioVersion : Nat) : Admitted where
  commandId := order.commandId
  risk := (orderRiskPerQuantity context order).getD 0 * order.quantity
  budgets := runtime.bind fun runtime => committed.map (budgetsAt nowMs context runtime)
  portfolioVersion := portfolioVersion

/-- The effect of an admission on the system. -/
def takeOrder (env : PropRiskEnv) (now nowMs : Nat) (context : RouteTargetContext)
    (order : RoutedOrder) (queued : Bool) (s : GuardSystem) : Option GuardSystem :=
  match loadPropRiskRuntime env now (context.account.balance.getD 0) s.tables,
    applyPropRiskPretrade env now nowMs context order s.portfolio s.instruments s.tables with
  | .ok (runtime, _), .ok (outcome, tables) =>
    match outcome with
    | .rejected _ _ => some { s with tables := tables, clock := now }
    | .passed order =>
      let committed := committedRiskAtStops context.account.id s.portfolio s.instruments
      let taken := admittedOrder nowMs context order runtime committed s.portfolioVersion
      some { s with
        tables := tables
        invisible := if queued then s.invisible ++ [taken] else s.invisible
        clock := now }
  | _, _ => none

/-- A heartbeat writes its verdict, retries against another baseline, or gives up. -/
def finishHeartbeat (env : PropRiskEnv) (now : Nat) (index : Nat) (s : GuardSystem) :
    Option GuardSystem :=
  match s.heartbeats[index]? with
  | none => none
  | some heartbeat =>
    match guardAttempt env now heartbeat.sample heartbeat.first heartbeat.runtime s.tables with
    | .ok (.persisted _, tables) =>
      some { s with tables := tables, heartbeats := s.heartbeats.eraseIdx index, clock := now }
    | .ok (.baselineChanged runtime, tables) =>
      let retry : Heartbeat := { heartbeat with runtime := runtime, first := false }
      some { s with
        tables := tables, heartbeats := s.heartbeats.set index retry, clock := now }
    | .error _ => some { s with heartbeats := s.heartbeats.eraseIdx index, clock := now }

/-- One step of the guard of the account `accountId`. -/
def guardStep (env : PropRiskEnv) (accountId : String) (s : GuardSystem) (action : GuardAction) :
    Option GuardSystem :=
  if action.time ≤ s.clock then none
  else
    match action with
    | .save now ownsAccount request =>
      match updatePropRiskGuard env now ownsAccount request s.tables with
      | .ok tables => some { s with tables := tables, clock := now }
      | .error _ => none
    | .editCatalog now catalog =>
      some { s with tables := { s.tables with catalog := catalog }, clock := now }
    | .beginHeartbeat now sample =>
      match loadPropRiskRuntime env now sample.balance s.tables with
      | .ok (some runtime, tables) =>
        some { s with
          tables := tables, heartbeats := s.heartbeats ++ [⟨sample, runtime, true⟩], clock := now }
      | .ok (none, tables) => some { s with tables := tables, clock := now }
      | .error _ => none
    | .finishHeartbeat now index => finishHeartbeat env now index s
    | .snapshot now positions pendingOrders complete visible =>
      some { s with
        portfolio := s.portfolio.persist accountId positions pendingOrders complete
        portfolioVersion := s.portfolioVersion + 1
        invisible := s.invisible.filter fun order => !visible.contains order.commandId
        clock := now }
    | .reportInstruments now instruments =>
      some { s with
        instruments := instruments, portfolioVersion := s.portfolioVersion + 1, clock := now }
    | .admitOrder now nowMs context order queued =>
      if context.account.id = accountId then takeOrder env now nowMs context order queued s
      else none

/-- An account nobody has assigned settings to yet. -/
def GuardSystem.initial : GuardSystem :=
  ⟨⟨[], none, [], []⟩, ⟨[], []⟩, [], 0, [], [], 0⟩

/-! ## Reconciling the initial balance -/

section Reconcile

variable {profile : PropRiskProfileTemplate} {requestedBalance resolved : Decimal} {catalog : List PropRiskProfileTemplate}
  {assignment : AssignmentRow} {env : PropRiskEnv} {tables tables' : PropRiskTables}

/-- The stored initial balance is the one its profile resolves it to. -/
def Reconciled (tables : PropRiskTables) : Prop :=
  ∀ assignment, tables.assignment.filter (·.enabled) = some assignment →
    resolvedInitialBalance tables.catalog assignment = .ok assignment.initialBalance

/-- The initial balance a read writes, where it writes another one. -/
def rewritten (before : PropRiskTables) (_ : Nat × Decimal) (after : PropRiskTables) : List (Option AssignmentRow) :=
  if after.assignment = before.assignment then [] else [after.assignment]

end Reconcile

end MarketLens.PropRisk
