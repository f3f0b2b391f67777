import MarketLens.PropRisk.GuardWrites

/-!
# The heartbeat guard and the pre-trade check agree

Both read a lock of the day through the same test: the row is locked, and was
evaluated after the settings were last saved. The invariant is that every locked
row of a day that can still be current passes the test. Heartbeats keep it, because
what they write is dated now, and so does everything else that leaves the settings
alone. A settings save is the exception: it moves the date the rows are compared
with, and the rows stay where they are. A run that saves no blocking settings over
a lock still in force keeps the invariant, and with it the agreement.
-/

namespace MarketLens.PropRisk

open Fallible Store Runs Option GuardSystem

variable {env : PropRiskEnv} {now : Nat} {tables tables' : PropRiskTables}

/-! ## The invariant -/

/-- The settings keep new orders out while a lock is in force. -/
def blocking (assignment : AssignmentRow) : Bool :=
  assignment.enabled && assignment.actions.blockNewOrders

/-- The trading day of the row is over, in the time zone of the settings. -/
def Outdated (env : PropRiskEnv) (assignment : AssignmentRow) (since : Nat)
    (row : DailyStateRow) : Prop :=
  ∀ time, since ≤ time → env.tradingDay assignment.timezone time ≠ row.tradingDay

/-- A lock that can still be current was evaluated after the settings were saved. -/
structure LocksFresh (env : PropRiskEnv) (s : GuardSystem) : Prop where
  saved : ∀ assignment, s.tables.assignment = some assignment → assignment.updatedAt ≤ s.clock
  fresh : ∀ assignment, s.tables.assignment = some assignment → blocking assignment = true →
    ∀ row ∈ s.tables.days, row.locked = true →
      stateFresh assignment row = true ∨ Outdated env assignment s.clock row

variable {s s' : GuardSystem}

theorem LocksFresh.writes (hinv : LocksFresh env s) (hnow : s.clock < now)
    (h : GuardWrites now s.tables tables') (htables : s'.tables = tables')
    (hclock : s'.clock = now) : LocksFresh env s' := by
  have hsame : ∀ assignment', s'.tables.assignment = some assignment' →
      ∃ assignment, s.tables.assignment = some assignment ∧ policy assignment = policy assignment' := by
    intro assignment' hasgmt'
    have hpolicy := h.policy
    rw [← htables, hasgmt', map_some] at hpolicy
    exact map_eq_some_iff.mp hpolicy.symm
  constructor
  · intro assignment' hasgmt'
    obtain ⟨assignment, hasgmt, hpolicy⟩ := hsame assignment' hasgmt'
    have hsav := hinv.saved assignment hasgmt
    simp only [policy, Prod.mk.injEq] at hpolicy
    omega
  · intro assignment' hasgmt' hblocking row' hrow' hlkd
    obtain ⟨assignment, hasgmt, hpolicy⟩ := hsame assignment' hasgmt'
    have hsav := hinv.saved assignment hasgmt
    simp only [policy, Prod.mk.injEq] at hpolicy
    obtain ⟨henab, hzone, hactions, hupdated⟩ := hpolicy
    rw [htables] at hrow'
    rcases h.locked row' hrow' hlkd with hdate | ⟨row, hrow, hrowLocked, hday, hdate⟩
    · left
      rw [stateFresh, hdate]
      simp only [gt_iff_lt, decide_eq_true_eq]
      omega
    · have hblocking' : blocking assignment = true := by
        rw [blocking, henab, hactions]
        exact hblocking
      rcases hinv.fresh assignment hasgmt hblocking' row hrow hrowLocked with hfsh | hover
      · left
        rw [stateFresh, ← hdate, ← hupdated]
        exact hfsh
      · right
        intro time htime
        rw [← hzone, ← hday]
        exact hover time (by omega)

theorem updatePropRiskGuard_ok {ownsAccount : Bool} {request : PropRiskUpdateRequest}
    (h : updatePropRiskGuard env now ownsAccount request tables = .ok tables') :
    tables'.days = tables.days ∧ ∃ assignment, tables'.assignment = some assignment ∧ assignment.updatedAt = now := by
  obtain ⟨_, h⟩ := unit_bind_ok.mp h
  obtain ⟨_, h⟩ := unit_bind_ok.mp h
  obtain ⟨profile, _, h⟩ := bind_ok.mp h
  obtain ⟨initialBalance, _, h⟩ := bind_ok.mp h
  obtain ⟨assigned, hasg, h⟩ := bind_ok.mp h
  obtain ⟨_, h⟩ := unit_bind_ok.mp h
  obtain ⟨_, h⟩ := unit_bind_ok.mp h
  obtain ⟨_, h⟩ := unit_bind_ok.mp h
  cases h
  refine ⟨rfl, assigned, rfl, ?_⟩
  unfold requestedAssignment at hasg
  split at hasg
  · cases hasg
    rfl
  · obtain ⟨_, hasg⟩ := unit_bind_ok.mp hasg
    obtain ⟨_, hasg⟩ := unit_bind_ok.mp hasg
    cases hasg
    rfl

/-- A save leaves no blocking settings over a lock of a day that is current now or later. -/
def saveKeepsLocks (env : PropRiskEnv) (s : GuardSystem) : GuardAction → Prop
  | .save now ownsAccount request =>
    ∀ tables', updatePropRiskGuard env now ownsAccount request s.tables = .ok tables' →
      ∀ assignment, tables'.assignment = some assignment → blocking assignment = true →
        ∀ row ∈ s.tables.days, row.locked = true → Outdated env assignment now row
  | _ => True

/-- **Every step whose save keeps its hands off a lock in force keeps the invariant.** -/
theorem locksFresh_step {accountId : String} {action : GuardAction} (hinv : LocksFresh env s)
    (hok : saveKeepsLocks env s action) (h : guardStep env accountId s action = some s') :
    LocksFresh env s' := by
  unfold guardStep at h
  split at h
  · cases h
  have hnow : s.clock < action.time := by omega
  cases action with
  | save =>
    dsimp only at h
    split at h
    · rename_i tables' hsav
      cases h
      obtain ⟨hdays, assigned, hasg, hupdated⟩ := updatePropRiskGuard_ok hsav
      constructor
      · intro assignment hasgmt
        cases hasg.symm.trans hasgmt
        exact le_of_eq hupdated
      · intro assignment hasgmt hblocking row hrow hlkd
        rw [hdays] at hrow
        exact .inr (hok tables' hsav assignment hasgmt hblocking row hrow hlkd)
    · cases h
  | editCatalog now catalog =>
    cases h
    have hwrites : GuardWrites now s.tables { s.tables with catalog := catalog } :=
      ⟨rfl, (GuardWrites.refl now s.tables).locked⟩
    exact hinv.writes hnow hwrites rfl rfl
  | beginHeartbeat =>
    dsimp only at h
    split at h
    · rename_i hload
      cases h
      exact hinv.writes hnow (load_writes hload) rfl rfl
    · rename_i hload
      cases h
      exact hinv.writes hnow (load_writes hload) rfl rfl
    · cases h
  | finishHeartbeat now =>
    dsimp only [finishHeartbeat] at h
    split at h
    · cases h
    split at h
    · rename_i hatt
      cases h
      exact hinv.writes hnow (guardAttempt_writes hatt) rfl rfl
    · rename_i hatt
      cases h
      exact hinv.writes hnow (guardAttempt_writes hatt) rfl rfl
    · cases h
      exact hinv.writes hnow (.refl now s.tables) rfl rfl
  | snapshot now | reportInstruments now =>
    cases h
    exact hinv.writes hnow (.refl now s.tables) rfl rfl
  | admitOrder =>
    dsimp only at h
    split at h
    · unfold takeOrder at h
      split at h
      · rename_i happly
        obtain ⟨_, hload, _⟩ := applyPropRiskPretrade_ok happly
        have hwrites := load_writes hload
        split at h
        · cases h
          exact hinv.writes hnow hwrites rfl rfl
        · cases h
          exact hinv.writes hnow hwrites rfl rfl
      · cases h
    · cases h

theorem locksFresh_initial : LocksFresh env GuardSystem.initial where
  saved := fun _ h => absurd h (by simp [initial])
  fresh := fun _ h => absurd h (by simp [initial])

/-! ## Both readers -/

/-- The heartbeat guard, at this sample, leaves the day locked, and the settings keep new orders
out while it is. -/
def guardBlocks (env : PropRiskEnv) (now : Nat) (sample : GuardSample) (tables : PropRiskTables) :
    Prop :=
  ∃ assignment state tables', tables.assignment = some assignment ∧ blocking assignment = true ∧
    evaluateAndApplyPropRiskGuard env now sample tables = .ok (some state, tables') ∧
    state.locked = true

/-- The pre-trade check lets no order through at this balance and equity. -/
def pretradeRejects (env : PropRiskEnv) (now : Nat) (balance equity : Decimal)
    (tables : PropRiskTables) : Prop :=
  ∀ nowMs context order portfolio instruments outcome tables',
    context.account.balance.getD 0 = balance → context.account.equity.getD 0 = equity →
    applyPropRiskPretrade env now nowMs context order portfolio instruments tables
      = .ok (outcome, tables') →
    ∃ code message, outcome = .rejected code message

/-- Wherever the heartbeat guard blocks on the account's numbers, the pre-trade check rejects. -/
def GuardAgrees (env : PropRiskEnv) (s : GuardSystem) : Prop :=
  ∀ now, s.clock < now → ∀ balance equity hasOpenPositions,
    guardBlocks env now ⟨balance, equity, hasOpenPositions, false⟩ s.tables →
    pretradeRejects env now balance equity s.tables

theorem checkOrder_rejects {nowMs : Nat} {context : RouteTargetContext} {order : RoutedOrder}
    {committed : Option Decimal} {runtime : PropRiskRuntimeConfig}
    (h : (pretradeEvaluation nowMs context runtime).canOpenNewOrders = false) :
    ∃ code message, checkOrder nowMs context order committed runtime = .rejected code message := by
  unfold checkOrder
  dsimp only
  split
  · exact ⟨_, _, rfl⟩
  · rw [h]
    exact ⟨_, _, rfl⟩

/-- What locks the heartbeat's sample locks the pre-trade check at the same numbers. -/
theorem pretrade_locked {nowMs : Nat} {context : RouteTargetContext} {runtime : PropRiskRuntimeConfig} {sample : GuardSample}
    (hbal : context.account.balance.getD 0 = sample.balance)
    (hequity : context.account.equity.getD 0 = sample.equity)
    (hexposure : sample.unprotectedExposure = false)
    (hblk : runtime.actions.blockNewOrders = true)
    (hlocks : (proposedDay now runtime sample).locked = true) :
    (pretradeEvaluation nowMs context runtime).canOpenNewOrders = false := by
  refine evaluatePropRisk_blocks _ _ _ ?_ hblk
  have hverdict : (lockVerdict runtime.rules runtime.actions (evaluationInput runtime sample false)).isSome = true := by
    rw [← evaluatePropRisk_locks]
    exact hlocks
  rw [hbal, hequity]
  exact lockVerdict_mono _ _ (evaluationInput runtime sample false) ⟨rfl, rfl, rfl, rfl, rfl⟩ rfl rfl hexposure hverdict

/-- **Fresh locks make both readers agree.** A lock that is read is the pre-trade check's first
reason; a lock that is not read is one this heartbeat makes, from the same numbers. -/
theorem LocksFresh.agrees (hinv : LocksFresh env s) : GuardAgrees env s := by
  intro now hnow balance equity hasOpenPositions hblocks nowMs context order portfolio instruments
    outcome tables' hbal hequity happly
  obtain ⟨settings, state, written, hsett, hblocking, hheartbeat, hlkd⟩ := hblocks
  obtain ⟨runtime, read, assignment, repaired, hload, hread, rfl⟩ := heartbeat_settles hheartbeat
  cases hsett.symm.trans hread.assigned
  have hblk : runtime.actions.blockNewOrders = true := by
    rw [blocking, Bool.and_eq_true] at hblocking
    rw [hread.actions]
    exact hblocking.2
  obtain ⟨runtime', hload', rfl⟩ := applyPropRiskPretrade_ok happly
  rw [hbal] at hload'
  cases hload.symm.trans hload'
  refine checkOrder_rejects ?_
  cases hprv : runtime.previouslyLockedReason with
  | some =>
    refine evaluatePropRisk_blocks _ _ _ ?_ hblk
    simp only [lockVerdict, evaluationInput, hprv, isSome_some]
  | none =>
    suffices hproposed : (proposedDay now runtime ⟨balance, equity, hasOpenPositions, false⟩).locked = true from
      pretrade_locked hbal hequity rfl hblk hproposed
    -- no lock was in force, so the row is locked because the heartbeat's own verdict locks
    have hunlocked : ∀ stored, tables'.dayState runtime.tradingDay = some stored → stored.locked = false := by
      intro stored hstrd
      rw [hread.dayState] at hstrd
      obtain ⟨old, hold, rfl⟩ := map_eq_some_iff.mp hstrd
      cases repaired with
      | true => rfl
      | false =>
        obtain ⟨hmem, hday⟩ := dayState_mem hold
        cases holdLocked : old.locked with
        | false => exact holdLocked
        | true =>
          have hread' := hread.previous
          rw [hprv, hold, if_neg Bool.false_ne_true, bind_some, previouslyLocked, holdLocked] at hread'
          rcases hinv.fresh _ hread.assigned hblocking old hmem holdLocked with hfsh | hover
          · rw [hfsh] at hread'
            cases hread'
          · exact absurd (hday.trans hread.today).symm (hover now (by omega))
    unfold settledDay at hlkd
    split at hlkd
    · rename_i stored hstrd
      unfold mergeDay at hlkd
      rw [hunlocked stored hstrd] at hlkd
      dsimp only at hlkd
      split at hlkd
      · exact hlkd
      · rw [Bool.false_or, Bool.and_eq_true] at hlkd
        exact hlkd.2
    · exact hlkd

theorem locksFresh_reachable {accountId : String}
    (h : Reaches (guardStep env accountId) (saveKeepsLocks env) GuardSystem.initial s) :
    LocksFresh env s :=
  h.invariant (LocksFresh env) locksFresh_initial fun _ _ _ hinv hok hstep =>
    locksFresh_step hinv hok hstep

/-- **The pre-trade check rejects whatever the heartbeat guard blocks**, in every state of a run
that saves no blocking settings over a lock still in force. -/
theorem pretrade_agrees_with_guard {accountId : String}
    (h : Reaches (guardStep env accountId) (saveKeepsLocks env) GuardSystem.initial s) :
    GuardAgrees env s :=
  (locksFresh_reachable h).agrees

/-! A day is locked at 95 000 and the equity recovers to 99 000. -/

def demoEnv : PropRiskEnv := ⟨fun _ time => time / 86400000, fun _ => true, id⟩

def demoRules : PropRiskRules :=
  ⟨500, 1000, .startOfDayBalance, .static, 300, 300, true, 100, 50, none, none, none, none⟩

def demoActions : PropRiskActions := ⟨true, true, true, false, true⟩

def demoProfile : PropRiskProfileTemplate :=
  ⟨"custom_prop_firm", 1, "custom", "custom", "Custom prop firm", "UTC", false, .manual, [],
    demoRules, demoActions, true⟩

def demoSettings : PropRiskUpdateRequest :=
  ⟨"mt5-a", true, "custom_prop_firm", 100000, "UTC", demoRules, demoActions, none, none, none⟩

/-- The settings are saved, and the second heartbeat finds the daily limit breached. -/
def lockedDay : List GuardAction :=
  [.editCatalog 1 [demoProfile], .save 2 true demoSettings,
    .beginHeartbeat 3 ⟨100000, 100000, false, false⟩, .finishHeartbeat 4 0,
    .beginHeartbeat 5 ⟨100000, 95000, true, false⟩, .finishHeartbeat 6 0]

def demoInstrument : InstrumentSpec :=
  ⟨"EURUSD", "EURUSD", .lots, 1 / 100, 1 / 100, 100, 1 / 100000, some 1, none, true⟩

/-- The account at a balance of 100 000 and an equity of 99 000. -/
def demoContext : RouteTargetContext :=
  ⟨⟨"mt5-a", .metaTrader5, "broker", .ready, some 100000, some 99000, true, 0⟩, demoInstrument,
    ⟨100, none, true, [], []⟩, ⟨"mt5-a", true, .sameQuantity, none⟩, some (11 / 10)⟩

/-- A market order for one lot with a stop of a hundred points. -/
def demoOrder (commandId : String) : RoutedOrder :=
  ⟨commandId, commandId, commandId, "mt5-a", "broker", .metaTrader5, "EURUSD", "EURUSD", .buy,
    .market, 1, .lots, none, none, some (1099 / 1000), none, none, []⟩

/-- The heartbeat guard blocks at this equity, as a test. -/
def guardLocks (now : Nat) (equity : Decimal) (s : GuardSystem) : Bool :=
  match evaluateAndApplyPropRiskGuard demoEnv now ⟨100000, equity, false, false⟩ s.tables with
  | .ok (some state, _) => state.locked && s.tables.assignment.any blocking
  | _ => false

/-- The pre-trade check passes the order at an equity of 99 000, as a test. -/
def pretradePasses (now : Nat) (s : GuardSystem) : Bool :=
  match applyPropRiskPretrade demoEnv now 0 demoContext (demoOrder "o1") ⟨[], []⟩ [] s.tables with
  | .ok (.passed _, _) => true
  | _ => false

theorem guardBlocks_of_test {equity : Decimal} (h : guardLocks now equity s = true) :
    guardBlocks demoEnv now ⟨100000, equity, false, false⟩ s.tables := by
  unfold guardLocks at h
  split at h
  · rename_i state written hheartbeat
    rw [Bool.and_eq_true, any_eq_true] at h
    obtain ⟨hlkd, assignment, hasgmt, hblocking⟩ := h
    exact ⟨assignment, state, written, hasgmt, hblocking, hheartbeat, hlkd⟩
  · exact absurd h Bool.false_ne_true

theorem not_rejects_of_test (h : pretradePasses now s = true) : ¬ pretradeRejects demoEnv now 100000 99000 s.tables := by
  intro hrejects
  unfold pretradePasses at h
  split at h
  · rename_i order written hpass
    obtain ⟨_, _, hrej⟩ := hrejects 0 demoContext _ _ _ _ _ rfl rfl hpass
    cases hrej
  · exact absurd h Bool.false_ne_true

/-- After the lock alone, no order passes at the recovered equity. -/
theorem locked_day_rejects :
    ∃ s, Reaches (guardStep demoEnv "mt5-a") (saveKeepsLocks demoEnv) GuardSystem.initial s ∧
      guardBlocks demoEnv 8 ⟨100000, 99000, false, false⟩ s.tables ∧
      pretradeRejects demoEnv 8 100000 99000 s.tables := by
  -- the only save of the run meets no row at all
  let allowed : GuardSystem → GuardAction → Bool := fun s _ => !s.tables.days.any (·.locked)
  have hallw : ∀ s action, allowed s action = true → saveKeepsLocks demoEnv s action := by
    intro s action h
    cases action with
    | save =>
      intro _ _ _ _ _ row hrow hlkd
      have hnone : s.tables.days.any (·.locked) = false := by simpa [allowed] using h
      exact absurd hlkd (by simpa using List.any_eq_false.mp hnone row hrow)
    | _ => trivial
  have hrun : ((exec (guardStep demoEnv "mt5-a") allowed initial lockedDay).map
      fun s => decide (s.clock < 8) && guardLocks 8 99000 s) = some true := by decide +kernel
  obtain ⟨s, hexec, htest⟩ := map_eq_some_iff.mp hrun
  rw [Bool.and_eq_true, decide_eq_true_eq] at htest
  have hrch := reaches_of_exec hallw hexec
  have hblocks := guardBlocks_of_test htest.2
  exact ⟨s, hrch, hblocks, pretrade_agrees_with_guard hrch 8 htest.1 _ _ _ hblocks⟩

/-- Saving the same settings again opens the account, while the guard keeps the day locked. -/
theorem resaved_settings_open_locked_day :
    ¬ ∀ s, Reaches (guardStep demoEnv "mt5-a") always GuardSystem.initial s → GuardAgrees demoEnv s := by
  intro h
  have hrun : ((exec (guardStep demoEnv "mt5-a") (fun _ _ => true) initial
      (lockedDay ++ [.save 7 true demoSettings])).map fun s => decide (s.clock < 8)
        && guardLocks 8 99000 s && pretradePasses 8 s) = some true := by decide +kernel
  obtain ⟨s, hrch, htest⟩ := reached_of_map hrun
  rw [Bool.and_eq_true, Bool.and_eq_true, decide_eq_true_eq] at htest
  exact not_rejects_of_test htest.2 (h s hrch 8 htest.1.1 _ _ _ (guardBlocks_of_test htest.1.2))

end MarketLens.PropRisk
