import MarketLens.PropRisk.Agreement

/-!
# What the risk budgets cover

The pre-trade check measures one order against the stored portfolio. Whatever it
passes fits, with the committed risk of that portfolio, into the total-open-risk
budget and into what the loss limits leave above the emergency buffer: a cap rounds
the quantity down, never up. Orders admitted earlier that no snapshot shows yet are
not in the stored portfolio, and so not in the sum.
-/

namespace MarketLens.PropRisk

open Fallible Store Runs List Option

/-! ## One order -/

variable {context : RouteTargetContext} {order order' : RoutedOrder}

theorem capQuantity_passed {safe perQuantity : Decimal} (hpos : 0 < perQuantity)
    (h : capQuantity context safe perQuantity order = .passed order') :
    orderRiskPerQuantity context order' = orderRiskPerQuantity context order ∧ perQuantity * order'.quantity ≤ safe := by
  unfold capQuantity at h
  split at h
  · dsimp only at h
    split at h
    · cases h
    cases h
    refine ⟨rfl, ?_⟩
    calc perQuantity * floorToStep (safe / perQuantity) context.instrument.quantityStep
        ≤ perQuantity * (safe / perQuantity) :=
          mul_le_mul_of_nonneg_left floorToStep_le hpos.le
      _ = safe := mul_div_cancel₀ safe hpos.ne'
  · rename_i hfits
    cases h
    exact ⟨rfl, not_lt.mp hfits⟩

/-- The order's risk, with what is committed, fits every budget. -/
structure Within (budgets : Budgets) (risk : Decimal) : Prop where
  perTrade : risk ≤ budgets.perTrade
  openRisk : budgets.committed + risk ≤ budgets.openRisk
  dailyLoss : budgets.committed + risk ≤ budgets.dailyLoss
  maxLoss : budgets.committed + risk ≤ budgets.maxLoss

theorem within_of_safe {nowMs : Nat} {runtime : PropRiskRuntimeConfig} {committed risk : Decimal}
    (h : risk ≤ safeRisk runtime (pretradeEvaluation nowMs context runtime) committed) :
    Within (budgetsAt nowMs context runtime committed) risk := by
  obtain ⟨htrd, h⟩ := le_min_iff.mp h
  obtain ⟨hopen, h⟩ := le_min_iff.mp h
  obtain ⟨hdaily, hmax⟩ := le_min_iff.mp h
  refine ⟨htrd, ?_, ?_, ?_⟩
  · show committed + risk ≤ maxOpenRisk runtime
    linarith
  · show committed + risk ≤ (pretradeEvaluation nowMs context runtime).dailyLossRemaining - emergencyBuffer runtime
    linarith
  · show committed + risk ≤ (pretradeEvaluation nowMs context runtime).maxLossRemaining - emergencyBuffer runtime
    linarith

theorem checkOrder_cap {nowMs : Nat} {runtime : PropRiskRuntimeConfig} {committed : Decimal}
    (h : checkOrder nowMs context order (some committed) runtime = .passed order') :
    0 < (orderRiskPerQuantity context order).getD 0 ∧
      capQuantity context (safeRisk runtime (pretradeEvaluation nowMs context runtime) committed)
        ((orderRiskPerQuantity context order).getD 0) order = .passed order' := by
  unfold checkOrder checkBudgets at h
  dsimp only at h
  split at h
  · cases h
  split at h
  · cases h
  split at h
  · cases h
  split at h
  · cases h
  split at h
  · cases h
  rename_i hbudget
  simp only [Bool.or_eq_true, decide_eq_true_eq, not_or, not_le] at hbudget
  exact ⟨hbudget.2, h⟩

/-- **A measured order that passes fits the budgets.** -/
theorem checkOrder_within {nowMs : Nat} {runtime : PropRiskRuntimeConfig} {committed : Decimal}
    (h : checkOrder nowMs context order (some committed) runtime = .passed order') :
    Within (budgetsAt nowMs context runtime committed) ((orderRiskPerQuantity context order').getD 0 * order'.quantity) := by
  obtain ⟨hpos, hcap⟩ := checkOrder_cap h
  obtain ⟨hsame, hfits⟩ := capQuantity_passed hpos hcap
  rw [hsame]
  exact within_of_safe hfits

/-- A cap only takes quantity away, and leaves one the venue trades. -/
theorem capQuantity_quantity {safe perQuantity : Decimal} (hpos : 0 < perQuantity)
    (h : capQuantity context safe perQuantity order = .passed order') :
    order'.quantity ≤ order.quantity ∧ (order'.quantity = order.quantity ∨ context.instrument.minQuantity ≤ order'.quantity ∧
      (0 < context.instrument.quantityStep → ∃ steps : ℤ, order'.quantity = steps * context.instrument.quantityStep)) := by
  unfold capQuantity at h
  split at h
  next hrisk =>
    dsimp only at h
    split at h
    next => cases h
    next hmin =>
      cases h
      have hle : safe / perQuantity ≤ order.quantity := (div_le_iff₀' hpos).mpr hrisk.le
      exact ⟨floorToStep_le.trans hle, .inr ⟨not_lt.mp hmin, floorToStep_steps⟩⟩
  next =>
    cases h
    exact ⟨le_rfl, .inl rfl⟩

/-- **What the check admits, whole or capped, has a risk at its stop that keeps every budget.** -/
theorem checkOrder_admits {nowMs : Nat} {runtime : PropRiskRuntimeConfig} {committed : Decimal}
    (h : checkOrder nowMs context order (some committed) runtime = .passed order') :
    order'.quantity ≤ order.quantity ∧ (order'.quantity = order.quantity ∨ context.instrument.minQuantity ≤ order'.quantity ∧
        (0 < context.instrument.quantityStep → ∃ steps : ℤ, order'.quantity = steps * context.instrument.quantityStep)) ∧
      ∃ perQuantity, orderRiskPerQuantity context order' = some perQuantity ∧
        let evaluation := pretradeEvaluation nowMs context runtime
        let risk := perQuantity * order'.quantity
        risk ≤ maxPerTrade runtime ∧ risk ≤ maxOpenRisk runtime - committed ∧
          risk ≤ evaluation.dailyLossRemaining - emergencyBuffer runtime - committed ∧
          risk ≤ evaluation.maxLossRemaining - emergencyBuffer runtime - committed := by
  obtain ⟨hpos, hcap⟩ := checkOrder_cap h
  obtain ⟨hsame, hfits⟩ := capQuantity_passed hpos hcap
  obtain ⟨hle, hgrid⟩ := capQuantity_quantity hpos hcap
  refine ⟨hle, hgrid, (orderRiskPerQuantity context order).getD 0, ?_, ?_⟩
  · rw [hsame]
    cases hper : orderRiskPerQuantity context order with
    | none => simp [hper] at hpos
    | some => rfl
  · obtain ⟨htrd, hfits⟩ := le_min_iff.mp hfits
    obtain ⟨hopen, hfits⟩ := le_min_iff.mp hfits
    obtain ⟨hdaily, hmax⟩ := le_min_iff.mp hfits
    exact ⟨htrd, hopen, hdaily, hmax⟩

/-- Forty lots at a risk of a hundred each are cut to the three thousand a trade may risk. -/
theorem forty_lots_capped :
    ∃ order', checkOrder 0 demoContext { demoOrder "o1" with quantity := 40 } (some 0)
      ⟨100000, demoRules, demoActions, 0, 100000, 100000, none, 0, 0, 0, none, true⟩ = .passed order' ∧ order'.quantity ≤ 40 := by
  have hpass : checkOrder 0 demoContext { demoOrder "o1" with quantity := 40 } (some 0)
      ⟨100000, demoRules, demoActions, 0, 100000, 100000, none, 0, 0, 0, none, true⟩
      = .passed { demoOrder "o1" with quantity := 30, warnings := [.quantityCappedByPropRisk] } := by decide +kernel
  exact ⟨_, hpass, (checkOrder_admits hpass).1⟩

/-! ## Every run -/

section
variable (accountId : String) (s : GuardSystem)

/-- The risk of the stored portfolio, with every admitted order it does not show. -/
def exposure : Option Decimal :=
  (committedRiskAtStops accountId s.portfolio s.instruments).map
    (· + (s.invisible.map (·.risk)).sum)

/-- An order that was measured fits its budgets; until the portfolio changes, those were taken from
the portfolio as it is. -/
def Measured (taken : Admitted) : Prop :=
  taken.portfolioVersion ≤ s.portfolioVersion ∧
    ∀ budgets, taken.budgets = some budgets → Within budgets taken.risk ∧
      (taken.portfolioVersion = s.portfolioVersion →
        committedRiskAtStops accountId s.portfolio s.instruments = some budgets.committed)

/-- Every admitted order that is not visible yet was measured. -/
def AllMeasured : Prop :=
  ∀ taken ∈ s.invisible, Measured accountId s taken

end

variable {env : PropRiskEnv} {accountId : String} {s s' : GuardSystem} {taken : Admitted}

theorem Measured.later (h : Measured accountId s taken)
    (hver : s'.portfolioVersion = s.portfolioVersion ∧ s'.portfolio = s.portfolio ∧
        s'.instruments = s.instruments ∨ s.portfolioVersion < s'.portfolioVersion) :
    Measured accountId s' taken := by
  obtain ⟨hle, hbud⟩ := h
  rcases hver with ⟨hsame, hportfolio, hinstruments⟩ | hlat
  · rw [Measured, hsame, hportfolio, hinstruments]
    exact ⟨hle, hbud⟩
  · refine ⟨by omega, fun budgets hmea => ⟨(hbud budgets hmea).1, fun hsame => ?_⟩⟩
    omega

theorem admittedOrder_measured {now nowMs : Nat} {runtime : Option PropRiskRuntimeConfig} {read tables' : PropRiskTables}
    (hload : loadPropRiskRuntime env now (context.account.balance.getD 0) s.tables = .ok (runtime, read))
    (happly : applyPropRiskPretrade env now nowMs context order s.portfolio s.instruments s.tables
      = .ok (.passed order', tables')) :
    Measured context.account.id s (admittedOrder nowMs context order' runtime
      (committedRiskAtStops context.account.id s.portfolio s.instruments) s.portfolioVersion) := by
  obtain ⟨runtime', hload', hcheck⟩ := applyPropRiskPretrade_ok happly
  cases hload.symm.trans hload'
  refine ⟨le_refl _, fun budgets hbud => ?_⟩
  cases runtime with
  | none => cases hbud
  | some =>
    cases hcommitted : committedRiskAtStops context.account.id s.portfolio s.instruments with
    | none =>
      rw [hcommitted] at hbud
      cases hbud
    | some =>
      rw [hcommitted] at hbud hcheck
      cases hbud
      exact ⟨checkOrder_within hcheck.symm, fun _ => rfl⟩

theorem allMeasured_step {action : GuardAction} (hinv : AllMeasured accountId s)
    (h : guardStep env accountId s action = some s') : AllMeasured accountId s' := by
  have hsame : ∀ t : GuardSystem, t.portfolioVersion = s.portfolioVersion →
      t.portfolio = s.portfolio → t.instruments = s.instruments →
      ∀ taken ∈ s.invisible, Measured accountId t taken := fun t hver hportfolio hinstruments
        taken htak => (hinv taken htak).later (.inl ⟨hver, hportfolio, hinstruments⟩)
  unfold guardStep at h
  split at h
  · cases h
  cases action with
  | save =>
    dsimp only at h
    split at h
    · cases h
      exact hsame _ rfl rfl rfl
    · cases h
  | editCatalog =>
    cases h
    exact hsame _ rfl rfl rfl
  | beginHeartbeat =>
    dsimp only at h
    split at h
    · cases h
      exact hsame _ rfl rfl rfl
    · cases h
      exact hsame _ rfl rfl rfl
    · cases h
  | finishHeartbeat =>
    dsimp only [finishHeartbeat] at h
    split at h
    · cases h
    split at h
    · cases h
      exact hsame _ rfl rfl rfl
    · cases h
      exact hsame _ rfl rfl rfl
    · cases h
      exact hsame _ rfl rfl rfl
  | snapshot =>
    cases h
    intro taken htak
    exact (hinv taken (mem_filter.mp htak).1).later (.inr (Nat.lt_succ_self _))
  | reportInstruments =>
    cases h
    intro taken htak
    exact (hinv taken htak).later (.inr (Nat.lt_succ_self _))
  | admitOrder now nowMs context order queued =>
    dsimp only at h
    split at h
    · rename_i hacct
      unfold takeOrder at h
      split at h
      · rename_i hload happly
        split at h
        · cases h
          exact hsame _ rfl rfl rfl
        · cases h
          cases queued with
          | false => exact hsame _ rfl rfl rfl
          | true =>
            intro taken htak
            rcases mem_append.mp htak with hold | hnew
            · exact hsame _ rfl rfl rfl taken hold
            · rw [mem_singleton.mp hnew, ← hacct]
              have hmea := admittedOrder_measured hload happly
              exact hmea.later (.inl ⟨rfl, rfl, rfl⟩)
      · cases h
    · cases h

theorem allMeasured_reachable (h : Reaches (guardStep env accountId) always GuardSystem.initial s) : AllMeasured accountId s :=
  h.invariant (AllMeasured accountId) (fun _ h => absurd h not_mem_nil)
    fun _ _ _ hinv _ hstep => allMeasured_step hinv hstep

/-- **Each admitted order fits the budgets with the portfolio it met.** While that portfolio is
still the stored one, it fits with the stored portfolio; and when no other order is invisible, the
whole exposure fits. -/
theorem admitted_order_within_budgets (h : Reaches (guardStep env accountId) always GuardSystem.initial s) :
    ∀ taken ∈ s.invisible, ∀ budgets, taken.budgets = some budgets → Within budgets taken.risk ∧
      (taken.portfolioVersion = s.portfolioVersion →
        committedRiskAtStops accountId s.portfolio s.instruments = some budgets.committed ∧
        (s.invisible = [taken] → ∃ total, exposure accountId s = some total ∧
          total ≤ budgets.openRisk ∧ total ≤ budgets.dailyLoss ∧ total ≤ budgets.maxLoss)) := by
  intro taken htak budgets hbud
  obtain ⟨hwthn, hcurr⟩ := (allMeasured_reachable h taken htak).2 budgets hbud
  refine ⟨hwthn, fun hver => ⟨hcurr hver, fun halo => ?_⟩⟩
  refine ⟨budgets.committed + taken.risk, ?_, hwthn.openRisk, hwthn.dailyLoss, hwthn.maxLoss⟩
  rw [exposure, hcurr hver, halo]
  simp

/-! An account with a budget of 3 000 for all open risk, and orders that each take all of it. -/

def fullOrder (commandId : String) : RoutedOrder := { demoOrder commandId with quantity := 30 }

/-- The settings are saved, the first heartbeat arrives, and two orders are admitted. -/
def twoFullOrders : List GuardAction :=
  [.editCatalog 1 [demoProfile], .save 2 true demoSettings,
    .beginHeartbeat 3 ⟨100000, 100000, false, false⟩, .finishHeartbeat 4 0,
    .admitOrder 5 0 demoContext (fullOrder "o1") true,
    .admitOrder 6 0 demoContext (fullOrder "o2") true]

theorem first_full_order_fits :
    ∃ s taken budgets, Reaches (guardStep demoEnv "mt5-a") always GuardSystem.initial s ∧
      s.invisible = [taken] ∧ Within budgets taken.risk ∧
      ∃ total, exposure "mt5-a" s = some total ∧ total ≤ budgets.openRisk := by
  have hrun : ((exec (guardStep demoEnv "mt5-a") (fun _ _ => true) GuardSystem.initial
      (twoFullOrders.take 5)).map fun s => s.invisible.length = 1 && s.invisible.all fun taken => taken.budgets.isSome
          && taken.portfolioVersion = s.portfolioVersion) = some true := by decide +kernel
  obtain ⟨s, hrch, htest⟩ := reached_of_map hrun
  rw [Bool.and_eq_true, decide_eq_true_eq, length_eq_one_iff] at htest
  obtain ⟨⟨taken, halo⟩, hall⟩ := htest
  have htak : taken ∈ s.invisible := halo ▸ mem_singleton_self taken
  have htest := all_eq_true.mp hall taken htak
  rw [Bool.and_eq_true, decide_eq_true_eq, isSome_iff_exists] at htest
  obtain ⟨⟨budgets, hbud⟩, hver⟩ := htest
  obtain ⟨hwthn, hcurr⟩ := admitted_order_within_budgets hrch taken htak budgets hbud
  obtain ⟨total, htotal, hopen, _⟩ := (hcurr hver).2 halo
  exact ⟨s, taken, budgets, hrch, halo, hwthn, total, htotal, hopen⟩

def thirdFullOrder : GuardAction := .admitOrder 7 0 demoContext (fullOrder "o3") true

/-- The order admitted last had less left in its budget than was exposed. -/
def exceedsOpenRisk (s s' : GuardSystem) : Bool :=
  s'.invisible.getLast?.any fun taken => s'.invisible = s.invisible ++ [taken] &&
    (exposure "mt5-a" s).any fun total => taken.budgets.any fun budgets => total > budgets.openRisk

/-- With two such orders under way, a third one is still admitted, against an exposure that is
already twice the budget. -/
theorem invisible_orders_exceed_open_risk :
    ¬ ∀ s action s', Reaches (guardStep demoEnv "mt5-a") always GuardSystem.initial s →
      guardStep demoEnv "mt5-a" s action = some s' →
      ∀ taken budgets, s'.invisible = s.invisible ++ [taken] → taken.budgets = some budgets →
        ∀ total, exposure "mt5-a" s = some total → total ≤ budgets.openRisk := by
  intro h
  have hrun :
      ((exec (guardStep demoEnv "mt5-a") (fun _ _ => true) GuardSystem.initial twoFullOrders).bind fun s =>
        (guardStep demoEnv "mt5-a" s thirdFullOrder).map (exceedsOpenRisk s)) = some true := by
    decide +kernel
  obtain ⟨s, hexec, hthi⟩ := bind_eq_some_iff.mp hrun
  obtain ⟨s', hstep, htest⟩ := map_eq_some_iff.mp hthi
  have hrch := reaches_exec hexec
  obtain ⟨taken, -, htest⟩ := (any_eq_true _ _).mp htest
  rw [Bool.and_eq_true, decide_eq_true_eq] at htest
  obtain ⟨hinvisible, htest⟩ := htest
  obtain ⟨total, htotal, htest⟩ := (any_eq_true _ _).mp htest
  obtain ⟨budgets, hbud, hexceeds⟩ := (any_eq_true _ _).mp htest
  exact absurd (h s thirdFullOrder s' hrch hstep taken budgets hinvisible hbud total htotal)
    (not_le.mpr (of_decide_eq_true hexceeds))

end MarketLens.PropRisk
