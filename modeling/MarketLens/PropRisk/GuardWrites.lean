import MarketLens.PropRisk.Runs

/-!
# What the guard's statements write

A heartbeat and the pre-trade check read the settings, which may lift a false lock;
a heartbeat then writes the day's row. Neither changes the columns of the settings
that a lock depends on, and a row that is locked afterwards either was locked
before, at the time it still carries, or is dated now.
-/

namespace MarketLens.PropRisk

open Fallible Store Runs List Option Bool

variable {env : PropRiskEnv} {now : Nat} {tables tables' tables'' : PropRiskTables}

/-! ## The row of a day -/

theorem mergeDay_tradingDay (proposed stored : DailyStateRow) (h : stored.tradingDay = proposed.tradingDay) :
    (mergeDay proposed stored).tradingDay = stored.tradingDay := by
  unfold mergeDay
  dsimp only
  split
  · exact h.symm
  · rfl

theorem dayState_upsertDay (proposed : DailyStateRow) (tables : PropRiskTables) :
    PropRiskTables.dayState { tables with days := upsertDay proposed tables.days } proposed.tradingDay =
      some (match tables.dayState proposed.tradingDay with
        | some stored => mergeDay proposed stored
        | none => proposed) := by
  unfold PropRiskTables.dayState upsertDay
  dsimp only
  split
  · rename_i hany
    rw [Table.find?_updateWhere fun row hrow => by
      rw [decide_eq_true_eq] at hrow ⊢
      exact (mergeDay_tradingDay proposed row hrow).trans hrow]
    obtain ⟨row, hrow⟩ := isSome_iff_exists.mp (find?_isSome.mpr (by simpa using hany) :
      (tables.days.find? (·.tradingDay = proposed.tradingDay)).isSome = true)
    rw [hrow]
    rfl
  · rename_i hnone
    have hfind : tables.days.find? (·.tradingDay = proposed.tradingDay) = none := by
      rw [find?_eq_none]
      intro row hrow hday
      exact hnone (any_eq_true.mpr ⟨row, hrow, hday⟩)
    rw [find?_append, hfind]
    simp

/-! ## What a statement does to the tables -/

/-- The columns of the settings that a lock depends on. -/
def policy (assignment : AssignmentRow) : Bool × String × PropRiskActions × Nat :=
  (assignment.enabled, assignment.timezone, assignment.actions, assignment.updatedAt)

/-- A statement of the guard at `now`: the settings stay, and a row that is locked afterwards was
locked before, at the time it still carries, or is dated `now`. -/
structure GuardWrites (now : Nat) (tables tables' : PropRiskTables) : Prop where
  policy : tables'.assignment.map policy = tables.assignment.map policy
  locked : ∀ row' ∈ tables'.days, row'.locked = true → row'.evaluatedAt = now ∨
    ∃ row ∈ tables.days, row.locked = true ∧ row.tradingDay = row'.tradingDay ∧
      row.evaluatedAt = row'.evaluatedAt

theorem GuardWrites.refl (now : Nat) (tables : PropRiskTables) : GuardWrites now tables tables where
  policy := rfl
  locked := fun row hrow hlkd => .inr ⟨row, hrow, hlkd, rfl, rfl⟩

theorem GuardWrites.trans (h : GuardWrites now tables tables')
    (h' : GuardWrites now tables' tables'') : GuardWrites now tables tables'' where
  policy := h'.policy.trans h.policy
  locked := by
    intro row'' hrow'' hlkd
    rcases h'.locked row'' hrow'' hlkd with hnow | ⟨row', hrow', hlkd', hday', hdate'⟩
    · exact .inl hnow
    · rcases h.locked row' hrow' hlkd' with hnow | ⟨row, hrow, hlkd, hday, hdate⟩
      · exact .inl (hdate'.symm.trans hnow)
      · exact .inr ⟨row, hrow, hlkd, hday.trans hday', hdate.trans hdate'⟩

/-! ## Reading the settings -/

/-- What `load_prop_risk_runtime` reads, when there are enabled settings. -/
structure SettingsRead (env : PropRiskEnv) (now : Nat) (balance : Decimal)
    (tables : PropRiskTables) (runtime : PropRiskRuntimeConfig) (read : PropRiskTables)
    (assignment : AssignmentRow) (repaired : Bool) : Prop where
  assigned : tables.assignment = some assignment
  enabled : assignment.enabled = true
  actions : runtime.actions = assignment.actions
  today : runtime.tradingDay = env.tradingDay assignment.timezone now
  baseline : runtime.dayStartBalance = resolvePropRiskDayStartBalance
    ((tables.dayState runtime.tradingDay).map (·.dayStartBalance)) balance
  previous : runtime.previouslyLockedReason = if repaired then none
    else (tables.dayState runtime.tradingDay).bind (previouslyLocked assignment)
  policy : read.assignment.map policy = some (policy assignment)
  days : read.days = if repaired then
      Table.updateWhere (·.tradingDay = runtime.tradingDay) (repairDay assignment) tables.days
    else tables.days

variable {balance : Decimal} {runtime : PropRiskRuntimeConfig} {read : PropRiskTables}

theorem loadPropRiskRuntime_some (h : loadPropRiskRuntime env now balance tables = .ok (some runtime, read)) :
    ∃ assignment repaired, SettingsRead env now balance tables runtime read assignment repaired := by
  unfold loadPropRiskRuntime at h
  split at h
  · cases h
  rename_i assignment hasgmt
  obtain ⟨initialBalance, _, h⟩ := bind_ok.mp h
  cases h
  rw [filter_eq_some_iff] at hasgmt
  exact ⟨assignment, _, hasgmt.1, hasgmt.2, rfl, rfl, rfl, rfl, rfl, rfl⟩

theorem loadPropRiskRuntime_none (h : loadPropRiskRuntime env now balance tables = .ok (none, read)) :
    read = tables ∧ ∀ assignment, tables.assignment = some assignment → assignment.enabled = false := by
  unfold loadPropRiskRuntime at h
  split at h
  · rename_i hnone
    cases h
    refine ⟨rfl, fun assignment hasgmt => ?_⟩
    rw [hasgmt] at hnone
    cases henab : assignment.enabled with
    | false => rfl
    | true => exact absurd hnone (by simp [henab])
  · obtain ⟨_, _, h⟩ := bind_ok.mp h
    cases h

variable {assignment : AssignmentRow} {repaired : Bool}

/-- Lifting a false lock locks nothing. -/
theorem SettingsRead.writes (h : SettingsRead env now balance tables runtime read assignment repaired) :
    GuardWrites now tables read where
  policy := by rw [h.policy, h.assigned, map_some]
  locked := by
    intro row' hrow' hlkd
    rw [h.days] at hrow'
    cases repaired with
    | false => exact .inr ⟨row', hrow', hlkd, rfl, rfl⟩
    | true =>
      rcases Table.updateWhere_cases hrow' with ⟨hold, _⟩ | ⟨old, _, _, rfl⟩
      · exact .inr ⟨row', hold, hlkd, rfl, rfl⟩
      · exact absurd hlkd false_ne_true

theorem load_writes {runtime : Option PropRiskRuntimeConfig}
    (h : loadPropRiskRuntime env now balance tables = .ok (runtime, read)) :
    GuardWrites now tables read := by
  cases runtime with
  | none =>
    rw [(loadPropRiskRuntime_none h).1]
    exact .refl now tables
  | some =>
    obtain ⟨assignment, repaired, hread⟩ := loadPropRiskRuntime_some h
    exact hread.writes

/-! ## Writing a verdict -/

theorem mergeDay_locked (proposed stored : DailyStateRow) (hlkd : (mergeDay proposed stored).locked = true) :
    (mergeDay proposed stored).evaluatedAt = proposed.evaluatedAt ∨
      (stored.locked = true ∧ (mergeDay proposed stored).evaluatedAt = stored.evaluatedAt) := by
  unfold mergeDay at hlkd ⊢
  dsimp only at hlkd ⊢
  split
  · exact .inl rfl
  rename_i hkeep
  rw [if_neg hkeep] at hlkd
  refine .inr ⟨?_, rfl⟩
  cases hstrd : stored.locked with
  | true => rfl
  | false =>
    -- an unlocked row that kept its verdict has another baseline
    simp only [hstrd, Bool.false_or, Bool.not_false, Bool.true_or, Bool.and_true, and_eq_true, decide_eq_true_eq] at hkeep hlkd
    exact absurd hlkd.1 hkeep

theorem upsertDay_writes (proposed : DailyStateRow) (hnow : proposed.evaluatedAt = now) (tables : PropRiskTables) :
    GuardWrites now tables { tables with days := upsertDay proposed tables.days } where
  policy := rfl
  locked := by
    intro row' hrow' hlkd
    unfold upsertDay at hrow'
    dsimp only at hrow'
    split at hrow'
    · rcases Table.updateWhere_cases hrow' with ⟨hold, _⟩ | ⟨old, hold, hday, rfl⟩
      · exact .inr ⟨row', hold, hlkd, rfl, rfl⟩
      · rcases mergeDay_locked proposed old hlkd with hdate | ⟨holdLocked, hdate⟩
        · exact .inl (hdate.trans hnow)
        · have hsame := mergeDay_tradingDay proposed old (by simpa using hday)
          exact .inr ⟨old, hold, holdLocked, hsame.symm, hdate.symm⟩
    · rcases mem_append.mp hrow' with hold | hadded
      · exact .inr ⟨row', hold, hlkd, rfl, rfl⟩
      · rw [mem_singleton.mp hadded]
        exact .inl hnow

variable {sample : GuardSample}

theorem guardAttempt_writes {first : Bool} {outcome : GuardAttempt}
    (h : guardAttempt env now sample first runtime tables = .ok (outcome, tables')) :
    GuardWrites now tables tables' := by
  unfold guardAttempt at h
  obtain ⟨_, h⟩ := unit_bind_ok.mp h
  dsimp only at h
  have hups := upsertDay_writes (proposedDay now runtime sample) rfl tables
  split at h
  · cases h
    exact ⟨hups.policy, hups.locked⟩
  · split at h
    · obtain ⟨⟨reloaded, read⟩, hload, h⟩ := bind_ok.mp h
      cases reloaded with
      | none => cases h
      | some =>
        cases h
        exact hups.trans (load_writes hload)
    · cases h

/-! ## An undisturbed heartbeat -/

/-- The day's row after reading the settings: the stored one, with its false lock lifted. -/
theorem SettingsRead.dayState (h : SettingsRead env now balance tables runtime read assignment repaired) :
    read.dayState runtime.tradingDay = (tables.dayState runtime.tradingDay).map fun state =>
      if repaired then repairDay assignment state else state := by
  unfold PropRiskTables.dayState
  rw [h.days]
  cases repaired with
  | false => simp
  | true =>
    have hkept : ∀ row : DailyStateRow, decide (row.tradingDay = runtime.tradingDay) = true →
        decide ((repairDay assignment row).tradingDay = runtime.tradingDay) = true := fun _ hrow => hrow
    rw [if_pos rfl, Table.find?_updateWhere hkept]
    rfl

theorem mergeDay_baseline (proposed stored : DailyStateRow) :
    (mergeDay proposed stored).dayStartBalance = stored.dayStartBalance := by
  unfold mergeDay
  dsimp only
  split
  · rename_i htake
    rw [and_eq_true, decide_eq_true_eq] at htake
    exact htake.1.symm
  · rfl

/-- The row a heartbeat leaves, when nothing came between its statements. -/
def settledDay (now : Nat) (runtime : PropRiskRuntimeConfig) (sample : GuardSample)
    (read : PropRiskTables) : DailyStateRow :=
  match read.dayState runtime.tradingDay with
  | some stored => mergeDay (proposedDay now runtime sample) stored
  | none => proposedDay now runtime sample

theorem settledDay_baseline (h : SettingsRead env now sample.balance tables runtime read assignment repaired) :
    (settledDay now runtime sample read).dayStartBalance = runtime.dayStartBalance := by
  unfold settledDay
  rw [h.dayState]
  cases hst : tables.dayState runtime.tradingDay with
  | none => rfl
  | some =>
    rw [h.baseline, hst, map_some, map_some]
    dsimp only
    rw [mergeDay_baseline]
    cases repaired with
    | false | true => rfl

theorem heartbeat_settles {state : DailyStateRow}
    (h : evaluateAndApplyPropRiskGuard env now sample tables = .ok (some state, tables')) :
    ∃ runtime read assignment repaired, loadPropRiskRuntime env now sample.balance tables = .ok (some runtime, read) ∧
      SettingsRead env now sample.balance tables runtime read assignment repaired ∧
      state = settledDay now runtime sample read := by
  unfold evaluateAndApplyPropRiskGuard at h
  obtain ⟨⟨runtime, read⟩, hload, h⟩ := bind_ok.mp h
  cases runtime with
  | none => cases h
  | some runtime =>
    obtain ⟨assignment, repaired, hread⟩ := loadPropRiskRuntime_some hload
    refine ⟨runtime, read, assignment, repaired, hload, hread, ?_⟩
    obtain ⟨⟨outcome, written⟩, hatt, h⟩ := bind_ok.mp h
    unfold guardAttempt at hatt
    obtain ⟨_, hatt⟩ := unit_bind_ok.mp hatt
    dsimp only at hatt
    have hst := dayState_upsertDay (proposedDay now runtime sample) read
    have hday : (proposedDay now runtime sample).tradingDay = runtime.tradingDay := rfl
    have hsttl : (match read.dayState (proposedDay now runtime sample).tradingDay with
        | some stored => mergeDay (proposedDay now runtime sample) stored
        | none => proposedDay now runtime sample) = settledDay now runtime sample read := rfl
    rw [hsttl, hday] at hst
    rw [hst, getD_some, if_pos (settledDay_baseline hread)] at hatt
    cases hatt
    cases h
    rfl

theorem dayState_mem {day : Nat} {state : DailyStateRow} (h : tables.dayState day = some state) :
    state ∈ tables.days ∧ state.tradingDay = day := by
  refine ⟨mem_of_find?_eq_some h, ?_⟩
  simpa using find?_some h

end MarketLens.PropRisk
