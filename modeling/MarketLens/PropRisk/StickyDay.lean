import MarketLens.PropRisk.Agreement

/-!
# The row of a trading day under upserts

Heartbeats evaluate an account on their own and upsert what they found, in any order. A
verdict is applied to the day's row if it has the row's baseline and does not lift a
lock; otherwise it leaves the row as it is. So a lock stays, the baseline stays, and
the minimum equity is the least equity that was applied.
-/

namespace MarketLens.PropRisk

open Fallible Store Runs List Bool Table

/-! ## Runs of upserts -/

/-- A heartbeat's evaluation, at the time it is written. -/
structure Upsert where
  now : Nat
  runtime : PropRiskRuntimeConfig
  sample : GuardSample

/-- The row it proposes. -/
def Upsert.row (upsert : Upsert) : DailyStateRow := proposedDay upsert.now upsert.runtime upsert.sample

def upsertStep (days : List DailyStateRow) (upsert : Upsert) : Option (List DailyStateRow) := some (upsertDay upsert.row days)

/-- The evaluation is applied to the row: it has the row's baseline, and locks if the row is locked. -/
def Upsert.AppliesTo (upsert : Upsert) (row : DailyStateRow) : Prop :=
  row.tradingDay = upsert.row.tradingDay ∧ row.dayStartBalance = upsert.row.dayStartBalance ∧
    (row.locked = true → upsert.row.locked = true)

/-- The evaluation is applied to the row of its day, or makes one. -/
def Upsert.Applied (upsert : Upsert) (days : List DailyStateRow) : Prop :=
  ∀ row ∈ days, row.tradingDay = upsert.row.tradingDay → upsert.AppliesTo row

structure Sticks (upsert : Upsert) (row row' : DailyStateRow) : Prop where
  day : row'.tradingDay = row.tradingDay
  locked : row.locked = true → row'.locked = true
  baseline : row'.dayStartBalance = row.dayStartBalance
  minEquity : row'.minEquity ≤ row.minEquity
  verdict : row.locked = true → (row'.status = row.status ∧ row'.reason = row.reason ∧ row'.evaluation = row.evaluation) ∨
    (upsert.row.locked = true ∧ row'.status = upsert.row.status ∧ row'.reason = upsert.row.reason ∧
      row'.evaluation = upsert.row.evaluation)

theorem Sticks.refl (upsert : Upsert) (row : DailyStateRow) : Sticks upsert row row :=
  ⟨rfl, fun h => h, rfl, le_refl _, fun _ => .inl ⟨rfl, rfl, rfl⟩⟩

variable {row : DailyStateRow}

theorem mergeDay_applied {upsert : Upsert} (h : upsert.AppliesTo row) :
    mergeDay upsert.row row = { upsert.row with minEquity := min row.minEquity upsert.row.minEquity } := by
  obtain ⟨-, hbaseline, hlock⟩ := h
  unfold mergeDay
  dsimp only
  rw [decide_eq_true hbaseline, Bool.true_and]
  cases hlkd : row.locked with
  | false => rfl
  | true => rw [hlock hlkd]; rfl

theorem mergeDay_refused {upsert : Upsert} (hday : row.tradingDay = upsert.row.tradingDay)
    (h : ¬ upsert.AppliesTo row) : mergeDay upsert.row row = row := by
  have hrefd : (decide (row.dayStartBalance = upsert.row.dayStartBalance) && (!row.locked || upsert.row.locked)) = false := by
    rw [eq_false_iff]
    intro hmeets
    rw [and_eq_true, decide_eq_true_iff, or_eq_true, not_eq_true'] at hmeets
    refine h ⟨hday, hmeets.1, fun hlkd => ?_⟩
    rcases hmeets.2 with hopen | hlocks
    · rw [hlkd] at hopen
      cases hopen
    · exact hlocks
  have hkept : (row.locked || (decide (row.dayStartBalance = upsert.row.dayStartBalance) && upsert.row.locked)) = row.locked := by
    cases hlkd : row.locked with
    | true => rfl
    | false =>
      rw [hlkd, Bool.not_false, Bool.true_or, Bool.and_true] at hrefd
      rw [hrefd]
      rfl
  unfold mergeDay
  rw [if_neg (by rw [hrefd]; exact false_ne_true), hkept]

/-- **Merging keeps what sticks.** -/
theorem mergeDay_sticks (upsert : Upsert) (hday : row.tradingDay = upsert.row.tradingDay) :
    Sticks upsert row (mergeDay upsert.row row) := by
  by_cases happ : upsert.AppliesTo row
  · rw [mergeDay_applied happ]
    obtain ⟨-, hbaseline, hlock⟩ := happ
    exact ⟨hday.symm, hlock, hbaseline.symm, min_le_left _ _, fun hlkd => .inr ⟨hlock hlkd, rfl, rfl, rfl⟩⟩
  · rw [mergeDay_refused hday happ]
    exact .refl upsert row

/-! ## One upsert -/

variable {days : List DailyStateRow} {upsert : Upsert}

theorem upsertDay_unique (h : (days.map (·.tradingDay)).Nodup) : ((upsertDay upsert.row days).map (·.tradingDay)).Nodup := by
  unfold upsertDay
  split
  · rw [map_updateWhere_of fun row hrow => mergeDay_tradingDay upsert.row row (of_decide_eq_true hrow)]
    exact h
  · rename_i hnone
    exact nodup_insert h fun row hrow hsame => hnone (any_eq_true.mpr ⟨row, hrow, decide_eq_true hsame⟩)

theorem upsertDay_sticks (hrow : row ∈ days) : ∃ row' ∈ upsertDay upsert.row days, Sticks upsert row row' := by
  unfold upsertDay
  split
  · by_cases hday : row.tradingDay = upsert.row.tradingDay
    · exact ⟨mergeDay upsert.row row, updated_mem hrow (decide_eq_true hday),
        mergeDay_sticks upsert hday⟩
    · exact ⟨row, unmatched_mem hrow (by simpa using hday), .refl upsert row⟩
  · exact ⟨row, mem_append_left _ hrow, .refl upsert row⟩

/-- Every row afterwards is the first of its day, or one that stuck. -/
theorem mem_upsertDay {row' : DailyStateRow} (h : row' ∈ upsertDay upsert.row days) :
    (row' = upsert.row ∧ ∀ row ∈ days, row.tradingDay ≠ upsert.row.tradingDay) ∨ ∃ row ∈ days, Sticks upsert row row' := by
  unfold upsertDay at h
  split at h
  · rcases updateWhere_cases h with ⟨hold, -⟩ | ⟨row, hrow, hday, rfl⟩
    · exact .inr ⟨row', hold, .refl upsert row'⟩
    · exact .inr ⟨row, hrow, mergeDay_sticks upsert (of_decide_eq_true hday)⟩
  · rename_i hnone
    rcases mem_append.mp h with hold | hnew
    · exact .inr ⟨row', hold, .refl upsert row'⟩
    · exact .inl ⟨mem_singleton.mp hnew, fun row hrow hday => hnone (any_eq_true.mpr ⟨row, hrow, decide_eq_true hday⟩)⟩

theorem upsertDay_row (upsert : Upsert) (days : List DailyStateRow) :
    ∃ row ∈ upsertDay upsert.row days, row.tradingDay = upsert.row.tradingDay := by
  by_cases hany : ∃ row ∈ days, row.tradingDay = upsert.row.tradingDay
  · obtain ⟨row, hrow, hday⟩ := hany
    obtain ⟨row', hrow', hsticks⟩ : ∃ row' ∈ upsertDay upsert.row days, Sticks upsert row row' := upsertDay_sticks hrow
    exact ⟨row', hrow', hsticks.day.trans hday⟩
  · have hnone : days.any (fun row => row.tradingDay = upsert.row.tradingDay) = false := by
      rw [any_eq_false]
      exact fun row hrow h => hany ⟨row, hrow, of_decide_eq_true h⟩
    refine ⟨upsert.row, ?_, rfl⟩
    unfold upsertDay
    rw [if_neg (by rw [hnone]; exact false_ne_true)]
    exact mem_append_right _ (mem_singleton_self _)

theorem upsertDay_minEquity {row' : DailyStateRow} (happlied : upsert.Applied days) (h : row' ∈ upsertDay upsert.row days)
    (hday : row'.tradingDay = upsert.row.tradingDay) : row'.minEquity ≤ upsert.sample.equity := by
  unfold upsertDay at h
  split at h
  · rcases updateWhere_cases h with ⟨hold, hoth⟩ | ⟨row, hrow, hsame, rfl⟩
    · exact absurd hday (of_decide_eq_false hoth)
    · rw [mergeDay_applied (happlied row hrow (of_decide_eq_true hsame))]
      exact min_le_right _ _
  · rename_i hnone
    rcases mem_append.mp h with hold | hnew
    · exact absurd (any_eq_true.mpr ⟨row', hold, decide_eq_true hday⟩) hnone
    · rw [mem_singleton.mp hnew]
      exact le_refl _

/-! ## Whole runs -/

/-- **A daily lock sticks**: through every upsert of a run, of whatever evaluations in whatever order, a locked row
stays locked and takes a verdict only from an evaluation that locks, the baseline stays and the minimum equity does not
rise; and at the end every day that was evaluated has its one row, whose minimum is at most every equity that was
applied. -/
theorem daily_lock_sticks {start : List DailyStateRow} {log : List (Move (List DailyStateRow) Upsert)}
    (hstart : (start.map (·.tradingDay)).Nodup) (hrun : Records upsertStep always moves start days log) :
    (days.map (·.tradingDay)).Nodup ∧ (∀ move ∈ log, ∀ row ∈ move.before, ∃ row' ∈ move.after, Sticks move.action row row') ∧
      (∀ move ∈ log, ∃ row ∈ days, row.tradingDay = move.action.row.tradingDay) ∧
      ∀ move ∈ log, move.action.Applied move.before → ∀ row ∈ days, row.tradingDay = move.action.row.tradingDay →
        row.minEquity ≤ move.action.sample.equity := by
  refine hrun.invariant (fun days log => (days.map (·.tradingDay)).Nodup ∧
      (∀ move ∈ log, ∀ row ∈ move.before, ∃ row' ∈ move.after, Sticks move.action row row') ∧
      (∀ move ∈ log, ∃ row ∈ days, row.tradingDay = move.action.row.tradingDay) ∧
      ∀ move ∈ log, move.action.Applied move.before → ∀ row ∈ days, row.tradingDay = move.action.row.tradingDay →
        row.minEquity ≤ move.action.sample.equity)
    ⟨hstart, forall_mem_nil _, forall_mem_nil _, forall_mem_nil _⟩ ?_
  intro before upsert after log ⟨huniq, hsticks, hrows, hleast⟩ _ hstep
  cases hstep
  refine ⟨upsertDay_unique huniq, ?_, ?_, ?_⟩
  · intro move hmove
    rcases mem_append.mp hmove with hold | hnew
    · exact hsticks move hold
    · rw [mem_singleton.mp hnew]
      exact fun row hrow => upsertDay_sticks hrow
  · intro move hmove
    rcases mem_append.mp hmove with hold | hnew
    · obtain ⟨row, hrow, hday⟩ := hrows move hold
      obtain ⟨row', hrow', hstick⟩ := upsertDay_sticks hrow
      exact ⟨row', hrow', hstick.day.trans hday⟩
    · rw [mem_singleton.mp hnew]
      exact upsertDay_row upsert before
  · intro move hmove happlied row' hrow' hday
    rcases mem_append.mp hmove with hold | hnew
    · rcases mem_upsertDay hrow' with ⟨rfl, hfs⟩ | ⟨row, hrow, hstick⟩
      · -- the first row of its day: nothing was evaluated for the day before
        obtain ⟨row, hrow, hsame⟩ := hrows move hold
        exact absurd (hsame.trans hday.symm) (hfs row hrow)
      · exact le_trans hstick.minEquity (hleast move hold happlied row hrow (hstick.day.symm.trans hday))
    · rw [mem_singleton.mp hnew] at happlied hday ⊢
      exact upsertDay_minEquity happlied hrow' hday

/-- An evaluation at an equity, by a heartbeat that has read the day unlocked. -/
def evaluatedAt (now : Nat) (equity : Decimal) : Upsert where
  now := now
  runtime := ⟨100000, demoRules, demoActions, 7, 100000, 100000, none, 0, 0, 0, none, false⟩
  sample := ⟨100000, equity, false, false⟩

/-- A breach, and two evaluations that were begun before it and are written after it. -/
theorem daily_lock_sticks_late : ∃ days log, Records upsertStep always moves [] days log ∧ log.length = 4 ∧
    (days.map fun row => (row.locked, row.lastEquity, row.minEquity)) = [(true, 94000, 94000)] ∧
    ∀ move ∈ log, ∀ row ∈ move.before, ∃ row' ∈ move.after, Sticks move.action row row' := by
  have hsome : (execRecords upsertStep (fun _ _ => true) moves [] []
      [evaluatedAt 1 100000, evaluatedAt 3 94000, evaluatedAt 2 99000, evaluatedAt 4 99500]).map
        (fun final => (final.1.map fun row => (row.locked, row.lastEquity, row.minEquity), final.2.length))
      = some ([(true, 94000, 94000)], 4) := by
    decide +kernel
  obtain ⟨final, hexec, hview⟩ := Option.map_eq_some_iff.mp hsome
  obtain ⟨hrows, hlng⟩ := Prod.mk.inj hview
  have hrun := records_exec hexec
  have hstart : (([] : List DailyStateRow).map (·.tradingDay)).Nodup := nodup_nil
  exact ⟨final.1, final.2, hrun, hlng, hrows, (daily_lock_sticks hstart hrun).2.1⟩

end MarketLens.PropRisk
