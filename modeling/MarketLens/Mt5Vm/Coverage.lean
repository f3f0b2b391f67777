import MarketLens.Lib.Run
import MarketLens.Mt5Vm.History

/-!
# What the coverage of a history claims

Of each account and family one interval is kept: from the earliest instant any
submission asked for, through the last one that is covered. It claims more than was
covered when the front is moved by a submission that does not reach the interval: one
that is not complete, or one whose window ends before it. The last instant is moved
only by what reaches it.
-/

namespace MarketLens.Mt5Vm

open Store Fallible Runs List Option Prod

/-! ## Runs of submissions -/

/-- A submission as it arrives, and the world its transaction sees. -/
structure Delivery where
  world : World
  envelope : Envelope
  request : HistorySubmission

structure HistoryRun where
  store : HistoryStore
  accepted : List HistorySubmission

namespace HistoryRun

def start : HistoryRun := ⟨.empty, []⟩

def step (run : HistoryRun) (delivery : Delivery) : Option HistoryRun :=
  (ingestHistory delivery.world delivery.envelope delivery.request run.store).toOption.map fun store =>
    ⟨store, run.accepted ++ [delivery.request]⟩

end HistoryRun

def HistorySubmission.key (request : HistorySubmission) : AccountId × HistoryFamily := (request.accountId, request.family)

def HistorySubmission.Covers (request : HistorySubmission) (instant : Int) : Prop :=
  request.result = .complete ∧ toTimestamp request.fromMs ≤ instant ∧
    ∃ through, request.coveredThroughMs = some through ∧ instant ≤ toTimestamp through

/-- Every instant that the row claims is covered by a submission of its account and family. -/
def Coverage.Sound (row : Coverage) (accepted : List HistorySubmission) : Prop :=
  ∀ through, row.coveredThrough = some through → ∀ instant, row.requestedFrom ≤ instant → instant ≤ through →
    ∃ request ∈ accepted, request.key = row.key ∧ request.Covers instant

def Coverage.Extends (row row' : Coverage) : Prop :=
  ∀ through, row.coveredThrough = some through → ∃ through', row'.coveredThrough = some through' ∧ through ≤ through'

structure KeepsCoverage (before after : HistoryRun) : Prop where
  sound : ∀ row ∈ after.store.coverage, row.Sound after.accepted
  extends_ : ∀ row ∈ before.store.coverage, ∀ row' ∈ after.store.coverage, row'.key = row.key → row.Extends row'

/-- The submission does not move the front of the row beyond what it covers. Where nothing is
covered yet, a complete one begins at the front or before it; else one that begins before the
front is complete and reaches it. -/
def Coverage.Meets (row : Coverage) (request : HistorySubmission) : Prop :=
  match row.coveredThrough with
  | none => request.result = .complete → toTimestamp request.fromMs ≤ row.requestedFrom
  | some _ => toTimestamp request.fromMs < row.requestedFrom →
      request.result = .complete ∧ ∃ through, request.coveredThroughMs = some through ∧ row.requestedFrom ≤ toTimestamp through

def MeetsCoverage (run : HistoryRun) (delivery : Delivery) : Prop :=
  ∀ row, run.store.coverage? delivery.request.key = some row → row.Meets delivery.request

/-! ## What a submission does to the coverage -/

/-- What `validate_history_shape` promises of the covered window. -/
def HistorySubmission.Shaped (request : HistorySubmission) : Prop :=
  (request.result = .complete → ∃ through, request.coveredThroughMs = some through ∧ request.fromMs ≤ through) ∧
    (request.result ≠ .complete → request.coveredThroughMs = none)

variable {request : HistorySubmission}

theorem validateHistoryShape_shaped {envelope : Envelope} {now : Millis}
    (h : validateHistoryShape envelope request now = .ok ()) : request.Shaped := by
  obtain ⟨-, h⟩ := unit_bind_ok.mp h
  obtain ⟨-, h⟩ := unit_bind_ok.mp h
  obtain ⟨-, h⟩ := unit_bind_ok.mp h
  split at h
  · rename_i hcmpl
    rw [refuseIf_ok, Bool.or_eq_false_iff, Bool.not_eq_false', Option.any_eq_true] at h
    obtain ⟨-, through, hthru, hwthn⟩ := h
    rw [Bool.and_eq_true, decide_eq_true_iff] at hwthn
    exact ⟨fun _ => ⟨through, hthru, hwthn.1⟩, fun hnot => absurd (of_decide_eq_true hcmpl) hnot⟩
  · rename_i hparted
    rw [refuseIf_ok, isSome_eq_false_iff, isNone_iff_eq_none] at h
    exact ⟨fun hcmpl => absurd (decide_eq_true hcmpl) hparted, fun _ => h⟩

theorem upsertHistoryRows_coverage {userId : OwnerId} {store store' : HistoryStore}
    (h : upsertHistoryRows userId request store = .ok store') : store'.coverage = store.coverage := by
  unfold upsertHistoryRows at h
  split at h
  · obtain ⟨table, -, h⟩ := bind_ok.mp h
    cases h
    rfl
  · obtain ⟨table, -, h⟩ := bind_ok.mp h
    cases h
    rfl

/-- The row a submission leaves. -/
def recordedCoverage (excluded : Coverage) (row : Option Coverage) : Coverage :=
  row.elim excluded fun row => mergedCoverage row excluded

theorem recordedCoverage_key {excluded : Coverage} {row : Option Coverage} : (recordedCoverage excluded row).key = excluded.key := by
  cases row <;> rfl

structure Recorded (run run' : HistoryRun) (request : HistorySubmission) (excluded new : Coverage) : Prop where
  shaped : request.Shaped
  requests : ∀ other, other ∈ run'.accepted ↔ other ∈ run.accepted ∨ other = request
  excludes : ∃ userId worker, excluded = excludedCoverage userId worker request
  row : recordedCoverage excluded (run.store.coverage? request.key) = new
  key : new.key = request.key
  allowed : new.allowed = true
  coverage : run'.store.coverage = Table.upsert Coverage.key run.store.coverage new

theorem step_recorded {run run' : HistoryRun} {delivery : Delivery} (h : run.step delivery = some run') :
    ∃ excluded new, Recorded run run' delivery.request excluded new := by
  obtain ⟨store, hing, rfl⟩ := map_eq_some_iff.mp h
  have hing := toOption_some hing
  obtain ⟨hshape, hing⟩ := unit_bind_ok.mp hing
  obtain ⟨-, hing⟩ := unit_bind_ok.mp hing
  obtain ⟨worker, -, hing⟩ := bind_ok.mp hing
  obtain ⟨account, -, hing⟩ := bind_ok.mp hing
  obtain ⟨-, hing⟩ := unit_bind_ok.mp hing
  obtain ⟨stored, hrows, hing⟩ := bind_ok.mp hing
  obtain ⟨hallw, hing⟩ := unit_bind_ok.mp hing
  cases hing
  have hcoverage := upsertHistoryRows_coverage hrows
  have hsame : stored.coverage? (excludedCoverage account.connection.userId worker delivery.request).key
      = run.store.coverage? delivery.request.key := by
    unfold HistoryStore.coverage?
    rw [hcoverage]
    rfl
  rw [refuseIf_ok, Bool.not_eq_false', hsame] at hallw
  exact ⟨_, _, {
    shaped := validateHistoryShape_shaped hshape
    requests := fun other => by rw [mem_append, mem_singleton]
    excludes := ⟨account.connection.userId, worker, rfl⟩
    row := rfl
    key := recordedCoverage_key
    allowed := hallw
    coverage := by
      rw [hcoverage, hsame]
      rfl }⟩

namespace Recorded

variable {run run' : HistoryRun} {request : HistorySubmission} {excluded new row old : Coverage}

variable (h : Recorded run run' request excluded new)
include h

theorem mem_coverage : row ∈ run'.store.coverage ↔ row = new ∨ (row ∈ run.store.coverage ∧ row.key ≠ request.key) := by
  rw [h.coverage, ← h.key]
  exact Table.mem_upsert

/-- The first submission of an account and family. -/
theorem unrecorded (hnone : run.store.coverage? request.key = none) :
    new.requestedFrom = toTimestamp request.fromMs ∧ new.coveredThrough = request.coveredThroughMs.map toTimestamp := by
  obtain ⟨userId, worker, rfl⟩ := h.excludes
  rw [← h.row, hnone]
  exact ⟨rfl, rfl⟩

variable (hold : run.store.coverage? request.key = some old)
include hold

/-- A later one moves the front to the earlier of the two. -/
theorem merged_front : new.requestedFrom = min old.requestedFrom (toTimestamp request.fromMs) := by
  obtain ⟨userId, worker, rfl⟩ := h.excludes
  rw [← h.row, hold]
  rfl

theorem merged_partial (hparted : request.result ≠ .complete) : new.coveredThrough = old.coveredThrough := by
  obtain ⟨userId, worker, rfl⟩ := h.excludes
  rw [← h.row, hold]
  exact if_pos hparted

theorem merged_complete (hcmpl : request.result = .complete) {through : Int} (hthru : request.coveredThroughMs = some through) :
    new.coveredThrough = some (old.coveredThrough.elim (toTimestamp through) fun covered =>
      if toTimestamp request.fromMs ≤ covered then max covered (toTimestamp through) else covered) := by
  obtain ⟨userId, worker, rfl⟩ := h.excludes
  rw [← h.row, hold]
  show mergedThrough old _ = _
  have hnew : (excludedCoverage userId worker request).coveredThrough = some (toTimestamp through) := by
    show request.coveredThroughMs.map toTimestamp = _
    rw [hthru]
    rfl
  unfold mergedThrough
  rw [if_neg fun hnot => hnot hcmpl, hnew]
  cases hcov : old.coveredThrough with
  | none => rfl
  | some covered =>
    show (if toTimestamp request.fromMs ≤ covered then some (max covered (toTimestamp through)) else some covered)
      = some (if toTimestamp request.fromMs ≤ covered then max covered (toTimestamp through) else covered)
    split <;> rfl

end Recorded

/-! ## What every run keeps -/

/-- The rows against the accepted submissions: a front is where the earliest one began, and where nothing is
covered none was complete. -/
structure HistoryRun.Kept (run : HistoryRun) : Prop where
  unique : (run.store.coverage.map Coverage.key).Nodup
  recorded : ∀ request ∈ run.accepted, ∃ row ∈ run.store.coverage, row.key = request.key
  front : ∀ row ∈ run.store.coverage, ∃ ms, row.requestedFrom = toTimestamp ms
  first : ∀ row ∈ run.store.coverage, ∀ request ∈ run.accepted, request.key = row.key →
    row.requestedFrom ≤ toTimestamp request.fromMs
  uncovered : ∀ row ∈ run.store.coverage, row.coveredThrough = none → ∀ request ∈ run.accepted, request.key = row.key →
    request.result ≠ .complete
  ordered : ∀ row ∈ run.store.coverage, ∀ through, row.coveredThrough = some through → row.requestedFrom ≤ through

theorem coverage?_some {store : HistoryStore} {key : AccountId × HistoryFamily} {row : Coverage}
    (h : store.coverage? key = some row) : row ∈ store.coverage ∧ row.key = key := by
  have hkey := find?_some h
  exact ⟨mem_of_find?_eq_some h, of_decide_eq_true hkey⟩

theorem coverage?_none {store : HistoryStore} {key : AccountId × HistoryFamily} (h : store.coverage? key = none) :
    ∀ row ∈ store.coverage, row.key ≠ key := by
  intro row hrow hkey
  exact find?_eq_none.mp h row hrow (decide_eq_true hkey)

theorem Coverage.allowed_ordered {row : Coverage} (h : row.allowed = true) {through : Int}
    (hthru : row.coveredThrough = some through) : row.requestedFrom ≤ through := by
  simp only [Coverage.allowed, hthru, all_some, Bool.and_eq_true, decide_eq_true_eq] at h
  exact h.1.2.1

/-- **Every submission keeps that.** -/
theorem Recorded.kept {run run' : HistoryRun} {excluded new : Coverage} (hkept : run.Kept)
    (h : Recorded run run' request excluded new) : run'.Kept where
  unique := by
    rw [h.coverage]
    exact Table.nodup_upsert hkept.unique
  recorded := by
    intro other hoth
    by_cases hsame : other.key = request.key
    · exact ⟨new, h.mem_coverage.mpr (.inl rfl), h.key.trans hsame.symm⟩
    · rcases (h.requests other).mp hoth with hpast | rfl
      · obtain ⟨row, hrow, hkey⟩ := hkept.recorded other hpast
        exact ⟨row, h.mem_coverage.mpr (.inr ⟨hrow, fun h => hsame (hkey.symm.trans h)⟩), hkey⟩
      · exact absurd rfl hsame
  front := by
    intro row hrow
    rcases h.mem_coverage.mp hrow with rfl | ⟨hpast, -⟩
    · cases hfind : run.store.coverage? request.key with
      | none => exact ⟨request.fromMs, (h.unrecorded hfind).1⟩
      | some old =>
        obtain ⟨ms, hms⟩ := hkept.front old (coverage?_some hfind).1
        rw [h.merged_front hfind]
        rcases min_choice old.requestedFrom (toTimestamp request.fromMs) with hmin | hmin
        · exact ⟨ms, hmin.trans hms⟩
        · exact ⟨request.fromMs, hmin⟩
    · exact hkept.front row hpast
  -- The merged row begins at the smaller of its old front and the request's.
  first := by
    intro row hrow other hoth hsame
    rcases h.mem_coverage.mp hrow with rfl | ⟨hpast, hkey⟩
    · rw [h.key] at hsame
      cases hfind : run.store.coverage? request.key with
      | none =>
        rw [(h.unrecorded hfind).1]
        rcases (h.requests other).mp hoth with hpast | rfl
        · obtain ⟨row, hrow, hkey⟩ := hkept.recorded other hpast
          exact absurd (hkey.trans hsame) (coverage?_none hfind row hrow)
        · exact le_refl _
      | some old =>
        obtain ⟨hold, holdKey⟩ := coverage?_some hfind
        rw [h.merged_front hfind]
        rcases (h.requests other).mp hoth with hpast | rfl
        · exact le_trans (min_le_left _ _) (hkept.first old hold other hpast (hsame.trans holdKey.symm))
        · exact min_le_right _ _
    · rcases (h.requests other).mp hoth with hold | rfl
      · exact hkept.first row hpast other hold hsame
      · exact absurd hsame.symm hkey
  uncovered := by
    intro row hrow hnone other hoth hsame hcmpl
    rcases h.mem_coverage.mp hrow with rfl | ⟨hpast, hkey⟩
    · rw [h.key] at hsame
      cases hfind : run.store.coverage? request.key with
      | none =>
        rcases (h.requests other).mp hoth with hpast | rfl
        · obtain ⟨row, hrow, hkey⟩ := hkept.recorded other hpast
          exact coverage?_none hfind row hrow (hkey.trans hsame)
        · obtain ⟨through, hthru, -⟩ := h.shaped.1 hcmpl
          rw [(h.unrecorded hfind).2, hthru] at hnone
          cases hnone
      | some old =>
        obtain ⟨hold, holdKey⟩ := coverage?_some hfind
        by_cases hnew : request.result = .complete
        · obtain ⟨through, hthru, -⟩ := h.shaped.1 hnew
          rw [h.merged_complete hfind hnew hthru] at hnone
          cases hnone
        · rw [h.merged_partial hfind hnew] at hnone
          rcases (h.requests other).mp hoth with hpast | rfl
          · exact hkept.uncovered old hold hnone other hpast (hsame.trans holdKey.symm) hcmpl
          · exact hnew hcmpl
    · rcases (h.requests other).mp hoth with hold | rfl
      · exact hkept.uncovered row hpast hnone other hold hsame hcmpl
      · exact hkey hsame.symm
  ordered := by
    intro row hrow through hthru
    rcases h.mem_coverage.mp hrow with rfl | ⟨hpast, -⟩
    · exact Coverage.allowed_ordered h.allowed hthru
    · exact hkept.ordered row hpast through hthru

/-! ## One submission -/

section
variable {run run' : HistoryRun} {request : HistorySubmission} {excluded new : Coverage}

section Recorded

variable (h : Recorded run run' request excluded new)
include h

/-- What was covered stays covered: of another account or family it is left alone, else it is
extended or kept. -/
theorem Recorded.extends (hkept : run.Kept) {row row' : Coverage}
    (hrow : row ∈ run.store.coverage) (hrow' : row' ∈ run'.store.coverage) (hkey : row'.key = row.key) : row.Extends row' := by
  intro covered hcov
  rcases h.mem_coverage.mp hrow' with rfl | ⟨hpast, -⟩
  · have hfind : run.store.coverage? request.key = some row := by
      rw [← h.key, hkey]
      exact Table.find?_key hkept.unique hrow
    by_cases hcmpl : request.result = .complete
    · obtain ⟨through, hthru, -⟩ := h.shaped.1 hcmpl
      rw [h.merged_complete hfind hcmpl hthru, hcov]
      refine ⟨_, rfl, ?_⟩
      rw [elim_some]
      split
      · exact le_max_left _ _
      · exact le_refl _
    · rw [h.merged_partial hfind hcmpl]
      exact ⟨covered, hcov, le_refl _⟩
  · rw [inj_on_of_nodup_map hkept.unique hpast hrow hkey]
    exact ⟨covered, hcov, le_refl _⟩

/-- **A submission that meets its row leaves a sound one.** -/
theorem Recorded.sound (hsnd : ∀ row ∈ run.store.coverage, row.Sound run.accepted)
    (hmeets : ∀ row, run.store.coverage? request.key = some row → row.Meets request) :
    ∀ row ∈ run'.store.coverage, row.Sound run'.accepted := by
  intro row hrow covered hcov instant hfrom hto
  have hpast : ∀ row ∈ run.store.coverage, row.Sound run'.accepted := by
    intro row hrow covered hcov instant hfrom hto
    obtain ⟨other, hoth, hkey, hcovers⟩ := hsnd row hrow covered hcov instant hfrom hto
    exact ⟨other, (h.requests other).mpr (.inl hoth), hkey, hcovers⟩
  have hself : request.Covers instant → ∃ other ∈ run'.accepted, other.key = request.key ∧ other.Covers instant :=
    fun hcovers => ⟨request, (h.requests request).mpr (.inr rfl), rfl, hcovers⟩
  rcases h.mem_coverage.mp hrow with rfl | ⟨hold, -⟩
  · rw [h.key]
    cases hfind : run.store.coverage? request.key with
    | none =>
      -- the claim is the window of the submission itself
      obtain ⟨hfrt, hthru⟩ := h.unrecorded hfind
      rw [hthru] at hcov
      obtain ⟨through, hsome, rfl⟩ := map_eq_some_iff.mp hcov
      have hcmpl : request.result = .complete := by
        by_contra hparted
        rw [h.shaped.2 hparted] at hsome
        cases hsome
      rw [hfrt] at hfrom
      exact hself ⟨hcmpl, hfrom, through, hsome, hto⟩
    | some old =>
      obtain ⟨hold, holdKey⟩ := coverage?_some hfind
      have hmeets := hmeets old hfind
      rw [h.merged_front hfind] at hfrom
      unfold Coverage.Meets at hmeets
      by_cases hcmpl : request.result = .complete
      · obtain ⟨through, hsome, -⟩ := h.shaped.1 hcmpl
        rw [h.merged_complete hfind hcmpl hsome] at hcov
        have hcov := some.inj hcov
        cases hearl : old.coveredThrough with
        | none =>
          -- nothing was covered: the submission begins at the front
          rw [hearl] at hmeets hcov
          have hfrt := hmeets hcmpl
          rw [min_eq_right hfrt] at hfrom
          exact hself ⟨hcmpl, hfrom, through, hsome, by rw [elim_none] at hcov; omega⟩
        | some earlier =>
          rw [hearl] at hmeets hcov
          rw [elim_some] at hcov
          by_cases hbef : instant < old.requestedFrom
          · -- in front of the old front only the submission covers
            have hfrom' : toTimestamp request.fromMs ≤ instant := by
              rcases min_le_iff.mp hfrom with h | h
              · omega
              · exact h
            obtain ⟨-, through', hsome', hrch⟩ := hmeets (lt_of_le_of_lt hfrom' hbef)
            exact hself ⟨hcmpl, hfrom', through', hsome', by omega⟩
          · by_cases hwthn : instant ≤ earlier
            · obtain ⟨other, hoth, hkey, hcovers⟩ :=
                hpast old hold earlier hearl instant (not_lt.mp hbef) hwthn
              exact ⟨other, hoth, hkey.trans holdKey, hcovers⟩
            · -- behind what was covered, where the submission goes on
              split at hcov
              · refine hself ⟨hcmpl, by omega, through, hsome, ?_⟩
                rcases le_max_iff.mp (hcov ▸ hto) with h | h
                · exact absurd h hwthn
                · exact h
              · omega
      · rw [h.merged_partial hfind hcmpl] at hcov
        rw [hcov] at hmeets
        have hfrt : old.requestedFrom ≤ toTimestamp request.fromMs := by
          by_contra hless
          exact hcmpl (hmeets (not_le.mp hless)).1
        rw [min_eq_left hfrt] at hfrom
        obtain ⟨other, hoth, hkey, hcovers⟩ := hpast old hold covered hcov instant hfrom hto
        exact ⟨other, hoth, hkey.trans holdKey, hcovers⟩
  · exact hpast row hold covered hcov instant hfrom hto

/-- A submission that leaves a sound row met the one it found. -/
theorem Recorded.meets (hkept : run.Kept)
    (hsnd : new.Sound run'.accepted) {old : Coverage} (hfind : run.store.coverage? request.key = some old) :
    old.Meets request := by
  obtain ⟨hold, holdKey⟩ := coverage?_some hfind
  -- an earlier submission covers nothing in front of the old front
  have hlate : ∀ instant < old.requestedFrom, ∀ other ∈ run'.accepted, other.key = new.key → other.Covers instant →
      other = request := by
    intro instant hbef other hoth hkey hcovers
    rcases (h.requests other).mp hoth with hpast | rfl
    · have hfs := hkept.first old hold other hpast (hkey.trans (h.key.trans holdKey.symm))
      have hstar := hcovers.2.1
      omega
    · rfl
  have hfrt := h.merged_front hfind
  unfold Coverage.Meets
  cases hearl : old.coveredThrough with
  | none =>
    intro hcmpl
    by_contra hbehind
    obtain ⟨through, hsome, hfrom⟩ := h.shaped.1 hcmpl
    have hcov := h.merged_complete hfind hcmpl hsome
    rw [hearl, elim_none] at hcov
    have hwindow : toTimestamp request.fromMs ≤ toTimestamp through := by
      unfold toTimestamp
      omega
    obtain ⟨other, hoth, hkey, hcovers⟩ := hsnd _ hcov old.requestedFrom (by omega) (by omega)
    rcases (h.requests other).mp hoth with hpast | rfl
    · exact hkept.uncovered old hold hearl other hpast (hkey.trans (h.key.trans holdKey.symm)) hcovers.1
    · exact hbehind hcovers.2.1
  | some earlier =>
    intro hbef
    have hordd := hkept.ordered old hold earlier hearl
    obtain ⟨covered, hcov, hextends⟩ :=
      h.extends hkept hold (h.mem_coverage.mpr (.inl rfl)) (h.key.trans holdKey.symm) earlier hearl
    have hcmpl : request.result = .complete := by
      obtain ⟨other, hoth, hkey, hcovers⟩ := hsnd covered hcov (toTimestamp request.fromMs) (by omega) (by omega)
      rw [hlate _ hbef other hoth hkey hcovers] at hcovers
      exact hcovers.1
    refine ⟨hcmpl, ?_⟩
    obtain ⟨through, hsome, hfrom⟩ := h.shaped.1 hcmpl
    refine ⟨through, hsome, ?_⟩
    by_contra hshort
    obtain ⟨ms, hms⟩ := hkept.front old hold
    -- a time is stored in whole milliseconds, so that an instant lies between
    have hbetween : toTimestamp request.fromMs ≤ toTimestamp through ∧ toTimestamp through + 1 < old.requestedFrom := by
      rw [hms] at hshort ⊢
      unfold toTimestamp at hshort ⊢
      omega
    obtain ⟨other, hoth, hkey, hcovers⟩ :=
      hsnd covered hcov (toTimestamp through + 1) (by omega) (by omega)
    rw [hlate _ hbetween.2 other hoth hkey hcovers] at hcovers
    obtain ⟨-, -, through', hsome', hle⟩ := hcovers
    rw [hsome] at hsome'
    cases hsome'
    omega

end Recorded

end

/-! ## Whole runs -/

/-- **In every run of submissions the coverage claims nothing that was not covered** exactly when every one of them
meets the row it finds. What is covered stays so in any case. -/
theorem coverage_sound_iff {run : HistoryRun} {log : List (Move HistoryRun Delivery)}
    (hrun : Records HistoryRun.step always moves HistoryRun.start run log) :
    (∀ move ∈ log, MeetsCoverage move.before move.action) ↔ ∀ move ∈ log, KeepsCoverage move.before move.after := by
  refine hrun.all_iff MeetsCoverage (fun before _ after => KeepsCoverage before after)
    (fun run => run.Kept ∧ ∀ row ∈ run.store.coverage, row.Sound run.accepted) ?_ ?_ ?_
  · exact ⟨⟨nodup_nil, forall_mem_nil _, forall_mem_nil _,
      forall_mem_nil _, forall_mem_nil _, forall_mem_nil _⟩,
      forall_mem_nil _⟩
  · intro before delivery after ⟨hkept, hsnd⟩ _ hstep hmeets
    obtain ⟨excluded, new, hrecd⟩ := step_recorded hstep
    have hsound' := hrecd.sound hsnd hmeets
    exact ⟨⟨hrecd.kept hkept, hsound'⟩, hsound', fun row hrow row' hrow' hkey => hrecd.extends hkept hrow hrow' hkey⟩
  · intro before delivery after ⟨hkept, _⟩ _ hstep hkeeps row hfind
    obtain ⟨excluded, new, hrecd⟩ := step_recorded hstep
    exact hrecd.meets hkept (hkeeps.sound new (hrecd.mem_coverage.mpr (.inl rfl))) hfind

/-- A worker that holds the lease of one account. -/
def leasedWorld : World where
  now := 100000
  nextId := 2
  workers := [⟨"w1", 1, 1, 1, "1.0", 4, .bareMetal, .healthy, false, 145000⟩]
  accounts :=
    [{ connection := ⟨"u1", "a1", some "1234", .managed, .ready, 1, some "w1", 1, 1, none, none, none, none, none, none⟩
       freshness := ⟨none, none, none⟩
       registry := ⟨"demo", .ready, true, none, none⟩
       lease := some ⟨"w1", 1, 1, .active, 145000⟩
       commands := []
       tokens := []
       sessions := []
       syncStates := .fill .seed
       accountState := none
       rows := .fill [] }]

/-- A submission of deals in that world, without rows. -/
def dealsOf (sequence fromMs toMs : Int) (through : Option Int) : Delivery where
  world := leasedWorld
  envelope := ⟨"w1", 1, 1, 1⟩
  request := ⟨"a1", 1, sequence, 90000, fromMs, toMs, through, .deals, if through.isSome then .complete else .partially,
    none, none, .deals []⟩

/-- The window of the coverage of the deals, and the submissions behind it. -/
def HistoryRun.claims (run : HistoryRun) : List (Int × Option Int) × List (Int × Option Int) :=
  (run.store.coverage.map fun row => (row.requestedFrom, row.coveredThrough),
    run.accepted.map fun request => (request.fromMs, request.coveredThroughMs))

/-- A window, one that goes on, one that stands apart, and a backfill that reaches the first. -/
theorem coverage_sound_of_backfill : ∃ run log, Records HistoryRun.step always moves HistoryRun.start run log ∧
    log.length = 4 ∧ ∀ move ∈ log, KeepsCoverage move.before move.after := by
  have hsome : (execRecords HistoryRun.step (fun _ _ => true) moves HistoryRun.start []
      [dealsOf 1 60000 70000 (some 70000), dealsOf 2 65000 80000 (some 75000), dealsOf 3 90000 95000 none,
        dealsOf 4 10000 61000 (some 60500)]).map
        (fun final => final.2.map fun move =>
          ((move.before.store.coverage? move.action.request.key).map fun row => (row.requestedFrom, row.coveredThrough),
            move.action.request.fromMs, move.action.request.result, move.action.request.coveredThroughMs))
      = some [(none, 60000, .complete, some 70000), (some (60000000, some 70000000), 65000, .complete, some 75000),
          (some (60000000, some 75000000), 90000, .partially, none),
          (some (60000000, some 75000000), 10000, .complete, some 60500)] := by
    rfl
  obtain ⟨final, hexec, hview⟩ := map_eq_some_iff.mp hsome
  have hrun := records_exec hexec
  refine ⟨final.1, final.2, hrun, ?_, ?_⟩
  · have hlng := congrArg length hview
    rw [length_map] at hlng
    exact hlng
  · refine (coverage_sound_iff hrun).mp fun move hmove row hfind => ?_
    have hseen := mem_map_of_mem (f := fun move : Move HistoryRun Delivery =>
      ((move.before.store.coverage? move.action.request.key).map fun row => (row.requestedFrom, row.coveredThrough),
        move.action.request.fromMs, move.action.request.result, move.action.request.coveredThroughMs)) hmove
    rw [hview, hfind] at hseen
    simp only [mem_cons, mk.injEq, map_some, some.injEq, reduceCtorEq, false_and, false_or, not_mem_nil, or_false] at hseen
    unfold Coverage.Meets toTimestamp
    rcases hseen with ⟨⟨hfrt, hthru⟩, hfrom, hresult, hcov⟩ | ⟨⟨hfrt, hthru⟩, hfrom, hresult, hcov⟩ |
      ⟨⟨hfrt, hthru⟩, hfrom, hresult, hcov⟩
    · rw [hthru, hfrt, hfrom]
      omega
    · rw [hthru, hfrt, hfrom]
      omega
    · rw [hthru, hfrt, hcov]
      exact fun _ => ⟨hresult, 60500, rfl, by omega⟩

/-- **A backfill that ends before the interval** moves its front, and what lies between is claimed. -/
theorem backfill_overclaims : ∃ run log, Records HistoryRun.step always moves HistoryRun.start run log ∧
    ¬ ∀ move ∈ log, KeepsCoverage move.before move.after := by
  have hsome : (execRecords HistoryRun.step (fun _ _ => true) moves HistoryRun.start []
      [dealsOf 1 60000 80000 (some 80000), dealsOf 2 10000 20000 (some 20000)]).bind
        (fun final => final.2.getLast?.map fun move => move.after.claims)
      = some ([(10000000, some 80000000)], [(60000, some 80000), (10000, some 20000)]) := by
    rfl
  obtain ⟨final, hexec, hlast⟩ := bind_eq_some_iff.mp hsome
  obtain ⟨move, hmove, hview⟩ := map_eq_some_iff.mp hlast
  obtain ⟨hrows, haccp⟩ := mk.inj hview
  refine ⟨final.1, final.2, records_exec hexec, fun hkeeps => ?_⟩
  obtain ⟨row, hrow, hclaim⟩ : ∃ row ∈ move.after.store.coverage,
      (row.requestedFrom, row.coveredThrough) = (10000000, some 80000000) :=
    mem_map.mp (hrows ▸ mem_singleton_self _)
  obtain ⟨hfrt, hthru⟩ := mk.inj hclaim
  -- half a minute is between the backfill and what was covered
  obtain ⟨request, hreq, -, -, hfrom, through, hcov, hto⟩ :=
    (hkeeps move (mem_of_getLast? hmove)).sound row hrow 80000000 hthru 30000000 (by rw [hfrt]; decide) (by decide)
  have hseen := mem_map_of_mem (f := fun request : HistorySubmission => (request.fromMs, request.coveredThroughMs)) hreq
  rw [haccp] at hseen
  unfold toTimestamp at hfrom hto
  simp only [mem_cons, mk.injEq, not_mem_nil, or_false] at hseen
  rcases hseen with ⟨hstart, hend⟩ | ⟨hstart, hend⟩
  · omega
  · rw [hcov] at hend
    cases hend
    omega

end MarketLens.Mt5Vm
