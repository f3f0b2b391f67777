import MarketLens.Lib.Run
import MarketLens.VmAgent.LifecycleRuns

/-!
# The startup throttle over a run

Terminals are started some way apart, and not too many in a window of time. The
throttle keeps the latest starts only: a delay that is asked for drops those the
window has passed, and a start that is recorded pushes out the oldest. A run asks
for delays and records starts at times that do not go back; a start is recorded
where the last delay asked for was none.
-/

namespace MarketLens.VmAgent

open Attempts Runs List Option Nat

namespace StartupThrottle

variable {throttle : StartupThrottle} {nowMs later delay : Nat} {accountId : String}

/-- `required_delay_ms`, but for what it forgets: the sum `max_jitter_ms + 1` overflows for the largest
jitter there is, and the call panics. -/
def requiredDelayMs (throttle : StartupThrottle) (nowMs : Nat) (accountId : String) : Option Nat :=
  let delay := (throttle.forget nowMs).delayMs nowMs accountId
  if 0 < delay && u64Max ≤ throttle.config.maxJitterMs then none else some delay

theorem requiredDelayMs_some (h : throttle.requiredDelayMs nowMs accountId = some delay) :
    (throttle.forget nowMs).delayMs nowMs accountId = delay := by
  simp only [requiredDelayMs] at h
  split at h
  · cases h
  · exact some.inj h

theorem requiredDelayMs_zero (h : (throttle.forget nowMs).delayMs nowMs accountId = 0) :
    throttle.requiredDelayMs nowMs accountId = some 0 := by
  simp only [requiredDelayMs, h]
  rfl

/-! ## What is waited for -/

/-- What is missing to the spacing. -/
def spacingDelay (throttle : StartupThrottle) (nowMs : Nat) : Nat :=
  throttle.starts.getLast?.elim 0 fun last => throttle.config.minSpacingMs - (nowMs - last)

/-- What is missing until the window has room. -/
def windowDelay (throttle : StartupThrottle) (nowMs : Nat) : Nat :=
  if throttle.config.maxStartsPerWindow ≤ throttle.starts.length then
    throttle.starts.head?.elim 0 fun first => throttle.config.windowMs - (nowMs - first)
  else 0

theorem delayMs_eq : throttle.delayMs nowMs accountId =
      if max (throttle.spacingDelay nowMs) (throttle.windowDelay nowMs) = 0 then 0
      else min u64Max (max (throttle.spacingDelay nowMs) (throttle.windowDelay nowMs)
        + deterministicJitter accountId throttle.config.maxJitterMs) := by
  unfold delayMs spacingDelay windowDelay
  cases throttle.starts.getLast? <;> cases throttle.starts.head? <;> rfl

theorem delayMs_eq_zero_iff :
    throttle.delayMs nowMs accountId = 0 ↔ throttle.spacingDelay nowMs = 0 ∧ throttle.windowDelay nowMs = 0 := by
  have hpos : 0 < u64Max := by decide
  rw [delayMs_eq]
  split <;> omega

/-- The delay covers both waits, whatever the jitter. -/
theorem waits_le_delayMs (hwindow : throttle.config.windowMs ≤ u64Max)
    (hspacing : throttle.config.minSpacingMs ≤ throttle.config.windowMs) :
    throttle.spacingDelay nowMs ≤ throttle.delayMs nowMs accountId
      ∧ throttle.windowDelay nowMs ≤ throttle.delayMs nowMs accountId := by
  have hspaced : throttle.spacingDelay nowMs ≤ u64Max := by
    unfold spacingDelay
    cases throttle.starts.getLast? with
    | none => exact zero_le _
    | some last =>
      show throttle.config.minSpacingMs - (nowMs - last) ≤ u64Max
      omega
  have hroom : throttle.windowDelay nowMs ≤ u64Max := by
    unfold windowDelay
    split
    · cases throttle.starts.head? with
      | none => exact zero_le _
      | some first =>
        show throttle.config.windowMs - (nowMs - first) ≤ u64Max
        omega
    · exact zero_le _
  rw [delayMs_eq]
  split <;> omega

/-! ## What is forgotten -/

/-- What is kept is the end of what there was; a window has passed what was before it, and has not
passed the first that is kept. -/
theorem forget_starts (throttle : StartupThrottle) (nowMs : Nat) :
    ∃ passed, throttle.starts = passed ++ (throttle.forget nowMs).starts ∧
      (∀ startedAt ∈ passed, throttle.config.windowMs ≤ nowMs - startedAt) ∧
      ∀ first ∈ (throttle.forget nowMs).starts.head?, nowMs - first < throttle.config.windowMs := by
  refine ⟨_, (takeWhile_append_dropWhile).symm, fun startedAt hmem => ?_, fun first hfs => ?_⟩
  · have hpass := all_eq_true.mp all_takeWhile startedAt hmem
    exact of_decide_eq_true hpass
  · have hkept := head?_dropWhile_not (fun startedAt => decide (throttle.config.windowMs ≤ nowMs - startedAt)) throttle.starts
    unfold forget at hfs
    rw [mem_def] at hfs
    rw [hfs] at hkept
    have hnot := of_decide_eq_false hkept
    omega

/-- After what is past is forgotten there is room in the window or a wait for it. -/
theorem windowDelay_forget (hpos : 0 < throttle.config.maxStartsPerWindow) :
    (throttle.forget nowMs).windowDelay nowMs = 0 ↔
      (throttle.forget nowMs).starts.length < throttle.config.maxStartsPerWindow := by
  obtain ⟨-, -, -, hkept⟩ := throttle.forget_starts nowMs
  unfold windowDelay
  by_cases hfull : throttle.config.maxStartsPerWindow ≤ (throttle.forget nowMs).starts.length
  · rw [if_pos (show (throttle.forget nowMs).config.maxStartsPerWindow ≤ _ from hfull)]
    cases hhead : (throttle.forget nowMs).starts.head? with
    | none =>
      have hnil := head?_eq_none_iff.mp hhead
      rw [hnil] at hfull
      simp only [length_nil] at hfull
      omega
    | some first =>
      have hlate := hkept first hhead
      show throttle.config.windowMs - (nowMs - first) = 0 ↔ _
      omega
  · rw [if_neg (show ¬ (throttle.forget nowMs).config.maxStartsPerWindow ≤ _ from hfull)]
    omega

/-! ## Runs -/

/-- What is done with a throttle: a delay is asked for, or a start recorded. -/
inductive Use where
  | requiredDelayMs (nowMs : Nat) (accountId : String)
  | recordStart (startedAtMs : Nat)

/-- A throttle in use: every start recorded, oldest first, the time of its last use, and whether that
was to ask for a delay, and there was none. -/
structure InUse where
  throttle : StartupThrottle
  recorded : List Nat
  usedAt : Nat
  free : Bool
deriving DecidableEq

def fresh (throttle : StartupThrottle) : InUse := ⟨throttle, [], 0, false⟩

namespace InUse

def step (used : InUse) : Use → Option InUse
  | .requiredDelayMs nowMs accountId => do
    let delay ← used.throttle.requiredDelayMs nowMs accountId
    if nowMs < used.usedAt then none
    else some { used with throttle := used.throttle.forget nowMs, usedAt := nowMs, free := delay = 0 }
  | .recordStart startedAtMs =>
    if startedAtMs < used.usedAt || !used.free then none
    else some
      { throttle := used.throttle.recordStart startedAtMs, recorded := used.recorded ++ [startedAtMs]
        usedAt := startedAtMs, free := false }

/-- How many starts were recorded in the window from `t` on. -/
def startsWithin (used : InUse) (t windowMs : Nat) : Nat :=
  (used.recorded.filter fun startedAt => t ≤ startedAt && startedAt < t + windowMs).length

structure Kept (config : StartupThrottleConfig) (used : InUse) : Prop where
  configured : used.throttle.config = config
  kept : ∃ passed, used.recorded = passed ++ used.throttle.starts ∧
    ∀ startedAt ∈ passed, startedAt + config.windowMs ≤ used.usedAt
  past : ∀ startedAt ∈ used.recorded, startedAt ≤ used.usedAt
  room : used.throttle.starts.length ≤ config.maxStartsPerWindow
  spaced : used.recorded.Pairwise fun earlier later => earlier + config.minSpacingMs ≤ later
  rate : ∀ t, used.startsWithin t config.windowMs ≤ config.maxStartsPerWindow
  free : used.free = true → used.throttle.starts.length < config.maxStartsPerWindow ∧
    ∀ startedAt ∈ used.recorded, startedAt + config.minSpacingMs ≤ used.usedAt

variable {config : StartupThrottleConfig} {used used' : InUse}

theorem Kept.far (h : Kept config used) (hspacing : config.minSpacingMs ≤ config.windowMs) (hlat : used.usedAt ≤ nowMs)
    (hwait : (used.throttle.forget nowMs).spacingDelay nowMs ≤ delay) :
    ∀ startedAt ∈ used.recorded, startedAt + config.minSpacingMs ≤ nowMs + delay := by
  obtain ⟨passed, hrecd, hpass⟩ := h.kept
  obtain ⟨dropped, hstar, hdrpd, -⟩ := used.throttle.forget_starts nowMs
  have hpast := h.past
  have hspaced := h.spaced
  rw [hrecd, hstar] at hpast hspaced ⊢
  rw [h.configured] at hdrpd
  intro startedAt hmem
  rcases mem_append.mp hmem with hmem | hmem
  · have := hpass startedAt hmem
    omega
  rcases mem_append.mp hmem with hmem | hmem
  · have hle := hpast startedAt (by simp [hmem])
    have := hdrpd startedAt hmem
    omega
  · -- what is kept is not past the last of it
    have hsrt := (pairwise_append.mp (pairwise_append.mp hspaced).2.1).2.1
    obtain ⟨before, last, hlast⟩ := (eq_nil_or_concat _).resolve_left (ne_nil_of_mem hmem)
    rw [concat_eq_append] at hlast
    have hle := hpast last (by simp [hlast])
    unfold spacingDelay at hwait
    rw [hlast, getLast?_concat] at hwait
    have hwait : used.throttle.config.minSpacingMs - (nowMs - last) ≤ delay := hwait
    rw [h.configured] at hwait
    rw [hlast] at hmem hsrt
    rcases mem_append.mp hmem with hmem | hmem
    · have := (pairwise_append.mp hsrt).2.2 startedAt hmem last mem_cons_self
      omega
    · rw [mem_singleton.mp hmem]
      omega

/-! ### Steps -/

theorem step_requiredDelayMs (h : used.step (.requiredDelayMs nowMs accountId) = some used') :
    ∃ delay, used.throttle.requiredDelayMs nowMs accountId = some delay ∧ used.usedAt ≤ nowMs ∧
      used' = { used with throttle := used.throttle.forget nowMs, usedAt := nowMs, free := delay = 0 } := by
  obtain ⟨delay, hdelay, h⟩ := bind_eq_some_iff.mp h
  split at h
  · cases h
  · exact ⟨delay, hdelay, by omega, (some.inj h).symm⟩

variable {startedAtMs : Nat}

theorem step_recordStart (h : used.step (.recordStart startedAtMs) = some used') :
    used.usedAt ≤ startedAtMs ∧ used.free = true ∧
      used' = ⟨used.throttle.recordStart startedAtMs, used.recorded ++ [startedAtMs], startedAtMs, false⟩ := by
  simp only [step] at h
  split at h
  · cases h
  rename_i hguard
  simp only [Bool.or_eq_true, decide_eq_true_eq, Bool.not_eq_true', not_or, Bool.not_eq_false] at hguard
  exact ⟨by omega, hguard.2, (some.inj h).symm⟩

/-- A start more where there is room: none is pushed out. -/
theorem recordStart_starts (h : throttle.starts.length < throttle.config.maxStartsPerWindow) :
    (throttle.recordStart startedAtMs).starts = throttle.starts ++ [startedAtMs] := by
  unfold recordStart
  dsimp only
  rw [length_append, length_singleton, show throttle.starts.length + 1 - throttle.config.maxStartsPerWindow = 0 by omega,
    drop_zero]

theorem Kept.rate_start (h : Kept config used) (hroom : used.throttle.starts.length < config.maxStartsPerWindow)
    (hlat : used.usedAt ≤ startedAtMs) (t : Nat) :
    ((used.recorded ++ [startedAtMs]).filter fun startedAt => t ≤ startedAt && startedAt < t + config.windowMs).length
      ≤ config.maxStartsPerWindow := by
  rw [filter_append, length_append]
  by_cases hinsi : t ≤ startedAtMs ∧ startedAtMs < t + config.windowMs
  · obtain ⟨passed, hrecd, hpass⟩ := h.kept
    have hnone : passed.filter (fun startedAt => t ≤ startedAt && startedAt < t + config.windowMs) = [] := by
      rw [filter_eq_nil_iff]
      intro startedAt hmem hwthn
      have := hpass startedAt hmem
      rw [Bool.and_eq_true, decide_eq_true_eq, decide_eq_true_eq] at hwthn
      omega
    rw [hrecd, filter_append, hnone, nil_append]
    have hkept := length_filter_le (fun startedAt => t ≤ startedAt && startedAt < t + config.windowMs) used.throttle.starts
    have hone := length_filter_le (fun startedAt => t ≤ startedAt && startedAt < t + config.windowMs) [startedAtMs]
    rw [length_singleton] at hone
    omega
  · have hnone : [startedAtMs].filter (fun startedAt => t ≤ startedAt && startedAt < t + config.windowMs) = [] := by
      rw [filter_eq_nil_iff]
      intro startedAt hmem hwthn
      rw [mem_singleton.mp hmem, Bool.and_eq_true, decide_eq_true_eq, decide_eq_true_eq] at hwthn
      exact hinsi hwthn
    rw [hnone, length_nil, add_zero]
    exact h.rate t

/-- A delay forgets the starts that have left the window; a start is recorded where there is room. -/
theorem Kept.step (hspacing : config.minSpacingMs ≤ config.windowMs) (hpos : 0 < config.maxStartsPerWindow) {use : Use}
    (h : Kept config used) (hstep : used.step use = some used') : Kept config used' := by
  cases use with
  | requiredDelayMs nowMs =>
    obtain ⟨delay, hdelay, hlat, rfl⟩ := step_requiredDelayMs hstep
    obtain ⟨passed, hrecd, hpass⟩ := h.kept
    obtain ⟨dropped, hstar, hdrpd, -⟩ := used.throttle.forget_starts nowMs
    rw [h.configured] at hdrpd
    have hpast := h.past
    -- what is dropped now joins what has left the window before
    refine ⟨h.configured, ⟨passed ++ dropped, ?_, ?_⟩, ?_, ?_, h.spaced, h.rate, ?_⟩
    · rw [append_assoc, ← hstar]
      exact hrecd
    · intro startedAt hmem
      rcases mem_append.mp hmem with hmem | hmem
      · have := hpass startedAt hmem
        show startedAt + config.windowMs ≤ nowMs
        omega
      · have hle := hpast startedAt (by rw [hrecd, hstar]; simp [hmem])
        have := hdrpd startedAt hmem
        show startedAt + config.windowMs ≤ nowMs
        omega
    · intro startedAt hmem
      exact le_trans (hpast startedAt hmem) hlat
    · have hroom := h.room
      rw [hstar, length_append] at hroom
      show (used.throttle.forget nowMs).starts.length ≤ config.maxStartsPerWindow
      omega
    · intro hfree
      have hnone := requiredDelayMs_some hdelay
      rw [show delay = 0 from of_decide_eq_true hfree, delayMs_eq_zero_iff, windowDelay_forget (by rw [h.configured]; exact hpos),
        h.configured] at hnone
      exact ⟨hnone.2, h.far hspacing hlat (le_of_eq hnone.1)⟩
  | recordStart startedAtMs =>
    obtain ⟨hlat, hfree, rfl⟩ := step_recordStart hstep
    obtain ⟨hroom, hfar⟩ := h.free hfree
    obtain ⟨passed, hrecd, hpass⟩ := h.kept
    have hstar : (used.throttle.recordStart startedAtMs).starts = _ := recordStart_starts (h.configured ▸ hroom)
    refine ⟨h.configured, ⟨passed, ?_, ?_⟩, ?_, ?_, ?_, h.rate_start hroom hlat, ?_⟩
    · show used.recorded ++ [startedAtMs] = passed ++ (used.throttle.recordStart startedAtMs).starts
      rw [hstar, hrecd, append_assoc]
    · intro startedAt hmem
      exact le_trans (hpass startedAt hmem) hlat
    · intro startedAt hmem
      rcases mem_append.mp hmem with hmem | hmem
      · exact le_trans (h.past startedAt hmem) hlat
      · rw [mem_singleton.mp hmem]
    · show (used.throttle.recordStart startedAtMs).starts.length ≤ config.maxStartsPerWindow
      rw [hstar, length_append, length_singleton]
      exact hroom
    · refine pairwise_append.mpr ⟨h.spaced, pairwise_singleton _ _, ?_⟩
      intro startedAt hmem last hlast
      rw [mem_singleton.mp hlast]
      exact le_trans (hfar startedAt hmem) hlat
    · intro hfree
      cases hfree

/-! ### Waiting -/

/-- Nothing is started. -/
def Idle (_ : InUse) (use : Use) : Prop := ∀ startedAtMs, use ≠ .recordStart startedAtMs

/-- While nothing is started the throttle only forgets. -/
theorem idle_run (h : Reaches step Idle used used') :
    used'.recorded = used.recorded ∧ used'.throttle.config = used.throttle.config ∧
      ∃ passed, used.throttle.starts = passed ++ used'.throttle.starts := by
  induction h with
  | refl => exact ⟨rfl, rfl, [], rfl⟩
  | @step mid used' use _ hidle hstep ih =>
    obtain ⟨hrecd, hconfig, passed, hstar⟩ := ih
    cases use with
    | recordStart startedAtMs => exact absurd rfl (hidle startedAtMs)
    | requiredDelayMs nowMs =>
      obtain ⟨_, -, -, rfl⟩ := step_requiredDelayMs hstep
      obtain ⟨dropped, hdrpd, -⟩ := mid.throttle.forget_starts nowMs
      refine ⟨hrecd, hconfig, passed ++ dropped, ?_⟩
      rw [append_assoc, ← hdrpd]
      exact hstar

/-- **The delay is long enough**: whoever waits for it, while nothing is started, waits no more. -/
theorem Kept.waited (h : Kept config used) (hwindow : config.windowMs ≤ u64Max) (hspacing : config.minSpacingMs ≤ config.windowMs)
    (hpos : 0 < config.maxStartsPerWindow) {waited : InUse} (hdelay : used.throttle.requiredDelayMs nowMs accountId = some delay)
    (hask : used.step (.requiredDelayMs nowMs accountId) = some used') (hidle : Reaches InUse.step Idle used' waited)
    (hlat : nowMs + delay ≤ later) (other : String) : waited.throttle.requiredDelayMs later other = some 0 := by
  have hkept := h.step hspacing hpos hask
  obtain ⟨_, -, hnow, rfl⟩ := step_requiredDelayMs hask
  obtain ⟨hrecd, hconfig, passed, hpass⟩ := idle_run hidle
  obtain ⟨dropped, hdrpd, -, hfs⟩ := waited.throttle.forget_starts later
  have hconfigured : waited.throttle.config = config := hconfig.trans h.configured
  have hwaits : (used.throttle.forget nowMs).spacingDelay nowMs ≤ (used.throttle.forget nowMs).delayMs nowMs accountId ∧ _ :=
    waits_le_delayMs (h.configured ▸ hwindow) (h.configured ▸ hspacing)
  rw [requiredDelayMs_some hdelay] at hwaits
  have hstar : (used.throttle.forget nowMs).starts = passed ++ (dropped ++ (waited.throttle.forget later).starts) := by
    rw [← hdrpd]
    exact hpass
  obtain ⟨before, hbef, -⟩ := hkept.kept
  have hbef : used.recorded = before ++ (used.throttle.forget nowMs).starts := hbef
  refine requiredDelayMs_zero (delayMs_eq_zero_iff.mpr ⟨?_, (windowDelay_forget (hconfigured ▸ hpos)).mpr ?_⟩)
  -- the last start is far enough back
  · have hfar := h.far hspacing hnow hwaits.1
    unfold spacingDelay
    cases hlast : (waited.throttle.forget later).starts.getLast? with
    | none => rfl
    | some last =>
      have hmem := mem_of_getLast? hlast
      have := hfar last (by rw [hbef, hstar]; simp [hmem])
      show waited.throttle.config.minSpacingMs - (later - last) = 0
      rw [hconfigured]
      omega
  · -- were the window full still, its first start would be the one the delay has waited for
    rw [hconfigured]
    by_contra hfull
    have hroom : (used.throttle.forget nowMs).starts.length ≤ config.maxStartsPerWindow := hkept.room
    have hlng := congrArg length hstar
    rw [length_append, length_append] at hlng
    have hpass : passed = [] := length_eq_zero_iff.mp (by omega)
    have hdrpd : dropped = [] := length_eq_zero_iff.mp (by omega)
    rw [hpass, hdrpd, nil_append, nil_append] at hstar
    cases hhead : (waited.throttle.forget later).starts.head? with
    | none =>
      rw [head?_eq_none_iff.mp hhead] at hfull
      simp only [length_nil] at hfull
      omega
    | some first =>
      have hlate := hfs first hhead
      have hpast := hkept.past first (by
        show first ∈ used.recorded
        rw [hbef, hstar]
        simp [mem_of_head? hhead])
      have hpast : first ≤ nowMs := hpast
      have hroomy := hwaits.2
      unfold windowDelay at hroomy
      have hfull : (used.throttle.forget nowMs).config.maxStartsPerWindow ≤ (waited.throttle.forget later).starts.length := by
        show used.throttle.config.maxStartsPerWindow ≤ _
        rw [h.configured]
        omega
      rw [hstar, if_pos hfull, hhead] at hroomy
      have hroomy : used.throttle.config.windowMs - (nowMs - first) ≤ delay := hroomy
      rw [hconfigured] at hlate
      rw [h.configured] at hroomy
      omega

/-- The fields of a configuration are `u64`. -/
def InRange (config : StartupThrottleConfig) : Prop := config.windowMs ≤ u64Max

theorem new_some {throttle : StartupThrottle} (h : StartupThrottle.new config = some throttle) :
    throttle = ⟨config, []⟩ ∧ 0 < config.maxStartsPerWindow ∧ config.minSpacingMs ≤ config.windowMs := by
  unfold StartupThrottle.new at h
  split at h
  · cases h
  rename_i hval
  simp only [Bool.or_eq_true, decide_eq_true_eq, not_or] at hval
  exact ⟨(some.inj h).symm, by omega, by omega⟩

theorem Kept.fresh (config : StartupThrottleConfig) : Kept config (StartupThrottle.fresh ⟨config, []⟩) where
  configured := rfl
  kept := ⟨[], rfl, nofun⟩
  past := nofun
  room := zero_le _
  spaced := .nil
  rate := fun _ => zero_le _
  free := nofun

/-- **Starts are rationed, and a wait is never in vain.** In every run no window holds more starts than
are allowed, and any two are the least spacing apart; and whoever is told a delay and waits for it, while
nothing is started, is told next that there is none. -/
theorem startup_throttled (hnew : StartupThrottle.new config = some throttle) (hrange : InRange config)
    (h : Reaches InUse.step always throttle.fresh used) :
    (∀ t, used.startsWithin t config.windowMs ≤ config.maxStartsPerWindow) ∧
    (used.recorded.Pairwise fun earlier later => earlier + config.minSpacingMs ≤ later) ∧
    ∀ nowMs accountId delay asked waited later, used.throttle.requiredDelayMs nowMs accountId = some delay →
      used.step (.requiredDelayMs nowMs accountId) = some asked → Reaches InUse.step Idle asked waited →
      nowMs + delay ≤ later → waited.throttle.requiredDelayMs later accountId = some 0 := by
  obtain ⟨rfl, hpos, hspacing⟩ := new_some hnew
  have hkept : Kept config used :=
    h.invariant (Kept config) (Kept.fresh config) fun _ _ _ hkept _ hstep => hkept.step hspacing hpos hstep
  refine ⟨hkept.rate, hkept.spaced, fun nowMs accountId delay asked waited later hdelay hask hidle hlat => ?_⟩
  exact hkept.waited hrange hspacing hpos hdelay hask hidle hlat accountId

/-- Two starts in a window of ten seconds, and a third account that waits for it to pass. -/
theorem startup_throttled_twice : ∃ used : InUse, used.recorded = [1000, 2100] ∧ used.startsWithin 1000 10000 = 2 ∧
    used.throttle.requiredDelayMs 3000 "account-c" = some 8024 ∧
    ∃ asked : InUse, used.step (.requiredDelayMs 3000 "account-c") = some asked ∧
      asked.throttle.requiredDelayMs (3000 + 8024) "account-c" = some 0 := by
  let config : StartupThrottleConfig := ⟨10000, 2, 1000, 100⟩
  let uses : List Use := [.requiredDelayMs 1000 "account-a", .recordStart 1000, .requiredDelayMs 2100 "account-b", .recordStart 2100]
  let used : InUse := ⟨⟨config, [1000, 2100]⟩, [1000, 2100], 2100, false⟩
  have hexec : exec InUse.step (fun _ _ => true) (StartupThrottle.fresh ⟨config, []⟩) uses = some used := by decide +kernel
  have hrun := reaches_exec hexec
  have hrange : InRange config := by
    show 10000 ≤ u64Max
    decide
  have hthrottled := startup_throttled rfl hrange hrun
  have hdelay : used.throttle.requiredDelayMs 3000 "account-c" = some 8024 := by decide +kernel
  let asked : InUse := ⟨⟨config, [1000, 2100]⟩, [1000, 2100], 3000, false⟩
  have hask : used.step (.requiredDelayMs 3000 "account-c") = some asked := by decide +kernel
  exact ⟨used, rfl, by decide, hdelay, asked, hask, hthrottled.2.2 3000 "account-c" 8024 asked asked _ hdelay hask .refl (le_refl _)⟩

end InUse

end StartupThrottle

end MarketLens.VmAgent
