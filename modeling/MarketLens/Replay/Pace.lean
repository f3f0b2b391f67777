import Mathlib.Algebra.Order.Archimedean.Basic
import MarketLens.Lib.Run

/-!
# The pace of a playback

While a session plays its actor wakes up once a second, measures the time since it
last did, and asks for as many replay intervals as that is at the speed. Each wake-up
rounds to whole intervals and measures the next time from its own, so what it has
rounded is not made up for. Times are in seconds.
-/

namespace MarketLens.Replay

open Runs

/-! ## The clock of an actor -/

/-- `math.Round`: halves away from zero. -/
def mathRound (value : ℚ) : ℤ := if value < 0 then -⌊-value + 1 / 2⌋ else ⌊value + 1 / 2⌋

/-- Sixteen milliseconds, the least delay of a timer. -/
def leastDelay : ℚ := 16 / 1000

/-- `replayClockCadence`. -/
def replayClockCadence (speed : ℚ) : ℚ := if 1 ≤ speed then 1 else 1 / speed

/-- `replayClockStepCount`. -/
def replayClockStepCount (speed elapsed : ℚ) : ℤ :=
  if speed < 1 then 1
  else
    let seconds := if 0 < elapsed then elapsed else 1
    min (max (mathRound (speed * seconds)) 1) 100

/-- What the actor knows of its session and of the time: the anchor elapsed time is measured from, and
when its timer goes off. -/
structure ActorClock where
  playing : Bool
  speed : ℚ
  clockAnchor : Option ℚ
  timer : Option ℚ

namespace ActorClock

section
variable (clock : ActorClock)

/-- `resetTimersAfter`, at a time. -/
def resetTimersAfter (elapsed now : ℚ) : ActorClock :=
  { clock with
    timer := if clock.playing then some (now + max (replayClockCadence clock.speed - elapsed) leastDelay) else none }

/-- The branch of `run` for a command that has been applied: the session as it is then, and the time. -/
def command (playing : Bool) (speed now : ℚ) : ActorClock :=
  let startedFastPacedPlayback := !clock.playing && playing && 1 ≤ speed
  let clockAnchor :=
    if !playing then none
    else if startedFastPacedPlayback then some (now - 1)
    else if !clock.playing || clock.speed ≠ speed then some now
    else clock.clockAnchor
  let next : ActorClock := { clock with playing, speed, clockAnchor }
  if startedFastPacedPlayback then next.resetTimersAfter (replayClockCadence speed - leastDelay) now
  else next.resetTimersAfter 0 now

/-- What a tick measures. -/
def elapsed (startedAt : ℚ) : ℚ :=
  match clock.clockAnchor with
  | none => 1
  | some anchor => startedAt - anchor

/-- How many intervals a tick asks for. -/
def count (startedAt : ℚ) : ℤ := replayClockStepCount clock.speed (clock.elapsed startedAt)

/-- The branch of `run` for a tick: the session as it is after the clock step, if that has been applied. -/
def tick (startedAt finishedAt : ℚ) (applied : Option (Bool × ℚ)) : ActorClock :=
  let next : ActorClock :=
    match applied with
    | none => clock
    | some (playing, speed) => { clock with playing, speed, clockAnchor := if playing then some startedAt else none }
  next.resetTimersAfter (finishedAt - startedAt) finishedAt

end

end ActorClock

/-! ## A playback at one speed -/

/-- A playback: its clock, when it started and last ticked, what the last tick measured, and how many
intervals have been asked for. -/
structure PacedPlayback where
  clock : ActorClock
  startedAt : ℚ
  tickedAt : Option ℚ
  elapsed : ℚ
  requested : ℤ

/-- A session that stands still is played. -/
def PacedPlayback.start (speed startedAt : ℚ) : PacedPlayback where
  clock := (⟨false, speed, none, none⟩ : ActorClock).command true speed startedAt
  startedAt := startedAt
  tickedAt := none
  elapsed := 0
  requested := 0

/-- When a tick begins and when it is done. -/
structure TickTime where
  startedAt : ℚ
  finishedAt : ℚ

/-- A tick, once the timer has gone off, however late: the session plays on at its speed. -/
def PacedPlayback.step (playback : PacedPlayback) (time : TickTime) : Option PacedPlayback :=
  if playback.clock.timer.any (time.startedAt < ·) || time.finishedAt < time.startedAt then none
  else some
    { clock := playback.clock.tick time.startedAt time.finishedAt (some (true, playback.clock.speed))
      startedAt := playback.startedAt
      tickedAt := some time.startedAt
      elapsed := playback.clock.elapsed time.startedAt
      requested := playback.requested + playback.clock.count time.startedAt }

/-- The intervals asked for are those of the time gone by, but for one and those of the last tick. -/
def PacedPlayback.KeepsPace (playback : PacedPlayback) : Prop :=
  ∀ tickedAt ∈ playback.tickedAt,
    |(playback.requested : ℚ) - playback.clock.speed * (tickedAt - playback.startedAt)| < 1 + playback.clock.speed * playback.elapsed

/-- The first tick comes this long after the start, and the time from one tick to the next is one of these; and
no tick asks for more than a clock step may. -/
def Scheduled (first : ℚ) (gaps : Set ℚ) (playback : PacedPlayback) (time : TickTime) : Prop :=
  (match playback.tickedAt with
    | none => time.startedAt = playback.startedAt + first
    | some tickedAt => time.startedAt - tickedAt ∈ gaps) ∧
  mathRound (playback.clock.speed * playback.clock.elapsed time.startedAt) ≤ 100

/-- Every playback at the speed with such ticks keeps its pace. -/
def KeepsPaceAlways (speed begunAt first : ℚ) (gaps : Set ℚ) : Prop :=
  ∀ playback, Reaches PacedPlayback.step (Scheduled first gaps) (PacedPlayback.start speed begunAt) playback →
    playback.KeepsPace

/-! ## What is rounded -/

section Rounding

variable {value : ℚ}

theorem mathRound_of_nonneg (h : 0 ≤ value) : mathRound value = ⌊value + 1 / 2⌋ := if_neg (not_lt.mpr h)

theorem abs_mathRound_sub_le (h : 0 ≤ value) : |(mathRound value : ℚ) - value| ≤ 1 / 2 := by
  rw [mathRound_of_nonneg h, abs_le]
  have hle := Int.floor_le (value + 1 / 2)
  have hlt := Int.lt_floor_add_one (value + 1 / 2)
  constructor <;> linarith

theorem mathRound_intCast (h : 0 ≤ value) : (mathRound value : ℚ) = value ↔ ∃ n : ℤ, value = n := by
  constructor
  · intro heq
    exact ⟨mathRound value, heq.symm⟩
  · rintro ⟨n, rfl⟩
    have hfloor : ⌊((n : ℚ) + 1 / 2)⌋ = n := by
      rw [Int.floor_eq_iff]
      constructor <;> linarith
    rw [mathRound_of_nonneg h, hfloor]

theorem one_le_mathRound (h : 1 ≤ value) : 1 ≤ mathRound value := by
  rw [mathRound_of_nonneg (by linarith), Int.le_floor]
  linarith

/-- A tick that is not clamped asks for what it measures, rounded. -/
theorem replayClockStepCount_eq {speed elapsed : ℚ} (hspd : 1 ≤ speed) (helapsed : 1 ≤ elapsed)
    (hcnt : mathRound (speed * elapsed) ≤ 100) : replayClockStepCount speed elapsed = mathRound (speed * elapsed) := by
  have hproduct : 1 ≤ speed * elapsed := one_le_mul_of_one_le_of_one_le hspd helapsed
  have hone := one_le_mathRound hproduct
  have hpos : 0 < elapsed := by linarith
  simp only [replayClockStepCount, if_neg (not_lt.mpr hspd), if_pos hpos]
  rw [max_eq_left hone, min_eq_left hcnt]

end Rounding

/-! ## Runs -/

section Runs

variable {speed begunAt first gap : ℚ} {gaps : Set ℚ} {playback playback' : PacedPlayback} {time : TickTime}

structure Playing (speed begunAt : ℚ) (playback : PacedPlayback) : Prop where
  playing : playback.clock.playing = true
  steady : playback.clock.speed = speed
  begun : playback.startedAt = begunAt
  fresh : playback.tickedAt = none → playback.clock.clockAnchor = some (begunAt - 1) ∧ playback.requested = 0
  due : ∀ tickedAt, playback.tickedAt = some tickedAt → playback.clock.clockAnchor = some tickedAt ∧
    ∃ due ∈ playback.clock.timer, tickedAt + 1 ≤ due

theorem Playing.start (hspd : 1 ≤ speed) (begunAt : ℚ) : Playing speed begunAt (PacedPlayback.start speed begunAt) where
  playing := by simp [PacedPlayback.start, ActorClock.command, ActorClock.resetTimersAfter, hspd]
  steady := by simp [PacedPlayback.start, ActorClock.command, ActorClock.resetTimersAfter, hspd]
  begun := rfl
  fresh := by
    intro _
    simp [PacedPlayback.start, ActorClock.command, ActorClock.resetTimersAfter, hspd]
  due := by
    intro tickedAt h
    cases h

theorem Playing.tick (hspd : 1 ≤ speed) (h : Playing speed begunAt playback) (hstep : playback.step time = some playback') :
    Playing speed begunAt playback' ∧ playback'.tickedAt = some time.startedAt ∧
      playback'.elapsed = playback.clock.elapsed time.startedAt ∧
      playback'.requested = playback.requested + replayClockStepCount speed (playback.clock.elapsed time.startedAt) ∧
      ∀ due ∈ playback.clock.timer, due ≤ time.startedAt := by
  have hcadence : replayClockCadence playback.clock.speed = 1 := by
    rw [h.steady]
    exact if_pos hspd
  unfold PacedPlayback.step at hstep
  split at hstep
  · cases hstep
  rename_i hguard
  rw [Bool.or_eq_true, not_or, decide_eq_true_eq] at hguard
  have hdue : ∀ due ∈ playback.clock.timer, due ≤ time.startedAt := by
    intro due hdue
    by_contra hlate
    rw [hdue] at hguard
    exact hguard.1 (by simpa using hlate)
  have hcnt : playback.clock.count time.startedAt = replayClockStepCount speed (playback.clock.elapsed time.startedAt) := by
    unfold ActorClock.count
    rw [h.steady]
  cases hstep
  refine ⟨⟨rfl, h.steady, h.begun, ?_, ?_⟩, rfl, rfl, congrArg (playback.requested + ·) hcnt, hdue⟩
  · intro hnone
    cases hnone
  · intro tickedAt hticked
    cases hticked
    refine ⟨rfl, time.finishedAt + max (replayClockCadence playback.clock.speed - (time.finishedAt - time.startedAt)) leastDelay,
      rfl, ?_⟩
    have hmax := le_max_left (replayClockCadence playback.clock.speed - (time.finishedAt - time.startedAt)) leastDelay
    linarith

/-! ### Whole gaps -/

/-- The intervals asked for are those of the time gone by and of the second before the start, but for what the
first tick has rounded. -/
def Exact (speed begunAt : ℚ) (playback : PacedPlayback) : Prop :=
  ∀ tickedAt, playback.tickedAt = some tickedAt → 1 ≤ playback.elapsed ∧
    |(playback.requested : ℚ) - speed * (tickedAt - begunAt + 1)| ≤ 1 / 2

theorem Exact.step (hspd : 1 ≤ speed) (hfs : 0 ≤ first)
    (hwho : ∀ gap ∈ gaps, 1 ≤ gap → mathRound (speed * gap) ≤ 100 → ∃ n : ℤ, speed * gap = n) (hplaying : Playing speed begunAt playback)
    (hexact : Exact speed begunAt playback) (hscheduled : Scheduled first gaps playback time)
    (hstep : playback.step time = some playback') : Exact speed begunAt playback' := by
  obtain ⟨-, hticked, helapsed, hreqd, hdue⟩ := hplaying.tick hspd hstep
  obtain ⟨hgap, hcnt⟩ := hscheduled
  rw [hplaying.steady] at hcnt
  intro tickedAt htime
  rw [hticked] at htime
  cases htime
  cases hbef : playback.tickedAt with
  | none =>
    obtain ⟨hanchor, hnone⟩ := hplaying.fresh hbef
    have hmea : playback.clock.elapsed time.startedAt = time.startedAt - begunAt + 1 := by
      unfold ActorClock.elapsed
      rw [hanchor]
      ring
    have hat : time.startedAt = begunAt + first := by
      rw [hbef, hplaying.begun] at hgap
      exact hgap
    have hlong : 1 ≤ time.startedAt - begunAt + 1 := by linarith
    rw [helapsed, hreqd, hnone, hmea, zero_add]
    rw [hmea] at hcnt
    rw [replayClockStepCount_eq hspd hlong hcnt]
    exact ⟨hlong, abs_mathRound_sub_le (mul_nonneg (by linarith) (by linarith))⟩
  | some last =>
    obtain ⟨hanchor, due, hmem, hlate⟩ := hplaying.due last hbef
    have hmea : playback.clock.elapsed time.startedAt = time.startedAt - last := by
      unfold ActorClock.elapsed
      rw [hanchor]
    have hlong : 1 ≤ time.startedAt - last := by
      have := hdue due hmem
      linarith
    have hin : time.startedAt - last ∈ gaps := by
      rw [hbef] at hgap
      exact hgap
    rw [hmea] at hcnt
    have hrnd := (mathRound_intCast (mul_nonneg (by linarith) (by linarith))).mpr (hwho _ hin hlong hcnt)
    rw [helapsed, hreqd, hmea, replayClockStepCount_eq hspd hlong hcnt]
    refine ⟨hlong, ?_⟩
    have hold := (hexact last hbef).2
    push_cast
    rw [hrnd]
    calc |(playback.requested : ℚ) + speed * (time.startedAt - last) - speed * (time.startedAt - begunAt + 1)|
        = |(playback.requested : ℚ) - speed * (last - begunAt + 1)| := congrArg _ (by ring)
      _ ≤ 1 / 2 := hold

/-- The head start of a second is within the intervals of a tick. -/
theorem Exact.keepsPace (hspd : 1 ≤ speed) (hplaying : Playing speed begunAt playback) (hexact : Exact speed begunAt playback) :
    playback.KeepsPace := by
  intro tickedAt hticked
  obtain ⟨hlong, hclose⟩ := hexact tickedAt hticked
  rw [hplaying.steady, hplaying.begun]
  have hmore : speed ≤ speed * playback.elapsed := le_mul_of_one_le_right (by linarith) hlong
  rw [abs_le] at hclose
  rw [abs_lt]
  constructor <;> linarith

/-! ### A gap again and again -/

/-- A playback whose last tick took no time. -/
def ticking (speed begunAt tickedAt elapsed : ℚ) (requested : ℤ) : PacedPlayback :=
  ⟨⟨true, speed, some tickedAt, some (tickedAt + 1)⟩, begunAt, some tickedAt, elapsed, requested⟩

theorem tick_instant (hspd : 1 ≤ speed) (clock : ActorClock) (hsame : clock.speed = speed) (at_ : ℚ) :
    clock.tick at_ at_ (some (true, clock.speed)) = ⟨true, speed, some at_, some (at_ + 1)⟩ := by
  have hcadence : replayClockCadence speed = 1 := if_pos hspd
  have hmax : max (1 : ℚ) leastDelay = 1 := max_eq_left (by unfold leastDelay; norm_num)
  simp only [ActorClock.tick, ActorClock.resetTimersAfter, sub_self, sub_zero, hsame, hcadence, hmax, if_true]

theorem start_clock (hspd : 1 ≤ speed) :
    (PacedPlayback.start speed begunAt).clock = ⟨true, speed, some (begunAt - 1), some (begunAt + leastDelay)⟩ := by
  simp [PacedPlayback.start, ActorClock.command, ActorClock.resetTimersAfter, hspd, replayClockCadence]

theorem start_elapsed (hspd : 1 ≤ speed) : (PacedPlayback.start speed begunAt).clock.elapsed (begunAt + first) = 1 + first := by
  rw [start_clock hspd]
  show begunAt + first - (begunAt - 1) = _
  ring

theorem start_tick (hspd : 1 ≤ speed) (hfs : leastDelay ≤ first) :
    (PacedPlayback.start speed begunAt).step ⟨begunAt + first, begunAt + first⟩ =
      some (ticking speed begunAt (begunAt + first) (1 + first) (replayClockStepCount speed (1 + first))) := by
  have hopen : ¬ (((PacedPlayback.start speed begunAt).clock.timer.any (begunAt + first < ·)
      || decide (begunAt + first < begunAt + first)) = true) := by
    rw [start_clock hspd]
    simpa using hfs
  unfold PacedPlayback.step ticking ActorClock.count
  rw [if_neg hopen, start_elapsed hspd, tick_instant hspd _ (by rw [start_clock hspd])]
  rw [start_clock hspd]
  simp [PacedPlayback.start]

theorem ticking_tick (hspd : 1 ≤ speed) (hgap : 1 ≤ gap) {tickedAt elapsed : ℚ} {requested : ℤ} :
    (ticking speed begunAt tickedAt elapsed requested).step ⟨tickedAt + gap, tickedAt + gap⟩ =
      some (ticking speed begunAt (tickedAt + gap) gap (requested + replayClockStepCount speed gap)) := by
  have helapsed : (ticking speed begunAt tickedAt elapsed requested).clock.elapsed (tickedAt + gap) = gap := by
    show tickedAt + gap - tickedAt = gap
    ring
  have hopen : ¬ (((ticking speed begunAt tickedAt elapsed requested).clock.timer.any (tickedAt + gap < ·)
      || decide (tickedAt + gap < tickedAt + gap)) = true) := by
    simpa [ticking] using hgap
  unfold PacedPlayback.step ActorClock.count
  rw [if_neg hopen, helapsed, tick_instant hspd _ rfl]
  rfl

/-- A playback that comes round again and again after the same time. -/
theorem reaches_ticking (begunAt : ℚ) (hspd : 1 ≤ speed) (hfs : leastDelay ≤ first)
    (hstart : mathRound (speed * (1 + first)) ≤ 100) (hmem : gap ∈ gaps) (hgap : 1 ≤ gap)
    (hcnt : mathRound (speed * gap) ≤ 100) (n : ℕ) :
    ∃ elapsed, elapsed ≤ 1 + first + gap ∧ Reaches PacedPlayback.step (Scheduled first gaps) (PacedPlayback.start speed begunAt)
        (ticking speed begunAt (begunAt + first + n * gap) elapsed
          (mathRound (speed * (1 + first)) + n * mathRound (speed * gap))) := by
  have hpos : 0 ≤ first := by
    unfold leastDelay at hfs
    linarith
  induction n with
  | zero =>
    refine ⟨1 + first, by linarith, ?_⟩
    have hscheduled : Scheduled first gaps (PacedPlayback.start speed begunAt) ⟨begunAt + first, begunAt + first⟩ := by
      refine ⟨rfl, ?_⟩
      rw [start_elapsed hspd, start_clock hspd]
      exact hstart
    have hrun := Reaches.step .refl hscheduled (start_tick hspd hfs)
    rw [replayClockStepCount_eq hspd (by linarith) hstart] at hrun
    simpa using hrun
  | succ n ih =>
    obtain ⟨elapsed, -, hrun⟩ := ih
    refine ⟨gap, by linarith, ?_⟩
    have hmea (tickedAt : ℚ) : (ticking speed begunAt tickedAt elapsed
        (mathRound (speed * (1 + first)) + n * mathRound (speed * gap))).clock.elapsed (tickedAt + gap) = gap := by
      show tickedAt + gap - tickedAt = gap
      ring
    have hscheduled :
        Scheduled first gaps (ticking speed begunAt (begunAt + first + n * gap) elapsed
          (mathRound (speed * (1 + first)) + n * mathRound (speed * gap)))
        ⟨begunAt + first + n * gap + gap, begunAt + first + n * gap + gap⟩ := by
      constructor
      · show begunAt + first + n * gap + gap - (begunAt + first + n * gap) ∈ gaps
        rw [add_sub_cancel_left]
        exact hmem
      · rw [hmea]
        exact hcnt
    have hnext := Reaches.step hrun hscheduled (ticking_tick hspd hgap)
    rw [replayClockStepCount_eq hspd hgap hcnt] at hnext
    -- the times and the steps add up as whole multiples
    have htime : begunAt + first + n * gap + gap = begunAt + first + ((n + 1 : ℕ) : ℚ) * gap := by
      push_cast
      ring
    have hreqd : mathRound (speed * (1 + first)) + n * mathRound (speed * gap) + mathRound (speed * gap)
        = mathRound (speed * (1 + first)) + ((n + 1 : ℕ) : ℤ) * mathRound (speed * gap) := by
      push_cast
      ring
    rwa [htime, hreqd] at hnext

/-- **A playback keeps its pace exactly when the intervals between its ticks are whole ones**: what the first
tick rounds is harmless, what the others round adds up. -/
theorem keepsPace_iff (hspeed : 1 ≤ speed) (hfirst : leastDelay ≤ first) (hstart : mathRound (speed * (1 + first)) ≤ 100) :
    KeepsPaceAlways speed begunAt first gaps ↔
    ∀ gap ∈ gaps, 1 ≤ gap → mathRound (speed * gap) ≤ 100 → ∃ n : ℤ, speed * gap = n := by
  have hpos : 0 ≤ first := by
    unfold leastDelay at hfirst
    linarith
  constructor
  · intro hpace gap hmem hgap hcnt
    rw [← mathRound_intCast (mul_nonneg (by linarith) (by linarith))]
    by_contra hdrift
    -- What one gap rounds is asked for, or not asked for, at every round.
    have hoff : 0 < |(mathRound (speed * gap) : ℚ) - speed * gap| := abs_pos.mpr (sub_ne_zero.mpr hdrift)
    obtain ⟨n, hn⟩ := Archimedean.arch
      (1 + speed * (1 + first + gap) + |(mathRound (speed * (1 + first)) : ℚ) - speed * first|) hoff
    obtain ⟨elapsed, helapsed, hrun⟩ := reaches_ticking begunAt hspeed hfirst hstart hmem hgap hcnt n
    have hkept := hpace _ hrun (begunAt + first + n * gap) rfl
    have hspan : (((mathRound (speed * (1 + first)) + n * mathRound (speed * gap) : ℤ) : ℚ)
        - speed * (begunAt + first + n * gap - begunAt))
        = n * ((mathRound (speed * gap) : ℚ) - speed * gap) + ((mathRound (speed * (1 + first)) : ℚ) - speed * first) := by
      push_cast
      ring
    have hbnd : speed * elapsed ≤ speed * (1 + first + gap) := mul_le_mul_of_nonneg_left helapsed (by linarith)
    have hlarge : (n : ℚ) * |(mathRound (speed * gap) : ℚ) - speed * gap|
        ≤ |n * ((mathRound (speed * gap) : ℚ) - speed * gap) + ((mathRound (speed * (1 + first)) : ℚ) - speed * first)|
          + |(mathRound (speed * (1 + first)) : ℚ) - speed * first| := by
      calc (n : ℚ) * |(mathRound (speed * gap) : ℚ) - speed * gap|
          = |n * ((mathRound (speed * gap) : ℚ) - speed * gap)| := by rw [abs_mul, Nat.abs_cast]
        _ = |n * ((mathRound (speed * gap) : ℚ) - speed * gap) + ((mathRound (speed * (1 + first)) : ℚ) - speed * first)
              - ((mathRound (speed * (1 + first)) : ℚ) - speed * first)| := by rw [add_sub_cancel_right]
        _ ≤ _ := abs_sub _ _
    change |(((mathRound (speed * (1 + first)) + n * mathRound (speed * gap) : ℤ) : ℚ)
        - speed * (begunAt + first + n * gap - begunAt))| < 1 + speed * elapsed at hkept
    rw [hspan] at hkept
    rw [nsmul_eq_mul] at hn
    linarith
  · intro hwho playback hrun
    have hinv : Playing speed begunAt playback ∧ Exact speed begunAt playback := by
      refine hrun.invariant (fun playback => Playing speed begunAt playback ∧ Exact speed begunAt playback) ?_ ?_
      · refine ⟨Playing.start hspeed begunAt, ?_⟩
        intro tickedAt hnone
        cases hnone
      · rintro before time after ⟨hplaying, hexact⟩ hscheduled hstep
        exact ⟨(hplaying.tick hspeed hstep).1, hexact.step hspeed hpos hwho hplaying hscheduled hstep⟩
    exact hinv.2.keepsPace hspeed hinv.1

/-- At a speed of two and ticks on time. -/
theorem keepsPace_double : KeepsPaceAlways 2 0 leastDelay {1} :=
  (keepsPace_iff (by norm_num) le_rfl (by unfold leastDelay; norm_num [mathRound, Int.floor_le_iff])).mpr (by
      intro gap hmem _ _
      rw [Set.mem_singleton_iff] at hmem
      subst hmem
      exact ⟨2, by norm_num⟩)

/-- A speed of one and a half asks for two intervals every second. -/
theorem half_speed_drifts : ∃ playback,
    Reaches PacedPlayback.step (Scheduled leastDelay {1}) (PacedPlayback.start (3 / 2) 0) playback ∧ ¬ playback.KeepsPace := by
  have hspd : (1 : ℚ) ≤ 3 / 2 := by norm_num
  have hone : mathRound (3 / 2 * (1 + leastDelay)) = 2 := by
    unfold mathRound leastDelay
    norm_num [Int.floor_eq_iff]
  have hgap : mathRound (3 / 2 * 1) = 2 := by
    unfold mathRound
    norm_num
  obtain ⟨elapsed, helapsed, hrun⟩ := reaches_ticking 0 hspd (le_refl leastDelay) (by rw [hone]; norm_num)
    (Set.mem_singleton (1 : ℚ)) le_rfl (by rw [hgap]; norm_num) 5
  refine ⟨_, hrun, ?_⟩
  intro hpace
  have hkept := hpace _ rfl
  rw [hone, hgap] at hkept
  change |(((2 : ℤ) + (5 : ℕ) * 2 : ℤ) : ℚ) - 3 / 2 * (0 + leastDelay + (5 : ℕ) * 1 - 0)| < 1 + 3 / 2 * elapsed at hkept
  have hask := (abs_lt.mp hkept).2
  unfold leastDelay at hask helapsed
  push_cast at hask
  linarith

end Runs

end MarketLens.Replay
