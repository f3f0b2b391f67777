import MarketLens.Replay.Calendar

/-!
# The stored aggregate of a track

Between commands the aggregate of a track is a JSON text in its row. The text of a
time is RFC 3339 and has no room for a year of more than four digits: such an
aggregate is written as nothing and read as a new one, and the command that finds
it behind the cursor folds the revealed rows again. Every other aggregate is read as
it was written.
-/

namespace MarketLens.Replay

open List Option Nat

/-! ## Times as text -/

/-- The last `width` decimal digits of a number. -/
def writeDigits : Nat → Nat → List Char
  | 0, _ => []
  | width + 1, value => Nat.digitChar (value / 10 ^ width % 10) :: writeDigits width value

def digitValue (c : Char) : Option Nat := if '0' ≤ c ∧ c ≤ '9' then some (c.toNat - '0'.toNat) else none

/-- A number of exactly `width` digits, and what follows it. -/
def readDigits : Nat → List Char → Option (Nat × List Char)
  | 0, rest => some (0, rest)
  | _ + 1, [] => none
  | width + 1, c :: rest => do
    let digit ← digitValue c
    let (value, rest) ← readDigits width rest
    return (digit * 10 ^ width + value, rest)

def expect (c : Char) : List Char → Option (List Char)
  | [] => none
  | head :: rest => if head = c then some rest else none

/-- The fraction of a second, without the zeros it would end with. -/
def writeFraction (micros : Nat) : List Char :=
  if micros = 0 then [] else '.' :: ((writeDigits 6 micros).reverse.dropWhile (· = '0')).reverse

/-- A fraction of a second, if there is one; digits beyond the microseconds are passed over. -/
def readFraction (text : List Char) : Option (Nat × List Char) :=
  match text with
  | '.' :: rest =>
    let digits := rest.takeWhile fun c => (digitValue c).isSome
    if digits = [] then none
    else do
      let (micros, _) ← readDigits 6 (digits ++ ['0', '0', '0', '0', '0', '0'])
      return (micros, rest.dropWhile fun c => (digitValue c).isSome)
  | _ => some (0, text)

/-- How far a zone is ahead of UTC, in seconds. -/
def readZone (text : List Char) : Option Int :=
  match text with
  | ['Z'] => some 0
  | sign :: rest => do
    let (hours, rest) ← readDigits 2 rest
    let rest ← expect ':' rest
    let (minutes, rest) ← readDigits 2 rest
    if rest ≠ [] ∨ 23 < hours ∨ 59 < minutes then none
    else if sign = '+' then some (hours * 3600 + minutes * 60)
    else if sign = '-' then some (-(hours * 3600 + minutes * 60))
    else none
  | [] => none

def yearOf (time : Int) : Int := (monthOfDay (time / second / 86400)).1

/-- `Time.MarshalJSON`, for a time in UTC. -/
def formatTime (time : Int) : Option (List Char) :=
  let day := time / second / 86400
  let clock := time / second % 86400
  if yearOf time < 0 ∨ 9999 < yearOf time then none
  else some (writeDigits 4 (yearOf time).toNat ++ '-' :: (writeDigits 2 (monthOfDay day).2.toNat ++ '-' ::
    (writeDigits 2 (day - monthStart day + 1).toNat ++ 'T' :: (writeDigits 2 (clock / 3600).toNat ++ ':' ::
    (writeDigits 2 (clock / 60 % 60).toNat ++ ':' :: (writeDigits 2 (clock % 60).toNat ++
    (writeFraction (time % second).toNat ++ ['Z'])))))))

def daysIn (year month : Int) : Int :=
  (if month = 12 then firstDayOfMonth (year + 1) 1 else firstDayOfMonth year (month + 1)) - firstDayOfMonth year month

/-- `Time.UnmarshalJSON`. -/
def parseTime (text : List Char) : Option Int := do
  let (year, rest) ← readDigits 4 text
  let rest ← expect '-' rest
  let (month, rest) ← readDigits 2 rest
  let rest ← expect '-' rest
  let (day, rest) ← readDigits 2 rest
  let rest ← expect 'T' rest
  let (hour, rest) ← readDigits 2 rest
  let rest ← expect ':' rest
  let (minute, rest) ← readDigits 2 rest
  let rest ← expect ':' rest
  let (sec, rest) ← readDigits 2 rest
  let (micros, rest) ← readFraction rest
  let ahead ← readZone rest
  if month < 1 ∨ 12 < month ∨ day < 1 ∨ daysIn year month < day ∨ 23 < hour ∨ 59 < minute ∨ 59 < sec then none
  else some (((firstDayOfMonth year month + (day - 1)) * 86400 + (hour * 3600 + minute * 60 + sec) - ahead) * second + micros)

example : formatTime (1767225600 * second) = some "2026-01-01T00:00:00Z".toList := by decide +kernel
example : parseTime "2026-01-01T02:00:00.5+02:00".toList = some (1767225600 * second + 500000) := by decide +kernel

theorem digitValue_digitChar {digit : Nat} (h : digit < 10) : digitValue (Nat.digitChar digit) = some digit := by
  have hall : ∀ digit : Fin 10, digitValue (digitChar digit) = some digit.1 := by decide
  exact hall ⟨digit, h⟩

theorem readDigits_writeDigits (width value : Nat) (rest : List Char) :
    readDigits width (writeDigits width value ++ rest) = some (value % 10 ^ width, rest) := by
  induction width with
  | zero => rw [writeDigits, nil_append, readDigits, pow_zero, mod_one]
  | succ width ih =>
    rw [writeDigits, cons_append, readDigits, digitValue_digitChar (mod_lt _ (by omega)), ih]
    show some (value / 10 ^ width % 10 * 10 ^ width + value % 10 ^ width, rest) = _
    rw [mod_pow_succ, mul_comm, add_comm]

theorem readDigits_bind {α : Type} (width value : Nat) (rest : List Char) (f : Nat × List Char → Option α) :
    (readDigits width (writeDigits width value ++ rest) >>= f) = f (value % 10 ^ width, rest) := by
  rw [readDigits_writeDigits]
  rfl

theorem expect_bind {α : Type} (c : Char) (rest : List Char) (f : List Char → Option α) :
    (expect c (c :: rest) >>= f) = f rest := by
  rw [expect, if_pos rfl]
  rfl

theorem daysIn_monthOfDay (day : Int) : daysIn (monthOfDay day).1 (monthOfDay day).2 = nextMonthStart day - monthStart day := rfl

/-- **A time on a second is read as it was written**, if its year has four digits. -/
theorem parseTime_formatTime {time : Int} (hwho : time % second = 0) (hleast : 0 ≤ yearOf time) (hmost : yearOf time ≤ 9999) :
    (formatTime time).bind parseTime = some time := by
  obtain ⟨year, month, hin⟩ := exists_inMonth (time / second / 86400)
  obtain ⟨hfs, hlast⟩ := hin.number
  obtain ⟨hends, hlng⟩ := hin.ends
  have hstart := monthStart_le (time / second / 86400)
  have hdays := daysIn_monthOfDay (time / second / 86400)
  have hmonthStart : firstDayOfMonth (monthOfDay (time / second / 86400)).1 (monthOfDay (time / second / 86400)).2
      = monthStart (time / second / 86400) := rfl
  have hclock : time = ((time / second / 86400) * 86400 + time / second % 86400) * second := by
    unfold second at hwho ⊢
    omega
  unfold formatTime
  rw [if_neg (by omega), bind_some, hwho]
  unfold yearOf at hleast hmost ⊢
  generalize time / second / 86400 = day at *
  generalize monthOfDay day = named at *
  have hyearRead : ((named.1.toNat % 10 ^ 4 : Nat) : Int) = named.1 := by omega
  have hmonthRead : ((named.2.toNat % 10 ^ 2 : Nat) : Int) = named.2 := by omega
  unfold parseTime
  rw [readDigits_bind]
  dsimp only
  rw [expect_bind, readDigits_bind]
  rw [expect_bind, readDigits_bind]
  rw [expect_bind, readDigits_bind]
  rw [expect_bind, readDigits_bind]
  rw [expect_bind, readDigits_bind]
  rw [hyearRead, hmonthRead]
  have hfraction : ∀ (f : Nat × List Char → Option Int),
      (readFraction (writeFraction (0 : Int).toNat ++ ['Z']) >>= f) = f (0, ['Z']) := fun _ => rfl
  have hzone : ∀ (f : Int → Option Int), (readZone ['Z'] >>= f) = f 0 := fun _ => rfl
  rw [hfraction, hzone, hmonthStart, hdays, if_neg (by omega)]
  refine congrArg some ?_
  unfold second at hclock ⊢
  omega

/-! ## The column -/

/-- A candle in a stored aggregate, its time as text. -/
structure StoredBar where
  time : List Char
  «open» : Decimal
  high : Decimal
  low : Decimal
  close : Decimal
  volume : Decimal
  complete : Bool

/-- What `aggregate_state` holds: nothing, a text that does not decode, or what a text says. -/
inductive StoredAggregate where
  | empty
  | braces
  | unreadable
  | state (version lastSourceSeq : Int) (current : Option StoredBar)

/-- `aggregateStateVersion`. -/
def aggregateStateVersion : Int := 1

def StoredBar.parse (bar : StoredBar) : Option ReplayBar := do
  let time ← parseTime bar.time
  return ⟨time, bar.open, bar.high, bar.low, bar.close, bar.volume, bar.complete⟩

/-- `parseAggregateState`. -/
def parseAggregateState (stored : StoredAggregate) : Option AggregateState :=
  match stored with
  | .empty | .braces => some newAggregateState
  | .unreadable => none
  | .state version lastSourceSeq none =>
    if version ≠ aggregateStateVersion then none else some ⟨lastSourceSeq, none⟩
  | .state version lastSourceSeq (some bar) => do
    let current ← bar.parse
    if version ≠ aggregateStateVersion then none else some ⟨lastSourceSeq, some current⟩

/-- `marshalAggregateState`: an aggregate that cannot be written is nothing. -/
def marshalAggregateState (state : AggregateState) : StoredAggregate :=
  match state.current with
  | none => .state aggregateStateVersion state.lastSourceSeq none
  | some bar =>
    match formatTime bar.time with
    | none => .empty
    | some time => .state aggregateStateVersion state.lastSourceSeq
        (some ⟨time, bar.open, bar.high, bar.low, bar.close, bar.volume, bar.complete⟩)

/-- `currentAggregateState`, of a track with its cursor on the row `cursorSeq`, the last of the revealed ones. -/
def StoredAggregate.currentAggregateState (stored : StoredAggregate) (timeframe : Timeframe) (cursorSeq : Int)
    (revealed : List Bar) : Option AggregateState :=
  match parseAggregateState stored with
  | some read => if read.lastSourceSeq = cursorSeq then some read else (aggregateRevealedBars timeframe revealed).map (·.2)
  | none => (aggregateRevealedBars timeframe revealed).map (·.2)

/-- The candle is of a year that a text can say. -/
def ReplayBar.Writable (bar : ReplayBar) : Prop := 0 ≤ yearOf bar.time ∧ yearOf bar.time ≤ 9999

variable {state : AggregateState}

/-- **An aggregate is read as it was written**, if its year can be. -/
theorem parse_marshal (hwho : ∀ bar, state.current = some bar → bar.time % second = 0)
    (h : ∀ bar, state.current = some bar → bar.Writable) : parseAggregateState (marshalAggregateState state) = some state := by
  obtain ⟨lastSourceSeq, current⟩ := state
  cases current with
  | none => rfl
  | some bar =>
    obtain ⟨hleast, hmost⟩ := h bar rfl
    have hread := parseTime_formatTime (hwho bar rfl) hleast hmost
    obtain ⟨text, htext, htime⟩ := bind_eq_some_iff.mp hread
    unfold marshalAggregateState
    dsimp only
    rw [htext]
    dsimp only [parseAggregateState, StoredBar.parse]
    rw [htime]
    rfl

theorem marshal_unwritable {bar : ReplayBar} (hcurr : state.current = some bar) (h : ¬bar.Writable) :
    marshalAggregateState state = .empty := by
  have hyear : yearOf bar.time < 0 ∨ 9999 < yearOf bar.time := by
    unfold ReplayBar.Writable at h
    omega
  have htext : formatTime bar.time = none := by
    exact if_pos hyear
  unfold marshalAggregateState
  rw [hcurr]
  dsimp only
  rw [htext]

/-- **The aggregate of the rows up to the cursor is found again**, read or folded anew. -/
theorem currentAggregateState_marshal {timeframe : Timeframe} {cursorSeq : Int} {revealed : List Bar}
    (hwho : ∀ bar, state.current = some bar → bar.time % second = 0) (hcsr : state.lastSourceSeq = cursorSeq)
    (hbegun : ∀ bar, state.current = some bar → 0 ≤ cursorSeq)
    (hbat : (aggregateRevealedBars timeframe revealed).map (·.2) = some state) :
    (marshalAggregateState state).currentAggregateState timeframe cursorSeq revealed = some state := by
  unfold StoredAggregate.currentAggregateState
  by_cases h : ∀ bar, state.current = some bar → bar.Writable
  · rw [parse_marshal hwho h]
    dsimp only
    rw [if_pos hcsr]
  · -- What is read instead is a new aggregate, and the cursor is beyond it.
    simp only [not_forall] at h
    obtain ⟨bar, hcurr, hunwritable⟩ := h
    have hbehind : newAggregateState.lastSourceSeq ≠ cursorSeq := by
      have hpos := hbegun bar hcurr
      show (-1 : Int) ≠ cursorSeq
      omega
    rw [marshal_unwritable hcurr hunwritable]
    dsimp only [parseAggregateState]
    rw [if_neg hbehind, hbat]

end MarketLens.Replay
