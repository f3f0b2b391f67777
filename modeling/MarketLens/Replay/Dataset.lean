import MarketLens.Domain.Text

/-!
# Pinned market data of a replay session

A replay track reads one immutable dataset: the source rows of a symbol at a base
interval, numbered from zero in order of their open time. The queries below are
the four the runtime reads it with.

Times are integers, microseconds since the Unix epoch, the resolution of `timestamptz`.
-/

namespace MarketLens.Replay

open List Bool

def second : Int := 1000000

/-- A row of `replay_dataset_bars`. -/
structure Bar where
  seq : Nat
  openTime : Int
  intervalSeconds : Nat
  «open» : Decimal
  high : Decimal
  low : Decimal
  close : Decimal
  volume : Decimal

/-- A ready dataset: its rows are numbered consecutively and strictly ordered in time. -/
structure Dataset where
  id : Nat
  sourceTimeframe : String
  baseIntervalSeconds : Nat
  bars : List Bar
  nonempty : bars ≠ []
  numbered : ∀ i (h : i < bars.length), bars[i].seq = i
  ascending : bars.Pairwise fun a b => a.openTime < b.openTime
  interval_pos : 0 < baseIntervalSeconds

namespace Dataset

variable (dataset : Dataset)

/-- `row_count`. -/
def rowCount : Nat := dataset.bars.length

/-- `first_time`. -/
def firstTime : Int := (dataset.bars.head dataset.nonempty).openTime

/-- `last_time`. -/
def lastTime : Int := (dataset.bars.getLast dataset.nonempty).openTime

/-- The end of the last row, the first instant the dataset says nothing about. -/
def availableEnd : Int := dataset.lastTime + dataset.baseIntervalSeconds * second

/-- `GetReplayDatasetBarBySeq`. -/
def barBySeq (seq : Nat) : Option Bar := dataset.bars.find? fun bar => bar.seq = seq

/-- `FindReplayDatasetBarAtOrBefore`. -/
def barAtOrBefore (instant : Int) : Option Bar :=
  (dataset.bars.filter fun bar => bar.openTime ≤ instant).getLast?

/-- `ListReplayDatasetBarsThroughSeq`. -/
def barsThroughSeq (seq : Nat) : List Bar := dataset.bars.filter fun bar => bar.seq ≤ seq

/-- `ListReplayDatasetBarsBySeqRange`. -/
def barsBySeqRange (after through : Nat) : List Bar :=
  dataset.bars.filter fun bar => after < bar.seq && bar.seq ≤ through

variable {dataset} {bar other : Bar} {seq : Nat} {instant : Int}

/-! ## Rows by position -/

theorem seq_getElem {i : Nat} (h : i < dataset.bars.length) : dataset.bars[i].seq = i :=
  dataset.numbered i h

section Mem

variable (h : bar ∈ dataset.bars)
include h

/-- A row stands at the position its number gives. -/
theorem getElem?_seq : dataset.bars[bar.seq]? = some bar := by
  obtain ⟨i, hi, rfl⟩ := getElem_of_mem h
  rw [seq_getElem hi]
  exact getElem?_eq_getElem hi

theorem eq_of_seq (hoth : other ∈ dataset.bars) (hseq : bar.seq = other.seq) : bar = other := by
  have hbar := getElem?_seq h
  rw [hseq, getElem?_seq hoth] at hbar
  exact (Option.some.inj hbar).symm

theorem barBySeq_of_mem : dataset.barBySeq bar.seq = some bar := by
  unfold barBySeq
  cases hfind : dataset.bars.find? fun other => other.seq = bar.seq with
  | none =>
    rw [List.find?_eq_none] at hfind
    exact absurd (decide_eq_true rfl) (hfind bar h)
  | some found =>
    have hmem := mem_of_find?_eq_some hfind
    have hfnd := List.find?_some hfind
    have hseq : found.seq = bar.seq := of_decide_eq_true hfnd
    rw [eq_of_seq hmem h hseq]

/-! ## Rows in time -/

/-- The order of the rows is the order of their times. -/
theorem openTime_lt_iff (hoth : other ∈ dataset.bars) : bar.openTime < other.openTime ↔ bar.seq < other.seq := by
  have hsrt : ∀ {a b : Bar}, a ∈ dataset.bars → b ∈ dataset.bars → a.seq < b.seq → a.openTime < b.openTime := by
    intro a b ha hb hlt
    obtain ⟨i, hi, rfl⟩ := getElem_of_mem ha
    obtain ⟨j, hj, rfl⟩ := getElem_of_mem hb
    rw [seq_getElem hi, seq_getElem hj] at hlt
    exact (pairwise_iff_getElem.mp dataset.ascending) i j hi hj hlt
  constructor
  · intro hlt
    rcases Nat.lt_trichotomy bar.seq other.seq with hseq | hseq | hseq
    · exact hseq
    · rw [eq_of_seq h hoth hseq] at hlt
      exact absurd hlt (Int.lt_irrefl _)
    · have := hsrt hoth h hseq
      omega
  · exact hsrt h hoth

theorem openTime_le_iff (hoth : other ∈ dataset.bars) : bar.openTime ≤ other.openTime ↔ bar.seq ≤ other.seq := by
  have hlt := openTime_lt_iff hoth h
  constructor
  · intro hle
    omega
  · intro hle
    omega

end Mem

/-- `bar` is the last row that has opened by `instant`. -/
structure LastRowAt (dataset : Dataset) (instant : Int) (bar : Bar) : Prop where
  mem : bar ∈ dataset.bars
  opened : bar.openTime ≤ instant
  last : ∀ other ∈ dataset.bars, other.openTime ≤ instant → other.seq ≤ bar.seq

/-- **`FindReplayDatasetBarAtOrBefore` never selects a future row.** -/
theorem barAtOrBefore_spec (h : dataset.barAtOrBefore instant = some bar) : LastRowAt dataset instant bar := by
  have hmem := mem_of_getLast? h
  rw [mem_filter] at hmem
  refine ⟨hmem.1, of_decide_eq_true hmem.2, fun other hoth htime => ?_⟩
  obtain ⟨front, hfrt⟩ := getLast?_eq_some_iff.mp h
  have hin : other ∈ dataset.bars.filter fun bar => bar.openTime ≤ instant :=
    mem_filter.mpr ⟨hoth, decide_eq_true htime⟩
  have hpair := dataset.ascending.filter fun bar => bar.openTime ≤ instant
  rw [hfrt] at hin hpair
  rcases mem_append.mp hin with hin | hin
  · have hlt := (pairwise_append.mp hpair).2.2 other hin bar (mem_singleton.mpr rfl)
    have := (openTime_lt_iff hoth hmem.1).mp hlt
    omega
  · rw [mem_singleton.mp hin]

theorem mem_barsBySeqRange {after through : Nat} :
    bar ∈ dataset.barsBySeqRange after through ↔
      bar ∈ dataset.bars ∧ after < bar.seq ∧ bar.seq ≤ through := by
  unfold barsBySeqRange
  rw [mem_filter, and_eq_true, decide_eq_true_iff, decide_eq_true_iff]

/-- The rows up to a row end with it. -/
theorem barsBySeqRange_last {after : Nat} (h : bar ∈ dataset.bars) (haft : after < bar.seq) :
    ∃ front, dataset.barsBySeqRange after bar.seq = front ++ [bar] := by
  have hin : bar ∈ dataset.barsBySeqRange after bar.seq :=
    mem_barsBySeqRange.mpr ⟨h, haft, Nat.le_refl _⟩
  rcases eq_nil_or_concat (dataset.barsBySeqRange after bar.seq) with hnil | ⟨front, last, hrows⟩
  · rw [hnil] at hin
    cases hin
  · rw [concat_eq_append] at hrows
    have hlast : last ∈ dataset.barsBySeqRange after bar.seq := by
      rw [hrows]
      exact mem_append_right _ mem_cons_self
    obtain ⟨hmem, -, hle⟩ := mem_barsBySeqRange.mp hlast
    have hpair : (dataset.barsBySeqRange after bar.seq).Pairwise fun a b => a.openTime < b.openTime :=
      dataset.ascending.filter _
    rw [hrows] at hin hpair
    -- a row before the last one of the range would open after it
    rcases mem_append.mp hin with hfrt | hsame
    · have hlt := (pairwise_append.mp hpair).2.2 bar hfrt last mem_cons_self
      have := (openTime_lt_iff h hmem).mp hlt
      omega
    · rw [mem_singleton.mp hsame]
      rw [mem_singleton.mp hsame] at hrows
      exact ⟨front, hrows⟩

end Dataset

end MarketLens.Replay
