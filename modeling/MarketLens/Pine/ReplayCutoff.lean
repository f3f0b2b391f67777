import Mathlib.Data.List.Dedup
import MarketLens.Pine.Compile

/-!
# What a replay cutoff hides

Replay shows a script as it was at a moment. `compile_airtight`: nothing of the answer depends
on candles after the cutoff, nothing in it lies after the cutoff, and a line that runs across
it is cut there.
-/

namespace MarketLens.Pine

open List Option Bool Fallible InputCandle

/-! ## The candles a script sees -/

/-- Up to the cutoff the two lists have the same candles of every time, in the same order. -/
def AgreeThrough (cutoff : Int) (candles candles' : List InputCandle) : Prop :=
  ∀ time ≤ cutoff, candles.filter (·.time = time) = candles'.filter (·.time = time)

variable {c : Candle}

theorem candle?_time {candle : InputCandle} (h : candle.candle? = some c) : c.time = candle.time := by
  unfold candle? at h
  split at h
  · cases h
  simp only [Option.bind_eq_bind, Option.bind_eq_some_iff, Option.pure_def, Option.some.injEq] at h
  obtain ⟨_, -, _, -, _, -, _, -, _, -, rfl⟩ := h
  rfl

theorem candleAt_filterMap (candles : List InputCandle) (time : Int) :
    candleAt (candles.filterMap InputCandle.candle?) time
      = ((candles.filter (·.time = time)).filterMap InputCandle.candle?).getLast? := by
  have hfilter : (candles.filter (·.time = time)).filterMap candle? = (candles.filterMap candle?).filter (·.time = time) := by
    rw [filterMap_filter, filter_filterMap]
    refine filterMap_congr fun candle _ => ?_
    cases hcandle : candle.candle? with
    | none => simp
    | some c =>
      have htime := candle?_time hcandle
      rw [← htime]
      by_cases hsame : c.time = time
      · simp [Option.filter, hsame]
      · simp [Option.filter, hsame]
  rw [hfilter, getLast?_filter]
  rfl

theorem candleAt_some {candles : List Candle} {time : Int} (h : candleAt candles time = some c) :
    c ∈ candles ∧ c.time = time := by
  exact ⟨mem_reverse.mp (mem_of_find?_eq_some h), by simpa using find?_some h⟩

theorem mem_normalizeRuntimeCandles {candles : List InputCandle} :
    c ∈ normalizeRuntimeCandles candles ↔ candleAt (candles.filterMap InputCandle.candle?) c.time = some c := by
  unfold normalizeRuntimeCandles
  simp only [List.mem_filterMap, List.mem_insertionSort, List.mem_dedup, List.mem_map]
  constructor
  · rintro ⟨time, -, hc⟩
    rw [(candleAt_some hc).2]
    exact hc
  · intro hc
    exact ⟨c.time, ⟨c, List.mem_filterMap.mp (candleAt_some hc).1, rfl⟩, hc⟩

theorem normalizeRuntimeCandles_sorted (candles : List InputCandle) :
    (normalizeRuntimeCandles candles).Pairwise fun a b => a.time < b.time := by
  unfold normalizeRuntimeCandles
  generalize candles.filterMap candle? = usable
  have htimes : (((usable.map Candle.time).dedup).insertionSort (· ≤ ·)).Pairwise (· < ·) := by
    have hle := pairwise_insertionSort (· ≤ ·) ((usable.map Candle.time).dedup)
    have hndp : (((usable.map Candle.time).dedup).insertionSort (· ≤ ·)).Nodup :=
      (perm_insertionSort (· ≤ ·) _).nodup_iff.mpr (nodup_dedup _)
    exact (hle.and hndp).imp fun ⟨hab, hne⟩ => lt_of_le_of_ne hab hne
  refine pairwise_filterMap.mpr (htimes.imp ?_)
  intro time time' hlt a ha b hb
  rw [(candleAt_some ha).2, (candleAt_some hb).2]
  exact hlt

theorem candlesThroughReplayCutoff_eq {candles : List Candle} (hsrt : candles.Pairwise fun a b => a.time < b.time)
    (cutoff : Int) : candlesThroughReplayCutoff candles cutoff = candles.filter fun candle => candle.time ≤ cutoff := by
  unfold candlesThroughReplayCutoff
  rw [Search.take_search (p := fun candle : Candle => decide (cutoff < candle.time))]
  · refine filter_congr fun candle _ => ?_
    by_cases h : cutoff < candle.time
    · simp [h]
    · simp [h]
      omega
  · refine hsrt.imp fun hlt haft => ?_
    simp only [decide_eq_true_eq] at haft ⊢
    omega

variable {cutoff : Int}

/-- **Lists that agree up to the cutoff are cut to the same candles.** -/
theorem AgreeThrough.cut {candles candles' : List InputCandle} (h : AgreeThrough cutoff candles candles') :
    candlesThroughReplayCutoff (normalizeRuntimeCandles candles) cutoff
      = candlesThroughReplayCutoff (normalizeRuntimeCandles candles') cutoff := by
  have hsrt := normalizeRuntimeCandles_sorted candles
  have hsrt' := normalizeRuntimeCandles_sorted candles'
  rw [candlesThroughReplayCutoff_eq hsrt, candlesThroughReplayCutoff_eq hsrt']
  refine (hsrt.filter _).eq_of_mem_iff (hsrt'.filter _) fun c => ?_
  simp only [mem_filter, mem_normalizeRuntimeCandles, decide_eq_true_eq]
  refine and_congr_left fun hle => ?_
  rw [candleAt_filterMap, candleAt_filterMap, h c.time hle]

section Compile

variable {Context : Type} (evaluators : Evaluators Context) (schedule : Schedule)

/-- The candles reach the compilation through the window alone. -/
theorem compile_congr {req : CompileRequest InputCandle} {candles : List InputCandle}
    (h : ({ req with candles } : CompileRequest InputCandle).cut = req.cut) :
    compile evaluators schedule { req with candles } = compile evaluators schedule req := by
  have hwindowed : ({ req with candles } : CompileRequest InputCandle).windowed = req.windowed := by
    unfold CompileRequest.windowed
    rw [h]
  unfold compile
  rw [h, hwindowed]
  rfl

/-! ## What is left of a drawing -/

/-- What a line drawn through `drawn`, in the order of its times, is cut down to. -/
structure Clipped (cutoff : Int) (interpolates : Bool) (drawn clipped : List LinePoint) : Prop where
  /-- Nothing runs across the cutoff: the points up to it are left. -/
  inside : (∀ previous next, (drawn.filter (·.time ≤ cutoff)).getLast? = some previous →
      (drawn.filter (cutoff < ·.time)).head? = some next → interpolates = true → cutoff ≤ previous.time) →
    clipped = drawn.filter (·.time ≤ cutoff)
  /-- A segment runs across it: it ends at the cutoff, on the segment. -/
  across : ∀ previous next, (drawn.filter (·.time ≤ cutoff)).getLast? = some previous →
    (drawn.filter (cutoff < ·.time)).head? = some next → interpolates = true → previous.time < cutoff →
    ∃ point ratio, clipped = drawn.filter (·.time ≤ cutoff) ++ [point] ∧ point.time = cutoff ∧ 0 ≤ ratio ∧ ratio ≤ 1
      ∧ point.value = previous.value.add ((next.value.sub previous.value).mul (some ratio))
      ∧ (next.time - previous.time < -int64Min →
        ratio = ((cutoff - previous.time : Int) : Decimal) / ((next.time - previous.time : Int) : Decimal))

end Compile

/-- The point a crossing segment ends in, if there is one. -/
def boundary (cutoff : Int) (interpolate : Bool) : Option LinePoint → Option LinePoint → List LinePoint
  | some previous, some next => if interpolate && previous.time < cutoff then [replayBoundaryPoint previous next cutoff] else []
  | _, _ => []

/-- The loop keeps the points up to the cutoff and looks at the two around it. -/
theorem clipPoints_eq (cutoff : Int) (interpolate : Bool) {points : List LinePoint}
    (hsrt : points.Pairwise fun a b => a.time ≤ b.time) (previous : Option LinePoint) :
    clipPoints cutoff interpolate previous points = points.filter (·.time ≤ cutoff)
      ++ boundary cutoff interpolate ((points.filter (·.time ≤ cutoff)).getLast?.or previous)
        (points.filter (cutoff < ·.time)).head? := by
  induction points generalizing previous with
  | nil => cases previous <;> rfl
  | cons point rest ih =>
    rw [pairwise_cons] at hsrt
    unfold clipPoints
    by_cases hinsi : point.time ≤ cutoff
    · have hnot : ¬cutoff < point.time := by omega
      rw [if_pos hinsi, ih hsrt.2, filter_cons_of_pos (by simpa using hinsi),
        filter_cons_of_neg (by simpa using hnot), getLast?_cons, cons_append]
      cases (rest.filter (·.time ≤ cutoff)).getLast? with
      | none | some => rfl
    · -- the points are in order: nothing after this one is inside
      have houtside : ∀ later ∈ point :: rest, ¬later.time ≤ cutoff := by
        intro later hlat
        rcases mem_cons.mp hlat with rfl | hlat
        · exact hinsi
        · have hle := hsrt.1 later hlat
          omega
      have hnone : (point :: rest).filter (·.time ≤ cutoff) = [] := by
        rw [filter_eq_nil_iff]
        intro later hlat
        simpa using houtside later hlat
      have haft : cutoff < point.time := by omega
      rw [if_neg hinsi, hnone, filter_cons_of_pos (by simpa using haft)]
      cases previous with
      | none | some => rfl

theorem replayBoundaryPoint_spec {previous next : LinePoint} (hbef : previous.time < cutoff)
    (haft : cutoff < next.time) : ∃ ratio : Decimal, 0 ≤ ratio ∧ ratio ≤ 1
      ∧ (replayBoundaryPoint previous next cutoff).value = previous.value.add ((next.value.sub previous.value).mul (some ratio))
      ∧ (next.time - previous.time < -int64Min →
        ratio = ((cutoff - previous.time : Int) : Decimal) / ((next.time - previous.time : Int) : Decimal)) := by
  have hoth : ¬next.time = previous.time := by omega
  unfold replayBoundaryPoint
  rw [if_neg hoth]
  refine ⟨_, le_min zero_le_one (le_max_left _ _), min_le_left _ _, rfl, ?_⟩
  intro hfits
  rw [wrap64_eq_self (by omega) (by omega), wrap64_eq_self (by omega) hfits]
  have hpos : (0 : Decimal) < ((next.time - previous.time : Int) : Decimal) := by
    exact_mod_cast (by omega : (0 : Int) < next.time - previous.time)
  have hless : ((cutoff - previous.time : Int) : Decimal) ≤ ((next.time - previous.time : Int) : Decimal) := by
    exact_mod_cast (by omega : cutoff - previous.time ≤ next.time - previous.time)
  have hstart : (0 : Decimal) ≤ ((cutoff - previous.time : Int) : Decimal) := by
    exact_mod_cast (by omega : (0 : Int) ≤ cutoff - previous.time)
  rw [max_eq_right (div_nonneg hstart hpos.le), min_eq_right ((div_le_one hpos).mpr hless)]

def inOrder (data : List LinePoint) : List LinePoint := data.insertionSort fun left right => left.time ≤ right.time

theorem inOrder_sorted (data : List LinePoint) : (inOrder data).Pairwise fun a b => a.time ≤ b.time := by
  exact pairwise_insertionSort _ data

/-- **A line is cut at the cutoff.** -/
theorem clipLinePointsToReplay_clipped (data : List LinePoint) (cutoff : Int) (interpolate : Bool) :
    Clipped cutoff interpolate (inOrder data) (clipLinePointsToReplay data cutoff interpolate) := by
  have heq := clipPoints_eq cutoff interpolate (inOrder_sorted data) none
  rw [or_none] at heq
  have hclip : clipLinePointsToReplay data cutoff interpolate = clipPoints cutoff interpolate none (inOrder data) := rfl
  rw [hclip, heq]
  constructor
  · intro hinsi
    cases hprv : ((inOrder data).filter (·.time ≤ cutoff)).getLast? with
    | none => exact append_nil _
    | some previous =>
      cases hnext : ((inOrder data).filter (cutoff < ·.time)).head? with
      | none => exact append_nil _
      | some next =>
        have hle := hinsi previous next hprv hnext
        have hnot : ¬(interpolate && previous.time < cutoff) = true := by
          intro hcrosses
          simp only [and_eq_true, decide_eq_true_eq] at hcrosses
          have hle := hle hcrosses.1
          omega
        have hnothing : boundary cutoff interpolate (some previous) (some next) = [] := if_neg hnot
        rw [hnothing, append_nil]
  · intro previous next hprv hnext hinterpolates hbef
    have haft : cutoff < next.time := by
      have hmem := mem_of_mem_head? hnext
      simpa using (mem_filter.mp hmem).2
    obtain ⟨ratio, hlow, hhigh, hvalue, hexact⟩ := replayBoundaryPoint_spec hbef haft
    refine ⟨replayBoundaryPoint previous next cutoff, ratio, ?_, ?_, hlow, hhigh, hvalue, hexact⟩
    · have hpoint : boundary cutoff interpolate (some previous) (some next) = [replayBoundaryPoint previous next cutoff] :=
        if_pos (by simp [hinterpolates, hbef])
      rw [hprv, hnext, hpoint]
    · unfold replayBoundaryPoint
      split <;> rfl

/-- Nothing of a cut line is after the cutoff. -/
theorem clipLinePointsToReplay_through {data : List LinePoint} {interpolate : Bool} {point : LinePoint}
    (h : point ∈ clipLinePointsToReplay data cutoff interpolate) : point.time ≤ cutoff := by
  have hclip : clipLinePointsToReplay data cutoff interpolate = clipPoints cutoff interpolate none (inOrder data) := rfl
  rw [hclip, clipPoints_eq cutoff interpolate (inOrder_sorted data), mem_append] at h
  rcases h with hinsi | hboundary
  · simpa using (mem_filter.mp hinsi).2
  · unfold boundary at hboundary
    split at hboundary
    · split at hboundary
      · cases mem_singleton.mp hboundary
        unfold replayBoundaryPoint
        split
        · exact le_rfl
        · exact le_rfl
      · cases hboundary
    · cases hboundary

theorem clamp_some {item clamped : IndicatorSeries} (h : item.clamp cutoff = some clamped) :
    clamped.data = clipLinePointsToReplay item.data cutoff (replaySeriesCanInterpolate item.type) := by
  unfold IndicatorSeries.clamp at h
  dsimp only at h
  split at h
  · cases h
  · cases h
    rfl

/-! ## The whole compilation -/

section Airtight

variable {Context : Type} (evaluators : Evaluators Context) (schedule : Schedule)

/-- What the script draws on its window, before the cutoff is applied to it. -/
def drawnSeries (req : CompileRequest InputCandle) : List IndicatorSeries :=
  match evaluateWindow evaluators schedule req.windowed req.resultId with
  | .ok (result, _, true) =>
    (applyIndicatorOutputPresentation evaluators result (evaluators.extractMeta req.sourceCode) req.styleOverrides).series
  | _ => []

/-- A run that did not finish shows nothing. -/
theorem unfinished_empty {req : CompileRequest Candle} {id : String} {result : IndicatorResult} {errors : List RuntimeError}
    (h : evaluateWindow evaluators schedule req id = .ok (result, errors, false)) :
    result.series = [] ∧ result.labels = [] := by
  unfold evaluateWindow at h
  obtain ⟨handled, -, h⟩ := bind_ok.mp h
  split at h
  · cases h
  obtain ⟨⟨context, lines⟩, -, h⟩ := bind_ok.mp h
  dsimp only at h
  split at h
  · cases h
    exact ⟨rfl, rfl⟩
  · cases h

/-- An answer shows nothing, or what was drawn on the window, clamped. -/
theorem compile_result {req : CompileRequest InputCandle} (hcutoff : req.replayCutoff = some cutoff)
    {response : CompileResponse} (h : compile evaluators schedule req = .ok response) :
    (response.result.series = [] ∧ response.result.labels = [])
      ∨ ∃ drawn : IndicatorResult, drawn.series = drawnSeries evaluators schedule req
        ∧ response.result = clampIndicatorResultToReplay drawn cutoff := by
  unfold compile at h
  dsimp only at h
  split at h
  · cases h
    exact .inl ⟨rfl, rfl⟩
  · split at h
    · cases h
      exact .inl ⟨rfl, rfl⟩
    · split at h
      · cases h
        exact .inl ⟨rfl, rfl⟩
      · split at h
        · cases h
          exact .inl ⟨rfl, rfl⟩
        · obtain ⟨⟨result, errors, finished⟩, hwindow, h⟩ := bind_ok.mp h
          cases h
          cases finished with
          | false => exact .inl (unfinished_empty evaluators schedule hwindow)
          | true =>
            refine .inr ⟨applyIndicatorOutputPresentation evaluators result (evaluators.extractMeta req.sourceCode)
              req.styleOverrides, ?_, ?_⟩
            · unfold drawnSeries
              rw [hwindow]
            · rw [if_pos rfl]
              unfold presentResult
              rw [hcutoff]

/-- **Replay is airtight**: with a cutoff, nothing of the answer depends on the candles after it,
whatever the evaluators are and however they are scheduled; nothing shown is after it; and what
was drawn across it is cut there. -/
theorem compile_airtight (req : CompileRequest InputCandle) {cutoff : Int} (hcutoff : req.replayCutoff = some cutoff) :
    (∀ candles, AgreeThrough cutoff req.candles candles →
      compile evaluators schedule { req with candles } = compile evaluators schedule req)
    ∧ ∀ response, compile evaluators schedule req = .ok response →
      (∀ item ∈ response.result.series, ∀ point ∈ item.data, point.time ≤ cutoff)
      ∧ (∀ label ∈ response.result.labels, ∀ time, label.time = some time → time ≤ cutoff)
      ∧ (response.result.series ≠ [] → response.result.series = (drawnSeries evaluators schedule req).filterMap (·.clamp cutoff))
      ∧ ∀ item ∈ drawnSeries evaluators schedule req, ∀ clamped, item.clamp cutoff = some clamped →
        Clipped cutoff (replaySeriesCanInterpolate item.type) (inOrder item.data) clamped.data := by
  constructor
  · intro candles hagr
    refine compile_congr evaluators schedule ?_
    unfold CompileRequest.cut
    rw [hcutoff]
    exact hagr.cut.symm
  · intro response hresp
    have hclipped : ∀ item ∈ drawnSeries evaluators schedule req, ∀ clamped, item.clamp cutoff = some clamped →
        Clipped cutoff (replaySeriesCanInterpolate item.type) (inOrder item.data) clamped.data := by
      intro item _ clamped hclamped
      rw [clamp_some hclamped]
      exact clipLinePointsToReplay_clipped _ _ _
    rcases compile_result evaluators schedule hcutoff hresp with ⟨hseries, hlabels⟩ | ⟨drawn, hdrawn, hresult⟩
    · rw [hseries, hlabels]
      refine ⟨?_, ?_, fun hsome => absurd rfl hsome, hclipped⟩
      · intro item hitem
        cases hitem
      · intro label hlabel
        cases hlabel
    · rw [hresult]
      refine ⟨?_, ?_, ?_, hclipped⟩
      · intro item hitem point hpoint
        obtain ⟨original, -, hclamped⟩ := mem_filterMap.mp hitem
        rw [clamp_some hclamped] at hpoint
        exact clipLinePointsToReplay_through hpoint
      · intro label hlabel time htime
        have hkept := (mem_filter.mp hlabel).2
        rw [htime] at hkept
        simpa using hkept
      · intro _
        rw [← hdrawn]
        rfl

end Airtight

/-- The evaluators as they run `plot(close)` under a declaration of version five. -/
def plotsCloses : Evaluators Unit where
  extractMeta := fun _ => ⟨"Closes", 5, []⟩
  unsupportedFeatures := fun _ => []
  blockingUnsupportedFeatures := fun _ => []
  unsupportedDeclarationExecutionProperties := fun _ => []
  normalizedIndicatorValueFormat := fun _ => ""
  indicatorOutputPrecision := fun _ _ => none
  normalizeSource := id
  compileStatefulPine := fun _ _ _ => .ok none
  readAssignments := fun _ _ => .ok ((), [])
  readHlines := fun _ _ _ => .ok ([], [])
  readFills := fun _ _ _ _ _ => .ok ([], [])
  readPlots := fun _ _ candles _ => .ok (
    [{ key := "plot_1", color := "#2962ff", data := candles.map fun candle => ⟨candle.time, some candle.close, none⟩
       type := "line", valueFormat := "", lineWidth := some 2, lineStyle := some 0, baseValue := none
       fillBelowBase := none, lastValueVisible := none, statusLineVisible := none, extendToVisibleRange := none
       lineVisible := none, precision := none }], [])
  compileObjectRuntime := fun _ _ _ _ _ => .ok (none, [])

/-- A candle that opens and closes at one price. -/
def flatCandle (time : Int) (price : Decimal) : InputCandle := ⟨time, some price, some price, some price, some price, some 1⟩

/-- `plot(close)` as of the twenty-fifth second. -/
def closesRequest (candles : List InputCandle) : CompileRequest InputCandle :=
  { scriptId := "", sourceCode := "//@version=5\nindicator(\"Closes\")\nplot(close)", timeframe := "1", symbol := ""
    symbolType := "", mintick := some 0, timezone := "", candles, inputOverrides := [], styleOverrides := []
    replayCutoff := some 25 }

/-- Nothing fails and nobody goes. -/
def undisturbed : Schedule := ⟨none, none, []⟩

/-- Other candles after the cutoff, and the ones before it in another order, make no difference. -/
theorem compile_airtight_closes :
    compile plotsCloses undisturbed (closesRequest [flatCandle 40 9, flatCandle 20 2, flatCandle 10 1])
        = compile plotsCloses undisturbed (closesRequest [flatCandle 10 1, flatCandle 20 2, flatCandle 30 3])
      ∧ (compile plotsCloses undisturbed (closesRequest [flatCandle 10 1, flatCandle 20 2, flatCandle 30 3])).toOption.any
          (fun response => response.result.series.all fun item => item.data.all fun point => point.time ≤ 25) = true := by
  have hagr : AgreeThrough 25 (closesRequest [flatCandle 10 1, flatCandle 20 2, flatCandle 30 3]).candles
      [flatCandle 40 9, flatCandle 20 2, flatCandle 10 1] := by
    intro time htime
    have hlat : ¬(30 : Int) = time ∧ ¬(40 : Int) = time := by omega
    by_cases hfs : (10 : Int) = time
    · simp [closesRequest, flatCandle, ← hfs]
    · simp [closesRequest, flatCandle, filter_cons, hlat, hfs]
  obtain ⟨hsame, hshn⟩ := compile_airtight plotsCloses undisturbed
    (closesRequest [flatCandle 10 1, flatCandle 20 2, flatCandle 30 3]) rfl
  refine ⟨hsame _ hagr, ?_⟩
  obtain ⟨response, hresp⟩ : ∃ response, compile plotsCloses undisturbed
      (closesRequest [flatCandle 10 1, flatCandle 20 2, flatCandle 30 3]) = .ok response := ⟨_, rfl⟩
  have hthru := (hshn response hresp).1
  rw [hresp]
  show (response.result.series.all fun item => item.data.all fun point => decide (point.time ≤ 25)) = true
  simp only [List.all_eq_true, decide_eq_true_eq]
  exact hthru

end MarketLens.Pine
