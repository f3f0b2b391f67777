import MarketLens.Pine.Stateful.Nesting
import MarketLens.Pine.Stateful.Result

/-!
# What the limit of a result cuts off

The series of a result are counted from its end, and a fill may have as many segments as there
are bars. So whether a drawing or a plot is shown depends on how many series come after it
(`shown_iff`); the limits of the objects themselves never touch the latest of a kind
(`retainObject_spares`).
-/

namespace MarketLens.Pine

open List Option Bool Nat Vm VmState FillProgress Programs

/-! ## What can be drawn -/

section
variable (candles : List Candle)

/-- A box or a line that was not deleted, with all its coordinates. -/
def drawableObject (object : StatefulObject) : Bool :=
  !object.deleted && (object.kind = .box || object.kind = .line) && !candles.isEmpty &&
    usable object.x1 && usable object.x2 && usable object.y1 && usable object.y2

/-- A plot with a usable value that is shifted to a bar of the chart, and a color that shows. -/
def drawablePlot (plot : StatefulPlot) : Bool :=
  (plot.values.zipIdx.any fun (value, index) =>
    usable value && 0 ≤ wrap64 (index + plot.offset) && wrap64 (index + plot.offset) < candles.length) &&
    (plot.colors.take plot.values.length).any isVisible

theorem objectTime_isSome (value : Point) (xloc : String) :
    (objectTime candles value xloc).isSome = (usable value && !candles.isEmpty) := by
  cases value with
  | none => rfl
  | some value =>
    cases candles with
    | nil => rfl
    | cons first rest =>
      have hlast : ∃ last, (first :: rest)[(first :: rest).length - 1]? = some last :=
        ⟨_, getElem?_eq_getElem (by simp)⟩
      obtain ⟨last, hlast⟩ := hlast
      unfold objectTime
      simp only [getElem?_cons_zero, hlast, usable, isSome_some, isEmpty_cons, Bool.not_false, Bool.and_true]
      split
      · rfl
      split
      · rfl
      split
      · rfl
      have hbnd : (toInt (Point.round (some value))).toNat < (first :: rest).length := by omega
      rw [getElem?_eq_getElem hbnd]
      rfl

theorem boxSeries_isSome (object : StatefulObject) :
    (boxSeries candles object).isSome =
      (!candles.isEmpty && usable object.x1 && usable object.x2 && usable object.y1 && usable object.y2) := by
  have htimes : (boxSeries candles object).isSome =
      ((objectTime candles object.x1 object.xloc).isSome && (objectTime candles object.x2 object.xloc).isSome &&
        (usable object.y1 && usable object.y2)) := by
    unfold boxSeries
    split
    · rename_i hleft hright
      rw [hleft, hright]
      cases usable object.y1 && usable object.y2 <;> rfl
    · rename_i hnone
      cases hleft : objectTime candles object.x1 object.xloc with
      | none => rfl
      | some left =>
        cases hright : objectTime candles object.x2 object.xloc with
        | none => rfl
        | some right => exact absurd hright (hnone left right hleft)
  rw [htimes, objectTime_isSome, objectTime_isSome]
  cases candles.isEmpty <;> cases usable object.x1 <;> cases usable object.x2 <;> rfl

theorem lineSeries_isSome (object : StatefulObject) :
    (lineSeries candles object).isSome = (boxSeries candles object).isSome := by
  unfold lineSeries boxSeries
  split
  · split <;> rfl
  · rfl

theorem drawingSeries_isSome (vm : Vm) (object : StatefulObject) :
    (vm.drawingSeries object).isSome = drawableObject vm.candles object := by
  have hbox := boxSeries_isSome vm.candles object
  have hline := (lineSeries_isSome vm.candles object).trans hbox
  unfold drawingSeries drawableObject
  cases object.deleted <;> cases object.kind <;> simp_all

theorem plotData_eq_nil (plot : StatefulPlot) :
    plotData candles plot = [] ↔ ¬ (plot.values.zipIdx.any fun (value, index) =>
      usable value && 0 ≤ wrap64 (index + plot.offset) && wrap64 (index + plot.offset) < candles.length) = true := by
  unfold plotData
  rw [List.filterMap_eq_nil_iff, not_eq_true, List.any_eq_false]
  refine forall_congr' fun point => forall_congr' fun _ => ?_
  obtain ⟨value, index⟩ := point
  dsimp only
  by_cases hlow : wrap64 (index + plot.offset) < 0
  · simp [hlow]
  · have hnonneg : 0 ≤ wrap64 (index + plot.offset) := by omega
    cases hvalue : usable value
    · simp
    · simp only [hlow, decide_false, Bool.not_true, Bool.or_self, Bool.false_eq_true, if_false,
        map_eq_none_iff, getElem?_eq_none_iff, hnonneg, decide_true, Bool.true_and, decide_eq_true_eq]
      omega

theorem plotSeries_isSome (plot : StatefulPlot) :
    (plotSeries candles plot).isSome = drawablePlot candles plot := by
  have hdata := plotData_eq_nil candles plot
  have hcolor : ((plot.colors.take plot.values.length).filter isVisible).getLast?.getD "" = "" ↔
      (plot.colors.take plot.values.length).any isVisible = false := by
    rw [List.any_eq_false]
    constructor
    · intro hlast color hmem hvisible
      cases hget : ((plot.colors.take plot.values.length).filter isVisible).getLast? with
      | none =>
        have hnil := getLast?_eq_none_iff.mp hget
        exact absurd (mem_filter.mpr ⟨hmem, hvisible⟩) (by rw [hnil]; exact not_mem_nil)
      | some last =>
        have hvisible := (mem_filter.mp (mem_of_getLast? hget)).2
        rw [hget] at hlast
        rw [show last = "" from hlast] at hvisible
        cases hvisible
    · intro hnone
      have hnil : (plot.colors.take plot.values.length).filter isVisible = [] :=
        filter_eq_nil_iff.mpr hnone
      rw [hnil]
      rfl
  unfold plotSeries drawablePlot
  dsimp only
  by_cases hemp : plotData candles plot = []
  · rw [hemp]
    have hany := eq_false_iff.mpr (hdata.mp hemp)
    rw [hany]
    rfl
  · have hany : _ = true := by_contra fun hany => hemp (hdata.mpr hany)
    rw [hany, Bool.true_and, isEmpty_eq_false_iff.mpr hemp, Bool.false_or]
    cases hvisible : (plot.colors.take plot.values.length).any isVisible
    · rw [if_pos (by simpa using hcolor.mpr hvisible)]
      rfl
    · rw [if_neg (by simpa using fun h => false_ne_true ((hcolor.mp h).symm.trans hvisible))]
      rfl

end

/-! ## The segments of a fill -/

section Segments

variable (firsts seconds : List Point) (colors : List String)

/-- The segment a fill is in after so many bars. -/
def segmentAfter : Nat → Option FillSegment
  | 0 => none
  | index + 1 =>
    match fillAt (segmentAfter index) (firsts[index]?).join (seconds[index]?).join colors[index]? with
    | none => none
    | some (base, color) =>
      match segmentAfter index with
      | none => some ⟨index, base, color⟩
      | some held => if held.endsAt base color then some ⟨index, base, color⟩ else some held

/-- A segment starts at a bar. -/
def startsAt (index : Nat) : Bool :=
  (segmentAfter firsts seconds colors (index + 1)).any fun segment => segment.start = index

/-- The segments that start at the first bars. -/
def segmentCount (bars : Nat) : Nat := (List.range bars).countP (startsAt firsts seconds colors)

variable {firsts seconds colors}

theorem fillAt_some {segment : Option FillSegment} {first second : Point} {given : Option String} {base : Decimal}
    {color : String} (h : fillAt segment first second given = some (base, color)) :
    (∃ value, first = some value) ∧ color ≠ "" := by
  unfold fillAt at h
  split at h
  · rename_i value _
    dsimp only at h
    split at h
    · cases h
    rename_i hcolor
    cases h
    exact ⟨⟨value, rfl⟩, hcolor⟩
  · cases h

theorem segmentAfter_some {bars : Nat} {segment : FillSegment} (h : segmentAfter firsts seconds colors bars = some segment) :
    segment.start < bars ∧ (∃ value, (firsts[segment.start]?).join = some value) ∧ segment.color ≠ "" := by
  induction bars generalizing segment with
  | zero => cases h
  | succ index ih =>
    unfold segmentAfter at h
    split at h
    · cases h
    rename_i base color hfill
    obtain ⟨hvalue, hcolor⟩ := fillAt_some hfill
    have hfsh : segment = ⟨index, base, color⟩ →
        segment.start < index + 1 ∧ (∃ value, (firsts[segment.start]?).join = some value) ∧ segment.color ≠ "" := by
      rintro rfl
      exact ⟨lt_succ_self index, hvalue, hcolor⟩
    split at h
    · exact hfsh (some.inj h).symm
    · rename_i held hheld
      split at h
      · exact hfsh (some.inj h).symm
      · cases h
        obtain ⟨hstart, hrest⟩ := ih hheld
        exact ⟨lt_succ_of_lt hstart, hrest⟩

variable {candles : List Candle}

theorem segmentData_ne_nil {start stop : Nat} {value : Decimal} (hstart : start < stop)
    (hstop : stop ≤ candles.length) (hvalue : (firsts[start]?).join = some value) :
    segmentData candles firsts start stop ≠ [] := by
  intro hnil
  have hcandle : candles[start]? = some candles[start] := getElem?_eq_getElem (lt_of_lt_of_le hstart hstop)
  have hmem : start ∈ range' start (stop - start) := by
    rw [mem_range'_1]
    omega
  have hpoint := filterMap_eq_nil_iff.mp hnil start hmem
  rw [hcandle, hvalue] at hpoint
  cases hpoint

theorem flush_length {id stop : Nat} {progress : FillProgress} {segment : FillSegment}
    (hseg : progress.segment = some segment) (hstart : segment.start < stop) (hstop : stop ≤ candles.length)
    (hvalue : ∃ value, (firsts[segment.start]?).join = some value) (hcolor : segment.color ≠ "") :
    (progress.flush candles id firsts stop).segment = none ∧
      (progress.flush candles id firsts stop).series.length = progress.series.length + 1 := by
  obtain ⟨value, hvalue⟩ := hvalue
  have hdata := segmentData_ne_nil hstart hstop hvalue
  unfold flush
  rw [hseg]
  dsimp only
  rw [isEmpty_eq_false_iff.mpr hdata, Bool.false_or, if_neg (by simpa using hcolor)]
  exact ⟨rfl, by rw [length_append, length_singleton]⟩

/-- Where a loop of `fillSeries` is after so many bars: the series are those of the finished segments. -/
structure FillProgress.Reflects (progress : FillProgress) (firsts seconds : List Point) (colors : List String)
    (bars : Nat) : Prop where
  segment : progress.segment = segmentAfter firsts seconds colors bars
  count : progress.series.length + progress.segment.toList.length = segmentCount firsts seconds colors bars

theorem segmentCount_succ (bars : Nat) :
    segmentCount firsts seconds colors (bars + 1) =
      segmentCount firsts seconds colors bars + if startsAt firsts seconds colors bars then 1 else 0 := by
  unfold segmentCount
  rw [range_succ, countP_append, countP_singleton]

/-- One bar keeps count. -/
theorem FillProgress.Reflects.step {id index : Nat} {progress : FillProgress}
    (h : progress.Reflects firsts seconds colors index) (hindex : index ≤ candles.length) :
    (FillProgress.step candles id firsts seconds colors progress index).Reflects firsts seconds colors (index + 1) := by
  have hnow := h.segment
  have hcnt := h.count
  have hseg : segmentAfter firsts seconds colors (index + 1) =
      match fillAt progress.segment (firsts[index]?).join (seconds[index]?).join colors[index]? with
      | none => none
      | some (base, color) =>
        match progress.segment with
        | none => some ⟨index, base, color⟩
        | some held => if held.endsAt base color then some ⟨index, base, color⟩ else some held := by
    rw [hnow]
    rfl
  have hstar : startsAt firsts seconds colors index =
      (segmentAfter firsts seconds colors (index + 1)).any fun segment => segment.start = index := rfl
  have hflush :
      ∀ segment, progress.segment = some segment → (progress.flush candles id firsts index).segment = none ∧
        (progress.flush candles id firsts index).series.length = progress.series.length + 1 := by
    intro segment hsome
    obtain ⟨hstart, hvalue, hcolor⟩ := segmentAfter_some (hnow.symm.trans hsome)
    exact flush_length hsome hstart hindex hvalue hcolor
  unfold FillProgress.step
  cases hfill : fillAt progress.segment (firsts[index]?).join (seconds[index]?).join colors[index]? with
  | none =>
    rw [hfill] at hseg
    rw [hseg] at hstar
    cases hheld : progress.segment with
    | none =>
      have hsame : progress.flush candles id firsts index = progress := by
        unfold flush
        rw [hheld]
      refine ⟨?_, ?_⟩
      · rw [hsame, hheld, hseg]
      · rw [hsame, hcnt, segmentCount_succ, hstar]
        rfl
    | some held =>
      obtain ⟨hnone, hlng⟩ := hflush held hheld
      rw [hheld] at hcnt
      refine ⟨?_, ?_⟩
      · rw [hnone, hseg]
      · rw [hnone, hlng, segmentCount_succ, hstar, ← hcnt]
        rfl
  | some fill =>
    obtain ⟨base, color⟩ := fill
    rw [hfill] at hseg
    cases hheld : progress.segment with
    | none =>
      rw [hheld] at hseg hcnt
      rw [hseg] at hstar
      refine ⟨hseg.symm, ?_⟩
      rw [segmentCount_succ, hstar, ← hcnt]
      simp
    | some held =>
      rw [hheld] at hseg hcnt
      dsimp only at hseg ⊢
      cases hends : held.endsAt base color with
      | true =>
        obtain ⟨-, hlng⟩ := hflush held hheld
        rw [hends, if_pos rfl] at hseg
        rw [hseg] at hstar
        refine ⟨hseg.symm, ?_⟩
        show (progress.flush candles id firsts index).series.length + 1 = _
        rw [hlng, segmentCount_succ, hstar, ← hcnt]
        simp
      | false =>
        -- the segment that goes on started before this bar
        rw [hends, if_neg Bool.false_ne_true] at hseg
        rw [hseg] at hstar
        obtain ⟨hstart, -⟩ := segmentAfter_some (hnow.symm.trans hheld)
        have hbef : decide (held.start = index) = false := decide_eq_false (Nat.ne_of_lt hstart)
        refine ⟨by rw [if_neg Bool.false_ne_true, hheld, hseg], ?_⟩
        rw [if_neg Bool.false_ne_true, hheld, segmentCount_succ, hstar, ← hcnt]
        show _ = _ + if decide (held.start = index) = true then 1 else 0
        rw [hbef]
        rfl

/-- **A fill has a series for each of its segments.** -/
theorem fillSeries_length (candles : List Candle) (id : Nat) (colors : List String) (first second : StatefulPlot) :
    (fillSeries candles id colors first second).length = segmentCount first.values second.values colors
        (min candles.length (min first.values.length second.values.length)) := by
  have hrun : ∀ bars ≤ candles.length,
      ((range bars).foldl (FillProgress.step candles id first.values second.values colors) ⟨none, []⟩).Reflects
        first.values second.values colors bars := by
    intro bars
    induction bars with
    | zero => exact fun _ => ⟨rfl, rfl⟩
    | succ bars ih =>
      intro hbars
      rw [range_succ, foldl_append]
      exact (ih (le_of_succ_le hbars)).step (le_of_succ_le hbars)
  have hlng : min candles.length (min first.values.length second.values.length) ≤ candles.length :=
    min_le_left _ _
  unfold fillSeries
  dsimp only
  generalize min candles.length (min first.values.length second.values.length) = length at hlng ⊢
  have hreflects := hrun length hlng
  generalize (range length).foldl _ _ = progress at hreflects ⊢
  have hcnt := hreflects.count
  cases hheld : progress.segment with
  | none =>
    unfold flush
    rw [hheld] at hcnt ⊢
    exact hcnt
  | some =>
    obtain ⟨hstart, hvalue, hcolor⟩ := segmentAfter_some (hreflects.segment.symm.trans hheld)
    rw [(flush_length hheld hstart hlng hvalue hcolor).2, ← hcnt, hheld]
    rfl

end Segments

/-! ## Where a series comes from -/

/-- What makes a series: a drawing, a plot or a fill of the VM, by its number. -/
inductive Origin where
  | object (number : Nat)
  | plot (number : Nat)
  | fill (number : Nat)
deriving DecidableEq

def tagged {α : Type} (make : Nat → Origin) (series : α → Option IndicatorSeries) (items : List α) (first : Nat) :
    List (Origin × IndicatorSeries) :=
  (items.zipIdx first).filterMap fun item => (series item.1).map fun drawn => (make item.2, drawn)

section Tagged

variable {α : Type} {make : Nat → Origin} {series : α → Option IndicatorSeries} {items : List α} {first : Nat}

theorem tagged_append (others : List α) :
    tagged make series (items ++ others) first =
      tagged make series items first ++ tagged make series others (first + items.length) := by
  unfold tagged
  rw [zipIdx_append, filterMap_append]

theorem tagged_cons (item : α) : tagged make series (item :: items) first =
      ((series item).map fun drawn => (make first, drawn)).toList ++ tagged make series items (first + 1) := by
  unfold tagged
  rw [zipIdx_cons, filterMap_cons]
  cases series item <;> rfl

theorem tagged_snd : (tagged make series items first).map Prod.snd = items.filterMap series := by
  induction items generalizing first with
  | nil => rfl
  | cons item items ih =>
    rw [tagged_cons, map_append, ih, filterMap_cons]
    cases series item <;> rfl

theorem tagged_length : (tagged make series items first).length = items.countP fun item => (series item).isSome := by
  rw [← length_map Prod.snd, tagged_snd, length_filterMap_eq_countP]

theorem mem_tagged {entry : Origin × IndicatorSeries} (h : entry ∈ tagged make series items first) :
    ∃ number, first ≤ number ∧ number < first + items.length ∧ entry.1 = make number := by
  obtain ⟨⟨item, number⟩, hmem, hent⟩ := mem_filterMap.mp h
  have hbounds := mem_zipIdx hmem
  obtain ⟨drawn, -, rfl⟩ := map_eq_some_iff.mp hent
  exact ⟨number, hbounds.1, hbounds.2.1, rfl⟩

theorem tagged_split {number : Nat} {item : α} (h : items[number]? = some item) :
    tagged make series items 0 = tagged make series (items.take number) 0 ++
        (((series item).map fun drawn => (make number, drawn)).toList ++
          tagged make series (items.drop (number + 1)) (number + 1)) := by
  have hnum : number < items.length := (List.getElem?_eq_some_iff.mp h).1
  have hitem : items[number] = item := (List.getElem?_eq_some_iff.mp h).2
  have hspl : items = items.take number ++ item :: items.drop (number + 1) := by
    rw [← hitem, ← drop_eq_getElem_cons hnum, take_append_drop]
  conv_lhs => rw [hspl]
  rw [tagged_append, tagged_cons, length_take, min_eq_left (le_of_lt hnum), zero_add]

end Tagged

variable {limit : Int}

theorem limited_iff {α β : Type} {f : α → β} {before after : List α} {entry : α} (haft : ∀ other ∈ after, f other ≠ f entry) :
    (∃ kept ∈ statefulLimitSeries (before ++ entry :: after) limit, f kept = f entry) ↔
      limit ≤ 0 ∨ (after.length : Int) + 1 ≤ limit := by
  have hlng : (before ++ entry :: after).length = before.length + (after.length + 1) := by
    rw [length_append, length_cons]
  have hin : ∃ kept ∈ before ++ entry :: after, f kept = f entry := ⟨entry, by simp, rfl⟩
  unfold statefulLimitSeries
  split
  · rename_i hall
    rw [or_eq_true, decide_eq_true_eq, decide_eq_true_eq, hlng] at hall
    refine iff_of_true hin ?_
    omega
  · rename_i hcut
    rw [or_eq_true, decide_eq_true_eq, decide_eq_true_eq, hlng] at hcut
    constructor
    · rintro ⟨kept, hkept, hsame⟩
      right
      by_contra hfew
      -- the list is cut behind the entry
      have hdrop : (before ++ entry :: after).length - limit.toNat = before.length + (after.length - limit.toNat + 1) := by
        omega
      rw [hdrop, drop_length_add_append, drop_succ_cons] at hkept
      exact haft kept (mem_of_mem_drop hkept) hsame
    · intro hroom
      have hdrop : (before ++ entry :: after).length - limit.toNat ≤ before.length := by omega
      refine ⟨entry, ?_, rfl⟩
      rw [drop_append_of_le_length hdrop]
      exact mem_append_right _ (mem_cons_self ..)

namespace Vm

variable (vm : Vm) (s : VmState)

def objectSeries (ref : Ref) : Option IndicatorSeries := (objectAt s ref).bind vm.drawingSeries

def seriesOfPlot (ref : Ref) : Option IndicatorSeries := (plotAt s ref).bind (plotSeries vm.candles)

def fillEntries : List (Origin × IndicatorSeries) :=
  s.memory.fills.zipIdx.flatMap fun (site, number) => (vm.segmentsOf s site).map fun segment => (.fill number, segment)

/-- All series, before the limit. -/
def entries : List (Origin × IndicatorSeries) :=
  tagged .object (vm.objectSeries s) s.memory.objects 0 ++ tagged .plot (vm.seriesOfPlot s) s.memory.plots 0 ++
    vm.fillEntries s

/-- What is shown is in the result. -/
def Shown (origin : Origin) : Prop :=
  ∃ entry ∈ statefulLimitSeries (vm.entries s) (vm.seriesLimit s), entry.1 = origin

end Vm

theorem mem_of_mem_limited {α : Type} {series : List α} {item : α}
    (h : item ∈ statefulLimitSeries series limit) : item ∈ series := by
  unfold statefulLimitSeries at h
  split at h
  · exact h
  · exact mem_of_mem_drop h

theorem statefulLimitSeries_map {α β : Type} (f : α → β) (series : List α) (limit : Int) :
    (statefulLimitSeries series limit).map f = statefulLimitSeries (series.map f) limit := by
  unfold statefulLimitSeries
  rw [length_map]
  split
  · rfl
  · rw [map_drop]

theorem result_series (vm : Vm) (s : VmState) (id : String) :
    (vm.result s id).series = (statefulLimitSeries (vm.entries s) (vm.seriesLimit s)).map Prod.snd := by
  have hobjects : (s.memory.objects.filterMap (objectAt s)).filterMap vm.drawingSeries =
      s.memory.objects.filterMap (vm.objectSeries s) := filterMap_filterMap ..
  have hplots : (s.memory.plots.filterMap (plotAt s)).filterMap (plotSeries vm.candles) =
      s.memory.plots.filterMap (vm.seriesOfPlot s) := filterMap_filterMap ..
  have hfills : (vm.fillEntries s).map Prod.snd = s.memory.fills.flatMap (vm.segmentsOf s) := by
    unfold fillEntries
    generalize s.memory.fills = fills
    suffices h : ∀ first, ((fills.zipIdx first).flatMap fun (site, number) =>
        (vm.segmentsOf s site).map fun segment => (Origin.fill number, segment)).map Prod.snd =
          fills.flatMap (vm.segmentsOf s) from h 0
    induction fills with
    | nil => exact fun _ => rfl
    | cons site fills ih =>
      intro first
      rw [List.zipIdx_cons, List.flatMap_cons, List.flatMap_cons, List.map_append, ih, List.map_map]
      exact congrArg (· ++ _) (map_id _)
  show statefulLimitSeries _ _ = _
  rw [statefulLimitSeries_map]
  unfold entries
  rw [map_append, map_append, tagged_snd, tagged_snd, hfills, hobjects, hplots]

/-! ## What is shown -/

def VmState.isKind (s : VmState) (kind : StatefulObjectKind) (ref : Ref) : Bool :=
  (Vm.objectAt s ref).any fun object => object.kind = kind

namespace Vm

variable (vm : Vm) (s : VmState)

def drawsObject (ref : Ref) : Bool := (objectAt s ref).any (drawableObject vm.candles)

def drawsPlot (ref : Ref) : Bool := (plotAt s ref).any (drawablePlot vm.candles)

/-- The number of segments of a fill of the VM. -/
def segmentsIn (site : Site) : Nat :=
  match s.memory.fillCalls site with
  | none => 0
  | some fill =>
    match plotAt s fill.first, plotAt s fill.second with
    | some first, some second =>
      segmentCount first.values second.values fill.colors
        (min vm.candles.length (min first.values.length second.values.length))
    | _, _ => 0

/-- There is something to draw. -/
def Drawable : Origin → Prop
  | .object number => ∃ ref, s.memory.objects[number]? = some ref ∧ vm.drawsObject s ref
  | .plot number => ∃ ref, s.memory.plots[number]? = some ref ∧ vm.drawsPlot s ref
  | .fill _ => False

def drawnFrom : Origin → Nat
  | .object number =>
    (s.memory.objects.drop number).countP (vm.drawsObject s) + s.memory.plots.countP (vm.drawsPlot s) +
      (s.memory.fills.map (vm.segmentsIn s)).sum
  | .plot number =>
    (s.memory.plots.drop number).countP (vm.drawsPlot s) + (s.memory.fills.map (vm.segmentsIn s)).sum
  | .fill _ => 0

/-- The objects of a kind that were made after one. -/
def newer (kind : StatefulObjectKind) (number : Nat) : Nat :=
  (s.memory.objects.drop (number + 1)).countP (s.isKind kind)

def objectLimit : StatefulObjectKind → Int
  | .box => vm.setting.program.maxBoxes
  | .line => vm.setting.program.maxLines
  | .label | .table => 0

def Due : Origin → Prop
  | .object number =>
    ∃ ref object, s.memory.objects[number]? = some ref ∧ objectAt s ref = some object ∧
      (object.kind = .box ∨ object.kind = .line) ∧ object.deleted = false ∧
      (newer s object.kind number : Int) < vm.objectLimit object.kind
  | .plot number =>
    ∃ ref plot, s.memory.plots[number]? = some ref ∧ plotAt s ref = some plot ∧
      (∃ value ∈ plot.values, usable value) ∧ ∃ color ∈ plot.colors, isVisible color
  | .fill _ => False

variable {vm s}

theorem objectSeries_isSome (ref : Ref) : (vm.objectSeries s ref).isSome = vm.drawsObject s ref := by
  unfold objectSeries drawsObject
  cases objectAt s ref with
  | none => rfl
  | some object => exact drawingSeries_isSome vm object

theorem seriesOfPlot_isSome (ref : Ref) : (vm.seriesOfPlot s ref).isSome = vm.drawsPlot s ref := by
  unfold seriesOfPlot drawsPlot
  cases plotAt s ref with
  | none => rfl
  | some plot => exact plotSeries_isSome vm.candles plot

theorem objectEntries_length (refs : List Ref) (first : Nat) :
    (tagged .object (vm.objectSeries s) refs first).length = refs.countP (vm.drawsObject s) := by
  rw [tagged_length]
  exact countP_congr fun ref _ => by rw [objectSeries_isSome]

theorem plotEntries_length (refs : List Ref) (first : Nat) :
    (tagged .plot (vm.seriesOfPlot s) refs first).length = refs.countP (vm.drawsPlot s) := by
  rw [tagged_length]
  exact countP_congr fun ref _ => by rw [seriesOfPlot_isSome]

theorem segmentsOf_length (site : Site) : (vm.segmentsOf s site).length = vm.segmentsIn s site := by
  unfold segmentsOf segmentsIn
  cases s.memory.fillCalls site with
  | none => rfl
  | some fill =>
    dsimp only
    cases plotAt s fill.first <;> cases plotAt s fill.second
    case some.some => exact fillSeries_length ..
    all_goals rfl

theorem mem_fillEntries {entry : Origin × IndicatorSeries} (h : entry ∈ vm.fillEntries s) : ∃ number, entry.1 = .fill number := by
  obtain ⟨⟨site, number⟩, -, hent⟩ := mem_flatMap.mp h
  obtain ⟨segment, -, rfl⟩ := mem_map.mp hent
  exact ⟨number, rfl⟩

theorem fillEntries_length : (vm.fillEntries s).length = (s.memory.fills.map (vm.segmentsIn s)).sum := by
  unfold fillEntries
  generalize s.memory.fills = fills
  suffices h : ∀ first, ((fills.zipIdx first).flatMap fun (site, number) =>
      (vm.segmentsOf s site).map fun segment => (Origin.fill number, segment)).length = (fills.map (vm.segmentsIn s)).sum from h 0
  induction fills with
  | nil => exact fun _ => rfl
  | cons site fills ih =>
    intro first
    rw [zipIdx_cons, flatMap_cons, length_append, ih, length_map, segmentsOf_length, map_cons, sum_cons]

/-- Nothing else has the origin of a drawing or a plot: what is there to draw from it on decides. -/
theorem shown_of_split {before after : List (Origin × IndicatorSeries)} {found : Option IndicatorSeries} {origin : Origin}
    (hspl : vm.entries s = before ++ ((found.map fun drawn => (origin, drawn)).toList ++ after))
    (hbef : ∀ other ∈ before, other.1 ≠ origin) (haft : ∀ other ∈ after, other.1 ≠ origin) :
    vm.Shown s origin ↔ found.isSome ∧ (vm.seriesLimit s ≤ 0 ∨ (after.length : Int) + 1 ≤ vm.seriesLimit s) := by
  unfold Shown
  rw [hspl]
  cases found with
  | none =>
    refine iff_of_false ?_ fun h => false_ne_true h.1
    rintro ⟨entry, hent, hsame⟩
    rcases mem_append.mp (mem_of_mem_limited hent) with h | h
    · exact hbef entry h hsame
    · exact haft entry h hsame
  | some drawn =>
    have hlimited : (∃ kept ∈ statefulLimitSeries (before ++ (origin, drawn) :: after) (vm.seriesLimit s),
        kept.1 = origin) ↔ vm.seriesLimit s ≤ 0 ∨ (after.length : Int) + 1 ≤ vm.seriesLimit s :=
      limited_iff haft
    exact ⟨fun h => ⟨rfl, hlimited.mp h⟩, fun h => hlimited.mpr h.2⟩

variable {number : Nat}

theorem drawable_object {ref : Ref} (h : s.memory.objects[number]? = some ref) :
    vm.Drawable s (.object number) ↔ vm.drawsObject s ref :=
  ⟨fun ⟨_, hoth, hdra⟩ => some.inj (h.symm.trans hoth) ▸ hdra, fun hdra => ⟨ref, h, hdra⟩⟩

theorem drawable_plot {ref : Ref} (h : s.memory.plots[number]? = some ref) : vm.Drawable s (.plot number) ↔ vm.drawsPlot s ref :=
  ⟨fun ⟨_, hoth, hdra⟩ => some.inj (h.symm.trans hoth) ▸ hdra, fun hdra => ⟨ref, h, hdra⟩⟩

theorem countP_drop {α : Type} {p : α → Bool} {items : List α} {item : α} (h : items[number]? = some item) (hp : p item) :
    (items.drop number).countP p = (items.drop (number + 1)).countP p + 1 := by
  have hnum : number < items.length := (List.getElem?_eq_some_iff.mp h).1
  rw [drop_eq_getElem_cons hnum, (List.getElem?_eq_some_iff.mp h).2, countP_cons, if_pos hp]

theorem shown_object (number : Nat) (hnum : number < s.memory.objects.length) :
    vm.Shown s (.object number) ↔ vm.Drawable s (.object number) ∧
        (vm.seriesLimit s ≤ 0 ∨ (vm.drawnFrom s (.object number) : Int) ≤ vm.seriesLimit s) := by
  have hitem : s.memory.objects[number]? = some s.memory.objects[number] := getElem?_eq_getElem hnum
  generalize s.memory.objects[number] = ref at hitem
  have hspl :
      vm.entries s = tagged .object (vm.objectSeries s) (s.memory.objects.take number) 0 ++
        (((vm.objectSeries s ref).map fun drawn => (Origin.object number, drawn)).toList ++
          (tagged .object (vm.objectSeries s) (s.memory.objects.drop (number + 1)) (number + 1) ++
            (tagged .plot (vm.seriesOfPlot s) s.memory.plots 0 ++ vm.fillEntries s))) := by
    unfold entries
    rw [tagged_split hitem]
    simp only [append_assoc]
  rw [shown_of_split hspl ?_ ?_, drawable_object hitem, objectSeries_isSome]
  · refine and_congr_right fun hdra => or_congr Iff.rfl ?_
    have hcnt : vm.drawnFrom s (.object number) =
        (s.memory.objects.drop number).countP (vm.drawsObject s) + s.memory.plots.countP (vm.drawsPlot s) +
          (s.memory.fills.map (vm.segmentsIn s)).sum := rfl
    rw [hcnt, countP_drop hitem hdra, length_append, length_append, objectEntries_length, plotEntries_length, fillEntries_length]
    omega
  · intro other hoth hsame
    obtain ⟨k, -, hbnd, horig⟩ := mem_tagged hoth
    cases horig.symm.trans hsame
    rw [length_take] at hbnd
    omega
  · intro other hoth hsame
    rcases mem_append.mp hoth with h | h
    · obtain ⟨k, hbnd, -, horig⟩ := mem_tagged h
      cases horig.symm.trans hsame
      omega
    · rcases mem_append.mp h with h | h
      · obtain ⟨k, -, -, horig⟩ := mem_tagged h
        cases horig.symm.trans hsame
      · obtain ⟨k, horig⟩ := mem_fillEntries h
        cases horig.symm.trans hsame

theorem shown_plot (number : Nat) (hnum : number < s.memory.plots.length) :
    vm.Shown s (.plot number) ↔ vm.Drawable s (.plot number) ∧
        (vm.seriesLimit s ≤ 0 ∨ (vm.drawnFrom s (.plot number) : Int) ≤ vm.seriesLimit s) := by
  have hitem : s.memory.plots[number]? = some s.memory.plots[number] := getElem?_eq_getElem hnum
  generalize s.memory.plots[number] = ref at hitem
  have hspl :
      vm.entries s = (tagged .object (vm.objectSeries s) s.memory.objects 0 ++
        tagged .plot (vm.seriesOfPlot s) (s.memory.plots.take number) 0) ++
          (((vm.seriesOfPlot s ref).map fun drawn => (Origin.plot number, drawn)).toList ++
            (tagged .plot (vm.seriesOfPlot s) (s.memory.plots.drop (number + 1)) (number + 1) ++ vm.fillEntries s)) := by
    unfold entries
    rw [tagged_split hitem]
    simp only [append_assoc]
  rw [shown_of_split hspl ?_ ?_, drawable_plot hitem, seriesOfPlot_isSome]
  · refine and_congr_right fun hdra => or_congr Iff.rfl ?_
    have hcnt : vm.drawnFrom s (.plot number) =
        (s.memory.plots.drop number).countP (vm.drawsPlot s) + (s.memory.fills.map (vm.segmentsIn s)).sum := rfl
    rw [hcnt, countP_drop hitem hdra, length_append, plotEntries_length, fillEntries_length]
    omega
  · intro other hoth hsame
    rcases mem_append.mp hoth with h | h
    · obtain ⟨k, -, -, horig⟩ := mem_tagged h
      cases horig.symm.trans hsame
    · obtain ⟨k, -, hbnd, horig⟩ := mem_tagged h
      cases horig.symm.trans hsame
      rw [length_take] at hbnd
      omega
  · intro other hoth hsame
    rcases mem_append.mp hoth with h | h
    · obtain ⟨k, hbnd, -, horig⟩ := mem_tagged h
      cases horig.symm.trans hsame
      omega
    · obtain ⟨k, horig⟩ := mem_fillEntries h
      cases horig.symm.trans hsame

end Vm

/-! ## The limits of the objects -/

/-- The machine of a VM on itself. -/
def Vm.machine (vm : Vm) : Machine MachineOp.Answer VmState := fun op s => some (vm.answer op s)

section Limits

variable {vm : Vm} {s : VmState} {ref : Ref}

theorem load_store (node : StatefulNode) (other : Ref) :
    (s.store ref node).load other =
      if other = ref ∧ (s.load ref).isSome then some node else s.load other := by
  unfold VmState.store VmState.load put
  dsimp only
  by_cases hreg : other.region = ref.region
  · rw [if_pos hreg, getElem?_set, hreg]
    by_cases hindex : ref.index = other.index
    · have hsame : other = ref := by
        cases other
        cases ref
        simp_all
      rw [if_pos hindex, hsame]
      by_cases hlng : ref.index < (s.heap ref.region).length
      · rw [if_pos hlng, getElem?_eq_getElem hlng]
        simp
      · rw [if_neg hlng, getElem?_eq_none_iff.mpr (Nat.le_of_not_lt hlng)]
        simp
    · rw [if_neg hindex, if_neg (fun h => hindex (congrArg Ref.index h.1).symm)]
  · rw [if_neg hreg, if_neg (fun h => hreg (congrArg Ref.region h.1))]

variable {object : StatefulObject}

theorem load_of_objectAt (h : Vm.objectAt s ref = some object) : s.load ref = some (.object object) := by
  unfold objectAt at h
  split at h
  · rename_i hload
    rw [hload, some.inj h]
  · cases h

theorem objectAt_store (h : Vm.objectAt s ref = some object) (object' : StatefulObject) (other : Ref) :
    Vm.objectAt (s.store ref (.object object')) other = if other = ref then some object' else Vm.objectAt s other := by
  have hload := load_of_objectAt h
  unfold objectAt
  rw [load_store, hload]
  by_cases hsame : other = ref
  · rw [if_pos hsame, if_pos ⟨hsame, rfl⟩]
  · rw [if_neg hsame, if_neg fun h => hsame h.1]

theorem run_loadObject :
      Program.run vm.machine (loadObject ref).run s = some (match Vm.objectAt s ref with
        | some object => .ok object
        | none => .error ⟨.panicked, "invalid memory address or nil pointer dereference"⟩, s) := by
  have hload : Program.run vm.machine (load ref).run s = some (.ok (s.load ref), s) := rfl
  unfold objectAt loadObject
  rw [run_except_bind, hload]
  cases s.load ref with
  | none => rfl
  | some node => cases node <;> rfl

/-- What the deletion of the oldest of a kind leaves as it was, and what it deletes. -/
structure Trimmed (kind : StatefulObjectKind) (limit count : Int) (refs : List Ref) (s s' : VmState) : Prop where
  memory : s'.memory = s.memory
  kinds : ∀ kind ref, s'.isKind kind ref = s.isKind kind ref
  beyond : ∀ {ref object object'}, Vm.objectAt s ref = some object → object.deleted = false →
    Vm.objectAt s' ref = some object' → object'.deleted = true →
      object.kind = kind ∧ ∃ k, refs[k]? = some ref ∧ limit ≤ count + (refs.take k).countP (s.isKind kind)

theorem Trimmed.cons {kind : StatefulObjectKind} {limit count next : Int} {refs : List Ref} {s' : VmState}
    (h : Trimmed kind limit next refs s s') (hcnt : next ≤ count + if s.isKind kind ref then 1 else 0) :
    Trimmed kind limit count (ref :: refs) s s' where
  memory := h.memory
  kinds := h.kinds
  beyond := by
    intro other object object' hobject hlive hobject' hdeld
    obtain ⟨hkind, k, hk, hlimit⟩ := h.beyond hobject hlive hobject' hdeld
    refine ⟨hkind, k + 1, hk, ?_⟩
    rw [take_succ_cons, countP_cons]
    by_cases hhere : s.isKind kind ref = true
    · rw [if_pos hhere] at hcnt ⊢
      omega
    · rw [if_neg hhere] at hcnt ⊢
      omega

/-- The walk over the references deletes what is of the kind and beyond the limit. -/
theorem deleteBeyond_trimmed {kind : StatefulObjectKind} (refs : List Ref) :
    ∀ (count : Int) (s : VmState) {result : Except Stop Unit} {s' : VmState},
      Program.run vm.machine (deleteBeyond kind limit count refs).run s = some (result, s') →
        Trimmed kind limit count refs s s' := by
  have hsame : ∀ (count : Int) (refs : List Ref) (s : VmState), Trimmed kind limit count refs s s := by
    intro count refs s
    refine ⟨rfl, fun _ _ => rfl, ?_⟩
    intro ref object object' hobject hlive hobject' hdeld
    cases hobject.symm.trans hobject'
    cases hlive.symm.trans hdeld
  induction refs with
  | nil =>
    intro count s result s' hrun
    cases hrun
    exact hsame count [] s
  | cons ref refs ih =>
    intro count s result s' hrun
    unfold deleteBeyond at hrun
    rw [run_except_bind, run_loadObject] at hrun
    cases hobject : objectAt s ref with
    | none =>
      rw [hobject] at hrun
      cases hrun
      exact hsame count (ref :: refs) s
    | some candidate =>
      rw [hobject] at hrun
      dsimp only [bind_some] at hrun
      -- what is of another kind or deleted already is passed over and not counted
      by_cases hskip : (candidate.kind ≠ kind || candidate.deleted) = true
      · rw [if_pos hskip] at hrun
        exact (ih count s hrun).cons (by split <;> omega)
      · rw [if_neg hskip] at hrun
        have hkind : candidate.kind = kind := by
          by_contra hkind
          exact hskip (by simp [hkind])
        have hhead : s.isKind kind ref = true := by
          unfold isKind
          rw [hobject]
          exact decide_eq_true hkind
        by_cases hbeyond : limit < count + 1
        · -- the candidate is deleted, and counts
          rw [if_pos hbeyond] at hrun
          have hrest := ih (count + 1) (s.store ref (.object { candidate with deleted := true })) hrun
          have hkinds : ∀ kind other, (s.store ref (.object { candidate with deleted := true })).isKind kind other =
              s.isKind kind other := by
            intro kind other
            unfold isKind
            rw [objectAt_store hobject]
            split
            · rename_i hsame
              rw [hsame, hobject]
              rfl
            · rfl
          refine ⟨hrest.memory, fun kind other => (hrest.kinds kind other).trans (hkinds kind other), ?_⟩
          intro other object object' hoth hlive hoth' hdeld
          by_cases hsame : other = ref
          · rw [hsame, hobject] at hoth
            cases hoth
            exact ⟨hkind, 0, by rw [hsame]; rfl, by simp; omega⟩
          · have hstrd := objectAt_store hobject { candidate with deleted := true } other
            rw [if_neg hsame, hoth] at hstrd
            obtain ⟨hsort, k, hk, hlimit⟩ := hrest.beyond hstrd hlive hoth' hdeld
            refine ⟨hsort, k + 1, hk, ?_⟩
            omega
        · rw [if_neg hbeyond] at hrun
          exact (ih (count + 1) s hrun).cons (by rw [if_pos hhead])

/-- What is on the heap stays there when something is put beside it. -/
theorem objectAt_alloc {region : Region} {node : StatefulNode}
    (h : Vm.objectAt s ref = some object) : Vm.objectAt (s.alloc region node).2 ref = some object := by
  have hload := load_of_objectAt h
  have hnow : (s.alloc region node).2.load ref = some (.object object) := by
    unfold VmState.alloc VmState.load put
    dsimp only
    by_cases hreg : ref.region = region
    · rw [if_pos hreg, ← hreg]
      exact List.getElem?_append_left (List.getElem?_eq_some_iff.mp hload).1 ▸ hload
    · rw [if_neg hreg]
      exact hload
  unfold objectAt
  rw [hnow]

/-- **What retention deletes is beyond the limit**: as many of its kind were made after it. -/
theorem retainObject_spares (frame : CallFrame) {result : Except Stop StatefulValue} {s' : VmState}
    (hrun : Program.run vm.machine (frame.retainObject object limit).run s = some (result, s'))
    {before after : StatefulObject} (hbef : Vm.objectAt s ref = some before) (hlive : before.deleted = false)
    (haft : Vm.objectAt s' ref = some after) (hdeld : after.deleted = true) :
    before.kind = object.kind ∧ ∃ number, s'.memory.objects[number]? = some ref ∧ limit ≤ Vm.newer s' before.kind number := by
  have hold : objectAt (s.alloc vm.region (.object object)).2 ref = some before := objectAt_alloc hbef
  have hkept : ¬ objectAt s' ref = some before := by
    intro hsame
    cases haft.symm.trans hsame
    cases hlive.symm.trans hdeld
  have halloc : Program.run vm.machine (alloc (.object object)).run s =
      some (.ok (s.alloc vm.region (.object object)).1, (s.alloc vm.region (.object object)).2) := rfl
  unfold CallFrame.retainObject at hrun
  rw [run_except_bind, halloc] at hrun
  generalize hmade : s.alloc vm.region (.object object) = made at hrun hold
  obtain ⟨new, s₁⟩ := made
  dsimp only [bind_some] at hrun hold
  split at hrun
  · cases hrun
    exact absurd hold hkept
  · have hmodify : ∀ f : Memory → Memory,
        Program.run vm.machine (modifyMemory f).run s₁ = some (.ok (), { s₁ with memory := f s₁.memory }) := fun _ => rfl
    rw [run_except_bind, hmodify] at hrun
    dsimp only [bind_some] at hrun
    split at hrun
    · rw [run_except_bind] at hrun
      generalize hs₂ : ({ s₁ with memory := { s₁.memory with objects := s₁.memory.objects ++ [new] } } : VmState) = s₂ at hrun
      have hobjects : objectAt s₂ ref = some before := by
        rw [← hs₂]
        exact hold
      have hget : Program.run vm.machine getMemory.run s₂ = some (.ok s₂.memory, s₂) := rfl
      rw [hget] at hrun
      dsimp only [bind_some] at hrun
      rw [run_except_bind] at hrun
      obtain ⟨⟨outcome, s₃⟩, hdele, hrest⟩ := bind_eq_some_iff.mp hrun
      have hlast : s₃ = s' := by
        cases outcome <;> cases hrest <;> rfl
      rw [hlast] at hdele
      have htrimmed := deleteBeyond_trimmed _ 0 s₂ hdele
      -- the references were walked from the newest, so `k` counts from the end
      obtain ⟨hkind, k, hk, hlimit⟩ := htrimmed.beyond hobjects hlive haft hdeld
      have hlng : k < s₂.memory.objects.length := by
        rw [← length_reverse]
        exact (List.getElem?_eq_some_iff.mp hk).1
      refine ⟨hkind, s₂.memory.objects.length - 1 - k, ?_, ?_⟩
      · rw [htrimmed.memory, ← getElem?_reverse hlng, hk]
      · unfold newer
        have hdrop : s₂.memory.objects.length - 1 - k + 1 = s₂.memory.objects.length - k := by omega
        rw [htrimmed.memory, hdrop, countP_congr fun other _ => by rw [htrimmed.kinds], hkind]
        rw [take_reverse, countP_reverse] at hlimit
        omega
    · cases hrun
      exact absurd hold hkept

end Limits

/-! ## Nothing that is due is missing, if there is room -/

/-- **What is shown of what is due.** The series of the result are the last ones up to the limit. What is due
is in it if and only if it can be drawn and everything drawn from it on, the segments of all fills among them,
is within the limit. What retention deletes is not due. -/
theorem due_shown_iff_room (vm : Vm) (s : VmState) :
    (∀ id, (vm.result s id).series = (statefulLimitSeries (vm.entries s) (vm.seriesLimit s)).map Prod.snd) ∧
    ((∀ origin, vm.Due s origin → vm.Shown s origin) ↔ ∀ origin, vm.Due s origin →
        vm.Drawable s origin ∧ (vm.seriesLimit s ≤ 0 ∨ (vm.drawnFrom s origin : Int) ≤ vm.seriesLimit s)) ∧
    ∀ (frame : CallFrame) (object : StatefulObject) (limit : Int) (result : Except Stop StatefulValue) (s' : VmState),
      Program.run vm.machine (frame.retainObject object limit).run s = some (result, s') →
      ∀ ref before after, Vm.objectAt s ref = some before → before.deleted = false →
        Vm.objectAt s' ref = some after → after.deleted = true →
        before.kind = object.kind ∧ ∃ number, s'.memory.objects[number]? = some ref ∧ limit ≤ Vm.newer s' before.kind number := by
  have hshn : ∀ origin, vm.Due s origin → (vm.Shown s origin ↔
      vm.Drawable s origin ∧ (vm.seriesLimit s ≤ 0 ∨ (vm.drawnFrom s origin : Int) ≤ vm.seriesLimit s)) := by
    intro origin hdue
    cases origin with
    | object number =>
      obtain ⟨ref, -, href, -⟩ := hdue
      exact shown_object number (List.getElem?_eq_some_iff.mp href).1
    | plot number =>
      obtain ⟨ref, -, href, -⟩ := hdue
      exact shown_plot number (List.getElem?_eq_some_iff.mp href).1
    | fill => exact hdue.elim
  refine ⟨result_series vm s, ?_, ?_⟩
  · exact ⟨fun h origin hdue => (hshn origin hdue).mp (h origin hdue),
      fun h origin hdue => (hshn origin hdue).mpr (h origin hdue)⟩
  · intro frame object limit result s' hrun ref before after hbef hlive haft hdeld
    exact retainObject_spares frame hrun hbef hlive haft hdeld

/-- Two plots and the space between them, on a chart that keeps one box and one line; the tuple brings the
script to the stateful VM. -/
def filledPlots : StatefulProgram where
  types := []
  functions := []
  methods := []
  statements := [
    .assign 2 ["upper"] "=" (.call 1 (.identifier "plot") "" [("", .identifier "close")]) false,
    .assign 3 ["lower"] "=" (.call 2 (.identifier "plot") "" [("", .identifier "open")]) false,
    .expr 4 (.call 3 (.identifier "fill") ""
      [("", .identifier "upper"), ("", .identifier "lower"), ("color", .literal (.color "#00ff00"))]),
    .assign 5 ["first", "second"] "=" (.tuple [.identifier "open", .identifier "close"]) false]
  maxBoxes := 1
  maxLines := 1
  maxLabels := 50

/-- The close stays where it is, the open goes up at every bar. -/
def risingOpen : List Candle := (List.range 7).map fun k => ⟨60 * (k + 1), k, 10, 0, 10, 1⟩

/-- Every open is a base of its own: the seven segments push both plots out of the result. -/
theorem filledPlots_evicted :
    ∃ s, runProgram 6 (plainSetting filledPlots) risingOpen = some (.ok (), s) ∧
      (chartVm (plainSetting filledPlots) risingOpen).Due s (.plot 0) ∧
      ¬ (chartVm (plainSetting filledPlots) risingOpen).Shown s (.plot 0) := by
  have hexec : ((runProgram 6 (plainSetting filledPlots) risingOpen).any fun after =>
      (match after.1 with
        | .ok () => true
        | .error _ => false) &&
      ((after.2.memory.plots[0]?).any fun ref => (plotAt after.2 ref).any fun plot =>
        plot.values.any usable && plot.colors.any isVisible) &&
      (statefulLimitSeries ((chartVm (plainSetting filledPlots) risingOpen).entries after.2)
        ((chartVm (plainSetting filledPlots) risingOpen).seriesLimit after.2)).all fun entry =>
          entry.1 ≠ .plot 0) = true := by
    decide +kernel
  obtain ⟨⟨result, s⟩, hrun, hends⟩ := (any_eq_true _ _).mp hexec
  rw [and_eq_true, and_eq_true] at hends
  obtain ⟨⟨hok, hplot⟩, hgone⟩ := hends
  obtain ⟨ref, href, hplot⟩ := (any_eq_true _ _).mp hplot
  obtain ⟨plot, hat, hdrawn⟩ := (any_eq_true _ _).mp hplot
  rw [and_eq_true, List.any_eq_true, List.any_eq_true] at hdrawn
  refine ⟨s, ?_, ⟨ref, plot, href, hat, hdrawn⟩, ?_⟩
  · cases result with
    | ok => exact hrun
    | error => cases hok
  · rintro ⟨entry, hent, horig⟩
    exact of_decide_eq_true (all_eq_true.mp hgone entry hent) horig

end MarketLens.Pine
