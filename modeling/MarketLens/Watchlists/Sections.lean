import MarketLens.Watchlists.Moves

/-!
# Sections under edits of symbols

A symbol belongs to the last section that is anchored at or before it. An added
symbol goes behind the others and moves none. A removed one moves every later symbol
one place to the front, while the sections stay anchored where they were: a symbol
with which a section begins falls out of it, and a section at the end of the symbols
is left beyond the end.
-/

namespace MarketLens.Watchlists

open List Table Watchlists.Store Fallible Runs

variable {platform : Platform} {store store' : Store}

/-! ## The section at a position -/

/-- The last section, in list order, whose index is at most the position. -/
def sectionAt (sections : List WatchlistSection) (position : Nat) : Option WatchlistSection :=
  (sections.filter (·.index ≤ (position : Int))).getLast?

def Watchlist.sectionOf (list : Watchlist) (symbol : String) : Option WatchlistSection :=
  sectionAt list.sections (list.symbols.idxOf symbol)

/-- Every section is anchored between the front and the end of the symbols. -/
def Watchlist.Bounded (list : Watchlist) : Prop :=
  ∀ divider ∈ list.sections, 0 ≤ divider.index ∧ divider.index ≤ list.symbols.length

variable {sections : List WatchlistSection}

theorem sectionAt_some {position : Nat} {divider : WatchlistSection}
    (h : sectionAt sections position = some divider) : divider ∈ sections ∧ divider.index ≤ position := by
  have hmem := mem_filter.mp (mem_of_getLast? h)
  exact ⟨hmem.1, of_decide_eq_true hmem.2⟩

/-- **One place to the front is another section** exactly when a section begins at the place. -/
theorem sectionAt_pred {position : Nat} :
    sectionAt sections position = sectionAt sections (position + 1)
      ↔ ∀ divider, sectionAt sections (position + 1) = some divider → divider.index ≠ ((position + 1 : Nat) : Int) := by
  have hnarrow : (sections.filter (·.index ≤ ((position + 1 : Nat) : Int))).filter (·.index ≤ (position : Int))
      = sections.filter (·.index ≤ (position : Int)) := by
    rw [filter_filter]
    refine filter_congr fun divider _ => ?_
    by_cases h : divider.index ≤ (position : Int)
    · have hnext : divider.index ≤ ((position + 1 : Nat) : Int) := by omega
      rw [decide_eq_true h, decide_eq_true hnext]
      rfl
    · simp [h]
  constructor
  · intro hsame divider hdivider hindex
    rw [hdivider] at hsame
    have hle := (sectionAt_some hsame).2
    omega
  · intro h
    cases hlast : sectionAt sections (position + 1) with
    | none =>
      have hnil := getLast?_eq_none_iff.mp hlast
      unfold sectionAt
      rw [← hnarrow, hnil]
      rfl
    | some divider =>
      obtain ⟨front, hfrt⟩ := getLast?_eq_some_iff.mp hlast
      have hle := (sectionAt_some hlast).2
      have hne := h divider hlast
      have hbef : divider.index ≤ (position : Int) := by omega
      unfold sectionAt
      rw [← hnarrow, hfrt, filter_append, filter_singleton, decide_eq_true hbef]
      exact getLast?_concat

/-! ## What is promised -/

def Action.edits (platform : Platform) (action : Action) : Option (Uuid × String) :=
  (action.adds platform).or (action.removes platform)

/-- After the call every watchlist is bounded, and if the call added or removed a symbol, every other one is in
the section it was in. -/
structure KeepsSections (platform : Platform) (before : Store) (action : Action) (after : Store) : Prop where
  bounded : ∀ uid wid list, load after uid wid = .ok list → list.Bounded
  kept : ∀ edited, action.edits platform = some edited → ∀ uid wid list list', load before uid wid = .ok list →
    load after uid wid = .ok list' → ∀ symbol ∈ list.symbols, (wid, symbol) ≠ edited →
    list'.sectionOf symbol = list.sectionOf symbol

/-- No symbol behind this one begins a section, and no section is anchored at the end. -/
def Store.NoSectionBehind (store : Store) (wid : Uuid) (symbol : String) : Prop :=
  (∀ divider ∈ store.sectionsOf wid, divider.index ≠ (store.symbolsOf wid).length) ∧
  ∀ position, (store.symbolsOf wid).idxOf symbol < position → position < (store.symbolsOf wid).length →
    ∀ divider, sectionAt (store.sectionsOf wid) position = some divider → divider.index ≠ (position : Int)

/-- What is removed has no section behind it. -/
def RemovesNoAnchor (platform : Platform) (store : Store) (action : Action) : Prop :=
  ∀ wid symbol, action.removes platform = some (wid, symbol) → symbol ∈ store.symbolsOf wid → store.NoSectionBehind wid symbol

/-- The rows of the sections are anchored within the rows of the symbols. -/
def Store.Bounded (store : Store) : Prop :=
  ∀ wid, ∀ row ∈ store.sectionRows wid, 0 ≤ row.symbolIndex ∧ row.symbolIndex ≤ (store.symbolRows wid).length

variable {uid wid : Uuid}

theorem Store.Bounded.load {list : Watchlist} (h : store.Bounded) (hload : load store uid wid = .ok list) : list.Bounded := by
  obtain ⟨-, hsyms, hsecs⟩ := load_some hload
  intro divider hdivider
  rw [hsecs, mem_sectionsOf] at hdivider
  obtain ⟨row, hrow, rfl⟩ := hdivider
  rw [hsyms, length_symbolsOf]
  exact h wid row hrow

/-! ## Removing a symbol from an ordered list -/

variable {symbol removed : String}

theorem idxOf_remove_before {front : List String} (removed : String) (back : List String) (hfrt : symbol ∈ front) :
    (front ++ back).idxOf symbol = (front ++ removed :: back).idxOf symbol := by
  rw [idxOf_append_of_mem hfrt, idxOf_append_of_mem hfrt]

theorem idxOf_remove_behind {front : List String} (back : List String) (hfrt : symbol ∉ front) (hne : symbol ≠ removed) :
    (front ++ removed :: back).idxOf symbol = (front ++ back).idxOf symbol + 1 := by
  rw [idxOf_append_of_notMem hfrt, idxOf_append_of_notMem hfrt, idxOf_cons_ne _ (Ne.symm hne)]
  omega

/-- A list without one of its members is what stood before it and what stood behind. -/
theorem filter_ne_split {symbols : List String} (hndp : symbols.Nodup) (hmem : removed ∈ symbols) :
    ∃ front back, symbols = front ++ removed :: back ∧ symbols.filter (· ≠ removed) = front ++ back := by
  obtain ⟨front, back, -, hspl, hers⟩ := exists_erase_eq hmem
  refine ⟨front, back, hspl, ?_⟩
  rw [← hers, hndp.erase_eq_filter]
  exact filter_congr fun _ _ => Bool.eq_iff_iff.mpr (by simp)

theorem filter_ne_of_not_mem {symbols : List String} (h : removed ∉ symbols) : symbols.filter (· ≠ removed) = symbols := by
  rw [filter_eq_self]
  exact fun symbol hsym => decide_eq_true fun hsame => h (hsame ▸ hsym)

/-! ## What the calls do to the ordered symbols -/

theorem added_symbolsOf {row : SymbolRow} (hordd : store.Ordered) (hordd' : store'.Ordered)
    (h : store'.symbols = insertUnless (fun other => other.watchlistId = wid && other.symbol = symbol) row store.symbols)
    (hwid : row.watchlistId = wid) (wid' : Uuid) :
    ∃ last, store'.symbolsOf wid' = store.symbolsOf wid' ++ last := by
  rw [hordd.symbolsOf, hordd'.symbolsOf, added_symbolRows h hwid]
  split
  · rename_i hnew
    rw [hnew.1, map_append]
    exact ⟨_, rfl⟩
  · exact ⟨[], (append_nil _).symm⟩

theorem removed_symbolsOf (hordd : store.Ordered) (hordd' : store'.Ordered)
    (h : store'.symbols = store.symbols.filter fun row => !(row.watchlistId = wid && row.symbol = symbol)) :
    store'.symbolsOf wid = (store.symbolsOf wid).filter (· ≠ symbol) ∧
      ∀ wid', wid' ≠ wid → store'.symbolsOf wid' = store.symbolsOf wid' := by
  constructor
  · rw [hordd.symbolsOf, hordd'.symbolsOf, removed_symbolRows h, if_pos rfl, filter_map]
    rfl
  · intro wid' hoth
    rw [hordd.symbolsOf, hordd'.symbolsOf, removed_symbolRows h, if_neg hoth]

theorem Store.Ordered.nodup (h : store.Ordered) (wid : Uuid) : (store.symbolsOf wid).Nodup := by
  rw [h.symbolsOf]
  exact h.unique wid

theorem sectionsOf_congr (h : store'.sections = store.sections) (wid : Uuid) : store'.sectionsOf wid = store.sectionsOf wid := by
  unfold sectionsOf sectionRows
  rw [h]

theorem sectionOf_loaded {list : Watchlist} (hload : load store uid wid = .ok list) (symbol : String) :
    list.sectionOf symbol = sectionAt (store.sectionsOf wid) ((store.symbolsOf wid).idxOf symbol) := by
  obtain ⟨-, hsyms, hsecs⟩ := load_some hload
  unfold Watchlist.sectionOf
  rw [hsyms, hsecs]

/-- **The section of another symbol after a removal**: it is the one it was, unless the symbol stood behind the
removed one and its section began with it. -/
theorem sectionAt_removed {symbols : List String} (hndp : symbols.Nodup) (hmem : removed ∈ symbols) (hne : symbol ≠ removed) :
    sectionAt sections ((symbols.filter (· ≠ removed)).idxOf symbol) = sectionAt sections (symbols.idxOf symbol)
      ↔ (symbols.idxOf removed < symbols.idxOf symbol →
          ∀ divider, sectionAt sections (symbols.idxOf symbol) = some divider → divider.index ≠ (symbols.idxOf symbol : Int)) := by
  obtain ⟨front, back, hspl, hfilter⟩ := filter_ne_split hndp hmem
  rw [hfilter, hspl]
  have hremoved : (front ++ removed :: back).idxOf removed = front.length := by
    rw [hspl, nodup_append] at hndp
    rw [idxOf_append_of_notMem fun hfrt => hndp.2.2 removed hfrt removed mem_cons_self rfl, idxOf_cons_self]
    rfl
  rw [hremoved]
  by_cases hfrt : symbol ∈ front
  · rw [idxOf_remove_before removed back hfrt, idxOf_append_of_mem hfrt]
    refine iff_of_true rfl fun hbehind => ?_
    have hlt := idxOf_lt_length_of_mem hfrt
    omega
  · have hnext := idxOf_remove_behind back hfrt hne
    rw [hnext, sectionAt_pred]
    have hbehind : front.length < (front ++ back).idxOf symbol + 1 := by
      rw [idxOf_append_of_notMem hfrt]
      omega
    exact ⟨fun h _ => h, fun h => h hbehind⟩

/-! ## One call -/

theorem step_bounded {action : Action} (hordd : store.Ordered) (hbdd : store.Bounded)
    (hanchor : RemovesNoAnchor platform store action) (h : step platform store action = some store') : store'.Bounded := by
  intro wid' row hrow
  cases step_effect h with
  | untouched _ _ hsyms hsecs =>
    unfold sectionRows at hrow
    rw [hsecs] at hrow
    unfold symbolRows
    rw [hsyms]
    exact hbdd wid' row hrow
  | relaid _ _ wid symbols sections ids now _ hbounds hsyms hsecs =>
    rw [relaid_sectionRows hsecs] at hrow
    rw [relaid_symbolRows hsyms]
    split at hrow
    · rename_i hsame
      obtain ⟨-, layout, hlayout, hindex⟩ := mem_layoutSectionRows hrow
      have hlng := congrArg length (layoutSymbolRows_spec wid now 0 symbols).1
      rw [length_map] at hlng
      rw [if_pos hsame, hlng, hindex]
      exact hbounds layout hlayout
    · rename_i hoth
      rw [if_neg hoth]
      exact hbdd wid' row hrow
  | added wid symbol now _ _ hsyms hsecs =>
    obtain ⟨last, hlast⟩ := added_symbolsOf hordd (step_ordered hordd h) hsyms rfl wid'
    have hlng := congrArg length hlast
    rw [length_append, length_symbolsOf, length_symbolsOf] at hlng
    unfold sectionRows at hrow
    rw [hsecs] at hrow
    obtain ⟨hpos, hle⟩ := hbdd wid' row hrow
    exact ⟨hpos, by omega⟩
  | removed uid wid symbol _ _ hremo _ hsyms hsecs =>
    obtain ⟨hremoved, hoths⟩ := removed_symbolsOf hordd (step_ordered hordd h) hsyms
    have hold : row ∈ store.sectionRows wid' := by
      unfold sectionRows at hrow ⊢
      rw [hsecs] at hrow
      exact hrow
    obtain ⟨hpos, hle⟩ := hbdd wid' row hold
    rw [← length_symbolsOf] at hle ⊢
    refine ⟨hpos, ?_⟩
    by_cases hsame : wid' = wid
    · subst hsame
      rw [hremoved]
      by_cases hmem : symbol ∈ store.symbolsOf wid'
      · obtain ⟨front, back, hspl, hfilter⟩ := filter_ne_split (hordd.nodup wid') hmem
        have hend := (hanchor wid' symbol hremo hmem).1 _ (mem_sectionsOf.mpr ⟨row, hold, rfl⟩)
        have hlng := congrArg length hspl
        simp only [length_append, length_cons] at hlng
        rw [hfilter, length_append]
        dsimp only at hend
        omega
      · rw [filter_ne_of_not_mem hmem]
        exact hle
    · rw [hoths wid' hsame]
      exact hle

theorem step_kept {action : Action} (hordd : store.Ordered) (hanchor : RemovesNoAnchor platform store action)
    (h : step platform store action = some store') {edited : Uuid × String} (hedits : action.edits platform = some edited)
    {list list' : Watchlist} (hload : load store uid wid = .ok list) (hload' : load store' uid wid = .ok list')
    (hsym : symbol ∈ list.symbols) (hne : (wid, symbol) ≠ edited) :
    list'.sectionOf symbol = list.sectionOf symbol := by
  rw [sectionOf_loaded hload, sectionOf_loaded hload']
  rw [(load_some hload).2.1] at hsym
  cases step_effect h with
  | untouched hadds hremo | relaid hadds hremo =>
    simp [Action.edits, hadds, hremo] at hedits
  | added wid' symbol' now _ _ hsyms hsecs =>
    obtain ⟨last, hlast⟩ := added_symbolsOf hordd (step_ordered hordd h) hsyms rfl wid
    rw [sectionsOf_congr hsecs, hlast, idxOf_append_of_mem hsym]
  | removed uid' wid' symbol' _ hadds hremo _ hsyms hsecs =>
    obtain ⟨hremoved, hoths⟩ := removed_symbolsOf hordd (step_ordered hordd h) hsyms
    have hedited : (wid', symbol') = edited := by simpa [Action.edits, hadds, hremo] using hedits
    subst hedited
    rw [sectionsOf_congr hsecs]
    by_cases hsame : wid = wid'
    · subst hsame
      have hoth : symbol ≠ symbol' := fun h => hne (by rw [h])
      rw [hremoved]
      by_cases hmem : symbol' ∈ store.symbolsOf wid
      · rw [sectionAt_removed (hordd.nodup wid) hmem hoth]
        intro hbehind
        exact (hanchor wid symbol' hremo hmem).2 _ hbehind (idxOf_lt_length_of_mem hsym)
      · rw [filter_ne_of_not_mem hmem]
    · rw [hoths wid hsame]

theorem anchors_of_kept {action : Action} (hordd : store.Ordered) (h : step platform store action = some store')
    (hkeeps : KeepsSections platform store action store') : RemovesNoAnchor platform store action := by
  intro wid symbol hremo hmem
  cases step_effect h with
  | untouched _ hnone | relaid _ hnone | added _ _ _ _ hnone =>
    rw [hremo] at hnone
    cases hnone
  | removed uid wid' symbol' hfnd hadds hremo' hlists hsyms hsecs =>
    rw [hremo] at hremo'
    cases hremo'
    obtain ⟨hremoved, -⟩ := removed_symbolsOf hordd (step_ordered hordd h) hsyms
    obtain ⟨list, hload⟩ := load_of_found hfnd
    have hfnd' : (findWatchlist store' uid wid).isSome = true := by
      unfold findWatchlist at hfnd ⊢
      rw [hlists]
      exact hfnd
    obtain ⟨list', hload'⟩ := load_of_found hfnd'
    obtain ⟨-, hsyms', hsecs'⟩ := load_some hload'
    have hndp := hordd.nodup wid
    obtain ⟨front, back, hspl, hfilter⟩ := filter_ne_split hndp hmem
    constructor
    · intro divider hdivider hend
      have hbnd := (hkeeps.bounded uid wid list' hload' divider (by rw [hsecs', sectionsOf_congr hsecs]; exact hdivider)).2
      rw [hsyms', hremoved, hfilter] at hbnd
      rw [hspl] at hend
      simp only [length_append, length_cons] at hbnd hend
      omega
    · intro position hbehind hlt
      obtain ⟨other, hoth, hidx⟩ : ∃ other ∈ store.symbolsOf wid, (store.symbolsOf wid).idxOf other = position :=
        ⟨(store.symbolsOf wid)[position], getElem_mem hlt, hndp.idxOf_getElem position hlt⟩
      have hne : other ≠ symbol := by
        rintro rfl
        omega
      have hkept := hkeeps.kept (wid, symbol) (by simp [Action.edits, hadds, hremo]) uid wid list list' hload hload' other
        (by rw [(load_some hload).2.1]; exact hoth) (by simpa using hne)
      rw [sectionOf_loaded hload, sectionOf_loaded hload', sectionsOf_congr hsecs, hremoved,
        sectionAt_removed hndp hmem hne, hidx] at hkept
      exact hkept hbehind

/-! ## Whole runs -/

/-- **In every run of calls the sections survive the edits** exactly when every symbol that is removed has no
section behind it. -/
theorem sections_kept_iff {log : List (Move Store Action)} (hrun : Records (step platform) always moves Store.empty store log) :
    (∀ move ∈ log, RemovesNoAnchor platform move.before move.action) ↔
      ∀ move ∈ log, KeepsSections platform move.before move.action move.after := by
  refine hrun.all_iff (RemovesNoAnchor platform) (KeepsSections platform) (fun store => store.Ordered ∧ store.Bounded)
    ⟨ordered_empty, fun _ _ hnone => absurd hnone not_mem_nil⟩ ?_ ?_
  · intro before action after ⟨hordd, hbdd⟩ _ hstep hanchor
    have hbounded' := step_bounded hordd hbdd hanchor hstep
    refine ⟨⟨step_ordered hordd hstep, hbounded'⟩, fun uid wid list hload => hbounded'.load hload, ?_⟩
    intro edited hedits uid wid list list' hload hload' symbol hsym hne
    exact step_kept hordd hanchor hstep hedits hload hload' hsym hne
  · intro before action after ⟨hordd, _⟩ _ hstep hkeeps
    exact anchors_of_kept hordd hstep hkeeps

/-- A platform for upper case symbols, with two UUIDs. -/
def examplePlatform : Platform where
  toUpper := id
  toLower := id
  scanUUID text :=
    if text = "00000000-0000-4000-8000-000000000001" then some 1
    else if text = "00000000-0000-4000-8000-000000000002" then some 2
    else none

/-- A watchlist of three symbols, of which `second` begins at the given index, and the removal of one. -/
def removalOf (symbol : String) (index : Int) : List Action :=
  let user := "00000000-0000-4000-8000-000000000001"
  let list := "00000000-0000-4000-8000-000000000002"
  [.create user "Default" 2 100,
    .replaceLayout user list ⟨["EURUSD", "XAUUSD", "BTCUSD"], [⟨"Second", index⟩], none, none⟩ (fun i => 7 + i) 110,
    .addSymbol user list "US30" 120,
    .removeSymbol user list symbol]

theorem sections_kept_of_second : ∃ store log,
    Records (step examplePlatform) always moves Store.empty store log ∧ log.length = 4 ∧
      ∀ move ∈ log, KeepsSections examplePlatform move.before move.action move.after := by
  have hsome : ((execRecords (step examplePlatform) (fun _ _ => true) moves empty [] (removalOf "XAUUSD" 1)).map
      fun final => (final.2.map fun move =>
        (move.action.removes examplePlatform, move.before.symbolsOf 2, move.before.sectionsOf 2)))
      = some [(none, [], []), (none, [], []), (none, ["EURUSD", "XAUUSD", "BTCUSD"], [⟨7, "Second", 1⟩]),
        (some (2, "XAUUSD"), ["EURUSD", "XAUUSD", "BTCUSD", "US30"], [⟨7, "Second", 1⟩])] := by
    decide +kernel
  obtain ⟨final, hexec, hview⟩ := Option.map_eq_some_iff.mp hsome
  have hrun := records_exec hexec
  refine ⟨final.1, final.2, hrun, ?_, ?_⟩
  · have hlng := congrArg length hview
    rw [length_map] at hlng
    exact hlng
  · refine (sections_kept_iff hrun).mp fun move hmove wid symbol hremo hmem => ?_
    have hseen := mem_map_of_mem (f := fun move : Move Store Action =>
      (move.action.removes examplePlatform, move.before.symbolsOf 2, move.before.sectionsOf 2)) hmove
    rw [hview, hremo] at hseen
    simp only [mem_cons, Prod.mk.injEq, reduceCtorEq, false_and, false_or, Option.some.injEq, not_mem_nil, or_false] at hseen
    obtain ⟨⟨rfl, rfl⟩, hsyms, hsecs⟩ := hseen
    unfold Store.NoSectionBehind
    rw [hsyms, hsecs]
    refine ⟨by decide, fun position hbehind hlt divider hdivider hindex => ?_⟩
    have hone : divider.index = 1 := by
      have hmem := (sectionAt_some hdivider).1
      rw [mem_singleton.mp hmem]
    have hpl : ["EURUSD", "XAUUSD", "BTCUSD", "US30"].idxOf "XAUUSD" = 1 := by decide
    omega

/-- **A removal in front of a section takes its first symbol out of it.** -/
theorem removal_moves_section : ∃ store log, Records (step examplePlatform) always moves Store.empty store log ∧
    ¬ ∀ move ∈ log, KeepsSections examplePlatform move.before move.action move.after := by
  have hsome : ((execRecords (step examplePlatform) (fun _ _ => true) moves empty [] (removalOf "EURUSD" 2)).bind
      fun final => final.2.getLast?.map fun move => (move.action.edits examplePlatform,
        (load move.before 1 2).toOption.map fun list => (list.symbols, list.sectionOf "BTCUSD"),
        (load move.after 1 2).toOption.map fun list => (list.symbols, list.sectionOf "BTCUSD")))
      = some (some (2, "EURUSD"), some (["EURUSD", "XAUUSD", "BTCUSD", "US30"], some ⟨7, "Second", 2⟩),
        some (["XAUUSD", "BTCUSD", "US30"], none)) := by
    rfl
  obtain ⟨final, hexec, hlast⟩ := Option.bind_eq_some_iff.mp hsome
  obtain ⟨move, hmove, hview⟩ := Option.map_eq_some_iff.mp hlast
  simp only [Prod.mk.injEq] at hview
  obtain ⟨hedits, hbef, haft⟩ := hview
  obtain ⟨list, hload, hlist⟩ := Option.map_eq_some_iff.mp hbef
  obtain ⟨list', hload', hlist'⟩ := Option.map_eq_some_iff.mp haft
  simp only [Prod.mk.injEq] at hlist hlist'
  refine ⟨final.1, final.2, records_exec hexec, fun hkeeps => ?_⟩
  have hkept := (hkeeps move (mem_of_getLast? hmove)).kept _ hedits 1 2 list list' (toOption_some hload)
    (toOption_some hload') "BTCUSD" (by rw [hlist.1]; decide) (by decide)
  rw [hlist.2, hlist'.2] at hkept
  cases hkept

end MarketLens.Watchlists
