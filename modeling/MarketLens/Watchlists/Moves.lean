import MarketLens.Watchlists.Layout

/-!
# What a call does to the symbols and the sections

The rows of a watchlist's symbols stand in the order of their positions, each symbol
once: a layout is written from the front, and an added symbol goes behind the others.
-/

namespace MarketLens.Watchlists

open List Option Watchlists.Store Fallible Runs

variable {platform : Platform} {store store' : Store}

/-! ## The tables -/

/-- The rows of a watchlist stand in the order of their positions, and no symbol twice. -/
structure Store.Ordered (store : Store) : Prop where
  positions : ∀ wid, (store.symbolRows wid).Pairwise fun first second => first.position < second.position
  unique : ∀ wid, ((store.symbolRows wid).map (·.symbol)).Nodup

theorem Store.Ordered.symbolsOf (h : store.Ordered) (wid : Uuid) :
    store.symbolsOf wid = (store.symbolRows wid).map (·.symbol) := by
  have hsrt : (store.symbolRows wid).Pairwise SymbolRow.before := (h.positions wid).imp fun hlt => .inl hlt
  unfold Store.symbolsOf
  rw [hsrt.insertionSort_eq]

theorem Store.length_symbolsOf (store : Store) (wid : Uuid) : (store.symbolsOf wid).length = (store.symbolRows wid).length := by
  unfold Store.symbolsOf
  rw [length_map, length_insertionSort]

variable {wid : Uuid}

theorem Store.mem_sectionsOf {divider : WatchlistSection} :
    divider ∈ store.sectionsOf wid ↔ ∃ row ∈ store.sectionRows wid, divider = ⟨row.id, row.title, row.symbolIndex⟩ := by
  unfold sectionsOf
  simp only [List.mem_map, List.mem_insertionSort]
  exact ⟨fun ⟨row, hrow, h⟩ => ⟨row, hrow, h.symm⟩, fun ⟨row, hrow, h⟩ => ⟨row, hrow, h.symm⟩⟩

variable {uid wid : Uuid}

theorem load_some {list : Watchlist} (h : load store uid wid = .ok list) :
    (findWatchlist store uid wid).isSome = true ∧ list.symbols = store.symbolsOf wid ∧ list.sections = store.sectionsOf wid := by
  obtain ⟨row, hrow, h⟩ := bind_ok.mp h
  rw [require_ok] at hrow
  cases h
  exact ⟨by rw [hrow]; rfl, rfl, rfl⟩

theorem load_of_found (h : (findWatchlist store uid wid).isSome = true) : ∃ list, load store uid wid = .ok list := by
  obtain ⟨row, hrow⟩ := isSome_iff_exists.mp h
  exact ⟨_, bind_ok.mpr ⟨row, require_ok.mpr hrow, rfl⟩⟩

theorem lt_nextPosition {positions : List Int} {position : Int} (h : position ∈ positions) :
    position < nextPosition positions := by
  unfold nextPosition
  cases hmax : positions.max? with
  | none =>
    rw [max?_eq_none_iff.mp hmax] at h
    exact absurd h not_mem_nil
  | some last =>
    have hle := (max?_eq_some_iff.mp hmax).2 position h
    show position < last + 1
    omega

/-! ## Normalizing -/

theorem normalizeSymbolsFrom_nodup (seen input : List String) :
    (normalizeSymbolsFrom platform seen input).Nodup ∧ ∀ symbol ∈ normalizeSymbolsFrom platform seen input, symbol ∉ seen := by
  induction input generalizing seen with
  | nil => exact ⟨nodup_nil, forall_mem_nil _⟩
  | cons value rest ih =>
    unfold normalizeSymbolsFrom
    dsimp only
    split
    · exact ih seen
    · rename_i hnew
      obtain ⟨hndp, hfsh⟩ := ih (platform.toUpper (trim value) :: seen)
      have hunseen : platform.toUpper (trim value) ∉ seen := by
        simp only [Bool.or_eq_true, contains_iff_mem, not_or] at hnew
        exact hnew.2
      constructor
      · rw [nodup_cons]
        exact ⟨fun hmem => hfsh _ hmem mem_cons_self, hndp⟩
      · intro symbol hsym
        rcases mem_cons.mp hsym with rfl | hsym
        · exact hunseen
        · exact fun hmem => hfsh symbol hsym (mem_cons_of_mem _ hmem)

theorem clampIndex_bounds (index : Int) (symbolCount : Nat) :
    0 ≤ clampIndex index symbolCount ∧ clampIndex index symbolCount ≤ symbolCount := by
  unfold clampIndex
  dsimp only
  split <;> split <;> omega

theorem normalizeSections_bounds {input : List LayoutSection} {symbolCount : Nat} {layout : LayoutSection}
    (h : layout ∈ normalizeSections input symbolCount) : 0 ≤ layout.index ∧ layout.index ≤ symbolCount := by
  obtain ⟨value, _, h⟩ := mem_filterMap.mp h
  dsimp only at h
  split at h
  · cases h
  · cases h
    exact clampIndex_bounds value.index symbolCount

/-! ## What each call does to the two tables -/

theorem parseIds_ok {userID id : String} (h : parseIds platform userID id = .ok (uid, wid)) :
    platform.scanUUID userID = some uid ∧ platform.scanUUID id = some wid := by
  obtain ⟨uid', huid, h⟩ := bind_ok.mp h
  obtain ⟨wid', hwid, h⟩ := bind_ok.mp h
  cases h
  exact ⟨require_ok.mp huid, require_ok.mp hwid⟩

theorem ownedIDs_ok {userID id : String} :
    ownedIDs platform userID id store = .ok (uid, wid)
      ↔ parseIds platform userID id = .ok (uid, wid) ∧ (findWatchlist store uid wid).isSome = true := by
  unfold ownedIDs
  constructor
  · intro h
    obtain ⟨⟨uid', wid'⟩, hids, h⟩ := bind_ok.mp h
    obtain ⟨hfnd, h⟩ := unit_bind_ok.mp h
    cases h
    rw [refuseIf_ok, isNone_eq_false_iff] at hfnd
    exact ⟨hids, hfnd⟩
  · rintro ⟨hids, hfnd⟩
    refine bind_ok.mpr ⟨_, hids, unit_bind_ok.mpr ⟨?_, rfl⟩⟩
    rw [refuseIf_ok, isNone_eq_false_iff]
    exact hfnd

/-- The inserted rows, the first at position `i`. -/
def layoutSymbolRows (wid : Uuid) (now : Int) : Nat → List String → List SymbolRow
  | _, [] => []
  | i, symbol :: rest => ⟨wid, symbol, i, now⟩ :: layoutSymbolRows wid now (i + 1) rest

def layoutSectionRows (wid : Uuid) (ids : Nat → Uuid) (now : Int) : Nat → List LayoutSection → List SectionRow
  | _, [] => []
  | i, layout :: rest => ⟨ids i, wid, layout.title, layout.index, i, now⟩ :: layoutSectionRows wid ids now (i + 1) rest

variable {now : Int} {i : Nat}

theorem insertSymbols_rows {symbols : List String} {rows rows' : List SymbolRow}
    (h : insertSymbols wid now i symbols rows = .ok rows') : rows' = rows ++ layoutSymbolRows wid now i symbols := by
  induction symbols generalizing i rows with
  | nil =>
    cases h
    exact (append_nil _).symm
  | cons symbol rest ih =>
    obtain ⟨inserted, hinse, h⟩ := bind_ok.mp h
    obtain ⟨-, hinse⟩ := unit_bind_ok.mp hinse
    cases hinse
    rw [ih h, append_assoc]
    rfl

variable {ids : Nat → Uuid} {sections : List LayoutSection}

theorem insertSections_rows {rows rows' : List SectionRow} (h : insertSections wid ids now i sections rows = .ok rows') :
    rows' = rows ++ layoutSectionRows wid ids now i sections := by
  induction sections generalizing i rows with
  | nil =>
    cases h
    exact (append_nil _).symm
  | cons layout rest ih =>
    obtain ⟨inserted, hinse, h⟩ := bind_ok.mp h
    obtain ⟨-, hinse⟩ := unit_bind_ok.mp hinse
    cases hinse
    rw [ih h, append_assoc]
    rfl

theorem layoutSymbolRows_spec (wid : Uuid) (now : Int) (i : Nat) (symbols : List String) :
    (layoutSymbolRows wid now i symbols).map (·.symbol) = symbols ∧
      (∀ row ∈ layoutSymbolRows wid now i symbols, row.watchlistId = wid ∧ (i : Int) ≤ row.position) ∧
      (layoutSymbolRows wid now i symbols).Pairwise fun first second => first.position < second.position := by
  induction symbols generalizing i with
  | nil => exact ⟨rfl, nofun, List.Pairwise.nil⟩
  | cons symbol rest ih =>
    obtain ⟨hsyms, hrows, hordd⟩ := ih (i + 1)
    unfold layoutSymbolRows
    refine ⟨?_, ?_, ?_⟩
    · rw [map_cons, hsyms]
    · intro row hrow
      rcases mem_cons.mp hrow with rfl | hrow
      · exact ⟨rfl, le_refl _⟩
      · obtain ⟨hwid, hposn⟩ := hrows row hrow
        exact ⟨hwid, by omega⟩
    · rw [pairwise_cons]
      refine ⟨fun row hrow => ?_, hordd⟩
      have hposn := (hrows row hrow).2
      show (i : Int) < row.position
      omega

theorem mem_layoutSectionRows {row : SectionRow} (h : row ∈ layoutSectionRows wid ids now i sections) :
    row.watchlistId = wid ∧ ∃ layout ∈ sections, row.symbolIndex = layout.index := by
  induction sections generalizing i with
  | nil => exact absurd h not_mem_nil
  | cons layout rest ih =>
    rcases mem_cons.mp h with rfl | h
    · exact ⟨rfl, layout, mem_cons_self, rfl⟩
    · obtain ⟨hwid, layout', hlayout, hindex⟩ := ih h
      exact ⟨hwid, layout', mem_cons_of_mem _ hlayout, hindex⟩

/-- The watchlist and the symbol that a call adds, as the table has them. -/
def Action.adds (platform : Platform) : Action → Option (Uuid × String)
  | .addSymbol _ id symbol _ => (platform.scanUUID id).map fun wid => (wid, platform.toUpper (trim symbol))
  | _ => none

/-- The watchlist and the symbol that a call removes. -/
def Action.removes (platform : Platform) : Action → Option (Uuid × String)
  | .removeSymbol _ id symbol => (platform.scanUUID id).map fun wid => (wid, platform.toUpper (trim symbol))
  | _ => none

/-- What a call that answers does to the symbols and the sections. -/
inductive Effect (platform : Platform) (store : Store) (action : Action) (store' : Store) : Prop where
  | untouched (hadds : action.adds platform = none) (hremoves : action.removes platform = none)
      (hsymbols : store'.symbols = store.symbols) (hsections : store'.sections = store.sections)
  | relaid (hadds : action.adds platform = none) (hremoves : action.removes platform = none)
      (wid : Uuid) (symbols : List String) (sections : List LayoutSection) (ids : Nat → Uuid) (now : Int)
      (hnodup : symbols.Nodup) (hbounds : ∀ layout ∈ sections, 0 ≤ layout.index ∧ layout.index ≤ symbols.length)
      (hsymbols : store'.symbols = store.symbols.filter (·.watchlistId ≠ wid) ++ layoutSymbolRows wid now 0 symbols)
      (hsections : store'.sections = store.sections.filter (·.watchlistId ≠ wid) ++ layoutSectionRows wid ids now 0 sections)
  | added (wid : Uuid) (symbol : String) (now : Int)
      (hadds : action.adds platform = some (wid, symbol)) (hremoves : action.removes platform = none)
      (hsymbols : store'.symbols = Table.insertUnless (fun other => other.watchlistId = wid && other.symbol = symbol)
        ⟨wid, symbol, nextPosition ((store.symbolRows wid).map (·.position)), now⟩ store.symbols)
      (hsections : store'.sections = store.sections)
  | removed (uid wid : Uuid) (symbol : String) (hfound : (findWatchlist store uid wid).isSome = true)
      (hadds : action.adds platform = none) (hremoves : action.removes platform = some (wid, symbol))
      (hlists : store'.watchlists = store.watchlists)
      (hsymbols : store'.symbols = store.symbols.filter fun row => !(row.watchlistId = wid && row.symbol = symbol))
      (hsections : store'.sections = store.sections)

theorem step_effect {action : Action} (h : step platform store action = some store') : Effect platform store action store' := by
  have h := toOption_some h
  cases action with
  | create =>
    obtain ⟨-, h⟩ := unit_bind_ok.mp h
    obtain ⟨uid, -, h⟩ := bind_ok.mp h
    obtain ⟨-, h⟩ := unit_bind_ok.mp h
    cases h
    exact .untouched rfl rfl rfl rfl
  | delete =>
    obtain ⟨⟨uid, wid⟩, -, h⟩ := bind_ok.mp h
    obtain ⟨-, h⟩ := unit_bind_ok.mp h
    cases h
    exact .relaid rfl rfl wid [] [] (fun _ => 0) 0 nodup_nil (nofun) (append_nil _).symm (append_nil _).symm
  | setActive =>
    obtain ⟨⟨uid, wid⟩, -, h⟩ := bind_ok.mp h
    cases h
    exact .untouched rfl rfl rfl rfl
  | update =>
    obtain ⟨-, h⟩ := unit_bind_ok.mp h
    obtain ⟨key, -, h⟩ := bind_ok.mp h
    obtain ⟨dir, -, h⟩ := bind_ok.mp h
    obtain ⟨⟨uid, wid⟩, -, h⟩ := bind_ok.mp h
    obtain ⟨-, h⟩ := unit_bind_ok.mp h
    obtain ⟨-, h⟩ := unit_bind_ok.mp h
    cases h
    exact .untouched rfl rfl rfl rfl
  | replaceLayout userID id layout ids now =>
    obtain ⟨key, -, h⟩ := bind_ok.mp h
    obtain ⟨dir, -, h⟩ := bind_ok.mp h
    obtain ⟨⟨uid, wid⟩, -, h⟩ := bind_ok.mp h
    obtain ⟨-, h⟩ := unit_bind_ok.mp h
    obtain ⟨symbolRows, hsyms, h⟩ := bind_ok.mp h
    obtain ⟨sectionRows, hsecs, h⟩ := bind_ok.mp h
    cases h
    exact .relaid rfl rfl wid _ _ ids now (normalizeSymbolsFrom_nodup [] layout.symbols).1
      (fun _ hlayout => normalizeSections_bounds hlayout) (insertSymbols_rows hsyms) (insertSections_rows hsecs)
  | addSymbol userID id symbol now =>
    obtain ⟨-, h⟩ := unit_bind_ok.mp h
    obtain ⟨⟨uid, wid⟩, hids, h⟩ := bind_ok.mp h
    obtain ⟨-, h⟩ := unit_bind_ok.mp h
    cases h
    have hwid := (parseIds_ok (ownedIDs_ok.mp hids).1).2
    exact .added wid _ now (congrArg (Option.map _) hwid) rfl rfl rfl
  | removeSymbol =>
    obtain ⟨⟨uid, wid⟩, hids, h⟩ := bind_ok.mp h
    cases h
    obtain ⟨hparsed, hfnd⟩ := ownedIDs_ok.mp hids
    exact .removed uid wid _ hfnd rfl (congrArg (Option.map _) (parseIds_ok hparsed).2) rfl rfl rfl

/-! ## The rows of a watchlist afterwards -/

/-- A watchlist written anew has the new rows; the others have theirs. -/
theorem filter_relaid {Row : Type} {key : Row → Uuid} {rows new : List Row} (hnew : ∀ row ∈ new, key row = wid) (wid' : Uuid) :
    (rows.filter (key · ≠ wid) ++ new).filter (key · = wid') = if wid' = wid then new else rows.filter (key · = wid') := by
  rw [List.filter_append, List.filter_filter]
  split
  · rename_i hsame
    subst hsame
    have hgone : rows.filter (fun row => decide (key row = wid') && decide (key row ≠ wid')) = [] := by
      rw [filter_eq_nil_iff]
      intro row _
      by_cases h : key row = wid' <;> simp [h]
    rw [hgone, nil_append, filter_eq_self]
    exact fun row hrow => decide_eq_true (hnew row hrow)
  · rename_i hoth
    have hnone : new.filter (fun row => decide (key row = wid')) = [] := by
      rw [filter_eq_nil_iff]
      intro row hrow h
      exact hoth ((of_decide_eq_true h).symm.trans (hnew row hrow))
    rw [hnone, append_nil]
    refine filter_congr fun row _ => ?_
    by_cases h : key row = wid'
    · have hne : key row ≠ wid := fun h' => hoth (h.symm.trans h')
      simp [h, hoth]
    · simp [h]

theorem relaid_symbolRows {symbols : List String}
    (h : store'.symbols = store.symbols.filter (·.watchlistId ≠ wid) ++ layoutSymbolRows wid now 0 symbols) (wid' : Uuid) :
    store'.symbolRows wid' = if wid' = wid then layoutSymbolRows wid now 0 symbols else store.symbolRows wid' := by
  unfold symbolRows
  rw [h]
  exact filter_relaid (fun row hrow => ((layoutSymbolRows_spec wid now 0 symbols).2.1 row hrow).1) wid'

theorem relaid_sectionRows
    (h : store'.sections = store.sections.filter (·.watchlistId ≠ wid) ++ layoutSectionRows wid ids now 0 sections)
    (wid' : Uuid) :
    store'.sectionRows wid' = if wid' = wid then layoutSectionRows wid ids now 0 sections else store.sectionRows wid' := by
  unfold sectionRows
  rw [h]
  exact filter_relaid (fun _ hrow => (mem_layoutSectionRows hrow).1) wid'

theorem added_symbolRows {symbol : String} {row : SymbolRow}
    (h : store'.symbols = Table.insertUnless (fun other => other.watchlistId = wid && other.symbol = symbol) row store.symbols)
    (hwid : row.watchlistId = wid) (wid' : Uuid) :
    store'.symbolRows wid' = if wid' = wid ∧ symbol ∉ (store.symbolRows wid).map (·.symbol) then store.symbolRows wid ++ [row]
        else store.symbolRows wid' := by
  have hthere : (store.symbols.any fun other => other.watchlistId = wid && other.symbol = symbol) = true
      ↔ symbol ∈ (store.symbolRows wid).map (·.symbol) := by
    unfold symbolRows
    simp only [List.any_eq_true, Bool.and_eq_true, decide_eq_true_eq, List.mem_map, List.mem_filter]
    exact ⟨fun ⟨other, hoth, hw, hs⟩ => ⟨other, ⟨hoth, hw⟩, hs⟩, fun ⟨other, ⟨hoth, hw⟩, hs⟩ => ⟨other, hoth, hw, hs⟩⟩
  have hrows : store'.symbolRows wid' = store'.symbols.filter (·.watchlistId = wid') := rfl
  rw [hrows, h]
  unfold Table.insertUnless
  split
  · rename_i hany
    rw [if_neg fun h => h.2 (hthere.mp hany)]
    rfl
  · rename_i hany
    have hfsh : symbol ∉ (store.symbolRows wid).map (·.symbol) := fun h => hany (hthere.mpr h)
    rw [List.filter_append, filter_singleton, hwid]
    by_cases hsame : wid' = wid
    · subst hsame
      rw [if_pos ⟨rfl, hfsh⟩, decide_eq_true rfl]
      rfl
    · rw [if_neg fun h => hsame h.1, decide_eq_false fun h => hsame h.symm]
      exact append_nil _

theorem removed_symbolRows {symbol : String}
    (h : store'.symbols = store.symbols.filter fun row => !(row.watchlistId = wid && row.symbol = symbol)) (wid' : Uuid) :
    store'.symbolRows wid' = if wid' = wid then (store.symbolRows wid).filter (·.symbol ≠ symbol) else store.symbolRows wid' := by
  unfold symbolRows
  rw [h, List.filter_filter]
  split
  · rename_i hsame
    subst hsame
    rw [List.filter_filter]
    refine filter_congr fun row _ => ?_
    by_cases h : row.watchlistId = wid' <;> simp [h]
  · rename_i hoth
    refine filter_congr fun row _ => ?_
    by_cases h : row.watchlistId = wid'
    · simp [h, hoth]
    · simp [h]

/-! ## The order of the rows -/

theorem Store.ordered_empty : Store.empty.Ordered :=
  ⟨fun _ => List.Pairwise.nil, fun _ => nodup_nil⟩

/-- **Every call keeps the rows in order**, each symbol once. -/
theorem step_ordered {action : Action} (hordd : store.Ordered) (h : step platform store action = some store') :
    store'.Ordered := by
  suffices hrows : ∀ wid', ((store'.symbolRows wid').Pairwise fun first second => first.position < second.position) ∧
      ((store'.symbolRows wid').map (·.symbol)).Nodup from
    ⟨fun wid => (hrows wid).1, fun wid => (hrows wid).2⟩
  intro wid'
  have hold := And.intro (hordd.positions wid') (hordd.unique wid')
  cases step_effect h with
  | untouched _ _ hsyms =>
    unfold symbolRows
    rw [hsyms]
    exact hold
  | relaid _ _ wid symbols sections ids now hndp _ hsyms =>
    obtain ⟨hnam, -, hposs⟩ := layoutSymbolRows_spec wid now 0 symbols
    rw [relaid_symbolRows hsyms]
    split
    · exact ⟨hposs, by rw [hnam]; exact hndp⟩
    · exact hold
  | added wid symbol now _ _ hsyms =>
    rw [added_symbolRows hsyms rfl]
    split
    · rename_i hnew
      obtain ⟨rfl, hfsh⟩ := hnew
      constructor
      · rw [pairwise_append]
        refine ⟨hold.1, pairwise_singleton _ _, fun row hrow last hlast => ?_⟩
        rw [mem_singleton.mp hlast]
        exact lt_nextPosition (mem_map_of_mem hrow)
      · rw [map_append, map_singleton, ← concat_eq_append, nodup_concat]
        exact ⟨hfsh, hold.2⟩
    · exact hold
  | removed uid wid symbol _ _ _ _ hsyms =>
    rw [removed_symbolRows hsyms]
    split
    · rename_i hsame
      subst hsame
      exact ⟨hold.1.filter _, hold.2.sublist (filter_sublist.map _)⟩
    · exact hold

end MarketLens.Watchlists
