import Mathlib.Data.List.Sort
import MarketLens.Domain.Text
import MarketLens.Lib.Run
import MarketLens.Lib.Table

/-!
# The watchlists of a user

A watchlist has its symbols in one table and its section dividers in another. A
section is anchored at an index into the ordered symbols; the two tables share
nothing else. `replaceLayout` writes both anew; `addSymbol` and `removeSymbol`
write one row of the symbols.

A call is one transaction or one statement after reads of what it does not write,
and one that fails changes nothing.
-/

namespace MarketLens.Watchlists

open Fallible

abbrev Uuid := Nat

/-- What the service takes from outside: the letter cases of Unicode and the form of a UUID. -/
structure Platform where
  toUpper : String → String
  toLower : String → String
  scanUUID : String → Option Uuid

/-- `ErrNotFound`, `ErrBadRequest`, and what a failed statement or an invalid user id becomes. -/
inductive StoreError where
  | notFound
  | badRequest (message : String)
  | invalidId
  | internal

/-! ## The tables -/

/-- A row of `watchlists`. -/
structure WatchlistRow where
  id : Uuid
  userId : Uuid
  name : String
  position : Int
  shared : Bool
  sortKey : String
  sortDir : String
  createdAt : Int

/-- A row of `watchlist_symbols`. -/
structure SymbolRow where
  watchlistId : Uuid
  symbol : String
  position : Int
  createdAt : Int

/-- A row of `watchlist_sections`. -/
structure SectionRow where
  id : Uuid
  watchlistId : Uuid
  title : String
  symbolIndex : Int
  position : Int
  createdAt : Int

/-- A row of `watchlist_preferences`. -/
structure PreferenceRow where
  userId : Uuid
  activeWatchlistId : Option Uuid

structure Store where
  watchlists : List WatchlistRow
  symbols : List SymbolRow
  sections : List SectionRow
  preferences : List PreferenceRow

def Store.empty : Store := ⟨[], [], [], []⟩

/-- The rows of one watchlist. -/
def Store.symbolRows (store : Store) (wid : Uuid) : List SymbolRow :=
  store.symbols.filter (·.watchlistId = wid)

def Store.sectionRows (store : Store) (wid : Uuid) : List SectionRow :=
  store.sections.filter (·.watchlistId = wid)

/-- A column of type `integer`. -/
def isInteger (n : Int) : Bool := -2 ^ 31 ≤ n && n < 2 ^ 31

/-- `COALESCE(MAX(position) + 1, 0)`. -/
def nextPosition (positions : List Int) : Int :=
  match positions.max? with
  | none => 0
  | some last => last + 1

/-! ## A watchlist as it is returned -/

structure WatchlistSection where
  id : Uuid
  title : String
  index : Int
deriving DecidableEq

structure Watchlist where
  id : Uuid
  name : String
  position : Int
  symbols : List String
  sections : List WatchlistSection
  shared : Bool
  active : Bool
  sortKey : String
  sortDir : String

/-- `ORDER BY position, created_at`. -/
def SymbolRow.before (first second : SymbolRow) : Prop :=
  first.position < second.position ∨ (first.position = second.position ∧ first.createdAt ≤ second.createdAt)

def SectionRow.before (first second : SectionRow) : Prop :=
  first.position < second.position ∨ (first.position = second.position ∧ first.createdAt ≤ second.createdAt)

def WatchlistRow.before (first second : WatchlistRow) : Prop :=
  first.position < second.position ∨ (first.position = second.position ∧ first.createdAt ≤ second.createdAt)

instance : DecidableRel SymbolRow.before := fun _ _ => inferInstanceAs (Decidable (_ ∨ _))
instance : DecidableRel SectionRow.before := fun _ _ => inferInstanceAs (Decidable (_ ∨ _))
instance : DecidableRel WatchlistRow.before := fun _ _ => inferInstanceAs (Decidable (_ ∨ _))

/-- The symbols of a watchlist in their order. -/
def Store.symbolsOf (store : Store) (wid : Uuid) : List String :=
  ((store.symbolRows wid).insertionSort SymbolRow.before).map (·.symbol)

def Store.sectionsOf (store : Store) (wid : Uuid) : List WatchlistSection :=
  ((store.sectionRows wid).insertionSort SectionRow.before).map fun row => ⟨row.id, row.title, row.symbolIndex⟩

/-- `activeWatchlistID`. -/
def activeWatchlistID (store : Store) (uid : Uuid) : Option Uuid :=
  (store.preferences.find? (·.userId = uid)).bind (·.activeWatchlistId)

def findWatchlist (store : Store) (uid wid : Uuid) : Option WatchlistRow :=
  store.watchlists.find? fun row => row.id = wid && row.userId = uid

def load (store : Store) (uid wid : Uuid) : Except StoreError Watchlist := do
  let row ← require (findWatchlist store uid wid) .notFound
  return {
    id := row.id
    name := row.name
    position := row.position
    symbols := store.symbolsOf wid
    sections := store.sectionsOf wid
    shared := row.shared
    active := activeWatchlistID store uid = some wid
    sortKey := row.sortKey
    sortDir := row.sortDir }

/-! ## Normalizing -/

/-- A section of a requested layout; its id is not read. -/
structure LayoutSection where
  title : String
  index : Int

structure WatchlistLayout where
  symbols : List String
  sections : List LayoutSection
  sortKey : Option String
  sortDir : Option String

/-- The loop of `normalizeSymbols`: what is kept, in order, after the symbols `seen`. -/
def normalizeSymbolsFrom (platform : Platform) (seen : List String) : List String → List String
  | [] => []
  | value :: rest =>
    let symbol := platform.toUpper (trim value)
    if symbol = "" || seen.contains symbol then normalizeSymbolsFrom platform seen rest
    else symbol :: normalizeSymbolsFrom platform (symbol :: seen) rest

def normalizeSymbols (platform : Platform) (input : List String) : List String :=
  normalizeSymbolsFrom platform [] input

def clampIndex (index : Int) (symbolCount : Nat) : Int :=
  let index := if index < 0 then 0 else index
  if index > symbolCount then symbolCount else index

def normalizeSections (input : List LayoutSection) (symbolCount : Nat) : List LayoutSection :=
  input.filterMap fun value =>
    let title := trim value.title
    if title = "" then none else some ⟨title, clampIndex value.index symbolCount⟩

def normalizeSortKey (input : String) : Option String :=
  if ["manual", "symbol", "price", "change", "changeAbs", "volume"].contains (trim input) then some (trim input)
  else none

def normalizeSortDir (platform : Platform) (input : String) : Option String :=
  let direction := platform.toLower (trim input)
  if direction = "asc" || direction = "desc" then some direction else none

/-- A sort column of a request, left alone when it is not given. -/
def normalizeSort (normalize : String → Option String) (message : String) :
    Option String → Except StoreError (Option String)
  | none => .ok none
  | some value => do
    let normalized ← require (normalize value) (.badRequest message)
    return some normalized

/-! ## The calls -/

def parseIds (platform : Platform) (userID id : String) : Except StoreError (Uuid × Uuid) := do
  let uid ← require (platform.scanUUID userID) .invalidId
  let wid ← require (platform.scanUUID id) .notFound
  return (uid, wid)

/-- `ownedIDs`: the ids of a watchlist that belongs to the user. -/
def ownedIDs (platform : Platform) (userID id : String) (store : Store) : Except StoreError (Uuid × Uuid) := do
  let (uid, wid) ← parseIds platform userID id
  refuseIf (findWatchlist store uid wid).isNone .notFound
  return (uid, wid)

/-- `Create`; `id` is what `gen_random_uuid` gives, `now` the time of the statement. -/
def create (platform : Platform) (userID name : String) (id : Uuid) (now : Int) (store : Store) :
    Except StoreError Store := do
  let name := trim name
  refuseIf (name = "") (.badRequest "name is required")
  let uid ← require (platform.scanUUID userID) .invalidId
  let position := nextPosition ((store.watchlists.filter (·.userId = uid)).map (·.position))
  refuseIf (!isInteger position || store.watchlists.any (·.id = id)) .internal
  let keepActive := fun row : PreferenceRow => { row with activeWatchlistId := row.activeWatchlistId.or (some id) }
  return { store with
    watchlists := store.watchlists ++ [⟨id, uid, name, position, false, "symbol", "asc", now⟩]
    preferences := if store.preferences.any (·.userId = uid)
      then Table.updateWhere (·.userId = uid) keepActive store.preferences
      else store.preferences ++ [⟨uid, some id⟩] }

/-- `Delete`: the symbols and sections of the watchlist cascade, and what is active moves on. -/
def delete (platform : Platform) (userID id : String) (store : Store) : Except StoreError Store := do
  let (uid, wid) ← parseIds platform userID id
  refuseIf (findWatchlist store uid wid).isNone .notFound
  let watchlists := store.watchlists.filter fun row => !(row.id = wid && row.userId = uid)
  let cleared := Table.updateWhere (·.activeWatchlistId = some wid) (fun row => { row with activeWatchlistId := none })
    store.preferences
  let first := (((watchlists.filter (·.userId = uid)).insertionSort WatchlistRow.before).head?).map (·.id)
  return {
    watchlists := watchlists
    symbols := store.symbols.filter (·.watchlistId ≠ wid)
    sections := store.sections.filter (·.watchlistId ≠ wid)
    preferences := Table.updateWhere (fun row => row.userId = uid && row.activeWatchlistId.isNone)
      (fun row => { row with activeWatchlistId := first }) cleared }

/-- `SetActive`. -/
def setActive (platform : Platform) (userID id : String) (store : Store) : Except StoreError Store := do
  let (uid, wid) ← ownedIDs platform userID id store
  return { store with preferences := Table.upsert (·.userId) store.preferences ⟨uid, some wid⟩ }

/-- `Update`; what is not given is left alone. -/
def update (platform : Platform) (userID id : String) (name : Option String) (position : Option Int)
    (shared : Option Bool) (sortKey sortDir : Option String) (store : Store) : Except StoreError Store := do
  refuseIf (name.any (trim · = "")) (.badRequest "name cannot be empty")
  let sortKey ← normalizeSort normalizeSortKey "invalid sort key" sortKey
  let sortDir ← normalizeSort (normalizeSortDir platform) "invalid sort direction" sortDir
  let (uid, wid) ← parseIds platform userID id
  refuseIf (!position.all isInteger) .internal
  refuseIf (findWatchlist store uid wid).isNone .notFound
  let edit := fun row : WatchlistRow => { row with
    name := (name.map trim).getD row.name
    position := position.getD row.position
    shared := shared.getD row.shared
    sortKey := sortKey.getD row.sortKey
    sortDir := sortDir.getD row.sortDir }
  return { store with
    watchlists := Table.updateWhere (fun row => row.id = wid && row.userId = uid) edit store.watchlists }

/-- `INSERT INTO watchlist_symbols`, under `UNIQUE (watchlist_id, symbol)`. -/
def insertSymbol (row : SymbolRow) (rows : List SymbolRow) : Except StoreError (List SymbolRow) := do
  refuseIf (!isInteger row.position
    || rows.any (fun other => other.watchlistId = row.watchlistId && other.symbol = row.symbol)) .internal
  return rows ++ [row]

/-- The inserts of a layout's symbols, the next one at position `i`. -/
def insertSymbols (wid : Uuid) (now : Int) : Nat → List String → List SymbolRow → Except StoreError (List SymbolRow)
  | _, [], rows => .ok rows
  | i, symbol :: rest, rows => do
    let rows ← insertSymbol ⟨wid, symbol, i, now⟩ rows
    insertSymbols wid now (i + 1) rest rows

/-- `INSERT INTO watchlist_sections`, under its primary key. -/
def insertSection (row : SectionRow) (rows : List SectionRow) : Except StoreError (List SectionRow) := do
  refuseIf (!isInteger row.symbolIndex || !isInteger row.position || rows.any (·.id = row.id)) .internal
  return rows ++ [row]

/-- The inserts of a layout's sections, under the ids `gen_random_uuid` gives. -/
def insertSections (wid : Uuid) (ids : Nat → Uuid) (now : Int) :
    Nat → List LayoutSection → List SectionRow → Except StoreError (List SectionRow)
  | _, [], rows => .ok rows
  | i, layout :: rest, rows => do
    let rows ← insertSection ⟨ids i, wid, layout.title, layout.index, i, now⟩ rows
    insertSections wid ids now (i + 1) rest rows

/-- `ReplaceLayout`. -/
def replaceLayout (platform : Platform) (userID id : String) (layout : WatchlistLayout) (ids : Nat → Uuid) (now : Int)
    (store : Store) : Except StoreError Store := do
  let symbols := normalizeSymbols platform layout.symbols
  let sections := normalizeSections layout.sections symbols.length
  let sortKey ← normalizeSort normalizeSortKey "invalid sort key" layout.sortKey
  let sortDir ← normalizeSort (normalizeSortDir platform) "invalid sort direction" layout.sortDir
  let (uid, wid) ← parseIds platform userID id
  refuseIf (findWatchlist store uid wid).isNone .notFound
  let resort := fun row : WatchlistRow =>
    { row with sortKey := sortKey.getD row.sortKey, sortDir := sortDir.getD row.sortDir }
  let symbolRows ← insertSymbols wid now 0 symbols (store.symbols.filter (·.watchlistId ≠ wid))
  let sectionRows ← insertSections wid ids now 0 sections (store.sections.filter (·.watchlistId ≠ wid))
  return { store with
    watchlists := Table.updateWhere (·.id = wid) resort store.watchlists
    symbols := symbolRows
    sections := sectionRows }

/-- `AddSymbol`: a symbol that is there already stays where it is. -/
def addSymbol (platform : Platform) (userID id symbol : String) (now : Int) (store : Store) : Except StoreError Store := do
  refuseIf (trim symbol = "") (.badRequest "symbol is required")
  let symbol := platform.toUpper (trim symbol)
  let (_, wid) ← ownedIDs platform userID id store
  let position := nextPosition ((store.symbolRows wid).map (·.position))
  refuseIf (!isInteger position) .internal
  return { store with
    symbols := Table.insertUnless (fun other => other.watchlistId = wid && other.symbol = symbol)
      ⟨wid, symbol, position, now⟩ store.symbols }

/-- `RemoveSymbol`. -/
def removeSymbol (platform : Platform) (userID id symbol : String) (store : Store) : Except StoreError Store := do
  let (_, wid) ← ownedIDs platform userID id store
  let symbol := platform.toUpper (trim symbol)
  return { store with
    symbols := store.symbols.filter fun row => !(row.watchlistId = wid && row.symbol = symbol) }

inductive Action where
  | create (userID name : String) (id : Uuid) (now : Int)
  | delete (userID id : String)
  | setActive (userID id : String)
  | update (userID id : String) (name : Option String) (position : Option Int) (shared : Option Bool)
      (sortKey sortDir : Option String)
  | replaceLayout (userID id : String) (layout : WatchlistLayout) (ids : Nat → Uuid) (now : Int)
  | addSymbol (userID id symbol : String) (now : Int)
  | removeSymbol (userID id symbol : String)

/-- A call that answers; one that is refused changes nothing. -/
def call (platform : Platform) (store : Store) : Action → Except StoreError Store
  | .create userID name id now => create platform userID name id now store
  | .delete userID id => delete platform userID id store
  | .setActive userID id => setActive platform userID id store
  | .update userID id name position shared sortKey sortDir =>
    update platform userID id name position shared sortKey sortDir store
  | .replaceLayout userID id layout ids now => replaceLayout platform userID id layout ids now store
  | .addSymbol userID id symbol now => addSymbol platform userID id symbol now store
  | .removeSymbol userID id symbol => removeSymbol platform userID id symbol store

def step (platform : Platform) (store : Store) (action : Action) : Option Store := (call platform store action).toOption

end MarketLens.Watchlists
