import Mathlib.Data.List.Sort
import MarketLens.Lib.Paging
import MarketLens.Lib.Separated
import MarketLens.Mt5Vm.History

/-!
# Reading a history in pages

The orders and the deals of a window are read together, in the order of their times,
families and tickets. A page that leaves rows over ends with a cursor: the place of its
last row, signed for the account and the window it was read for.
-/

namespace MarketLens.Mt5Vm

open Store Fallible

/-! ## What is taken from outside -/

/-- The collation of the database: a total order of texts, equal texts alone being equal in it. -/
structure Collation where
  le : String → String → Bool
  total : ∀ a b, le a b = true ∨ le b a = true
  trans : ∀ a b c, le a b = true → le b c = true → le a c = true
  antisymm : ∀ a b, le a b = true → le b a = true → a = b

def Collation.lt (collation : Collation) (a b : String) : Bool := !collation.le b a

/-- `is_ascii_hexdigit`. -/
def isAsciiHexdigit (c : Char) : Bool := isAsciiDigit c || ('a' ≤ c && c ≤ 'f') || ('A' ≤ c && c ≤ 'F')

/-- SHA-256 of a text, in hexadecimal. -/
structure Digest where
  hex : String → String
  length : ∀ text, (hex text).length = 64
  digits : ∀ text, (hex text).toList.all isAsciiHexdigit = true

/-! ## Places and cursors -/

/-- `(event_ms, family, broker_ticket)`. -/
structure Place where
  eventMs : Int
  family : String
  ticket : String

/-- The comparison of rows: the first column that differs decides. -/
def Place.lt (collation : Collation) (a b : Place) : Bool :=
  a.eventMs < b.eventMs
    || (a.eventMs = b.eventMs && (collation.lt a.family b.family
      || (a.family = b.family && collation.lt a.ticket b.ticket)))

def signedText (accountId : AccountId) (fromMs toMs : Int) (place : Place) : String :=
  accountId ++ "|" ++ toString fromMs ++ "|" ++ toString toMs ++ "|" ++ place.family ++ "|" ++ toString place.eventMs
    ++ "|" ++ place.ticket

section
variable (digest : Digest) (accountId : AccountId) (fromMs toMs : Int) (place : Place)

/-- `history_cursor_signature`. -/
def historyCursorSignature : String :=
  digest.hex (signedText accountId fromMs toMs place)

def historyCursor : String :=
  place.family ++ ":" ++ toString place.eventMs ++ ":" ++ place.ticket ++ ":"
    ++ historyCursorSignature digest accountId fromMs toMs place

end

def isI64 (n : Int) : Bool := -2 ^ 63 ≤ n && n < 2 ^ 63

/-- `parse::<i64>`. -/
def parseI64 (text : List Char) : Option Int := (Separated.readDigits text).filter isI64

/-- `decode_history_cursor`. -/
def decodeHistoryCursor (digest : Digest) (cursor : Option String) (accountId : AccountId) (fromMs toMs : Int) :
    Except ApiError (Option Place) :=
  match cursor with
  | none => .ok none
  | some cursor => do
    refuseIf (cursor.utf8ByteSize > 256) (invalidSnapshot "history cursor is too long")
    let parts := Separated.splitn 4 ':' cursor.toList
    let part (n : Nat) : String := String.ofList (parts.getD n [])
    refuseIf (!(part 0 = "orders_history" || part 0 = "deals") || (part 2).isEmpty
        || (part 3).utf8ByteSize ≠ 64 || !(part 3).toList.all isAsciiHexdigit)
      (invalidSnapshot "history cursor is invalid")
    let eventMs ← require (parseI64 (parts.getD 1 [])) (invalidSnapshot "history cursor is invalid")
    let place : Place := ⟨eventMs, part 0, part 2⟩
    refuseIf (historyCursorSignature digest accountId fromMs toMs place ≠ part 3)
      (invalidSnapshot "history cursor is invalid")
    return some place

/-! ## The rows of a window -/

/-- `(extract(epoch FROM …) * 1000)::bigint`, which rounds to the nearest, away from zero between two. -/
def epochMs (timestamp : Int) : Int :=
  if 0 ≤ timestamp then (timestamp + 500) / 1000 else -((-timestamp + 500) / 1000)

/-- The object a row is answered as; the columns that are only copied are one text. -/
inductive HistoryObject where
  | order (brokerTicket columns : String) (placedAtMs doneAtMs : Option Int)
  | deal (brokerTicket columns : String) (occurredAtMs : Int)

/-- A row of `history`. -/
structure HistoryRow where
  family : String
  eventMs : Int
  brokerTicket : String
  payload : HistoryObject

def HistoryRow.place (row : HistoryRow) : Place := ⟨row.eventMs, row.family, row.brokerTicket⟩

structure HistoryWindow where
  ownerId : OwnerId
  accountId : AccountId
  fromMs : Int
  toMs : Int

def HistoryWindow.contains (window : HistoryWindow) (timestamp : Int) : Bool :=
  toTimestamp window.fromMs ≤ timestamp && timestamp < toTimestamp window.toMs

/-- `COALESCE(done_at, placed_at)`. -/
def HistoryOrder.eventAt (order : HistoryOrder) : Option Int := order.doneAt.or order.placedAt

def HistoryWindow.orderRow? (window : HistoryWindow) (order : HistoryOrder) : Option HistoryRow :=
  match order.eventAt with
  | none => none
  | some event =>
    if order.userId = window.ownerId && order.accountId = window.accountId && window.contains event then
      some ⟨"orders_history", epochMs event, order.brokerTicket,
        .order order.brokerTicket order.columns (order.placedAt.map epochMs) (order.doneAt.map epochMs)⟩
    else none

def HistoryWindow.dealRow? (window : HistoryWindow) (deal : Deal) : Option HistoryRow :=
  if deal.userId = window.ownerId && deal.accountId = window.accountId && window.contains deal.occurredAt then
    some ⟨"deals", epochMs deal.occurredAt, deal.brokerTicket,
      .deal deal.brokerTicket deal.columns (epochMs deal.occurredAt)⟩
  else none

/-- The rows of a window, `ORDER BY event_ms, family, broker_ticket`. -/
def HistoryWindow.rows (collation : Collation) (store : HistoryStore) (window : HistoryWindow) : List HistoryRow :=
  (store.orders.rows.filterMap window.orderRow? ++ store.deals.rows.filterMap window.dealRow?).insertionSort
    fun a b => b.place.lt collation a.place = false

/-! ## Pages -/

/-- The loop over the rows of a page: the orders, the deals, and the cursor at the last of `limit` rows. -/
def splitPage (cursorAt : Place → String) (hasMore : Bool) (limit : Nat) :
    Nat → List HistoryRow → List HistoryObject × List HistoryObject × Option String
  | _, [] => ([], [], none)
  | index, row :: rest =>
    if limit ≤ index then ([], [], none)
    else
      let (orders, deals, next) := splitPage cursorAt hasMore limit (index + 1) rest
      let here := if hasMore && index = limit - 1 then some (cursorAt row.place) else none
      if row.family = "orders_history" then (row.payload :: orders, deals, next.or here)
      else (orders, row.payload :: deals, next.or here)

/-- `read_history_page`: one row more than the limit is fetched, to see whether there is one. -/
def readHistoryPage (collation : Collation) (digest : Digest) (store : HistoryStore) (window : HistoryWindow) (limit : Nat)
    (cursor : Option Place) : List HistoryObject × List HistoryObject × Option String :=
  let rows := (Paging.after (Place.lt collation) HistoryRow.place (window.rows collation store) cursor).take (limit + 1)
  splitPage (historyCursor digest window.accountId window.fromMs window.toMs) (rows.length > limit) limit 0 rows

structure CoverageObject where
  family : HistoryFamily
  result : SnapshotResult
  errorCode : Option String
  requestedFromMs : Int
  requestedToMs : Int
  coveredThroughMs : Option Int

structure HistoryAnswer where
  accountId : AccountId
  ordersHistory : List HistoryObject
  deals : List HistoryObject
  coverage : List CoverageObject
  nextCursor : Option String

/-- `HistoryQuery`, its owner parsed and its times as the integers of the transport. -/
structure HistoryQuery where
  window : HistoryWindow
  limit : Int
  cursor : Option String
  times : isI64 window.fromMs = true ∧ isI64 window.toMs = true

def maxHistoryLimit : Int := 500

/-- The coverage of an account, an object with a field for each family. -/
def coverageObjects (store : HistoryStore) (window : HistoryWindow) : List CoverageObject :=
  (store.coverage.filter fun row => row.userId = window.ownerId && row.accountId = window.accountId).map fun row =>
    ⟨row.family, row.lastResult, row.lastErrorCode, epochMs row.requestedFrom, epochMs row.requestedTo,
      row.coveredThrough.map epochMs⟩

/-- `read_history_route`. -/
def readHistory (settings : Settings) (collation : Collation) (digest : Digest) (adminToken : String) (s : World)
    (store : HistoryStore) (query : HistoryQuery) : Except ApiError HistoryAnswer := do
  requireAdmin settings adminToken
  let window := query.window
  refuseIf ((trim window.accountId).isEmpty || window.accountId.utf8ByteSize > 96 || window.fromMs ≤ 0
      || window.toMs ≤ window.fromMs || window.toMs - window.fromMs > maxHistoryWindowMs
      || window.toMs > (s.now : Int) + 30000 || !(1 ≤ query.limit && query.limit ≤ maxHistoryLimit))
    (invalidSnapshot "history window is invalid")
  let cursor ← decodeHistoryCursor digest query.cursor window.accountId window.fromMs window.toMs
  refuseIf (!s.accounts.any (·.isOf window.ownerId window.accountId))
    ⟨.notFound, "MT5_VM_ACCOUNT_NOT_FOUND", "MT5 VM account was not found"⟩
  let (orders, deals, next) := readHistoryPage collation digest store window query.limit.toNat cursor
  return ⟨window.accountId, orders, deals, coverageObjects store window, next⟩

end MarketLens.Mt5Vm
