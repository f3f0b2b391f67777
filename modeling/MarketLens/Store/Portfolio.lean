import MarketLens.Lib.Table
import MarketLens.Domain.Snapshot
import Mathlib.Data.Prod.Lex
import Mathlib.Data.List.Sort

/-!
# The stored portfolio

`execution_positions` and `execution_pending_orders` of one owner. The row of a
ticket is replaced by a snapshot that is not older than it; a complete snapshot
also deletes the tickets it no longer lists.
-/

namespace MarketLens.Store

structure PositionRow where
  accountId : String
  snapshot : EaPositionSnapshot

structure PendingOrderRow where
  accountId : String
  snapshot : EaPendingOrderSnapshot

structure PortfolioTables where
  positions : List PositionRow
  pendingOrders : List PendingOrderRow

/-- `SELECT snapshot … ORDER BY broker_position_id`. -/
def PortfolioTables.positionsOf (tables : PortfolioTables) (accountId : String) :
    List EaPositionSnapshot :=
  ((tables.positions.filter (·.accountId = accountId)).map (·.snapshot)).insertionSort
    fun a b => a.brokerPositionId ≤ b.brokerPositionId

/-- `SELECT snapshot … ORDER BY broker_order_id`. -/
def PortfolioTables.pendingOrdersOf (tables : PortfolioTables) (accountId : String) :
    List EaPendingOrderSnapshot :=
  ((tables.pendingOrders.filter (·.accountId = accountId)).map (·.snapshot)).insertionSort
    fun a b => a.brokerOrderId ≤ b.brokerOrderId

/-- The upsert of one position: a row observed later is kept. -/
def upsertPosition (accountId : String) (rows : List PositionRow)
    (position : EaPositionSnapshot) : List PositionRow :=
  if rows.any fun row => row.accountId = accountId
      && row.snapshot.brokerPositionId = position.brokerPositionId then
    Table.updateWhere (fun row => row.accountId = accountId
        && row.snapshot.brokerPositionId = position.brokerPositionId
        && row.snapshot.observedAtMs ≤ position.observedAtMs)
      (fun row => { row with snapshot := position }) rows
  else rows ++ [⟨accountId, position⟩]

/-- The upsert of one pending order: a row observed later is kept. -/
def upsertPendingOrder (accountId : String) (rows : List PendingOrderRow)
    (order : EaPendingOrderSnapshot) : List PendingOrderRow :=
  if rows.any fun row => row.accountId = accountId
      && row.snapshot.brokerOrderId = order.brokerOrderId then
    Table.updateWhere (fun row => row.accountId = accountId
        && row.snapshot.brokerOrderId = order.brokerOrderId
        && row.snapshot.observedAtMs ≤ order.observedAtMs)
      (fun row => { row with snapshot := order }) rows
  else rows ++ [⟨accountId, order⟩]

def PortfolioTables.persist (tables : PortfolioTables) (accountId : String)
    (positions : List EaPositionSnapshot) (pendingOrders : List EaPendingOrderSnapshot)
    (complete : Bool) : PortfolioTables :=
  let rows := positions.foldl (upsertPosition accountId) tables.positions
  let orders := pendingOrders.foldl (upsertPendingOrder accountId) tables.pendingOrders
  if complete then
    { positions := rows.filter fun row => row.accountId ≠ accountId
        || positions.any (·.brokerPositionId = row.snapshot.brokerPositionId)
      pendingOrders := orders.filter fun row => row.accountId ≠ accountId
        || pendingOrders.any (·.brokerOrderId = row.snapshot.brokerOrderId) }
  else { positions := rows, pendingOrders := orders }

end MarketLens.Store
