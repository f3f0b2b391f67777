import MarketLens.Copier.Intake

/-!
# Fill evidence never reaches the diff

A pending order that has vanished from a portfolio was filled exactly if a trade
transaction says so. The transactions come in the batch of the snapshot, but the
transaction that stores the snapshot is handed none of them: the copier sees
every fill of a pending order as a cancellation.
-/

namespace MarketLens.Copier

open List Bool Fallible Store
open Std (TreeMap)

/-! ## The diff without evidence -/

section Diff

variable {C P : PositionMap} {N O : PendingMap} {previousPositions currentPositions : List EaPositionSnapshot}
  {previousPending currentPending : List EaPendingOrderSnapshot} {change : PortfolioChange}

theorem creditedPosition_empty (orderId : String) : creditedPosition C ∅ orderId = none := by
  rfl

theorem scan_cancels (entries : List (String × EaPendingOrderSnapshot)) (scan : FillScan) :
    (entries.foldl (FillScan.visit C N ∅) scan).changes = scan.changes ++ entries.flatMap (vanishedChange C N ∅) := by
  induction entries generalizing scan with
  | nil => rw [foldl_nil, flatMap_nil, append_nil]
  | cons entry rest ih =>
    rw [foldl_cons, ih, flatMap_cons]
    unfold vanishedChange
    cases hgone : N.contains entry.1 with
    | true =>
      rw [visit_kept hgone, if_pos rfl, nil_append]
    | false =>
      rw [visit_cancelled hgone (creditedPosition_empty _), if_neg Bool.false_ne_true, creditedPosition_empty, append_assoc]

theorem openedChanges_noFill {unmatched : TreeMap String Decimal compare} {entry : String × EaPositionSnapshot}
    (h : change ∈ openedChanges unmatched P entry) (order : EaPendingOrderSnapshot) (position : EaPositionSnapshot) :
    change ≠ .pendingFilled order position := by
  have htkt := (openedChanges_tickets h).2
  rintro rfl
  cases htkt

theorem positionChanges_noFill {unmatched : TreeMap String Decimal compare} {entry : String × EaPositionSnapshot}
    (h : change ∈ positionChanges unmatched C entry) (order : EaPendingOrderSnapshot)
    (position : EaPositionSnapshot) : change ≠ .pendingFilled order position := by
  rintro rfl
  simp only [positionChanges] at h
  split at h
  · simp at h
  rcases mem_append.mp h with hvol | hprotected
  · split at hvol
    · simp at hvol
    · split at hvol <;> simp at hvol
  · split at hprotected <;> simp at hprotected

theorem pendingChanges_noFill {entry : String × EaPendingOrderSnapshot} (h : change ∈ pendingChanges O entry)
    (order : EaPendingOrderSnapshot) (position : EaPositionSnapshot) : change ≠ .pendingFilled order position := by
  have htkt := (pendingChanges_tickets h).2.1
  rintro rfl
  cases htkt

/-- **Without evidence the diff has no fill in it.** -/
theorem diff_noFill (h : change ∈ diffPortfolio previousPositions previousPending currentPositions currentPending ∅)
    (order : EaPendingOrderSnapshot) (position : EaPositionSnapshot) : change ≠ .pendingFilled order position := by
  unfold diffPortfolio at h
  dsimp only at h
  rw [scan_cancels, nil_append] at h
  rcases mem_append.mp h with h | hpend
  · rcases mem_append.mp h with h | hkept
    · rcases mem_append.mp h with hvanished | hopened
      · obtain ⟨entry, -, hent⟩ := mem_flatMap.mp hvanished
        unfold vanishedChange at hent
        rw [creditedPosition_empty] at hent
        rintro rfl
        split at hent <;> simp at hent
      · obtain ⟨entry, -, hent⟩ := mem_flatMap.mp hopened
        exact openedChanges_noFill hent order position
    · obtain ⟨entry, -, hent⟩ := mem_flatMap.mp hkept
      exact positionChanges_noFill hent order position
  · obtain ⟨entry, -, hent⟩ := mem_flatMap.mp hpend
    exact pendingChanges_noFill hent order position

/-- Without evidence every order that has vanished is cancelled. -/
theorem diff_cancels {order : EaPendingOrderSnapshot} (hprv : order ∈ previousPending)
    (hdist : (previousPending.map (·.brokerOrderId)).Nodup)
    (hgone : (pendingMap currentPending).contains order.brokerOrderId = false) :
    .pendingCancelled order ∈ diffPortfolio previousPositions previousPending currentPositions currentPending ∅ := by
  unfold diffPortfolio
  dsimp only
  rw [scan_cancels, nil_append]
  refine mem_append_left _ (mem_append_left _ (mem_append_left _ ?_))
  have hent : (pendingMap previousPending)[order.brokerOrderId]? = some order :=
    (KeyedMap.getElem?_index hdist).mpr ⟨hprv, rfl⟩
  refine mem_flatMap.mpr ⟨_, TreeMap.mem_toList_iff_getElem?_eq_some.mpr hent, ?_⟩
  unfold vanishedChange
  rw [if_neg (by rw [hgone]; exact false_ne_true), creditedPosition_empty]
  exact mem_singleton_self _

end Diff

/-! ## What a batch stages -/

section Batch

variable {R : Type} {services : IntakeServices R} {env : StageEnv} {nowMs : Nat} {accountId : String}
  {intake final : Intake R} {staged : List PortfolioChange}

theorem persistDatabasePayload_staged {instruments : List EaInstrumentSnapshot} {positions : List EaPositionSnapshot}
    {pendingOrders : List EaPendingOrderSnapshot} {complete : Bool} {events : List EaEvent}
    (h : persistDatabasePayload services env nowMs accountId instruments positions pendingOrders complete events intake
      = .ok (final, staged)) :
    staged = if complete then stagedChanges accountId positions pendingOrders events intake else [] := by
  unfold persistDatabasePayload at h
  split at h
  · rename_i hemp
    cases h
    cases complete with
    | true => simp at hemp
    | false => rfl
  · obtain ⟨-, h⟩ := unit_bind_ok.mp h
    obtain ⟨_, -, h⟩ := bind_ok.mp h
    obtain ⟨-, h⟩ := unit_bind_ok.mp h
    obtain ⟨_, -, h⟩ := bind_ok.mp h
    obtain ⟨-, h⟩ := unit_bind_ok.mp h
    obtain ⟨-, h⟩ := unit_bind_ok.mp h
    obtain ⟨_, -, h⟩ := bind_ok.mp h
    cases h
    rfl

theorem acceptEvents_staged {batch : EaEventBatch}
    (h : acceptEvents services env nowMs accountId batch intake = .ok (final, staged)) :
    ∃ rest : R, staged = if batch.portfolioSnapshotComplete
      then stagedChanges accountId (normalizeLegacyEaClockSkew batch nowMs).positions
        (normalizeLegacyEaClockSkew batch nowMs).pendingOrders [] ({ intake with rest } : Intake R)
      else [] := by
  unfold acceptEvents at h
  rw [unit_bind_ok, unit_bind_ok] at h
  obtain ⟨-, -, h⟩ := h
  obtain ⟨-, h⟩ := unit_bind_ok.mp h
  obtain ⟨-, h⟩ := unit_bind_ok.mp h
  obtain ⟨-, h⟩ := unit_bind_ok.mp h
  obtain ⟨rest, -, h⟩ := bind_ok.mp h
  obtain ⟨⟨_, first⟩, hfs, h⟩ := bind_ok.mp h
  obtain ⟨-, h⟩ := unit_bind_ok.mp h
  obtain ⟨⟨_, second⟩, hsec, h⟩ := bind_ok.mp h
  obtain ⟨-, h⟩ := unit_bind_ok.mp h
  obtain ⟨events, -, h⟩ := bind_ok.mp h
  obtain ⟨⟨_, third⟩, hthi, h⟩ := bind_ok.mp h
  obtain ⟨_, -, h⟩ := bind_ok.mp h
  obtain ⟨_, -, h⟩ := bind_ok.mp h
  cases h
  have hfs' := persistDatabasePayload_staged hfs
  have hsec' := persistDatabasePayload_staged hsec
  have hthi' := persistDatabasePayload_staged hthi
  rw [if_neg Bool.false_ne_true] at hsec' hthi'
  rw [hfs', hsec', hthi', append_nil, append_nil]
  exact ⟨rest, rfl⟩

end Batch

/-! ## A filled order -/

def FillStaged (staged : List PortfolioChange) (orderId positionId : String) : Prop :=
  (∃ order position, .pendingFilled order position ∈ staged ∧ order.brokerOrderId = orderId
    ∧ position.brokerPositionId = positionId)
    ∧ ∀ order, order.brokerOrderId = orderId → .pendingCancelled order ∉ staged

/-- Services that do nothing. -/
def quietServices : IntakeServices Unit where
  validateIdentity _ := .ok ()
  touchAccount _ rest := .ok rest
  guard _ _ _ tables := tables
  stageProtection _ _ _ tables := .ok tables
  writeInstruments _ tables := .ok tables
  recordEvents _ tables := .ok tables
  advanceReadiness tables := .ok tables
  activateDeferred tables := .ok tables

def stageAt (now : Time) : StageEnv where
  shortHash text := text
  encodeChange change := change.kind ++ change.sourceResourceId
  randomId drawn := 100 + drawn
  issuedCommands := []
  now := now

/-- A limit order that waits on the source account. -/
def waitingOrder : EaPendingOrderSnapshot :=
  ⟨"51", "EURUSD", "EURUSD", .buy, .limit, 1, 11 / 10, none, none, 0, "", 900, 1000⟩

def filledPosition : EaPositionSnapshot :=
  ⟨"52", "EURUSD", "EURUSD", .buy, 1, 11 / 10, 11 / 10, none, none, 0, 0, 0, 0, "", 1900, 2000⟩

/-- The deal that filled it. -/
def fillTransaction : TradeTransaction :=
  ⟨none, none, some "51", some "53", some "52", none, "DEAL_ADD", none, none, none, none, none, none, none, none,
    none, none, none, none, none, none, none, none, 2000⟩

def sourceAccount : EaAccountSnapshot :=
  ⟨"1001", "Broker", "Broker-Demo", .demo, "USD", 1000, 1000, 0, 1000, 100, true, 4000, none⟩

/-- The EA sends the transaction together with the portfolio after it. -/
def fillBatch : EaEventBatch :=
  ⟨1, sourceAccount, [], [filledPosition], [], true, [.tradeTransaction fillTransaction]⟩

/-- A group copies from the account, whose stored portfolio is the one before the fill. -/
def beforeFill : Intake Unit where
  portfolio := ⟨[], [⟨"mt5-a", waitingOrder⟩]⟩
  stage := ⟨⟨[⟨1, "group", "mt5-a", true, 0, .active, none⟩], [⟨1, "mt5-b", true, 0, .active, none⟩], [], [], [], []⟩, 0⟩
  rest := ()

/--
**A fill reported together with its portfolio is never staged.**

Whatever the batch and its order, the handler stages no fill for the order its
trade transaction reports filled; where a group copies from the account, the
order is staged as cancelled.
-/
theorem fill_never_staged {R : Type} {services : IntakeServices R} {env : StageEnv} {nowMs : Nat} {accountId : String}
    {intake final : Intake R} {staged : List PortfolioChange} {batch : EaEventBatch} {transaction : TradeTransaction}
    {order : EaPendingOrderSnapshot}
    {position : EaPositionSnapshot}
    (haccept : acceptEvents services env nowMs accountId batch intake = .ok (final, staged))
    (hcomplete : batch.portfolioSnapshotComplete = true)
    (_hevent : .tradeTransaction transaction ∈ batch.events)
    (_horder : transaction.brokerOrderId = some order.brokerOrderId)
    (hprevious : order ∈ intake.portfolio.pendingOrdersOf accountId)
    (hgone : ∀ other ∈ batch.pendingOrders, other.brokerOrderId ≠ order.brokerOrderId)
    (_hposition : transaction.brokerPositionId = some position.brokerPositionId)
    (_hpresent : position ∈ batch.positions) :
    ¬ FillStaged staged order.brokerOrderId position.brokerPositionId ∧ (activeGroups accountId intake.stage.tables ≠ [] →
        ((intake.portfolio.pendingOrdersOf accountId).map (·.brokerOrderId)).Nodup →
        .pendingCancelled order ∈ staged) := by
  obtain ⟨rest, hstaged⟩ := acceptEvents_staged haccept
  rw [hcomplete, if_pos rfl] at hstaged
  unfold stagedChanges at hstaged
  constructor
  · rintro ⟨⟨filled, filledAt, hfill, -, -⟩, -⟩
    rw [hstaged] at hfill
    split at hfill
    · cases hfill
    · exact diff_noFill hfill filled filledAt rfl
  · intro hgrps hdist
    rw [hstaged, if_neg (by simpa using hgrps)]
    refine diff_cancels hprevious hdist ?_
    refine KeyedMap.contains_index_eq_false fun other hoth => ?_
    obtain ⟨reported, hreported, rfl⟩ := mem_map.mp hoth
    exact hgone reported hreported

theorem fill_never_staged_waitingOrder :
    ∃ final staged, acceptEvents quietServices (stageAt 2000) 2000 "mt5-a" fillBatch beforeFill = .ok (final, staged)
      ∧ ¬ FillStaged staged "51" "52" ∧ .pendingCancelled waitingOrder ∈ staged := by
  have haccp : (acceptEvents quietServices (stageAt 2000) 2000 "mt5-a" fillBatch beforeFill).toOption.isSome = true := by
    decide +kernel
  obtain ⟨⟨final, staged⟩, haccept⟩ := Option.isSome_iff_exists.mp haccp
  have hgone : ∀ other ∈ fillBatch.pendingOrders, other.brokerOrderId ≠ waitingOrder.brokerOrderId :=
    fun other hoth => (not_mem_nil hoth).elim
  obtain ⟨hlost, hcancelled⟩ := fill_never_staged (toOption_some haccept) rfl (mem_singleton_self _) rfl (by decide +kernel) hgone
    rfl (mem_singleton_self _)
  exact ⟨final, staged, toOption_some haccept, hlost, hcancelled (by decide +kernel) (by decide +kernel)⟩

theorem fill_staged_as_cancellation :
    ∃ final staged, acceptEvents quietServices (stageAt 2000) 2000 "mt5-a" fillBatch beforeFill = .ok (final, staged)
      ∧ .tradeTransaction fillTransaction ∈ fillBatch.events ∧ waitingOrder ∈ beforeFill.portfolio.pendingOrdersOf "mt5-a"
      ∧ filledPosition ∈ fillBatch.positions ∧ fillBatch.pendingOrders = []
      ∧ staged = [.pendingCancelled waitingOrder, .positionOpened filledPosition]
      ∧ ¬ FillStaged staged "51" "52" := by
  have hstaged : (acceptEvents quietServices (stageAt 2000) 2000 "mt5-a" fillBatch beforeFill).toOption.map (·.2)
      = some [.pendingCancelled waitingOrder, .positionOpened filledPosition] := by
    decide +kernel
  obtain ⟨⟨final, staged⟩, haccept, hstaged⟩ := Option.map_eq_some_iff.mp hstaged
  refine ⟨final, staged, toOption_some haccept, mem_singleton_self _, by decide +kernel, mem_singleton_self _, rfl, hstaged, ?_⟩
  rintro ⟨-, hnone⟩
  refine hnone waitingOrder rfl ?_
  change staged = _ at hstaged
  rw [hstaged]
  exact mem_cons_self

end MarketLens.Copier
