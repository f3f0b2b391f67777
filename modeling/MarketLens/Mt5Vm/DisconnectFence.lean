import MarketLens.Mt5Vm.Connections

/-!
# The fence of a disconnect

The owner's disconnect goes through one function of the database. A request names the revision it
was made at; a request made before names the one that is recorded. Where no disconnect is recorded
the second comparison of the guard is with a null, and a request one revision behind passes it as
if it had been made before (`fencesExactly_iff`).
-/

namespace MarketLens.Mt5Vm

open Store Connection

/-! ## What the function writes -/

inductive GrantStatus where
  | issued
  | consumed
  | expired
  | revoked
deriving DecidableEq

/-- `execution_mt5_vm_credential_grants`. -/
structure CredentialGrant where
  ownerId : OwnerId
  accountId : AccountId
  commandId : Nat
  status : GrantStatus

/-- The tables the function reads and writes; the queue is its owner's. -/
structure FenceTables where
  world : World
  grants : List CredentialGrant
  queue : CommandTables

inductive FenceOutcome where
  | ok
  | conflict
  | notFound

/-- The row the function returns. -/
structure FenceAnswer where
  outcome : FenceOutcome
  newRevision : Nat
  stopping : Bool
  idempotent : Bool

/-- The target commands of the account without an outcome. -/
def fencesTarget (accountId : AccountId) (row : TargetCommandRow) : Bool :=
  row.targetAccountId = accountId && row.terminalAckAt.isNone
    && (row.status = .waiting || row.status = .ready || row.status = .queued || row.status = .unknown)

/-- A command that was never handed out has failed; of another the outcome is unknown. -/
def fenceTarget (now : Millis) (row : TargetCommandRow) : TargetCommandRow :=
  let unsent := row.firstDeliveredAt.isNone
  { row with
    status := if unsent then .failed else .unknown
    rejectCode := some (if unsent then "ACCOUNT_DISCONNECTED" else "DELIVERY_OUTCOME_UNKNOWN")
    rejectMessage := some (if unsent then "account was disconnected before execution"
      else "delivery outcome is unknown after account disconnect")
    terminalAckAt := if unsent then some now else none
    lease := none }

/-- The statement sees the targets as they were when it began, its parents' as well. -/
def fenceTargets (accountId : AccountId) (now : Millis) (queue : CommandTables) : CommandTables :=
  let parents := (queue.commands.filter (fencesTarget accountId)).map (·.parentCommandId)
  { queue.setParents parents fun id => if queue.hasOpenTarget id then .submitted else .partiallyRejected with
    commands := Table.updateWhere (fencesTarget accountId) (fenceTarget now) queue.commands }

namespace FenceTables

variable (ownerId : OwnerId) (accountId : AccountId)

def account? (tables : FenceTables) : Option Account := tables.world.accounts.find? (·.isOf ownerId accountId)

/-- The effects on an account: a stop command, sessions, tokens, grants, commands, the registry entry and the
connection. -/
def fence (expectedRevision : Int) (account : Account) (tables : FenceTables) : FenceTables :=
  let world := tables.world
  let stop := account.stopCommand? world
  let taken := world.keyTaken (stopKey accountId account.connection.leaseGeneration)
  { world :=
      { world with
        nextId := world.nextId + 1
        accounts := Table.updateWhere (·.isOf ownerId accountId)
          (·.fenceDisconnect expectedRevision.toNat (account.connection.firstDisconnect expectedRevision) stop taken world.now)
          world.accounts }
    grants := Table.updateWhere
      (fun row => row.ownerId = ownerId && row.accountId = accountId && row.status = .issued)
      ({ · with status := .revoked }) tables.grants
    queue := fenceTargets accountId world.now tables.queue }

/-- `execution_fence_mt5_managed_disconnect`. -/
def fenceManagedDisconnect (expectedRevision : Int) (tables : FenceTables) : FenceAnswer × FenceTables :=
  match tables.account? ownerId accountId with
  | none => (⟨.notFound, 0, false, false⟩, tables)
  | some account =>
    let row := account.connection
    if expectedRevision ≤ 0 then (⟨.conflict, row.revision, false, false⟩, tables)
    else if row.disconnectGuard expectedRevision = some true then (⟨.conflict, row.revision, false, false⟩, tables)
    else
      let first := row.firstDisconnect expectedRevision
      (⟨.ok, if first then row.revision + 1 else row.revision, row.workerId.isSome, !first⟩,
        tables.fence ownerId accountId expectedRevision account)

end FenceTables

/-! ## The statement -/

/-- Nobody asked for a disconnect, and the request is made at the current revision. -/
def FirstRequest (expectedRevision : Int) (row : Connection) : Prop :=
  row.disconnectRequestedRevision = none ∧ row.revision = expectedRevision

/-- The request that is recorded is made again. -/
def RetriedRequest (expectedRevision : Int) (row : Connection) : Prop :=
  row.disconnectRequestedRevision.map Int.ofNat = some expectedRevision ∧ row.revision = expectedRevision + 1

variable {ownerId : OwnerId} {accountId : AccountId} {expectedRevision : Int} {tables : FenceTables}
  {account : Account} {row : Connection}

/-- The fence takes first requests and retries, and leaves everything alone for the rest. -/
structure FencesExactly (ownerId : OwnerId) (accountId : AccountId) (expectedRevision : Int) (tables : FenceTables) : Prop where
  accepts : ∀ account, tables.account? ownerId accountId = some account → 0 < expectedRevision →
    FirstRequest expectedRevision account.connection ∨ RetriedRequest expectedRevision account.connection →
    (tables.fenceManagedDisconnect ownerId accountId expectedRevision).1.outcome = .ok
  records : (tables.fenceManagedDisconnect ownerId accountId expectedRevision).1.outcome = .ok →
    ∃ account after, tables.account? ownerId accountId = some account
      ∧ (tables.fenceManagedDisconnect ownerId accountId expectedRevision).2.account? ownerId accountId = some after
      ∧ after.connection.disconnectRequestedRevision.map Int.ofNat = some expectedRevision
      ∧ (FirstRequest expectedRevision account.connection ∧ after.connection.revision = account.connection.revision + 1
        ∨ RetriedRequest expectedRevision account.connection ∧ after.connection.revision = account.connection.revision)
  refuses : ∀ account, tables.account? ownerId accountId = some account →
    ¬(FirstRequest expectedRevision account.connection ∨ RetriedRequest expectedRevision account.connection) →
    tables.fenceManagedDisconnect ownerId accountId expectedRevision
      = (⟨.conflict, account.connection.revision, false, false⟩, tables)
  misses : tables.account? ownerId accountId = none →
    tables.fenceManagedDisconnect ownerId accountId expectedRevision = (⟨.notFound, 0, false, false⟩, tables)

/-! ## The guard -/

theorem firstDisconnect_iff : row.firstDisconnect expectedRevision = true ↔ FirstRequest expectedRevision row := by
  simp [firstDisconnect, FirstRequest]

theorem disconnectGuard_iff : row.disconnectGuard expectedRevision = some true ↔
    ¬(FirstRequest expectedRevision row ∨ RetriedRequest expectedRevision row
      ∨ row.disconnectRequestedRevision = none ∧ row.revision = expectedRevision + 1) := by
  have hfs : some (row.firstDisconnect expectedRevision) = some false ↔ ¬FirstRequest expectedRevision row := by
    rw [← firstDisconnect_iff, Option.some.injEq, Bool.not_eq_true]
  unfold disconnectGuard
  rw [Truth.and_true, Truth.not_true, Truth.not_true, Truth.and_false, Truth.eq_false, hfs]
  unfold RetriedRequest
  cases row.disconnectRequestedRevision with
  | none => simp
  | some =>
    simp only [Option.map_some, ne_eq, reduceCtorEq, not_false_eq_true, Option.some.injEq, true_and, decide_eq_false_iff_not,
      false_and, or_false]
    tauto

/-! ## The row the effects leave -/

variable {first : Bool} {stop : Option ControlCommand} {taken : Bool} {now : Millis}

theorem fenceDisconnect_connection (expected : Nat) (account : Account) :
    (account.fenceDisconnect expected first stop taken now).connection = account.connection.fenceDisconnect expected first := by
  have hqueu : (if account.connection.workerId.isSome then account.queueStop stop taken else account).connection
      = account.connection := by
    split
    · cases stop with
      | none => rfl
      | some command =>
        show (account.queueUnless taken command).connection = _
        unfold Account.queueUnless
        split <;> rfl
    · rfl
  exact congrArg (fenceDisconnect expected first) hqueu

theorem fence_account (expectedRevision : Int) (hfnd : tables.account? ownerId accountId = some account) :
    ∃ after, (tables.fence ownerId accountId expectedRevision account).account? ownerId accountId = some after
      ∧ after.connection = account.connection.fenceDisconnect expectedRevision.toNat
        (account.connection.firstDisconnect expectedRevision) := by
  have hkeeps : ∀ other : Account, other.isOf ownerId accountId = true →
      (other.fenceDisconnect expectedRevision.toNat (account.connection.firstDisconnect expectedRevision)
        (account.stopCommand? tables.world) (tables.world.keyTaken (stopKey accountId account.connection.leaseGeneration))
        tables.world.now).isOf ownerId accountId = true := by
    intro other hoth
    unfold Account.isOf at hoth ⊢
    rw [fenceDisconnect_connection]
    exact hoth
  refine ⟨_, (Table.find?_updateWhere hkeeps _).trans (congrArg (Option.map _) hfnd), fenceDisconnect_connection _ _⟩

/-! ## The function -/

/-- A request that no disconnect is recorded for and that is one revision behind. -/
def LaggingRequest (expectedRevision : Int) (row : Connection) : Prop :=
  0 < expectedRevision ∧ row.disconnectRequestedRevision = none ∧ row.revision = expectedRevision + 1

section
variable (hfnd : tables.account? ownerId accountId = some account)
include hfnd

theorem fence_refuses (hrefd : expectedRevision ≤ 0 ∨ account.connection.disconnectGuard expectedRevision = some true) :
    tables.fenceManagedDisconnect ownerId accountId expectedRevision
      = (⟨.conflict, account.connection.revision, false, false⟩, tables) := by
  unfold FenceTables.fenceManagedDisconnect
  rw [hfnd]
  dsimp only
  split
  · rfl
  · rename_i hpos
    rw [if_pos (hrefd.resolve_left hpos)]

theorem fence_applies (hpos : 0 < expectedRevision) (hopen : ¬account.connection.disconnectGuard expectedRevision = some true) :
    tables.fenceManagedDisconnect ownerId accountId expectedRevision
      = (⟨.ok, (account.connection.fenceDisconnect expectedRevision.toNat
            (account.connection.firstDisconnect expectedRevision)).revision,
          account.connection.workerId.isSome, !account.connection.firstDisconnect expectedRevision⟩,
        tables.fence ownerId accountId expectedRevision account) := by
  unfold FenceTables.fenceManagedDisconnect
  rw [hfnd]
  dsimp only
  rw [if_neg (by omega), if_neg hopen]
  rfl

/-- **A request one revision behind is let through.** -/
theorem FencesExactly.not_lagging (h : FencesExactly ownerId accountId expectedRevision tables) :
    ¬LaggingRequest expectedRevision account.connection := by
  rintro ⟨hpos, hnone, hrev⟩
  have happ := fence_applies hfnd hpos fun hguard => disconnectGuard_iff.mp hguard (.inr (.inr ⟨hnone, hrev⟩))
  have hrefd := h.refuses account hfnd (by
    rintro (⟨-, hsame⟩ | ⟨hrecd, -⟩)
    · omega
    · rw [hnone] at hrecd
      cases hrecd)
  cases congrArg (·.1.outcome) (happ.symm.trans hrefd)

theorem fence_records (hpos : 0 < expectedRevision)
    (hreq : FirstRequest expectedRevision account.connection ∨ RetriedRequest expectedRevision account.connection) :
    ∃ after, (tables.fence ownerId accountId expectedRevision account).account? ownerId accountId = some after
      ∧ after.connection.disconnectRequestedRevision.map Int.ofNat = some expectedRevision
      ∧ (FirstRequest expectedRevision account.connection ∧ after.connection.revision = account.connection.revision + 1
        ∨ RetriedRequest expectedRevision account.connection ∧ after.connection.revision = account.connection.revision) := by
  obtain ⟨after, haft, hconn⟩ := fence_account expectedRevision hfnd
  refine ⟨after, haft, ?_⟩
  rw [hconn]
  unfold fenceDisconnect
  dsimp only
  rcases hreq with hfs | hretried
  · rw [firstDisconnect_iff.mpr hfs, hfs.1]
    refine ⟨congrArg some ?_, .inl ⟨hfs, rfl⟩⟩
    exact Int.toNat_of_nonneg hpos.le
  · have hlat : account.connection.firstDisconnect expectedRevision = false := by
      refine Bool.eq_false_iff.mpr fun hfs => ?_
      have hcurr := (firstDisconnect_iff.mp hfs).2
      have hretry := hretried.2
      omega
    rw [hlat]
    obtain ⟨recorded, hrecd, hsame⟩ := Option.map_eq_some_iff.mp hretried.1
    rw [hrecd]
    exact ⟨congrArg some hsame, .inr ⟨hretried, rfl⟩⟩

end

/-- **The fence takes first requests and retries alone, exactly if the request is not one revision behind** an
account without a disconnect. -/
theorem fencesExactly_iff : FencesExactly ownerId accountId expectedRevision tables ↔
    ∀ account, tables.account? ownerId accountId = some account → ¬LaggingRequest expectedRevision account.connection := by
  refine ⟨fun h account hfnd => h.not_lagging hfnd, fun h => ?_⟩
  have hmissed : tables.account? ownerId accountId = none →
      tables.fenceManagedDisconnect ownerId accountId expectedRevision = (⟨.notFound, 0, false, false⟩, tables) := by
    intro hnone
    unfold FenceTables.fenceManagedDisconnect
    rw [hnone]
  have hguarded : ∀ account, tables.account? ownerId accountId = some account → 0 < expectedRevision →
      ¬(FirstRequest expectedRevision account.connection ∨ RetriedRequest expectedRevision account.connection) →
      account.connection.disconnectGuard expectedRevision = some true := by
    intro account hfnd hpos hoth
    refine disconnectGuard_iff.mpr ?_
    rintro (hfs | hretried | hlagging)
    · exact hoth (.inl hfs)
    · exact hoth (.inr hretried)
    · exact h account hfnd ⟨hpos, hlagging⟩
  refine ⟨fun account hfnd hpos hreq => ?_, fun hok => ?_, fun account hfnd hoth => ?_, hmissed⟩
  · rw [fence_applies hfnd hpos fun hguard => disconnectGuard_iff.mp hguard (hreq.imp_right .inl)]
  · cases hfnd : tables.account? ownerId accountId with
    | none =>
      rw [hmissed hfnd] at hok
      cases hok
    | some account =>
      by_cases hrefd : expectedRevision ≤ 0 ∨ account.connection.disconnectGuard expectedRevision = some true
      · rw [fence_refuses hfnd hrefd] at hok
        cases hok
      · obtain ⟨hpos, hguard⟩ := not_or.mp hrefd
        have hpos : 0 < expectedRevision := not_le.mp hpos
        obtain ⟨after, haft⟩ := fence_records hfnd hpos (not_not.mp fun hoth => hguard (hguarded account hfnd hpos hoth))
        rw [fence_applies hfnd hpos hguard]
        exact ⟨account, after, rfl, haft⟩
  · exact fence_refuses hfnd ((le_or_gt _ _).imp_right fun hpos => hguarded account hfnd hpos hoth)

/-! ## A disconnect one revision late -/

def connectedAccount : Account :=
  { connection :=
      { userId := "owner-a", accountId := "account-a", maskedLoginSuffix := none, persistence := .managed, status := .ready
        revision := 6, workerId := none, leaseGeneration := 0, requiredProtocolVersion := 1, requiredRuntimeVersion := none
        identity := none, server := none, reservation := none, removalRequestedAt := none
        disconnectRequestedRevision := none }
    freshness := ⟨none, none, none⟩, registry := ⟨"main", .ready, true, none, none⟩, lease := none, commands := []
    tokens := [], sessions := [], syncStates := .fill .seed, accountState := none, rows := .fill [] }

/-- A client that last saw revision five disconnects an account that is at revision six. -/
theorem lagging_disconnect_accepted : ¬FencesExactly "owner-a" "account-a" 5 ⟨⟨1000, 1, [], [connectedAccount]⟩, [], .empty⟩ :=
  fun h => FencesExactly.not_lagging (show _ = some connectedAccount from rfl) h ⟨by decide, rfl, rfl⟩

end MarketLens.Mt5Vm
