import MarketLens.Copier.AccountRemoval
import MarketLens.Store.Commands

/-!
# Copy group settings

What a user does to the copier's graph: saving a group with its targets, pausing,
resuming, archiving and reconciling it. Both operations that can enable an edge
ask the other enabled groups whether it would make a chain. Each is one
transaction under the owner's advisory lock.
-/

namespace MarketLens.Copier

open Store Fallible

/-- One target of a saved group. -/
structure CopyTargetWrite where
  accountId : String
  enabled : Bool
  config : ContinuousCopyTargetConfig
  expectedRevision : Option Nat

/-- `CopyGroupUpsertRequest`: a group with all its targets; no id creates a new one. -/
structure CopyGroupUpsert where
  groupId : Option Uuid
  name : String
  sourceAccountId : String
  enabled : Bool
  config : ContinuousCopyConfig
  expectedRevision : Option Nat
  targets : List CopyTargetWrite

inductive CopyGroupAction where
  | pause
  | resume
  | reconcile
  | archive
deriving DecidableEq

def copyGroupRevisionConflict : ApiError :=
  ⟨.conflict, "COPY_GROUP_REVISION_CONFLICT",
    "copier settings changed elsewhere; reload before saving"⟩

def copyGroupChainUnsupported : ApiError :=
  ⟨.conflict, "COPY_GROUP_CHAIN_UNSUPPORTED",
    "an account cannot be both an enabled copier target and an enabled copier source"⟩

/-- A failed configuration check, as a request error. -/
def configError (code : String) (result : Except String Unit) : Except ApiError Unit :=
  match result with
  | .ok () => .ok ()
  | .error message => .error ⟨.badRequest, code, message⟩

/-! ## Checks -/

/-- One target of a request, after those with the accounts `seen`. -/
def validateCopyTarget (request : CopyGroupUpsert) (seen : List String)
    (target : CopyTargetWrite) : Except ApiError Unit := do
  validateIdentifier "targetAccountId" target.accountId 96
  refuseIf (target.accountId = request.sourceAccountId)
    ⟨.badRequest, "COPY_TARGET_IS_SOURCE", "the source account cannot also be a copier target"⟩
  refuseIf (seen.contains target.accountId)
    ⟨.badRequest, "COPY_TARGET_DUPLICATE", "each target account may appear only once"⟩
  configError "COPY_TARGET_CONFIG_INVALID" target.config.validate
  refuseIf (!request.config.copyStopLossTakeProfit && (match target.config.allocation with
      | .riskPercent _ => true
      | _ => false))
    ⟨.badRequest, "COPY_TARGET_RISK_STOP_REQUIRED",
      "risk-percent allocation requires copied stop-loss protection on the initial order"⟩
  checkAll (fun mapping => do
    validatePlainText "canonicalSymbol" (trim mapping.1) 1 64
    validatePlainText "venueSymbol" (trim mapping.2) 1 64) target.config.symbolMapping

def validateCopyTargets (request : CopyGroupUpsert) :
    List String → List CopyTargetWrite → Except ApiError Unit
  | _, [] => .ok ()
  | seen, target :: rest => do
    validateCopyTarget request seen target
    validateCopyTargets request (target.accountId :: seen) rest

def validateCopyGroupWrite (request : CopyGroupUpsert) : Except ApiError Unit := do
  validatePlainText "name" (trim request.name) 1 80
  validateIdentifier "sourceAccountId" request.sourceAccountId 96
  configError "COPY_GROUP_CONFIG_INVALID" request.config.validate
  refuseIf (request.targets.isEmpty || request.targets.length > 20)
    ⟨.badRequest, "COPY_TARGET_COUNT_INVALID",
      "a copier group must contain between 1 and 20 targets"⟩
  refuseIf (request.enabled && !request.targets.any (·.enabled))
    ⟨.badRequest, "COPY_TARGET_ENABLED_REQUIRED",
      "an enabled copier group requires at least one enabled target"⟩
  validateCopyTargets request [] request.targets

def wouldChain (groupId : Uuid) (sourceAccountId : String) (enabledTargets : List String)
    (tables : CopyTables) : Bool :=
  tables.groups.any fun group => group.enabled && group.id ≠ groupId
    && tables.targets.any fun target => target.groupId = group.id && target.enabled
      && (target.accountId = sourceAccountId || enabledTargets.contains group.sourceAccountId)

def enabledAccountCount (accounts : List AccountRow) (ids : List String) : Nat :=
  accounts.countP fun account => ids.contains account.id && account.status ≠ .disabled

/-- The targets of a group that unfinished links lead to. -/
def activeLinkTargets (groupId : Uuid) (tables : CopyTables) : List String :=
  (tables.links.filter fun link =>
    link.groupId = groupId && link.lifecycleStatus.unfinished).map (·.targetAccountId)

def copyGroupTransitionDrainReason (currentSource : String) (currentEnabled : Bool)
    (requestedSource : String) (requestedEnabled : Bool) (requestedTargets : List String)
    (linkTargets : List String) : Option String :=
  if linkTargets.isEmpty then none
  else if currentSource ≠ requestedSource then
    some "the source account cannot change while copier links remain open"
  else if currentEnabled && !requestedEnabled then
    some ("an active copier group cannot be disabled while links remain open; pause it or "
      ++ "close/cancel linked exposure first")
  else if linkTargets.any fun account => !requestedTargets.contains account then
    some "targets with open copier links must remain present and enabled"
  else none

def CopyGroupUpsert.enabledTargetIds (request : CopyGroupUpsert) : List String :=
  (request.targets.filter (·.enabled)).map (·.accountId)

def enabledTargetIds (groupId : Uuid) (tables : CopyTables) : List String :=
  (tables.targets.filter fun target => target.groupId = groupId && target.enabled).map
    (·.accountId)

/-- What an existing group's open links forbid. -/
def checkTransition (request : CopyGroupUpsert) (current : CopyGroupRow) (tables : CopyTables) :
    Except ApiError Unit := do
  let linkTargets := activeLinkTargets current.id tables
  (match copyGroupTransitionDrainReason current.sourceAccountId current.enabled
      request.sourceAccountId request.enabled request.enabledTargetIds linkTargets with
    | some message => .error ⟨.conflict, "COPY_GROUP_DRAIN_REQUIRED", message⟩
    | none => .ok ())
  refuseIf (!linkTargets.isEmpty && request.enabledTargetIds.any fun account =>
      !(enabledTargetIds current.id tables).contains account && !linkTargets.contains account)
    ⟨.conflict, "COPY_GROUP_BASELINE_REQUIRED",
      "a new enabled target cannot join while the group has live links; wait until flat or "
        ++ "use a future baseline-sync workflow"⟩

/-! ## Saving a group -/

def writeGroup (request : CopyGroupUpsert) (group : CopyGroupRow) : CopyGroupRow :=
  { group with
    name := trim request.name
    sourceAccountId := request.sourceAccountId
    enabled := request.enabled
    configuration := some request.config
    revision := group.revision + 1
    runtimeStatus := if request.enabled then .starting else .paused }

/-- Insert the new group, or update the one the request expects. -/
def saveGroup (request : CopyGroupUpsert) (groupId : Uuid) (tables : CopyTables) :
    Except ApiError CopyTables := do
  let nameTaken := tables.groups.any fun group =>
    group.id ≠ groupId && group.name = trim request.name
  match request.groupId with
  | none =>
    refuseIf (nameTaken || tables.groups.any (·.id = groupId)) internalError
    let empty : CopyGroupRow := ⟨groupId, "", "", false, 0, .paused, none⟩
    return { tables with groups := tables.groups ++ [writeGroup request empty] }
  | some _ =>
    let expected ← require request.expectedRevision
      ⟨.badRequest, "EXPECTED_REVISION_REQUIRED",
        "updating a copier group requires expectedRevision"⟩
    let current := fun (group : CopyGroupRow) => group.id = groupId && group.revision = expected
    refuseIf (!tables.groups.any current) copyGroupRevisionConflict
    refuseIf nameTaken internalError
    return { tables with groups := Table.updateWhere current (writeGroup request) tables.groups }

def writeTarget (write : CopyTargetWrite) (target : CopyTargetRow) : CopyTargetRow :=
  { target with
    enabled := write.enabled
    configuration := some write.config
    revision := target.revision + 1
    runtimeStatus := if write.enabled then .connecting else .inactive }

/-- Insert or update one target. `reported` says which venue symbols its terminal has reported. -/
def saveTarget (groupId : Uuid) (reported : String → String → Bool)
    (targets : List CopyTargetRow) (write : CopyTargetWrite) :
    Except ApiError (List CopyTargetRow) := do
  let same := fun (target : CopyTargetRow) =>
    target.groupId = groupId && target.accountId = write.accountId
  let saved ← (match targets.find? same with
    | none =>
      .ok (targets ++ [writeTarget write ⟨groupId, write.accountId, false, 0, .inactive, none⟩])
    | some current => do
      refuseIf (write.expectedRevision.any (· ≠ current.revision)) copyGroupRevisionConflict
      return Table.updateWhere same (writeTarget write) targets)
  checkAll (fun mapping => refuseIf (!reported write.accountId (trim mapping.2))
    ⟨.unprocessableEntity, "COPY_SYMBOL_MAPPING_UNAVAILABLE",
      "target " ++ write.accountId ++ " has not reported venue symbol " ++ mapping.2⟩)
    write.config.symbolMapping
  return saved

/-- Supersede open work, and the outbox rows that were not published. -/
def supersedeWork (reason : String) (obsolete : WorkRow → Bool) (tables : CopyTables) :
    CopyTables :=
  let superseded := fun (work : WorkRow) => work.status.open && obsolete work
  let ids := (tables.work.filter superseded).map (·.id)
  { tables with
    work := Table.updateWhere superseded
      (fun work => { work with status := .superseded, lastError := some reason, lease := none })
      tables.work
    outbox := Table.updateWhere
      (fun outbox => ids.contains outbox.workItemId && outbox.status ≠ .published
        && outbox.status ≠ .acknowledged)
      (fun outbox => { outbox with status := .deadLetter, lastError := some reason })
      tables.outbox }

def disableUnlisted (request : CopyGroupUpsert) (groupId : Uuid) (targets : List CopyTargetRow) :
    List CopyTargetRow :=
  Table.updateWhere
    (fun target => target.groupId = groupId && target.enabled
      && !(request.targets.map (·.accountId)).contains target.accountId)
    (fun target => { target with
      enabled := false, runtimeStatus := .inactive, revision := target.revision + 1 })
    targets

/-- The group's targets are inactive while it is disabled. -/
def deactivateTargets (groupId : Uuid) (targets : List CopyTargetRow) : List CopyTargetRow :=
  Table.updateWhere (·.groupId = groupId) (fun target => { target with runtimeStatus := .inactive })
    targets

/-- `upsert_copy_group`. `authorize` is the check of the user's confirmation, `newId` the id a
new group is given. -/
def upsertCopyGroup (accounts : List AccountRow) (authorize : Except ApiError Unit)
    (newId : Uuid) (reported : String → String → Bool) (request : CopyGroupUpsert)
    (tables : CopyTables) : Except ApiError CopyTables := do
  validateCopyGroupWrite request
  (if request.enabled then authorize else .ok ())
  let groupId := request.groupId.getD newId
  let accountIds := request.sourceAccountId :: request.targets.map (·.accountId)
  refuseIf (enabledAccountCount accounts accountIds ≠ accountIds.length)
    ⟨.notFound, "COPIER_ACCOUNT_NOT_FOUND",
      "source and target accounts must be enabled MT5 accounts owned by this user"⟩
  refuseIf (request.enabled
      && wouldChain groupId request.sourceAccountId request.enabledTargetIds tables)
    copyGroupChainUnsupported
  let current := if request.groupId.isSome then tables.groups.find? (·.id = groupId) else none
  (match current with
    | some group => checkTransition request group tables
    | none => .ok ())
  let saved ← saveGroup request groupId tables
  let targets ← request.targets.foldlM (saveTarget groupId reported) saved.targets
  let targets := disableUnlisted request groupId targets
  let sourceChanged := current.any (·.sourceAccountId ≠ request.sourceAccountId)
  let superseded := supersedeWork "superseded by copier configuration revision"
    (fun work => work.groupId = groupId && targets.any fun target =>
      target.groupId = groupId && target.accountId = work.targetAccountId
        && (sourceChanged || !request.enabled || !target.enabled))
    { saved with targets := targets }
  if request.enabled then return superseded
  else return { superseded with targets := deactivateTargets groupId superseded.targets }

/-! ## Actions -/

def checkResume (accounts : List AccountRow) (group : CopyGroupRow) (tables : CopyTables) :
    Except ApiError Unit := do
  let targets := enabledTargetIds group.id tables
  refuseIf targets.isEmpty
    ⟨.badRequest, "COPY_TARGET_ENABLED_REQUIRED",
      "resuming a copier group requires at least one enabled target"⟩
  let accountIds := group.sourceAccountId :: targets
  refuseIf (enabledAccountCount accounts accountIds ≠ accountIds.length)
    ⟨.conflict, "COPIER_ACCOUNT_NOT_READY",
      "source and enabled targets must remain enabled MT5 accounts before resume"⟩
  refuseIf (wouldChain group.id group.sourceAccountId targets tables) copyGroupChainUnsupported

/-- The columns an action writes into its group. -/
def actionGroup (action : CopyGroupAction) (group : CopyGroupRow) : CopyGroupRow :=
  let revised := { group with revision := group.revision + 1 }
  match action with
  | .pause => { revised with runtimeStatus := .paused }
  | .resume => { revised with enabled := true, runtimeStatus := .starting }
  | .archive => { revised with enabled := false, runtimeStatus := .inactive }
  | .reconcile => revised

/-- `copy_group_action`. -/
def copyGroupAction (accounts : List AccountRow) (authorize : Except ApiError Unit)
    (groupId : Uuid) (expectedRevision : Nat) (action : CopyGroupAction) (tables : CopyTables) :
    Except ApiError CopyTables := do
  (if action = .resume then authorize else .ok ())
  let current := fun (group : CopyGroupRow) =>
    group.id = groupId && group.revision = expectedRevision
  let group ← require (tables.groups.find? current) copyGroupRevisionConflict
  (if action = .resume then checkResume accounts group tables else .ok ())
  refuseIf (action = .archive && !(activeLinkTargets groupId tables).isEmpty)
    ⟨.conflict, "COPY_GROUP_DRAIN_REQUIRED",
      "archive is blocked while copier links remain open, pending, closing, orphaned, or in error"⟩
  let acted := { tables with
    groups := Table.updateWhere current (actionGroup action) tables.groups }
  match action with
  | .archive =>
    let superseded := supersedeWork "superseded because the copier group was archived"
      (·.groupId = groupId) acted
    return { superseded with targets := deactivateTargets groupId superseded.targets }
  | .resume =>
    return { acted with
      targets := Table.updateWhere (·.groupId = groupId)
        (fun target => { target with
          runtimeStatus := if target.enabled then .connecting else .inactive })
        acted.targets }
  | .pause | .reconcile => return acted

end MarketLens.Copier
