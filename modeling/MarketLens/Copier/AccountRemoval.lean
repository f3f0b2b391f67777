import MarketLens.Store.Copy

/-!
# Removing an account from the copier

The part of an account's removal that concerns the copier: it is refused while a
group the account is in still has unfinished links, and otherwise disables the
groups the account feeds, the account as a target, the groups left without an
enabled target, and the work still open.
-/

namespace MarketLens.Copier

open Store

/-- The groups an account is in, as their source or as a target. -/
def affectedGroups (accountId : String) (tables : CopyTables) : List Uuid :=
  (tables.groups.filter fun group => group.sourceAccountId = accountId
    || tables.targets.any fun target =>
      target.groupId = group.id && target.accountId = accountId).map (·.id)

/-- A group of the account still has open, pending, closing, orphaned or error links. -/
def removalBlocked (accountId : String) (tables : CopyTables) : Bool :=
  tables.links.any fun link => (affectedGroups accountId tables).contains link.groupId
    && link.lifecycleStatus.unfinished

/-- `enabled = false, runtime_status = 'inactive'`, one revision on. -/
def deactivateGroup (group : CopyGroupRow) : CopyGroupRow :=
  { group with enabled := false, runtimeStatus := .inactive, revision := group.revision + 1 }

def feeds (accountId : String) (groups : List CopyGroupRow) (groupId : Uuid) : Bool :=
  groups.any fun group => group.id = groupId && group.sourceAccountId = accountId

/-- Removing an account disables what copies from it and what copies to it. -/
def removeAccount (accountId : String) (tables : CopyTables) : CopyTables :=
  let affected := affectedGroups accountId tables
  let groups := Table.updateWhere (·.sourceAccountId = accountId) deactivateGroup tables.groups
  let targets := Table.updateWhere
    (fun target => target.accountId = accountId && groups.any (·.id = target.groupId)
      || feeds accountId groups target.groupId)
    (fun target => { target with
      enabled := if target.accountId = accountId then false else target.enabled
      runtimeStatus := .inactive
      revision := target.revision + 1 })
    tables.targets
  let groups := Table.updateWhere
    (fun group => affected.contains group.id
      && !targets.any fun target => target.groupId = group.id && target.enabled)
    deactivateGroup groups
  let superseded := fun (work : WorkRow) => work.status.open
    && (feeds accountId groups work.groupId
      || work.targetAccountId = accountId && groups.any (·.id = work.groupId))
  let supersededIds := (tables.work.filter superseded).map (·.id)
  { tables with
    groups := groups
    targets := targets
    work := Table.updateWhere superseded
      (fun work => { work with
        status := .superseded
        lastError := some "superseded because an MT5 account was removed"
        lease := none })
      tables.work
    outbox := Table.updateWhere
      (fun outbox => supersededIds.contains outbox.workItemId
        && outbox.status ≠ .published && outbox.status ≠ .acknowledged)
      (fun outbox => { outbox with
        status := .deadLetter
        lastError := some "superseded because an MT5 account was removed" })
      tables.outbox }

end MarketLens.Copier
