import MarketLens.Lib.Chain
import MarketLens.Lib.Run
import MarketLens.Copier.Groups

/-!
# The copier graph never chains

The enabled edges of the copier go from the source of an enabled group to each of
its enabled targets. Saving and resuming a group are the only operations that add
edges; both refuse when another enabled group would continue them or lead into
them, and a group's own targets never include its source. So no two edges follow
one another, in any order of operations.
-/

namespace MarketLens.Copier

open List Bool Table Store Fallible Runs Chain

/-! ## The graph -/

/-- An edge of the copier graph: an enabled group copies from `source` to `account`. -/
def Copies (tables : CopyTables) (source account : String) : Prop :=
  ∃ group ∈ tables.groups, group.enabled = true ∧ group.sourceAccountId = source ∧
    ∃ target ∈ tables.targets, target.groupId = group.id ∧ target.enabled = true ∧
      target.accountId = account

/-- No group, enabled or not, has its source among its enabled targets. -/
def OwnSourceFree (tables : CopyTables) : Prop :=
  ∀ group ∈ tables.groups, ∀ target ∈ tables.targets, target.groupId = group.id →
    target.enabled = true → target.accountId ≠ group.sourceAccountId

/-- What every operation on the copier's settings keeps. -/
structure GraphInv (tables : CopyTables) : Prop where
  ids : (tables.groups.map (·.id)).Nodup
  own : OwnSourceFree tables
  chainless : Chainless (Copies tables)

variable {tables tables' : CopyTables}

/-- Groups and targets keep their identity, and nothing becomes enabled. -/
structure Shrinks (tables tables' : CopyTables) : Prop where
  ids : tables'.groups.map (·.id) = tables.groups.map (·.id)
  groups : ∀ group' ∈ tables'.groups, ∃ group ∈ tables.groups, group.id = group'.id ∧
    group.sourceAccountId = group'.sourceAccountId ∧
    (group'.enabled = true → group.enabled = true)
  targets : ∀ target' ∈ tables'.targets, ∃ target ∈ tables.targets,
    target.groupId = target'.groupId ∧ target.accountId = target'.accountId ∧
    (target'.enabled = true → target.enabled = true)

theorem Shrinks.copies (h : Shrinks tables tables') (source account : String)
    (hcopies : Copies tables' source account) : Copies tables source account := by
  obtain ⟨group', hgrp', henab', hsrc', target', htgt', hown', hon', hacct'⟩ :=
    hcopies
  obtain ⟨group, hgrp, hid, hsrc, henab⟩ := h.groups group' hgrp'
  obtain ⟨target, htgt, hown, hacct, hon⟩ := h.targets target' htgt'
  exact ⟨group, hgrp, henab henab', hsrc.trans hsrc', target, htgt,
    hown.trans (hown'.trans hid.symm), hon hon', hacct.trans hacct'⟩

/-- What only disables keeps the graph's invariant. -/
theorem GraphInv.shrink (hinv : GraphInv tables) (h : Shrinks tables tables') : GraphInv tables' where
  ids := h.ids ▸ hinv.ids
  own := by
    intro group' hgrp' target' htgt' hown' hon' heq
    obtain ⟨group, hgrp, hid, hsrc, _⟩ := h.groups group' hgrp'
    obtain ⟨target, htgt, hown, hacct, hon⟩ := h.targets target' htgt'
    exact hinv.own group hgrp target htgt (hown.trans (hown'.trans hid.symm)) (hon hon') (hacct.trans (heq.trans hsrc.symm))
  chainless := hinv.chainless.mono h.copies

theorem shrinks_groups {p : CopyGroupRow → Bool} {f : CopyGroupRow → CopyGroupRow} (hid : ∀ group, (f group).id = group.id)
    (hsrc : ∀ group, (f group).sourceAccountId = group.sourceAccountId)
    (henab : ∀ group, (f group).enabled = true → group.enabled = true)
    (hgrps : tables'.groups = updateWhere p f tables.groups)
    (htgts : tables'.targets = tables.targets) : Shrinks tables tables' where
  ids := by rw [hgrps, map_updateWhere hid]
  groups := by
    intro group' hgrp'
    rw [hgrps] at hgrp'
    rcases updateWhere_cases hgrp' with ⟨hold, _⟩ | ⟨old, hold, _, rfl⟩
    · exact ⟨group', hold, rfl, rfl, id⟩
    · exact ⟨old, hold, (hid old).symm, (hsrc old).symm, henab old⟩
  targets := fun target' htgt' => ⟨target', htgts ▸ htgt', rfl, rfl, id⟩

theorem shrinks_targets {p : CopyTargetRow → Bool} {f : CopyTargetRow → CopyTargetRow}
    (hgrp : ∀ target, (f target).groupId = target.groupId)
    (hacct : ∀ target, (f target).accountId = target.accountId)
    (henab : ∀ target, (f target).enabled = true → target.enabled = true)
    (hgrps : tables'.groups = tables.groups)
    (htgts : tables'.targets = updateWhere p f tables.targets) :
    Shrinks tables tables' where
  ids := by rw [hgrps]
  groups := fun group' hgrp' => ⟨group', hgrps ▸ hgrp', rfl, rfl, id⟩
  targets := by
    intro target' htgt'
    rw [htgts] at htgt'
    rcases updateWhere_cases htgt' with ⟨hold, _⟩ | ⟨old, hold, _, rfl⟩
    · exact ⟨target', hold, rfl, rfl, id⟩
    · exact ⟨old, hold, (hgrp old).symm, (hacct old).symm, henab old⟩

theorem Shrinks.of_eq (hgrps : tables'.groups = tables.groups)
    (htgts : tables'.targets = tables.targets) : Shrinks tables tables' where
  ids := by rw [hgrps]
  groups := fun group' hgrp' => ⟨group', hgrps ▸ hgrp', rfl, rfl, id⟩
  targets := fun target' htgt' => ⟨target', htgts ▸ htgt', rfl, rfl, id⟩

theorem Shrinks.trans {tables'' : CopyTables} (h : Shrinks tables tables')
    (h' : Shrinks tables' tables'') : Shrinks tables tables'' where
  ids := h'.ids.trans h.ids
  groups := by
    intro group'' hgrp''
    obtain ⟨group', hgrp', hid', hsrc', hon'⟩ := h'.groups group'' hgrp''
    obtain ⟨group, hgrp, hid, hsrc, hon⟩ := h.groups group' hgrp'
    exact ⟨group, hgrp, hid.trans hid', hsrc.trans hsrc', hon ∘ hon'⟩
  targets := by
    intro target'' htgt''
    obtain ⟨target', htgt', hgrp', hacct', hon'⟩ := h'.targets target'' htgt''
    obtain ⟨target, htgt, hgrp, hacct, hon⟩ := h.targets target' htgt'
    exact ⟨target, htgt, hgrp.trans hgrp', hacct.trans hacct', hon ∘ hon'⟩

/-! ## Enabling one group -/

/-- **One group may be rewritten and enabled** when its enabled targets avoid its source, and,
if it is enabled, no other enabled group continues its edges or leads into them. -/
theorem GraphInv.rewrite (groupId : Uuid) (source : String) (on : Bool) (ids : List String) (hinv : GraphInv tables)
    (hids : (tables'.groups.map (·.id)).Nodup)
    (hoths : ∀ group ∈ tables'.groups, group.id ≠ groupId → group ∈ tables.groups)
    (hself : ∀ group ∈ tables'.groups, group.id = groupId → group.sourceAccountId = source ∧ (group.enabled = true → on = true))
    (hotherTargets : ∀ target ∈ tables'.targets, target.groupId ≠ groupId → target ∈ tables.targets)
    (hselfTargets : ∀ target ∈ tables'.targets, target.groupId = groupId → target.enabled = true → target.accountId ∈ ids)
    (hsrc : source ∉ ids)
    (hchain : on = true → wouldChain groupId source ids tables = false) :
    GraphInv tables' where
  ids := hids
  own := by
    intro group hgrp target htgt hown hon heq
    by_cases hid : group.id = groupId
    · rw [(hself group hgrp hid).1] at heq
      exact hsrc (heq ▸ hselfTargets target htgt (hown.trans hid) hon)
    · exact hinv.own group (hoths group hgrp hid) target
        (hotherTargets target htgt (fun h => hid (hown.symm.trans h))) hown hon heq
  chainless := by
    -- the other enabled groups end and start nowhere near this one
    have hfree : on = true → ∀ group ∈ tables.groups, group.enabled = true →
        group.id ≠ groupId → ∀ target ∈ tables.targets, target.groupId = group.id →
        target.enabled = true → target.accountId ≠ source ∧ group.sourceAccountId ∉ ids := by
      intro hon' group hgrp henab hne target htgt hown hon
      have hcheck := any_eq_false.mp (hchain hon') group hgrp
      rw [and_eq_true, and_eq_true, decide_eq_true_eq] at hcheck
      have htgt' : ¬ (target.accountId = source ∨ group.sourceAccountId ∈ ids) := by
        intro hhit
        refine hcheck ⟨⟨henab, hne⟩, any_eq_true.mpr ⟨target, htgt, ?_⟩⟩
        simp only [and_eq_true, or_eq_true, decide_eq_true_eq, contains_iff_mem]
        exact ⟨⟨hown, hon⟩, hhit⟩
      exact ⟨fun h => htgt' (.inl h), fun h => htgt' (.inr h)⟩
    intro a b c hab hbc
    obtain ⟨first, hfs, henab, rfl, target, htgt, hown, hon, rfl⟩ := hab
    obtain ⟨second, hsec, henab', hlink, next, hnext, hown', hon', rfl⟩ := hbc
    by_cases hid : first.id = groupId
    · have htargetIn := hselfTargets target htgt (hown.trans hid) hon
      obtain ⟨_, honFirst⟩ := hself first hfs hid
      by_cases hid' : second.id = groupId
      · rw [(hself second hsec hid').1] at hlink
        exact hsrc (hlink ▸ htargetIn)
      · have hoth := hfree (honFirst henab) second (hoths second hsec hid') henab'
          hid' next (hotherTargets next hnext (fun h => hid' (hown'.symm.trans h))) hown' hon'
        exact hoth.2 (hlink ▸ htargetIn)
    · have hold := hoths first hfs hid
      have holdTarget := hotherTargets target htgt (fun h => hid (hown.symm.trans h))
      by_cases hid' : second.id = groupId
      · obtain ⟨hsrc', honSecond⟩ := hself second hsec hid'
        have hoth := hfree (honSecond henab') first hold henab hid target holdTarget hown hon
        exact hoth.1 (hlink.symm.trans hsrc')
      · refine hinv.chainless first.sourceAccountId target.accountId next.accountId
          ⟨first, hold, henab, rfl, target, holdTarget, hown, hon, rfl⟩
          ⟨second, hoths second hsec hid', henab', hlink, next,
            hotherTargets next hnext (fun h => hid' (hown'.symm.trans h)), hown', hon', rfl⟩

end MarketLens.Copier
