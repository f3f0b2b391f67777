import MarketLens.Copier.GroupGraph

/-!
# What saving and resuming a group write

One lemma for each operation on a group, over every row of the two tables the
graph is made of. A saved group has the source and the switch of the request; its
enabled targets are those the request enables, because a target the request does
not list is disabled in the same transaction. A resumed group keeps its source and
its targets.
-/

namespace MarketLens.Copier

open List Bool Table Store Fallible Runs Chain

variable {tables tables' : CopyTables} {request : CopyGroupUpsert} {groupId : Uuid}

/-! ## Validation -/

theorem validateCopyTarget_ok {seen : List String} {target : CopyTargetWrite}
    (h : validateCopyTarget request seen target = .ok ()) :
    target.accountId ≠ request.sourceAccountId ∧ target.accountId ∉ seen := by
  obtain ⟨_, h⟩ := unit_bind_ok.mp h
  obtain ⟨hsrc, h⟩ := unit_bind_ok.mp h
  obtain ⟨hnew, _⟩ := unit_bind_ok.mp h
  exact ⟨by simpa using hsrc, by simpa using hnew⟩

theorem validateCopyTargets_ok : ∀ (writes : List CopyTargetWrite) (seen : List String),
    validateCopyTargets request seen writes = .ok () → (writes.map (·.accountId)).Nodup ∧
      ∀ write ∈ writes, write.accountId ≠ request.sourceAccountId ∧ write.accountId ∉ seen := by
  intro writes
  induction writes with
  | nil => exact fun _ _ => ⟨nodup_nil, forall_mem_nil _⟩
  | cons first rest ih =>
    intro seen h
    obtain ⟨hfs, hrest⟩ := unit_bind_ok.mp h
    obtain ⟨hndp, hother⟩ := ih _ hrest
    refine ⟨nodup_cons.mpr ⟨fun haga => ?_, hndp⟩, fun write hwrite => ?_⟩
    · obtain ⟨write, hwrite, hsame⟩ := mem_map.mp haga
      exact (hother write hwrite).2 (hsame ▸ mem_cons_self)
    · rcases mem_cons.mp hwrite with rfl | hwrite
      · exact validateCopyTarget_ok hfs
      · exact ⟨(hother write hwrite).1, fun hseen => (hother write hwrite).2 (mem_cons_of_mem _ hseen)⟩

theorem validateRequest_ok (h : validateCopyGroupWrite request = .ok ()) : (request.targets.map (·.accountId)).Nodup ∧
    ∀ write ∈ request.targets, write.accountId ≠ request.sourceAccountId ∧ write.accountId ∉ [] := by
  iterate 5 obtain ⟨_, h⟩ := unit_bind_ok.mp h
  exact validateCopyTargets_ok _ _ h

theorem source_not_targeted (h : validateCopyGroupWrite request = .ok ()) :
    request.sourceAccountId ∉ request.enabledTargetIds := by
  intro hmem
  obtain ⟨write, hwrite, heq⟩ := mem_map.mp hmem
  exact ((validateRequest_ok h).2 write (mem_filter.mp hwrite).1).1 heq

/-! ## The group row -/

/-- The rows of an id, when ids are distinct, are the row known to have it. -/
theorem row_unique {group other : CopyGroupRow} (hids : (tables.groups.map (·.id)).Nodup)
    (hgrp : group ∈ tables.groups) (hoth : other ∈ tables.groups)
    (heq : other.id = group.id) : other = group :=
  inj_on_of_nodup_map hids hoth hgrp heq

/-- What `saveGroup` leaves in the table of groups. -/
structure GroupSaved (request : CopyGroupUpsert) (groupId : Uuid)
    (tables tables' : CopyTables) : Prop where
  ids : (tables'.groups.map (·.id)).Nodup
  others : ∀ group ∈ tables'.groups, group.id ≠ groupId → group ∈ tables.groups
  self : ∀ group ∈ tables'.groups, group.id = groupId →
    group.sourceAccountId = request.sourceAccountId ∧ group.enabled = request.enabled
  kept : ∀ group ∈ tables.groups, group.id ≠ groupId → group ∈ tables'.groups
  found : ∀ group ∈ tables.groups, group.id = groupId →
    request.groupId.isSome = true ∧ ∃ group' ∈ tables'.groups, group'.id = groupId
  targets : tables'.targets = tables.targets
  links : tables'.links = tables.links

section Ids

variable (hids : (tables.groups.map (·.id)).Nodup)
include hids

theorem GroupSaved.of_insert {new : CopyGroupRow} (hfsh : ∀ group ∈ tables.groups, group.id ≠ groupId) (hnew : new.id = groupId) :
    GroupSaved request groupId tables { tables with groups := tables.groups ++ [writeGroup request new] } where
  ids := nodup_insert hids fun group hgrp hsame => hfsh group hgrp (hsame.trans hnew)
  others := by
    intro group hgrp hne
    rcases mem_append.mp hgrp with hold | hadded
    · exact hold
    · rw [mem_singleton.mp hadded] at hne
      exact absurd hnew hne
  self := by
    intro group hgrp hid
    rcases mem_append.mp hgrp with hold | hadded
    · exact absurd hid (hfsh group hold)
    · rw [mem_singleton.mp hadded]
      exact ⟨rfl, rfl⟩
  kept := fun _ hgrp _ => mem_append_left _ hgrp
  found := fun group hgrp hid => absurd hid (hfsh group hgrp)
  targets := rfl
  links := rfl

variable {current : CopyGroupRow → Bool}

theorem GroupSaved.of_update {found : CopyGroupRow} (hsome : request.groupId.isSome = true) (hfnd : found ∈ tables.groups)
    (hcurr : current found = true) (hid : ∀ group, current group = true → group.id = groupId) :
    GroupSaved request groupId tables { tables with groups := updateWhere current (writeGroup request) tables.groups } where
  ids := by
    have hkept : ∀ group, (writeGroup request group).id = group.id := fun _ => rfl
    rw [map_updateWhere hkept]
    exact hids
  others := by
    intro group hgrp hne
    rcases updateWhere_cases hgrp with ⟨hold, _⟩ | ⟨old, _, hmat, rfl⟩
    · exact hold
    · exact absurd (hid old hmat) hne
  self := by
    intro group hgrp hself
    rcases updateWhere_cases hgrp with ⟨hold, hpass⟩ | ⟨old, _, _, rfl⟩
    · -- the only row of this id is the one the update matches
      have hsame := row_unique hids hfnd hold (hself.trans (hid found hcurr).symm)
      rw [hsame, hcurr] at hpass
      exact absurd hpass (by decide)
    · exact ⟨rfl, rfl⟩
  kept := by
    intro group hgrp hne
    exact unmatched_mem hgrp fun hmat => hne (hid group hmat)
  found := fun _ _ _ => ⟨hsome, _, updated_mem hfnd hcurr, hid found hcurr⟩
  targets := rfl
  links := rfl

theorem saveGroup_ok (h : saveGroup request groupId tables = .ok tables') : GroupSaved request groupId tables tables' := by
  unfold saveGroup at h
  cases hreq : request.groupId with
  | none =>
    simp only [hreq] at h
    obtain ⟨hrefd, h⟩ := unit_bind_ok.mp h
    cases h
    rw [refuseIf_ok, or_eq_false_iff] at hrefd
    refine GroupSaved.of_insert hids (fun group hgrp => ?_) rfl
    simpa using any_eq_false.mp hrefd.2 group hgrp
  | some =>
    simp only [hreq] at h
    obtain ⟨expected, _, h⟩ := bind_ok.mp h
    obtain ⟨hfnd, h⟩ := unit_bind_ok.mp h
    obtain ⟨_, h⟩ := unit_bind_ok.mp h
    cases h
    rw [refuseIf_ok, not_eq_false', any_eq_true] at hfnd
    obtain ⟨found, hmem, hcurr⟩ := hfnd
    refine GroupSaved.of_update hids (hreq ▸ rfl) hmem hcurr fun group hgrp => ?_
    rw [and_eq_true, decide_eq_true_eq] at hgrp
    exact hgrp.1

end Ids

/-! ## The target rows -/

variable {reported : String → String → Bool} {targets targets' : List CopyTargetRow}

/-- What saving some targets of a group leaves: rows that were there, and rows with the switch of their
write. None is lost, and those of other groups stay as they are. -/
structure TargetsWritten (groupId : Uuid) (writes : List CopyTargetWrite) (targets targets' : List CopyTargetRow) : Prop where
  rows : ∀ target ∈ targets', (target ∈ targets ∧ (target.groupId = groupId → target.accountId ∉ writes.map (·.accountId))) ∨
    (target.groupId = groupId ∧ ∃ write ∈ writes, write.accountId = target.accountId ∧ write.enabled = target.enabled)
  kept : ∀ target ∈ targets, ∃ target' ∈ targets', target'.groupId = target.groupId ∧
    target'.accountId = target.accountId ∧ (target.groupId ≠ groupId → target' = target)
  written : ∀ write ∈ writes, ∃ target ∈ targets', target.groupId = groupId ∧ target.accountId = write.accountId

theorem saveTarget_ok {write : CopyTargetWrite} (h : saveTarget groupId reported targets write = .ok targets') :
    TargetsWritten groupId [write] targets targets' := by
  obtain ⟨saved, hsav, h⟩ := bind_ok.mp h
  obtain ⟨_, h⟩ := unit_bind_ok.mp h
  cases h
  split at hsav
  · rename_i hnone
    cases hsav
    refine ⟨fun target htgt => ?_, fun target htgt => ⟨target, mem_append_left _ htgt, rfl, rfl, fun _ => rfl⟩, ?_⟩
    · rcases mem_append.mp htgt with hold | hadded
      · exact .inl ⟨hold, by simpa using find?_eq_none.mp hnone target hold⟩
      · rw [mem_singleton.mp hadded]
        exact .inr ⟨rfl, write, mem_singleton_self _, rfl, rfl⟩
    · exact forall_mem_singleton.mpr ⟨_, mem_append_right _ (mem_singleton_self _), rfl, rfl⟩
  · rename_i current hcurr
    obtain ⟨_, hsav⟩ := unit_bind_ok.mp hsav
    cases hsav
    refine ⟨fun target htgt => ?_, fun target htgt => ⟨_, mem_updateWhere.mpr ⟨target, htgt, rfl⟩, ?_, ?_, fun hoth => if_neg ?_⟩, ?_⟩
    · rcases updateWhere_cases htgt with ⟨hold, hpass⟩ | ⟨old, _, hmat, rfl⟩
      · exact .inl ⟨hold, by simpa using hpass⟩
      · rw [and_eq_true, decide_eq_true_eq, decide_eq_true_eq] at hmat
        exact .inr ⟨hmat.1, write, mem_singleton_self _, hmat.2.symm, rfl⟩
    · split <;> rfl
    · split <;> rfl
    · rw [and_eq_true, decide_eq_true_eq]
      exact fun hsame => hoth hsame.1
    · have hmat := find?_some hcurr
      refine forall_mem_singleton.mpr ⟨_, updated_mem (mem_of_find?_eq_some hcurr) hmat, ?_⟩
      rw [and_eq_true, decide_eq_true_eq, decide_eq_true_eq] at hmat
      exact hmat

theorem TargetsWritten.trans {writes writes' : List CopyTargetWrite} {mid : List CopyTargetRow}
    (h : TargetsWritten groupId writes targets mid) (h' : TargetsWritten groupId writes' mid targets') :
    TargetsWritten groupId (writes ++ writes') targets targets' where
  rows target htgt := by
    rcases h'.rows target htgt with ⟨hmid, hunlisted'⟩ | ⟨hgrp, write, hwrite, hsame⟩
    · rcases h.rows target hmid with ⟨hold, hunlisted⟩ | ⟨hgrp, write, hwrite, hsame⟩
      · refine .inl ⟨hold, fun hgrp => ?_⟩
        rw [map_append, mem_append]
        exact not_or.mpr ⟨hunlisted hgrp, hunlisted' hgrp⟩
      · exact .inr ⟨hgrp, write, mem_append_left _ hwrite, hsame⟩
    · exact .inr ⟨hgrp, write, mem_append_right _ hwrite, hsame⟩
  kept target htgt := by
    obtain ⟨mid, hmid, hown, hacct, hsame⟩ := h.kept target htgt
    obtain ⟨last, hlast, hown', hacct', hsame'⟩ := h'.kept mid hmid
    exact ⟨last, hlast, hown'.trans hown, hacct'.trans hacct, fun hoth => (hsame' (hown ▸ hoth)).trans (hsame hoth)⟩
  written write hwrite := by
    rcases mem_append.mp hwrite with hfs | hlat
    · obtain ⟨target, htgt, hown, hacct⟩ := h.written write hfs
      obtain ⟨target', htgt', hown', hacct', -⟩ := h'.kept target htgt
      exact ⟨target', htgt', hown'.trans hown, hacct'.trans hacct⟩
    · exact h'.written write hlat

theorem saveTargets_ok : ∀ (writes : List CopyTargetWrite) (targets : List CopyTargetRow),
    writes.foldlM (saveTarget groupId reported) targets = .ok targets' → TargetsWritten groupId writes targets targets' := by
  intro writes
  induction writes with
  | nil =>
    intro targets h
    cases h
    exact ⟨fun target htgt => .inl ⟨htgt, fun _ => not_mem_nil⟩,
      fun target htgt => ⟨target, htgt, rfl, rfl, fun _ => rfl⟩, forall_mem_nil _⟩
  | cons first rest ih =>
    intro targets h
    obtain ⟨mid, hmid, hrest⟩ := bind_ok.mp h
    exact (saveTarget_ok hmid).trans (ih mid hrest)

/-- What a saved group's transaction leaves in the table of targets: rows of other groups as
they were, and enabled targets of the group only where the request enables them. -/
structure TargetsSaved (request : CopyGroupUpsert) (groupId : Uuid)
    (targets targets' : List CopyTargetRow) : Prop where
  others : ∀ target ∈ targets', target.groupId ≠ groupId → target ∈ targets
  self : ∀ target ∈ targets', target.groupId = groupId → target.enabled = true →
    target.accountId ∈ request.enabledTargetIds

theorem targetsSaved_of_fold (h : request.targets.foldlM (saveTarget groupId reported) targets = .ok targets') :
    TargetsSaved request groupId targets (disableUnlisted request groupId targets') where
  others := by
    intro target htgt hoth
    rcases updateWhere_cases htgt with ⟨hkept, _⟩ | ⟨old, _, hmat, rfl⟩
    · rcases (saveTargets_ok _ _ h).rows target hkept with ⟨hold, _⟩ | ⟨hgrp, _⟩
      · exact hold
      · exact absurd hgrp hoth
    · simp only [and_eq_true, decide_eq_true_eq] at hmat
      exact absurd hmat.1.1 hoth
  self := by
    intro target htgt hself henab
    rcases updateWhere_cases htgt with ⟨hkept, hpass⟩ | ⟨old, _, _, rfl⟩
    · rcases (saveTargets_ok _ _ h).rows target hkept with ⟨_, hunlisted⟩ | ⟨_, write, hwrite, hacct, hon⟩
      · -- an enabled row of this group that the request does not list would have matched
        have hlisted := hunlisted hself
        simp only [hself, henab, Bool.and_true, decide_true, Bool.true_and, not_eq_false'] at hpass
        exact absurd (contains_iff_mem.mp hpass) hlisted
      · refine mem_map.mpr ⟨write, mem_filter.mpr ⟨hwrite, ?_⟩, hacct⟩
        rw [hon, henab]
    · exact absurd henab false_ne_true

theorem TargetsSaved.deactivate (h : TargetsSaved request groupId targets targets') :
    TargetsSaved request groupId targets (deactivateTargets groupId targets') where
  others := by
    intro target htgt hoth
    rcases updateWhere_cases htgt with ⟨hkept, _⟩ | ⟨old, _, hmat, rfl⟩
    · exact h.others target hkept hoth
    · exact absurd (by simpa using hmat) hoth
  self := by
    intro target htgt hself henab
    rcases updateWhere_cases htgt with ⟨hkept, _⟩ | ⟨old, hold, _, rfl⟩
    · exact h.self target hkept hself henab
    · exact h.self old hold hself henab

/-! ## Saving keeps the graph -/

variable {accounts : List AccountRow} {authorize : Except ApiError Unit}

theorem upsertCopyGroup_ok {newId : Uuid} (hids : (tables.groups.map (·.id)).Nodup)
    (h : upsertCopyGroup accounts authorize newId reported request tables = .ok tables') :
    validateCopyGroupWrite request = .ok () ∧ (request.enabled && wouldChain (request.groupId.getD newId) request.sourceAccountId
        request.enabledTargetIds tables) = false ∧
      TargetsSaved request (request.groupId.getD newId) tables.targets tables'.targets ∧
      ∃ saved, GroupSaved request (request.groupId.getD newId) tables saved ∧ tables'.groups = saved.groups := by
  obtain ⟨hval, h⟩ := unit_bind_ok.mp h
  obtain ⟨_, h⟩ := unit_bind_ok.mp h
  obtain ⟨_, h⟩ := unit_bind_ok.mp h
  obtain ⟨hchain, h⟩ := unit_bind_ok.mp h
  obtain ⟨_, h⟩ := unit_bind_ok.mp h
  obtain ⟨saved, hsav, h⟩ := bind_ok.mp h
  obtain ⟨targets, htgts, h⟩ := bind_ok.mp h
  have hgrp := saveGroup_ok hids hsav
  rw [hgrp.targets] at htgts
  have hrows := targetsSaved_of_fold htgts
  refine ⟨hval, refuseIf_ok.mp hchain, ?_⟩
  by_cases hon : request.enabled = true
  · rw [if_pos hon] at h
    cases h
    exact ⟨hrows, saved, hgrp, rfl⟩
  · rw [if_neg hon] at h
    cases h
    exact ⟨hrows.deactivate, saved, hgrp, rfl⟩

/-- **Saving a group keeps the graph free of chains.** -/
theorem upsert_keeps {newId : Uuid} (hinv : GraphInv tables)
    (h : upsertCopyGroup accounts authorize newId reported request tables = .ok tables') :
    GraphInv tables' := by
  obtain ⟨hval, hchain, htgts, saved, hgrp, hgrps⟩ := upsertCopyGroup_ok hinv.ids h
  refine GraphInv.rewrite (request.groupId.getD newId) request.sourceAccountId request.enabled
    request.enabledTargetIds hinv ?_ ?_ ?_ htgts.others htgts.self
    (source_not_targeted hval) ?_
  · rw [hgrps]
    exact hgrp.ids
  · rw [hgrps]
    exact hgrp.others
  · rw [hgrps]
    intro group hmem hid
    obtain ⟨hsrc, henab⟩ := hgrp.self group hmem hid
    exact ⟨hsrc, fun hon => henab ▸ hon⟩
  · intro hon
    rw [hon, Bool.true_and] at hchain
    exact hchain

/-! ## Actions keep the graph -/

/-- Pausing and reconciling rewrite one group row without enabling it. -/
theorem action_shrinks {action : CopyGroupAction} (haction : action ≠ .resume)
    (hgrps : tables'.groups = updateWhere current (actionGroup action) tables.groups)
    (htgts : tables'.targets = tables.targets) : Shrinks tables tables' := by
  refine shrinks_groups ?_ ?_ ?_ hgrps htgts
  · intro group
    cases action <;> rfl
  · intro group
    cases action <;> rfl
  · intro group
    cases action with
    | resume => exact absurd rfl haction
    | archive => exact fun hon => absurd hon false_ne_true
    | pause | reconcile => exact id

theorem supersedeWork_shrinks (reason : String) (obsolete : WorkRow → Bool) :
    Shrinks tables (supersedeWork reason obsolete tables) :=
  .of_eq rfl rfl

theorem deactivateTargets_shrinks : Shrinks tables { tables with targets := deactivateTargets groupId tables.targets } :=
  shrinks_targets (f := fun target => { target with runtimeStatus := .inactive })
    (fun _ => rfl) (fun _ => rfl) (fun _ => id) rfl rfl

/-- Resuming enables the group it found, when nothing it copies would chain. -/
theorem resume_keeps {group : CopyGroupRow} {targetStatus : CopyTargetRow → CopyTargetRuntimeStatus}
    (hinv : GraphInv tables) (hgrp : group ∈ tables.groups)
    (hcurr : ∀ row, current row = true → row.id = group.id)
    (hcheck : checkResume accounts group tables = .ok ())
    (hgrps : tables'.groups = Table.updateWhere current (actionGroup .resume) tables.groups)
    (htgts : tables'.targets = Table.updateWhere (·.groupId = group.id)
      (fun target => { target with runtimeStatus := targetStatus target }) tables.targets) :
    GraphInv tables' := by
  obtain ⟨_, hcheck⟩ := unit_bind_ok.mp hcheck
  obtain ⟨_, hcheck⟩ := unit_bind_ok.mp hcheck
  have hchain := refuseIf_ok.mp hcheck
  have hmem : ∀ target ∈ tables.targets, target.groupId = group.id → target.enabled = true →
      target.accountId ∈ enabledTargetIds group.id tables := by
    intro target htgt hown hon
    refine mem_map.mpr ⟨target, mem_filter.mpr ⟨htgt, ?_⟩, rfl⟩
    rw [hon, Bool.and_true, decide_eq_true_eq]
    exact hown
  refine GraphInv.rewrite group.id group.sourceAccountId true (enabledTargetIds group.id tables)
    hinv ?_ ?_ ?_ ?_ ?_ ?_ fun _ => hchain
  · have hkept : ∀ row, (actionGroup .resume row).id = row.id := fun _ => rfl
    rw [hgrps, map_updateWhere hkept]
    exact hinv.ids
  · intro row hrow hoth
    rw [hgrps] at hrow
    rcases updateWhere_cases hrow with ⟨hold, _⟩ | ⟨old, _, hmat, rfl⟩
    · exact hold
    · exact absurd (hcurr old hmat) hoth
  · intro row hrow hself
    rw [hgrps] at hrow
    refine ⟨?_, fun _ => rfl⟩
    rcases updateWhere_cases hrow with ⟨hold, _⟩ | ⟨old, hold, _, rfl⟩
    · rw [row_unique hinv.ids hgrp hold hself]
    · show old.sourceAccountId = group.sourceAccountId
      rw [row_unique hinv.ids hgrp hold hself]
  · intro target htgt hoth
    rw [htgts] at htgt
    rcases updateWhere_cases htgt with ⟨hold, _⟩ | ⟨old, _, hmat, rfl⟩
    · exact hold
    · exact absurd (by simpa using hmat) hoth
  · intro target htgt hown hon
    rw [htgts] at htgt
    rcases updateWhere_cases htgt with ⟨hold, _⟩ | ⟨old, hold, _, rfl⟩
    · exact hmem target hold hown hon
    · exact hmem old hold hown hon
  · intro hself
    obtain ⟨target, htgt, hacct⟩ := mem_map.mp hself
    obtain ⟨htgt, hon⟩ := mem_filter.mp htgt
    rw [and_eq_true, decide_eq_true_eq] at hon
    exact hinv.own group hgrp target htgt hon.1 hon.2 hacct

/-- **Every action on a group keeps the graph free of chains.** -/
theorem action_keeps {expectedRevision : Nat} {action : CopyGroupAction} (hinv : GraphInv tables)
    (h : copyGroupAction accounts authorize groupId expectedRevision action tables = .ok tables') : GraphInv tables' := by
  obtain ⟨_, h⟩ := unit_bind_ok.mp h
  obtain ⟨group, hfnd, h⟩ := bind_ok.mp h
  obtain ⟨hcheck, h⟩ := unit_bind_ok.mp h
  obtain ⟨_, h⟩ := unit_bind_ok.mp h
  rw [require_ok] at hfnd
  have hid : group.id = groupId := by
    have hmat := find?_some hfnd
    rw [and_eq_true, decide_eq_true_eq] at hmat
    exact hmat.1
  cases action with
  | archive =>
    cases h
    have hacted :
          Shrinks tables { tables with groups := updateWhere (fun group => group.id = groupId
            && group.revision = expectedRevision) (actionGroup .archive) tables.groups } :=
      action_shrinks (by decide) rfl rfl
    exact hinv.shrink ((hacted.trans (supersedeWork_shrinks _ _)).trans deactivateTargets_shrinks)
  | resume =>
    cases h
    subst hid
    refine resume_keeps hinv (mem_of_find?_eq_some hfnd) (fun row hrow => ?_) hcheck rfl rfl
    rw [and_eq_true, decide_eq_true_eq] at hrow
    exact hrow.1
  | pause | reconcile =>
    cases h
    exact hinv.shrink (action_shrinks (by decide) rfl rfl)

end MarketLens.Copier
