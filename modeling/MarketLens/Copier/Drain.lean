import MarketLens.Copier.CommandIdentity
import MarketLens.Copier.EventDelivery
import MarketLens.Copier.FillEvidence
import MarketLens.Copier.GroupRuns
import MarketLens.Copier.Reconciliation

/-!
# Groups stay in place for their links

A link that is neither closed nor cancelled stands for an order or a position that
the copier has to close again, and for that it needs the group and the target it
was opened under. Saving a group, acting on it and removing an account each check
the links first, each in its own words. Persisting an order opens a link under the
group as it is then, or takes over the row of a leg that is there. Reports and
the reconciliation pass write whatever link they find, also one that was over.
-/

namespace MarketLens.Copier

open Table List Store Fallible Runs

/-! ## The invariant -/

/-- The link can still be closed: its group is enabled, copies from the link's source account, and
has the link's target account as an enabled member. -/
def Anchored (tables : CopyTables) (link : LinkRow) : Prop :=
  ∃ group ∈ tables.groups, group.id = link.groupId ∧
    group.sourceAccountId = link.sourceAccountId ∧ group.enabled = true ∧
    ∃ target ∈ tables.targets, target.groupId = group.id ∧
      target.accountId = link.targetAccountId ∧ target.enabled = true

/-- Every link that is neither closed nor cancelled can still be closed. -/
def LinksAnchored (tables : CopyTables) : Prop :=
  ∀ link ∈ tables.links, link.lifecycleStatus.unfinished = true → Anchored tables link

/-! ## The operations -/

/-- Every unfinished link of the later tables was one before, of the same accounts. -/
def opensNoLink (tables after : CopyTables) : Bool :=
  after.links.all fun link' => !link'.lifecycleStatus.unfinished || tables.links.any fun link =>
    link.lifecycleStatus.unfinished && link.groupId = link'.groupId
      && link.sourceAccountId = link'.sourceAccountId
      && link.targetAccountId = link'.targetAccountId

/-- The item is carried out as it was claimed: its row still names the group and the target. -/
def carriesOut (tables : CopyTables) (work : WorkRow) : Bool :=
  tables.work.all fun row => row.id ≠ work.id
    || (row.groupId = work.groupId && row.targetAccountId = work.targetAccountId)

inductive DrainAction where
  /-- A change of the settings, or work of the copier that opens no link. -/
  | settings (action : SettingsAction)
  /-- A work item's command is persisted, with the link it opens or concerns. -/
  | persist (env : WorkEnv) (work : WorkRow) (command : EaCommand)

def drainStep (tables : CopyTables) : DrainAction → Option CopyTables
  | .settings (.work after) =>
    if opensNoLink tables after then settingsStep tables (.work after) else none
  | .settings action => settingsStep tables action
  | .persist env work command =>
    if carriesOut tables work then (persistCopierOutbox env tables work command).toOption else none

def reusesOwnSource (tables : CopyTables) : DrainAction → Prop
  | .persist env work (.place order) => ∀ group,
    tables.groups.find? (fun group => group.id = work.groupId && group.enabled) = some group →
    ∀ link ∈ tables.links,
      link.sameLeg (orderLink env work group order (linkTargetLeg tables work order)) = true →
      link.sourceAccountId = group.sourceAccountId
  | _ => True

def remembers (commandId : String) (link : LinkRow) : Bool :=
  link.metadata.commandId = some commandId || link.metadata.lastCommandId = some commandId

variable {tables tables' : CopyTables} {link : LinkRow}

/-- The rows a link needs are found again. -/
theorem Anchored.keep (h : Anchored tables link)
    (hgrps : ∀ group ∈ tables.groups, group.id = link.groupId → group.enabled = true →
      group.sourceAccountId = link.sourceAccountId → ∃ group' ∈ tables'.groups,
        group'.id = group.id ∧ group'.sourceAccountId = group.sourceAccountId ∧ group'.enabled = true)
    (htgts : ∀ target ∈ tables.targets, target.groupId = link.groupId →
      target.accountId = link.targetAccountId → target.enabled = true →
      ∃ target' ∈ tables'.targets, target'.groupId = target.groupId ∧
        target'.accountId = target.accountId ∧ target'.enabled = true) :
    Anchored tables' link := by
  obtain ⟨group, hgrp, hid, hsrc, hon, target, htgt, hown, hacct, henab⟩ := h
  obtain ⟨group', hgrp', hid', hsrc', hon'⟩ := hgrps group hgrp hid hon hsrc
  obtain ⟨target', htgt', hown', hacct', henab'⟩ :=
    htgts target htgt (hown.trans hid) hacct henab
  exact ⟨group', hgrp', hid'.trans hid, hsrc'.trans hsrc, hon', target', htgt',
    hown'.trans (hown.trans hid'.symm), hacct'.trans hacct, henab'⟩

/-- What disables nothing keeps a link anchored. -/
theorem Anchored.grow (h : Anchored tables link) (hgrow : Shrinks tables' tables) : Anchored tables' link := by
  refine h.keep (fun group hgrp _ hon _ => ?_) fun target htgt _ _ hon => ?_
  · obtain ⟨group', hgrp', hid, hsrc, hkept⟩ := hgrow.groups group hgrp
    exact ⟨group', hgrp', hid, hsrc, hkept hon⟩
  · obtain ⟨target', htgt', hown, hacct, hkept⟩ := hgrow.targets target htgt
    exact ⟨target', htgt', hown, hacct, hkept hon⟩

/-- Updates that leave the link's group and its target in place. -/
theorem Anchored.update {p : CopyGroupRow → Bool} {f : CopyGroupRow → CopyGroupRow} {q : CopyTargetRow → Bool}
    {g : CopyTargetRow → CopyTargetRow} (h : Anchored tables link)
    (hgrps : tables'.groups = updateWhere p f tables.groups) (htgts : tables'.targets = updateWhere q g tables.targets)
    (hgrp : ∀ group, group.id = link.groupId → group.enabled = true → p group = true →
      (f group).id = group.id ∧ (f group).sourceAccountId = group.sourceAccountId ∧ (f group).enabled = true)
    (htgt : ∀ target, target.groupId = link.groupId → target.enabled = true → q target = true →
      (g target).groupId = target.groupId ∧ (g target).accountId = target.accountId ∧ (g target).enabled = true) :
    Anchored tables' link := by
  refine h.keep (fun group hmem hid hon _ => ?_) fun target hmem hown _ hon => ?_
  · rw [hgrps]
    exact exists_updateWhere hmem ⟨rfl, rfl, hon⟩ (hgrp group hid hon)
  · rw [htgts]
    exact exists_updateWhere hmem ⟨rfl, rfl, hon⟩ (htgt target hown hon)

theorem mem_activeLinkTargets (hlink : link ∈ tables.links) (hlive : link.lifecycleStatus.unfinished = true) :
    link.targetAccountId ∈ activeLinkTargets link.groupId tables := by
  refine mem_map.mpr ⟨link, mem_filter.mpr ⟨hlink, ?_⟩, rfl⟩
  rw [hlive, decide_eq_true rfl]
  rfl

/-! ## Actions -/

section Action

variable {accounts : List AccountRow} {authorize : Except ApiError Unit} {groupId : Uuid}
  {expectedRevision : Nat} {action : CopyGroupAction}

theorem action_links (h : copyGroupAction accounts authorize groupId expectedRevision action tables = .ok tables') :
    tables'.links = tables.links := by
  obtain ⟨-, h⟩ := unit_bind_ok.mp h
  obtain ⟨group, -, h⟩ := bind_ok.mp h
  obtain ⟨-, h⟩ := unit_bind_ok.mp h
  obtain ⟨-, h⟩ := unit_bind_ok.mp h
  cases action <;> cases h <;> rfl

/-- Only archiving disables anything, and it is refused while the group has an unfinished link. -/
theorem action_anchored (h : copyGroupAction accounts authorize groupId expectedRevision action tables = .ok tables')
    (hlink : link ∈ tables.links) (hlive : link.lifecycleStatus.unfinished = true)
    (hanc : Anchored tables link) : Anchored tables' link := by
  obtain ⟨-, h⟩ := unit_bind_ok.mp h
  obtain ⟨group, -, h⟩ := bind_ok.mp h
  obtain ⟨-, h⟩ := unit_bind_ok.mp h
  obtain ⟨hdrained, h⟩ := unit_bind_ok.mp h
  cases action with
  | archive =>
    cases h
    rw [refuseIf_ok, decide_eq_true rfl, Bool.true_and, Bool.not_eq_false', List.isEmpty_iff] at hdrained
    have hoth : link.groupId ≠ groupId := by
      rintro rfl
      have hmem := mem_activeLinkTargets hlink hlive
      rw [hdrained] at hmem
      exact absurd hmem not_mem_nil
    refine hanc.update rfl rfl (fun group hid _ hp => absurd ?_ hoth) fun target hown _ hq => absurd ?_ hoth
    · rw [Bool.and_eq_true, decide_eq_true_iff] at hp
      exact hid.symm.trans hp.1
    · exact hown.symm.trans (of_decide_eq_true hq)
  | resume =>
    cases h
    exact hanc.update rfl rfl (fun _ _ _ _ => ⟨rfl, rfl, rfl⟩) fun _ _ hon _ => ⟨rfl, rfl, hon⟩
  | pause | reconcile =>
    cases h
    have hsame : tables.targets = updateWhere (fun _ => false) id tables.targets := (updateWhere_none fun _ _ => rfl).symm
    exact hanc.update rfl hsame (fun _ _ hon _ => ⟨rfl, rfl, hon⟩) fun _ _ _ hq => absurd hq Bool.false_ne_true

end Action

/-! ## Removing an account -/

theorem remove_anchored {accountId : String} (hblocked : removalBlocked accountId tables = false) (hlink : link ∈ tables.links)
    (hlive : link.lifecycleStatus.unfinished = true) (hanc : Anchored tables link) :
    Anchored (removeAccount accountId tables) link := by
  have hoff : link.groupId ∉ affectedGroups accountId tables := by
    intro hin
    have hpass := any_eq_false.mp hblocked link hlink
    rw [hlive, contains_iff_mem.mpr hin] at hpass
    exact hpass rfl
  have hsrc : ∀ group ∈ tables.groups, group.id = link.groupId → group.sourceAccountId ≠ accountId := by
    intro group hgrp hid hsame
    refine hoff (mem_map.mpr ⟨group, mem_filter.mpr ⟨hgrp, ?_⟩, hid⟩)
    rw [decide_eq_true hsame]
    rfl
  have htgt : ∀ target ∈ tables.targets, target.groupId = link.groupId → target.accountId ≠ accountId := by
    intro target htgt hown hsame
    obtain ⟨group, hgrp, hid, -⟩ := hanc
    refine hoff (mem_map.mpr ⟨group, mem_filter.mpr ⟨hgrp, ?_⟩, hid⟩)
    rw [Bool.or_eq_true, any_eq_true]
    refine .inr ⟨target, htgt, ?_⟩
    rw [decide_eq_true (hown.trans hid.symm), decide_eq_true hsame]
    rfl
  -- no group the account feeds has the link's id, so the target rows of the group stay
  have hfed : ∀ groups, (∃ p, groups = updateWhere p deactivateGroup tables.groups) →
      feeds accountId groups link.groupId = false := by
    rintro groups ⟨p, rfl⟩
    rw [← Bool.not_eq_true]
    intro hfeeds
    obtain ⟨fed, hfed, hmat⟩ := any_eq_true.mp hfeeds
    rw [Bool.and_eq_true, decide_eq_true_iff, decide_eq_true_iff] at hmat
    rcases updateWhere_cases hfed with ⟨hold, -⟩ | ⟨old, hold, -, rfl⟩
    · exact hsrc fed hold hmat.1 hmat.2
    · exact hsrc old hold hmat.1 hmat.2
  refine hanc.keep (fun group hgrp hid hon _ => ?_) fun target hmem hown _ hon => ?_
  · have hkept : group ∈ updateWhere (·.sourceAccountId = accountId) deactivateGroup tables.groups := by
      refine unmatched_mem hgrp ?_
      rw [decide_eq_true_iff]
      exact hsrc group hgrp hid
    refine ⟨group, unmatched_mem hkept ?_, rfl, rfl, hon⟩
    rw [Bool.and_eq_true, contains_iff_mem, hid]
    exact fun hin => hoff hin.1
  · refine ⟨target, unmatched_mem hmem ?_, rfl, rfl, hon⟩
    rw [Bool.or_eq_true, Bool.and_eq_true, decide_eq_true_iff, hown, hfed _ ⟨_, rfl⟩]
    rintro (⟨hsame, -⟩ | hnone)
    · exact htgt target hmem hown hsame
    · exact Bool.false_ne_true hnone

/-! ## Saving a group -/

section Save

variable {request : CopyGroupUpsert} {groupId : Uuid} {reported : String → String → Bool}
  {targets targets' : List CopyTargetRow}

theorem savedTarget_enabled (hndp : (request.targets.map (·.accountId)).Nodup)
    (h : request.targets.foldlM (saveTarget groupId reported) targets = .ok targets')
    {account : String} (hacct : account ∈ request.enabledTargetIds) :
    ∃ target ∈ disableUnlisted request groupId targets', target.groupId = groupId ∧
      target.accountId = account ∧ target.enabled = true := by
  obtain ⟨write, hwrite, rfl⟩ := mem_map.mp hacct
  obtain ⟨hwrite, hon⟩ := mem_filter.mp hwrite
  have hwritten := saveTargets_ok _ _ h
  obtain ⟨target, htgt, hown, hsame⟩ := hwritten.written write hwrite
  have hlisted : target.accountId ∈ request.targets.map (·.accountId) :=
    hsame ▸ mem_map_of_mem hwrite
  have henab : target.enabled = true := by
    rcases hwritten.rows target htgt with ⟨-, hunlisted⟩ | ⟨-, other, hoth, heq, hkept⟩
    · exact absurd hlisted (hunlisted hown)
    · rw [← hkept, inj_on_of_nodup_map hndp hoth hwrite (heq.trans hsame)]
      exact hon
  refine ⟨target, unmatched_mem htgt ?_, hown, hsame, henab⟩
  rw [Bool.and_eq_true, Bool.not_eq_true', contains_iff_mem.mpr hlisted]
  exact fun hdrpd => absurd hdrpd.2 (by decide)

theorem savedTarget_other (h : request.targets.foldlM (saveTarget groupId reported) targets = .ok targets')
    {target : CopyTargetRow} (htgt : target ∈ targets) (hoth : target.groupId ≠ groupId) :
    target ∈ disableUnlisted request groupId targets' := by
  obtain ⟨target', htgt', -, -, hsame⟩ := (saveTargets_ok _ _ h).kept target htgt
  rw [hsame hoth] at htgt'
  refine unmatched_mem htgt' ?_
  rw [Bool.and_eq_true, Bool.and_eq_true, decide_eq_true_iff]
  exact fun hdrpd => hoth hdrpd.1.1

theorem checkTransition_ok {current : CopyGroupRow}
    (h : checkTransition request current tables = .ok ()) (hlink : link ∈ tables.links)
    (hlive : link.lifecycleStatus.unfinished = true) (hid : link.groupId = current.id) :
    current.sourceAccountId = request.sourceAccountId ∧ (current.enabled = true → request.enabled = true) ∧
      link.targetAccountId ∈ request.enabledTargetIds := by
  have hmem := mem_activeLinkTargets hlink hlive
  rw [hid] at hmem
  obtain ⟨hreason, -⟩ := unit_bind_ok.mp h
  have hnone : copyGroupTransitionDrainReason current.sourceAccountId current.enabled
      request.sourceAccountId request.enabled request.enabledTargetIds
      (activeLinkTargets current.id tables) = none := by
    split at hreason
    · cases hreason
    · assumption
  unfold copyGroupTransitionDrainReason at hnone
  rw [if_neg (by rw [List.isEmpty_iff]; exact List.ne_nil_of_mem hmem)] at hnone
  split at hnone
  · cases hnone
  rename_i hsrc
  split at hnone
  · cases hnone
  rename_i hdisa
  split at hnone
  · cases hnone
  rename_i hlisted
  refine ⟨not_not.mp hsrc, fun hon => ?_, ?_⟩
  · rw [hon, Bool.true_and, Bool.not_eq_true', Bool.not_eq_false] at hdisa
    exact hdisa
  · rw [Bool.not_eq_true, any_eq_false] at hlisted
    have hin := hlisted _ hmem
    rw [Bool.not_eq_true, Bool.not_eq_false', contains_iff_mem] at hin
    exact hin

end Save

/-- A save is held to the unfinished links it reads, so each of them stays anchored. -/
theorem upsert_anchored {accounts : List AccountRow} {authorize : Except ApiError Unit}
    {newId : Uuid} {reported : String → String → Bool} {request : CopyGroupUpsert}
    (hids : (tables.groups.map (·.id)).Nodup)
    (h : upsertCopyGroup accounts authorize newId reported request tables = .ok tables') :
    tables'.links = tables.links ∧ ∀ link ∈ tables.links, link.lifecycleStatus.unfinished = true →
      Anchored tables link → Anchored tables' link := by
  obtain ⟨hval, h⟩ := unit_bind_ok.mp h
  obtain ⟨-, h⟩ := unit_bind_ok.mp h
  obtain ⟨-, h⟩ := unit_bind_ok.mp h
  obtain ⟨-, h⟩ := unit_bind_ok.mp h
  obtain ⟨hcheck, h⟩ := unit_bind_ok.mp h
  obtain ⟨saved, hsav, h⟩ := bind_ok.mp h
  obtain ⟨targets, htgts, h⟩ := bind_ok.mp h
  have hgroup := saveGroup_ok hids hsav
  rw [hgroup.targets] at htgts
  obtain ⟨hlinks, hgrps, hkept⟩ : tables'.links = saved.links ∧ tables'.groups = saved.groups ∧
      ∀ target ∈ disableUnlisted request (request.groupId.getD newId) targets,
        ∃ target' ∈ tables'.targets, target'.groupId = target.groupId ∧
          target'.accountId = target.accountId ∧ target'.enabled = target.enabled := by
    by_cases hon : request.enabled = true
    · rw [if_pos hon] at h
      cases h
      exact ⟨rfl, rfl, fun target htgt => ⟨target, htgt, rfl, rfl, rfl⟩⟩
    · rw [if_neg hon] at h
      cases h
      exact ⟨rfl, rfl, fun target htgt => exists_updateWhere htgt ⟨rfl, rfl, rfl⟩ fun _ => ⟨rfl, rfl, rfl⟩⟩
  refine ⟨hlinks.trans hgroup.links, fun link hlink hlive hanc => ?_⟩
  by_cases hown : link.groupId = request.groupId.getD newId
  · -- the saved group itself: the request was held to the link
    obtain ⟨group, hgrp, hid, hsrc, hon, -⟩ := hanc
    obtain ⟨hsome, group', hgrp', hid'⟩ := hgroup.found group hgrp (hid.trans hown)
    have hfnd : tables.groups.find? (·.id = request.groupId.getD newId) = some group := by
      rw [← hid.trans hown]
      exact Table.find?_key hids hgrp
    rw [hsome, if_pos rfl, hfnd] at hcheck
    obtain ⟨hreqd, henab, hlisted⟩ := checkTransition_ok hcheck hlink hlive hid.symm
    have hself := hgroup.self group' hgrp' hid'
    obtain ⟨target, htgt, htargetGroup, hacct, htargetOn⟩ :=
      savedTarget_enabled (validateRequest_ok hval).1 htgts hlisted
    obtain ⟨target', htgt', hgrp'', hacct', hon'⟩ := hkept target htgt
    rw [← hgrps] at hgrp'
    exact ⟨group', hgrp', hid'.trans hown.symm, hself.1.trans (hreqd.symm.trans hsrc), hself.2.trans (henab hon), target',
      htgt', hgrp''.trans (htargetGroup.trans hid'.symm), hacct'.trans hacct, hon'.trans htargetOn⟩
  -- a link of another group: neither its group nor its target is written
  · refine hanc.keep (fun group hgrp hid hon _ => ?_) fun target htgt htargetGroup _ hon => ?_
    · exact ⟨group, hgrps ▸ hgroup.kept group hgrp fun hself => hown (hid.symm.trans hself), rfl, rfl, hon⟩
    · obtain ⟨target', htgt', hgrp', hacct', hon'⟩ := hkept target
        (savedTarget_other htgts htgt fun hself => hown (htargetGroup.symm.trans hself))
      exact ⟨target', htgt', hgrp', hacct', hon'.trans hon⟩

/-! ## The copier's work -/

theorem Anchored.of_same {link' : LinkRow} (h : Anchored tables link)
    (hgrp : link'.groupId = link.groupId) (hsrc : link'.sourceAccountId = link.sourceAccountId)
    (htgt : link'.targetAccountId = link.targetAccountId) : Anchored tables link' := by
  unfold Anchored
  rw [hgrp, hsrc, htgt]
  exact h

/-- Every unfinished link of the later list continues an unfinished one. -/
def Continues (links links' : List LinkRow) : Prop :=
  ∀ link' ∈ links', link'.lifecycleStatus.unfinished = true → ∃ link ∈ links,
    link.lifecycleStatus.unfinished = true ∧ link.groupId = link'.groupId ∧
      link.sourceAccountId = link'.sourceAccountId ∧
      link.targetAccountId = link'.targetAccountId

theorem opensNoLink_iff : opensNoLink tables tables' = true ↔ Continues tables.links tables'.links := by
  unfold opensNoLink Continues
  rw [all_eq_true]
  refine forall₂_congr fun link' _ => ?_
  rw [Bool.or_eq_true, Bool.not_eq_true', ← Bool.not_eq_true, any_eq_true]
  simp only [Bool.and_eq_true, decide_eq_true_iff, and_assoc]
  exact Decidable.imp_iff_not_or.symm

theorem Continues.refl (links : List LinkRow) : Continues links links :=
  fun link' hlink' hlive' => ⟨link', hlink', hlive', rfl, rfl, rfl⟩

theorem Continues.trans {links links' links'' : List LinkRow} (h : Continues links links')
    (h' : Continues links' links'') : Continues links links'' := by
  intro link'' hlink'' hlive''
  obtain ⟨link', hlink', hlive', hgrp', hsrc', htgt'⟩ := h' link'' hlink'' hlive''
  obtain ⟨link, hlink, hlive, hgrp, hsrc, htgt⟩ := h link' hlink' hlive'
  exact ⟨link, hlink, hlive, hgrp.trans hgrp', hsrc.trans hsrc', htgt.trans htgt'⟩

theorem Continues.update {p : LinkRow → Bool} {f : LinkRow → LinkRow} (links : List LinkRow)
    (hgrp : ∀ link, (f link).groupId = link.groupId)
    (hsrc : ∀ link, (f link).sourceAccountId = link.sourceAccountId)
    (htgt : ∀ link, (f link).targetAccountId = link.targetAccountId)
    (hlive : ∀ link, p link = true → (f link).lifecycleStatus.unfinished = true → link.lifecycleStatus.unfinished = true) :
    Continues links (updateWhere p f links) := by
  intro link' hlink' hlive'
  rcases updateWhere_cases hlink' with ⟨hold, -⟩ | ⟨old, hold, hp, rfl⟩
  · exact ⟨link', hold, hlive', rfl, rfl, rfl⟩
  · exact ⟨old, hold, hlive old hp hlive', (hgrp old).symm, (hsrc old).symm, (htgt old).symm⟩

theorem work_anchored (hsett : settings tables' = settings tables)
    (hops : opensNoLink tables tables' = true) (hinv : LinksAnchored tables) :
    LinksAnchored tables' := by
  intro link' hlink' hlive'
  obtain ⟨link, hlink, hlive, hgrp, hsrc, htgt⟩ :=
    opensNoLink_iff.mp hops link' hlink' hlive'
  exact ((hinv link hlink hlive).grow (shrinks_of_settings hsett.symm)).of_same hgrp.symm hsrc.symm htgt.symm

theorem settings_update {p : CopyGroupRow → Bool} {f : CopyGroupRow → CopyGroupRow}
    {q : CopyTargetRow → Bool} {g : CopyTargetRow → CopyTargetRow}
    (hgrps : tables'.groups = updateWhere p f tables.groups)
    (htgts : tables'.targets = updateWhere q g tables.targets)
    (hf : ∀ group, { f group with runtimeStatus := .inactive } = ({ group with runtimeStatus := .inactive } : CopyGroupRow))
    (hg : ∀ target, { g target with runtimeStatus := .inactive } = ({ target with runtimeStatus := .inactive } : CopyTargetRow)) :
    settings tables' = settings tables := by
  unfold settings
  rw [hgrps, htgts, map_updateWhere hf, map_updateWhere hg]

section Work

variable {env : WorkEnv} {work : WorkRow}

theorem is_work (hsett : settings tables' = settings tables) (h : Continues tables.links tables'.links) :
    drainStep tables (.settings (.work tables')) = some tables' :=
  (if_pos (opensNoLink_iff.mpr h)).trans (if_pos hsett)

theorem publish_is_work {workId : Uuid} {targetCommandId : String} {change : PortfolioChange}
    (h : publishCopierOutbox env tables workId targetCommandId change = .ok tables') :
    drainStep tables (.settings (.work tables')) = some tables' := by
  obtain ⟨-, h⟩ := unit_bind_ok.mp h
  cases h
  refine is_work rfl ?_
  split
  · refine Continues.update _ (fun _ => rfl) (fun _ => rfl) (fun _ => rfl) fun link hmarked _ => ?_
    unfold marksClosing at hmarked
    rw [Bool.and_eq_true] at hmarked
    exact hmarked.2
  · exact Continues.refl _

/-- Superseding an item is work that opens no link. -/
theorem supersede_is_work {reason : String} (h : supersedeContinuousCopierWork env tables work reason = .ok tables') :
    drainStep tables (.settings (.work tables')) = some tables' := by
  obtain ⟨-, h⟩ := unit_bind_ok.mp h
  cases h
  exact is_work rfl (.update _ (fun _ => rfl) (fun _ => rfl) (fun _ => rfl)
    fun _ _ hcancelled => absurd hcancelled Bool.false_ne_true)

end Work

variable {links : List LinkRow}

section Staging

variable (env : StageEnv)

/-- A later stage has opened no link. -/
def NoneOpened (stage stage' : Stage) : Prop := Continues stage.tables.links stage'.tables.links

theorem staging_opens_none (sourceAccountId : String) (positions : List EaPositionSnapshot)
    (pendingOrders : List EaPendingOrderSnapshot) (events : List EaEvent)
    (portfolio : PortfolioTables) (stage : Stage) :
    let staged := stageContinuousCopyChanges env sourceAccountId positions pendingOrders events portfolio stage
    drainStep stage.tables (.settings (.work staged.tables)) = some staged.tables := by
  have hops := staging_related env (R := NoneOpened) (fun _ => Continues.refl _) (fun _ _ _ => Continues.trans)
    (fun _ _ _ _ => Continues.refl _) (fun stage groupId accountId change => ?_) (fun _ _ => Continues.refl _)
    sourceAccountId positions pendingOrders events portfolio stage
  · exact (if_pos (opensNoLink_iff.mpr hops)).trans (staging_is_work env sourceAccountId positions
      pendingOrders events portfolio stage)
  · unfold NoneOpened supersedeUnissued
    cases predecessorOperation change with
    | none => exact Continues.refl _
    | some =>
      exact Continues.update _ (fun _ => rfl) (fun _ => rfl) (fun _ => rfl)
        fun _ _ hcancelled => absurd hcancelled Bool.false_ne_true

end Staging

/-! ## Persisting a command -/

section Persisting

variable {env : WorkEnv} {work : WorkRow}

theorem sameLeg_iff {other : LinkRow} : link.sameLeg other = true ↔ link.groupId = other.groupId ∧
    link.targetAccountId = other.targetAccountId ∧ link.sourceEntityKind = other.sourceEntityKind ∧
    link.sourceEntityId = other.sourceEntityId ∧ link.targetLeg = other.targetLeg := by
  unfold LinkRow.sameLeg LinkRow.isLegOf
  simp only [Bool.and_eq_true, decide_eq_true_iff, and_assoc]

/-- What an order's link is made of. -/
theorem mem_upsertLink {new : LinkRow} (h : link ∈ upsertLink new links) :
    link ∈ links ∨ link = new ∨
      ∃ old ∈ links, old.sameLeg new = true ∧ link = reuseLink new old := by
  unfold upsertLink at h
  split at h
  · rcases updateWhere_cases h with ⟨hold, -⟩ | hreused
    · exact .inl hold
    · exact .inr (.inr hreused)
  · rcases mem_append.mp h with hold | hnew
    · exact .inl hold
    · exact .inr (.inl (mem_singleton.mp hnew))

theorem reuseLink_mem {new : LinkRow} (hlink : link ∈ links)
    (hsame : link.sameLeg new = true) : reuseLink new link ∈ upsertLink new links := by
  unfold upsertLink
  rw [if_pos (any_eq_true.mpr ⟨link, hlink, hsame⟩)]
  exact updated_mem hlink hsame

theorem reuseLink_unfinished (new link : LinkRow) : (reuseLink new link).lifecycleStatus.unfinished = true := by
  unfold reuseLink
  cases link.lifecycleStatus <;> rfl

theorem checked_anchored {group : CopyGroupRow} (hclmd : carriesOut tables work = true)
    (hgrp : tables.groups.find? (fun group => group.id = work.groupId && group.enabled) = some group)
    (hwork : (tables.work.any fun row => row.id = work.id && row.groupId = work.groupId
      && row.status = .leased && tables.targets.any fun target => target.groupId = row.groupId
        && target.accountId = row.targetAccountId && target.enabled) = true)
    (hid : link.groupId = work.groupId) (hacct : link.targetAccountId = work.targetAccountId)
    (hsrc : link.sourceAccountId = group.sourceAccountId) : Anchored tables link := by
  obtain ⟨row, hrow, hchecked⟩ := any_eq_true.mp hwork
  simp only [Bool.and_eq_true, decide_eq_true_iff, any_eq_true] at hchecked
  obtain ⟨⟨⟨hrowId, hrowGroup⟩, -⟩, target, htgt, ⟨htargetGroup, htargetAccount⟩, hon⟩ := hchecked
  have hnamed := all_eq_true.mp hclmd row hrow
  simp only [hrowId, Bool.or_eq_true, Bool.and_eq_true, decide_eq_true_iff, ne_eq, not_true_eq_false, false_or] at hnamed
  have hfnd := find?_some hgrp
  rw [Bool.and_eq_true, decide_eq_true_iff] at hfnd
  exact ⟨group, mem_of_find?_eq_some hgrp, hfnd.1.trans hid.symm, hsrc.symm, hfnd.2,
    target, htgt, htargetGroup.trans (hrowGroup.trans hfnd.1.symm),
    htargetAccount.trans (hnamed.2.trans hacct.symm), hon⟩

theorem persistPlace_anchored {order : RoutedOrder} (hids : (tables.groups.map (·.id)).Nodup)
    (hclmd : carriesOut tables work = true) (hinv : LinksAnchored tables)
    (h : persistCopierOutbox env tables work (.place order) = .ok tables') :
    LinksAnchored tables' ↔ reusesOwnSource tables (.persist env work (.place order)) := by
  obtain ⟨group, hgrp, hwork, rfl⟩ := persistCopierOutbox_ok h
  have hfnd := find?_some hgrp
  rw [Bool.and_eq_true, decide_eq_true_iff] at hfnd
  constructor
  · intro hkept group' hgrp' link hlink hsame
    cases hgrp.symm.trans hgrp'
    have hmem := reuseLink_mem hlink hsame
    obtain ⟨owner, howner, hid, hsrc, -⟩ := hkept _ hmem (reuseLink_unfinished _ link)
    -- ids are unique, so the group the row is under is the group of the order
    have hleg := (sameLeg_iff.mp hsame).1
    rw [inj_on_of_nodup_map hids howner (mem_of_find?_eq_some hgrp) (hid.trans (hleg.trans hfnd.1.symm))] at hsrc
    exact hsrc.symm
  · intro hreuse link hlink hlive
    have hanc : Anchored tables link := by
      rcases mem_upsertLink hlink with hold | rfl | ⟨old, hold, hsame, rfl⟩
      · exact hinv link hold hlive
      · exact checked_anchored hclmd hgrp hwork rfl rfl rfl
      · obtain ⟨hleg, hacct, -⟩ := sameLeg_iff.mp hsame
        exact checked_anchored hclmd hgrp hwork hleg hacct (hreuse group hgrp old hold hsame)
    exact hanc

theorem persistOther_anchored {command : EaCommand} (hoth : ∀ order, command ≠ .place order) (hinv : LinksAnchored tables)
    (h : persistCopierOutbox env tables work command = .ok tables') : LinksAnchored tables' := by
  obtain ⟨group, -, -, rfl⟩ := persistCopierOutbox_ok h
  have hcontinues : Continues tables.links (persistedLinks env tables work group command) := by
    unfold persistedLinks
    split
    · exact absurd rfl (hoth _)
    split
    · exact Continues.refl _
    · exact Continues.update _ (fun _ => rfl) (fun _ => rfl) (fun _ => rfl) fun _ _ hlive => hlive
  refine work_anchored (?_ : settings _ = settings tables) (opensNoLink_iff.mpr hcontinues) hinv
  rfl

theorem persist_anchored {command : EaCommand} (hids : (tables.groups.map (·.id)).Nodup)
    (hclmd : carriesOut tables work = true) (hinv : LinksAnchored tables)
    (h : persistCopierOutbox env tables work command = .ok tables') :
    LinksAnchored tables' ↔ reusesOwnSource tables (.persist env work command) := by
  cases command with
  | place => exact persistPlace_anchored hids hclmd hinv h
  | _ =>
    refine ⟨fun _ => trivial, fun _ => persistOther_anchored ?_ hinv h⟩
    intro order hpl
    cases hpl

/-- The copier persists whatever a leased item issues to close the link's target, unless a command
is in the outbox already, for the item or under its key. -/
def Closable (tables : CopyTables) (link : LinkRow) : Prop :=
  ∀ (env : WorkEnv) (work : WorkRow) (command : EaCommand),
    (work.operation = .closePosition ∨ work.operation = .cancelPending) →
    work ∈ tables.work → work.status = .leased → work.groupId = link.groupId →
    work.targetAccountId = link.targetAccountId →
    (∀ row ∈ tables.outbox, row.workItemId ≠ work.id ∧
      row.idempotencyKey ≠ (outboxRow env tables work command).idempotencyKey) →
    ∃ after, persistCopierOutbox env tables work command = .ok after

theorem Anchored.closable (hanc : Anchored tables link) : Closable tables link := by
  intro env work command hclose hrow hleas hgrp hacct hfree
  obtain ⟨group, hmem, hid, -, hon, target, htgt, hown, htargetAccount, htargetOn⟩ := hanc
  have hsome : (tables.groups.find? fun group => group.id = work.groupId && group.enabled).isSome := by
    rw [find?_isSome]
    refine ⟨group, hmem, ?_⟩
    rw [hon, decide_eq_true (hid.trans hgrp.symm)]
    rfl
  obtain ⟨found, hfnd⟩ := Option.isSome_iff_exists.mp hsome
  have hchecked : (tables.work.any fun row => row.id = work.id && row.groupId = work.groupId
      && row.status = .leased && tables.targets.any fun target => target.groupId = row.groupId
        && target.accountId = row.targetAccountId && target.enabled) = true := by
    simp only [any_eq_true, Bool.and_eq_true, decide_eq_true_iff]
    exact ⟨work, hrow, ⟨⟨rfl, rfl⟩, hleas⟩, target, htgt,
      ⟨hown.trans (hid.trans hgrp.symm), htargetAccount.trans hacct.symm⟩, htargetOn⟩
  unfold persistCopierOutbox
  rw [hfnd]
  have hpaused : copierOperationAllowedWhilePaused work.operation work.payload.phase = true := by
    rcases hclose with hop | hop <;> rw [hop] <;> rfl
  refine ⟨_, bind_ok.mpr ⟨found, rfl, unit_bind_ok.mpr ⟨refuseIf_ok.mpr ?_, unit_bind_ok.mpr
    ⟨refuseIf_ok.mpr ?_, unit_bind_ok.mpr ⟨refuseIf_ok.mpr ?_, unit_bind_ok.mpr ⟨refuseIf_ok.mpr ?_, rfl⟩⟩⟩⟩⟩⟩
  · rw [hpaused, Bool.not_true, Bool.and_false]
  · rw [hchecked]
    rfl
  · rw [any_eq_false]
    intro row hmem hclash
    rw [Bool.and_eq_true, decide_eq_true_iff, decide_eq_true_iff] at hclash
    exact (hfree row hmem).2 hclash.2
  · rw [any_eq_false]
    intro row hmem hclash
    rw [Bool.and_eq_true, decide_eq_true_iff, decide_eq_true_iff] at hclash
    exact (hfree row hmem).1 hclash.1

end Persisting

/-! ## Every run -/

/-- Groups keep their ids apart, and every unfinished link can be closed. -/
structure DrainInv (tables : CopyTables) : Prop where
  graph : GraphInv tables
  links : LinksAnchored tables

variable {action : DrainAction}

theorem action_is_settings (h : drainStep tables action = some tables') :
    (∃ settings, action = .settings settings ∧ settingsStep tables settings = some tables' ∧
      ∀ after, settings = .work after → opensNoLink tables after = true) ∨
    ∃ env work command, action = .persist env work command ∧ carriesOut tables work = true ∧
      persistCopierOutbox env tables work command = .ok tables' := by
  cases action with
  | settings action =>
    refine .inl ⟨action, rfl, ?_⟩
    cases action with
    | work =>
      rw [drainStep] at h
      split at h
      · rename_i hops
        exact ⟨h, fun _ hsame => by cases hsame; exact hops⟩
      · cases h
    | upsert | act | remove => exact ⟨h, fun _ => nofun⟩
  | persist env work command =>
    rw [drainStep] at h
    split at h
    · rename_i hclmd
      exact .inr ⟨env, work, command, rfl, hclmd, toOption_some h⟩
    · cases h

/-- Persisting a command leaves the groups and the targets alone. -/
theorem drainStep_graph (hinv : GraphInv tables) (h : drainStep tables action = some tables') : GraphInv tables' := by
  rcases action_is_settings h with ⟨settings, -, hstep, -⟩ | ⟨env, work, command, -, -, hstep⟩
  · exact settingsStep_keeps settings hinv hstep
  · obtain ⟨group, -, -, rfl⟩ := persistCopierOutbox_ok hstep
    exact hinv.shrink (.of_eq rfl rfl)

/-- A save keeps the links as they are, and what each unfinished one needs. -/
theorem save_anchored {action : SettingsAction} (hids : (tables.groups.map (·.id)).Nodup) (hsave : ∀ after, action ≠ .work after)
    (h : settingsStep tables action = some tables') :
    tables'.links = tables.links ∧ ∀ link ∈ tables.links, link.lifecycleStatus.unfinished = true →
      Anchored tables link → Anchored tables' link := by
  cases action with
  | upsert =>
    rw [settingsStep] at h
    exact upsert_anchored hids (toOption_some h)
  | act =>
    have hact := toOption_some h
    exact ⟨action_links hact, fun _ hlink hlive hanc => action_anchored hact hlink hlive hanc⟩
  | remove =>
    rw [settingsStep] at h
    split at h
    · cases h
    rename_i hblocked
    cases h
    exact ⟨rfl, fun _ hlink hlive hanc => remove_anchored (Bool.eq_false_of_not_eq_true hblocked) hlink hlive hanc⟩
  | work after => exact absurd rfl (hsave after)

theorem settingsStep_anchored {action : SettingsAction} (hinv : DrainInv tables)
    (hops : ∀ after, action = .work after → opensNoLink tables after = true)
    (h : settingsStep tables action = some tables') : LinksAnchored tables' := by
  by_cases hsave : ∀ after, action ≠ .work after
  · obtain ⟨hlinks, hkept⟩ := save_anchored hinv.graph.ids hsave h
    intro link hlink hlive
    rw [hlinks] at hlink
    exact hkept link hlink hlive (hinv.links link hlink hlive)
  · simp only [not_forall, not_not] at hsave
    obtain ⟨after, rfl⟩ := hsave
    rw [settingsStep] at h
    split at h
    · rename_i hsame
      cases h
      exact work_anchored hsame (hops _ rfl) hinv.links
    · cases h

/-- From a state of the invariant, a step leaves every link anchored exactly when an order that
takes over a row finds it under the group's own source. -/
theorem drainStep_anchored (hinv : DrainInv tables) (h : drainStep tables action = some tables') :
    LinksAnchored tables' ↔ reusesOwnSource tables action := by
  rcases action_is_settings h with ⟨settings, rfl, hstep, hops⟩ |
    ⟨env, work, command, rfl, hclmd, hstep⟩
  · exact ⟨fun _ => trivial, fun _ => settingsStep_anchored hinv hops hstep⟩
  · exact persist_anchored hinv.graph.ids hclmd hinv.links hstep

theorem drainInv_reachable (h : Reaches drainStep reusesOwnSource CopyTables.empty tables) : DrainInv tables := by
  refine h.invariant DrainInv ⟨graphInv_empty, ?_⟩ fun _ _ _ hinv hok hstep => ?_
  · exact forall_mem_nil _
  · exact ⟨drainStep_graph hinv.graph hstep, (drainStep_anchored hinv hstep).mpr hok⟩

/-! ## The transactions themselves -/

/-- `correlate` again, for one link. `unseen` are the links that have not had this trade transaction yet. -/
def correlatedLink (accountId : String) (commands : List TargetCommandRow) (outbox : List OutboxRow)
    (orderId positionId : String) (unseen : LinkRow → Bool) (now : Time) (link : LinkRow) : LinkRow :=
  if openedBy accountId commands outbox orderId link && unseen link then
    (bindPosition now positionId "" { link with lastTargetEventId := none }).toLinkRow
  else link

/-- The row at an index, as the adoption of a fill leaves it that has read the link in `picture`. -/
def adoptedLink (env : WorkEnv) (work : WorkRow) (picture : CopyTables) (candidate : LinkRow → Option String)
    (links : List LinkRow) (index : Nat) (link : LinkRow) : LinkRow :=
  match work.payload.change with
  | .pendingFilled previous position => match fillLink picture work previous with
    | some seen =>
      if picture.links[index]? = some seen then adoptLink env previous position ((candidate seen).getD "") links link
      else link
    | none => link
  | _ => link

/-- A transaction of the gateway on the copier's tables. A save reads the links in a statement of its own, and so
do the adoption of a fill and the reconciliation pass; what they write may find the links changed. -/
inductive CopierTransaction where
  | save (action : SettingsAction) (seen : List LinkRow)
  | stage (env : StageEnv) (drawn : Nat) (sourceAccountId : String) (positions : List EaPositionSnapshot)
      (pendingOrders : List EaPendingOrderSnapshot) (events : List EaEvent) (portfolio : PortfolioTables)
  | claim (workerId : Uuid) (now : Time) (locked : List Uuid)
  | complete (work : WorkRow)
  | supersede (env : WorkEnv) (work : WorkRow) (reason : String)
  | reconcile (env : WorkEnv) (work : WorkRow) (picture : CopyTables) (candidate : LinkRow → Option String)
  | fail (env : WorkEnv) (work : WorkRow) (attemptCount : Nat) (failure : CopierWorkError)
  | persist (env : WorkEnv) (work : WorkRow) (command : EaCommand)
  | publish (env : WorkEnv) (workId : Uuid) (targetCommandId : String) (change : PortfolioChange)
  | acknowledge (report : Commands.Report) (brokerPositionId : Option String) (now : Time)
  | correlate (accountId : String) (commands : List TargetCommandRow) (orderId positionId : String)
      (unseen : LinkRow → Bool) (now : Time)
  | pass (env : StageEnv) (drawn : Nat) (picture : CopyTables) (portfolio : PortfolioTables) (groupId : Uuid)
  /-- One that writes neither a link nor a setting. -/
  | other (after : CopyTables)

/-- What a transaction commits; one that fails is rolled back. -/
def transact (tables : CopyTables) : CopierTransaction → Option CopyTables
  | .save (.work _) _ => none
  | .save action seen =>
    (settingsStep { tables with links := seen } action).map fun after => { after with links := tables.links }
  | .stage env drawn sourceAccountId positions pendingOrders events portfolio => some
      (stageContinuousCopyChanges env sourceAccountId positions pendingOrders events portfolio ⟨tables, drawn⟩).tables
  | .claim workerId now locked => some (claimCopierWork tables workerId now locked)
  | .complete work => some (completeContinuousCopierWork tables work)
  | .supersede env work reason => (supersedeContinuousCopierWork env tables work reason).toOption
  | .reconcile env work picture candidate =>
    (reconcileContinuousCopyTarget env picture work candidate).toOption.map fun _ => completeContinuousCopierWork
      { tables with links := tables.links.mapIdx (adoptedLink env work picture candidate tables.links) } work
  | .fail env work attemptCount failure => some (failContinuousCopierWork env tables work attemptCount failure)
  | .persist env work command =>
    if carriesOut tables work then (persistCopierOutbox env tables work command).toOption else none
  | .publish env workId targetCommandId change => (publishCopierOutbox env tables workId targetCommandId change).toOption
  | .acknowledge report brokerPositionId now => (acknowledgeCopier report brokerPositionId now tables).toOption
  | .correlate accountId commands orderId positionId unseen now => some
      { tables with links := tables.links.map (correlatedLink accountId commands tables.outbox orderId positionId unseen now) }
  | .pass env drawn picture portfolio groupId =>
    some (reconcileContinuousCopyGroup picture portfolio groupId env ⟨tables, drawn⟩).tables
  | .other after => if settings after = settings tables ∧ after.links = tables.links then some after else none

/-- What a transaction makes of the row at an index, if it writes rows one by one. -/
def rewrite (tables : CopyTables) : CopierTransaction → Nat → LinkRow → LinkRow
  | .acknowledge report brokerPositionId now, _ =>
    reportedLink report brokerPositionId
      (updateWhere (·.targetCommandId = some report.commandId) (acknowledgeOutbox report) tables.outbox) now
  | .correlate accountId commands orderId positionId unseen now, _ =>
    correlatedLink accountId commands tables.outbox orderId positionId unseen now
  | .reconcile env work picture candidate, index => adoptedLink env work picture candidate tables.links index
  | .pass env _ picture portfolio groupId, index => reconciledLink picture portfolio groupId env index
  | _, _ => id

/-- Each closed or cancelled link that the transaction brings back meets `P`. -/
def RevivesOnly (P : LinkRow → Prop) (tables : CopyTables) (transaction : CopierTransaction) : Prop :=
  ∀ index link, tables.links[index]? = some link → link.lifecycleStatus.unfinished = false →
    (rewrite tables transaction index link).lifecycleStatus.unfinished = true → P link

/-- An order takes over rows of the group's own source only; no report comes to a link that is closed or cancelled;
and what was read in a statement of its own has not been overtaken. -/
def keepsLinks (tables : CopyTables) : CopierTransaction → Prop
  | .save _ seen => seen = tables.links
  | .persist env work command => reusesOwnSource tables (.persist env work command)
  | .acknowledge report _ _ =>
    ∀ link ∈ tables.links, remembers report.commandId link = true → link.lifecycleStatus.unfinished = true
  | transaction => RevivesOnly (fun _ => False) tables transaction

/-- An order takes over rows of the group's own source only; every link that is unfinished was so when a save read the
links; and a closed or cancelled link is brought back only while its group and its target are in place. -/
def keepsAnchored (tables : CopyTables) : CopierTransaction → Prop
  | .save _ seen => Continues seen tables.links
  | .persist env work command => reusesOwnSource tables (.persist env work command)
  | transaction => RevivesOnly (Anchored tables) tables transaction

/-! ### Rewriting links -/

/-- The later tables have the same settings, and their links are the old ones, rewritten in place. -/
structure Rewrites (write : Nat → LinkRow → LinkRow) (tables tables' : CopyTables) : Prop where
  settings : settings tables' = settings tables
  links : tables'.links = tables.links.mapIdx write
  group : ∀ index link, (write index link).groupId = link.groupId
  source : ∀ index link, (write index link).sourceAccountId = link.sourceAccountId
  target : ∀ index link, (write index link).targetAccountId = link.targetAccountId

section Rewriting

variable {transaction : CopierTransaction}

theorem mem_rewritten {write : Nat → LinkRow → LinkRow} (h : Rewrites write tables tables') :
    link ∈ tables'.links ↔ ∃ index old, tables.links[index]? = some old ∧ write index old = link := by
  simp only [h.links, mem_iff_getElem?, getElem?_mapIdx, Option.map_eq_some_iff]

/-- **Where links are rewritten in place**, all stay anchored exactly when those that are brought back are. -/
theorem Rewrites.anchored (h : Rewrites (rewrite tables transaction) tables tables') (hinv : LinksAnchored tables) :
    LinksAnchored tables' ↔ RevivesOnly (Anchored tables) tables transaction := by
  constructor
  · intro hkept index link hlink _ hlive
    have hanc := hkept _ ((mem_rewritten h).mpr ⟨index, link, hlink, rfl⟩) hlive
    exact (hanc.grow (shrinks_of_settings h.settings)).of_same (h.group index link).symm
      (h.source index link).symm (h.target index link).symm
  · intro hrev link' hlink' hlive
    obtain ⟨index, link, hlink, rfl⟩ := (mem_rewritten h).mp hlink'
    have hanc : Anchored tables link := by
      by_cases hold : link.lifecycleStatus.unfinished = true
      · exact hinv link (mem_of_getElem? hlink) hold
      · exact hrev index link hlink (Bool.eq_false_of_not_eq_true hold) hlive
    exact (hanc.grow (shrinks_of_settings h.settings.symm)).of_same (h.group index link) (h.source index link)
      (h.target index link)

/-- A transaction that brings no link back is work that opens none. -/
theorem Rewrites.is_work (h : Rewrites (rewrite tables transaction) tables tables')
    (hnone : RevivesOnly (fun _ => False) tables transaction) :
    drainStep tables (.settings (.work tables')) = some tables' := by
  refine MarketLens.Copier.is_work h.settings fun link' hlink' hlive => ?_
  obtain ⟨index, link, hlink, rfl⟩ := (mem_rewritten h).mp hlink'
  refine ⟨link, mem_of_getElem? hlink, ?_, (h.group index link).symm, (h.source index link).symm, (h.target index link).symm⟩
  by_contra hold
  exact hnone index link hlink (Bool.eq_false_of_not_eq_true hold) hlive

/-- The repairs of a pass are staged in the inbox and the work items. -/
theorem reconcileContinuousCopyGroup_rewrites {env : StageEnv} {drawn : Nat} {picture : CopyTables}
    {portfolio : PortfolioTables} {groupId : Uuid} :
    Rewrites (reconciledLink picture portfolio groupId env) tables
      (reconcileContinuousCopyGroup picture portfolio groupId env ⟨tables, drawn⟩).tables := by
  have hstaged : ∀ (seen : List LinkRow) (stage : Stage),
      let staged := (seen.foldl (stageRepair picture portfolio groupId env) stage).tables
      staged.groups = stage.tables.groups ∧ staged.targets = stage.tables.targets ∧ staged.links = stage.tables.links := by
    intro seen stage
    refine foldl_related (R := fun before after : Stage => after.tables.groups = before.tables.groups ∧
      after.tables.targets = before.tables.targets ∧ after.tables.links = before.tables.links)
      (fun _ => ⟨rfl, rfl, rfl⟩) (fun _ _ _ h h' => ⟨h'.1.trans h.1, h'.2.1.trans h.2.1, h'.2.2.trans h.2.2⟩)
      (fun stage link => ?_) seen stage
    unfold stageRepair stageGeneratedCopierWork
    dsimp only
    repeat' split
    all_goals exact ⟨rfl, rfl, rfl⟩
  obtain ⟨hgrps, htgts, hlinks⟩ := hstaged
    (picture.links.insertionSort fun first second => readBefore first second) ⟨tables, drawn⟩
  have hkeeps : ∀ index (link : LinkRow), ∃ status revision now, reconciledLink picture portfolio groupId env index link =
      { link with lifecycleStatus := status, revision := revision, updatedAt := now } := by
    intro index link
    unfold reconciledLink
    repeat' split
    all_goals exact ⟨_, _, _, rfl⟩
  refine ⟨settings_update (congrArg _ hgrps) (congrArg _ htgts) (fun _ => rfl) fun _ => rfl, congrArg (mapIdx _) hlinks, ?_, ?_, ?_⟩
  all_goals
    intro index link
    obtain ⟨status, revision, now, hrow⟩ := hkeeps index link
    rw [hrow]

theorem map_eq_mapIdx (write : LinkRow → LinkRow) (links : List LinkRow) : links.map write = links.mapIdx fun _ => write :=
  ext_getElem? fun index => by simp

theorem reportedLink_same (report : Commands.Report) (brokerPositionId : Option String) (outbox : List OutboxRow)
    (now : Time) (link : LinkRow) :
    (reportedLink report brokerPositionId outbox now link).groupId = link.groupId ∧
      (reportedLink report brokerPositionId outbox now link).sourceAccountId = link.sourceAccountId ∧
      (reportedLink report brokerPositionId outbox now link).targetAccountId = link.targetAccountId := by
  unfold reportedLink
  split <;> exact ⟨rfl, rfl, rfl⟩

end Rewriting

/-! ### One transaction -/

/-- The transactions that write links row by row, or not at all. -/
def CopierTransaction.rewritesLinks : CopierTransaction → Bool
  | .save .. | .stage .. | .supersede .. | .persist .. | .publish .. => false
  | _ => true

section Transaction

variable {transaction : CopierTransaction}

theorem rewrites_none (hsett : settings tables' = settings tables) (hlinks : tables'.links = tables.links) :
    Rewrites (fun _ => id) tables tables' :=
  ⟨hsett, by rw [hlinks, ← map_eq_mapIdx, map_id], fun _ _ => rfl, fun _ _ => rfl, fun _ _ => rfl⟩

theorem fail_rewrites (env : WorkEnv) (work : WorkRow) (attemptCount : Nat) (failure : CopierWorkError) :
    Rewrites (fun _ => id) tables (failContinuousCopierWork env tables work attemptCount failure) := by
  unfold failContinuousCopierWork
  split
  · exact rewrites_none (settings_update rfl rfl (fun _ => rfl) fun _ => rfl) rfl
  · exact rewrites_none rfl rfl

theorem transact_rewrites (hrewrites : transaction.rewritesLinks = true) (h : transact tables transaction = some tables') :
    Rewrites (rewrite tables transaction) tables tables' := by
  cases transaction with
  | save | stage | supersede | persist | publish => cases hrewrites
  | claim | complete =>
    cases h
    exact rewrites_none rfl rfl
  | fail env work attemptCount failure =>
    cases h
    exact fail_rewrites env work attemptCount failure
  | other =>
    simp only [transact] at h
    split at h
    · rename_i hsame
      cases h
      exact rewrites_none hsame.1 hsame.2
    · cases h
  | acknowledge report brokerPositionId now =>
    obtain ⟨-, h⟩ := unit_bind_ok.mp (toOption_some h)
    cases h
    have hsame := reportedLink_same report brokerPositionId
      (updateWhere (·.targetCommandId = some report.commandId) (acknowledgeOutbox report) tables.outbox) now
    exact ⟨rfl, map_eq_mapIdx _ _, fun _ link => (hsame link).1, fun _ link => (hsame link).2.1, fun _ link => (hsame link).2.2⟩
  | correlate =>
    cases h
    refine ⟨rfl, map_eq_mapIdx _ _, ?_, ?_, ?_⟩
    all_goals
      intro _ link
      simp only [rewrite, correlatedLink]
      split <;> rfl
  | reconcile env work picture candidate =>
    obtain ⟨_, -, rfl⟩ := Option.map_eq_some_iff.mp h
    refine ⟨rfl, rfl, ?_, ?_, ?_⟩
    all_goals
      intro _ link
      simp only [rewrite, adoptedLink]
      repeat' split
      all_goals rfl
  | pass =>
    cases h
    exact reconcileContinuousCopyGroup_rewrites

theorem transact_save {action : SettingsAction} {seen : List LinkRow} (h : transact tables (.save action seen) = some tables') :
    (∀ after, action ≠ .work after) ∧ ∃ after, settingsStep { tables with links := seen } action = some after ∧
      tables' = { after with links := tables.links } := by
  cases action with
  | work => cases h
  | upsert | act | remove =>
    refine ⟨fun _ hwork => (by cases hwork), ?_⟩
    rw [transact] at h
    · obtain ⟨after, hstep, rfl⟩ := Option.map_eq_some_iff.mp h
      exact ⟨after, hstep, rfl⟩
    · intro _ hwork
      cases hwork

/-- Staging, superseding and publishing are work that opens no link. -/
theorem work_drains {transaction : CopierTransaction} (hwork : transaction.rewritesLinks = false)
    (hsave : ∀ action seen, transaction ≠ .save action seen) (hpersist : ∀ env work command, transaction ≠ .persist env work command)
    (h : transact tables transaction = some tables') : drainStep tables (.settings (.work tables')) = some tables' := by
  cases transaction with
  | save action seen => exact absurd rfl (hsave action seen)
  | persist env work command => exact absurd rfl (hpersist env work command)
  | stage env drawn sourceAccountId positions pendingOrders events portfolio =>
    cases h
    exact staging_opens_none env sourceAccountId positions pendingOrders events portfolio ⟨tables, drawn⟩
  | supersede => exact supersede_is_work (toOption_some h)
  | publish => exact publish_is_work (toOption_some h)
  | _ => cases hwork

theorem RevivesOnly.mono {P Q : LinkRow → Prop} (himp : ∀ link, P link → Q link) (h : RevivesOnly P tables transaction) :
    RevivesOnly Q tables transaction :=
  fun index link hlink hfin hlive => himp link (h index link hlink hfin hlive)

/-- A report that comes to unfinished links only brings none back. -/
theorem revives_none_of_report {report : Commands.Report} {brokerPositionId : Option String} {now : Time}
    (hopen : ∀ link ∈ tables.links, remembers report.commandId link = true → link.lifecycleStatus.unfinished = true) :
    RevivesOnly (fun _ => False) tables (.acknowledge report brokerPositionId now) := by
  intro index link hlink hfin hlive
  refine absurd ?_ (Bool.eq_false_iff.mp hfin)
  simp only [rewrite, reportedLink] at hlive
  split at hlive
  · rename_i row hrow
    have hremembers := find?_some hrow
    rw [Bool.and_eq_true] at hremembers
    exact hopen link (mem_of_getElem? hlink) hremembers.2
  · exact hlive

end Transaction

/-! ### Every run of them -/

/-- From a state of the invariant, a transaction leaves every link anchored if it meets the condition, and, saves apart,
only then. -/
theorem transact_anchored {transaction : CopierTransaction} (hinv : DrainInv tables) (h : transact tables transaction = some tables') :
    (keepsAnchored tables transaction → DrainInv tables') ∧
      ((∀ action seen, transaction ≠ .save action seen) → LinksAnchored tables' → keepsAnchored tables transaction) := by
  have hdrained : ∀ action, drainStep tables action = some tables' →
      (reusesOwnSource tables action → DrainInv tables') ∧ (LinksAnchored tables' → reusesOwnSource tables action) :=
    fun _ hdrain => ⟨fun hok => ⟨drainStep_graph hinv.graph hdrain, (drainStep_anchored hinv hdrain).mpr hok⟩,
      (drainStep_anchored hinv hdrain).mp⟩
  cases transaction with
  | save action seen =>
    refine ⟨fun hok => ?_, fun hnot => absurd rfl (hnot action seen)⟩
    obtain ⟨hsave, after, hstep, rfl⟩ := transact_save h
    have hgraph : GraphInv { tables with links := seen } := hinv.graph.shrink (.of_eq rfl rfl)
    refine ⟨(settingsStep_keeps action hgraph hstep).shrink (.of_eq rfl rfl), fun link hlink hlive => ?_⟩
    -- the save judged an unfinished link of the same group and accounts
    obtain ⟨old, hold, holdLive, hgrp, hsrc, htgt⟩ := hok link hlink hlive
    have hanc : Anchored tables old := (hinv.links link hlink hlive).of_same hgrp hsrc htgt
    have hkept : Anchored after old := (save_anchored hgraph.ids hsave hstep).2 old hold holdLive hanc
    exact hkept.of_same hgrp.symm hsrc.symm htgt.symm
  | persist env work command =>
    obtain ⟨hforth, hback⟩ := hdrained (.persist env work command) h
    exact ⟨hforth, fun _ => hback⟩
  | stage | supersede | publish =>
    have hdrain := work_drains rfl (fun _ _ hsave => by cases hsave) (fun _ _ _ hpersist => by cases hpersist) h
    refine ⟨fun _ => (hdrained _ hdrain).1 trivial, fun _ _ _ _ _ hfin hlive => ?_⟩
    exact absurd (hfin.symm.trans hlive) Bool.false_ne_true
  | claim | complete | reconcile | fail | acknowledge | correlate | pass | other =>
    have hrewrites := transact_rewrites rfl h
    exact ⟨fun hok => ⟨hinv.graph.shrink (shrinks_of_settings hrewrites.settings), (hrewrites.anchored hinv.links).mpr hok⟩,
      fun _ => (hrewrites.anchored hinv.links).mp⟩

/-- **Every unfinished link can be closed under its group**, in every state of a run whose transactions meet the
condition; and a transaction that does not meet it leaves a link that cannot, saves apart. -/
theorem links_stay_anchored (h : Reaches transact keepsAnchored CopyTables.empty tables) : LinksAnchored tables ∧
    (∀ link ∈ tables.links, link.lifecycleStatus.unfinished = true → Closable tables link) ∧
    ∀ transaction tables', transact tables transaction = some tables' →
      (keepsAnchored tables transaction → LinksAnchored tables') ∧
      ((∀ action seen, transaction ≠ .save action seen) → LinksAnchored tables' → keepsAnchored tables transaction) := by
  have hinv : DrainInv tables := by
    refine h.invariant DrainInv ⟨graphInv_empty, ?_⟩ fun _ _ _ hinv hok hstep => (transact_anchored hinv hstep).1 hok
    exact forall_mem_nil _
  refine ⟨hinv.links, fun link hlink hlive => (hinv.links link hlink hlive).closable, fun _ _ hstep => ?_⟩
  obtain ⟨hforth, hback⟩ := transact_anchored hinv hstep
  exact ⟨fun hok => (hforth hok).links, hback⟩

/-- One step of the drain that keeps every link anchored. -/
def Drains (tables tables' : CopyTables) : Prop :=
  ∃ action, reusesOwnSource tables action ∧ drainStep tables action = some tables'

theorem transact_drains {transaction : CopierTransaction} (hids : (tables.groups.map (·.id)).Nodup)
    (hok : keepsLinks tables transaction) (h : transact tables transaction = some tables') : Drains tables tables' := by
  have hwork : drainStep tables (.settings (.work tables')) = some tables' → Drains tables tables' :=
    fun hdrain => ⟨.settings (.work tables'), trivial, hdrain⟩
  cases transaction with
  | save action seen =>
    obtain rfl : seen = tables.links := hok
    obtain ⟨hsave, after, hstep, rfl⟩ := transact_save h
    refine ⟨.settings action, ?_, ?_⟩
    · cases action <;> trivial
    have hsame : { after with links := tables.links } = after := by
      rw [← (save_anchored hids hsave hstep).1]
    rw [hsame]
    cases action with
    | work after => exact absurd rfl (hsave after)
    | _ => exact hstep
  | persist env work command => exact ⟨.persist env work command, hok, h⟩
  | stage | supersede | publish =>
    exact hwork (work_drains rfl (fun _ _ hsave => by cases hsave) (fun _ _ _ hpersist => by cases hpersist) h)
  | acknowledge => exact hwork ((transact_rewrites rfl h).is_work (revives_none_of_report hok))
  | claim | complete | reconcile | fail | correlate | pass | other => exact hwork ((transact_rewrites rfl h).is_work hok)

/-- **The copier's transactions refine the drain**: in whatever order they commit, the run is one of `drainStep`, no
account is copied from and to, and every unfinished link can be closed under its group. -/
theorem transactions_refine_drain (h : Reaches transact keepsLinks CopyTables.empty tables) :
    Reaches drainStep reusesOwnSource CopyTables.empty tables ∧
    (∀ account, ¬ (Chain.Starts (Copies tables) account ∧ Chain.Ends (Copies tables) account)) ∧
    ∀ link ∈ tables.links, link.lifecycleStatus.unfinished = true → Closable tables link := by
  obtain ⟨_, hrun, rfl⟩ := h.simulated Eq rfl fun t _ _ _ hrun heq hok hstep => by
    subst heq
    obtain ⟨action, hreuses, hdrain⟩ := transact_drains (drainInv_reachable hrun).graph.ids hok hstep
    exact ⟨action, _, hreuses, hdrain, rfl⟩
  have hinv := drainInv_reachable hrun
  exact ⟨hrun, Chain.chainless_iff.mp hinv.graph.chainless, fun link hlink hlive => (hinv.links link hlink hlive).closable⟩

/-! ### A group that moves to another source -/

/-- The item that copies the opening of position 11 from this source. -/
def openingWork (id : Uuid) (source : String) : WorkRow :=
  ⟨id, 1, "b", 5, .openMarket, "cpw:" ++ uuidText id,
    ⟨.positionOpened sourcePosition, some source, {}, legacyCopyTargetConfig, none, none⟩, .leased,
    1, 1000, some ⟨9, 31000⟩, none, 1000⟩

def openingOrder (id : Uuid) : EaCommand :=
  .place ⟨"cp", "cp:" ++ uuidText id, "cpc:" ++ uuidText id, "b", "demo", .metaTrader5, "EURUSD",
    "EURUSD", .buy, .market, 1, .lots, none, none, none, none, none, []⟩

/-- Position 11 of a is staged for b, and its order is persisted. -/
def startedCopy : List CopierTransaction :=
  [.save (.upsert graphAccounts (.ok ()) 1 (fun _ _ => true) (singleTarget "a" "b" true)) [],
    .stage (stageAt 1000) 0 "a" [sourcePosition] [] [] ⟨[], []⟩, .claim 9 1000 [],
    .persist copyEnv (openingWork 101 "a") (openingOrder 101)]

/-- The order is published, and the report on it comes in. -/
def reportedCopy : List CopierTransaction :=
  startedCopy ++ [.publish { copyEnv with issuedCommands := ["cp:101"] } 101 "cp:101" (.positionOpened sourcePosition),
    .acknowledge ⟨"cp:101", .accepted, none, none⟩ (some "77") 2000]

/-- The order is superseded before it is issued. -/
def supersededCopy : List CopierTransaction :=
  startedCopy ++ [.supersede copyEnv (openingWork 101 "a") "risk-increasing copier work exceeded staleAfterMs"]

/-- The group moves to c, and position 11 of c is copied. -/
def movedSource : List CopierTransaction :=
  [.save (.upsert graphAccounts (.ok ()) 2 (fun _ _ => true)
      { singleTarget "c" "b" true with
        groupId := some 1
        expectedRevision := some 1
        targets := [⟨"b", true, legacyCopyTargetConfig, some 1⟩] })
      ((exec transact (fun _ _ => true) CopyTables.empty supersededCopy).getD CopyTables.empty).links,
    .stage (stageAt 2000) 2 "c" [sourcePosition] [] [] ⟨[], []⟩, .claim 9 2000 [],
    .persist copyEnv (openingWork 103 "c") (openingOrder 103)]

/-- No order meets a row, no report a link that is over, and a save sees the links as they are, as a test. -/
def meetsOpenLinks (tables : CopyTables) : CopierTransaction → Bool
  | .save _ seen => seen = tables.links
  | .persist .. => tables.links.isEmpty
  | .acknowledge .. => tables.links.all (·.lifecycleStatus.unfinished)
  | .reconcile .. | .pass .. | .correlate .. => false
  | _ => true

theorem meetsOpenLinks_keeps {transaction : CopierTransaction} (h : meetsOpenLinks tables transaction = true) :
    keepsLinks tables transaction ∧ keepsAnchored tables transaction := by
  have hrevives : ∀ {P : LinkRow → Prop}, rewrite tables transaction = (fun _ => id) → RevivesOnly P tables transaction := by
    intro P hsame index link _ hfin hlive
    rw [hsame] at hlive
    exact absurd (hfin.symm.trans hlive) Bool.false_ne_true
  cases transaction with
  | save action seen =>
    obtain rfl : seen = tables.links := of_decide_eq_true h
    exact ⟨rfl, .refl _⟩
  | persist env work command =>
    have hreuses : reusesOwnSource tables (.persist env work command) := by
      cases command with
      | place =>
        intro group _ link hlink
        rw [isEmpty_iff.mp h] at hlink
        exact absurd hlink not_mem_nil
      | _ => trivial
    exact ⟨hreuses, hreuses⟩
  | acknowledge report =>
    have hopen : ∀ link ∈ tables.links, remembers report.commandId link = true → link.lifecycleStatus.unfinished = true :=
      fun link hlink _ => all_eq_true.mp h link hlink
    exact ⟨hopen, (revives_none_of_report hopen).mono fun _ hfalse => hfalse.elim⟩
  | reconcile | pass | correlate => cases h
  | _ => exact ⟨hrevives rfl, hrevives rfl⟩

theorem reportedCopy_runs : ∃ tables, exec transact meetsOpenLinks CopyTables.empty reportedCopy = some tables ∧
    ∃ link ∈ tables.links, link.lifecycleStatus = .active := by decide +kernel

/-- Once the report is in, the copier can close what it has opened. -/
theorem links_stay_anchored_reported : ∃ tables, Reaches transact keepsAnchored CopyTables.empty tables ∧
    LinksAnchored tables ∧ ∃ link ∈ tables.links, link.lifecycleStatus = .active ∧ Closable tables link := by
  obtain ⟨tables, hexec, link, hlink, hact⟩ := reportedCopy_runs
  have hrch : Reaches transact keepsAnchored CopyTables.empty tables :=
    reaches_of_exec (fun _ _ hmeets => (meetsOpenLinks_keeps hmeets).2) hexec
  obtain ⟨hanc, hclosable, -⟩ := links_stay_anchored hrch
  exact ⟨tables, hrch, hanc, link, hlink, hact, hclosable link hlink (by rw [hact]; rfl)⟩

theorem transactions_refine_drain_reported : ∃ tables, Reaches transact keepsLinks CopyTables.empty tables ∧
    ∃ link ∈ tables.links, link.lifecycleStatus = .active ∧ Closable tables link := by
  obtain ⟨tables, hexec, link, hlink, hact⟩ := reportedCopy_runs
  have hrch : Reaches transact keepsLinks CopyTables.empty tables :=
    reaches_of_exec (fun _ _ hmeets => (meetsOpenLinks_keeps hmeets).1) hexec
  exact ⟨tables, hrch, link, hlink, hact, (transactions_refine_drain hrch).2.2 link hlink (by rw [hact]; rfl)⟩

/-- The link of c's position carries a as its source, and no group copies from a any more. -/
theorem moved_source_strands : ∃ tables, Reaches transact always CopyTables.empty tables ∧ ¬ LinksAnchored tables := by
  have hexec : ((exec transact (fun _ _ => true) CopyTables.empty (supersededCopy ++ movedSource)).map
      fun tables => tables.links.any fun link => link.lifecycleStatus.unfinished
        && tables.groups.all fun group => group.sourceAccountId ≠ link.sourceAccountId)
      = some true := by decide +kernel
  obtain ⟨tables, hexec, htest⟩ := Option.map_eq_some_iff.mp hexec
  obtain ⟨link, hlink, hstranded⟩ := any_eq_true.mp htest
  rw [Bool.and_eq_true, all_eq_true] at hstranded
  refine ⟨tables, reaches_exec hexec, fun hinv => ?_⟩
  obtain ⟨group, hgrp, -, hsrc, -⟩ := hinv link hlink hstranded.1
  exact of_decide_eq_true (hstranded.2 group hgrp) hsrc

end MarketLens.Copier
