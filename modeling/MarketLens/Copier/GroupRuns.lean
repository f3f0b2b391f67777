import MarketLens.Copier.Staging
import MarketLens.Copier.GroupSettings

/-!
# Runs of the copier's settings

The settings change by saving a group, acting on one and removing an account, in
any order. Between these the copier works: it rewrites runtime statuses and its
own tables, which no edge depends on. Every operation keeps `GraphInv`, so in no
reachable state does an edge of the copier graph continue another.
-/

namespace MarketLens.Copier

open List Bool Function Table Store Fallible Runs Chain

/-! ## The step function -/

/-- The settings of groups and targets, without the runtime statuses the copier maintains. -/
def settings (tables : CopyTables) : List CopyGroupRow × List CopyTargetRow :=
  (tables.groups.map fun group => { group with runtimeStatus := .inactive },
    tables.targets.map fun target => { target with runtimeStatus := .inactive })

/-- What may happen to the copier's tables. `accounts` are the owner's accounts at the time. -/
inductive SettingsAction where
  | upsert (accounts : List AccountRow) (authorize : Except ApiError Unit) (newId : Uuid)
      (reported : String → String → Bool) (request : CopyGroupUpsert)
  | act (accounts : List AccountRow) (authorize : Except ApiError Unit) (groupId : Uuid)
      (expectedRevision : Nat) (action : CopyGroupAction)
  | remove (accountId : String)
  /-- The copier's own work, which leaves the settings as they are. -/
  | work (after : CopyTables)

/-- A refused request changes nothing; its transaction is rolled back. -/
def settingsStep (tables : CopyTables) : SettingsAction → Option CopyTables
  | .upsert accounts authorize newId reported request =>
    (upsertCopyGroup accounts authorize newId reported request tables).toOption
  | .act accounts authorize groupId expectedRevision action =>
    (copyGroupAction accounts authorize groupId expectedRevision action tables).toOption
  | .remove accountId =>
    if removalBlocked accountId tables then none else some (removeAccount accountId tables)
  | .work after => if settings after = settings tables then some after else none

def CopyTables.empty : CopyTables := ⟨[], [], [], [], [], []⟩

variable {tables tables' : CopyTables}

/-! ## Removing an account -/

theorem updateGroups_shrinks (p : CopyGroupRow → Bool) :
    Shrinks tables { tables with groups := updateWhere p deactivateGroup tables.groups } :=
  shrinks_groups (f := deactivateGroup) (fun _ => rfl) (fun _ => rfl) (fun _ hon => absurd hon false_ne_true) rfl rfl

theorem removeAccount_shrinks (accountId : String) : Shrinks tables (removeAccount accountId tables) := by
  let groups := updateWhere (·.sourceAccountId = accountId) deactivateGroup tables.groups
  let drop := fun (target : CopyTargetRow) => { target with
    enabled := if target.accountId = accountId then false else target.enabled
    runtimeStatus := .inactive
    revision := target.revision + 1 }
  let hit := fun (target : CopyTargetRow) =>
    target.accountId = accountId && groups.any (·.id = target.groupId)
      || feeds accountId groups target.groupId
  -- the groups the account feeds, then its targets, then the groups left without a target
  have hfed : Shrinks tables { tables with groups := groups } := updateGroups_shrinks _
  have hdrpd : Shrinks { tables with groups := groups }
      { tables with groups := groups, targets := updateWhere hit drop tables.targets } := by
    refine shrinks_targets (f := drop) (fun _ => rfl) (fun _ => rfl) ?_ rfl rfl
    intro target hon
    change (if target.accountId = accountId then false else target.enabled) = true at hon
    split at hon
    · exact absurd hon false_ne_true
    · exact hon
  exact ((hfed.trans hdrpd).trans (updateGroups_shrinks _)).trans (.of_eq rfl rfl)

/-! ## The copier's own work -/

/-- Equal settings carry the same edges. -/
theorem shrinks_of_settings (h : settings tables' = settings tables) : Shrinks tables tables' where
  ids := by
    have hgrps := congrArg (fun s => s.1.map (·.id)) h
    simpa only [settings, map_map, comp_def] using hgrps
  groups := by
    intro group' hgrp'
    obtain ⟨group, hgrp, heq⟩ := exists_of_map_eq (congrArg Prod.fst h) hgrp'
    simp only [CopyGroupRow.mk.injEq] at heq
    exact ⟨group, hgrp, heq.1, heq.2.2.1, fun hon => heq.2.2.2.1.trans hon⟩
  targets := by
    intro target' htgt'
    obtain ⟨target, htgt, heq⟩ := exists_of_map_eq (congrArg Prod.snd h) htgt'
    simp only [CopyTargetRow.mk.injEq] at heq
    exact ⟨target, htgt, heq.1, heq.2.1, fun hon => heq.2.2.1.trans hon⟩

section Staging

variable (env : StageEnv)

def Stage.settings (stage : Stage) : List CopyGroupRow × List CopyTargetRow :=
  Copier.settings stage.tables

/-- **What the writes of a staging do to the tables, the staging does.** -/
theorem staging_related {R : Stage → Stage → Prop} (hrefl : ∀ stage, R stage stage)
    (htrans : ∀ first second third, R first second → R second third → R first third)
    (hrows : ∀ stage work inbox drawn, R stage ⟨{ stage.tables with work := work, inbox := inbox }, drawn⟩)
    (hsupersedes : ∀ stage groupId accountId change,
      R stage ⟨supersedeUnissued env groupId accountId change stage.tables, stage.drawn⟩)
    (hgrps : ∀ stage p, R stage ⟨{ stage.tables with groups := updateWhere p (fun row : CopyGroupRow =>
      { row with runtimeStatus := if row.runtimeStatus = .paused then .paused else .active }) stage.tables.groups }, stage.drawn⟩)
    (sourceAccountId : String) (positions : List EaPositionSnapshot) (pendingOrders : List EaPendingOrderSnapshot)
    (events : List EaEvent) (portfolio : PortfolioTables) (stage : Stage) :
    R stage (stageContinuousCopyChanges env sourceAccountId positions pendingOrders events portfolio stage) := by
  have hloop : ∀ {A : Type} {f : Stage → A → Stage}, (∀ stage a, R stage (f stage a)) →
      ∀ (items : List A) stage, R stage (items.foldl f stage) := fun hrnd => foldl_related hrefl htrans hrnd
  have hwork : ∀ origin operation index stage leg, R stage (stageWork env origin operation index stage leg) := by
    intro origin operation index stage leg
    unfold stageWork
    dsimp only
    split
    · exact hrefl _
    · exact hrows _ _ _ _
  have hoperation : ∀ origin stage entry, R stage (stageOperation env origin stage entry) :=
    fun origin stage entry => hloop (hwork origin entry.1 entry.2) _ stage
  have htgt : ∀ origin operations stage, R stage (stageTarget env origin operations stage) :=
    fun origin _ stage => htrans _ _ _ (hsupersedes stage _ _ _) (hloop (hoperation origin) _ _)
  have hchg : ∀ group targets stage change, R stage (stageChange env group sourceAccountId targets stage change) := by
    intro group targets stage change
    unfold stageChange
    dsimp only
    split
    · exact hrefl _
    · refine htrans _ _ _ (hrows stage stage.tables.work _ _) (htrans _ _ _ (hloop (fun stage target => ?_) targets _)
        (hrows _ _ _ _))
      exact htgt _ _ stage
  have hgrp : ∀ changes stage group, R stage (stageGroup env sourceAccountId changes stage group) :=
    fun changes stage group => htrans _ _ _ (hloop (hchg group _) _ stage) (hgrps _ _)
  unfold stageContinuousCopyChanges
  dsimp only
  split
  · exact hrefl _
  · exact hloop (hgrp _) _ _

theorem staging_is_work (sourceAccountId : String) (positions : List EaPositionSnapshot)
    (pendingOrders : List EaPendingOrderSnapshot) (events : List EaEvent)
    (portfolio : PortfolioTables) (stage : Stage) :
    let staged := stageContinuousCopyChanges env sourceAccountId positions pendingOrders events portfolio stage
    settingsStep stage.tables (.work staged.tables) = some staged.tables := by
  refine if_pos (staging_related env (R := fun before after => after.settings = before.settings) (fun _ => rfl)
    (fun _ _ _ hfs hsec => hsec.trans hfs) (fun _ _ _ _ => rfl) (fun stage groupId accountId change => ?_)
    (fun stage p => ?_) sourceAccountId positions pendingOrders events portfolio stage)
  · unfold supersedeUnissued
    cases predecessorOperation change <;> rfl
  · unfold Stage.settings settings
    dsimp only
    rw [map_updateWhere]
    exact fun _ => rfl

end Staging

/-! ## Every run -/

theorem settingsStep_keeps (action : SettingsAction) (hinv : GraphInv tables)
    (h : settingsStep tables action = some tables') : GraphInv tables' := by
  cases action with
  | upsert =>
    rw [settingsStep] at h
    exact upsert_keeps hinv (toOption_some h)
  | act =>
    exact action_keeps hinv (toOption_some h)
  | remove accountId =>
    rw [settingsStep] at h
    split at h
    · cases h
    · rw [← Option.some.inj h]
      exact hinv.shrink (removeAccount_shrinks accountId)
  | work =>
    rw [settingsStep] at h
    split at h
    · rename_i hsame
      rw [← Option.some.inj h]
      exact hinv.shrink (shrinks_of_settings hsame)
    · cases h

theorem graphInv_empty : GraphInv CopyTables.empty where
  ids := nodup_nil
  own := forall_mem_nil _
  chainless := by
    rintro a b c ⟨group, hgrp, _⟩ _
    exact absurd hgrp not_mem_nil

theorem graphInv_reachable (h : Reaches settingsStep always CopyTables.empty tables) : GraphInv tables :=
  h.invariant GraphInv graphInv_empty fun _ action _ hinv _ hstep =>
    settingsStep_keeps action hinv hstep

/-- **No account is copied from and copied to, and no path of copies leads back**, in any
state the settings reach. -/
theorem copier_graph_never_chains (h : Reaches settingsStep always CopyTables.empty tables) :
    (∀ account, ¬ (Starts (Copies tables) account ∧ Ends (Copies tables) account)) ∧
    (∀ account, ¬ Relation.TransGen (Copies tables) account account) := by
  have hinv := graphInv_reachable h
  exact ⟨chainless_iff.mp hinv.chainless, hinv.chainless.no_cycle⟩

/-! A run that would make a chain: the first group has to go before the second may start. -/

def singleTarget (source target : String) (enabled : Bool) : CopyGroupUpsert :=
  ⟨none, "Copy " ++ source, source, enabled, {}, none,
    [⟨target, true, legacyCopyTargetConfig, none⟩]⟩

def graphAccounts : List AccountRow :=
  ["a", "b", "c"].map fun id => ⟨id, .direct, .ready, true, none⟩

/-- Copy from a to b, prepare copying from b to c, archive the first and start the second. -/
def handOver : List SettingsAction :=
  [.upsert graphAccounts (.ok ()) 1 (fun _ _ => true) (singleTarget "a" "b" true),
    .upsert graphAccounts (.ok ()) 2 (fun _ _ => true) (singleTarget "b" "c" false),
    .act graphAccounts (.ok ()) 1 1 .archive,
    .act graphAccounts (.ok ()) 2 1 .resume]

/-- The second group runs, the first one is archived. -/
def handedOver : CopyTables :=
  ⟨[⟨1, "Copy a", "a", false, 2, .inactive, some {}⟩,
      ⟨2, "Copy b", "b", true, 2, .starting, some {}⟩],
    [⟨1, "b", true, 1, .inactive, some legacyCopyTargetConfig⟩,
      ⟨2, "c", true, 1, .connecting, some legacyCopyTargetConfig⟩], [], [], [], []⟩

theorem handOver_never_chains :
    Starts (Copies handedOver) "b" ∧ ¬ Ends (Copies handedOver) "b" ∧
      ¬ Relation.TransGen (Copies handedOver) "b" "b" := by
  have hexec : exec settingsStep (fun _ _ => true) CopyTables.empty handOver = some handedOver := by
    decide
  have hrch := reaches_exec hexec
  have hstar : Starts (Copies handedOver) "b" :=
    ⟨"c", _, List.mem_cons_of_mem _ List.mem_cons_self, rfl, rfl, _, List.mem_cons_of_mem _ List.mem_cons_self, rfl, rfl, rfl⟩
  obtain ⟨hfree, hacyclic⟩ := copier_graph_never_chains hrch
  exact ⟨hstar, fun hends => hfree "b" ⟨hstar, hends⟩, hacyclic "b"⟩

/-- Without archiving the first group, the second one may not start. -/
example : exec settingsStep (fun _ _ => true) CopyTables.empty (handOver.take 2 ++
    [.act graphAccounts (.ok ()) 2 1 .resume]) = none := by decide

end MarketLens.Copier
