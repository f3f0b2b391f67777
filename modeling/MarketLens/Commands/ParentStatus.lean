import Mathlib.Data.Multiset.MapFold
import MarketLens.Commands.DeliveryProof

/-!
# The status of a parent command

A parent command is finished once each of its targets has a final outcome, and
its status should then be read off those outcomes: completed if all of them were
accepted, partially rejected otherwise. Five statements write the status, each
with a formula of its own. `Settled` says that it is right for every finished parent, and the
lemmas here say what an update has to do to keep that.
-/

namespace MarketLens.Commands

open List Bool Function Table Store Copier Fallible Runs

/-! ## What a finished parent's status should be -/

def outcomes (tables : CommandTables) (parentId : String) : Multiset TargetStatus :=
  ((tables.targetsOf parentId).map (·.status) : List TargetStatus)

/-- The status a collection of final outcomes makes. -/
def finalStatus (outcomes : Multiset TargetStatus) : ParentStatus :=
  if ∀ outcome ∈ outcomes, outcome = .accepted then .completed else .partiallyRejected

/-- The parent has targets, and each has its final outcome. -/
def finished (tables : CommandTables) (parentId : String) : Bool :=
  !(tables.targetsOf parentId).isEmpty && !tables.hasOpenTarget parentId

/-- Finished parents have the status of their outcomes, but for those a statement still has to
write. -/
def Settled (finalizing : List String) (tables : CommandTables) : Prop :=
  ∀ parent ∈ tables.parents, parent.id ∉ finalizing → finished tables parent.id = true →
    parent.status = finalStatus (outcomes tables parent.id)

variable {tables tables' : CommandTables} {finalizing finalizing' : List String}

variable {row : TargetCommandRow} {parentId : String}

theorem mem_targetsOf : row ∈ tables.targetsOf parentId ↔ row ∈ tables.commands ∧ row.parentCommandId = parentId := by
  unfold CommandTables.targetsOf
  rw [mem_filter, decide_eq_true_eq]

theorem mem_outcomes (h : row ∈ tables.commands)
    (hpar : row.parentCommandId = parentId) : row.status ∈ outcomes tables parentId := by
  exact mem_map_of_mem (mem_targetsOf.mpr ⟨h, hpar⟩)

theorem finalStatus_of_mem {statuses : Multiset TargetStatus} {outcome : TargetStatus}
    (h : outcome ∈ statuses) (hne : outcome ≠ .accepted) :
    finalStatus statuses = .partiallyRejected :=
  if_neg fun hall => hne (hall outcome h)

theorem terminal_of_finished (h : finished tables parentId = true) (hrow : row ∈ tables.commands)
    (hpar : row.parentCommandId = parentId) : row.terminal = true := by
  unfold finished CommandTables.hasOpenTarget at h
  rw [and_eq_true, not_eq_true', not_eq_true', any_eq_false] at h
  simpa using h.2 row (mem_targetsOf.mpr ⟨hrow, hpar⟩)

section Settled

variable (h : Settled finalizing tables)
include h

/-- **An update settles what it touches.** Each row it changes belongs to a parent it gives a
status, to one still to be finalized, or stays open; and the statuses given are the right ones. -/
theorem Settled.of_update {p : TargetCommandRow → Bool}
    {f : TargetCommandRow → TargetCommandRow} {ids : List String} {status : String → ParentStatus}
    (hfinalizing : ∀ id ∈ finalizing, id ∈ finalizing')
    (hcmds : tables'.commands = updateWhere p f tables.commands)
    (hparents : tables'.parents = (tables.setParents ids status).parents)
    (hpar : ∀ row, (f row).parentCommandId = row.parentCommandId)
    (htouched : ∀ row ∈ tables.commands, p row = true → row.parentCommandId ∈ ids ∨
      row.parentCommandId ∈ finalizing' ∨ (f row).terminal = false)
    (hstat : ∀ id ∈ ids, id ∉ finalizing' → finished tables' id = true → status id = finalStatus (outcomes tables' id)) :
    Settled finalizing' tables' := by
  intro parent hmem hnot hfin
  rw [hparents] at hmem
  rcases updateWhere_cases hmem with ⟨hold, hids⟩ | ⟨old, hold, hids, rfl⟩
  · -- no status was written: the parent's targets are the ones it had before
    rw [← not_eq_true, contains_iff_mem] at hids
    have huntouched : ∀ row ∈ tables.targetsOf parent.id, p row = false := by
      intro row hrow
      obtain ⟨hrow, hrowParent⟩ := mem_targetsOf.mp hrow
      rw [← not_eq_true]
      intro hp
      rcases htouched row hrow hp with hin | hin | hopen
      · exact hids (hrowParent ▸ hin)
      · exact hnot (hrowParent ▸ hin)
      · have hmem' : f row ∈ tables'.commands := by
          rw [hcmds]
          exact updated_mem hrow hp
        have := terminal_of_finished hfin hmem' ((hpar row).trans hrowParent)
        exact false_ne_true (hopen.symm.trans this)
    have htgts : tables'.targetsOf parent.id = tables.targetsOf parent.id := by
      have hsame : ((fun row : TargetCommandRow => decide (row.parentCommandId = parent.id)) ∘
          fun row => if p row then f row else row)
          = fun row : TargetCommandRow => decide (row.parentCommandId = parent.id) := by
        funext row
        rw [comp_apply]
        split
        · rw [hpar]
        · rfl
      unfold CommandTables.targetsOf at huntouched ⊢
      rw [hcmds]
      unfold updateWhere
      rw [filter_map, hsame]
      exact updateWhere_none huntouched
    have hfin' : finished tables parent.id = true := by
      unfold finished CommandTables.hasOpenTarget at hfin ⊢
      rwa [htgts] at hfin
    rw [h parent hold (fun hin => hnot (hfinalizing _ hin)) hfin']
    unfold outcomes
    rw [htgts]
  · rw [contains_iff_mem] at hids
    exact hstat old.id hids hnot hfin

/-- An update that writes no status. -/
theorem Settled.of_rows {p : TargetCommandRow → Bool} {f : TargetCommandRow → TargetCommandRow}
    (hfinalizing : ∀ id ∈ finalizing, id ∈ finalizing')
    (hcmds : tables'.commands = updateWhere p f tables.commands)
    (hparents : tables'.parents = tables.parents)
    (hpar : ∀ row, (f row).parentCommandId = row.parentCommandId)
    (htouched : ∀ row ∈ tables.commands, p row = true → row.parentCommandId ∈ finalizing' ∨ (f row).terminal = false) :
    Settled finalizing' tables' := by
  have hnone : (tables.setParents [] fun _ => .routed).parents = tables.parents :=
    updateWhere_none fun _ _ => rfl
  exact h.of_update hfinalizing hcmds (hparents.trans hnone.symm) hpar (fun row hrow hp => .inr (htouched row hrow hp)) nofun

theorem Settled.of_eq (hcmds : tables'.commands = tables.commands)
    (hparents : tables'.parents = tables.parents) : Settled finalizing tables' := by
  unfold Settled finished outcomes CommandTables.hasOpenTarget CommandTables.targetsOf
  rw [hcmds, hparents]
  exact h

/-- A new target is open, so its parent is not finished, and no other parent is concerned. -/
theorem Settled.insertCommand {parent : ExecutionCommandRow} (hpar : row.parentCommandId = parent.id)
    (hopen : row.terminal = false) (hok : insertCommand parent row tables = .ok tables') :
    Settled finalizing tables' := by
  obtain ⟨hcmds, hparents, _⟩ := insertCommand_ok hok
  intro other hoth hnot hfin
  have hne : row.parentCommandId ≠ other.id := by
    intro heq
    have hrow : row ∈ tables'.commands := by
      rw [hcmds]
      exact mem_append_right _ (mem_singleton_self row)
    exact false_ne_true (hopen.symm.trans (terminal_of_finished hfin hrow heq))
  have htgts : tables'.targetsOf other.id = tables.targetsOf other.id := by
    unfold CommandTables.targetsOf
    rw [hcmds, filter_append, filter_singleton, decide_eq_false hne]
    simp
  rw [hparents] at hoth
  rcases mem_insertUnless hoth with hold | rfl
  · have hfin' : finished tables other.id = true := by
      unfold finished CommandTables.hasOpenTarget at hfin ⊢
      rwa [htgts] at hfin
    rw [h other hold hnot hfin']
    unfold outcomes
    rw [htgts]
  · exact absurd hpar hne

end Settled

end MarketLens.Commands
