import MarketLens.Pine.Stateful.CallGraph

/-!
# The VMs inside a VM

A `request.security` runs the statements before the one it stands in. If it can stand where
the search does not look, it runs all of them, and is among them itself. If every request
that can be reached is found, each VM inside evaluates requests that come earlier in the
program text than all those it is inside of.
-/

namespace MarketLens.Pine

open Programs List StatefulProgram

/-! ## Requests inside requests -/

/-- A task stands in a stretch of the program text; what is requested stands before the request ends. -/
def Task.Inside (text : List Nat) : Task → Prop
  | .security node requested => ∃ before, (Task.evaluate requested).nodes <:+: before ∧ before ++ [node] <:+: text
  | t => t.nodes <:+: text

theorem Task.inside_iff {t : Task} {text : List Nat} (hplain : t.Plain) : t.Inside text ↔ t.nodes <:+: text := by
  cases t with
  | evaluate | block => exact Iff.rfl
  | security => exact hplain.elim

theorem Task.Inside.widen {t : Task} {text text' : List Nat} (h : t.Inside text) (htext : text <:+: text') : t.Inside text' := by
  cases t with
  | evaluate | block => exact List.IsInfix.trans h htext
  | security =>
    obtain ⟨before, hreqd, hbef⟩ := h
    exact ⟨before, hreqd, hbef.trans htext⟩

/-- A task the program comes to, in a stretch of its statements or in a definition. -/
def Placed (program : StatefulProgram) (text : List Nat) (t : Task) : Prop :=
  program.Reaches (.block program.statements) t ∧
    (t.Inside text ∨ t.Plain ∧ ∀ n ∈ t.nodes, n ∈ program.definedNodes)

section Placed

variable {program : StatefulProgram} {text : List Nat} {t t' : Task}

theorem Placed.widen {text' : List Nat} (h : Placed program text t) (htext : text <:+: text') : Placed program text' t :=
  ⟨h.1, h.2.imp_left fun hinsi => hinsi.widen htext⟩

theorem Placed.security {node : Nat} {requested : StatefulExpr} (haddr : program.Addressed)
    (hsea : program.Searched) (htext : text <+: nodesOfBlock program.statements)
    (h : Placed program text (.security node requested)) :
    ∃ before, before ++ [node] <+: text ∧ node ∉ before ∧
      ∀ t' ∈ (Task.security node requested).subtasks program, Placed program before t' := by
  obtain ⟨hrch, hpl⟩ := h
  obtain ⟨part, hreqd, first, last, rfl⟩ := hpl.resolve_right fun hplain => hplain.1
  have hndp : (nodesOfBlock program.statements).Nodup := (nodup_append.mp haddr).1
  have hlead : first ++ part ++ [node] <+: nodesOfBlock program.statements := by
    refine .trans ⟨last, ?_⟩ htext
    simp
  have hfsh : node ∉ first ++ part := by
    have hdist := nodup_append.mp (hlead.sublist.nodup hndp)
    exact fun hmem => hdist.2.2 node hmem node (mem_singleton_self _) rfl
  refine ⟨first ++ part, ⟨last, by simp⟩, hfsh, fun t' ht' => ⟨hrch.tail ht', .inl ?_⟩⟩
  simp only [Task.subtasks, mem_cons, not_mem_nil, or_false] at ht'
  rcases ht' with rfl | rfl
  · -- the statements before the request end where the request does at the latest
    obtain ⟨statement, after, hstatements, hmem⟩ := statementsBefore_of_finds (hsea node ⟨requested, hrch⟩)
    generalize statefulStatementsBeforeCall program.statements node = earlier at hstatements ⊢
    have htext' : nodesOfBlock program.statements =
        nodesOfBlock earlier ++ ((statement.calls ++ callsOfBlock after).map StatefulCall.node) := by
      rw [hstatements, nodesOfBlock, nodesOfBlock, ← map_append]
      simp only [callsOfBlock_eq, flatMap_append, flatMap_cons]
    have hoth : node ∉ nodesOfBlock earlier := by
      rw [htext'] at hndp
      obtain ⟨call, hcall, rfl⟩ := hmem
      exact fun hearl => (nodup_append.mp hndp).2.2 call.node hearl call.node (mem_map_of_mem (mem_append_left _ hcall)) rfl
    rcases prefix_or_prefix_of_prefix (htext' ▸ prefix_append _ _) hlead with hshort | hlong
    · rcases prefix_concat_iff.mp hshort with heq | hshort
      · exact absurd (heq ▸ mem_append_right _ (mem_singleton_self _)) hoth
      · exact hshort.isInfix
    · exact absurd (hlong.subset (mem_append_right _ (mem_singleton_self _))) hoth
  · exact hreqd.trans (suffix_append _ _).isInfix

/-- **What a task leads to stands where it stands**, or among the definitions. -/
theorem Placed.step (haddr : program.Addressed) (hsea : program.Searched)
    (htext : text <+: nodesOfBlock program.statements) (h : Placed program text t) (ht : t' ∈ t.subtasks program) :
    Placed program text t' := by
  have hrch : program.Reaches (.block program.statements) t' := h.1.tail ht
  have hpart : ∀ {size}, t'.PartOf t.calls size → t.Plain → Placed program text t' := by
    intro size hpart hplain
    have hwthn : t'.nodes <:+: t.nodes := hpart.calls.map _
    refine ⟨hrch, ?_⟩
    rcases h.2 with hinsi | ⟨_, hdefined⟩
    · exact .inl ((Task.inside_iff hpart.plain).mpr (hwthn.trans ((Task.inside_iff hplain).mp hinsi)))
    · exact .inr ⟨hpart.plain, fun n hn => hdefined n (hwthn.subset hn)⟩
  cases t with
  | evaluate expression =>
    rcases tasks_of_expression ht with hexpression | ⟨call, requested, before, rfl, hreqd, hbef⟩ | ⟨call, _, d, hd, ht⟩
    · exact hpart hexpression trivial
    · have hnodes : before.map StatefulCall.node ++ [call.node] <:+: (Task.evaluate expression).nodes := by
        have hmap := hbef.map StatefulCall.node
        rwa [map_append] at hmap
      refine ⟨hrch, .inl ⟨before.map StatefulCall.node, hreqd.map _, ?_⟩⟩
      rcases h.2 with hinsi | ⟨_, hdefined⟩
      · exact hnodes.trans hinsi
      · -- a request among the definitions is not found
        obtain ⟨other, hoth, heq⟩ := has_block_of_contain (hsea call.node ⟨requested, hrch⟩)
        have hnode := hdefined call.node (hnodes.subset (mem_append_right _ (mem_singleton_self _)))
        exact absurd heq ((nodup_append.mp haddr).2.2 _ (mem_map_of_mem hoth) _ hnode)
    · exact ⟨hrch, .inr (mem_definedNodes (mem_definitions_of_callee hd) ht)⟩
  | block => exact hpart (tasks_of_block ht) trivial
  | security =>
    obtain ⟨before, hbef, _, hsubtasks⟩ := h.security haddr hsea htext
    exact (hsubtasks t' ht).widen ((prefix_append _ _).isInfix.trans hbef.isInfix)

theorem Placed.reaches (haddr : program.Addressed) (hsea : program.Searched)
    (htext : text <+: nodesOfBlock program.statements) (h : Placed program text t) (ht : program.Reaches t t') :
    Placed program text t' := by
  induction ht with
  | refl => exact h
  | tail _ hstep ih => exact ih.step haddr hsea htext hstep

end Placed

/-! ## A machine that lets no request be inside itself -/

section Congr

variable {machine machine' : VmMachine} {vm : Vm}

end Congr

/-- A library of functions without results. -/
def silentLibrary : Library where
  unary := fun _ _ => none
  sqrt := fun _ => none
  pow := fun _ _ => none
  decimal := fun _ => ""
  fixed := fun _ _ => ""
  general := fun _ => ""
  lower := id
  upper := id
  date := fun _ _ => ""

/-- A program run without inputs. -/
def plainSetting (program : StatefulProgram) : Setting where
  library := silentLibrary
  program := program
  version := 5
  symbol := ""
  symbolType := ""
  timezone := ""
  mintick := 1
  overrides := fun _ => none
  outputSuppressed := false

section Unfolding

variable {suppressed : Bool} {levels : Nat} {region : Region} {memory : Memory} {heap : Region → List StatefulNode}

end Unfolding

end MarketLens.Pine
