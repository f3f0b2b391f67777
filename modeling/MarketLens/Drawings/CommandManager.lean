import Mathlib.Data.List.Induction
import Mathlib.Data.List.Sort

/-!
# Undo and redo of drawing commands

Every change of the drawings is a command that keeps what it changed. A command is built from the
drawings it is executed on, and its undo writes back what was there. A redo executes it again; a
duplication then draws a new id, and the copy comes back as another drawing (`redo_restores_iff`).
-/

namespace MarketLens.Drawings

open List Option Function Nat

/-! ## The drawings -/

variable {Id Field Value : Type} [DecidableEq Id]

/-- The properties of a drawing, less its id; one that is not set is `undefined`, a value as well. -/
abbrev Drawing (Field Value : Type) := Field → Value

/-- `Partial<Drawing>`. -/
abbrev Patch (Field Value : Type) := Field → Option Value

/-- The drawings under their ids. -/
abbrev Store (Id Field Value : Type) := Id → Option (Drawing Field Value)

def Drawing.merge (patch : Patch Field Value) (drawing : Drawing Field Value) : Drawing Field Value :=
  fun field => (patch field).getD (drawing field)

namespace Store

def add (s : Store Id Field Value) (entry : Id × Drawing Field Value) : Store Id Field Value :=
  Function.update s entry.1 (some entry.2)

def remove (s : Store Id Field Value) (id : Id) : Store Id Field Value := Function.update s id none

/-- `updateFn`. -/
def patch (s : Store Id Field Value) (update : Id × Patch Field Value) : Store Id Field Value :=
  Function.update s update.1 ((s update.1).map (Drawing.merge update.2))

end Store

/-! ## Commands -/

/-- `DrawingMoveChange`, `DrawingPropertyChange`. -/
structure Change (Id Field Value : Type) where
  id : Id
  newPatch : Patch Field Value
  oldPatch : Patch Field Value

namespace Change

def forth (change : Change Id Field Value) : Id × Patch Field Value := (change.id, change.newPatch)

def back (change : Change Id Field Value) : Id × Patch Field Value := (change.id, change.oldPatch)

end Change

/-- The built-in commands, with what they remember of having been executed. -/
inductive Command (Id Field Value : Type) where
  | create (id : Id) (drawing : Drawing Field Value)
  | delete (id : Id) (drawing : Drawing Field Value)
  | deleteAll (drawings : List (Id × Drawing Field Value))
  | move (change : Change Id Field Value)
  | batchMove (changes : List (Change Id Field Value))
  | duplicate (source : Drawing Field Value) (copyId : Option Id)
  | propertyChange (change : Change Id Field Value)
  | batchPropertyChange (changes : List (Change Id Field Value))
  | previewed (change : Change Id Field Value) (recorded : Bool)

/-- The drawings, and how many ids were drawn so far. -/
structure World (Id Field Value : Type) where
  store : Store Id Field Value
  drawn : Nat

section Commands

variable (uid : Nat → Id) (zIndex : Drawing Field Value → Int)

/-- `execute`: the command as it is afterwards, and the drawings. -/
def Command.execute (w : World Id Field Value) : Command Id Field Value → Command Id Field Value × World Id Field Value
  | .create id drawing => (.create id drawing, { w with store := w.store.add (id, drawing) })
  | .delete id drawing => (.delete id drawing, { w with store := w.store.remove id })
  | .deleteAll drawings => (.deleteAll drawings, { w with store := (drawings.map Prod.fst).foldl .remove w.store })
  | .move change => (.move change, { w with store := w.store.patch change.forth })
  | .batchMove changes => (.batchMove changes, { w with store := (changes.map Change.forth).foldl .patch w.store })
  | .duplicate source _ => (.duplicate source (some (uid w.drawn)), ⟨w.store.add (uid w.drawn, source), w.drawn + 1⟩)
  | .propertyChange change => (.propertyChange change, { w with store := w.store.patch change.forth })
  | .batchPropertyChange changes =>
    (.batchPropertyChange changes, { w with store := (changes.map Change.forth).foldl .patch w.store })
  | .previewed change recorded =>
    (.previewed change true, if recorded then { w with store := w.store.patch change.forth } else w)

/-- `undo`. -/
def Command.undo (s : Store Id Field Value) : Command Id Field Value → Store Id Field Value
  | .create id _ => s.remove id
  | .delete id drawing => s.add (id, drawing)
  | .deleteAll drawings => (drawings.insertionSort fun a b => zIndex a.2 ≤ zIndex b.2).foldl .add s
  | .move change => s.patch change.back
  | .batchMove changes => (changes.map Change.back).foldl .patch s
  | .duplicate _ copyId => copyId.elim s s.remove
  | .propertyChange change => s.patch change.back
  | .batchPropertyChange changes => (changes.reverse.map Change.back).foldl .patch s
  | .previewed change _ => s.patch change.back

/-! ## The manager -/

/-- `CommandManager` and the drawings; the stacks have their tops first. -/
structure Session (Id Field Value : Type) where
  world : World Id Field Value
  undoStack : List (Command Id Field Value)
  redoStack : List (Command Id Field Value)

/-- The dialog of a previewed change has written it to the drawings before the command is executed. -/
def Command.preview (s : Store Id Field Value) : Command Id Field Value → Store Id Field Value
  | .previewed change _ => s.patch change.forth
  | _ => s

/-- A command is executed for the first time. -/
def Command.perform (w : World Id Field Value) (command : Command Id Field Value) :
    Command Id Field Value × World Id Field Value :=
  command.execute uid { w with store := command.preview w.store }

namespace Session

def execute (maxSize : Nat) (session : Session Id Field Value) (command : Command Id Field Value) : Session Id Field Value :=
  let (executed, world) := command.perform uid session.world
  let undoStack := executed :: session.undoStack
  { world, undoStack := if undoStack.length > maxSize then undoStack.dropLast else undoStack, redoStack := [] }

def undo (session : Session Id Field Value) : Session Id Field Value :=
  match session.undoStack with
  | [] => session
  | command :: rest =>
    { world := { session.world with store := command.undo zIndex session.world.store }
      undoStack := rest, redoStack := command :: session.redoStack }

def redo (session : Session Id Field Value) : Session Id Field Value :=
  match session.redoStack with
  | [] => session
  | command :: rest =>
    let (executed, world) := command.execute uid session.world
    { world, undoStack := executed :: session.undoStack, redoStack := rest }

end Session

/-! ## Commands built from the drawings -/

/-- The old patch holds what the drawing has in the fields the new patch names. -/
def Change.Captures (s : Store Id Field Value) (change : Change Id Field Value) : Prop :=
  ∃ drawing, s change.id = some drawing ∧ ∀ field, change.oldPatch field = (change.newPatch field).map fun _ => drawing field

/-- No drawing has an id that is still to be drawn. -/
def World.Known (w : World Id Field Value) : Prop := ∀ n ≥ w.drawn, w.store (uid n) = none

def Command.Built (w : World Id Field Value) : Command Id Field Value → Prop
  | .create id _ => w.store id = none ∧ ∀ n ≥ w.drawn, uid n ≠ id
  | .delete id drawing => w.store id = some drawing
  | .deleteAll drawings => (drawings.map Prod.fst).Nodup ∧ ∀ entry ∈ drawings, w.store entry.1 = some entry.2
  | .move change | .propertyChange change => change.Captures w.store
  | .batchMove changes | .batchPropertyChange changes =>
    (changes.map Change.id).Nodup ∧ ∀ change ∈ changes, change.Captures w.store
  | .duplicate source copyId => copyId = none ∧ ∃ id, w.store id = some source
  | .previewed change recorded => recorded = false ∧ change.Captures w.store

def Command.isDuplicate : Command Id Field Value → Bool
  | .duplicate _ _ => true
  | _ => false

def performAll (w : World Id Field Value) : List (Command Id Field Value) → List (Command Id Field Value) × World Id Field Value
  | [] => ([], w)
  | command :: rest =>
    let (executed, after) := command.perform uid w
    ((executed :: (performAll after rest).1), (performAll after rest).2)

/-- Each is built from what the ones before it leave. -/
def BuiltAll (w : World Id Field Value) : List (Command Id Field Value) → Prop
  | [] => True
  | command :: rest => command.Built uid w ∧ BuiltAll (command.perform uid w).2 rest

end Commands

/-! ## Writes under distinct ids -/

section Writes

variable {U : Type} {key : U → Id} {write back : Store Id Field Value → U → Store Id Field Value}

/-- A write concerns the drawing under its id alone. -/
structure Local (key : U → Id) (write : Store Id Field Value → U → Store Id Field Value) : Prop where
  beside : ∀ s u id, id ≠ key u → write s u id = s id
  within : ∀ s s' u, s (key u) = s' (key u) → write s u (key u) = write s' u (key u)

omit [DecidableEq Id] in
theorem Local.foldl_beside (h : Local key write) {id : Id} (us : List U) (hid : id ∉ us.map key) (s : Store Id Field Value) :
    us.foldl write s id = s id := by
  induction us generalizing s with
  | nil => rfl
  | cons u us ih =>
    rw [map_cons, mem_cons, not_or] at hid
    rw [foldl_cons, ih hid.2, h.beside s u id hid.1]

omit [DecidableEq Id] in
theorem Local.foldl_within (h : Local key write) {u : U} {us : List U} (hndp : (us.map key).Nodup) (hu : u ∈ us)
    (s : Store Id Field Value) : us.foldl write s (key u) = write s u (key u) := by
  induction us generalizing s with
  | nil => cases hu
  | cons first us ih =>
    rw [map_cons, nodup_cons] at hndp
    rw [foldl_cons]
    rcases mem_cons.mp hu with rfl | hu
    · exact h.foldl_beside us hndp.1 _
    · have hne : key u ≠ key first := fun hsame => hndp.1 (hsame ▸ mem_map_of_mem hu)
      rw [ih hndp.2 hu, h.within _ s u (h.beside s first _ hne)]

/-- What each write took away the write back restores, in whatever order. -/
theorem Local.foldl_back (h : Local key write) (hback : Local key back) {us vs : List U} {s : Store Id Field Value}
    (hperm : vs.Perm us) (hndp : (us.map key).Nodup)
    (hrestores : ∀ u ∈ us, ∀ s', s' (key u) = write s u (key u) → back s' u (key u) = s (key u)) :
    vs.foldl back (us.foldl write s) = s := by
  funext id
  by_cases hid : id ∈ us.map key
  · obtain ⟨u, hu, rfl⟩ := mem_map.mp hid
    rw [hback.foldl_within ((hperm.map key).nodup_iff.mpr hndp) (hperm.mem_iff.mpr hu)]
    exact hrestores u hu _ (h.foldl_within hndp hu s)
  · rw [hback.foldl_beside vs fun hmem => hid ((hperm.map key).mem_iff.mp hmem), h.foldl_beside us hid]

theorem local_add : Local Prod.fst fun (s : Store Id Field Value) entry => s.add entry where
  beside _ _ _ hne := update_of_ne hne _ _
  within s s' u _ := by simp [Store.add]

theorem local_remove : Local Prod.fst fun (s : Store Id Field Value) (u : Id × Drawing Field Value) => s.remove u.1 where
  beside _ _ _ hne := update_of_ne hne _ _
  within s s' u _ := by simp [Store.remove]

theorem local_patch {update : U → Id × Patch Field Value} (hkey : ∀ u, (update u).1 = key u) :
    Local key fun (s : Store Id Field Value) u => s.patch (update u) where
  beside s u _ hne := update_of_ne (by rw [hkey]; exact hne) _ _
  within s s' u hsame := by
    unfold Store.patch
    rw [hkey, update_self, update_self, hsame]

/-- The old patches of a batch undo the new ones. -/
theorem patches_back {s : Store Id Field Value} {changes reversed : List (Change Id Field Value)}
    (hperm : reversed.Perm changes) (hndp : (changes.map Change.id).Nodup)
    (hcaptures : ∀ change ∈ changes, change.Captures s) :
    (reversed.map Change.back).foldl .patch ((changes.map Change.forth).foldl .patch s) = s := by
  have hforth : Local Change.id fun (s : Store Id Field Value) change => s.patch change.forth := local_patch fun _ => rfl
  have hback : Local Change.id fun (s : Store Id Field Value) change => s.patch change.back := local_patch fun _ => rfl
  rw [foldl_map, foldl_map]
  refine hforth.foldl_back hback hperm hndp fun change hchg s' hs' => ?_
  obtain ⟨drawing, hdrawing, hold⟩ := hcaptures change hchg
  have hpatched : s' change.id = some (drawing.merge change.newPatch) := by
    rw [hs']
    show (s.patch change.forth) change.forth.1 = _
    unfold Store.patch
    rw [update_self]
    exact congrArg (Option.map _) hdrawing
  show (s'.patch change.back) change.back.1 = _
  unfold Store.patch
  rw [update_self, hdrawing]
  refine (congrArg (Option.map _) hpatched).trans (congrArg some (funext fun field => ?_))
  show (change.oldPatch field).getD ((change.newPatch field).getD (drawing field)) = drawing field
  rw [hold field]
  cases change.newPatch field <;> rfl

theorem patch_back {s : Store Id Field Value} {change : Change Id Field Value} (h : change.Captures s) :
    (s.patch change.forth).patch change.back = s :=
  patches_back (.refl [change]) (nodup_singleton _) (by simpa using h)

theorem update_back {s : Store Id Field Value} {id : Id} {before : Option (Drawing Field Value)} (h : s id = before)
    (after : Option (Drawing Field Value)) : Function.update (Function.update s id after) id before = s := by
  rw [update_idem, ← h, update_eq_self]

end Writes

/-! ## One command -/

section

variable {uid : Nat → Id} {zIndex : Drawing Field Value → Int} {w : World Id Field Value} {command : Command Id Field Value}

/-- **An undo restores the drawings** the command was built from. -/
theorem perform_undo (hbui : command.Built uid w) (hkno : w.Known uid) :
    (command.perform uid w).1.undo zIndex (command.perform uid w).2.store = w.store := by
  cases command with
  | create => exact update_back hbui.1 _
  | delete => exact update_back hbui _
  | deleteAll drawings =>
    show ((drawings.insertionSort _).foldl Store.add ((drawings.map Prod.fst).foldl Store.remove w.store)) = _
    rw [foldl_map]
    refine local_remove.foldl_back local_add (perm_insertionSort _ _) hbui.1 fun entry hent s' _ => ?_
    show update s' entry.1 (some entry.2) entry.1 = _
    rw [update_self, hbui.2 entry hent]
  | move | propertyChange => exact patch_back hbui
  | batchMove => exact patches_back (.refl _) hbui.1 hbui.2
  | batchPropertyChange => exact patches_back (reverse_perm _) hbui.1 hbui.2
  | duplicate => exact update_back (hkno w.drawn (le_refl _)) _
  | previewed =>
    cases hbui.1
    exact patch_back hbui.2

/-- **A redo does again** what a command did that draws no id. -/
theorem perform_again (hbui : command.Built uid w) (hdra : command.isDuplicate = false) (n : Nat) :
    ((command.perform uid w).1.execute uid ⟨w.store, n⟩).2 = ⟨(command.perform uid w).2.store, n⟩ := by
  cases command with
  | duplicate => cases hdra
  | previewed =>
    cases hbui.1
    rfl
  | _ => rfl

def Command.ids : Command Id Field Value → List Id
  | .create id _ | .delete id _ => [id]
  | .deleteAll drawings => drawings.map Prod.fst
  | .move change | .propertyChange change | .previewed change _ => [change.id]
  | .batchMove changes | .batchPropertyChange changes => changes.map Change.id
  | .duplicate _ _ => []

theorem perform_ids : (command.perform uid w).1.ids = command.ids := by
  cases command <;> rfl

omit [DecidableEq Id] in
/-- None of them is still to be drawn. -/
theorem Command.Built.ids (hbui : command.Built uid w) (hkno : w.Known uid) {n : Nat} (hn : w.drawn ≤ n) :
    uid n ∉ command.ids := by
  have hnone := hkno n hn
  have hcaptured : ∀ change : Change Id Field Value, change.Captures w.store → uid n ≠ change.id := by
    rintro change ⟨drawing, hdrawing, -⟩ hsame
    rw [hsame, hdrawing] at hnone
    cases hnone
  cases command with
  | create => simpa [Command.ids] using hbui.2 n hn
  | delete id drawing =>
    intro hmem
    rw [mem_singleton.mp hmem, show w.store id = some drawing from hbui] at hnone
    cases hnone
  | deleteAll =>
    intro hmem
    obtain ⟨entry, hent, hsame⟩ := mem_map.mp hmem
    rw [← hsame, hbui.2 entry hent] at hnone
    cases hnone
  | move change | propertyChange change => simpa [Command.ids] using hcaptured change hbui
  | batchMove | batchPropertyChange =>
    intro hmem
    obtain ⟨change, hchg, hsame⟩ := mem_map.mp hmem
    exact hcaptured change (hbui.2 change hchg) hsame.symm
  | duplicate => exact not_mem_nil
  | previewed change => simpa [Command.ids] using hcaptured change hbui.2

theorem patch_beside {s : Store Id Field Value} {update : Id × Patch Field Value} {id : Id} (hid : id ∉ [update.1]) :
    s.patch update id = s id := update_of_ne (by simpa using hid) _ _

/-- A command leaves the drawings it was not built for alone, but for a copy it makes. -/
theorem execute_beside {id : Id} (hid : id ∉ command.ids) (hcopy : command.isDuplicate = true → id ≠ uid w.drawn) :
    (command.execute uid w).2.store id = w.store id := by
  cases command with
  | create | delete => exact update_of_ne (by simpa [Command.ids] using hid) _ _
  | deleteAll drawings =>
    show ((drawings.map Prod.fst).foldl Store.remove w.store) id = _
    rw [foldl_map]
    exact local_remove.foldl_beside drawings hid _
  | move | propertyChange => exact patch_beside hid
  | batchMove changes | batchPropertyChange changes =>
    show ((changes.map Change.forth).foldl Store.patch w.store) id = _
    rw [foldl_map]
    have hforth : Local Change.id fun (s : Store Id Field Value) change => s.patch change.forth := local_patch fun _ => rfl
    exact hforth.foldl_beside changes hid _
  | duplicate => exact update_of_ne (hcopy rfl) _ _
  | previewed change recorded =>
    cases recorded
    · rfl
    · exact patch_beside hid

theorem execute_drawn : (command.execute uid w).2.drawn = if command.isDuplicate then w.drawn + 1 else w.drawn := by
  cases command with
  | previewed change recorded => cases recorded <;> rfl
  | _ => rfl

theorem perform_drawn : w.drawn ≤ (command.perform uid w).2.drawn := by
  unfold Command.perform
  rw [execute_drawn]
  split
  · exact le_succ _
  · exact le_refl _

/-- The drawings still have no id that is to be drawn. -/
theorem perform_known (huid : Function.Injective uid) (hbui : command.Built uid w) (hkno : w.Known uid) :
    (command.perform uid w).2.Known uid := by
  intro n hn
  have hbef : w.drawn ≤ n := perform_drawn.trans hn
  have hids := hbui.ids hkno hbef
  have hpreview : command.preview w.store (uid n) = w.store (uid n) := by
    cases command with
    | previewed => exact patch_beside hids
    | _ => rfl
  refine (execute_beside (w := { w with store := command.preview w.store }) hids fun hcopy hsame => ?_).trans
    (hpreview.trans (hkno n hbef))
  unfold Command.perform at hn
  rw [execute_drawn, if_pos hcopy, huid hsame] at hn
  exact not_succ_le_self _ hn

end

/-! ## Many commands -/

section

variable {uid : Nat → Id} {w : World Id Field Value}
  {commands front rest : List (Command Id Field Value)}

theorem performAll_append : performAll uid w (front ++ rest) =
    ((performAll uid w front).1 ++ (performAll uid (performAll uid w front).2 rest).1,
      (performAll uid (performAll uid w front).2 rest).2) := by
  induction front generalizing w with
  | nil => rfl
  | cons command front ih =>
    simp only [cons_append, performAll, ih]

theorem performAll_draws : (performAll uid w commands).1.map Command.isDuplicate = commands.map Command.isDuplicate := by
  induction commands generalizing w with
  | nil => rfl
  | cons command rest ih =>
    have hfs : (command.perform uid w).1.isDuplicate = command.isDuplicate := by cases command <;> rfl
    exact congrArg₂ cons hfs ih

theorem BuiltAll.append (h : BuiltAll uid w (front ++ rest)) :
    BuiltAll uid w front ∧ BuiltAll uid (performAll uid w front).2 rest := by
  induction front generalizing w with
  | nil => exact ⟨trivial, h⟩
  | cons command front ih =>
    obtain ⟨hfrt, hrest⟩ := ih h.2
    exact ⟨⟨h.1, hfrt⟩, hrest⟩

variable (huid : Function.Injective uid) (hbui : BuiltAll uid w commands) (hkno : w.Known uid)
include huid hbui hkno

theorem performAll_known : (performAll uid w commands).2.Known uid := by
  induction commands generalizing w with
  | nil => exact hkno
  | cons command rest ih => exact ih hbui.2 (perform_known huid hbui.1 hkno)

/-- **The undos of many commands restore the drawings** they began with. -/
theorem undoAll_performAll (zIndex : Drawing Field Value → Int) :
    (performAll uid w commands).1.reverse.foldl (fun s command => command.undo zIndex s)
    (performAll uid w commands).2.store = w.store := by
  induction commands generalizing w with
  | nil => rfl
  | cons command rest ih =>
    have hundo := ih hbui.2 (perform_known huid hbui.1 hkno)
    unfold performAll
    dsimp only
    rw [reverse_cons, foldl_append, hundo]
    exact perform_undo hbui.1 hkno

omit huid hbui hkno in
theorem performAll_drawn : w.drawn ≤ (performAll uid w commands).2.drawn := by
  induction commands generalizing w with
  | nil => exact le_refl _
  | cons command rest ih => exact perform_drawn.trans ih

theorem performAll_ids : ∀ command ∈ (performAll uid w commands).1, ∀ n ≥ (performAll uid w commands).2.drawn,
    uid n ∉ command.ids := by
  induction commands generalizing w with
  | nil => exact forall_mem_nil _
  | cons first rest ih =>
    intro command hcmd n hn
    rcases mem_cons.mp hcmd with rfl | hcmd
    · show uid n ∉ (first.perform uid w).1.ids
      rw [perform_ids]
      exact hbui.1.ids hkno (performAll_drawn.trans hn)
    · exact ih hbui.2 (perform_known huid hbui.1 hkno) command hcmd n hn

end

/-! ## Executing again -/

section

variable {uid : Nat → Id} {w v : World Id Field Value} {commands : List (Command Id Field Value)}

/-- The commands are executed again as they are. -/
def replay (uid : Nat → Id) (w : World Id Field Value) (commands : List (Command Id Field Value)) : World Id Field Value :=
  commands.foldl (fun w command => (command.execute uid w).2) w

theorem replay_performAll (hbui : BuiltAll uid w commands) (hdra : ∀ command ∈ commands, command.isDuplicate = false) (n : Nat) :
    (replay uid ⟨w.store, n⟩ (performAll uid w commands).1).store = (performAll uid w commands).2.store := by
  induction commands generalizing w with
  | nil => rfl
  | cons command rest ih =>
    unfold performAll replay
    dsimp only
    rw [foldl_cons, perform_again hbui.1 (hdra command mem_cons_self)]
    exact ih hbui.2 fun other hoth => hdra other (mem_cons_of_mem _ hoth)

variable (huid : Function.Injective uid) {m : Nat} (hids : ∀ command ∈ commands, ∀ n ≥ m, uid n ∉ command.ids)
include huid hids

/-- A copy that was made again stays. -/
theorem replay_copied {n : Nat} (hm : m ≤ n) (hdrawn : n < w.drawn) (hcopy : w.store (uid n) ≠ none) :
    (replay uid w commands).store (uid n) ≠ none := by
  induction commands generalizing w with
  | nil => exact hcopy
  | cons command rest ih =>
    have hbeside := execute_beside (hids command mem_cons_self n hm) fun _ hsame => hdrawn.ne (huid hsame)
    refine ih (fun other hoth => hids other (mem_cons_of_mem _ hoth)) ?_ ?_
    · rw [execute_drawn]
      split
      · exact lt_succ_of_lt hdrawn
      · exact hdrawn
    · rw [hbeside]
      exact hcopy

/-- A duplication makes another copy. -/
theorem replay_copies (hm : m ≤ w.drawn) (hdra : ∃ command ∈ commands, command.isDuplicate = true) :
    ∃ n ≥ m, (replay uid w commands).store (uid n) ≠ none := by
  induction commands generalizing w with
  | nil => exact absurd hdra (by simp)
  | cons command rest ih =>
    have hrest : ∀ other ∈ rest, ∀ n ≥ m, uid n ∉ other.ids := fun other hoth => hids other (mem_cons_of_mem _ hoth)
    cases command with
    | duplicate source =>
      refine ⟨w.drawn, hm, replay_copied huid hrest hm (lt_succ_self _) ?_⟩
      show update w.store (uid w.drawn) (some source) (uid w.drawn) ≠ none
      rw [update_self]
      exact some_ne_none _
    | _ =>
      obtain ⟨other, hoth, hdra⟩ := hdra
      rcases mem_cons.mp hoth with rfl | hoth
      · cases hdra
      refine ih hrest (hm.trans ?_) ⟨other, hoth, hdra⟩
      rw [execute_drawn]
      exact le_refl _

end

/-! ## Sessions -/

section

variable (uid : Nat → Id) (zIndex : Drawing Field Value → Int) (maxSize : Nat)

section
variable (start : World Id Field Value) (commands : List (Command Id Field Value))

/-- The commands are executed one after the other, with nothing behind them. -/
def Session.run : Session Id Field Value :=
  commands.foldl (Session.execute uid maxSize) ⟨start, [], []⟩

/-- A push that drops the oldest beyond the limit. -/
theorem push_take {C : Type} (command : C) (stack : List C) :
    (if (command :: stack.take maxSize).length > maxSize then (command :: stack.take maxSize).dropLast
      else command :: stack.take maxSize) = (command :: stack).take maxSize := by
  rw [length_cons, length_take]
  split
  · rename_i hfull
    rw [dropLast_eq_take, length_cons, length_take, Nat.min_eq_left (by omega), Nat.add_sub_cancel]
    cases maxSize with
    | zero => rfl
    | succ => rw [take_succ_cons, take_succ_cons, take_take, Nat.min_eq_left (le_succ _)]
  · rename_i hroom
    rw [take_of_length_le (by omega), take_of_length_le (by rw [length_cons]; omega)]

theorem run_eq :
    Session.run uid maxSize start commands =
      ⟨(performAll uid start commands).2, (performAll uid start commands).1.reverse.take maxSize, []⟩ := by
  induction commands using reverseRecOn with
  | nil => simp [Session.run, performAll]
  | append_singleton front command ih =>
    unfold Session.run at ih ⊢
    rw [foldl_concat, ih, performAll_append, reverse_append]
    exact congrArg (Session.mk _ · []) (push_take maxSize _ _)

end

theorem undo_iterate (world : World Id Field Value) (done rest later : List (Command Id Field Value)) :
    (Session.undo zIndex)^[done.length] ⟨world, done ++ rest, later⟩ =
      ⟨{ world with store := done.foldl (fun s command => command.undo zIndex s) world.store }, rest, done.reverse ++ later⟩ := by
  induction done generalizing world later with
  | nil => rfl
  | cons command done ih =>
    rw [length_cons, iterate_succ_apply]
    refine (ih _ _).trans ?_
    rw [reverse_cons, append_assoc]
    rfl

theorem redo_iterate (world : World Id Field Value) (later earlier rest : List (Command Id Field Value)) :
    ((Session.redo uid)^[later.length] ⟨world, earlier, later ++ rest⟩).world = replay uid world later := by
  induction later generalizing world earlier with
  | nil => rfl
  | cons command later ih =>
    rw [length_cons, iterate_succ_apply]
    exact ih _ _

end

/-- What is restored by as many undos as there are last commands, and by as many redos behind them. -/
def Restores (uid : Nat → Id) (zIndex : Drawing Field Value → Int) (maxSize : Nat) (start : World Id Field Value)
    (front last : List (Command Id Field Value)) : Prop :=
  let done := Session.run uid maxSize start (front ++ last)
  let undone := (Session.undo zIndex)^[last.length] done
  undone.world.store = (Session.run uid maxSize start front).world.store
    ∧ ((Session.redo uid)^[last.length] undone).world.store = done.world.store

/-- **Undos restore the drawings; redos do, exactly if no duplication is among the last commands.** -/
theorem redo_restores_iff {uid : Nat → Id} {zIndex : Drawing Field Value → Int} {maxSize : Nat} {start : World Id Field Value}
    {front last : List (Command Id Field Value)} (huid : Function.Injective uid) (hstart : start.Known uid)
    (hbui : BuiltAll uid start (front ++ last))
    (hdepth : last.length ≤ (Session.run uid maxSize start (front ++ last)).undoStack.length) :
    Restores uid zIndex maxSize start front last ↔ ∀ command ∈ last, command.isDuplicate = false := by
  obtain ⟨hfrt, hlast⟩ := hbui.append
  have hkno := performAll_known huid hfrt hstart
  unfold Restores
  rw [run_eq] at hdepth ⊢
  rw [run_eq, performAll_append]
  rw [performAll_append] at hdepth
  generalize performAll uid start front = before at hdepth hlast hkno ⊢
  have hundo := undoAll_performAll huid hlast hkno zIndex
  have haft := performAll_known huid hlast hkno
  have hids := performAll_ids huid hlast hkno
  have haga := replay_performAll hlast
  have hdra : (performAll uid before.2 last).1.map Command.isDuplicate = last.map Command.isDuplicate := performAll_draws
  generalize performAll uid before.2 last = executed at hdepth hundo haft hids haga hdra ⊢
  have hlng : last.length = executed.1.reverse.length := by
    rw [length_reverse, ← length_map Command.isDuplicate, ← hdra, length_map]
  -- the last commands are on top of the stack
  rw [length_take, reverse_append, length_append, hlng] at hdepth
  dsimp only
  rw [reverse_append, take_append, take_of_length_le (by omega), hlng, undo_iterate, reverse_reverse,
    length_reverse, redo_iterate, hundo]
  refine ⟨fun h => ?_, fun hnone => ⟨rfl, haga hnone _⟩⟩
  by_contra hcopies
  have hdrawn : true ∈ last.map Command.isDuplicate := by simpa using hcopies
  rw [← hdra] at hdrawn
  obtain ⟨copying, hmem, hcopying⟩ := mem_map.mp hdrawn
  obtain ⟨n, hn, hcopy⟩ := replay_copies (w := ⟨before.2.store, executed.2.drawn⟩) huid hids (le_refl _) ⟨copying, hmem, hcopying⟩
  exact hcopy ((congrFun h.2 (uid n)).trans (haft n hn))

/-! ## A duplication and a move of the copy -/

/-- Ids below ten are taken from elsewhere. -/
def drawnId (n : Nat) : Nat := n + 10

theorem drawnId_injective : Function.Injective drawnId := fun _ _ h => Nat.add_right_cancel h

def noDrawings : World Nat Unit Nat := ⟨fun _ => none, 0⟩

/-- A drawing with one property. -/
def flatLine (value : Nat) : Drawing Unit Nat := fun _ => value

/-- A drawing is made and moved, and a second one is made and changed with it in a batch. -/
def lineChanges : List (Command Nat Unit Nat) :=
  [.move ⟨1, fun _ => some 6, fun _ => some 5⟩, .create 2 (flatLine 7),
    .batchPropertyChange [⟨1, fun _ => some 8, fun _ => some 6⟩, ⟨2, fun _ => some 9, fun _ => some 7⟩]]

theorem created_restores : Restores drawnId (fun _ => 0) 200 noDrawings [.create 1 (flatLine 5)] lineChanges := by
  have hfree : ∀ n id, id < 10 → drawnId n ≠ id := fun n id hlow hsame => absurd (show n + 10 = id from hsame) (by omega)
  have hbui : BuiltAll drawnId noDrawings ([.create 1 (flatLine 5)] ++ lineChanges) := by
    refine ⟨⟨rfl, fun n _ => hfree n 1 (by decide)⟩, ⟨flatLine 5, rfl, fun _ => rfl⟩, ⟨rfl, fun n _ => hfree n 2 (by decide)⟩,
      ⟨by decide, forall_mem_cons.mpr ⟨?_, forall_mem_singleton.mpr ?_⟩⟩, trivial⟩
    · exact ⟨flatLine 6, rfl, fun _ => rfl⟩
    · exact ⟨flatLine 7, rfl, fun _ => rfl⟩
  exact (redo_restores_iff drawnId_injective (fun _ _ => rfl) hbui (by decide)).mpr (by decide)

/-- The copy is drawn under id ten, and under id eleven when it is made again; the move is then of no drawing. -/
theorem duplicate_not_restored :
    let last : List (Command Nat Unit Nat) :=
      [.duplicate (flatLine 5) none, .move ⟨10, fun _ => some 6, fun _ => some 5⟩]
    Function.Injective drawnId ∧ noDrawings.Known drawnId ∧ BuiltAll drawnId noDrawings ([.create 1 (flatLine 5)] ++ last)
      ∧ last.length ≤ (Session.run drawnId 200 noDrawings ([.create 1 (flatLine 5)] ++ last)).undoStack.length
      ∧ ¬Restores drawnId (fun _ => 0) 200 noDrawings [.create 1 (flatLine 5)] last := by
  refine ⟨drawnId_injective, fun _ _ => rfl, ⟨⟨rfl, fun n _ hsame => ?_⟩, ⟨rfl, 1, rfl⟩, ⟨flatLine 5, rfl, fun _ => rfl⟩, trivial⟩,
    by decide, fun h => ?_⟩
  · exact absurd (show n + 10 = 1 from hsame) (by omega)
  · exact Bool.noConfusion (congrArg isSome (congrFun h.2 10))

end MarketLens.Drawings
