import MarketLens.Lib.Assoc
import MarketLens.Pine.Stateful.Shown

/-!
# Maps of a script

A map is an association list on the heap. Its methods evaluate their arguments first, and what
an argument evaluates may use the map as well: a put looks for its key before its value is
evaluated.
-/

namespace MarketLens.Pine

open Programs List Except Assoc Program Setting

/-! ## Calls on a machine -/

/-- How the arguments of a call are evaluated. -/
abbrev Evaluation : Type := Nat → VmState → Option (Except Stop StatefulValue × VmState)

def Vm.callMachine (vm : Vm) (arguments : Evaluation) : Machine CallOp.Answer VmState
  | .machine op, s => some (vm.answer op s)
  | .argument k, s => arguments k s

section Calls

variable {vm : Vm} {arguments : Evaluation} {α : Type} {s s' : VmState}

theorem run_lift (code : MachineM α) (s : VmState) :
    Program.run (vm.callMachine arguments) (liftM code : CallM α).run s = Program.run vm.machine code.run s := by
  refine (run_translate _ _ code.run s).trans (congrArg (fun machine => run machine code.run s) ?_)
  funext op s
  exact run_request _ _ _

theorem run_argumentAt (k : Nat) (s : VmState) :
    Program.run (vm.callMachine arguments) (argumentAt k).run s = arguments k s := run_request _ _ _

end Calls

/-! ## The methods of a map -/

section Methods

variable {vm : Vm} {arguments : Evaluation} {frame : CallFrame} {ref : Ref} {s s₁ s₂ s' : VmState}
  {keyType valueType : String} {entries : List (StatefulValue × StatefulValue)} {key value : StatefulValue}

theorem run_loadMap (hmap : s.load ref = some (.map keyType valueType entries)) :
    Program.run vm.machine (loadMap ref).run s = some (.ok (keyType, valueType, entries), s) := by
  have hload : run vm.machine (load ref).run s = some (.ok (s.load ref), s) := rfl
  unfold loadMap
  rw [run_except_bind, hload, hmap]
  rfl

theorem run_storeMap (hmap : s.load ref = some (.map keyType valueType entries))
    (entries' : List (StatefulValue × StatefulValue)) :
    Program.run vm.machine (storeMap ref entries').run s = some (.ok (), s.store ref (.map keyType valueType entries')) := by
  unfold storeMap
  rw [run_except_bind, run_loadMap hmap]
  rfl

/-- The entries of a map on the heap. -/
def VmState.entriesAt (s : VmState) (ref : Ref) : List (StatefulValue × StatefulValue) :=
  match s.load ref with
  | some (.map _ _ entries) => entries
  | _ => []

theorem entriesAt_of_load (hmap : s.load ref = some (.map keyType valueType entries)) : s.entriesAt ref = entries := by
  unfold VmState.entriesAt
  rw [hmap]

theorem load_store_self {node node' : StatefulNode} (h : s.load ref = some node) : (s.store ref node').load ref = some node' := by
  rw [load_store, h, if_pos ⟨rfl, rfl⟩]

/-- What is on the heap stays there when something is put beside it. -/
theorem load_alloc {region : Region} {node node' : StatefulNode} (h : s.load ref = some node) :
    (s.alloc region node').2.load ref = some node := by
  unfold VmState.alloc VmState.load put
  dsimp only
  by_cases hreg : ref.region = region
  · rw [if_pos hreg, ← hreg]
    exact (List.getElem?_append_left (List.getElem?_eq_some_iff.mp h).1).trans h
  · rw [if_neg hreg]
    exact h

section
variable (vm : Vm) (arguments : Evaluation) (frame : CallFrame)

def KeyIs (s : VmState) (key : StatefulValue) (s₁ : VmState) :
    Prop := Program.run (vm.callMachine arguments) (frame.callArgument "key" 0).run s = some (.ok key, s₁)

/-- The value of a put, and the state its evaluation leaves. -/
def ValueIs (s : VmState) (value : StatefulValue) (s₁ : VmState) :
    Prop := Program.run (vm.callMachine arguments) (frame.callArgument "value" 1).run s = some (.ok value, s₁)

/-- A method of a map runs. -/
def Calls (name : String) (ref : Ref) (s : VmState)
    (result : Except Stop StatefulValue) (s' : VmState) : Prop :=
  Program.run (vm.callMachine arguments) (frame.evaluateMapMethod name ref).run s = some (result, s')

end

section Calls

variable (hmap : s.load ref = some (.map keyType valueType entries))
include hmap

theorem calls_size : Calls vm arguments frame "size" ref s (.ok (.number (some (entries.length : Decimal)))) s := by
  refine (run_except_bind _ (liftM (loadMap ref)) _ s).trans ?_
  rw [run_lift, run_loadMap hmap]
  rfl

theorem calls_clear : Calls vm arguments frame "clear" ref s (.ok .na) (s.store ref (.map keyType valueType [])) := by
  refine (run_except_bind _ (liftM (storeMap ref [])) _ s).trans ?_
  rw [run_lift, run_storeMap hmap]
  rfl

theorem calls_copy :
    Calls vm arguments frame "copy" ref s (.ok (.map (s.alloc vm.region (.map keyType valueType entries)).1))
      (s.alloc vm.region (.map keyType valueType entries)).2 := by
  refine (run_except_bind _ (liftM (loadMap ref)) _ s).trans ?_
  rw [run_lift, run_loadMap hmap]
  rfl

end Calls

variable (hkey : KeyIs vm arguments frame s key s₁) (hmap : s₁.load ref = some (.map keyType valueType entries))
include hkey hmap

theorem run_keyMethod {β : Type} (rest : StatefulValue → String × String × List (StatefulValue × StatefulValue) → CallM β) :
    Program.run (vm.callMachine arguments) (frame.callArgument "key" 0 >>= fun key => liftM (loadMap ref) >>= rest key).run s =
      Program.run (vm.callMachine arguments) (rest key (keyType, valueType, entries)).run s₁ := by
  rw [run_except_bind, hkey]
  refine (run_except_bind _ (liftM (loadMap ref)) _ s₁).trans ?_
  rw [run_lift, run_loadMap hmap]
  rfl

theorem calls_contains : Calls vm arguments frame "contains" ref s
      (.ok (.bool (Assoc.find (statefulEqual frame.library) entries key).isSome)) s₁ := by
  have hfnd : (frame.statefulMapIndex entries key).isSome = (find (statefulEqual frame.library) entries key).isSome := by
    rw [find_isSome]
    exact findIdx?_isSome
  rw [← hfnd]
  exact run_keyMethod hkey hmap _

theorem calls_get :
    Calls vm arguments frame "get" ref s (.ok ((Assoc.find (statefulEqual frame.library) entries key).getD .na)) s₁ := by
  have hfnd : ((frame.statefulMapIndex entries key).bind fun k => (entries[k]?).map Prod.snd) =
      find (statefulEqual frame.library) entries key := by
    rw [find_eq_place]
    exact (Option.map_bind ..).symm
  rw [← hfnd]
  exact run_keyMethod hkey hmap _

theorem calls_remove :
    ∃ result s', Calls vm arguments frame "remove" ref s (.ok result) s' ∧
      s'.load ref = some (.map keyType valueType (Assoc.remove (statefulEqual frame.library) entries key)) := by
  cases hpl : frame.statefulMapIndex entries key with
  | none =>
    refine ⟨.na, s₁, (run_keyMethod hkey hmap _).trans ?_, ?_⟩
    · dsimp only
      rw [hpl]
      rfl
    · have hpl : place (statefulEqual frame.library) entries key = none := hpl
      unfold remove
      rw [hpl]
      exact hmap
  | some k =>
    refine ⟨((entries[k]?).map Prod.snd).getD .na, s₁.store ref (.map keyType valueType (entries.eraseIdx k)),
      (run_keyMethod hkey hmap _).trans ?_, ?_⟩
    · dsimp only
      rw [hpl]
      refine (run_except_bind _ (liftM (storeMap ref (entries.eraseIdx k))) _ s₁).trans ?_
      rw [run_lift, run_storeMap hmap]
      rfl
    · have hpl : place (statefulEqual frame.library) entries key = some k := hpl
      unfold remove
      rw [hpl]
      exact load_store_self hmap

theorem calls_put {entries₂ : List (StatefulValue × StatefulValue)} {keyType₂ valueType₂ : String}
    (hvalue : ValueIs vm arguments frame s₁ value s₂)
    (hmap₂ : s₂.load ref = some (.map keyType₂ valueType₂ entries₂))
    (hpl : frame.statefulMapIndex entries₂ key = frame.statefulMapIndex entries key) :
    ∃ s', Calls vm arguments frame "put" ref s (.ok .na) s' ∧
      s'.load ref = some (.map keyType₂ valueType₂ (Assoc.insert (statefulEqual frame.library) entries₂ key value)) := by
  have hinse : insert (statefulEqual frame.library) entries₂ key value =
      putAt entries₂ (frame.statefulMapIndex entries key) key value :=
    congrArg (fun found => putAt entries₂ found key value) hpl
  refine ⟨s₂.store ref (.map keyType₂ valueType₂ (insert (statefulEqual frame.library) entries₂ key value)), ?_,
    load_store_self hmap₂⟩
  refine (run_keyMethod hkey hmap _).trans ?_
  refine (run_except_bind _ (frame.callArgument "value" 1) _ s₁).trans ?_
  rw [hvalue]
  refine (run_except_bind _ (liftM (loadMap ref)) _ s₂).trans ?_
  rw [run_lift, run_loadMap hmap₂, hinse]
  cases hfnd : frame.statefulMapIndex entries key with
  | none =>
    refine (run_except_bind _ (liftM (storeMap ref (entries₂ ++ [(key, value)]))) _ s₂).trans ?_
    rw [run_lift, run_storeMap hmap₂]
    rfl
  | some k =>
    rw [hfnd] at hpl
    obtain ⟨hbnd, -⟩ := findIdx?_eq_some_iff_getElem.mp hpl
    have hent : entries₂[k]? = some entries₂[k] := getElem?_eq_getElem hbnd
    unfold putAt
    dsimp only [Option.bind_some]
    rw [hent]
    refine (run_except_bind _ (liftM (storeMap ref (entries₂.set k (entries₂[k].1, value)))) _ s₂).trans ?_
    rw [run_lift, run_storeMap hmap₂]
    rfl

end Methods

/-! ## What a method leaves -/

/-- There is a map at an address, and its keys are distinct. -/
def Tabled (library : Library) (used : StatefulValue → Prop) (ref : Ref) (s : VmState) : Prop :=
  ∃ keyType valueType entries, s.load ref = some (.map keyType valueType entries) ∧
    Assoc.Distinct (statefulEqual library) used entries

/-- A put is given a key in use, and the evaluation of its value leaves the place of the key. -/
def SteadyPut (vm : Vm) (used : StatefulValue → Prop) (ref : Ref) (arguments : Evaluation) (frame : CallFrame)
    (s : VmState) : Prop :=
  ∀ key s₁, KeyIs vm arguments frame s key s₁ → used key ∧ ∀ value s₂, ValueIs vm arguments frame s₁ value s₂ →
    frame.statefulMapIndex (s₂.entriesAt ref) key = frame.statefulMapIndex (s₁.entriesAt ref) key

section Keeps

variable {vm : Vm} {used : StatefulValue → Prop} {arguments : Evaluation} {frame : CallFrame} {ref : Ref}
  {s s' : VmState} {name : String} {I : VmState → Prop}

theorem callArgument_keeps (hinsi : ∀ k s result s', arguments k s = some (result, s') → I s → I s')
    {index : Nat} {result : Except Stop StatefulValue}
    (hrun : Program.run (vm.callMachine arguments) (frame.callArgument name index).run s = some (result, s'))
    (hs : I s) : I s' := by
  unfold CallFrame.callArgument at hrun
  split at hrun
  · rw [run_argumentAt] at hrun
    exact hinsi _ _ _ _ hrun hs
  · cases hrun
    exact hs

theorem Tabled.store (h : Tabled frame.library used ref s) {keyType valueType : String}
    {entries : List (StatefulValue × StatefulValue)}
    (hdist : Assoc.Distinct (statefulEqual frame.library) used entries) :
    Tabled frame.library used ref (s.store ref (.map keyType valueType entries)) := by
  obtain ⟨_, _, _, hmap, -⟩ := h
  exact ⟨keyType, valueType, entries, load_store_self hmap, hdist⟩

/-- **Every method of a map keeps its keys distinct.** -/
theorem Tabled.call (hinsi : ∀ k s result s', arguments k s = some (result, s') →
      Tabled frame.library used ref s → Tabled frame.library used ref s')
    (hput : name = "put" → SteadyPut vm used ref arguments frame s) {result : Except Stop StatefulValue}
    (hcall : Calls vm arguments frame name ref s result s') (h : Tabled frame.library used ref s) :
    Tabled frame.library used ref s' := by
  obtain ⟨keyType, valueType, entries, hmap, hdist⟩ := h
  have hstays : ∀ node, Tabled frame.library used ref (s.alloc vm.region node).2 := fun node =>
    ⟨keyType, valueType, entries, load_alloc hmap, hdist⟩
  have hload : run (vm.callMachine arguments) (liftM (loadMap ref) : CallM _).run s = _ := run_lift (loadMap ref) s
  rw [run_loadMap hmap] at hload
  unfold Calls CallFrame.evaluateMapMethod at hcall
  split at hcall
  · rw [run_except_bind, hload] at hcall
    cases hcall
    exact ⟨keyType, valueType, entries, hmap, hdist⟩
  · rw [run_except_bind, run_lift, run_storeMap hmap] at hcall
    cases hcall
    exact ⟨keyType, valueType, [], load_store_self hmap, .nil⟩
  · rw [run_except_bind, hload] at hcall
    cases hcall
    exact hstays _
  · rw [run_except_bind, hload] at hcall
    cases hcall
    exact hstays _
  · rw [run_except_bind, hload] at hcall
    cases hcall
    exact hstays _
  · -- the methods that have a key
    rcases run_except_bind_some hcall with ⟨key, s₁, hkey, hrest⟩ | ⟨stop, hkey, -⟩
    · have h₁ := callArgument_keeps hinsi hkey ⟨keyType, valueType, entries, hmap, hdist⟩
      obtain ⟨keyType₁, valueType₁, entries₁, hmap₁, hdistinct₁⟩ := h₁
      rw [run_except_bind, run_lift, run_loadMap hmap₁] at hrest
      dsimp only [Option.bind_some] at hrest
      have hhere : Tabled frame.library used ref s₁ := ⟨keyType₁, valueType₁, entries₁, hmap₁, hdistinct₁⟩
      split at hrest
      · cases hrest
        exact hhere
      · cases hrest
        exact hhere
      · have hremove : Assoc.Distinct _ _ (remove _ _ key) := hdistinct₁.remove
        unfold remove at hremove
        split at hrest
        · cases hrest
          exact hhere
        · rename_i k hpl
          have hpl : place (statefulEqual frame.library) entries₁ key = some k := hpl
          rw [hpl] at hremove
          rw [run_except_bind, run_lift, run_storeMap hmap₁] at hrest
          cases hrest
          exact hhere.store hremove
      -- `put` evaluates the value before it stores, and the key keeps its place meanwhile
      · obtain ⟨hused, hsteady⟩ := hput rfl key s₁ hkey
        rcases run_except_bind_some hrest with ⟨value, s₂, hvalue, hstore⟩ | ⟨stop, hvalue, -⟩
        · have h₂ := callArgument_keeps hinsi hvalue hhere
          obtain ⟨keyType₂, valueType₂, entries₂, hmap₂, hdistinct₂⟩ := h₂
          have hpl := hsteady value s₂ hvalue
          rw [entriesAt_of_load hmap₁, entriesAt_of_load hmap₂] at hpl
          obtain ⟨after, haft, hnow⟩ := calls_put hkey hmap₁ hvalue hmap₂ hpl
          cases hcall.symm.trans haft
          exact ⟨keyType₂, valueType₂, _, hnow, hdistinct₂.insert hused⟩
        · exact callArgument_keeps hinsi hvalue hhere
      · cases hrest
        exact hhere
    · exact callArgument_keeps hinsi hkey ⟨keyType, valueType, entries, hmap, hdist⟩

end Keeps

/-! ## When keys are the same -/

/-- What a value that is no text stands for as a key: an address with its kind, or a number. -/
def StatefulValue.denotes : StatefulValue → Option ((String × Ref) ⊕ Decimal)
  | .array ref => some (.inl ("array", ref))
  | .map ref => some (.inl ("map", ref))
  | .matrix ref => some (.inl ("matrix", ref))
  | .object ref => some (.inl ("object", ref))
  | .number value => value.map .inr
  | .bool value => some (.inr (if value then 1 else 0))
  | .na | .string _ | .color _ | .tuple _ | .record .. | .plot _ => none

section Same

variable {library : Library} {a b c : StatefulValue}

/-- Nothing is the same as `na`. -/
theorem statefulEqual_na : statefulEqual library a .na = false := by
  cases a <;> rfl

/-- Texts are the same as what is printed like them. -/
theorem statefulEqual_text (h : a.isText = true ∨ b.isText = true) :
    statefulEqual library a b = true ↔
      a ≠ .na ∧ b ≠ .na ∧ statefulValueText library a "" = statefulValueText library b "" := by
  cases a <;> cases b <;> simp_all [statefulEqual, StatefulValue.isText]

/-- Other values are the same if they stand for the same. -/
theorem statefulEqual_denotes (ha : a.isText = false) (hb : b.isText = false) :
    statefulEqual library a b = true ↔ a.denotes.isSome = true ∧ a.denotes = b.denotes := by
  rcases a with _ | (_ | x) | _ | _ | _ | _ | _ | _ | _ | _ | _ | _ <;>
    rcases b with _ | (_ | y) | _ | _ | _ | _ | _ | _ | _ | _ | _ | _ <;>
    simp_all [statefulEqual, StatefulValue.isText, StatefulValue.denotes, hasRef, refOf, statefulNumeric, Point.test]

theorem statefulEqual_comm : statefulEqual library a b = true ↔ statefulEqual library b a = true := by
  by_cases htext : a.isText = true ∨ b.isText = true
  · rw [statefulEqual_text htext, statefulEqual_text htext.symm]
    constructor <;> rintro ⟨ha, hb, htext⟩ <;> exact ⟨hb, ha, htext.symm⟩
  · rw [not_or, Bool.not_eq_true, Bool.not_eq_true] at htext
    rw [statefulEqual_denotes htext.1 htext.2, statefulEqual_denotes htext.2 htext.1]
    constructor <;> rintro ⟨hsome, hsame⟩ <;> exact ⟨hsame ▸ hsome, hsame.symm⟩

/-- A value is the same as itself unless it stands for nothing: `na` does not, nor an unusable number, a tuple, a
record or a plot. -/
theorem statefulEqual_self : statefulEqual library a a = true ↔ a.isText = true ∨ a.denotes.isSome = true := by
  by_cases htext : a.isText = true
  · rw [statefulEqual_text (.inl htext)]
    have hna : a ≠ .na := by
      rintro rfl
      cases htext
    exact ⟨fun _ => .inl htext, fun _ => ⟨hna, hna, rfl⟩⟩
  · rw [Bool.not_eq_true] at htext
    rw [statefulEqual_denotes htext htext, htext]
    simp

/-- Keys are compared as they should be where all of them are texts, or none is. -/
theorem statefulEqual_trans (hkinds : a.isText = b.isText ∧ b.isText = c.isText)
    (hab : statefulEqual library a b = true) (hbc : statefulEqual library b c = true) : statefulEqual library a c = true := by
  obtain ⟨hfs, hsec⟩ := hkinds
  by_cases htext : b.isText = true
  · rw [htext] at hfs hsec
    obtain ⟨ha, -, hab⟩ := (statefulEqual_text (.inl hfs)).mp hab
    obtain ⟨-, hc, hbc⟩ := (statefulEqual_text (.inl htext)).mp hbc
    exact (statefulEqual_text (.inl hfs)).mpr ⟨ha, hc, hab.trans hbc⟩
  · rw [Bool.not_eq_true] at htext
    rw [htext] at hfs hsec
    obtain ⟨ha, hab⟩ := (statefulEqual_denotes hfs htext).mp hab
    obtain ⟨-, hbc⟩ := (statefulEqual_denotes htext hsec.symm).mp hbc
    exact (statefulEqual_denotes hfs hsec.symm).mpr ⟨ha, hab.trans hbc⟩

end Same

/-! ## Runs -/

section Runs

variable (vm : Vm) (used : StatefulValue → Prop)

/-- What may happen to the map at an address: code that leaves it alone, whichever VM runs it, and calls of its
methods whose arguments may use it too. The VM of these calls is one throughout. -/
inductive MapRun (ref : Ref) : VmState → VmState → Prop where
  | other {s s' : VmState} (same : s'.load ref = s.load ref) : MapRun ref s s'
  | trans {s s' s'' : VmState} (first : MapRun ref s s') (second : MapRun ref s' s'') : MapRun ref s s''
  | call {s s' : VmState} {arguments : Evaluation} {frame : CallFrame} {name : String}
      {result : Except Stop StatefulValue} (setting : frame.setting = vm.setting)
      (inside : ∀ k s result s', arguments k s = some (result, s') → MapRun ref s s')
      (steady : name = "put" → SteadyPut vm used ref arguments frame s)
      (calls : Calls vm arguments frame name ref s result s') : MapRun ref s s'

/-- A map of a run: made new or as a copy, and changed since. -/
inductive MapAt : Ref → VmState → Prop where
  | new {arguments : Evaluation} {frame : CallFrame} {ref : Ref} {s s' : VmState}
      (makes : Program.run (vm.callMachine arguments) frame.constructMap.run s = some (.ok (.map ref), s')) : MapAt ref s'
  | copy {arguments : Evaluation} {frame : CallFrame} {ref other : Ref} {s s' : VmState} (of : MapAt ref s)
      (copies : Calls vm arguments frame "copy" ref s (.ok (.map other)) s') : MapAt other s'
  | run {ref : Ref} {s s' : VmState} (of : MapAt ref s) (runs : MapRun vm used ref s s') : MapAt ref s'

/-- The value a key of a map stands for. -/
def VmState.valueAt (library : Library) (s : VmState) (ref : Ref) (key : StatefulValue) : Option StatefulValue :=
  Assoc.find (statefulEqual library) (s.entriesAt ref) key

/-- The keys of a map. -/
def VmState.keysAt (s : VmState) (ref : Ref) : List StatefulValue := (s.entriesAt ref).map Prod.fst

/-- The map at an address is a finite map: its keys are distinct, and each method does to it what its name says.
An operation with arguments is about the map their evaluation leaves. -/
structure FiniteMap (ref : Ref) (s : VmState) : Prop where
  distinct : (s.keysAt ref).Pairwise fun a b => a ≠ b ∧ ¬ statefulEqual vm.setting.library a b = true
  keys : ∀ key, (s.valueAt vm.setting.library ref key).isSome = true ↔
    ∃ held ∈ s.keysAt ref, statefulEqual vm.setting.library held key = true
  size : ∀ arguments frame,
    Calls vm arguments frame "size" ref s (.ok (.number (some ((s.keysAt ref).length : Decimal)))) s
  get : ∀ arguments frame key s₁, frame.setting = vm.setting → KeyIs vm arguments frame s key s₁ →
    MapRun vm used ref s s₁ →
    Calls vm arguments frame "get" ref s (.ok ((s₁.valueAt vm.setting.library ref key).getD .na)) s₁
  contains : ∀ arguments frame key s₁, frame.setting = vm.setting → KeyIs vm arguments frame s key s₁ →
    MapRun vm used ref s s₁ →
    Calls vm arguments frame "contains" ref s (.ok (.bool (s₁.valueAt vm.setting.library ref key).isSome)) s₁
  put : ∀ arguments frame key value s₁ s₂, frame.setting = vm.setting → KeyIs vm arguments frame s key s₁ →
    ValueIs vm arguments frame s₁ value s₂ → MapRun vm used ref s s₁ → MapRun vm used ref s₁ s₂ →
    SteadyPut vm used ref arguments frame s →
    ∃ s', Calls vm arguments frame "put" ref s (.ok .na) s' ∧
      s'.valueAt vm.setting.library ref key = some value ∧
      ∀ other, used other → ¬ statefulEqual vm.setting.library key other = true →
        s'.valueAt vm.setting.library ref other = s₂.valueAt vm.setting.library ref other
  remove : ∀ arguments frame key s₁, frame.setting = vm.setting → KeyIs vm arguments frame s key s₁ →
    MapRun vm used ref s s₁ → used key →
    ∃ result s', Calls vm arguments frame "remove" ref s (.ok result) s' ∧
      s'.valueAt vm.setting.library ref key = none ∧
      ∀ other, used other → ¬ statefulEqual vm.setting.library key other = true →
        s'.valueAt vm.setting.library ref other = s₁.valueAt vm.setting.library ref other
  clear : ∀ arguments frame, ∃ s', Calls vm arguments frame "clear" ref s (.ok .na) s' ∧ s'.keysAt ref = []
  copy : ∀ arguments frame, ∃ other s', Calls vm arguments frame "copy" ref s (.ok (.map other)) s' ∧ other ≠ ref ∧
    s'.entriesAt other = s.entriesAt ref ∧ s'.entriesAt ref = s.entriesAt ref

variable {vm used} {ref : Ref} {s s' : VmState}

theorem MapRun.tabled (h : MapRun vm used ref s s')
    (hs : Tabled vm.setting.library used ref s) : Tabled vm.setting.library used ref s' := by
  induction h with
  | other same =>
    obtain ⟨keyType, valueType, entries, hmap, hdist⟩ := hs
    exact ⟨keyType, valueType, entries, same.trans hmap, hdist⟩
  | trans _ _ ihfirst ihsecond => exact ihsecond (ihfirst hs)
  | @call s s' arguments frame name result setting _ steady calls ih =>
    have hlibrary : frame.library = vm.setting.library := congrArg library setting
    rw [← hlibrary] at hs ⊢
    refine hs.call (fun k s result s' hrun hs => ?_) steady calls
    rw [hlibrary] at hs ⊢
    exact ih k s result s' hrun hs

/-- What is put on the heap can be loaded. -/
theorem load_alloc_self (region : Region) (node : StatefulNode) :
    (s.alloc region node).2.load (s.alloc region node).1 = some node := by
  unfold VmState.alloc VmState.load put
  dsimp only
  rw [if_pos rfl, getElem?_append_right (Nat.le_refl _), Nat.sub_self]
  rfl

theorem MapAt.tabled (h : MapAt vm used ref s) : Tabled vm.setting.library used ref s := by
  induction h with
  | @new arguments frame ref s s' makes =>
    unfold CallFrame.constructMap at makes
    rw [run_except_bind, run_lift] at makes
    cases makes
    exact ⟨_, _, [], load_alloc_self _ _, .nil⟩
  | copy of copies ih =>
    obtain ⟨keyType, valueType, entries, hmap, hdist⟩ := ih
    cases copies.symm.trans (calls_copy hmap)
    exact ⟨keyType, valueType, entries, load_alloc_self _ _, hdist⟩
  | run _ runs ih => exact runs.tabled ih

/-- **A map whose keys are compared as they should be is a finite map.** The keys that are put equal themselves, what
equals the same key is equal, and no value of a put moves its key while it is evaluated. -/
theorem maps_are_finite (hself : ∀ key, used key → statefulEqual vm.setting.library key key = true)
    (htrans : ∀ a b c, used a → used b → used c → statefulEqual vm.setting.library a b = true →
      statefulEqual vm.setting.library b c = true → statefulEqual vm.setting.library a c = true)
    (h : MapAt vm used ref s) : FiniteMap vm used ref s := by
  have hprop : Assoc.Proper (statefulEqual vm.setting.library) used :=
    ⟨hself, fun a b _ _ hsame => statefulEqual_comm.mp hsame, htrans⟩
  have htabled := h.tabled
  obtain ⟨keyType, valueType, entries, hmap, hdist⟩ := h.tabled
  have hents := entriesAt_of_load hmap
  have hlng : (s.keysAt ref).length = entries.length := by
    unfold VmState.keysAt
    rw [hents, length_map]
  constructor
  · unfold VmState.keysAt
    rw [hents, pairwise_map]
    refine hdist.apart.imp_of_mem fun {a b} ha _ hapa => ⟨?_, hapa⟩
    intro hsame
    rw [← hsame] at hapa
    exact hapa (hself _ (hdist.used a ha))
  · intro key
    unfold VmState.valueAt VmState.keysAt
    rw [find_isSome, any_eq_true]
    simp
  · intro arguments frame
    rw [hlng]
    exact calls_size hmap
  · intro arguments frame key s₁ hsetting hkey hrun
    obtain ⟨_, _, entries₁, hmap₁, -⟩ := hrun.tabled htabled
    have hcall := calls_get hkey hmap₁
    rw [show frame.library = vm.setting.library from congrArg library hsetting] at hcall
    unfold VmState.valueAt
    rw [entriesAt_of_load hmap₁]
    exact hcall
  · intro arguments frame key s₁ hsetting hkey hrun
    obtain ⟨_, _, entries₁, hmap₁, -⟩ := hrun.tabled htabled
    have hcall := calls_contains hkey hmap₁
    rw [show frame.library = vm.setting.library from congrArg library hsetting] at hcall
    unfold VmState.valueAt
    rw [entriesAt_of_load hmap₁]
    exact hcall
  · intro arguments frame key value s₁ s₂ hsetting hkey hvalue hrun hrun' hsteady
    have hhere := hrun.tabled htabled
    obtain ⟨_, _, entries₁, hmap₁, -⟩ := hhere
    obtain ⟨_, _, entries₂, hmap₂, hdistinct₂⟩ := hrun'.tabled (hrun.tabled htabled)
    obtain ⟨hused, hpl⟩ := hsteady key s₁ hkey
    have hpl := hpl value s₂ hvalue
    rw [entriesAt_of_load hmap₁, entriesAt_of_load hmap₂] at hpl
    obtain ⟨s', hcall, haft⟩ := calls_put hkey hmap₁ hvalue hmap₂ hpl
    rw [show frame.library = vm.setting.library from congrArg library hsetting] at haft
    have hfind : ∀ other, used other → find _ (insert _ entries₂ key value) other = _ :=
      fun other hoth => find_insert hprop hdistinct₂.used hused hoth
    refine ⟨s', hcall, ?_, fun other hoth hapa => ?_⟩
    · unfold VmState.valueAt
      rw [entriesAt_of_load haft, hfind key hused, if_pos (hself key hused)]
    · unfold VmState.valueAt
      rw [entriesAt_of_load haft, entriesAt_of_load hmap₂, hfind other hoth, if_neg hapa]
  · intro arguments frame key s₁ hsetting hkey hrun hused
    obtain ⟨_, _, entries₁, hmap₁, hdistinct₁⟩ := hrun.tabled htabled
    obtain ⟨result, s', hcall, haft⟩ := calls_remove hkey hmap₁
    rw [show frame.library = vm.setting.library from congrArg library hsetting] at haft
    have hfind : ∀ other, used other → find _ (remove _ entries₁ key) other = _ :=
      fun other hoth => find_remove hprop hdistinct₁ hused hoth
    refine ⟨result, s', hcall, ?_, fun other hoth hapa => ?_⟩
    · unfold VmState.valueAt
      rw [entriesAt_of_load haft, hfind key hused, if_pos (hself key hused)]
    · unfold VmState.valueAt
      rw [entriesAt_of_load haft, entriesAt_of_load hmap₁, hfind other hoth, if_neg hapa]
  · intro arguments frame
    refine ⟨_, calls_clear hmap, ?_⟩
    unfold VmState.keysAt
    rw [entriesAt_of_load (load_store_self hmap)]
    rfl
  · intro arguments frame
    refine ⟨_, _, calls_copy hmap, ?_, ?_, ?_⟩
    · intro hsame
      -- the address of the copy is beyond everything on the heap
      have hlng : (s.heap ref.region)[ref.index]? = none := by
        rw [← hsame]
        exact getElem?_eq_none (Nat.le_refl _)
      cases hmap.symm.trans hlng
    · rw [entriesAt_of_load (load_alloc_self _ _), hents]
    · rw [entriesAt_of_load (load_alloc hmap), hents]

end Runs

/-! ## Keys that equal nothing -/

/-- A map, two values for `na`, and what the map says of it. -/
def naKeys : StatefulProgram where
  types := []
  functions := []
  methods := []
  statements := [
    .assign 2 ["held"] "=" (.call 1 (.field (.identifier "map") "new") "" []) false,
    .expr 3 (.call 2 (.field (.identifier "held") "put") "" [("", .identifier "na"), ("", .literal (.number (some 1)))]),
    .expr 4 (.call 3 (.field (.identifier "held") "put") "" [("", .identifier "na"), ("", .literal (.number (some 2)))]),
    .assign 5 ["found"] "=" (.call 4 (.field (.identifier "held") "get") "" [("", .identifier "na")]) false,
    .assign 6 ["count"] "=" (.call 5 (.field (.identifier "held") "size") "" []) false]
  maxBoxes := 50
  maxLines := 50
  maxLabels := 50

def naChart : Vm := chartVm (plainSetting naKeys) [⟨60, 1, 1, 1, 1, 1⟩]

/-- The call of a method with a key and a value. -/
def keyedCall : CallFrame where
  setting := plainSetting naKeys
  call := ⟨2, .field (.identifier "held") "put", "", [("", .identifier "key"), ("", .identifier "value")]⟩
  id := .node 2
  scope := .global

/-- The arguments of the call, evaluated already. -/
def given (key value : StatefulValue) : Evaluation := fun k s => some (.ok (if k = 0 then key else value), s)

def newMap : Ref × VmState := (VmState.new fun _ => []).alloc [] (.map "" "" [])

theorem newMap_at (used : StatefulValue → Prop) : MapAt naChart used newMap.1 newMap.2 :=
  @MapAt.new _ _ (given .na .na) keyedCall _ (.new fun _ => []) _ rfl

theorem given_steady {used : StatefulValue → Prop} {ref : Ref} {key value : StatefulValue} (s : VmState)
    (hused : used key) : SteadyPut naChart used ref (given key value) keyedCall s := by
  intro held s₁ hkey
  have hhere : some (ok key, s) = some (ok held, s₁) := hkey
  cases hhere
  refine ⟨hused, fun given s₂ hvalue => ?_⟩
  have hthere : some (ok value, s) = some (ok given, s₂) := hvalue
  cases hthere
  rfl

/-- A text is put, and the map is finite still. -/
theorem textMap_finite : ∃ ref s, s.keysAt ref = [.string "a"] ∧ FiniteMap naChart (fun key => key.isText = true) ref s := by
  have hself : ∀ key : StatefulValue, key.isText = true → statefulEqual naChart.setting.library key key = true :=
    fun key htext => statefulEqual_self.mpr (.inl htext)
  have hput : Calls naChart (given (.string "a") (.number (some 1))) keyedCall "put" newMap.1 newMap.2 (.ok .na)
      (newMap.2.store newMap.1 (.map "" "" [(.string "a", .number (some 1))])) := rfl
  refine ⟨newMap.1, newMap.2.store newMap.1 (.map "" "" [(.string "a", .number (some 1))]), rfl,
    maps_are_finite hself (fun a b c ha hb hc => statefulEqual_trans ⟨ha.trans hb.symm, hb.trans hc.symm⟩) ?_⟩
  refine (newMap_at _).run (@MapRun.call _ _ _ _ _ (given (.string "a") (.number (some 1))) keyedCall _ _ rfl
    (fun k s result s' hrun => ?_) (fun _ => given_steady _ rfl) hput)
  cases hrun
  exact .other rfl

/-- Two values are put for `na`, and none is found: the map has two entries then. -/
theorem naKey_never_found :
    (∃ s, runProgram 6 (plainSetting naKeys) naChart.candles = some (.ok (), s) ∧
      ((s.memory.cells .global "found").map fun cell => cell.value.isNa) = some true ∧
      ((s.memory.cells .global "count").map fun cell => statefulNumeric cell.value) = some (some 2)) ∧
    ¬ ∀ ref s, MapAt naChart (fun _ => True) ref s → FiniteMap naChart (fun _ => True) ref s := by
  constructor
  · have hexec : ((runProgram 6 (plainSetting naKeys) naChart.candles).any fun after =>
        (match after.1 with
          | .ok () => true
          | .error _ => false) &&
        decide (((after.2.memory.cells .global "found").map fun cell => cell.value.isNa) = some true) &&
        decide (((after.2.memory.cells .global "count").map fun cell => statefulNumeric cell.value) = some (some 2))) = true := by
      decide +kernel
    obtain ⟨⟨result, s⟩, hrun, hends⟩ := (Option.any_eq_true _ _).mp hexec
    rw [Bool.and_eq_true, Bool.and_eq_true, decide_eq_true_eq, decide_eq_true_eq] at hends
    obtain ⟨⟨hok, hfnd⟩, hcnt⟩ := hends
    refine ⟨s, ?_, hfnd, hcnt⟩
    cases result with
    | ok => exact hrun
    | error => cases hok
  · intro hfinite
    have hnew := hfinite _ _ (newMap_at fun _ => True)
    obtain ⟨s', -, hvalue, -⟩ := hnew.put (given .na (.number (some 1))) keyedCall .na (.number (some 1)) newMap.2
      newMap.2 rfl rfl rfl (.other rfl) (.other rfl) (given_steady _ trivial)
    -- nothing equals `na`, so nothing is found for it
    have hnone : s'.valueAt naChart.setting.library newMap.1 .na = none := by
      refine find_eq_none.mpr fun entry _ hsame => ?_
      rw [statefulEqual_na] at hsame
      cases hsame
    cases hvalue.symm.trans hnone

end MarketLens.Pine
