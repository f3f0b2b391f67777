/-!
# Runs of a guarded step function

A system is a partial step function: `step s a = some s'` when action `a` can be
taken in state `s`. A run takes actions one after another, in any order, and may
be held to a condition `ok` on the state before each action. What every step
keeps, every state of such a run has. A loop over a list is a run that cannot be
refused.
-/

namespace Runs

variable {S A : Type}

/-- The states reachable from `start` by steps whose actions meet `ok` where they are taken. -/
inductive Reaches (step : S → A → Option S) (ok : S → A → Prop) (start : S) : S → Prop where
  | refl : Reaches step ok start start
  | step {s s' : S} {a : A} :
      Reaches step ok start s → ok s a → step s a = some s' → Reaches step ok start s'

/-- The unguarded condition: any action may be taken anywhere. -/
def always (_ : S) (_ : A) : Prop := True

variable {step : S → A → Option S} {ok : S → A → Prop} {start s : S}

/-- **What every step keeps holds in every state of a run.** -/
theorem Reaches.invariant (Inv : S → Prop) (hstart : Inv start) (hstep : ∀ s a s', Inv s → ok s a → step s a = some s' → Inv s')
    (h : Reaches step ok start s) : Inv s := by
  induction h with
  | refl => exact hstart
  | step _ hok hs ih => exact hstep _ _ _ ih hok hs

/-- As `invariant`, each step being taken where the run has come to. -/
theorem Reaches.invariant_along (Inv : S → Prop) (hstart : Inv start)
    (hstep : ∀ s a s', Reaches step ok start s → Inv s → ok s a → step s a = some s' → Inv s')
    (h : Reaches step ok start s) : Inv s := by
  induction h with
  | refl => exact hstart
  | step hrun hok hs ih => exact hstep _ _ _ hrun ih hok hs

/-- A run under a stronger condition is a run under a weaker one. -/
theorem Reaches.weaken {ok' : S → A → Prop} (hweak : ∀ s a, ok s a → ok' s a)
    (h : Reaches step ok start s) : Reaches step ok' start s := by
  induction h with
  | refl => exact .refl
  | step _ hok hs ih => exact .step ih (hweak _ _ hok) hs

/-- Where one run ends another may go on. -/
theorem Reaches.trans {mid : S} (h : Reaches step ok start mid) (hrest : Reaches step ok mid s) : Reaches step ok start s := by
  induction hrest with
  | refl => exact h
  | step _ hok hs ih => exact .step ih hok hs

/-- **A run that is followed step by step.** Where the states of another system stand for those of this one, and each
step is one of the other, so is each run. -/
theorem Reaches.simulated {S' A' : Type} {step' : S' → A' → Option S'} {ok' : S' → A' → Prop} {start' : S'}
    (R : S' → S → Prop) (hstart : R start' start)
    (hstep : ∀ t s a s', Reaches step' ok' start' t → R t s → ok s a → step s a = some s' →
      ∃ b t', ok' t b ∧ step' t b = some t' ∧ R t' s')
    (h : Reaches step ok start s) : ∃ t, Reaches step' ok' start' t ∧ R t s := by
  induction h with
  | refl => exact ⟨start', .refl, hstart⟩
  | step _ hok hs ih =>
    obtain ⟨t, hrun, hrel⟩ := ih
    obtain ⟨b, t', hok', hs', hrel'⟩ := hstep _ _ _ _ hrun hrel hok hs
    exact ⟨t', .step hrun hok' hs', hrel'⟩

/-- A run that keeps a record of what `note` finds in each of its steps. -/
inductive Records {N : Type} (step : S → A → Option S) (ok : S → A → Prop) (note : S → A → S → List N)
    (start : S) : S → List N → Prop where
  | refl : Records step ok note start start []
  | step {s s' : S} {a : A} {log : List N} : Records step ok note start s log → ok s a →
      step s a = some s' → Records step ok note start s' (log ++ note s a s')

/-- **What every step keeps of the state and its record holds at the end of the run.** -/
theorem Records.invariant {N : Type} {note : S → A → S → List N} {log : List N} (Inv : S → List N → Prop) (hstart : Inv start [])
    (hstep : ∀ s a s' log, Inv s log → ok s a → step s a = some s' → Inv s' (log ++ note s a s'))
    (h : Records step ok note start s log) : Inv s log := by
  induction h with
  | refl => exact hstart
  | step _ hok hs ih => exact hstep _ _ _ _ ih hok hs

/-- A step that was taken. -/
structure Move (S A : Type) where
  before : S
  action : A
  after : S

/-- The record of every step. -/
def moves (before : S) (action : A) (after : S) : List (Move S A) := [⟨before, action, after⟩]

/-- **The condition of a run.** Where a step from a state that meets `Inv` meets it again and is good under the
condition `cond`, and is good under it only, the moves of a run are all good exactly when they all meet `cond`. -/
theorem Records.all_iff (cond : S → A → Prop) (good : S → A → S → Prop) {log : List (Move S A)} (Inv : S → Prop)
    (hstart : Inv start)
    (hforth : ∀ s a s', Inv s → ok s a → step s a = some s' → cond s a → Inv s' ∧ good s a s')
    (hback : ∀ s a s', Inv s → ok s a → step s a = some s' → good s a s' → cond s a)
    (h : Records step ok moves start s log) :
    (∀ move ∈ log, cond move.before move.action) ↔ ∀ move ∈ log, good move.before move.action move.after := by
  have hrun : ((∀ move ∈ log, cond move.before move.action) ↔ ∀ move ∈ log, good move.before move.action move.after) ∧
      ((∀ move ∈ log, cond move.before move.action) → Inv s) := by
    induction h with
    | refl => exact ⟨⟨fun _ _ hnone => absurd hnone List.not_mem_nil, fun _ _ hnone => absurd hnone List.not_mem_nil⟩,
        fun _ => hstart⟩
    | step _ hok hs ih =>
      obtain ⟨hiff, hinv⟩ := ih
      simp only [moves, List.forall_mem_append, List.forall_mem_singleton]
      refine ⟨⟨fun ⟨hlog, hcond⟩ => ?_, fun ⟨hlog, hgood⟩ => ?_⟩, fun ⟨hlog, hcond⟩ => ?_⟩
      · exact ⟨hiff.mp hlog, (hforth _ _ _ (hinv hlog) hok hs hcond).2⟩
      · exact ⟨hiff.mpr hlog, hback _ _ _ (hinv (hiff.mpr hlog)) hok hs hgood⟩
      · exact (hforth _ _ _ (hinv hlog) hok hs hcond).1
  exact hrun.1

/-- Taking a list of actions in turn, each one allowed where it is taken. -/
def exec (step : S → A → Option S) (allowed : S → A → Bool) : S → List A → Option S
  | s, [] => some s
  | s, a :: rest =>
    if allowed s a then (step s a).bind fun s' => exec step allowed s' rest else none

/-- A list of allowed actions is a run from where it starts. -/
theorem reaches_of_exec {allowed : S → A → Bool} {actions : List A} (hallw : ∀ s a, allowed s a = true → ok s a)
    (hexec : exec step allowed start actions = some s) : Reaches step ok start s := by
  suffices hfrom : ∀ {mid}, Reaches step ok start mid → exec step allowed mid actions = some s → Reaches step ok start s from
    hfrom .refl hexec
  clear hexec
  induction actions with
  | nil =>
    intro mid h hexec
    cases hexec
    exact h
  | cons a rest ih =>
    intro mid h hexec
    rw [exec] at hexec
    split at hexec
    · rename_i ha
      obtain ⟨next, hnext, hrest⟩ := Option.bind_eq_some_iff.mp hexec
      exact ih (.step h (hallw mid a ha) hnext) hrest
    · cases hexec

theorem reaches_exec {actions : List A} (hexec : exec step (fun _ _ => true) start actions = some s) :
    Reaches step always start s :=
  reaches_of_exec (fun _ _ _ => trivial) hexec

/-- What a list of actions is computed to come to is so of a state that is reached. -/
theorem reached_of_map {B : Type} {view : S → B} {b : B} {actions : List A}
    (h : (exec step (fun _ _ => true) start actions).map view = some b) :
    ∃ s, Reaches step always start s ∧ view s = b := by
  obtain ⟨s, hexec, hview⟩ := Option.map_eq_some_iff.mp h
  exact ⟨s, reaches_exec hexec, hview⟩

/-- A list of allowed actions, and the record they leave. -/
def execRecords {N : Type} (step : S → A → Option S) (allowed : S → A → Bool)
    (note : S → A → S → List N) : S → List N → List A → Option (S × List N)
  | s, log, [] => some (s, log)
  | s, log, a :: rest =>
    if allowed s a then
      (step s a).bind fun s' => execRecords step allowed note s' (log ++ note s a s') rest
    else none

theorem records_of_exec {N : Type} {note : S → A → S → List N} {allowed : S → A → Bool} {actions : List A}
    {final : S × List N} (hallw : ∀ s a, allowed s a = true → ok s a)
    (hexec : execRecords step allowed note start [] actions = some final) :
    Records step ok note start final.1 final.2 := by
  suffices hfrom : ∀ {mid log}, Records step ok note start mid log →
      execRecords step allowed note mid log actions = some final → Records step ok note start final.1 final.2 from
    hfrom .refl hexec
  clear hexec
  induction actions with
  | nil =>
    intro mid log h hexec
    cases hexec
    exact h
  | cons a rest ih =>
    intro mid log h hexec
    rw [execRecords] at hexec
    split at hexec
    · rename_i ha
      obtain ⟨next, hnext, hrest⟩ := Option.bind_eq_some_iff.mp hexec
      exact ih (.step h (hallw mid a ha) hnext) hrest
    · cases hexec

theorem records_exec {N : Type} {note : S → A → S → List N} {actions : List A} {final : S × List N}
    (hexec : execRecords step (fun _ _ => true) note start [] actions = some final) :
    Records step always note start final.1 final.2 :=
  records_of_exec (fun _ _ _ => trivial) hexec

/-- What every round of a loop can do to the state, the loop can do. -/
theorem foldl_related {R : S → S → Prop} {f : S → A → S} (hrefl : ∀ s, R s s)
    (htrans : ∀ s s' s'', R s s' → R s' s'' → R s s'') (h : ∀ s a, R s (f s a))
    (items : List A) (s : S) : R s (items.foldl f s) := by
  induction items generalizing s with
  | nil => exact hrefl s
  | cons a rest ih => exact htrans _ _ _ (h s a) (ih (f s a))

end Runs
