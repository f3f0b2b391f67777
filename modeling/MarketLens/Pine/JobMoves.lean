import MarketLens.Pine.JobCache

/-!
# What a step of the job group does, and where its jobs are

`JobMove` lists the branches of `Do` and of the workers with what each has found.
`Scheduled` is what they keep between the in-flight map, the queue, the workers and
the calls: a job is in the queue or with a worker exactly while the map names its
call, or while the caller that sent it still holds the mutex. So the guard of
`finish` never turns a worker away.
-/

namespace MarketLens.Pine

open List Option AList

variable {T : Type} {w w' : JobWorld T} {a : JobAction T}

namespace JobWorld

/-- The jobs in the queue and with the workers. -/
def tasks (w : JobWorld T) : List RuntimeJobTask := w.group.queue ++ w.running

/-- All jobs that have not ended. -/
def jobs (w : JobWorld T) : List RuntimeJobTask := w.tasks ++ w.solo

/-- The call is done: whoever waits on it can go on. -/
def Released (w : JobWorld T) (call : Nat) : Prop := ∃ c, w.calls[call]? = some c ∧ c.done = true

/-- A call no worker has touched. -/
def unfinished [Inhabited T] : RuntimeJobCall T := { done := false, value := default, err := none }

end JobWorld

/-! ## Callers -/

namespace JobWorld

variable {index position : Nat} {phase : CallerPhase T} {caller : Caller T}

/-- After a caller moved, it stands where it moved to, and the others where they stood. -/
theorem setPhase_cases (h : (w.setPhase index phase).callers[position]? = some caller) :
    w.callers[position]? = some caller
      ∨ position = index ∧ ∃ old, w.callers[index]? = some old ∧ caller = { old with phase } := by
  unfold setPhase at h
  rw [getElem?_modify] at h
  obtain ⟨old, hold, rfl⟩ := map_eq_some_iff.mp h
  by_cases heq : index = position
  · subst heq
    rw [if_pos rfl]
    exact .inr ⟨rfl, old, hold, rfl⟩
  · rw [if_neg heq]
    exact .inl hold

/-- A context that ends changes its caller's context and nothing else. -/
theorem cancel_cases {err : String}
    (h : (w.callers.modify index fun c => { c with ctxErr := some (c.ctxErr.getD err) })[position]? = some caller) :
    ∃ old, w.callers[position]? = some old ∧ caller.key = old.key ∧ caller.phase = old.phase := by
  rw [getElem?_modify] at h
  obtain ⟨old, hold, rfl⟩ := map_eq_some_iff.mp h
  refine ⟨old, hold, ?_⟩
  split <;> exact ⟨rfl, rfl⟩

theorem called_cases {key : String} {ctxErr : Option String}
    (h : (w.callers ++ [{ key, ctxErr, phase := .arrived }])[position]? = some caller) :
    w.callers[position]? = some caller ∨ caller.phase = .arrived := by
  rw [getElem?_append] at h
  split at h
  · exact .inl h
  · rw [getElem?_singleton] at h
    split at h
    · cases h
      exact .inr rfl
    · cases h

end JobWorld

/-! ## The branches of a step -/

open JobWorld in
/-- What a step has found where it is taken, and what it leaves. -/
inductive JobMove [Inhabited T] (w : JobWorld T) : JobAction T → JobWorld T → Prop where
  | called {key ctxErr} :
      JobMove w (.call key ctxErr) { w with callers := w.callers ++ [{ key, ctxErr, phase := .arrived }] }
  | cancelled {index err} : JobMove w (.cancel index err)
      { w with callers := w.callers.modify index fun c => { c with ctxErr := some (c.ctxErr.getD err) } }
  | refused {a index err} (ha : a = .check index ∨ a = .lock index ∨ a = .abandon index) :
      (∀ caller, w.callers[index]? = some caller → w.group.entries.lookup caller.key = none ∨ a ≠ .lock index) →
      JobMove w a (w.fail index err)
  | passed {index caller} : w.callers[index]? = some caller → caller.key ≠ "" →
      JobMove w (.check index) (w.setPhase index .locking)
  | alone {index caller} : w.callers[index]? = some caller → caller.key = "" →
      JobMove w (.check index) { w.setPhase index (.waiting w.calls.length) with
        calls := w.calls ++ [unfinished], solo := w.solo ++ [{ key := "", call := w.calls.length }] }
  | hit {index caller id} : w.callers[index]? = some caller →
      w.group.entries.lookup caller.key = some id →
      JobMove w (.lock index)
        { w.setPhase index (.returned ((w.group.order.find? (·.id = id)).elim default (·.value.value)) none) with
          group := { w.group with order := RuntimeJobGroup.moveToBack w.group.order id } }
  | joined {index caller call} : w.callers[index]? = some caller → w.mu = none →
      w.group.entries.lookup caller.key = none → w.group.inflight.lookup caller.key = some call →
      JobMove w (.lock index) (w.setPhase index (.waiting call))
  | sent {index caller} : w.callers[index]? = some caller → caller.phase = .locking → w.mu = none →
      w.group.entries.lookup caller.key = none → w.group.inflight.lookup caller.key = none →
      w.group.queue.length < w.group.capacity →
      JobMove w (.lock index) { w with
        calls := w.calls ++ [unfinished]
        group := { w.group with queue := w.group.queue ++ [{ key := caller.key, call := w.calls.length }] }
        mu := some { caller := index, task := { key := caller.key, call := w.calls.length } } }
  | published {submission} : w.mu = some submission → JobMove w .publish (w.doPublish submission)
  | taken {task rest} : w.group.queue = task :: rest → w.running.length < w.group.workers →
      JobMove w .take { w with group := { w.group with queue := rest }, running := w.running ++ [task] }
  | finished {slot outcome task} : w.running[slot]? = some task → w.mu = none →
      JobMove w (.finish slot outcome)
        { w.finish task outcome.recover with running := w.running.eraseIdx slot }
  | finishedSolo {slot outcome task} : w.solo[slot]? = some task →
      JobMove w (.finishSolo slot outcome)
        { w.release task.call outcome.recover with solo := w.solo.eraseIdx slot }
  | received {index caller id call} : w.callers[index]? = some caller → caller.phase = .waiting id →
      w.calls[id]? = some call → call.done = true →
      JobMove w (.receive index) (w.setPhase index (.returned call.value call.err))

open JobWorld in
/-- Each step is one of the moves. -/
theorem jobStep_move [Inhabited T] (h : jobStep w a = some w') : JobMove w a w' := by
  cases a with
  | call =>
    cases h
    exact .called
  | cancel =>
    cases h
    exact .cancelled
  | check =>
    obtain ⟨caller, hclr, h⟩ := bind_eq_some_iff.mp h
    split at h
    · rw [Option.some.injEq] at h
      subst h
      unfold doCheck
      split
      · exact .refused (.inl rfl) fun _ _ => .inr (by simp)
      · split
        · rename_i hkey
          exact .alone hclr hkey
        · rename_i hkey
          exact .passed hclr hkey
    · cases h
  | lock index =>
    obtain ⟨caller, hclr, h⟩ := bind_eq_some_iff.mp h
    split at h
    · rename_i hphs hmu
      rw [Option.some.injEq] at h
      subst h
      unfold doLocked
      cases hents : w.group.entries.lookup caller.key with
      | some => exact .hit hclr hents
      | none =>
        -- whatever gate refuses a new task, nothing was cached under its key
        have hrefd : ∀ err, JobMove w (.lock index) (w.fail index err) := by
          intro err
          refine .refused (.inr (.inl rfl)) fun other hoth => .inl ?_
          rw [hclr, Option.some.injEq] at hoth
          rw [← hoth]
          exact hents
        cases hinf : w.group.inflight.lookup caller.key with
        | some => exact .joined hclr hmu hents hinf
        | none =>
          dsimp only
          split
          · exact hrefd _
          · split
            · exact hrefd _
            · split
              · rename_i hroom
                exact .sent hclr hphs hmu hents hinf hroom
              · exact hrefd _
    · cases h
  | publish =>
    obtain ⟨submission, hmu, rfl⟩ := map_eq_some_iff.mp h
    exact .published hmu
  | take =>
    unfold jobStep at h
    dsimp only at h
    split at h
    · rename_i task rest hque
      split at h
      · rename_i hidle
        cases h
        exact .taken hque hidle
      · cases h
    · cases h
  | finish =>
    obtain ⟨task, htask, h⟩ := bind_eq_some_iff.mp h
    split at h
    · rename_i hmu
      cases h
      exact .finished htask hmu
    · cases h
  | finishSolo =>
    obtain ⟨task, htask, h⟩ := bind_eq_some_iff.mp h
    cases h
    exact .finishedSolo htask
  | receive =>
    obtain ⟨caller, hclr, h⟩ := bind_eq_some_iff.mp h
    split at h
    · rename_i hphs
      obtain ⟨call, hcall, h⟩ := bind_eq_some_iff.mp h
      split at h
      · rename_i hdone
        cases h
        exact .received hclr hphs hcall hdone
      · cases h
    · cases h
  | abandon =>
    obtain ⟨caller, hclr, h⟩ := bind_eq_some_iff.mp h
    split at h
    · cases h
      exact .refused (.inr (.inr rfl)) fun _ _ => .inr (by simp)
    · cases h

/-! ## Where the jobs are -/

/-- Each job in the queue or with a worker has a key of its own, its call is the one published
under that key, or about to be, and nothing has touched the call yet. -/
structure Scheduled (w : JobWorld T) : Prop where
  keys : (w.tasks.map (·.key)).Nodup
  keyed : ∀ task ∈ w.tasks, task.key ≠ ""
  solo : ∀ task ∈ w.solo, task.key = ""
  published : ∀ task, task ∈ w.tasks ↔
    w.group.inflight.lookup task.key = some task.call ∨ ∃ s, w.mu = some s ∧ s.task = task
  unpublished : ∀ s, w.mu = some s → w.group.inflight.lookup s.task.key = none
  calls : (w.jobs.map (·.call)).Nodup
  pending : ∀ task ∈ w.jobs, ∃ call, w.calls[task.call]? = some call ∧ call.done = false
  locking : ∀ (index : Nat) caller, w.callers[index]? = some caller → caller.phase = .locking → caller.key ≠ ""
  staffed : w.running.length ≤ w.group.workers

namespace Scheduled

open JobWorld

variable {task : RuntimeJobTask} {result : T × Option String} {slot index : Nat}

theorem call_lt (h : Scheduled w) (htask : task ∈ w.jobs) : task.call < w.calls.length := by
  obtain ⟨call, hcall, -⟩ := h.pending task htask
  exact (List.getElem?_eq_some_iff.mp hcall).1

theorem mem_jobs (htask : task ∈ w.tasks) : task ∈ w.jobs := mem_append_left _ htask

theorem mem_tasks (htask : w.running[slot]? = some task) : task ∈ w.tasks :=
  mem_append_right _ (mem_of_getElem? htask)

/-- **The guard of `finish` lets every worker through.** -/
theorem guard (h : Scheduled w) (htask : w.running[slot]? = some task) (hmu : w.mu = none) :
    w.group.inflight.lookup task.key = some task.call := by
  rcases (h.published task).mp (mem_tasks htask) with hlkup | ⟨s, hs, -⟩
  · exact hlkup
  · rw [hmu] at hs
    cases hs

theorem finish_eq (h : Scheduled w) (htask : w.running[slot]? = some task) (hmu : w.mu = none) :
    w.finish task result = { w.release task.call result with
      group := if result.2 = none
        then ({ w.group with inflight := w.group.inflight.erase task.key }).storeLocked task.key result.1
        else { w.group with inflight := w.group.inflight.erase task.key } } := by
  unfold JobWorld.finish
  rw [if_neg (not_not_intro (h.guard htask hmu))]

/-- What is left of a list after one place has been cleared. -/
theorem perm_eraseIdx {A : Type} {items : List A} {item : A} (hitem : items[slot]? = some item) :
    items.Perm (item :: items.eraseIdx slot) := by
  obtain ⟨hlt, rfl⟩ := List.getElem?_eq_some_iff.mp hitem
  exact (getElem_cons_eraseIdx_perm hlt).symm

theorem tasks_perm (htask : w.running[slot]? = some task) : w.tasks.Perm (task :: (w.group.queue ++ w.running.eraseIdx slot)) :=
  ((perm_eraseIdx htask).append_left _).trans perm_middle

/-- A job that a worker takes stays among the jobs. -/
theorem taken_perm {rest : List RuntimeJobTask} (hque : w.group.queue = task :: rest) :
    (rest ++ (w.running ++ [task])).Perm w.tasks := by
  unfold tasks
  rw [hque, ← append_assoc, cons_append]
  exact perm_append_singleton _ _

/-- Storing a result touches the cache only. -/
theorem storeLocked_frame (g : RuntimeJobGroup T) (key : String) (value : T) :
    (g.storeLocked key value).queue = g.queue ∧ (g.storeLocked key value).inflight = g.inflight
      ∧ (g.storeLocked key value).workers = g.workers ∧ (g.storeLocked key value).maxEntries = g.maxEntries := by
  unfold RuntimeJobGroup.storeLocked
  split <;> exact ⟨rfl, rfl, rfl, rfl⟩

/-- A worker's end, whatever becomes of the cache. -/
theorem finish_spec (h : Scheduled w) (result : T × Option String) (htask : w.running[slot]? = some task) (hmu : w.mu = none) :
    ∃ g, w.finish task result = { w.release task.call result with group := g }
      ∧ g.queue = w.group.queue ∧ g.inflight = w.group.inflight.erase task.key
      ∧ g.workers = w.group.workers ∧ g.maxEntries = w.group.maxEntries := by
  rw [h.finish_eq htask hmu]
  refine ⟨_, rfl, ?_⟩
  split
  · exact storeLocked_frame _ _ _
  · exact ⟨rfl, rfl, rfl, rfl⟩

theorem start (maxEntries : Int) : Scheduled (JobWorld.start maxEntries : JobWorld T) where
  keys := nodup_nil
  keyed := fun _ h => nomatch h
  solo := fun _ h => nomatch h
  published := by
    intro task
    constructor
    · intro h
      cases h
    · rintro (h | ⟨s, h, -⟩) <;> cases h
  unpublished := fun _ h => nomatch h
  calls := nodup_nil
  pending := fun _ h => nomatch h
  locking := fun _ _ h => nomatch h
  staffed := Nat.zero_le _

/-- A step that moves callers alone. -/
theorem of_callers {callers : List (Caller T)} (h : Scheduled w)
    (hlocking : ∀ (index : Nat) (caller : Caller T), callers[index]? = some caller → caller.phase = .locking → caller.key ≠ "") :
    Scheduled { w with callers } :=
  ⟨h.keys, h.keyed, h.solo, h.published, h.unpublished, h.calls, h.pending, hlocking, h.staffed⟩

theorem locking_setPhase (h : Scheduled w) (index : Nat) (phase : CallerPhase T)
    (hphs : phase = .locking → ∀ caller, w.callers[index]? = some caller → caller.key ≠ "") :
    ∀ (position : Nat) caller, (w.setPhase index phase).callers[position]? = some caller →
      caller.phase = .locking → caller.key ≠ "" := by
  intro position caller hclr hlocking
  rcases setPhase_cases hclr with hold | ⟨-, old, hold, rfl⟩
  · exact h.locking position caller hold hlocking
  · exact hphs hlocking old hold

theorem setPhase {phase : CallerPhase T} (h : Scheduled w)
    (hphs : phase = .locking → ∀ caller, w.callers[index]? = some caller → caller.key ≠ "") :
    Scheduled (w.setPhase index phase) :=
  h.of_callers (h.locking_setPhase index phase hphs)

/-- A call just made is no job's yet. -/
theorem fresh (h : Scheduled w) : w.calls.length ∉ w.jobs.map (·.call) := by
  intro hmem
  obtain ⟨task, htask, heq⟩ := mem_map.mp hmem
  have hlt := h.call_lt htask
  omega

theorem pending_append (h : Scheduled w) (htask : task ∈ w.jobs) (new : RuntimeJobCall T) :
    ∃ call, (w.calls ++ [new])[task.call]? = some call ∧ call.done = false := by
  obtain ⟨call, hcall, hdone⟩ := h.pending task htask
  refine ⟨call, ?_, hdone⟩
  rw [getElem?_append_left (h.call_lt htask)]
  exact hcall

theorem pending_release (h : Scheduled w) {other : RuntimeJobTask} (hoth : other ∈ w.jobs) (hne : other.call ≠ task.call) :
    ∃ call, (w.release task.call result).calls[other.call]? = some call ∧ call.done = false := by
  obtain ⟨call, hcall, hdone⟩ := h.pending other hoth
  refine ⟨call, ?_, hdone⟩
  unfold release
  rw [getElem?_set_ne hne.symm]
  exact hcall

/-- A worker's job ends: whatever becomes of the cache, the job is gone and its place in flight is free. -/
theorem ended {g : RuntimeJobGroup T} (h : Scheduled w) (htask : w.running[slot]? = some task) (hmu : w.mu = none)
    (hque : g.queue = w.group.queue) (hinf : g.inflight = w.group.inflight.erase task.key)
    (hwkrs : g.workers = w.group.workers) :
    Scheduled { w.release task.call result with group := g, running := w.running.eraseIdx slot } := by
  have hperm := tasks_perm htask
  have hjobs := hperm.append_right w.solo
  have hkeys := ((hperm.map (·.key)).nodup_iff).mp h.keys
  have hcalls := ((hjobs.map (·.call)).nodup_iff).mp h.calls
  rw [map_cons, nodup_cons] at hkeys
  rw [cons_append, map_cons, nodup_cons] at hcalls
  -- the keys of the jobs that stay are not the ended one's
  have hrest : ∀ other ∈ w.group.queue ++ w.running.eraseIdx slot, other ∈ w.tasks ∧ other.key ≠ task.key := by
    intro other hoth
    refine ⟨hperm.mem_iff.mpr (mem_cons_of_mem _ hoth), fun heq => hkeys.1 ?_⟩
    exact mem_map.mpr ⟨other, hoth, heq⟩
  refine ⟨?_, ?_, h.solo, ?_, ?_, ?_, ?_, h.locking, ?_⟩
  · show ((g.queue ++ w.running.eraseIdx slot).map (·.key)).Nodup
    rw [hque]
    exact hkeys.2
  · show ∀ other ∈ g.queue ++ w.running.eraseIdx slot, other.key ≠ ""
    rw [hque]
    exact fun other hoth => h.keyed other (hrest other hoth).1
  · intro other
    show other ∈ g.queue ++ w.running.eraseIdx slot ↔
      g.inflight.lookup other.key = some other.call ∨ ∃ s, w.mu = some s ∧ s.task = other
    rw [hque, hinf, hmu]
    constructor
    · intro hoth
      obtain ⟨hmem, hne⟩ := hrest other hoth
      rw [lookup_erase_ne hne]
      rw [h.published, hmu] at hmem
      exact hmem
    · rintro (hlkup | ⟨s, hs, -⟩)
      · have hne : other.key ≠ task.key := by
          intro heq
          rw [heq, lookup_erase] at hlkup
          cases hlkup
        rw [lookup_erase_ne hne] at hlkup
        have hmem := hperm.mem_iff.mp ((h.published other).mpr (.inl hlkup))
        rcases mem_cons.mp hmem with rfl | hoth
        · exact absurd rfl hne
        · exact hoth
      · cases hs
  · intro s hs
    change w.mu = some s at hs
    rw [hmu] at hs
    cases hs
  · show ((g.queue ++ w.running.eraseIdx slot ++ w.solo).map (·.call)).Nodup
    rw [hque]
    exact hcalls.2
  · show ∀ other ∈ g.queue ++ w.running.eraseIdx slot ++ w.solo,
      ∃ call, (w.release task.call result).calls[other.call]? = some call ∧ call.done = false
    rw [hque]
    intro other hoth
    refine h.pending_release (hjobs.mem_iff.mpr (mem_cons_of_mem _ hoth)) ?_
    exact fun heq => hcalls.1 (mem_map.mpr ⟨other, hoth, heq⟩)
  · rw [hwkrs]
    exact le_trans (length_eraseIdx_le _ _) h.staffed

theorem endedSolo (h : Scheduled w) (htask : w.solo[slot]? = some task) :
    Scheduled { w.release task.call result with solo := w.solo.eraseIdx slot } := by
  have hperm : w.jobs.Perm (task :: (w.tasks ++ w.solo.eraseIdx slot)) :=
    ((perm_eraseIdx htask).append_left _).trans perm_middle
  have hcalls := ((hperm.map (·.call)).nodup_iff).mp h.calls
  rw [map_cons, nodup_cons] at hcalls
  refine ⟨h.keys, h.keyed, ?_, h.published, h.unpublished, hcalls.2, ?_, h.locking, h.staffed⟩
  · exact fun other hoth => h.solo other (mem_of_mem_eraseIdx hoth)
  · intro other hoth
    refine h.pending_release (hperm.mem_iff.mpr (mem_cons_of_mem _ hoth)) ?_
    exact fun heq => hcalls.1 (mem_map.mpr ⟨other, hoth, heq⟩)

theorem step [Inhabited T] (h : Scheduled w) (hmove : JobMove w a w') : Scheduled w' := by
  cases hmove with
  | called =>
    refine h.of_callers fun position caller hclr hlocking => ?_
    rcases called_cases hclr with hold | harrived
    · exact h.locking position caller hold hlocking
    · rw [harrived] at hlocking
      cases hlocking
  | cancelled =>
    refine h.of_callers fun position caller hclr hlocking => ?_
    obtain ⟨old, hold, hkey, hphs⟩ := cancel_cases hclr
    rw [hkey]
    exact h.locking position old hold (hphs ▸ hlocking)
  | refused => exact h.setPhase fun hphs => nomatch hphs
  | @passed index caller hclr hkey =>
    refine h.setPhase fun _ other hoth => ?_
    rw [hclr, Option.some.injEq] at hoth
    rw [← hoth]
    exact hkey
  | @alone index =>
    -- A task without a key joins the solo ones, under a call that is new.
    have hlocking := h.locking_setPhase index (.waiting w.calls.length) fun hphs => nomatch hphs
    have hperm : (w.tasks ++ (w.solo ++ [(⟨"", w.calls.length⟩ : RuntimeJobTask)])).Perm (⟨"", w.calls.length⟩ :: w.jobs) := by
      rw [← append_assoc]
      exact perm_append_singleton _ _
    refine ⟨h.keys, h.keyed, ?_, h.published, h.unpublished, ?_, ?_, hlocking, h.staffed⟩
    · intro task htask
      rcases mem_append.mp htask with hold | hnew
      · exact h.solo task hold
      · rw [mem_singleton.mp hnew]
    · refine ((hperm.map (·.call)).nodup_iff).mpr ?_
      rw [map_cons, nodup_cons]
      exact ⟨h.fresh, h.calls⟩
    · intro task htask
      rcases mem_cons.mp (hperm.mem_iff.mp htask) with rfl | hold
      · exact ⟨unfinished, getElem?_concat_length, rfl⟩
      · exact h.pending_append hold _
  | @hit index caller id =>
    have hset := h.locking_setPhase index
      (.returned ((w.group.order.find? (·.id = id)).elim default (·.value.value)) none) fun hphs => nomatch hphs
    exact ⟨h.keys, h.keyed, h.solo, h.published, h.unpublished, h.calls, h.pending, hset, h.staffed⟩
  | joined | received => exact h.setPhase fun hphs => nomatch hphs
  | @sent index caller hclr hphs hmu hents hinf =>
    have hperm : (w.group.queue ++ [(⟨caller.key, w.calls.length⟩ : RuntimeJobTask)] ++ w.running).Perm
        (⟨caller.key, w.calls.length⟩ :: w.tasks) := by
      rw [append_assoc]
      exact perm_middle
    have hjobs := hperm.append_right w.solo
    have hnew : caller.key ∉ w.tasks.map (·.key) := by
      intro hmem
      obtain ⟨task, htask, hkey⟩ := mem_map.mp hmem
      rcases (h.published task).mp htask with hlkup | ⟨s, hs, -⟩
      · rw [hkey, hinf] at hlkup
        cases hlkup
      · rw [hmu] at hs
        cases hs
    refine ⟨?_, ?_, h.solo, ?_, ?_, ?_, ?_, h.locking, h.staffed⟩
    · refine ((hperm.map (·.key)).nodup_iff).mpr ?_
      rw [map_cons, nodup_cons]
      exact ⟨hnew, h.keys⟩
    · intro task htask
      rcases mem_cons.mp (hperm.mem_iff.mp htask) with rfl | hold
      · exact h.locking index caller hclr hphs
      · exact h.keyed task hold
    · intro task
      refine hperm.mem_iff.trans ?_
      rw [mem_cons, h.published, hmu]
      constructor
      · rintro (rfl | hlkup | ⟨s, hs, -⟩)
        · exact .inr ⟨_, rfl, rfl⟩
        · exact .inl hlkup
        · cases hs
      · rintro (hlkup | ⟨s, hs, rfl⟩)
        · exact .inr (.inl hlkup)
        · cases hs
          exact .inl rfl
    · intro s hs
      cases hs
      exact hinf
    · refine ((hjobs.map (·.call)).nodup_iff).mpr ?_
      rw [cons_append, map_cons, nodup_cons]
      exact ⟨h.fresh, h.calls⟩
    · intro task htask
      rcases mem_cons.mp (hjobs.mem_iff.mp htask) with rfl | hold
      · exact ⟨unfinished, getElem?_concat_length, rfl⟩
      · exact h.pending_append hold _
  | @published submission hmu =>
    have hset := h.locking_setPhase submission.caller (.waiting submission.task.call) fun hphs => nomatch hphs
    refine ⟨h.keys, h.keyed, h.solo, ?_, (fun s hs => nomatch hs), h.calls, h.pending, hset, h.staffed⟩
    have hmem : submission.task ∈ w.tasks := (h.published _).mpr (.inr ⟨submission, hmu, rfl⟩)
    intro task
    unfold doPublish
    by_cases hkey : task.key = submission.task.key
    · rw [hkey, lookup_insert, Option.some.injEq]
      constructor
      · intro htask
        have heq : task = submission.task := inj_on_of_nodup_map h.keys htask hmem hkey
        exact .inl (congrArg _ heq.symm)
      · rintro (hcall | ⟨s, hs, -⟩)
        · have heq : task = submission.task := by
            cases task
            cases hsub : submission.task
            rw [hsub] at hkey hcall
            cases hkey
            cases hcall
            rfl
          rw [heq]
          exact hmem
        · cases hs
    · rw [lookup_insert_ne hkey]
      refine (h.published task).trans ?_
      constructor
      · rintro (hlkup | ⟨s, hs, rfl⟩)
        · exact .inl hlkup
        · rw [hmu, Option.some.injEq] at hs
          rw [hs] at hkey
          exact absurd rfl hkey
      · rintro (hlkup | ⟨s, hs, -⟩)
        · exact .inl hlkup
        · cases hs
  | @taken task rest hque =>
    have hperm := taken_perm hque
    refine ⟨?_, ?_, h.solo, ?_, h.unpublished, ?_, ?_, h.locking, ?_⟩
    · exact ((hperm.map (·.key)).nodup_iff).mpr h.keys
    · exact fun other hoth => h.keyed other (hperm.mem_iff.mp hoth)
    · exact fun other => hperm.mem_iff.trans (h.published other)
    · exact (((hperm.append_right w.solo).map (·.call)).nodup_iff).mpr h.calls
    · exact fun other hoth => h.pending other ((hperm.append_right w.solo).mem_iff.mp hoth)
    · dsimp only
      rw [length_append, length_singleton]
      omega
  | @finished slot outcome task htask hmu =>
    obtain ⟨g, hfinish, hque, hinf, hwkrs, -⟩ := h.finish_spec outcome.recover htask hmu
    rw [hfinish]
    exact h.ended htask hmu hque hinf hwkrs
  | finishedSolo htask => exact h.endedSolo htask

end Scheduled

end MarketLens.Pine
