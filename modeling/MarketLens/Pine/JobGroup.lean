import MarketLens.Pine.JobRuns

/-!
# The runtime job group shares work safely

`jobs_shared` puts the invariants of a run together. That a job's waiters are
released has two halves: the step that ends a job releases them whatever the job
came to, and from every state of a run the workers alone can carry each job to
such a step (`workers_release`).
-/

namespace MarketLens.Pine

open List Option Runs Scheduled JobWorld

variable {T : Type} {w w' : JobWorld T}

/-- The jobs of a key that have not ended: queued, with a worker or on their own. -/
def JobWorld.inFlight (w : JobWorld T) (key : String) : List RuntimeJobTask := w.jobs.filter (·.key = key)

/-- The job is over: its call holds what it came to, its key is free for another, and the cache is as it
was where that is an error. -/
structure Ended (w w' : JobWorld T) (task : RuntimeJobTask) (result : T × Option String) : Prop where
  call : w'.calls[task.call]? = some { done := true, value := result.1, err := result.2 }
  free : w'.group.inflight.lookup task.key = none
  gone : task ∉ w'.jobs
  cache : result.2 ≠ none → w'.group.entries = w.group.entries ∧ w'.group.order = w.group.order

/-- What the group does without its callers: a sent task is published, workers take and end tasks. -/
def byWorkers (_ : JobWorld T) : JobAction T → Prop
  | .publish | .take | .finish _ _ | .finishSolo _ _ => True
  | _ => False

variable {task : RuntimeJobTask} {slot : Nat} {outcome : WorkOutcome T} {log : List (JobEvent T)}

/-! ## The end of a job -/

theorem gone_of_done (hs : Scheduled w) {call : RuntimeJobCall T} (hcall : w.calls[task.call]? = some call)
    (hdone : call.done = true) : task ∉ w.jobs := by
  intro hjob
  obtain ⟨pending, hpend, hfalse⟩ := hs.pending task hjob
  rw [hcall, some.injEq] at hpend
  rw [hpend, hfalse] at hdone
  cases hdone

/-- No call is ever published under the empty key. -/
theorem lookup_empty_key (hs : Scheduled w) : w.group.inflight.lookup "" = none := by
  cases hlkup : w.group.inflight.lookup "" with
  | none => rfl
  | some call =>
    have hmem := (hs.published { key := "", call }).mpr (.inl hlkup)
    exact absurd rfl (hs.keyed _ hmem)

/-- A key that is not empty has at most one job that has not ended. -/
theorem inFlight_le_one (hs : Scheduled w) {key : String} (hkey : key ≠ "") : (w.inFlight key).length ≤ 1 := by
  have hsolo : w.solo.filter (·.key = key) = [] := by
    rw [filter_eq_nil_iff]
    intro task htask
    rw [hs.solo task htask, decide_eq_true_eq]
    exact fun h => hkey h.symm
  unfold inFlight jobs
  rw [filter_append, hsolo, append_nil, ← length_map (·.key)]
  have hndp : ((w.tasks.filter (·.key = key)).map (·.key)).Nodup := hs.keys.sublist (filter_sublist.map _)
  have hall : ∀ k ∈ (w.tasks.filter (·.key = key)).map (·.key), k = key := by
    intro k hk
    obtain ⟨task, htask, rfl⟩ := mem_map.mp hk
    exact of_decide_eq_true (mem_filter.mp htask).2
  rw [eq_replicate_of_mem hall] at hndp
  rw [nodup_replicate] at hndp
  exact hndp

theorem Ended.released {result : T × Option String} (h : Ended w w' task result) : w'.Released task.call :=
  ⟨_, h.call, rfl⟩

/-! ## What a run keeps -/

/-- What holds in every state of a run of a group made for `maxEntries`. -/
structure Shared (maxEntries : Int) (w : JobWorld T) (log : List (JobEvent T)) : Prop where
  scheduled : Scheduled w
  answered : Answered w log
  cache : RuntimeJobGroup.CacheHolds w.group (cacheUses log)
  bound : w.group.maxEntries = (newRuntimeJobGroup maxEntries : RuntimeJobGroup T).maxEntries
  workers : 0 < w.group.workers

theorem shared_start (maxEntries : Int) : Shared maxEntries (JobWorld.start maxEntries : JobWorld T) [] where
  scheduled := start maxEntries
  answered := ⟨fun _ _ h => (nomatch h), fun _ h => (nomatch h), fun _ h => (nomatch h)⟩
  cache := by
    refine ⟨⟨fun key id => ?_, nodup_nil, nodup_nil⟩, fun _ h => (nomatch h), ?_⟩
    rotate_left
    · exact drop_nil.symm
    constructor
    · intro h
      cases h
    · rintro ⟨_, h, -⟩
      cases h
  bound := rfl
  workers := by
    show 0 < (newRuntimeJobGroup maxEntries : RuntimeJobGroup T).workers
    unfold newRuntimeJobGroup defaultRuntimeWorkers defaultRuntimeCacheEntries
    dsimp only
    split <;> split <;> omega

variable [Inhabited T]

/-! ## The step that ends a job -/

theorem jobStep_finish (outcome : WorkOutcome T) (htask : w.running[slot]? = some task) (hmu : w.mu = none) :
    jobStep w (.finish slot outcome) = some { w.finish task outcome.recover with running := w.running.eraseIdx slot } := by
  unfold jobStep
  dsimp only
  rw [htask, bind_eq_bind, bind_some, hmu]

theorem jobStep_finishSolo (outcome : WorkOutcome T) (htask : w.solo[slot]? = some task) :
    jobStep w (.finishSolo slot outcome)
      = some { w.release task.call outcome.recover with solo := w.solo.eraseIdx slot } := by
  unfold jobStep
  dsimp only
  rw [htask, bind_eq_bind, bind_some]

theorem jobStep_take {rest : List RuntimeJobTask} (hque : w.group.queue = task :: rest)
    (hidle : w.running.length < w.group.workers) :
    jobStep w .take = some { w with group := { w.group with queue := rest }, running := w.running ++ [task] } := by
  unfold jobStep
  rw [hque]
  dsimp only
  rw [if_pos hidle]

theorem ended_finish (hs : Scheduled w) (htask : w.running[slot]? = some task)
    (h : jobStep w (.finish slot outcome) = some w') : Ended w w' task outcome.recover := by
  have hmu : w.mu = none := by
    cases hmu : w.mu with
    | none => rfl
    | some =>
      unfold jobStep at h
      dsimp only at h
      rw [htask, bind_eq_bind, bind_some, hmu] at h
      cases h
  have hs' := hs.step (jobStep_move h)
  rw [jobStep_finish outcome htask hmu, some.injEq] at h
  obtain ⟨g, hfinish, -, hinf, -⟩ := hs.finish_spec outcome.recover htask hmu
  have hcall : w'.calls[task.call]? = some { done := true, value := outcome.recover.1, err := outcome.recover.2 } := by
    rw [← h, hfinish]
    exact getElem?_set_self (hs.call_lt (mem_jobs (mem_tasks htask)))
  refine ⟨hcall, ?_, gone_of_done hs' hcall rfl, ?_⟩
  · rw [← h, hfinish]
    rw [hinf, AList.lookup_erase]
  · intro herr
    rw [← h, hs.finish_eq htask hmu]
    rw [if_neg herr]
    exact ⟨rfl, rfl⟩

theorem ended_finishSolo (hs : Scheduled w) (htask : w.solo[slot]? = some task)
    (h : jobStep w (.finishSolo slot outcome) = some w') : Ended w w' task outcome.recover := by
  have hs' := hs.step (jobStep_move h)
  rw [jobStep_finishSolo outcome htask, some.injEq] at h
  have hmem := mem_of_getElem? htask
  have hcall : w'.calls[task.call]? = some { done := true, value := outcome.recover.1, err := outcome.recover.2 } := by
    rw [← h]
    exact getElem?_set_self (hs.call_lt (mem_append_right _ hmem))
  refine ⟨hcall, ?_, gone_of_done hs' hcall rfl, ?_⟩
  · rw [hs.solo task hmem]
    exact lookup_empty_key hs'
  · rw [← h]
    exact fun _ => ⟨rfl, rfl⟩

/-! ## The workers carry every job to its end -/

theorem end_running (hs : Scheduled w) (hmu : w.mu = none) (htask : task ∈ w.running) :
    ∃ slot w', w.running[slot]? = some task ∧ Reaches jobStep byWorkers w w' ∧ Scheduled w' ∧ Ended w w' task
      (WorkOutcome.panicked "" : WorkOutcome T).recover ∧ w'.running = w.running.eraseIdx slot ∧ w'.mu = none
      ∧ w'.group.queue = w.group.queue ∧ w'.group.workers = w.group.workers := by
  obtain ⟨slot, hslot⟩ := getElem?_of_mem htask
  have hok : byWorkers w (.finish slot (.panicked "")) := trivial
  have hstep := jobStep_finish (.panicked "") hslot hmu
  obtain ⟨g, hfinish, hque, -, hwkrs, -⟩ := hs.finish_spec (WorkOutcome.panicked "").recover hslot hmu
  refine ⟨slot, _, hslot, .step .refl hok hstep, hs.step (jobStep_move hstep), ended_finish hs hslot hstep, rfl, ?_⟩
  rw [hfinish]
  exact ⟨hmu, hque, hwkrs⟩

/-- Once the mutex is free, the workers get to a job: those before it in the queue end first. -/
theorem release_tasks : ∀ (queue : List RuntimeJobTask) (w : JobWorld T), w.group.queue = queue → Scheduled w →
    w.mu = none → 0 < w.group.workers → task ∈ w.tasks →
    ∃ w', Runs.Reaches jobStep byWorkers w w' ∧ w'.Released task.call := by
  intro queue
  induction queue with
  | nil =>
    intro w hemp hs hmu _ htask
    have hrng : task ∈ w.running := by
      unfold tasks at htask
      rw [hemp] at htask
      exact htask
    obtain ⟨_, w', -, hrch, -, hended, -⟩ := end_running hs hmu hrng
    exact ⟨w', hrch, hended.released⟩
  | cons first rest ih =>
    intro w hrest hs hmu hwkrs htask
    by_cases hrng : task ∈ w.running
    · obtain ⟨_, w', -, hrch, -, hended, -⟩ := end_running hs hmu hrng
      exact ⟨w', hrch, hended.released⟩
    · have hqueu : task ∈ w.group.queue := (mem_append.mp htask).resolve_right hrng
      -- a worker is idle, or becomes idle by ending the job it has
      obtain ⟨idle, hrch, hidle, hsidle, hmuidle, hque, hwkrs'⟩ :
          ∃ idle : JobWorld T, Runs.Reaches jobStep byWorkers w idle ∧ idle.running.length < idle.group.workers
            ∧ Scheduled idle ∧ idle.mu = none ∧ idle.group.queue = w.group.queue
            ∧ 0 < idle.group.workers := by
        by_cases hidle : w.running.length < w.group.workers
        · exact ⟨w, .refl, hidle, hs, hmu, rfl, hwkrs⟩
        · have hstaffed := hs.staffed
          obtain ⟨first, hfs⟩ := exists_mem_of_length_pos (show 0 < w.running.length by omega)
          obtain ⟨slot, idle, hslot, hrch, hsidle, -, hrng', hmuidle, hque, hwkrs'⟩ :=
            end_running hs hmu hfs
          refine ⟨idle, hrch, ?_, hsidle, hmuidle, hque, hwkrs' ▸ hwkrs⟩
          have hlt := (List.getElem?_eq_some_iff.mp hslot).1
          rw [hrng', hwkrs', length_eraseIdx_of_lt hlt]
          omega
      have hstep := jobStep_take (hque.trans hrest) hidle
      have hok : byWorkers idle .take := trivial
      have htask' : task ∈ rest ++ (idle.running ++ [first]) := by
        refine (taken_perm (hque.trans hrest)).mem_iff.mpr (mem_append_left _ ?_)
        rw [hque]
        exact hqueu
      obtain ⟨w', hrch', hreld⟩ := ih _ rfl (hsidle.step (jobStep_move hstep)) hmuidle hwkrs' htask'
      exact ⟨w', (Runs.Reaches.step hrch hok hstep).trans hrch', hreld⟩

/-- **From every state the workers alone can bring every job to its end.** -/
theorem workers_release (hs : Scheduled w) (hwkrs : 0 < w.group.workers) (htask : task ∈ w.jobs) :
    ∃ w', Reaches jobStep byWorkers w w' ∧ w'.Released task.call := by
  rcases mem_append.mp htask with htasks | hsolo
  · cases hmu : w.mu with
    | none => exact release_tasks _ w rfl hs hmu hwkrs htasks
    | some submission =>
      have hstep : jobStep w .publish = some (w.doPublish submission) := by
        unfold jobStep
        rw [hmu, map_some]
      have hok : byWorkers w .publish := trivial
      obtain ⟨w', hrch, hreld⟩ :=
        release_tasks _ (w.doPublish submission) rfl (hs.step (jobStep_move hstep)) rfl hwkrs htasks
      exact ⟨w', (Reaches.step .refl hok hstep).trans hrch, hreld⟩
  · obtain ⟨slot, hslot⟩ := getElem?_of_mem hsolo
    have hstep := jobStep_finishSolo (.panicked "") hslot
    have hok : byWorkers w (.finishSolo slot (.panicked "")) := trivial
    exact ⟨_, .step .refl hok hstep, (ended_finishSolo hs hslot hstep).released⟩

/-! ## Runs -/

theorem group_step (hs : Scheduled w) {a : JobAction T} (hmove : JobMove w a w') :
    w'.group.maxEntries = w.group.maxEntries ∧ w'.group.workers = w.group.workers := by
  cases hmove with
  | finished htask hmu =>
    obtain ⟨g, hfinish, -, -, hwkrs, hbnd⟩ := hs.finish_spec _ htask hmu
    rw [hfinish]
    exact ⟨hbnd, hwkrs⟩
  | called | cancelled | refused | passed | alone | hit | joined | sent | published | taken
  | finishedSolo | received => exact ⟨rfl, rfl⟩

theorem shared_step {maxEntries : Int} {a : JobAction T} (h : Shared maxEntries w log) (hstep : jobStep w a = some w') :
    Shared maxEntries w' (log ++ jobEvents w a w') := by
  have hmove := jobStep_move hstep
  obtain ⟨hbnd, hwkrs⟩ := group_step h.scheduled hmove
  refine ⟨h.scheduled.step hmove, answered_step h.scheduled hmove h.cache h.answered,
    cacheHolds_step h.scheduled hmove h.cache, hbnd.trans h.bound, ?_⟩
  rw [hwkrs]
  exact h.workers

theorem shared_records {maxEntries : Int}
    (h : Records jobStep always jobEvents (JobWorld.start maxEntries) w log) : Shared maxEntries w log := by
  refine h.invariant (Shared maxEntries) (shared_start maxEntries) ?_
  intro s a s' log' hshared _ hstep
  exact shared_step hshared hstep

/-! ## What callers see of it -/

/-- A context that ends, and a caller that leaves for it, change that caller and nothing else. -/
theorem leaving_frame {index : Nat} {err : String}
    (h : jobStep w (.cancel index err) = some w' ∨ jobStep w (.abandon index) = some w') :
    w' = { w with callers := w'.callers } ∧ ∀ other ≠ index, w'.callers[other]? = w.callers[other]? := by
  have hmodify : ∀ (f : Caller T → Caller T), ∀ other ≠ index, (w.callers.modify index f)[other]? = w.callers[other]? := by
    intro f other hne
    exact getElem?_modify_ne f _ hne.symm
  rcases h with h | h
  · cases h
    exact ⟨rfl, hmodify _⟩
  · cases jobStep_move h with
    | refused ha =>
      rcases ha with ha | ha | ha <;> cases ha
      exact ⟨rfl, hmodify _⟩

theorem receive_released {index call : Nat} {caller : Caller T} (hclr : w.callers[index]? = some caller)
    (hphs : caller.phase = .waiting call) (hreld : w.Released call) :
    (jobStep w (.receive index)).isSome := by
  obtain ⟨c, hcall, hdone⟩ := hreld
  unfold jobStep
  dsimp only
  rw [hclr, bind_eq_bind, bind_some, hphs]
  dsimp only
  rw [hcall, bind_eq_bind, bind_some, if_pos hdone]
  rfl

/--
**Equal requests share one job, and nobody's leaving costs another the result.**

In every state of every run: a key has at most one job in flight; a value a caller
got was computed by a job of its key; a context that ends moves its own caller
alone; whoever waits, waits on a call that is done, and goes on, or on a job of
its key that the workers can end; however a job ends, its call is done, its key
free and an error not cached; and the cache holds results of its keys' jobs, at
most `maxEntries`, those of the keys used last.
-/
theorem jobs_shared (maxEntries : Int) (h : Runs.Records jobStep Runs.always jobEvents (JobWorld.start maxEntries) w log) :
    (∀ key ≠ "", (w.inFlight key).length ≤ 1)
    ∧ (∀ caller ∈ w.callers, ∀ value, caller.phase = .returned value none → .ran caller.key value ∈ log)
    ∧ (∀ index err w', jobStep w (.cancel index err) = some w' ∨ jobStep w (.abandon index) = some w' →
        w' = { w with callers := w'.callers } ∧ ∀ other ≠ index, w'.callers[other]? = w.callers[other]?)
    ∧ (∀ (index : Nat) caller call, w.callers[index]? = some caller → caller.phase = .waiting call →
        (w.Released call ∧ (jobStep w (.receive index)).isSome) ∨ { key := caller.key, call } ∈ w.jobs)
    ∧ (∀ task ∈ w.jobs, ∃ w', Runs.Reaches jobStep byWorkers w w' ∧ w'.Released task.call)
    ∧ (∀ slot outcome task w',
        w.running[slot]? = some task ∧ jobStep w (.finish slot outcome) = some w'
          ∨ w.solo[slot]? = some task ∧ jobStep w (.finishSolo slot outcome) = some w' →
        Ended w w' task outcome.recover)
    ∧ (∀ element ∈ w.group.order, .ran element.value.key element.value.value ∈ log)
    ∧ w.group.entries.keys.length ≤ (newRuntimeJobGroup maxEntries : RuntimeJobGroup T).maxEntries
    ∧ ∀ used ∈ cacheUses log, used ∉ w.group.entries.keys →
        w.group.entries.keys.length = (newRuntimeJobGroup maxEntries : RuntimeJobGroup T).maxEntries
        ∧ ∀ cached ∈ w.group.entries.keys, Lru.UsedSince (cacheUses log) used cached := by
  obtain ⟨hs, hanswered, hcache, hbnd, hwkrs⟩ := shared_records h
  have hlng : w.group.entries.keys.length = (RuntimeJobGroup.cachedKeys w.group.order).length := by
    rw [hcache.indexed.length_keys, RuntimeJobGroup.cachedKeys, length_map]
  refine ⟨fun key hkey => inFlight_le_one hs hkey, ?_, fun index err w' h => leaving_frame h, ?_,
    fun task htask => workers_release hs hwkrs htask, ?_, hanswered.cached, ?_, ?_⟩
  · intro caller hclr value hphs
    obtain ⟨index, hindex⟩ := getElem?_of_mem hclr
    exact (hanswered.served index caller hindex).2 value hphs
  · intro index caller call hclr hphs
    rcases (hanswered.served index caller hclr).1 call hphs with hjob | ⟨c, hcall, hdone, -⟩
    · exact .inr hjob
    · have hreld : w.Released call := ⟨c, hcall, hdone⟩
      exact .inl ⟨hreld, receive_released hclr hphs hreld⟩
  · rintro slot outcome task w' (⟨htask, hstep⟩ | ⟨htask, hstep⟩)
    · exact ended_finish hs htask hstep
    · exact ended_finishSolo hs htask hstep
  · rw [hlng, ← hbnd]
    exact hcache.lru.length_le
  -- a key that was evicted was used before every key that is cached
  · intro used hused hgone
    rw [hcache.indexed.mem_keys] at hgone
    obtain ⟨hfull, hsince⟩ := hcache.lru.evicted hused hgone
    refine ⟨by rw [hlng, ← hbnd]; exact hfull, ?_⟩
    intro cached hcached
    exact hsince cached (hcache.indexed.mem_keys.mp hcached)

/-- Two callers ask for one key and one of them leaves; the job of another key then takes the cache's only place. -/
def twoKeys : List (JobAction Nat) :=
  [.call "rsi" none, .call "rsi" none, .call "ema" none, .check 0, .check 1, .check 2, .lock 0, .take, .publish,
    .lock 1, .cancel 0 "context canceled", .abandon 0, .finish 0 (.returned 7 none), .receive 1, .lock 2, .publish,
    .take, .finish 0 (.returned 9 none)]

theorem jobs_shared_twoKeys :
    ∃ w : JobWorld Nat, ∃ log, Runs.Records jobStep Runs.always jobEvents (JobWorld.start 1) w log
      ∧ w.group.entries.keys = ["ema"] ∧ (∃ caller ∈ w.callers, caller.phase = .returned 7 none)
      ∧ (∀ key ≠ "", (w.inFlight key).length ≤ 1)
      ∧ ∀ used ∈ cacheUses log, used ∉ w.group.entries.keys → Lru.UsedSince (cacheUses log) used "ema" := by
  have hexec : ((Runs.execRecords jobStep (fun _ _ => true) jobEvents (JobWorld.start 1) [] twoKeys).any fun final =>
      final.1.group.entries.keys = ["ema"] && final.1.callers.any fun caller =>
        caller.phase = .returned 7 none) = true := by
    decide +kernel
  obtain ⟨⟨w, log⟩, hfinal, hends⟩ := (any_eq_true _ _).mp hexec
  rw [Bool.and_eq_true, decide_eq_true_eq, List.any_eq_true] at hends
  obtain ⟨hkeys, caller, hclr, hphs⟩ := hends
  have hrun := records_exec hfinal
  obtain ⟨hone, -, -, -, -, -, -, -, hevicted⟩ := jobs_shared 1 hrun
  refine ⟨w, log, hrun, hkeys, ⟨caller, hclr, ?_⟩, hone, ?_⟩
  · exact of_decide_eq_true hphs
  · intro used hused hgone
    refine (hevicted used hused hgone).2 "ema" ?_
    rw [hkeys]
    exact mem_singleton_self _

/-- Requests without a key are not shared: two of their jobs run at once. -/
theorem jobs_sideBySide : ∃ w : JobWorld Nat, Runs.Reaches jobStep Runs.always (JobWorld.start 64) w
    ∧ (w.inFlight "").length = 2 := by
  have hexec : ((Runs.exec jobStep (fun _ _ => true) (JobWorld.start 64 : JobWorld Nat)
      [.call "" none, .call "" none, .check 0, .check 1]).any fun w => (w.inFlight "").length = 2) = true := by
    decide +kernel
  obtain ⟨w, hw, htwo⟩ := (any_eq_true _ _).mp hexec
  exact ⟨w, reaches_exec hw, of_decide_eq_true htwo⟩

end MarketLens.Pine
