import MarketLens.Pine.JobMoves

/-!
# Runs of the job group

Over every interleaving of callers, cancellations and workers: a key has one job in
flight, a value a caller gets was computed by a job of its own key, no caller's
leaving touches a job, and a job that ends, however it ends, is gone from flight
with its waiters released. `Answered` follows the callers and the cached values
along the record of what ran, and the cache is the least recently used one over
that record (`RuntimeJobGroup.CacheHolds`).

A caller with the empty key asks for a job of its own: such jobs run side by side.
-/

namespace MarketLens.Pine

open List Option

variable {T : Type} {w w' : JobWorld T} {a : JobAction T}

/-- What the record keeps of a run. -/
inductive JobEvent (T : Type) where
  /-- A job of the key ran and returned the value without an error. -/
  | ran (key : String) (value : T)
  /-- A caller found the key in the cache. -/
  | hit (key : String)

/-- A use of the cache: a hit, or a result to store. -/
def JobEvent.use : JobEvent T → Option String
  | .ran key _ => if key = "" then none else some key
  | .hit key => some key

def cacheUses (log : List (JobEvent T)) : List String := log.filterMap JobEvent.use

/-- What the end of a job puts on record. -/
def ranEvents (task : Option RuntimeJobTask) (result : T × Option String) : List (JobEvent T) :=
  match task, result.2 with
  | some task, none => [.ran task.key result.1]
  | _, _ => []

def jobEvents [Inhabited T] (w : JobWorld T) (a : JobAction T) (_ : JobWorld T) : List (JobEvent T) :=
  match a with
  | .finish slot outcome => ranEvents w.running[slot]? outcome.recover
  | .finishSolo slot outcome => ranEvents w.solo[slot]? outcome.recover
  | .lock index =>
    match w.callers[index]? with
    | some caller => if (w.group.entries.lookup caller.key).isSome then [.hit caller.key] else []
    | none => []
  | _ => []

/-! ## What callers are told -/

/-- The job of a call is still there, or it has ended and the call holds what it ran to. -/
def Accounted (w : JobWorld T) (log : List (JobEvent T)) (task : RuntimeJobTask) : Prop :=
  task ∈ w.jobs ∨ ∃ call, w.calls[task.call]? = some call ∧ call.done = true
    ∧ (call.err = none → .ran task.key call.value ∈ log)

/-- A caller waits on a job of its own key, and a value it got is one that such a job computed. -/
def Served (w : JobWorld T) (log : List (JobEvent T)) (caller : Caller T) : Prop :=
  (∀ call, caller.phase = .waiting call → Accounted w log { key := caller.key, call })
    ∧ ∀ value, caller.phase = .returned value none → .ran caller.key value ∈ log

structure Answered (w : JobWorld T) (log : List (JobEvent T)) : Prop where
  served : ∀ (index : Nat) caller, w.callers[index]? = some caller → Served w log caller
  submitted : ∀ s, w.mu = some s → ∃ caller, w.callers[s.caller]? = some caller ∧ caller.key = s.task.key
  cached : ∀ element ∈ w.group.order, .ran element.value.key element.value.value ∈ log

section

open JobWorld

variable {log log' : List (JobEvent T)} {caller : Caller T} {task : RuntimeJobTask} {uses : List String}

theorem cacheUses_append (log log' : List (JobEvent T)) : cacheUses (log ++ log') = cacheUses log ++ cacheUses log' :=
  filterMap_append

theorem mem_ranEvents {result : T × Option String} (herr : result.2 = none) :
    .ran task.key result.1 ∈ ranEvents (some task) result := by
  unfold ranEvents
  rw [herr]
  exact mem_singleton_self _

theorem Served.mono (h : Served w log caller)
    (hacc : ∀ task, Accounted w log task → Accounted w' (log ++ log') task) : Served w' (log ++ log') caller :=
  ⟨fun call hphs => hacc _ (h.1 call hphs), fun value hphs => mem_append_left _ (h.2 value hphs)⟩

/-- Nothing is promised to a caller that neither waits nor has a value. -/
theorem served_idle {phase : CallerPhase T} (hwtg : ∀ call, phase ≠ .waiting call)
    (hvalue : ∀ value, phase ≠ .returned value none) : Served w log { caller with phase } :=
  ⟨fun call hphs => absurd hphs (hwtg call), fun value hphs => absurd hphs (hvalue value)⟩

/-- Callers after a step that moved one of them. -/
theorem served_setPhase {index : Nat} {phase : CallerPhase T} (h : Answered w log)
    (hacc : ∀ task, Accounted w log task → Accounted w' (log ++ log') task)
    (hcallers : w'.callers = (w.setPhase index phase).callers)
    (hmvd : ∀ old, w.callers[index]? = some old → Served w' (log ++ log') { old with phase }) :
    ∀ (position : Nat) caller, w'.callers[position]? = some caller → Served w' (log ++ log') caller := by
  intro position caller hclr
  rw [hcallers] at hclr
  rcases setPhase_cases hclr with hold | ⟨-, old, hold, rfl⟩
  · exact (h.served position caller hold).mono hacc
  · exact hmvd old hold

variable {slot : Nat}

theorem cached_finish (hc : RuntimeJobGroup.CacheHolds w.group uses) (h : Answered w log) (hs : Scheduled w)
    {result : T × Option String} (htask : w.running[slot]? = some task) (hmu : w.mu = none) :
    ∀ element ∈ (w.finish task result).group.order,
      .ran element.value.key element.value.value ∈ log ++ ranEvents (some task) result := by
  have hc' : RuntimeJobGroup.CacheHolds { w.group with inflight := w.group.inflight.erase task.key } uses :=
    ⟨hc.indexed, hc.fresh, hc.lru⟩
  rw [hs.finish_eq htask hmu]
  intro element hmem
  split at hmem
  · rename_i herr
    rcases (hc'.store task.key result.1).2 element hmem with hnew | ⟨old, hold, heq⟩
    · rw [hnew]
      exact mem_append_right _ (mem_ranEvents herr)
    · rw [heq]
      exact mem_append_left _ (h.cached old hold)
  · exact mem_append_left _ (h.cached element hmem)

/-! ## Steps of the record -/

variable [Inhabited T]

theorem jobEvents_finish {outcome : WorkOutcome T} (htask : w.running[slot]? = some task) :
    jobEvents w (.finish slot outcome) w' = ranEvents (some task) outcome.recover := by
  unfold jobEvents
  dsimp only
  rw [htask]

theorem jobEvents_finishSolo {outcome : WorkOutcome T} (htask : w.solo[slot]? = some task) :
    jobEvents w (.finishSolo slot outcome) w' = ranEvents (some task) outcome.recover := by
  unfold jobEvents
  dsimp only
  rw [htask]

section Move

variable (hs : Scheduled w) (hmove : JobMove w a w')
include hs hmove

theorem done_step {id : Nat} {call : RuntimeJobCall T}
    (hcall : w.calls[id]? = some call) (hdone : call.done = true) : w'.calls[id]? = some call := by
  have hlt := (List.getElem?_eq_some_iff.mp hcall).1
  have hset : ∀ task ∈ w.jobs, ∀ result, (w.release task.call result).calls[id]? = some call := by
    intro task htask result
    obtain ⟨pending, hpend, hfalse⟩ := hs.pending task htask
    have hne : task.call ≠ id := by
      rintro rfl
      rw [hcall, some.injEq] at hpend
      rw [hpend, hfalse] at hdone
      cases hdone
    unfold release
    rw [getElem?_set_ne hne]
    exact hcall
  cases hmove with
  | alone | sent =>
    rw [List.getElem?_append_left hlt]
    exact hcall
  | finished htask hmu =>
    rw [hs.finish_eq htask hmu]
    exact hset _ (Scheduled.mem_jobs (Scheduled.mem_tasks htask)) _
  | finishedSolo htask => exact hset _ (mem_append_right _ (mem_of_getElem? htask)) _
  | called | cancelled | refused | passed | hit | joined | published | taken | received => exact hcall

/-- **No step loses a job**: it is where it was, has moved on to a worker, or has ended and left its result. -/
theorem accounted_step (h : Accounted w log task) : Accounted w' (log ++ jobEvents w a w') task := by
  rcases h with hjob | ⟨call, hcall, hdone, hran⟩
  -- the job ended is answered, the others stay where they are
  · have hended : ∀ ended result, ended ∈ w.jobs → ranEvents (some ended) result = jobEvents w a w' →
        w'.calls = (w.release ended.call result).calls →
        (∀ other, other ∈ w.jobs → other = ended ∨ other ∈ w'.jobs) →
        Accounted w' (log ++ jobEvents w a w') task := by
      intro ended result hmem hevs hcalls hrest
      rcases hrest task hjob with rfl | hkept
      · refine .inr ⟨{ done := true, value := result.1, err := result.2 }, ?_, rfl, ?_⟩
        · rw [hcalls]
          exact getElem?_set_self (hs.call_lt hmem)
        · intro herr
          rw [← hevs]
          unfold ranEvents
          dsimp only at herr
          rw [herr]
          exact mem_append_right _ (mem_singleton_self _)
      · exact .inl hkept
    cases hmove with
    | @finished slot outcome ended htask hmu =>
      obtain ⟨g, hfinish, hque, -⟩ := hs.finish_spec outcome.recover htask hmu
      rw [hfinish] at hended ⊢
      refine hended ended outcome.recover (Scheduled.mem_jobs (Scheduled.mem_tasks htask)) (jobEvents_finish htask).symm rfl ?_
      intro other hoth
      unfold jobs tasks
      rw [hque]
      rcases mem_append.mp hoth with htasks | hsolo
      · rcases mem_cons.mp ((Scheduled.tasks_perm htask).mem_iff.mp htasks) with rfl | hkept
        · exact .inl rfl
        · exact .inr (mem_append_left _ hkept)
      · exact .inr (mem_append_right _ hsolo)
    | @finishedSolo slot outcome ended htask =>
      refine hended ended outcome.recover (mem_append_right _ (mem_of_getElem? htask)) (jobEvents_finishSolo htask).symm rfl ?_
      intro other hoth
      rcases mem_append.mp hoth with htasks | hsolo
      · exact .inr (mem_append_left _ htasks)
      · rcases mem_cons.mp ((Scheduled.perm_eraseIdx htask).mem_iff.mp hsolo) with rfl | hkept
        · exact .inl rfl
        · exact .inr (mem_append_right _ hkept)
    | alone =>
      refine .inl ?_
      rcases mem_append.mp hjob with htasks | hsolo
      · exact mem_append_left _ htasks
      · exact mem_append_right _ (mem_append_left _ hsolo)
    | sent =>
      refine .inl ?_
      rcases mem_append.mp hjob with htasks | hsolo
      · rcases mem_append.mp htasks with hque | hrng
        · exact mem_append_left _ (mem_append_left _ (mem_append_left _ hque))
        · exact mem_append_left _ (mem_append_right _ hrng)
      · exact mem_append_right _ hsolo
    | @taken first rest hque =>
      refine .inl ((Scheduled.taken_perm hque).append_right w.solo |>.mem_iff.mpr hjob)
    | called | cancelled | refused | passed | hit | joined | published | received => exact .inl hjob
  · exact .inr ⟨call, done_step hs hmove hcall hdone, hdone, fun herr => mem_append_left _ (hran herr)⟩

/-! ## The step of the invariant -/

theorem key_step {index : Nat} (hclr : w.callers[index]? = some caller) :
    ∃ caller', w'.callers[index]? = some caller' ∧ caller'.key = caller.key := by
  have hset : ∀ position phase, ∃ caller', (w.setPhase position phase).callers[index]? = some caller'
      ∧ caller'.key = caller.key := by
    intro position phase
    unfold setPhase
    rw [getElem?_modify, hclr]
    refine ⟨_, rfl, ?_⟩
    split <;> rfl
  cases hmove with
  | called =>
    refine ⟨caller, ?_, rfl⟩
    rw [List.getElem?_append_left (List.getElem?_eq_some_iff.mp hclr).1]
    exact hclr
  | cancelled =>
    rw [getElem?_modify, hclr]
    refine ⟨_, rfl, ?_⟩
    split <;> rfl
  | finished htask hmu =>
    obtain ⟨g, hfinish, -, -⟩ := hs.finish_spec _ htask hmu
    rw [hfinish]
    exact ⟨caller, hclr, rfl⟩
  | sent | taken | finishedSolo => exact ⟨caller, hclr, rfl⟩
  | refused | passed | alone | hit | joined | published | received => exact hset _ _

/-- A step serves the caller it moves, and what the others were served stays so. -/
theorem served_step (hc : RuntimeJobGroup.CacheHolds w.group uses) (h : Answered w log) :
    ∀ (index : Nat) caller, w'.callers[index]? = some caller → Served w' (log ++ jobEvents w a w') caller := by
  have hacc : ∀ task, Accounted w log task → Accounted w' (log ++ jobEvents w a w') task :=
    fun task => accounted_step hs hmove
  have hkept : w'.callers = w.callers →
      ∀ (index : Nat) caller, w'.callers[index]? = some caller → Served w' (log ++ jobEvents w a w') caller := by
    intro hcallers index caller hclr
    rw [hcallers] at hclr
    exact (h.served index caller hclr).mono hacc
  cases hmove with
  | called =>
    intro index caller hclr
    rcases called_cases hclr with hold | harrived
    · exact (h.served index caller hold).mono hacc
    · refine ⟨fun call hphs => ?_, fun value hphs => ?_⟩ <;> rw [harrived] at hphs <;> cases hphs
  | cancelled =>
    intro index caller hclr
    obtain ⟨old, hold, hkey, hphs⟩ := cancel_cases hclr
    obtain ⟨hwtg, hvalue⟩ := (h.served index old hold).mono hacc
    rw [← hkey, ← hphs] at hwtg hvalue
    exact ⟨hwtg, hvalue⟩
  | refused | passed =>
    exact served_setPhase h hacc rfl fun old _ => served_idle (fun _ h => nomatch h) fun _ h => nomatch h
  | @alone index caller hclr hkey =>
    refine served_setPhase h hacc rfl fun old hold => ⟨fun call hphs => .inl ?_, fun value hphs => nomatch hphs⟩
    rw [hclr, some.injEq] at hold
    cases hphs
    rw [← hold, hkey]
    exact mem_append_right _ (mem_append_right _ (mem_singleton_self _))
  | @hit index caller id hclr hlkup =>
    refine served_setPhase h hacc rfl fun old hold => ⟨(fun call hphs => nomatch hphs), fun value hphs => ?_⟩
    rw [hclr, some.injEq] at hold
    obtain ⟨element, hmem, -, hkey, hfind⟩ := hc.element hlkup
    rw [hfind] at hphs
    cases hphs
    rw [← hold, ← hkey]
    exact mem_append_left _ (h.cached element hmem)
  | @joined index caller call hclr hmu hents hinf =>
    refine served_setPhase h hacc rfl fun old hold => ⟨fun call hphs => .inl ?_, fun value hphs => nomatch hphs⟩
    rw [hclr, some.injEq] at hold
    cases hphs
    rw [← hold]
    exact mem_append_left _ ((hs.published _).mpr (.inl hinf))
  | @published submission hmu =>
    refine served_setPhase h hacc rfl fun old hold => ⟨fun call hphs => .inl ?_, fun value hphs => nomatch hphs⟩
    obtain ⟨caller, hclr, hkey⟩ := h.submitted submission hmu
    rw [hclr, some.injEq] at hold
    cases hphs
    rw [← hold, hkey]
    exact mem_append_left _ ((hs.published _).mpr (.inr ⟨submission, hmu, rfl⟩))
  | @received index caller id call hclr hphs hcall hdone =>
    refine served_setPhase h hacc rfl fun old hold => ⟨(fun call hphs => nomatch hphs), fun value hvalue => ?_⟩
    rw [hclr, some.injEq] at hold
    subst hold
    rw [CallerPhase.returned.injEq] at hvalue
    obtain ⟨rfl, herr⟩ := hvalue
    -- the job that was waited for has ended, and its run is in the log
    rcases (h.served index caller hclr).1 id hphs with hjob | ⟨ended, hended, -, hran⟩
    · obtain ⟨pending, hpend, hfalse⟩ := hs.pending _ hjob
      rw [hcall, some.injEq] at hpend
      rw [hpend, hfalse] at hdone
      cases hdone
    · rw [hcall, some.injEq] at hended
      rw [← hended] at hran
      exact mem_append_left _ (hran herr)
  | finished htask hmu =>
    obtain ⟨g, hfinish, -, -⟩ := hs.finish_spec _ htask hmu
    exact hkept (by rw [hfinish]; rfl)
  | sent | taken | finishedSolo => exact hkept rfl

theorem answered_step (hc : RuntimeJobGroup.CacheHolds w.group uses) (h : Answered w log) : Answered w' (log ++ jobEvents w a w') where
  served := served_step hs hmove hc h
  submitted := by
    have hkept : ∀ s, w.mu = some s → ∃ caller, w'.callers[s.caller]? = some caller ∧ caller.key = s.task.key := by
      intro s hmu
      obtain ⟨caller, hclr, hkey⟩ := h.submitted s hmu
      obtain ⟨caller', hclr', hkey'⟩ := key_step hs hmove hclr
      exact ⟨caller', hclr', hkey'.trans hkey⟩
    intro s hmu
    cases hmove with
    | sent hclr =>
      cases hmu
      exact ⟨_, hclr, rfl⟩
    | published => cases hmu
    | finished htask hfree =>
      obtain ⟨g, hfinish, -, -⟩ := hs.finish_spec _ htask hfree
      rw [hfinish] at hmu
      exact hkept s hmu
    | called | cancelled | refused | passed | alone | hit | joined | taken | finishedSolo | received => exact hkept s hmu
  cached := by
    cases hmove with
    | finished htask hmu =>
      rw [jobEvents_finish htask]
      exact cached_finish hc h hs htask hmu
    | hit hclr hlkup =>
      intro element hmem
      obtain ⟨old, hold, rfl, -, -⟩ := hc.element hlkup
      have hperm := RuntimeJobGroup.moveToBack_perm hc.indexed.ids hold
      exact mem_append_left _ (h.cached element (hperm.mem_iff.mp hmem))
    | called | cancelled | refused | passed | alone | joined | sent | published | taken | finishedSolo
    | received =>
      exact fun element hmem => mem_append_left _ (h.cached element hmem)

/-! ## The cache over the record -/

theorem cacheHolds_step (hc : RuntimeJobGroup.CacheHolds w.group (cacheUses log)) :
    RuntimeJobGroup.CacheHolds w'.group (cacheUses (log ++ jobEvents w a w')) := by
  rw [cacheUses_append]
  have hsame : cacheUses (jobEvents w a w') = [] →
      RuntimeJobGroup.CacheHolds w.group (cacheUses log ++ cacheUses (jobEvents w a w')) := by
    intro hnone
    rw [hnone, append_nil]
    exact hc
  -- A lock that finds no entry does not use the cache.
  have hmiss : ∀ {index : Nat}, a = .lock index →
      (∀ caller, w.callers[index]? = some caller → w.group.entries.lookup caller.key = none) →
      cacheUses (jobEvents w a w') = [] := by
    intro index ha hnone
    subst ha
    unfold jobEvents
    dsimp only
    split
    · rename_i caller hclr
      rw [hnone caller hclr]
      rfl
    · rfl
  cases hmove with
  | called | cancelled | passed | alone | received => exact hsame rfl
  | published | taken =>
    have h := hsame rfl
    exact ⟨h.indexed, h.fresh, h.lru⟩
  | refused ha hnone =>
    refine hsame ?_
    rcases ha with rfl | rfl | rfl
    · rfl
    · exact hmiss rfl fun caller hclr => (hnone caller hclr).resolve_right fun h => h rfl
    · rfl
  | joined hclr _ hents =>
    refine hsame (hmiss rfl fun other hoth => ?_)
    rw [hclr, some.injEq] at hoth
    rw [← hoth]
    exact hents
  | sent hclr _ _ hents =>
    have h := hsame (hmiss rfl fun other hoth => by
      rw [hclr, some.injEq] at hoth
      rw [← hoth]
      exact hents)
    exact ⟨h.indexed, h.fresh, h.lru⟩
  | @hit index caller id hclr hlkup =>
    have hevs : ∀ final, cacheUses (jobEvents w (.lock index) final) = [caller.key] := by
      intro final
      unfold jobEvents
      dsimp only
      rw [hclr]
      dsimp only
      rw [hlkup]
      rfl
    rw [hevs]
    exact hc.hit hlkup
  | @finished slot outcome task htask hmu =>
    rw [jobEvents_finish htask, hs.finish_eq htask hmu]
    have hc' : RuntimeJobGroup.CacheHolds { w.group with inflight := w.group.inflight.erase task.key }
        (cacheUses log) := ⟨hc.indexed, hc.fresh, hc.lru⟩
    unfold ranEvents
    by_cases herr : outcome.recover.2 = none
    · rw [if_pos herr, herr]
      have huse : cacheUses [.ran task.key outcome.recover.1] = [task.key] := by
        unfold cacheUses JobEvent.use
        rw [filterMap_cons]
        dsimp only
        rw [if_neg (hs.keyed task (Scheduled.mem_tasks htask))]
        rfl
      rw [huse]
      exact (hc'.store _ _).1
    · obtain ⟨err, herr⟩ := ne_none_iff_exists'.mp herr
      rw [herr]
      have h := hc'
      rw [← append_nil (cacheUses log)] at h
      exact h
  | @finishedSolo slot outcome task htask =>
    refine hsame ?_
    rw [jobEvents_finishSolo htask]
    unfold ranEvents
    split
    · rename_i ended hended _
      cases hended
      unfold cacheUses JobEvent.use
      rw [filterMap_cons]
      dsimp only
      rw [if_pos (hs.solo task (mem_of_getElem? htask))]
      rfl
    · rfl

end Move

end

end MarketLens.Pine
