import MarketLens.Alerts.FiresOnce

/-!
# A triggered alert and the event that triggered it

A trigger that comes to an alert that has fired answers with the event of the
arming revision. As long as no history is deleted there is one, unless an edit has
moved the alert on to another arming revision and left it triggered.
-/

namespace MarketLens.Alerts

open Table List Option Fallible Runs

variable {platform : Platform} {store store' : Store}

/-! ## What is promised -/

/-- There is an event for what a trigger finds triggered, or one of before the arming revisions. -/
def Alert.Explained (events : List EventRow) (row : Alert) : Prop :=
  row.status = .triggered → ∃ event ∈ events, event.alertId = some row.id ∧
    (event.armingRevision = some row.armingRevision ∨ event.armingRevision = none)

def Store.Explained (store : Store) : Prop := ∀ row ∈ store.alerts, row.Explained store.events

/-- A call of `Trigger` on the alert, of its arming revision and with evidence that satisfies it, fires. -/
def CanTrigger (platform : Platform) (store : Store) (row : Alert) : Prop :=
  ∀ request input current targetPrice, normalizeTriggerInput request.input = .ok (input, current) →
    findAlert platform store request.userId request.ref = some row → input.armingRevision = row.armingRevision →
    evaluateTrigger platform row input current = .ok targetPrice →
    ∃ locked running, beginTrigger platform request store = some locked ∧ locked.runningOn row.id = some running ∧
      decideTrigger platform locked.events running = .fire targetPrice

/-- A triggered alert that a step has moved on to another arming revision is active again, and can be triggered. -/
def Rearms (platform : Platform) (store store' : Store) : Prop :=
  ∀ row ∈ store.alerts, ∀ row' ∈ store'.alerts, row'.id = row.id → row.status = .triggered →
    row.armingRevision < row'.armingRevision →
    row'.status = .active ∧ (row'.enabled = true → CanTrigger platform store' row')

/-- A step of creating, patching or triggering that deletes nothing of the history, not by the prune of a
trigger either. -/
def KeepsHistory (store : Store) : Action → Prop
  | .delete _ _ => False
  | .commit alertId => ∀ running item event deleted, store.runningOn alertId = some running →
      running.progress = .pruned item event deleted → deleted = []
  | .historyCleared _ => False
  | _ => True

/-! ## When an edit moves an alert on -/

/-- An edit of a triggered alert that its `CASE` takes for a new arming is a patch that asks for the status `active`. -/
def asksForActive (platform : Platform) (store : Store) : Action → Bool
  | .create userId input id =>
    match normalizeCreate platform input with
    | .error _ => true
    | .ok input =>
      match priceColumn input.price with
      | .error _ => true
      | .ok price =>
        (store.alerts.find? (sameClient (createdRow id userId input price))).all fun row =>
          row.status ≠ .triggered || !createRearms row (createdRow id userId input price)
  | .patch userId ref input =>
    match normalizePatch platform input with
    | .error _ => true
    | .ok input =>
      match findAlert platform store userId ref, validateOptional priceColumn input.price with
      | some row, .ok _ => row.status ≠ .triggered || !patchRearms input row || input.status = some "active"
      | _, _ => true
  | _ => true

theorem upsertedRow_revision (row excluded : Alert) :
    (upsertedRow row excluded).armingRevision = row.armingRevision + if createRearms row excluded then 1 else 0 := rfl

theorem patchedRow_revision (input : PatchInput) (price : Option ℚ) (row : Alert) :
    (patchedRow input price row).armingRevision = row.armingRevision + if patchRearms input row then 1 else 0 := rfl

variable {row : Alert}

theorem asks_create {userId id : Uuid} {input created : CreateInput} {price : ℚ}
    (h : asksForActive platform store (.create userId input id) = true) (hnorm : normalizeCreate platform input = .ok created)
    (hprc : priceColumn created.price = .ok price)
    (hfind : store.alerts.find? (sameClient (createdRow id userId created price)) = some row) (htrig : row.status = .triggered) :
    createRearms row (createdRow id userId created price) = false := by
  simp only [asksForActive, hnorm, hprc, hfind, all_some, htrig] at h
  simpa using h

theorem asks_patch {userId : Uuid} {ref : String} {input patched : PatchInput} {price : Option ℚ}
    (h : asksForActive platform store (.patch userId ref input) = true) (hnorm : normalizePatch platform input = .ok patched)
    (hprc : validateOptional priceColumn patched.price = .ok price) (hfind : findAlert platform store userId ref = some row)
    (htrig : row.status = .triggered) (hrearms : patchRearms patched row = true) : patched.status = some "active" := by
  simp only [asksForActive, hnorm, hprc, hfind, htrig, hrearms] at h
  simpa using h

/-! ## What an action does -/

variable {alertId : Uuid}

theorem commit_tables (h : commit alertId store = some store') :
    ∃ running item event deleted, store.runningOn alertId = some running ∧ running.progress = .pruned item event deleted ∧
      store'.alerts = updateWhere (·.id = alertId) (fun _ => item) store.alerts ∧
      store'.events = (store.events ++ [event]).filter (!deleted.contains ·.id) ∧
      store'.journal = store.journal ++ [.answered running.request (.new item (scanEvent event))] := by
  obtain ⟨running, hrng, h⟩ := bind_eq_some_iff.mp h
  split at h
  · rename_i item event deleted hprog
    cases h
    exact ⟨running, item, event, deleted, hrng, hprog, rfl, rfl, rfl⟩
  · cases h

/-- The actions that edit no alert and close no trigger. -/
def Action.looksOn : Action → Bool
  | .beginTrigger _ | .decide _ _ | .prune _ | .abort _ | .clearHistory _ => true
  | _ => false

variable {action : Action}

/-- They leave the tables as they are, and answer nothing as new. -/
theorem looksOn_kept (hlooks : action.looksOn = true) (h : step platform store action = some store') :
    store'.alerts = store.alerts ∧ store'.events = store.events ∧
      ∀ i request item event, NewAt store'.journal i request item event → NewAt store.journal i request item event := by
  have hold : ∀ request answer, (∀ item event, answer ≠ .new item event) → ∀ i request' item event,
      NewAt (store.journal ++ [.answered request answer]) i request' item event → NewAt store.journal i request' item event := by
    intro request answer hne i request' item event hnew
    exact (newAt_of_concat (fun _ item event hsame => hne item event (by cases hsame; rfl)) hnew).2
  have hrefd : ∀ error item event, Answer.refused error ≠ .new item event := fun _ _ _ hsame => by cases hsame
  cases action with
  | beginTrigger =>
    simp only [step, beginTrigger] at h
    split at h
    · cases h
      exact ⟨rfl, rfl, hold _ _ (hrefd _)⟩
    · split at h
      · cases h
        exact ⟨rfl, rfl, hold _ _ (hrefd _)⟩
      · split at h
        · cases h
        split at h
        · cases h
          exact ⟨rfl, rfl, hold _ _ (hrefd _)⟩
        · cases h
          exact ⟨rfl, rfl, fun _ _ _ _ hnew => hnew⟩
  | decide =>
    obtain ⟨running, _, h⟩ := bind_eq_some_iff.mp h
    split at h
    · cases h
    split at h
    · rename_i answer hdec
      cases h
      refine ⟨rfl, rfl, hold _ answer ?_⟩
      intro item event hsame
      rw [hsame] at hdec
      exact decideTrigger_ne_new hdec
    · split at h
      · cases h
        exact ⟨rfl, rfl, hold _ _ (hrefd _)⟩
      · cases h
        exact ⟨rfl, rfl, fun _ _ _ _ hnew => hnew⟩
  | prune =>
    obtain ⟨running, _, h⟩ := bind_eq_some_iff.mp h
    split at h <;> cases h
    exact ⟨rfl, rfl, fun _ _ _ _ hnew => hnew⟩
  | abort | clearHistory =>
    cases h
    exact ⟨rfl, rfl, fun _ _ _ _ hnew => hnew⟩
  | _ => cases hlooks

/-! ## Every new answer is in the history -/

/-- The tables and the journal agree, and the history has every event that was answered as new. -/
structure Told (platform : Platform) (store : Store) : Prop where
  coherent : Coherent platform store
  answered : ∀ i request item event, NewAt store.journal i request item event →
    ∃ row ∈ store.events, row.alertId = some item.id ∧ row.armingRevision = some item.armingRevision ∧ scanEvent row = event

/-- A history that has every event recognises every attempt. -/
theorem Told.kept (h : Told platform store) (action : Action) : Kept platform store action := by
  cases action with
  | decide =>
    intro running i request item event _ hnew hid hrev htime _
    obtain ⟨row, hrow, hale, harmed, hscan⟩ := h.answered i request item event hnew
    refine ⟨row, hrow, ?_⟩
    have hat : row.triggeredAt = evidenceTimestamp running.current.timestamp := by
      rw [← htime, ← hscan]
      rfl
    unfold isAttempt
    rw [hale, harmed, hid, hrev, hat]
    simp
  | _ => trivial

/-- What a trigger that commits has written. -/
theorem Told.written {running : Running} {item : Alert} {event : EventRow} {deleted : List Uuid}
    (h : Told platform store) (hrng : store.runningOn alertId = some running)
    (hprog : running.progress = .pruned item event deleted) :
    running.row ∈ store.alerts ∧ running.row.id = alertId ∧ item.id = alertId ∧
      item.armingRevision = running.row.armingRevision ∧ event.alertId = some item.id ∧
      event.armingRevision = some item.armingRevision := by
  obtain ⟨hin, halertId⟩ := runningOn_mem hrng
  have hhld := h.coherent.held running hin
  obtain ⟨hid, hrev, _, hale, harmed, _⟩ := committed_row (hhld.writes item event (by rw [hprog]; rfl))
  exact ⟨hhld.mem, halertId, hid.trans halertId, hrev, hale, harmed⟩

/-- A commit that prunes nothing keeps the history and adds its event. -/
theorem filter_nil_events (events : List EventRow) : events.filter (!([] : List Uuid).contains ·.id) = events := by simp

theorem Told.step (h : Told platform store) (hkeeps : KeepsHistory store action)
    (hstep : Alerts.step platform store action = some store') : Told platform store' := by
  refine ⟨h.coherent.step (h.kept action) hstep, ?_⟩
  by_cases hlooks : action.looksOn = true
  · obtain ⟨_, hevs, hjournal⟩ := looksOn_kept hlooks hstep
    intro i request item event hnew
    rw [hevs]
    exact h.answered i request item event (hjournal i request item event hnew)
  · cases action with
    | create =>
      rcases create_ok hstep with rfl | ⟨created, price, row, _, _, _, _, rfl⟩ | ⟨row, _, _, _, rfl⟩
      · exact h.answered
      · intro i request item event hnew
        exact h.answered i request item event (newAt_of_concat (edited_ne_new row.id) hnew).2
      · exact h.answered
    | patch =>
      rcases patch_ok hstep with rfl | ⟨patched, price, row, _, _, _, _, rfl⟩
      · exact h.answered
      · intro i request item event hnew
        exact h.answered i request item event (newAt_of_concat (edited_ne_new row.id) hnew).2
    | commit =>
      obtain ⟨running, item, event, deleted, hrng, hprog, _, hevs, hjournal⟩ := commit_tables hstep
      obtain rfl := hkeeps running item event deleted hrng hprog
      obtain ⟨_, _, _, _, hale, harmed⟩ := h.written hrng hprog
      intro i request item' event' hnew
      rw [hjournal] at hnew
      rw [hevs, filter_nil_events]
      rcases newAt_concat hnew with ⟨_, hold⟩ | ⟨_, hlast⟩
      · obtain ⟨row, hrow, hfnd⟩ := h.answered i request item' event' hold
        exact ⟨row, mem_append_left _ hrow, hfnd⟩
      · cases hlast
        exact ⟨event, mem_append_right _ (mem_singleton_self event), hale, harmed, rfl⟩
    | delete | historyCleared => exact absurd hkeeps id
    | _ => exact absurd rfl hlooks

/-! ## What a step leaves explained -/

theorem Alert.Explained.of_same {events events' : List EventRow} {row row' : Alert} (h : row.Explained events)
    (hevs : ∀ event ∈ events, event ∈ events') (hid : row'.id = row.id)
    (hkept : row'.status = .triggered → row.status = .triggered ∧ row'.armingRevision = row.armingRevision) :
    row'.Explained events' := by
  intro htrig
  obtain ⟨hold, hrev⟩ := hkept htrig
  obtain ⟨event, hevt, hale, harmed⟩ := h hold
  refine ⟨event, hevs event hevt, ?_, ?_⟩
  · rw [hid]
    exact hale
  · rw [hrev]
    exact harmed

/-- What an edit makes of the one row it is about, the others being as they were. -/
theorem explained_edit {f : Alert → Alert} (h : store.Explained)
    (hf : ∀ row ∈ store.alerts, row.id = alertId → (f row).id = row.id ∧
      ((f row).status = .triggered → row.status = .triggered ∧ (f row).armingRevision = row.armingRevision)) :
    ∀ row ∈ updateWhere (·.id = alertId) f store.alerts, row.Explained store.events := by
  intro row hrow
  rcases updateWhere_cases hrow with ⟨hold, _⟩ | ⟨old, hold, hsame, rfl⟩
  · exact h row hold
  · obtain ⟨hid, hkept⟩ := hf old hold (by simpa using hsame)
    exact (h old hold).of_same (fun _ hevt => hevt) hid hkept

theorem Told.unique {row found : Alert} (h : Told platform store) (hrow : row ∈ store.alerts) (hfnd : found ∈ store.alerts)
    (hid : row.id = found.id) : row = found :=
  inj_on_of_nodup_map h.coherent.rows.ids hrow hfnd hid

theorem patchedRow_triggered {input : PatchInput} {price : Option ℚ}
    (h : (patchedRow input price row).status = .triggered) : input.status = none ∧ row.status = .triggered := by
  change patchedStatus input.status row.status = .triggered at h
  cases hask : input.status with
  | none =>
    rw [hask] at h
    exact ⟨rfl, h⟩
  | some =>
    rw [hask] at h
    unfold patchedStatus at h
    simp only at h
    split at h <;> cases h

theorem Told.explained_step (h : Told platform store) (hexp : store.Explained)
    (hkeeps : KeepsHistory store action) (hasks : asksForActive platform store action = true)
    (hstep : Alerts.step platform store action = some store') : store'.Explained := by
  by_cases hlooks : action.looksOn = true
  · obtain ⟨halerts, hevs, _⟩ := looksOn_kept hlooks hstep
    unfold Store.Explained
    rw [halerts, hevs]
    exact hexp
  · cases action with
    | create =>
      rcases create_ok hstep with rfl | ⟨created, price, row, hnorm, hprc, hfind, _, rfl⟩ | ⟨row, hactv, _, _, rfl⟩
      · exact hexp
      · refine explained_edit hexp ?_
        intro other hoth hid
        obtain rfl := h.unique hoth (mem_of_find?_eq_some hfind) hid
        refine ⟨rfl, fun htrig => ⟨htrig, ?_⟩⟩
        rw [upsertedRow_revision, asks_create hasks hnorm hprc hfind htrig]
        exact Int.add_zero _
      · intro other hoth
        rcases mem_append.mp hoth with hold | hnew
        · exact hexp other hold
        · rw [mem_singleton.mp hnew]
          intro htrig
          rw [hactv] at htrig
          cases htrig
    | patch =>
      rcases patch_ok hstep with rfl | ⟨patched, price, row, hnorm, hprc, hfind, _, rfl⟩
      · exact hexp
      refine explained_edit hexp ?_
      intro other hoth hid
      obtain rfl := h.unique hoth (findAlert_mem hfind).1 hid
      refine ⟨rfl, fun htrig => ?_⟩
      obtain ⟨hnone, hold⟩ := patchedRow_triggered htrig
      refine ⟨hold, ?_⟩
      rw [patchedRow_revision]
      by_cases hrearms : patchRearms patched other = true
      · have hactv := asks_patch hasks hnorm hprc hfind hold hrearms
        rw [hnone] at hactv
        cases hactv
      · rw [if_neg hrearms]
        exact Int.add_zero _
    | commit =>
      obtain ⟨running, item, event, deleted, hrng, hprog, halerts, hevs, _⟩ := commit_tables hstep
      -- the commit prunes nothing, so the events only grow
      obtain rfl := hkeeps running item event deleted hrng hprog
      obtain ⟨_, _, _, _, hale, harmed⟩ := h.written hrng hprog
      intro other hoth
      rw [halerts] at hoth
      rw [hevs, filter_nil_events]
      rcases updateWhere_cases hoth with ⟨hold, _⟩ | ⟨_, _, _, rfl⟩
      · exact (hexp other hold).of_same (fun _ hevt => mem_append_left _ hevt) rfl fun htrig => ⟨htrig, rfl⟩
      · intro _
        exact ⟨event, mem_append_right _ (mem_singleton_self event), hale, .inl harmed⟩
    | delete | historyCleared => exact absurd hkeeps id
    | _ => exact absurd rfl hlooks

/-! ## What a step arms again -/

theorem Told.not_ahead {event : EventRow} {revision : Int} (h : Told platform store) (hrow : row ∈ store.alerts)
    (hevt : event ∈ store.events) (hale : event.alertId = some row.id) (harmed : event.armingRevision = some revision) :
    revision ≤ row.armingRevision := by
  obtain ⟨i, request, item, hnew, hid, hrev⟩ := h.coherent.logged.events event hevt row.id revision hale harmed
  rw [← hrev]
  exact (h.coherent.logged.since i request item _ hnew row hrow hid.symm).revision

theorem canTrigger_of_unfired (hfree : isHeld store row.id = false) (hactv : row.status = .active) (henab : row.enabled = true)
    (hnone : ∀ event ∈ store.events, event.alertId = some row.id → event.armingRevision ≠ some row.armingRevision) :
    CanTrigger platform store row := by
  intro request input current targetPrice hnorm hfind hrev hevaluate
  refine ⟨{ store with running := ⟨request, input, current, row, .locked⟩ :: store.running },
    ⟨request, input, current, row, .locked⟩, ?_, ?_, ?_⟩
  · simp [beginTrigger, hnorm, hfind, hfree, hrev]
  · simp [Store.runningOn]
  · have hfsh : store.events.find? (isAttempt row (evidenceTimestamp current.timestamp)) = none := by
      refine find?_eq_none.mpr fun event hevt hatt => ?_
      unfold isAttempt at hatt
      simp only [Bool.and_eq_true, decide_eq_true_eq] at hatt
      exact hnone event hevt hatt.1.1 hatt.1.2
    simp [decideTrigger, decideAttempt, hactv, henab, hevaluate, hfsh]

theorem Told.rearms_step (h : Told platform store) (hkeeps : KeepsHistory store action)
    (hasks : asksForActive platform store action = true) (hstep : Alerts.step platform store action = some store') :
    Rearms platform store store' := by
  intro row hrow row' hrow' hid htrig hmvd
  -- An alert that is there as it was has not been moved on.
  have hstays : row' ∉ store.alerts := by
    intro hold
    rw [h.unique hold hrow hid] at hmvd
    omega
  by_cases hlooks : action.looksOn = true
  · rw [(looksOn_kept hlooks hstep).1] at hrow'
    exact absurd hrow' hstays
  · cases action with
    | create =>
      rcases create_ok hstep with rfl | ⟨created, price, found, hnorm, hprc, hfind, _, rfl⟩ | ⟨new, _, hfsh, _, rfl⟩
      · exact absurd hrow' hstays
      · rcases updateWhere_cases hrow' with ⟨hold, _⟩ | ⟨old, hold, hsame, rfl⟩
        · exact absurd hold hstays
        obtain rfl := h.unique hold hrow hid
        obtain rfl := h.unique hold (mem_of_find?_eq_some hfind) (by simpa using hsame)
        rw [upsertedRow_revision, asks_create hasks hnorm hprc hfind htrig] at hmvd
        exact absurd hmvd (by simp)
      · rcases mem_append.mp hrow' with hold | hnew
        · exact absurd hold hstays
        rw [mem_singleton.mp hnew] at hid
        rw [hid] at hfsh
        exact absurd (h.coherent.rows.issued row hrow) hfsh
    | patch =>
      rcases patch_ok hstep with rfl | ⟨patched, price, found, hnorm, hprc, hfind, hfree, rfl⟩
      · exact absurd hrow' hstays
      rcases updateWhere_cases hrow' with ⟨hold, _⟩ | ⟨old, hold, hsame, rfl⟩
      · exact absurd hold hstays
      obtain rfl := h.unique hold hrow hid
      obtain rfl := h.unique hold (findAlert_mem hfind).1 (by simpa using hsame)
      have hrearms : patchRearms patched old = true := by
        by_contra hnot
        rw [patchedRow_revision, if_neg hnot] at hmvd
        omega
      have hask := asks_patch hasks hnorm hprc hfind htrig hrearms
      have hactv : (patchedRow patched price old).status = .active := by
        show patchedStatus patched.status old.status = .active
        rw [hask]
        rfl
      refine ⟨hactv, fun henab => canTrigger_of_unfired hfree hactv henab ?_⟩
      intro event hevt hale harmed
      have hbnd := h.not_ahead hrow hevt hale harmed
      omega
    | commit =>
      obtain ⟨running, item, event, deleted, hrng, hprog, halerts, _, _⟩ := commit_tables hstep
      obtain ⟨hmem, hrunningId, hitemId, hrev, _, _⟩ := h.written hrng hprog
      rw [halerts] at hrow'
      rcases updateWhere_cases hrow' with ⟨hold, _⟩ | ⟨_, _, _, rfl⟩
      · exact absurd hold hstays
      · obtain rfl := h.unique hmem hrow (hrunningId.trans (hitemId.symm.trans hid))
        omega
    | delete | historyCleared => exact absurd hkeeps id
    | _ => exact absurd rfl hlooks

/-- A step that arms again what it moves on asks for it. -/
theorem asks_of_rearms (hrearms : Rearms platform store store')
    (hstep : step platform store action = some store') : asksForActive platform store action = true := by
  cases action with
  | create userId input id =>
    simp only [asksForActive]
    split
    · rfl
    rename_i created hnorm
    split
    · rfl
    rename_i price hprc
    cases hfind : store.alerts.find? (sameClient (createdRow id userId created price)) with
    | none => rfl
    | some row =>
      rw [all_some, Bool.or_eq_true, decide_eq_true_eq, Bool.not_eq_true']
      by_contra hnot
      simp only [not_or, ne_eq, not_not, Bool.not_eq_false] at hnot
      obtain ⟨htrig, hmvd⟩ := hnot
      simp only [step, create, hnorm, hprc, hfind] at hstep
      split at hstep
      · cases hstep
      cases hstep
      have hmem := mem_of_find?_eq_some hfind
      have hactv := (hrearms row hmem (upsertedRow row (createdRow id userId created price))
        (mem_updateWhere.mpr ⟨row, hmem, by simp⟩) rfl htrig
        (by rw [upsertedRow_revision, if_pos hmvd]; omega)).1
      change row.status = .active at hactv
      rw [htrig] at hactv
      cases hactv
  | patch =>
    simp only [asksForActive]
    split
    · rfl
    rename_i patched hnorm
    split
    · rename_i row price hfind hprc
      by_contra hnot
      simp only [Bool.or_eq_true, decide_eq_true_eq, Bool.not_eq_true', not_or, ne_eq, not_not, Bool.not_eq_false] at hnot
      obtain ⟨⟨htrig, hmvd⟩, hask⟩ := hnot
      simp only [step, patch, hnorm, hfind, hprc] at hstep
      split at hstep
      · cases hstep
      cases hstep
      have hmem := (findAlert_mem hfind).1
      have hactv := (hrearms row hmem (patchedRow patched price row) (mem_updateWhere.mpr ⟨row, hmem, by simp⟩) rfl htrig
        (by rw [patchedRow_revision, if_pos hmvd]; omega)).1
      change patchedStatus patched.status row.status = .active at hactv
      cases hstat : patched.status with
      | none =>
        rw [hstat, htrig] at hactv
        cases hactv
      | some status =>
        rw [hstat] at hactv hask
        have hoth : status ≠ "active" := fun heq => hask (congrArg some heq)
        simp [patchedStatus, hoth] at hactv
    · rfl
  | _ => rfl

/-! ## Runs -/

theorem told_start (h : Start store) : Told platform store := by
  refine ⟨coherent_start h, ?_⟩
  intro i request item event hnew
  rw [h.journal] at hnew
  cases hnew

/-- **Every triggered alert is explained, and armed again by every edit that moves it on, exactly in the runs
whose edits ask for that.** -/
theorem explained_iff {start : Store} {log : List (Runs.Move Store Action)} (hstart : Start start) (hexplained : start.Explained)
    (hrun : Records (step platform) KeepsHistory moves start store log) :
    (∀ entry ∈ log, asksForActive platform entry.before entry.action = true) ↔
    ∀ entry ∈ log, entry.after.Explained ∧ Rearms platform entry.before entry.after := by
  refine hrun.all_iff (asksForActive platform · · = true) (fun before _ after => after.Explained ∧ Rearms platform before after)
    (fun store => Told platform store ∧ store.Explained) ⟨told_start hstart, hexplained⟩ ?_ ?_
  · intro before action after ⟨htold, hbef⟩ hkeeps hstep hask
    have haft := htold.explained_step hbef hkeeps hask hstep
    exact ⟨⟨htold.step hkeeps hstep, haft⟩, haft, htold.rearms_step hkeeps hask hstep⟩
  · intro before action after _ _ hstep hgood
    exact asks_of_rearms hgood.2 hstep

/-- `KeepsHistory`, decided. -/
def keepsHistory (store : Store) : Action → Bool
  | .delete _ _ => false
  | .commit alertId => (store.runningOn alertId).all fun running =>
      match running.progress with
      | .pruned _ _ deleted => deleted.isEmpty
      | _ => true
  | .historyCleared _ => false
  | _ => true

theorem keepsHistory_sound (store : Store) (action : Action) (h : keepsHistory store action = true) : KeepsHistory store action := by
  cases action with
  | delete | historyCleared => cases h
  | commit =>
    intro running item event deleted hrng hprog
    simp only [keepsHistory, hrng, all_some, hprog] at h
    exact isEmpty_iff.mp h
  | _ => trivial

def noAlerts : Store := { alerts := [], events := [], running := [], clearing := [], issued := [], journal := [] }

theorem noAlerts_start : Start noAlerts where
  ids := nodup_nil
  issued := by simp [noAlerts]
  clients := by simp [noAlerts]
  events := by simp [noAlerts]
  running := rfl
  journal := rfl

theorem noAlerts_explained : noAlerts.Explained := forall_mem_nil _

/-- The alert of a price of 100, once. -/
def priceReached : CreateInput :=
  { clientId := "breakout", symbol := "XAUUSD", condition := "above", price := 100, note := "", recurring := false
    enabled := none, locked := false, channels := none, source := none, technicalTarget := none }

def priceObserved (price time : ℚ) (armingRevision : Int) : TriggerRequest :=
  ⟨7, "breakout", { triggerPrice := none, targetPrice := none, previous := none, current := some ⟨price, time⟩, armingRevision }⟩

def priceMoved (status : Option String) : PatchInput :=
  { symbol := none, condition := none, price := some 110, note := none, status, enabled := none, locked := none
    recurring := none, channels := none, technicalTarget := none }

/-- The alert is created, triggered, patched and triggered again. -/
def triggeredAgain (status : Option String) : List Action :=
  [.create 7 priceReached 1, .beginTrigger (priceObserved 101 1000 1), .decide 1 10, .prune 1, .commit 1,
    .patch 7 "breakout" (priceMoved status), .beginTrigger (priceObserved 111 1100 2), .decide 1 11]

/-- The patch asks for the status, and the second trigger fires too. -/
theorem explained_triggeredAgain : ∃ store log, Records (step breakoutPlatform) KeepsHistory moves noAlerts store log ∧
    log.length = 8 ∧ ((store.runningOn 1).bind (·.progress.writes)).isSome = true ∧
    ∀ entry ∈ log, entry.after.Explained ∧ Rearms breakoutPlatform entry.before entry.after := by
  have hsome : ((execRecords (step breakoutPlatform) keepsHistory moves noAlerts []
      (triggeredAgain (some "active"))).map fun final =>
        (final.2.length, ((final.1.runningOn 1).bind (·.progress.writes)).isSome,
          final.2.all fun entry => asksForActive breakoutPlatform entry.before entry.action)) = some (8, true, true) := by
    decide +kernel
  obtain ⟨⟨store, log⟩, hexec, hlog⟩ := map_eq_some_iff.mp hsome
  simp only [Prod.mk.injEq] at hlog
  obtain ⟨hlng, hfires, hasks⟩ := hlog
  have hrun := records_of_exec keepsHistory_sound hexec
  refine ⟨store, log, hrun, hlng, hfires, ?_⟩
  exact (explained_iff noAlerts_start noAlerts_explained hrun).mp fun entry hent => all_eq_true.mp hasks entry hent

/-- **A triggered alert whose price is patched stays triggered and has no event of its arming revision**: a trigger
is refused for that. -/
theorem unexplained_after_patch : ∃ store, Reaches (step breakoutPlatform) KeepsHistory noAlerts store ∧ ¬ store.Explained ∧
    store.journal.getLast? = some (.answered (priceObserved 111 1100 2)
      (.refused (.badRequest "triggered alert is missing its canonical event"))) := by
  have hsome : ((exec (step breakoutPlatform) keepsHistory noAlerts (triggeredAgain none)).map fun store =>
      (store.alerts.map fun row => (row.id, row.status, row.armingRevision), store.events.map (·.armingRevision), store.journal.getLast?))
      = some ([(1, .triggered, 2)], [some 1], some (.answered (priceObserved 111 1100 2)
        (.refused (.badRequest "triggered alert is missing its canonical event")))) := by
    decide +kernel
  obtain ⟨store, hexec, hview⟩ := map_eq_some_iff.mp hsome
  simp only [Prod.mk.injEq] at hview
  obtain ⟨halerts, hevs, hlast⟩ := hview
  refine ⟨store, reaches_of_exec keepsHistory_sound hexec, ?_, hlast⟩
  intro hexp
  obtain ⟨row, hrow, hkey⟩ : ∃ row ∈ store.alerts, (row.id, row.status, row.armingRevision) = (1, .triggered, 2) :=
    mem_map.mp (halerts ▸ mem_singleton_self _)
  simp only [Prod.mk.injEq] at hkey
  obtain ⟨event, hevt, _, harmed⟩ := hexp row hrow hkey.2.1
  have hone : event.armingRevision = some 1 := by
    have hmem := mem_map_of_mem (f := (·.armingRevision)) hevt
    rw [hevs] at hmem
    exact mem_singleton.mp hmem
  rw [hone, hkey.2.2] at harmed
  rcases harmed with hsame | hnone
  · exact absurd hsame (by decide)
  · cases hnone

end MarketLens.Alerts
