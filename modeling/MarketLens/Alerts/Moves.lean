import MarketLens.Alerts.Repo

/-!
# What a step of the alert store does

Every action taken apart once: the rows it changes, the trigger it moves on, the
entry it adds to the journal.
-/

namespace MarketLens.Alerts

open List Option Table Fallible

variable {platform : Platform} {store store' : Store}

/-- What an edit may do to a row: the alert stays the same one, and within an arming revision it
neither starts nor stops recurring, and does not become active. -/
structure Edits (row row' : Alert) : Prop where
  id : row'.id = row.id
  userId : row'.userId = row.userId
  clientId : row'.clientId = row.clientId
  revision : row.armingRevision ≤ row'.armingRevision
  kept : row'.armingRevision = row.armingRevision →
    row'.recurring = row.recurring ∧ (row'.status = .active → row.status = .active)

theorem upsertedRow_edits (row excluded : Alert) : Edits row (upsertedRow row excluded) where
  id := rfl
  userId := rfl
  clientId := rfl
  revision := by
    simp only [upsertedRow]
    split <;> omega
  kept := by
    intro hrev
    refine ⟨?_, fun hstat => hstat⟩
    simp only [upsertedRow] at hrev ⊢
    split at hrev
    · omega
    · rename_i hrearmed
      simp only [createRearms, Bool.or_eq_true, decide_eq_true_eq, Bool.and_eq_true, not_or, not_not] at hrearmed
      exact hrearmed.1.2.symm

theorem patchedRow_edits (input : PatchInput) (price : Option ℚ) (row : Alert) : Edits row (patchedRow input price row) where
  id := rfl
  userId := rfl
  clientId := rfl
  revision := by
    simp only [patchedRow]
    split <;> omega
  kept := by
    intro hrev
    simp only [patchedRow] at hrev ⊢
    split at hrev
    · omega
    · rename_i hrearmed
      simp only [patchRearms, Bool.or_eq_true, decide_eq_true_eq, Bool.and_eq_true, not_or, not_and, not_not] at hrearmed
      obtain ⟨⟨⟨_, hrecur⟩, _⟩, hstat⟩ := hrearmed
      constructor
      · cases h : input.recurring with
        | none => rfl
        | some =>
          rw [h] at hrecur
          simp only [any_some, Decidable.not_not, decide_eq_true_eq, ne_eq] at hrecur
          exact hrecur.symm
      · intro hactv
        cases h : input.status with
        | none =>
          rw [h] at hactv
          exact hactv
        | some status =>
          by_cases hask : status = "active"
          · subst hask
            exact hstat h
          · rw [h] at hactv
            simp [patchedStatus, hask] at hactv

/-- Why a trigger is refused before it holds the row. -/
def RefusedAtOnce (platform : Platform) (store : Store) (request : TriggerRequest) : Prop :=
  ∀ input current row, normalizeTriggerInput request.input = .ok (input, current) →
    findAlert platform store request.userId request.ref = some row → input.armingRevision ≠ row.armingRevision

inductive Move (platform : Platform) (store : Store) : Action → Store → Prop where
  | same (action : Action) : Move platform store action store
  | created (action : Action) (row : Alert) : row.id ∉ store.issued → (∀ other ∈ store.alerts, sameClient row other = false) →
      Move platform store action { store with alerts := store.alerts ++ [row], issued := row.id :: store.issued }
  | edited (action : Action) (row : Alert) (f : Alert → Alert) : row ∈ store.alerts → isHeld store row.id = false →
      (∀ row, Edits row (f row)) →
      Move platform store action { store with
        alerts := Table.updateWhere (·.id = row.id) f store.alerts
        journal := store.journal ++ [.edited row.id] }
  | deleted (action : Action) (row : Alert) : row ∈ store.alerts → isHeld store row.id = false →
      Move platform store action { store with
        alerts := store.alerts.filter (·.id ≠ row.id)
        events := forgetAlert row.id store.events
        journal := store.journal ++ [.edited row.id] }
  | refused (action : Action) (request : TriggerRequest) (error : StoreError) : RefusedAtOnce platform store request →
      Move platform store action (store.answer request (.refused error))
  | held (action : Action) (request : TriggerRequest) (input : TriggerInput) (current : TechnicalEvidencePoint) (row : Alert) :
      normalizeTriggerInput request.input = .ok (input, current) →
      findAlert platform store request.userId request.ref = some row → isHeld store row.id = false →
      input.armingRevision = row.armingRevision →
      Move platform store action { store with running := ⟨request, input, current, row, .locked⟩ :: store.running }
  | answered (alertId eventId : Uuid) (running : Running) (answer : Answer) : store.runningOn alertId = some running →
      decideTrigger platform store.events running = .answer answer →
      Move platform store (.decide alertId eventId) ((store.release alertId).answer running.request answer)
  | failed (alertId eventId : Uuid) (running : Running) (targetPrice : ℚ) (error : StoreError) :
      store.runningOn alertId = some running → decideTrigger platform store.events running = .fire targetPrice →
      Move platform store (.decide alertId eventId) ((store.release alertId).answer running.request (.refused error))
  | written (alertId eventId : Uuid) (running : Running) (targetPrice : ℚ) (item : Alert) (event : EventRow) :
      store.runningOn alertId = some running → decideTrigger platform store.events running = .fire targetPrice →
      writeTrigger platform running eventId targetPrice = .ok (item, event) →
      Move platform store (.decide alertId eventId)
        { store.progressTo alertId (.written item event) with issued := eventId :: store.issued }
  | pruned (action : Action) (alertId : Uuid) (running : Running) (item : Alert) (event : EventRow) (deleted : List Uuid) :
      store.runningOn alertId = some running → running.progress = .written item event →
      Move platform store action (store.progressTo alertId (.pruned item event deleted))
  | committed (action : Action) (alertId : Uuid) (running : Running) (item : Alert) (event : EventRow) (deleted : List Uuid) :
      store.runningOn alertId = some running → running.progress = .pruned item event deleted →
      Move platform store action { (store.release alertId).answer running.request (.new item (scanEvent event)) with
        alerts := Table.updateWhere (·.id = alertId) (fun _ => item) store.alerts
        events := (store.events ++ [event]).filter (!deleted.contains ·.id) }
  | released (action : Action) (alertId : Uuid) : Move platform store action (store.release alertId)
  | cleared (action : Action) (ids : List Uuid) (clearing : List (List Uuid)) :
      Move platform store action { store with events := store.events.filter (!ids.contains ·.id), clearing }

variable {userId : Uuid} {ref : String}

theorem findAlert_mem {row : Alert} (h : findAlert platform store userId ref = some row) :
    row ∈ store.alerts ∧ isReferred platform userId ref row = true :=
  ⟨mem_of_find?_eq_some h, List.find?_some h⟩

theorem create_ok {userId id : Uuid} {input : CreateInput} (h : create platform userId input id store = some store') :
    store' = store ∨
    (∃ created price row, normalizeCreate platform input = .ok created ∧ priceColumn created.price = .ok price ∧
      store.alerts.find? (sameClient (createdRow id userId created price)) = some row ∧ isHeld store row.id = false ∧
      store' = { store with
        alerts := updateWhere (·.id = row.id) (upsertedRow · (createdRow id userId created price)) store.alerts
        journal := store.journal ++ [.edited row.id] }) ∨
    ∃ row, row.status = .active ∧ row.id ∉ store.issued ∧ (∀ other ∈ store.alerts, sameClient row other = false) ∧
      store' = { store with alerts := store.alerts ++ [row], issued := row.id :: store.issued } := by
  unfold create at h
  split at h
  · cases h
    exact .inl rfl
  · rename_i created hnorm
    split at h
    · cases h
      exact .inl rfl
    · rename_i price hprc
      cases hfind : store.alerts.find? (sameClient (createdRow id userId created price)) with
      | some row =>
        simp only [hfind] at h
        split at h
        · cases h
        rename_i hfree
        cases h
        exact .inr (.inl ⟨created, price, row, hnorm, hprc, hfind, by simpa using hfree, rfl⟩)
      | none =>
        simp only [hfind] at h
        split at h
        · cases h
        rename_i hfsh
        cases h
        refine .inr (.inr ⟨createdRow id userId created price, rfl, by simpa [createdRow] using hfsh, ?_, rfl⟩)
        intro other hoth
        simpa using List.find?_eq_none.mp hfind other hoth

theorem patch_ok {input : PatchInput} (h : patch platform userId ref input store = some store') : store' = store ∨
    ∃ patched price row, normalizePatch platform input = .ok patched ∧ validateOptional priceColumn patched.price = .ok price ∧
      findAlert platform store userId ref = some row ∧ isHeld store row.id = false ∧
      store' = { store with
        alerts := updateWhere (·.id = row.id) (patchedRow patched price) store.alerts
        journal := store.journal ++ [.edited row.id] } := by
  unfold patch at h
  split at h
  · cases h
    exact .inl rfl
  · rename_i patched hnorm
    split at h
    · rename_i row price hfind hprc
      split at h
      · cases h
      rename_i hfree
      cases h
      exact .inr ⟨patched, price, row, hnorm, hprc, hfind, by simpa using hfree, rfl⟩
    · cases h
      exact .inl rfl

variable {action : Action}

theorem create_move {userId id : Uuid} {input : CreateInput}
    (h : create platform userId input id store = some store') : Move platform store action store' := by
  rcases create_ok h with rfl | ⟨created, price, row, _, _, hfind, hfree, rfl⟩ | ⟨row, _, hfsh, hcl, rfl⟩
  · exact .same action
  · exact .edited action row (upsertedRow · _) (mem_of_find?_eq_some hfind) hfree fun row => upsertedRow_edits row _
  · exact .created action row hfsh hcl

theorem patch_move {input : PatchInput}
    (h : patch platform userId ref input store = some store') : Move platform store action store' := by
  rcases patch_ok h with rfl | ⟨patched, price, row, _, _, hfind, hfree, rfl⟩
  · exact .same action
  · exact .edited action row (patchedRow _ _) (findAlert_mem hfind).1 hfree fun row => patchedRow_edits _ _ row

theorem delete_move (h : delete platform userId ref store = some store') : Move platform store action store' := by
  unfold delete at h
  split at h
  · cases h
    exact .same action
  · rename_i row hfind
    split at h
    · cases h
    rename_i hfree
    cases h
    exact .deleted action row (findAlert_mem hfind).1 (by simpa using hfree)

theorem beginTrigger_move {request : TriggerRequest} (h : beginTrigger platform request store = some store') :
    Move platform store action store' := by
  unfold beginTrigger at h
  split at h
  · rename_i error hnorm
    cases h
    refine .refused action request error ?_
    intro input current row hok
    rw [hnorm] at hok
    cases hok
  · rename_i input current hnorm
    split at h
    · rename_i hfind
      cases h
      refine .refused action request .notFound ?_
      intro input' current' row _ hfnd
      rw [hfind] at hfnd
      cases hfnd
    · rename_i row hfind
      split at h
      · cases h
      rename_i hfree
      split at h
      · rename_i hstale
        cases h
        refine .refused action request _ ?_
        intro input' current' row' hok hfnd
        rw [hnorm] at hok
        rw [hfind] at hfnd
        cases hok
        cases hfnd
        exact hstale
      · rename_i hrev
        cases h
        exact .held action request input current row hnorm hfind (by simpa using hfree) (by simpa using hrev)

theorem decide_move {alertId eventId : Uuid} (h : decide platform alertId eventId store = some store') :
    Move platform store (.decide alertId eventId) store' := by
  obtain ⟨running, hrng, h⟩ := bind_eq_some_iff.mp h
  split at h
  · cases h
  split at h
  · rename_i answer hdec
    cases h
    exact .answered alertId eventId running answer hrng hdec
  · rename_i targetPrice hdec
    split at h
    · rename_i error _
      cases h
      exact .failed alertId eventId running targetPrice error hrng hdec
    · rename_i item event hwrite
      cases h
      exact .written alertId eventId running targetPrice item event hrng hdec hwrite

theorem prune_move {alertId : Uuid} (h : prune alertId store = some store') : Move platform store action store' := by
  obtain ⟨running, hrng, h⟩ := bind_eq_some_iff.mp h
  split at h
  · rename_i item event hprog
    cases h
    exact .pruned action alertId running item event _ hrng hprog
  · cases h

theorem commit_move {alertId : Uuid} (h : commit alertId store = some store') : Move platform store action store' := by
  obtain ⟨running, hrng, h⟩ := bind_eq_some_iff.mp h
  split at h
  · rename_i item event deleted hprog
    cases h
    exact .committed action alertId running item event deleted hrng hprog
  · cases h

/-- **What a step does.** -/
theorem step_move (h : step platform store action = some store') : Move platform store action store' := by
  cases action with
  | create => exact create_move h
  | patch => exact patch_move h
  | delete => exact delete_move h
  | beginTrigger => exact beginTrigger_move h
  | decide => exact decide_move h
  | prune => exact prune_move h
  | commit => exact commit_move h
  | abort alertId =>
    cases h
    exact .released _ alertId
  | clearHistory userId =>
    cases h
    have hmove : Move platform store (.clearHistory userId) _ := .cleared (.clearHistory userId) []
      ((store.events.filter (·.userId = userId)).map (·.id) :: store.clearing)
    simpa using hmove
  | historyCleared ids =>
    simp only [step] at h
    split at h
    · cases h
      exact .cleared _ ids _
    · cases h

end MarketLens.Alerts
