import MarketLens.Alerts.Attempts

/-!
# Every step keeps the promise

The steps of the alert store one at a time, and the runs they make up. The
commit of a trigger is the one step that answers as new; a deletion from the
history is harmless as long as nobody comes back for what it deletes.
-/

namespace MarketLens.Alerts

open List Option Bool Table Fallible

variable {platform : Platform} {store store' : Store}

/-! ## Steps that fire nothing -/

variable {alertId : Uuid} {running : Running}

theorem isHeld_false (h : isHeld store alertId = false) (hrng : running ∈ store.running) : running.row.id ≠ alertId := by
  simpa using any_eq_false.mp h running hrng

theorem Holds.mono (h : Holds platform store running) (hmem : running.row ∈ store'.alerts)
    (hnews : ∀ i request item event, NewAt store'.journal i request item event → item.id = running.row.id →
      NewAt store.journal i request item event) : Holds platform store' running :=
  { h with
    mem := hmem
    writes := fun item event hwrites =>
      { h.writes item event hwrites with
        fresh := fun i request item' event' hnew hid =>
          (h.writes item event hwrites).fresh i request item' event' (hnews i request item' event' hnew hid) hid } }

variable {journal : List Entry} {request : TriggerRequest} {item : Alert}

theorem newAt_of_concat {entry : Entry} (hent : ∀ request item event, entry ≠ .answered request (.new item event))
    {i : Nat} {event : Event} (h : NewAt (journal ++ [entry]) i request item event) :
    i < journal.length ∧ NewAt journal i request item event := by
  rcases newAt_concat h with hold | ⟨_, hlast⟩
  · exact hold
  · exact absurd hlast (hent request item event)

theorem Since.edit {item row row' : Alert} (h : Since item row) (hedit : Edits row row') : Since item row' where
  revision := le_trans h.revision hedit.revision
  armed := by
    intro hrev
    have hsame : item.armingRevision = row.armingRevision := by
      have hfs := h.revision
      have hsec := hedit.revision
      omega
    obtain ⟨hrecur, hstat⟩ := hedit.kept (hrev.symm.trans hsame)
    obtain ⟨hrecur', hstat'⟩ := h.armed hsame
    exact ⟨hrecur.trans hrecur', fun honce hactv => hstat' honce (hstat hactv)⟩

theorem Logged.answer {answer : Answer} (h : Logged platform store)
    (hne : ∀ item event, answer ≠ .new item event) (running : List Running) :
    Logged platform { store with running, journal := store.journal ++ [.answered request answer] } := by
  have hold : ∀ {i request' item event}, NewAt (store.journal ++ [.answered request answer]) i request' item event →
      NewAt store.journal i request' item event := fun hnew =>
    (newAt_of_concat (fun _ item event hsame => hne item event (by cases hsame; rfl)) hnew).2
  refine ⟨fun i _ _ _ hnew => h.fired i _ _ _ (hold hnew), fun i _ _ _ hnew => h.issued i _ _ _ (hold hnew),
    fun i _ _ _ hnew => h.since i _ _ _ (hold hnew), ?_, ?_⟩
  · intro row hrow alertId revision hale hrev
    obtain ⟨i, request', item, hnew, hid, hsame⟩ := h.events row hrow alertId revision hale hrev
    exact ⟨i, request', item, concat_of hnew, hid, hsame⟩
  · intro i request' item event hnew huned
    exact h.unedited i request' item event (hold hnew) huned.of_concat

variable {row : Alert}

theorem Coherent.created (h : Coherent platform store) (hfsh : row.id ∉ store.issued)
    (hcl : ∀ other ∈ store.alerts, sameClient row other = false) :
    Coherent platform { store with alerts := store.alerts ++ [row], issued := row.id :: store.issued } where
  rows := h.rows.append hfsh hcl
  heldOnce := h.heldOnce
  held := fun running hrng =>
    (h.held running hrng).mono (mem_append_left _ (h.held running hrng).mem) fun _ _ _ _ hnew _ => hnew
  logged :=
    { h.logged with
      issued := fun i request item event hnew => mem_cons_of_mem _ (h.logged.issued i request item event hnew)
      since := by
        intro i request item event hnew other hoth hid
        rcases mem_append.mp hoth with hold | hlast
        · exact h.logged.since i request item event hnew other hold hid
        · rw [mem_singleton.mp hlast] at hid
          rw [hid] at hfsh
          exact absurd (h.logged.issued i request item event hnew) hfsh
      unedited := by
        intro i request item event hnew huned
        obtain ⟨other, hoth, hsame⟩ := h.logged.unedited i request item event hnew huned
        exact ⟨other, mem_append_left _ hoth, hsame⟩ }
  once := h.once

theorem edited_ne_new (alertId : Uuid) : ∀ request item event, Entry.edited alertId ≠ .answered request (.new item event) :=
  fun _ _ _ h => by cases h

section Kept

variable (h : Coherent platform store)
include h

/-- An owner changes or deletes an alert that nobody holds. -/
theorem Coherent.touched {alerts : List Alert} {events : List EventRow} (hfree : isHeld store row.id = false)
    (hrows : Rows { store with alerts, events, journal := store.journal ++ [.edited row.id] })
    (hoth : ∀ other ∈ store.alerts, other.id ≠ row.id → other ∈ alerts)
    (hsince : ∀ other ∈ alerts, ∃ old ∈ store.alerts, old.id = other.id ∧ (other = old ∨ Edits old other))
    (hevs : ∀ found ∈ events, found.alertId ≠ none → found ∈ store.events) :
    Coherent platform { store with alerts, events, journal := store.journal ++ [.edited row.id] } := by
  refine ⟨hrows, h.heldOnce, ?_, ?_, h.once.edit⟩
  · intro running hrng
    have hhld := h.held running hrng
    exact hhld.mono (hoth _ hhld.mem (isHeld_false hfree hrng)) fun _ _ _ _ hnew _ =>
      (newAt_of_concat (edited_ne_new row.id) hnew).2
  · refine ⟨?_, ?_, ?_, ?_, ?_⟩
    · intro i request item event hnew
      exact h.logged.fired i request item event (newAt_of_concat (edited_ne_new row.id) hnew).2
    · intro i request item event hnew
      exact h.logged.issued i request item event (newAt_of_concat (edited_ne_new row.id) hnew).2
    · intro i request item event hnew other hmem hid
      have hbef := h.logged.since i request item event (newAt_of_concat (edited_ne_new row.id) hnew).2
      obtain ⟨old, hold, hsame, rfl | hedits⟩ := hsince other hmem
      · exact hbef _ hold hid
      · exact (hbef old hold (hsame.trans hid)).edit hedits
    · intro found hfnd alertId revision hale hrev
      have hold := hevs found hfnd (by rw [hale]; exact some_ne_none _)
      obtain ⟨i, request, item, hnew, hid, hsame⟩ := h.logged.events found hold alertId revision hale hrev
      exact ⟨i, request, item, concat_of hnew, hid, hsame⟩
    · intro i request item event hnew huned
      obtain ⟨hi, hold⟩ := newAt_of_concat (edited_ne_new row.id) hnew
      obtain ⟨other, hmem, hsame⟩ := h.logged.unedited i request item event hold huned.of_concat
      have hid : other.id = item.id := (armed_of_unfired hsame).1
      have hne : other.id ≠ row.id := by
        rw [hid]
        exact (huned.ne_of_concat hi).symm
      exact ⟨other, hoth other hmem hne, hsame⟩

theorem Coherent.edited {f : Alert → Alert} (hfree : isHeld store row.id = false) (hf : ∀ row, Edits row (f row)) :
    Coherent platform { store with
      alerts := updateWhere (·.id = row.id) f store.alerts
      journal := store.journal ++ [.edited row.id] } := by
  refine h.touched hfree (h.rows.update fun row _ _ => ⟨(hf row).id, (hf row).userId, (hf row).clientId⟩) ?_ ?_
    fun _ hfnd _ => hfnd
  · intro other hoth hne
    exact unmatched_mem hoth (by simpa using hne)
  · intro other hmem
    rcases updateWhere_cases hmem with ⟨hold, _⟩ | ⟨old, hold, _, rfl⟩
    · exact ⟨other, hold, rfl, .inl rfl⟩
    · exact ⟨old, hold, (hf old).id.symm, .inr (hf old)⟩

theorem Coherent.deleted (hfree : isHeld store row.id = false) :
    Coherent platform { store with
      alerts := store.alerts.filter (·.id ≠ row.id)
      events := forgetAlert row.id store.events
      journal := store.journal ++ [.edited row.id] } := by
  refine h.touched hfree h.rows.delete ?_ (fun other hmem => ⟨other, mem_of_mem_filter hmem, rfl, .inl rfl⟩) ?_
  · intro other hoth hne
    exact mem_filter.mpr ⟨hoth, by simpa using hne⟩
  · intro found hfnd hale
    rcases updateWhere_cases hfnd with ⟨hold, _⟩ | ⟨old, _, _, rfl⟩
    · exact hold
    · exact absurd rfl hale

/-- A trigger that comes again is not refused before it holds the row. -/
theorem Coherent.refused {error : StoreError}
    (hrefd : RefusedAtOnce platform store request) : Coherent platform (store.answer request (.refused error)) := by
  have hne : ∀ item event, Answer.refused error ≠ .new item event := fun _ _ hsame => by cases hsame
  have hent : ∀ request' item event, Entry.answered request (.refused error) ≠ .answered request' (.new item event) :=
    fun _ _ _ hsame => by cases hsame
  refine ⟨⟨h.rows.ids, h.rows.issued, h.rows.clients⟩, h.heldOnce, ?_, h.logged.answer hne store.running, h.once.answer ?_ ?_⟩
  · intro running hrng
    exact (h.held running hrng).mono (h.held running hrng).mem fun _ _ _ _ hnew _ => (newAt_of_concat hent hnew).2
  · intro i item event hnew huned
    obtain ⟨input, current, targetPrice, hfires⟩ := h.logged.fired i _ _ _ hnew
    obtain ⟨row, hrow, hsame⟩ := h.logged.unedited i _ _ _ hnew huned
    have hrefe : isReferred platform request.userId request.ref row = true := by
      rw [isReferred_unfired hsame]
      exact hfires.referred
    cases hfind : findAlert platform store request.userId request.ref with
    | none => exact absurd hrefe (List.find?_eq_none.mp hfind row hrow)
    | some found =>
      obtain ⟨hmem, hrefe'⟩ := findAlert_mem hfind
      have heq := h.rows.referred_unique hmem hrow hrefe' hrefe
      have hrev : input.armingRevision = found.armingRevision := by
        rw [hfires.revision, heq]
        exact (armed_of_unfired hsame.symm).2.1
      exact absurd hrev (hrefd input current found hfires.normalized hfind)
  · intro item event hsame
    cases hsame

/-- A trigger that is over takes nothing with it but its hold. -/
theorem Coherent.released (alertId : Uuid) : Coherent platform (store.release alertId) where
  rows := ⟨h.rows.ids, h.rows.issued, h.rows.clients⟩
  heldOnce := h.heldOnce.sublist (filter_sublist.map _)
  held := fun running hrng =>
    (h.held running (mem_of_mem_filter hrng)).mono (h.held running (mem_of_mem_filter hrng)).mem fun _ _ _ _ hnew _ => hnew
  logged := ⟨h.logged.fired, h.logged.issued, h.logged.since, h.logged.events, h.logged.unedited⟩
  once := h.once

/-- A trigger that is over with an answer that is not new, and is right if the call has committed. -/
theorem Coherent.answered {answer : Answer} (hne : ∀ item event, answer ≠ .new item event)
    (hretry : ∀ i item event, NewAt store.journal i request item event → UneditedSince store.journal i item.id →
      answer = .already event) :
    Coherent platform ((store.release alertId).answer request answer) := by
  have hreld := h.released alertId
  have hent : ∀ request' item event, Entry.answered request answer ≠ .answered request' (.new item event) :=
    fun _ item event hsame => hne item event (by cases hsame; rfl)
  refine ⟨⟨h.rows.ids, h.rows.issued, h.rows.clients⟩, hreld.heldOnce, ?_,
    h.logged.answer hne (store.running.filter (·.row.id ≠ alertId)), h.once.answer hretry ?_⟩
  · intro running hrng
    exact (hreld.held running hrng).mono (hreld.held running hrng).mem fun _ _ _ _ hnew _ =>
      (newAt_of_concat hent hnew).2
  · intro item event hsame
    exact absurd hsame (hne item event)

theorem Coherent.heldNow {input : TriggerInput} {current : TechnicalEvidencePoint}
    (hnormalized : normalizeTriggerInput request.input = .ok (input, current))
    (hfind : findAlert platform store request.userId request.ref = some row) (hfree : isHeld store row.id = false)
    (hrev : input.armingRevision = row.armingRevision) :
    Coherent platform { store with running := ⟨request, input, current, row, .locked⟩ :: store.running } where
  rows := ⟨h.rows.ids, h.rows.issued, h.rows.clients⟩
  heldOnce := by
    rw [map_cons, nodup_cons]
    refine ⟨?_, h.heldOnce⟩
    intro hmem
    obtain ⟨running, hrng, hsame⟩ := mem_map.mp hmem
    exact isHeld_false hfree hrng hsame
  held := by
    intro running hrng
    rcases mem_cons.mp hrng with rfl | hrng
    · obtain ⟨hmem, hrefe⟩ := findAlert_mem hfind
      exact ⟨hmem, hnormalized, hrefe, hrev, fun item event hwrites => by cases hwrites⟩
    · exact (h.held running hrng).mono (h.held running hrng).mem fun _ _ _ _ hnew _ => hnew
  logged := ⟨h.logged.fired, h.logged.issued, h.logged.since, h.logged.events, h.logged.unedited⟩
  once := h.once

end Kept

/-- The running triggers after one has come further. -/
theorem progressTo_running {progress : Progress} (h : running ∈ (store.progressTo alertId progress).running) :
    (running ∈ store.running ∧ running.row.id ≠ alertId)
      ∨ ∃ old ∈ store.running, old.row.id = alertId ∧ running = { old with progress } := by
  rcases updateWhere_cases h with ⟨hold, hne⟩ | ⟨old, hold, hsame, rfl⟩
  · exact .inl ⟨hold, by simpa using hne⟩
  · exact .inr ⟨old, hold, by simpa using hsame, rfl⟩

theorem Coherent.runningOn_unique {running old : Running} (h : Coherent platform store)
    (hrng : store.runningOn alertId = some running) (hold : old ∈ store.running) (hid : old.row.id = alertId) :
    old = running := by
  obtain ⟨hmem, hid'⟩ := runningOn_mem hrng
  exact inj_on_of_nodup_map h.heldOnce hold hmem (hid.trans hid'.symm)

/-- A trigger that has come further with these writes. -/
theorem Coherent.progressed {progress : Progress} (h : Coherent platform store) (hrng : store.runningOn alertId = some running)
    (hwrites : ∀ item event, progress.writes = some (item, event) → Writes platform store.journal running item event)
    (issued : List Uuid) (hissued : ∀ id ∈ store.issued, id ∈ issued) :
    Coherent platform { store.progressTo alertId progress with issued } where
  rows := ⟨h.rows.ids, fun row hrow => hissued _ (h.rows.issued row hrow), h.rows.clients⟩
  heldOnce := by
    have hmap : (store.progressTo alertId progress).running.map (·.row.id) = store.running.map (·.row.id) :=
      map_updateWhere (f := fun running : Running => { running with progress }) (fun _ => rfl) store.running
    rw [hmap]
    exact h.heldOnce
  held := by
    intro found hfnd
    rcases progressTo_running hfnd with ⟨hmem, _⟩ | ⟨old, hmem, hid, rfl⟩
    · exact (h.held found hmem).mono (h.held found hmem).mem fun _ _ _ _ hnew _ => hnew
    · have hsame := h.runningOn_unique hrng hmem hid
      subst hsame
      have hhld := h.held old hmem
      refine ⟨hhld.mem, hhld.normalized, hhld.referred, hhld.revision, fun item event hnow => ?_⟩
      have hw := hwrites item event hnow
      exact ⟨hw.updates, hw.inserts, hw.active, hw.fresh⟩
  logged := ⟨h.logged.fired, fun i request item event hnew => hissued _ (h.logged.issued i request item event hnew),
    h.logged.since, h.logged.events, h.logged.unedited⟩
  once := h.once

/-! ## The step that fires -/

variable {event : EventRow}

theorem committed_row (h : Writes platform journal running item event) :
    item.id = running.row.id ∧ item.armingRevision = running.row.armingRevision ∧ item.recurring = running.row.recurring
      ∧ event.alertId = some item.id ∧ event.armingRevision = some item.armingRevision
      ∧ event.triggeredAt = evidenceTimestamp running.current.timestamp := by
  obtain ⟨eventId, targetPrice, _, hevt⟩ := h.inserts
  rw [hevt, h.updates]
  exact ⟨rfl, rfl, rfl, rfl, rfl, rfl⟩

theorem Writes.fires (h : Writes platform store.journal running item event) (hhld : Holds platform store running) :
    ∃ input current targetPrice, Fires platform running.request item (scanEvent event) input current targetPrice := by
  obtain ⟨eventId, targetPrice, hevaluate, hevt⟩ := h.inserts
  refine ⟨running.input, running.current, targetPrice, hhld.normalized, ?_, ?_, ?_, ?_, ?_, ?_, ?_⟩
  · rw [h.updates]
    exact hhld.referred
  · rw [h.updates]
    exact hhld.revision
  · rw [h.updates]
    exact hevaluate
  · rw [hevt]
    rfl
  · rw [hevt]
    rfl
  · rw [hevt]
    rfl
  · rw [h.updates]
    rfl

theorem unfired_again {row item : Alert} {triggerPrice : ℚ} {triggeredAt : Int} (h : row.unfired = item.unfired)
    (hstat : item.status = if item.recurring then .active else .triggered) :
    (firedRow row triggerPrice triggeredAt).unfired = item.unfired := by
  obtain ⟨_, _, hrecur, hsame⟩ := armed_of_unfired h
  have hkept : (if row.recurring then AlertStatus.active else .triggered) = row.status := by
    rw [hsame, hstat, hrecur]
  have hfired : (firedRow row triggerPrice triggeredAt).unfired
      = { row.unfired with status := if row.recurring then .active else .triggered } := rfl
  rw [hfired, hkept, ← h]
  rfl

/-- The commit of a trigger writes the fired row and answers its call as new. -/
theorem Coherent.committed (deleted : List Uuid) (h : Coherent platform store) (hrng : store.runningOn alertId = some running)
    (hprog : running.progress.writes = some (item, event)) :
    Coherent platform { (store.release alertId).answer running.request (.new item (scanEvent event)) with
      alerts := updateWhere (·.id = alertId) (fun _ => item) store.alerts
      events := (store.events ++ [event]).filter (!deleted.contains ·.id) } := by
  obtain ⟨hin, halertId⟩ := runningOn_mem hrng
  have hhld := h.held running hin
  have hwrites := hhld.writes item event hprog
  obtain ⟨hid, hrev, hrecur, heventAlert, heventRevision, htime⟩ := committed_row hwrites
  have hsin : ∀ row ∈ store.alerts, row.id = alertId → row = running.row := fun row hrow hsame =>
    inj_on_of_nodup_map h.rows.ids hrow hhld.mem (hsame.trans halertId.symm)
  have hoth : ∀ other ∈ store.alerts, other.id ≠ alertId → other ∈ updateWhere (·.id = alertId) (fun _ => item) store.alerts := by
    intro other hoth hne
    exact unmatched_mem hoth (by simpa using hne)
  have hitem : item ∈ updateWhere (·.id = alertId) (fun _ => item) store.alerts :=
    updated_mem hhld.mem (by simpa using halertId)
  refine ⟨?_, h.heldOnce.sublist (filter_sublist.map _), ?_, ?_, h.once.answer ?_ ?_⟩
  · refine h.rows.update fun row hrow hsame => ?_
    rw [hsin row hrow hsame, hwrites.updates]
    exact ⟨rfl, rfl, rfl⟩
  · -- the other triggers hold other rows
    intro found hfnd
    obtain ⟨hmem, hne⟩ := mem_filter.mp hfnd
    have hne' : found.row.id ≠ alertId := by simpa using hne
    refine (h.held found hmem).mono (hoth _ (h.held found hmem).mem hne') ?_
    intro i request item' event' hnew hsame
    rcases newAt_concat hnew with ⟨_, hold⟩ | ⟨_, hlast⟩
    · exact hold
    · cases hlast
      exact absurd (hsame.symm.trans (hid.trans halertId)) hne'
  -- the log: earlier firings keep what holds of them, and the new one has it from its row
  · refine ⟨?_, ?_, ?_, ?_, ?_⟩
    · intro i request item' event' hnew
      rcases newAt_concat hnew with ⟨_, hold⟩ | ⟨_, hlast⟩
      · exact h.logged.fired i request item' event' hold
      · cases hlast
        exact hwrites.fires hhld
    · intro i request item' event' hnew
      rcases newAt_concat hnew with ⟨_, hold⟩ | ⟨_, hlast⟩
      · exact h.logged.issued i request item' event' hold
      · cases hlast
        rw [hid]
        exact h.rows.issued running.row hhld.mem
    · intro i request item' event' hnew row hrow hsame
      rcases newAt_concat hnew with ⟨_, hold⟩ | ⟨_, hlast⟩
      · have hsince := h.logged.since i request item' event' hold
        rcases updateWhere_cases hrow with ⟨hmem, _⟩ | ⟨old, hmem, hold', rfl⟩
        · exact hsince row hmem hsame
        · -- An earlier one-time firing would have left the row inactive.
          have hlkd := hsince running.row hhld.mem (hid.symm.trans hsame)
          refine ⟨by rw [hrev]; exact hlkd.revision, fun harmed => ?_⟩
          rw [hrev] at harmed
          obtain ⟨hsameRecurring, hstat⟩ := hlkd.armed harmed
          exact ⟨hrecur.trans hsameRecurring, fun honce => absurd hwrites.active (hstat honce)⟩
      · cases hlast
        have heq : row = item := by
          rcases updateWhere_cases hrow with ⟨hmem, hne⟩ | ⟨_, _, _, heq⟩
          · have hne' : row.id ≠ alertId := by simpa using hne
            exact absurd (hsame.trans (hid.trans halertId)) hne'
          · exact heq
        subst heq
        refine ⟨le_refl _, fun _ => ⟨rfl, fun honce => ?_⟩⟩
        rw [hwrites.updates] at honce ⊢
        simp only [firedRow] at honce ⊢
        rw [honce]
        simp
    · intro row hrow alertId' revision hale hrow'
      rcases mem_append.mp (mem_of_mem_filter hrow) with hold | hlast
      · obtain ⟨i, request, item', hnew, hid', hsame⟩ := h.logged.events row hold alertId' revision hale hrow'
        exact ⟨i, request, item', concat_of hnew, hid', hsame⟩
      · rw [mem_singleton.mp hlast] at hale hrow' ⊢
        rw [heventAlert] at hale
        rw [heventRevision] at hrow'
        exact ⟨store.journal.length, running.request, item, concat_last _ _, Option.some.inj hale, Option.some.inj hrow'⟩
    · intro i request item' event' hnew huned
      rcases newAt_concat hnew with ⟨_, hold⟩ | ⟨_, hlast⟩
      · obtain ⟨row, hrow, hsame⟩ := h.logged.unedited i request item' event' hold huned.of_concat
        by_cases hcase : row.id = alertId
        · obtain ⟨_, _, _, hfires⟩ := h.logged.fired i request item' event' hold
          refine ⟨item, hitem, ?_⟩
          rw [hsin row hrow hcase] at hsame
          rw [hwrites.updates]
          exact unfired_again hsame hfires.status
        · exact ⟨row, hoth row hrow hcase, hsame⟩
      · cases hlast
        exact ⟨item, hitem, rfl⟩
  · -- The same call cannot have committed before: the attempt is new.
    intro i item' event' hnew huned
    obtain ⟨hsame, targetPrice, hfires⟩ := h.retry_row hin hnew huned
    obtain ⟨hid', hrev', _, _⟩ := armed_of_unfired hsame.symm
    exact absurd hfires.triggeredAt (hwrites.fresh i _ item' event' hnew hid' hrev')
  · intro item' event' hsame i request' other otherEvent hnew hotherId hotherRevision
    cases hsame
    have hid' : other.id = running.row.id := hotherId.trans hid
    have hrev' := hotherRevision.trans hrev
    refine ⟨?_, fun honce => ?_⟩
    · have htime' : (scanEvent event).triggeredAt = evidenceTimestamp running.current.timestamp := htime
      rw [htime']
      exact hwrites.fresh i request' other otherEvent hnew hid' hrev'
    · have hsince := h.logged.since i request' other otherEvent hnew running.row hhld.mem hid'.symm
      exact absurd hwrites.active ((hsince.armed hrev').2 honce)

/-! ## Runs -/

theorem coherent_start (h : Start store) : Coherent platform store := by
  have hnone : ∀ {i request item event}, ¬ NewAt store.journal i request item event := by
    intro i request item event hnew
    rw [h.journal] at hnew
    cases hnew
  refine ⟨⟨h.ids, h.issued, h.clients⟩, ?_, ?_, ?_, ?_⟩
  · rw [h.running]
    exact nodup_nil
  · intro running hrng
    rw [h.running] at hrng
    cases hrng
  · refine ⟨fun _ _ _ _ hnew => absurd hnew hnone, fun _ _ _ _ hnew => absurd hnew hnone, fun _ _ _ _ hnew => absurd hnew hnone,
      ?_, fun _ _ _ _ hnew => absurd hnew hnone⟩
    intro row hrow _ revision _ hrev
    rw [h.events row hrow] at hrev
    cases hrev
  · refine ⟨fun _ _ _ _ _ _ _ _ hnew => absurd hnew hnone, fun _ _ _ _ _ _ _ _ hnew => absurd hnew hnone,
      fun _ _ _ _ _ _ _ hnew => absurd hnew hnone⟩

/-- **Every step keeps what holds all along.** -/
theorem Coherent.step {action : Action} (h : Coherent platform store) (hkept : Kept platform store action)
    (hstep : step platform store action = some store') : Coherent platform store' := by
  cases step_move hstep with
  | same => exact h
  | created _ row hfsh hcl => exact h.created hfsh hcl
  | edited _ row f _ hfree hf => exact h.edited hfree hf
  | deleted _ row _ hfree => exact h.deleted hfree
  | refused _ request error hrefd => exact h.refused hrefd
  | held _ request input current row hnormalized hfind hfree hrev => exact h.heldNow hnormalized hfind hfree hrev
  | answered alertId eventId running answer hrng hdec =>
    refine h.answered ?_ ?_
    · intro item event hsame
      rw [hsame] at hdec
      exact decideTrigger_ne_new hdec
    · intro i item event hnew huned
      have hretry := h.decide_retry hkept hrng hnew huned
      exact Decision.answer.inj (hdec.symm.trans hretry)
  | failed alertId eventId running targetPrice error hrng hdec =>
    refine h.answered (fun _ _ hsame => by cases hsame) ?_
    intro i item event hnew huned
    have hretry := h.decide_retry hkept hrng hnew huned
    rw [hdec] at hretry
    cases hretry
  | written alertId eventId running targetPrice item event hrng hdec hwrite =>
    refine h.progressed hrng ?_ _ fun id hid => mem_cons_of_mem _ hid
    intro item' event' hsame
    cases hsame
    obtain ⟨hitem, hevt⟩ := writeTrigger_ok hwrite
    obtain ⟨_, hactv, hevaluate, _⟩ := decideTrigger_fire hdec
    exact ⟨hitem, ⟨eventId, targetPrice, hevaluate, hevt⟩, hactv, Coherent.fire_fresh hkept hrng hdec⟩
  | pruned _ alertId running item event deleted hrng hprog =>
    refine h.progressed hrng ?_ store.issued fun _ hid => hid
    intro item' event' hsame
    cases hsame
    exact (h.held running (runningOn_mem hrng).1).writes item event (by rw [hprog]; rfl)
  | committed _ alertId running item event deleted hrng hprog =>
    exact h.committed deleted hrng (by rw [hprog]; rfl)
  | released _ alertId => exact h.released alertId
  | cleared =>
    exact ⟨⟨h.rows.ids, h.rows.issued, h.rows.clients⟩, h.heldOnce,
      fun running hrng => (h.held running hrng).mono (h.held running hrng).mem fun _ _ _ _ hnew _ => hnew,
      ⟨h.logged.fired, h.logged.issued, h.logged.since,
        fun row hrow => h.logged.events row (mem_of_mem_filter hrow), h.logged.unedited⟩, h.once⟩

/-- **An alert fires once per observation**, in any interleaving of calls in which the history
keeps the event of an attempt for as long as the attempt may come again. -/
theorem firesOnce_of_kept {start : Store} (hstart : Start start)
    (h : Runs.Reaches (step platform) (Kept platform) start store) : FiresOnce store.journal :=
  (h.invariant (Coherent platform) (coherent_start hstart) fun _ _ _ hcoherent hkept hstep => hcoherent.step hkept hstep).once

/-! ## A run that keeps its history, and one that clears it -/

def historyKept (store : Store) : Action → Bool
  | .decide alertId _ =>
    (store.runningOn alertId).all fun running =>
      (store.journal.all fun entry =>
        match entry with
        | .answered _ (.new item event) =>
          item.id ≠ running.row.id || event.triggeredAt ≠ evidenceTimestamp running.current.timestamp
        | _ => true)
      || store.events.any (isAttempt running.row (evidenceTimestamp running.current.timestamp))
  | _ => true

theorem kept_of_historyKept (action : Action) (h : historyKept store action = true) : Kept platform store action := by
  cases action with
  | decide =>
    intro running i request item event hrng hnew hid hrev htime _
    simp only [historyKept, hrng, all_some, or_eq_true] at h
    rcases h with hnone | hsome
    · have hent := all_eq_true.mp hnone _ (mem_of_getElem? hnew)
      simp [hid, htime] at hent
    · exact any_eq_true.mp hsome
  | _ => trivial

/-- Identifiers are not read as text, and lines are straight. -/
def breakoutPlatform : Platform := ⟨id, id, id, id, fun _ => none, fun _ => ""⟩

def breakout : Alert :=
  { id := 1, userId := 7, clientId := some "breakout", symbol := "XAUUSD", condition := "above", price := 100, note := ""
    status := .active, enabled := true, locked := false, recurring := true, channels := ⟨true, false, false, false, false⟩
    triggerPrice := none, triggeredAt := none, source := none, technicalTarget := none, armingRevision := 1 }

def breakoutStore : Store := { alerts := [breakout], events := [], running := [], clearing := [], issued := [1], journal := [] }

def breakoutTrigger : TriggerRequest :=
  ⟨7, "breakout", { triggerPrice := none, targetPrice := none, previous := none, current := some ⟨101, 1000⟩, armingRevision := 1 }⟩

theorem breakoutStore_start : Start breakoutStore where
  ids := by simp [breakoutStore]
  issued := by simp [breakoutStore, breakout]
  clients := by simp [breakoutStore]
  events := by simp [breakoutStore]
  running := rfl
  journal := rfl

/-- The call, and the call again: new, then already triggered. -/
def calledTwice : List Action :=
  [.beginTrigger breakoutTrigger, .decide 1 10, .prune 1, .commit 1, .beginTrigger breakoutTrigger, .decide 1 11]

theorem firesOnce_calledTwice : ∃ store, Runs.exec (step breakoutPlatform) historyKept breakoutStore calledTwice = some store
    ∧ store.journal.length = 2 ∧ FiresOnce store.journal := by
  have hrun : ∃ store, Runs.exec (step breakoutPlatform) historyKept breakoutStore calledTwice = some store
      ∧ store.journal.length = 2 := by
    have hsome : ((Runs.exec (step breakoutPlatform) historyKept breakoutStore calledTwice).map (·.journal.length)) = some 2 := by
      decide +kernel
    obtain ⟨store, hstore, hlng⟩ := map_eq_some_iff.mp hsome
    exact ⟨store, hstore, hlng⟩
  obtain ⟨store, hexec, hlng⟩ := hrun
  exact ⟨store, hexec, hlng, firesOnce_of_kept breakoutStore_start
    (Runs.reaches_of_exec (fun _ action => kept_of_historyKept action) hexec)⟩

/-- The call, the history cleared, and the call again. -/
def clearedBetween : List Action :=
  [.beginTrigger breakoutTrigger, .decide 1 10, .prune 1, .commit 1, .clearHistory 7, .historyCleared [10],
    .beginTrigger breakoutTrigger, .decide 1 11, .prune 1, .commit 1]

/-- The journal has two new answers for one arming revision and evidence time of one alert. -/
def firesTwice (journal : List Entry) : Bool :=
  match journal with
  | [.answered _ (.new item event), .answered _ (.new item' event')] =>
    item.id = item'.id && item.armingRevision = item'.armingRevision && event.triggeredAt = event'.triggeredAt
  | _ => false

theorem not_firesOnce_of_firesTwice (h : firesTwice journal = true) : ¬ FiresOnce journal := by
  intro honce
  unfold firesTwice at h
  split at h
  · rename_i request item event request' item' event'
    simp only [and_eq_true, decide_eq_true_eq] at h
    have hsame := honce.attempts 0 1 request request' item item' event event' rfl rfl h.1.1 h.1.2 h.2
    cases hsame
  · cases h

/-- **An alert whose history is cleared fires again on the same observation.** -/
theorem fires_again_after_clearHistory :
    ¬ ∀ start store, Start start → Runs.Reaches (step breakoutPlatform) Runs.always start store → FiresOnce store.journal := by
  intro hall
  have hsome : ((Runs.exec (step breakoutPlatform) (fun _ _ => true) breakoutStore clearedBetween).map (firesTwice ·.journal))
      = some true := by
    decide +kernel
  obtain ⟨store, hreaches, htwice⟩ := Runs.reached_of_map hsome
  exact not_firesOnce_of_firesTwice htwice (hall breakoutStore store breakoutStore_start hreaches)

end MarketLens.Alerts
