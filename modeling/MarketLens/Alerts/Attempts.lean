import MarketLens.Alerts.Moves

/-!
# An alert fires once per observation

Over any interleaving of calls: no two answers are new for one alert, arming
revision and evidence time, or for one arming revision of an alert that does not
recur, and a call repeated after it committed is answered with its event. The
history is where an attempt is recognised, so all of it rests on the event of an
attempt still being there when the attempt comes again (`Kept`).
-/

namespace MarketLens.Alerts

open Table List Fallible

variable {platform : Platform} {store store' : Store}

/-! ## What is promised -/

def NewAt (journal : List Entry) (i : Nat) (request : TriggerRequest) (item : Alert) (event : Event) : Prop :=
  journal[i]? = some (.answered request (.new item event))

/-- The alert has not been edited after the entry. -/
def UneditedSince (journal : List Entry) (i : Nat) (alertId : Uuid) : Prop :=
  ∀ k, i < k → journal[k]? ≠ some (.edited alertId)

def UneditedBetween (journal : List Entry) (i j : Nat) (alertId : Uuid) : Prop :=
  ∀ k, i < k → k < j → journal[k]? ≠ some (.edited alertId)

structure FiresOnce (journal : List Entry) : Prop where
  /-- One new answer for an alert, an arming revision and an evidence time. -/
  attempts : ∀ i j request request' item item' event event', NewAt journal i request item event →
    NewAt journal j request' item' event' → item.id = item'.id → item.armingRevision = item'.armingRevision →
    event.triggeredAt = event'.triggeredAt → i = j
  /-- One new answer for an arming revision of an alert that does not recur. -/
  armings : ∀ i j request request' item item' event event', NewAt journal i request item event →
    NewAt journal j request' item' event' → item.id = item'.id → item.armingRevision = item'.armingRevision →
    item.recurring = false → item'.recurring = false → i = j
  /-- The same call again, the alert not edited since, is answered with the same event. -/
  retries : ∀ i j request item event answer, i < j → NewAt journal i request item event →
    journal[j]? = some (.answered request answer) → UneditedBetween journal i j item.id → answer = .already event

/-- The trigger comes again after it committed, the alert not edited since. -/
def IsRetry (store : Store) (i : Nat) (request : TriggerRequest) (item : Alert) (running : Running) : Prop :=
  running.request = request ∧ UneditedSince store.journal i item.id

/-- The evidence fires the alert, which is there to be fired. -/
def CanFire (platform : Platform) (running : Running) : Prop :=
  running.row.enabled = true ∧ running.row.status = .active
    ∧ ∃ targetPrice, evaluateTrigger platform running.row running.input running.current = .ok targetPrice

/-- When a trigger that has committed comes again, or one for the same alert, arming revision and
evidence time could fire, the history still has the event of the attempt. -/
def Kept (platform : Platform) (store : Store) : Action → Prop
  | .decide alertId _ =>
    ∀ running i request item event, store.runningOn alertId = some running → NewAt store.journal i request item event →
      item.id = running.row.id → item.armingRevision = running.row.armingRevision →
      event.triggeredAt = evidenceTimestamp running.current.timestamp →
      IsRetry store i request item running ∨ CanFire platform running →
      ∃ row ∈ store.events, isAttempt running.row (evidenceTimestamp running.current.timestamp) row = true
  | _ => True

structure Start (store : Store) : Prop where
  ids : (store.alerts.map (·.id)).Nodup
  issued : ∀ row ∈ store.alerts, row.id ∈ store.issued
  clients : ∀ row ∈ store.alerts, ∀ other ∈ store.alerts, sameClient row other = true → row.id = other.id
  events : ∀ row ∈ store.events, row.armingRevision = none
  running : store.running = []
  journal : store.journal = []

/-! ## Journals that grow -/

variable {journal : List Entry}

theorem concat_cases {entry found : Entry} {k : Nat} (h : (journal ++ [entry])[k]? = some found) :
    (k < journal.length ∧ journal[k]? = some found) ∨ (k = journal.length ∧ found = entry) := by
  rcases Nat.lt_or_ge k journal.length with hk | hk
  · rw [getElem?_append_left hk] at h
    exact .inl ⟨hk, h⟩
  · rw [getElem?_append_right hk] at h
    have hzero : k - journal.length = 0 := by
      by_contra hne
      rw [getElem?_eq_none (by simp; omega)] at h
      cases h
    rw [hzero] at h
    cases h
    exact .inr ⟨by omega, rfl⟩

theorem concat_of {entry found : Entry} {k : Nat} (h : journal[k]? = some found) : (journal ++ [entry])[k]? = some found := by
  obtain ⟨hk, _⟩ := List.getElem?_eq_some_iff.mp h
  rw [getElem?_append_left hk]
  exact h

theorem concat_last (journal : List Entry) (entry : Entry) : (journal ++ [entry])[journal.length]? = some entry := by
  simp

variable {entry : Entry} {i : Nat} {alertId : Uuid}

/-- What was not edited in a longer journal was not edited in the shorter. -/
theorem UneditedSince.of_concat (h : UneditedSince (journal ++ [entry]) i alertId) : UneditedSince journal i alertId :=
  fun k hk hedited => h k hk (concat_of hedited)

theorem UneditedSince.ne_of_concat {alertId edited : Uuid} (hi : i < journal.length)
    (h : UneditedSince (journal ++ [.edited edited]) i alertId) : edited ≠ alertId := by
  intro hsame
  subst hsame
  exact h journal.length hi (concat_last _ _)

/-- Not edited up to the end of the journal. -/
theorem UneditedBetween.since
    (h : UneditedBetween (journal ++ [entry]) i journal.length alertId) : UneditedSince journal i alertId := by
  intro k hk hedited
  obtain ⟨hlt, _⟩ := List.getElem?_eq_some_iff.mp hedited
  exact h k hk hlt (concat_of hedited)

theorem UneditedBetween.of_concat {i j : Nat}
    (h : UneditedBetween (journal ++ [entry]) i j alertId) : UneditedBetween journal i j alertId :=
  fun k hk hj hedited => h k hk hj (concat_of hedited)

variable {request : TriggerRequest} {item : Alert} {event : Event}

theorem newAt_concat (h : NewAt (journal ++ [entry]) i request item event) :
    (i < journal.length ∧ NewAt journal i request item event) ∨ (i = journal.length ∧ entry = .answered request (.new item event)) := by
  rcases concat_cases h with ⟨hi, h⟩ | ⟨hi, h⟩
  · exact .inl ⟨hi, h⟩
  · exact .inr ⟨hi, h.symm⟩

/-- An edit keeps the promise. -/
theorem FiresOnce.edit (h : FiresOnce journal) : FiresOnce (journal ++ [.edited alertId]) := by
  have hold : ∀ {i request item event}, NewAt (journal ++ [.edited alertId]) i request item event →
      NewAt journal i request item event := by
    intro i request item event hnew
    rcases newAt_concat hnew with ⟨_, hnew⟩ | ⟨_, hent⟩
    · exact hnew
    · cases hent
  refine ⟨?_, ?_, ?_⟩
  · intro i j request request' item item' event event' hi hj
    exact h.attempts i j request request' item item' event event' (hold hi) (hold hj)
  · intro i j request request' item item' event event' hi hj
    exact h.armings i j request request' item item' event event' (hold hi) (hold hj)
  · intro i j request item event answer hij hi hj huned
    rcases concat_cases hj with ⟨_, hj⟩ | ⟨_, hent⟩
    · exact h.retries i j request item event answer hij (hold hi) hj huned.of_concat
    · cases hent

/-- An answer keeps the promise if it is the event of every call it repeats, and if it is new
for its alert, arming revision and evidence time, and the arming revision of a one-time alert. -/
theorem FiresOnce.answer {answer : Answer} (h : FiresOnce journal)
    (hretry : ∀ i item event, NewAt journal i request item event → UneditedSince journal i item.id → answer = .already event)
    (hnew : ∀ item event, answer = .new item event → ∀ i request' item' event', NewAt journal i request' item' event' →
      item'.id = item.id → item'.armingRevision = item.armingRevision →
      event'.triggeredAt ≠ event.triggeredAt ∧ (item'.recurring = false → item.recurring = true)) :
    FiresOnce (journal ++ [.answered request answer]) := by
  refine ⟨?_, ?_, ?_⟩
  · intro i j first second item item' event event' hi hj hid hrev htime
    rcases newAt_concat hi with ⟨_, hold⟩ | ⟨hlast, hent⟩ <;> rcases newAt_concat hj with ⟨_, hold'⟩ | ⟨hlast', hent'⟩
    · exact h.attempts i j _ _ _ _ _ _ hold hold' hid hrev htime
    · cases hent'
      exact absurd htime (hnew _ _ rfl i _ _ _ hold hid hrev).1
    · cases hent
      exact absurd htime.symm (hnew _ _ rfl j _ _ _ hold' hid.symm hrev.symm).1
    · omega
  · intro i j first second item item' event event' hi hj hid hrev honce honce'
    rcases newAt_concat hi with ⟨_, hold⟩ | ⟨hlast, hent⟩ <;> rcases newAt_concat hj with ⟨_, hold'⟩ | ⟨hlast', hent'⟩
    · exact h.armings i j _ _ _ _ _ _ hold hold' hid hrev honce honce'
    · cases hent'
      have hrecur := (hnew _ _ rfl i _ _ _ hold hid hrev).2 honce
      rw [honce'] at hrecur
      cases hrecur
    · cases hent
      have hrecur := (hnew _ _ rfl j _ _ _ hold' hid.symm hrev.symm).2 honce'
      rw [honce] at hrecur
      cases hrecur
    · omega
  · intro i j again item event answer' hij hi hj huned
    rcases concat_cases hj with ⟨hlt, hj⟩ | ⟨hlast, hent⟩
    · rcases newAt_concat hi with ⟨_, hold⟩ | ⟨hlast, _⟩
      · exact h.retries i j _ _ _ _ hij hold hj huned.of_concat
      · omega
    · cases hent
      rw [hlast] at huned
      rcases newAt_concat hi with ⟨_, hold⟩ | ⟨hlast', _⟩
      · exact hretry i item event hold huned.since
      · omega

/-! ## What holds all along -/

/-- The alert without what a trigger writes besides its status. -/
def Alert.unfired (row : Alert) : Alert := { row with triggerPrice := none, triggeredAt := none }

/-- How a new answer came about. -/
structure Fires (platform : Platform) (request : TriggerRequest) (item : Alert) (event : Event) (input : TriggerInput)
    (current : TechnicalEvidencePoint) (targetPrice : ℚ) : Prop where
  normalized : normalizeTriggerInput request.input = .ok (input, current)
  referred : isReferred platform request.userId request.ref item = true
  revision : input.armingRevision = item.armingRevision
  evaluates : evaluateTrigger platform item input current = .ok targetPrice
  keepsTrigger : event.triggerPrice = numeric8 current.price
  keepsTarget : event.targetPrice = numeric8 targetPrice
  triggeredAt : event.triggeredAt = evidenceTimestamp current.timestamp
  status : item.status = if item.recurring then .active else .triggered

/-- A row of an alert that has fired as `item`: while it is armed as it was, it goes on recurring,
or it is no longer active. -/
structure Since (item row : Alert) : Prop where
  revision : item.armingRevision ≤ row.armingRevision
  armed : item.armingRevision = row.armingRevision →
    row.recurring = item.recurring ∧ (item.recurring = false → row.status ≠ .active)

/-- The writes of a running trigger. -/
def Progress.writes : Progress → Option (Alert × EventRow)
  | .locked => none
  | .written item event => some (item, event)
  | .pruned item event _ => some (item, event)

structure Writes (platform : Platform) (journal : List Entry) (running : Running) (item : Alert) (event : EventRow) : Prop where
  updates : item = firedRow running.row (numeric8 running.current.price) (evidenceTimestamp running.current.timestamp)
  inserts : ∃ eventId targetPrice,
    evaluateTrigger platform running.row running.input running.current = .ok targetPrice
      ∧ event = firedEvent platform item eventId (numeric8 targetPrice) (numeric8 running.current.price)
          (evidenceTimestamp running.current.timestamp)
  active : running.row.status = .active
  fresh : ∀ i request item' event', NewAt journal i request item' event' → item'.id = running.row.id →
    item'.armingRevision = running.row.armingRevision → event'.triggeredAt ≠ evidenceTimestamp running.current.timestamp

structure Holds (platform : Platform) (store : Store) (running : Running) : Prop where
  mem : running.row ∈ store.alerts
  normalized : normalizeTriggerInput running.request.input = .ok (running.input, running.current)
  referred : isReferred platform running.request.userId running.request.ref running.row = true
  revision : running.input.armingRevision = running.row.armingRevision
  writes : ∀ item event, running.progress.writes = some (item, event) → Writes platform store.journal running item event

/-- The identifiers of the alerts. -/
structure Rows (store : Store) : Prop where
  ids : (store.alerts.map (·.id)).Nodup
  issued : ∀ row ∈ store.alerts, row.id ∈ store.issued
  clients : ∀ row ∈ store.alerts, ∀ other ∈ store.alerts, sameClient row other = true → row.id = other.id

/-- What the tables have to do with the journal. -/
structure Logged (platform : Platform) (store : Store) : Prop where
  fired : ∀ i request item event, NewAt store.journal i request item event →
    ∃ input current targetPrice, Fires platform request item event input current targetPrice
  issued : ∀ i request item event, NewAt store.journal i request item event → item.id ∈ store.issued
  since : ∀ i request item event, NewAt store.journal i request item event →
    ∀ row ∈ store.alerts, row.id = item.id → Since item row
  /-- Every event with an arming revision is that of a new answer. -/
  events : ∀ row ∈ store.events, ∀ alertId revision, row.alertId = some alertId → row.armingRevision = some revision →
    ∃ i request item, NewAt store.journal i request item (scanEvent row) ∧ item.id = alertId ∧ item.armingRevision = revision
  unedited : ∀ i request item event, NewAt store.journal i request item event → UneditedSince store.journal i item.id →
    ∃ row ∈ store.alerts, row.unfired = item.unfired

structure Coherent (platform : Platform) (store : Store) : Prop where
  rows : Rows store
  heldOnce : (store.running.map (·.row.id)).Nodup
  held : ∀ running ∈ store.running, Holds platform store running
  logged : Logged platform store
  once : FiresOnce store.journal

/-! ## The rows -/

variable {row other : Alert}

theorem Rows.referred_unique {userId : Uuid} {ref : String} (h : Rows store) (hrow : row ∈ store.alerts)
    (hoth : other ∈ store.alerts) (hrefe : isReferred platform userId ref row = true)
    (hrefe' : isReferred platform userId ref other = true) : row = other := by
  refine inj_on_of_nodup_map h.ids hrow hoth ?_
  unfold isReferred at hrefe hrefe'
  simp only [Bool.and_eq_true, Bool.or_eq_true, decide_eq_true_eq] at hrefe hrefe'
  obtain ⟨huser, hby⟩ := hrefe
  obtain ⟨huser', hby'⟩ := hrefe'
  unfold splitRef at hby hby'
  split at hby
  · rcases hby with hid | hcl
    · cases hid
    · exact absurd rfl hcl.1
  · rename_i hne
    rw [if_neg hne] at hby'
    split at hby
    · rename_i id hscan
      rw [hscan] at hby'
      rcases hby with hid | hcl
      · rcases hby' with hid' | hcl'
        · exact (Option.some.inj hid).symm.trans (Option.some.inj hid')
        · exact absurd rfl hcl'.1
      · exact absurd rfl hcl.1
    · rename_i hscan
      rw [hscan] at hby'
      rcases hby with hid | hcl
      · cases hid
      rcases hby' with hid' | hcl'
      · cases hid'
      refine h.clients row hrow other hoth ?_
      unfold sameClient
      rw [huser, huser', hcl.2, hcl'.2]
      simp

theorem Rows.append {row : Alert} (h : Rows store) (hfsh : row.id ∉ store.issued)
    (hcl : ∀ other ∈ store.alerts, sameClient row other = false) :
    Rows { store with alerts := store.alerts ++ [row], issued := row.id :: store.issued } where
  ids := nodup_insert h.ids fun old hold hsame => hfsh (hsame ▸ h.issued old hold)
  issued := by
    intro other hoth
    rcases mem_append.mp hoth with hold | hnew
    · exact mem_cons_of_mem _ (h.issued other hold)
    · rw [mem_singleton.mp hnew]
      exact mem_cons_self
  clients := by
    have hcl' : ∀ other ∈ store.alerts, sameClient other row = false := by
      intro other hoth
      have hnot := hcl other hoth
      unfold sameClient at hnot ⊢
      simp only [Bool.and_eq_false_iff, decide_eq_false_iff_not, Option.isSome_eq_false_iff] at hnot ⊢
      by_contra hsame
      push Not at hsame
      obtain ⟨⟨huser, hsome⟩, hclientId⟩ := hsame
      rw [hclientId] at hsome
      rcases hnot with (hnot | hnot) | hnot
      · exact hnot huser.symm
      · exact hsome hnot
      · exact hnot hclientId.symm
    intro first hfs second hsec hsame
    rcases mem_append.mp hfs with hold | hnew <;> rcases mem_append.mp hsec with hold' | hnew'
    · exact h.clients first hold second hold' hsame
    · rw [mem_singleton.mp hnew', hcl' first hold] at hsame
      cases hsame
    · rw [mem_singleton.mp hnew, hcl second hold'] at hsame
      cases hsame
    · rw [mem_singleton.mp hnew, mem_singleton.mp hnew']

variable {events : List EventRow}

theorem Rows.update {f : Alert → Alert} {running : List Running} (h : Rows store)
    (hf : ∀ row ∈ store.alerts, row.id = alertId → (f row).id = row.id ∧ (f row).userId = row.userId ∧ (f row).clientId = row.clientId) :
    Rows { store with alerts := updateWhere (·.id = alertId) f store.alerts, running, events, journal } := by
  have hold : ∀ row ∈ updateWhere (·.id = alertId) f store.alerts, ∃ old ∈ store.alerts,
      row.id = old.id ∧ row.userId = old.userId ∧ row.clientId = old.clientId := by
    intro row hrow
    rcases updateWhere_cases hrow with ⟨hmem, _⟩ | ⟨old, hmem, hp, rfl⟩
    · exact ⟨row, hmem, rfl, rfl, rfl⟩
    · exact ⟨old, hmem, hf old hmem (by simpa using hp)⟩
  refine ⟨?_, ?_, ?_⟩
  · have hids : (updateWhere (·.id = alertId) f store.alerts).map (·.id) = store.alerts.map (·.id) := by
      unfold updateWhere
      rw [map_map]
      refine map_congr_left fun row hrow => ?_
      rw [Function.comp_apply]
      split
      · rename_i hp
        exact (hf row hrow (by simpa using hp)).1
      · rfl
    rw [hids]
    exact h.ids
  · intro row hrow
    obtain ⟨old, hmem, hid, _⟩ := hold row hrow
    rw [hid]
    exact h.issued old hmem
  · intro row hrow other hoth hsame
    obtain ⟨old, hmem, hid, huser, hcl⟩ := hold row hrow
    obtain ⟨old', hmem', hid', huser', hcl'⟩ := hold other hoth
    unfold sameClient at hsame
    rw [huser, hcl, huser', hcl'] at hsame
    rw [hid, hid']
    exact h.clients old hmem old' hmem' hsame

theorem Rows.delete (h : Rows store) : Rows { store with alerts := store.alerts.filter (·.id ≠ alertId), events, journal } where
  ids := h.ids.sublist (filter_sublist.map _)
  issued := fun row hrow => h.issued row (mem_of_mem_filter hrow)
  clients := fun row hrow other hoth =>
    h.clients row (mem_of_mem_filter hrow) other (mem_of_mem_filter hoth)

/-! ## One trigger -/

variable {running : Running}

theorem runningOn_mem (h : store.runningOn alertId = some running) : running ∈ store.running ∧ running.row.id = alertId := by
  exact ⟨mem_of_find?_eq_some h, by simpa using find?_some h⟩

theorem decideTrigger_ne_new :
    decideTrigger platform events running ≠ .answer (.new item event) := by
  intro h
  unfold decideTrigger at h
  split at h
  · unfold decideTriggered at h
    split at h
    · cases h
    split at h
    · cases h
    · cases h
  · unfold decideAttempt at h
    split at h
    · cases h
    split at h
    · split at h
      · cases h
      · cases h
    · split at h
      · cases h
      · cases h

variable {targetPrice : ℚ}

theorem decideTrigger_fire (h : decideTrigger platform events running = .fire targetPrice) :
    running.row.enabled = true ∧ running.row.status = .active
      ∧ evaluateTrigger platform running.row running.input running.current = .ok targetPrice
      ∧ ∀ row ∈ events, isAttempt running.row (evidenceTimestamp running.current.timestamp) row = false := by
  unfold decideTrigger at h
  split at h
  · cases h
  unfold decideAttempt at h
  split at h
  · cases h
  rename_i price hevaluate
  split at h
  · split at h
    · cases h
    · cases h
  · rename_i hfind
    split at h
    · cases h
    rename_i hrdy
    cases h
    simp only [Bool.or_eq_true, Bool.not_eq_true', decide_eq_true_eq, not_or, Bool.not_eq_false, not_not] at hrdy
    refine ⟨hrdy.1, hrdy.2, hevaluate, fun row hrow => ?_⟩
    simpa using find?_eq_none.mp hfind row hrow

theorem numericColumn_ok {value kept : ℚ} (h : numericColumn value = .ok kept) : kept = numeric8 value := by
  unfold numericColumn at h
  split at h
  · cases h
  · cases h
    rfl

theorem writeTrigger_ok {eventId : Uuid} {event : EventRow}
    (h : writeTrigger platform running eventId targetPrice = .ok (item, event)) :
    item = firedRow running.row (numeric8 running.current.price) (evidenceTimestamp running.current.timestamp)
      ∧ event = firedEvent platform item eventId (numeric8 targetPrice) (numeric8 running.current.price)
          (evidenceTimestamp running.current.timestamp) := by
  obtain ⟨triggerPrice, htrigger, h⟩ := bind_ok.mp h
  obtain ⟨kept, htgt, h⟩ := bind_ok.mp h
  cases h
  rw [numericColumn_ok htrigger, numericColumn_ok htgt]
  exact ⟨rfl, rfl⟩

/-- The evaluation reads nothing that a trigger writes besides the status. -/
theorem evaluateTrigger_unfired {input : TriggerInput} {current : TechnicalEvidencePoint} (h : row.unfired = other.unfired) :
    evaluateTrigger platform row input current = evaluateTrigger platform other input current := by
  have hunfired : ∀ row : Alert, evaluateTrigger platform row input current = evaluateTrigger platform row.unfired input current :=
    fun _ => rfl
  rw [hunfired row, h, ← hunfired other]

theorem isReferred_unfired {userId : Uuid} {ref : String} (h : row.unfired = other.unfired) :
    isReferred platform userId ref row = isReferred platform userId ref other := by
  have hunfired : ∀ row : Alert, isReferred platform userId ref row = isReferred platform userId ref row.unfired := fun _ => rfl
  rw [hunfired row, h, ← hunfired other]

theorem armed_of_unfired (h : row.unfired = other.unfired) :
    row.id = other.id ∧ row.armingRevision = other.armingRevision ∧ row.recurring = other.recurring ∧ row.status = other.status := by
  rw [Alert.mk.injEq] at h
  tauto

/-- A call that comes again holds the row of the alert it fired, as it was left. -/
theorem Coherent.retry_row (h : Coherent platform store)
    (hrng : running ∈ store.running) (hnew : NewAt store.journal i running.request item event)
    (huned : UneditedSince store.journal i item.id) :
    running.row.unfired = item.unfired
      ∧ ∃ targetPrice, Fires platform running.request item event running.input running.current targetPrice := by
  have hhld := h.held running hrng
  obtain ⟨input, current, targetPrice, hfires⟩ := h.logged.fired i _ _ _ hnew
  obtain ⟨row, hrow, hsame⟩ := h.logged.unedited i _ _ _ hnew huned
  have hinput := hhld.normalized.symm.trans hfires.normalized
  cases hinput
  have hrefe : isReferred platform running.request.userId running.request.ref row = true := by
    rw [isReferred_unfired hsame]
    exact hfires.referred
  have heq := h.rows.referred_unique hhld.mem hrow hhld.referred hrefe
  rw [heq]
  exact ⟨hsame, targetPrice, hfires⟩

theorem Coherent.found_attempt {row : Alert} {found : EventRow}
    (h : Coherent platform store) (hnew : NewAt store.journal i request item event) (hid : item.id = row.id)
    (hrev : item.armingRevision = row.armingRevision) (hfnd : found ∈ store.events)
    (hatt : isAttempt row event.triggeredAt found = true) : scanEvent found = event := by
  unfold isAttempt at hatt
  simp only [Bool.and_eq_true, decide_eq_true_eq] at hatt
  obtain ⟨⟨hale, harmed⟩, htime⟩ := hatt
  obtain ⟨j, request', item', hnew', hid', hrev'⟩ := h.logged.events found hfnd _ _ hale harmed
  have hsame := h.once.attempts i j _ _ _ _ _ _ hnew hnew' (hid.trans hid'.symm) (hrev.trans hrev'.symm) htime.symm
  subst hsame
  unfold NewAt at hnew hnew'
  rw [hnew] at hnew'
  cases hnew'
  rfl

/-- **A call that comes again while the event is there is answered with it.** -/
theorem Coherent.decide_retry {alertId eventId : Uuid}
    (h : Coherent platform store) (hkept : Kept platform store (.decide alertId eventId))
    (hrng : store.runningOn alertId = some running) (hnew : NewAt store.journal i running.request item event)
    (huned : UneditedSince store.journal i item.id) :
    decideTrigger platform store.events running = .answer (.already event) := by
  obtain ⟨hsame, targetPrice, hfires⟩ := h.retry_row (runningOn_mem hrng).1 hnew huned
  obtain ⟨hid, hrev, hrecur, hstat⟩ := armed_of_unfired hsame.symm
  obtain ⟨kept, hmem, hatt⟩ := hkept running i _ item event hrng hnew hid hrev hfires.triggeredAt (.inl ⟨rfl, huned⟩)
  rw [← hfires.triggeredAt] at hatt
  unfold decideTrigger
  by_cases htrig : running.row.status = .triggered
  · -- A one-time alert: every event of its arming revision is the one.
    rw [if_pos htrig]
    have honce : item.recurring = false := by
      rw [← hstat, hfires.status] at htrig
      cases hcase : item.recurring with
      | false => rfl
      | true =>
        rw [hcase] at htrig
        cases htrig
    have hin : kept ∈ newestFirst (store.events.filter fun event =>
        event.alertId = some running.row.id && event.armingRevision = some running.row.armingRevision) := by
      unfold isAttempt at hatt
      simp only [Bool.and_eq_true, decide_eq_true_eq] at hatt
      unfold newestFirst
      rw [mem_mergeSort, mem_filter]
      exact ⟨hmem, by simp [hatt.1]⟩
    unfold decideTriggered
    cases hhead : (newestFirst (store.events.filter fun event =>
        event.alertId = some running.row.id && event.armingRevision = some running.row.armingRevision)).head? with
    | none =>
      rw [head?_eq_none_iff] at hhead
      rw [hhead] at hin
      cases hin
    | some found =>
      have hfnd := mem_of_head? hhead
      unfold newestFirst at hfnd
      rw [mem_mergeSort, mem_filter] at hfnd
      simp only [Bool.and_eq_true, decide_eq_true_eq] at hfnd
      obtain ⟨j, request', item', hnew', hid', hrev'⟩ := h.logged.events found hfnd.1 _ _ hfnd.2.1 hfnd.2.2
      have hsince := (h.logged.since j _ _ _ hnew' running.row (h.held running (runningOn_mem hrng).1).mem hid'.symm).armed hrev'
      have honce' : item'.recurring = false := by rw [← hsince.1, ← hrecur, honce]
      have hposn := h.once.armings i j _ _ _ _ _ _ hnew hnew' (hid.trans hid'.symm) (hrev.trans hrev'.symm) honce honce'
      subst hposn
      unfold NewAt at hnew hnew'
      rw [hnew] at hnew'
      cases hnew'
      rfl
  -- armed again or recurring: the event is found by its time, and the prices agree
  · rw [if_neg htrig]
    unfold decideAttempt
    rw [evaluateTrigger_unfired hsame, hfires.evaluates, ← hfires.triggeredAt]
    cases hfind : store.events.find? (isAttempt running.row event.triggeredAt) with
    | none =>
      have hnone := find?_eq_none.mp hfind kept hmem
      exact absurd hatt hnone
    | some found =>
      have hfnd := h.found_attempt hnew hid hrev (mem_of_find?_eq_some hfind) (find?_some hfind)
      have htrigger : found.triggerPrice = numeric8 running.current.price := by
        rw [← hfires.keepsTrigger, ← hfnd]
        rfl
      have htgt : found.targetPrice = numeric8 targetPrice := by
        rw [← hfires.keepsTarget, ← hfnd]
        rfl
      dsimp only
      rw [htrigger, htgt, nearlyEqual_numeric8, nearlyEqual_numeric8, hfnd]
      rfl

theorem Coherent.fire_fresh {alertId eventId : Uuid}
    (hkept : Kept platform store (.decide alertId eventId)) (hrng : store.runningOn alertId = some running)
    (hfire : decideTrigger platform store.events running = .fire targetPrice) (i : Nat) (request : TriggerRequest)
    (item : Alert) (event : Event) (hnew : NewAt store.journal i request item event) (hid : item.id = running.row.id)
    (hrev : item.armingRevision = running.row.armingRevision) :
    event.triggeredAt ≠ evidenceTimestamp running.current.timestamp := by
  intro htime
  obtain ⟨henab, hactv, hevaluate, hnone⟩ := decideTrigger_fire hfire
  obtain ⟨row, hrow, hatt⟩ := hkept running i request item event hrng hnew hid hrev htime
    (.inr ⟨henab, hactv, targetPrice, hevaluate⟩)
  rw [hnone row hrow] at hatt
  cases hatt

end MarketLens.Alerts
