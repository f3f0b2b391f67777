import MarketLens.TradeAuth.Guesses

/-!
# How often a password can be guessed

Clear of configurations that compare wrongly or while the password is locked, and
of calls given up after a wrong comparison, the counter is the number of wrong
comparisons since it was last put back, and from the fifth on a lock period lies
between two of them.
-/

namespace MarketLens.TradeAuth

open List Option Bool Table TradeAuth.Store Runs

variable {service : Service} {store store' : Store}

/-! ## The counter and the failures -/

/-- From the fifth on each failure comes after the lock of the one before. -/
def Spaced : List Int → Prop
  | later :: earlier :: rest =>
    (5 ≤ rest.length + 1 → earlier + passwordLockDuration (rest.length + 1) ≤ later) ∧ Spaced (earlier :: rest)
  | _ => True

/-- The settings are locked from the last failure on, once there are five. -/
def Locks (failures : List Int) (settings : Settings) : Prop :=
  5 ≤ failures.length → ∃ last, failures.head? = some last ∧
    settings.lockedUntil = some (last + passwordLockDuration failures.length)

structure Tallied (watched : Watched) : Prop where
  counted : watched.failures.length =
    watched.store.failedAttempts + if watched.store.running.any (·.counting) then 1 else 0
  spaced : Spaced watched.failures
  locks : watched.store.running.any (·.counting) = false → ∀ settings, watched.store.settings = some settings →
    Locks watched.failures settings
  pending : ∀ transaction ∈ watched.store.running, transaction.counting = true → ∀ written,
    transaction.writes.settings = some written → Locks watched.failures written

variable {failures : List Int}

theorem Spaced.bound {n : Nat} (h : Spaced failures) (hlng : failures.length = 5 + n) :
    ∃ fifth last, failures[n]? = some fifth ∧ failures.head? = some last ∧ fifth + 30 * second * n ≤ last := by
  induction n generalizing failures with
  | zero =>
    cases failures with
    | nil => cases hlng
    | cons last => exact ⟨last, last, rfl, rfl, by simp⟩
  | succ n ih =>
    rcases failures with _ | ⟨later, _ | ⟨earlier, rest⟩⟩
    · cases hlng
    · simp only [length_cons, length_nil] at hlng
      omega
    · obtain ⟨hgap, hrest⟩ := h
      have hshort : (earlier :: rest).length = 5 + n := by
        simp only [length_cons] at hlng ⊢
        omega
      obtain ⟨fifth, last, hfifth, hlast, hle⟩ := ih hrest hshort
      cases hlast
      have hmany : 5 ≤ rest.length + 1 := by
        simp only [length_cons] at hshort
        omega
      have hlock := thirty_le_passwordLockDuration hmany
      have hnext := hgap hmany
      refine ⟨fifth, later, hfifth, rfl, ?_⟩
      push_cast
      linarith

variable {watched : Watched}

theorem Tallied.bounded (h : Tallied watched) : Bounded watched where
  counted := h.counted
  spaced := fun _ hlng => h.spaced.bound hlng

theorem Spaced.failed {settings : Settings} {now : Int} (h : Spaced failures)
    (hlocks : Locks failures settings) (hopen : settings.lockedUntil.any (now < ·) = false) : Spaced (now :: failures) := by
  cases failures with
  | nil => exact trivial
  | cons =>
    refine ⟨fun hmany => ?_, h⟩
    obtain ⟨last, hlast, hlkd⟩ := hlocks hmany
    cases hlast
    rw [hlkd] at hopen
    simpa using hopen

theorem failedAttempts_congr (h : store'.settings = store.settings) : store'.failedAttempts = store.failedAttempts := by
  unfold failedAttempts
  rw [h]

theorem any_counting {running running' : List Transaction}
    (h : ∀ transaction, transaction.counting = true → (transaction ∈ running' ↔ transaction ∈ running)) :
    running'.any (·.counting) = running.any (·.counting) := by
  rw [Bool.eq_iff_iff, List.any_eq_true, List.any_eq_true]
  constructor
  · rintro ⟨transaction, hmem, hcnts⟩
    exact ⟨transaction, (h transaction hcnts).mp hmem, hcnts⟩
  · rintro ⟨transaction, hmem, hcnts⟩
    exact ⟨transaction, (h transaction hcnts).mpr hmem, hcnts⟩

/-- What is counted stays so while the settings are the same and nobody begins or ends to count. -/
theorem Tallied.kept (h : Tallied watched) (hsett : store'.settings = watched.store.settings)
    (hcounting : ∀ transaction, transaction.counting = true →
      (transaction ∈ store'.running ↔ transaction ∈ watched.store.running)) : Tallied ⟨store', watched.failures⟩ := by
  have hany := any_counting hcounting
  refine ⟨?_, h.spaced, ?_, ?_⟩
  · dsimp only
    rw [hany, failedAttempts_congr hsett]
    exact h.counted
  · dsimp only
    rw [hany, hsett]
    exact h.locks
  · intro transaction hmem hcnts
    exact h.pending transaction ((hcounting transaction hcnts).mp hmem) hcnts

variable {watched watched' : Watched} {action : Action}

theorem watched_step (h : watched.step service action = some watched') :
    TradeAuth.step service watched.store action = some watched'.store ∧
      watched'.failures = if watched'.store.failedAttempts < watched.store.failedAttempts then []
        else (failure service watched.store action).toList ++ watched.failures := by
  unfold Watched.step at h
  obtain ⟨store, hstore, rfl⟩ := map_eq_some_iff.mp h
  exact ⟨hstore, rfl⟩

variable {id : Nat} {ambient : Ambient} {transaction : Transaction}

theorem failure_advance (h : store.transaction id = some transaction) :
    failure service store (.advance id ambient) =
      if transaction.comparison service store.sessions ambient.now = some false then some ambient.now else none := by
  simp only [failure, h, bind_some]

section Orderly

variable {other : Transaction} (h : Orderly service store)
include h

theorem Orderly.same_id (htx : store.transaction id = some transaction) (hoth : other ∈ store.running)
    (hid : other.id = id) : other = transaction := by
  obtain ⟨hmem, hid'⟩ := transaction_mem htx
  exact inj_on_of_nodup_map h.ids hoth hmem (hid.trans hid'.symm)

/-- Nobody who counts goes with a transaction that does not. -/
theorem Orderly.mem_dropped (hquiet : ∀ transaction, store.transaction id = some transaction → transaction.counting = false)
    (hcnts : other.counting = true) : other ∈ store.running.filter (·.id ≠ id) ↔ other ∈ store.running := by
  refine ⟨mem_of_mem_filter, fun hold => mem_filter.mpr ⟨hold, ?_⟩⟩
  have hne : other.id ≠ id := by
    intro hsame
    cases hfind : store.transaction id with
    | none => exact absurd (by simpa using hsame) (find?_eq_none.mp hfind other hold)
    | some transaction =>
      rw [h.same_id hfind hold hsame, hquiet transaction hfind] at hcnts
      cases hcnts
  simpa using hne

/-- Beside the transaction that holds the settings nobody counts. -/
theorem Orderly.none_dropped (htx : store.transaction id = some transaction) (hhld : transaction.holdsSettings = true) :
    (store.running.filter (·.id ≠ id)).any (·.counting) = false := by
  obtain ⟨hmem, hid⟩ := transaction_mem htx
  rw [List.any_eq_false]
  intro other hoth
  obtain ⟨hold, hne⟩ := mem_filter.mp hoth
  rw [not_eq_true]
  exact h.counting_unique hmem hold hhld (by rw [hid]; simpa using hne)

/-- Where the holder of the settings does not count, nobody does. -/
theorem Orderly.none_counting (htx : store.transaction id = some transaction) (hhld : transaction.holdsSettings = true)
    (hquiet : transaction.counting = false) : store.running.any (·.counting) = false := by
  rw [← h.none_dropped htx hhld]
  refine (any_counting fun other => h.mem_dropped fun found hfind => ?_).symm
  cases htx.symm.trans hfind
  exact hquiet

end Orderly

theorem Kept.statement_not_counting (h : Kept service store.settings transaction)
    (hstatement : statement service store transaction ambient ≠ .waits) : transaction.counting = false := by
  by_contra hcounting
  rw [not_eq_false] at hcounting
  obtain ⟨_, read, written, _, hread, hwritten, _, hfail⟩ := h.counting hcounting
  obtain ⟨hbegun, _, hread⟩ := h.late (by rw [hwritten]; rfl)
  obtain ⟨read', _, hwrote⟩ := h.wrote written hwritten
  cases hwrote with
  | counted now hauthorizes =>
    apply hstatement
    unfold statement
    split
    · unfold authorize
      split
      · rename_i hstg
        exact absurd hstg hbegun
      · rename_i hstg
        exact absurd hstg hread
      · rfl
    · rename_i hcall
      rw [hcall] at hauthorizes
      cases hauthorizes
    · rename_i hcall
      rw [hcall] at hauthorizes
      cases hauthorizes
    · rename_i hcall
      rw [hcall] at hauthorizes
      cases hauthorizes
  | cleared => omega

/-- A failure is counted while no other transaction counts one. -/
theorem Tallied.failed {transaction next : Transaction} {settings written : Settings}
    (h : Tallied watched) (horderly : Orderly service watched.store) (htx : watched.store.transaction id = some transaction)
    (hgoes : Goes service watched.store transaction next) (hquiet : transaction.counting = false)
    (hsett : transaction.settings = some settings) (hnext : next.settings = some settings) (hon : settings.enabled = true)
    (hopen : settings.lockedUntil.any (ambient.now < ·) = false) (hwritten : next.writes.settings = some written)
    (hfail : written.failedAttempts = settings.failedAttempts + 1)
    (hlocks : 0 < passwordLockDuration written.failedAttempts →
      written.lockedUntil = some (ambient.now + passwordLockDuration written.failedAttempts)) :
    Tallied ⟨{ watched.store with running := Table.updateWhere (·.id = id) (fun _ => next) watched.store.running },
      ambient.now :: watched.failures⟩ := by
  obtain ⟨hmem, hid⟩ := transaction_mem htx
  obtain ⟨hhld, hsame⟩ := (horderly.kept transaction hmem).seen settings hsett
  have hstrd : watched.store.settings = some settings := by
    rcases hsame with hsame | ⟨_, hinitial⟩
    · exact hsame
    · rw [hinitial] at hon
      cases hon
  have hnone := horderly.none_counting htx hhld hquiet
  have hcnts : next.counting = true := by
    unfold Transaction.counting
    rw [hnext, hwritten]
    simp [hfail]
  have hin : next ∈ Table.updateWhere (·.id = id) (fun _ => next) watched.store.running :=
    Table.updated_mem hmem (by simpa using hid)
  -- no other transaction counts, so the row says how many there were
  have hlng : watched.failures.length = settings.failedAttempts := by
    have hcounted := h.counted
    rw [hnone] at hcounted
    simpa [failedAttempts, hstrd] using hcounted
  refine ⟨?_, h.spaced.failed (h.locks hnone settings hstrd) hopen, ?_, ?_⟩
  · have hany : (Table.updateWhere (·.id = id) (fun _ => next) watched.store.running).any (·.counting) = true :=
      List.any_eq_true.mpr ⟨next, hin, hcnts⟩
    simp only [hany, if_true, length_cons, failedAttempts, hstrd, map_some, getD_some, hlng]
  · intro hfalse
    rw [List.any_eq_false] at hfalse
    exact absurd hcnts (hfalse next hin)
  · intro other hoth hcnts' written' hwritten'
    have hoth' : other = next := by
      rcases advanced_cases hoth with ⟨hold, _⟩ | heq
      · rw [List.any_eq_false] at hnone
        exact absurd hcnts' (hnone other hold)
      · exact heq
    subst hoth'
    rw [hwritten] at hwritten'
    cases hwritten'
    intro hmany
    have hnum : written.failedAttempts = (ambient.now :: watched.failures).length := by
      rw [hfail, length_cons, hlng]
    refine ⟨ambient.now, rfl, ?_⟩
    rw [← hnum]
    refine hlocks ?_
    rw [hnum]
    have hpos : 0 < 30 * second := by decide
    exact lt_of_lt_of_le hpos (thirty_le_passwordLockDuration hmany)

/-- A commit counts what was under way, or puts the counter back. -/
theorem Tallied.committed (h : Tallied watched)
    (horderly : Orderly service watched.store) (htx : watched.store.transaction id = some transaction)
    (hrng : store'.running = watched.store.running.filter (·.id ≠ id))
    (hsett : store'.settings = transaction.writes.settings.or watched.store.settings)
    (hfailu : failures = if store'.failedAttempts < watched.store.failedAttempts then [] else watched.failures) :
    Tallied ⟨store', failures⟩ := by
  obtain ⟨hmem, hid⟩ := transaction_mem htx
  have hkept := horderly.kept transaction hmem
  cases hwritten : transaction.writes.settings with
  | none =>
    rw [hwritten, none_or] at hsett
    rw [failedAttempts_congr hsett, if_neg (lt_irrefl _)] at hfailu
    rw [hfailu]
    have hquiet : transaction.counting = false := by
      unfold Transaction.counting
      rw [hwritten]
      cases transaction.settings <;> rfl
    refine h.kept hsett fun other hcnts => ?_
    rw [hrng]
    refine horderly.mem_dropped (fun found hfind => ?_) hcnts
    cases htx.symm.trans hfind
    exact hquiet
  | some written =>
    rw [hwritten, some_or] at hsett
    obtain ⟨read, hread, hwrote⟩ := hkept.wrote written hwritten
    obtain ⟨hhld, hsame⟩ := hkept.seen read hread
    -- Who commits settings holds them, and nobody else counts.
    have hnone : store'.running.any (·.counting) = false := by
      rw [hrng]
      exact horderly.none_dropped htx hhld
    have haft : store'.failedAttempts = written.failedAttempts := by
      unfold failedAttempts
      rw [hsett]
      rfl
    have hpend : ∀ other ∈ store'.running, other.counting = true → ∀ settings, other.writes.settings = some settings →
        Locks failures settings := by
      intro other hoth hcnts
      rw [List.any_eq_false] at hnone
      exact absurd hcnts (hnone other hoth)
    have hcommitted : ∀ settings, store'.settings = some settings → settings = written := by
      intro settings hsome
      rw [hsett] at hsome
      exact (some.inj hsome).symm
    by_cases hcnts : transaction.counting = true
    · obtain ⟨_, read', written', hstrd, hread', hwritten', _, hfail⟩ := hkept.counting hcnts
      rw [hwritten] at hwritten'
      cases hwritten'
      have hbef : watched.store.failedAttempts = read'.failedAttempts := by
        unfold failedAttempts
        rw [hstrd]
        rfl
      rw [if_neg (by omega)] at hfailu
      subst hfailu
      have hany : watched.store.running.any (·.counting) = true := List.any_eq_true.mpr ⟨transaction, hmem, hcnts⟩
      have hcounted := h.counted
      rw [hany, if_pos rfl] at hcounted
      refine ⟨?_, h.spaced, ?_, hpend⟩
      · dsimp only
        rw [hnone, haft, hcounted, hbef, hfail]
        simp
      · intro _ settings hsome
        rw [hcommitted settings hsome]
        exact h.pending transaction hmem hcnts written hwritten
    · rw [not_eq_true] at hcnts
      have hzero : written.failedAttempts = 0 := by
        cases hwrote with
        | counted now _ _ _ hfail =>
          unfold Transaction.counting at hcnts
          rw [hread, hwritten] at hcnts
          simp [hfail] at hcnts
        | cleared hzero => exact hzero
      have hemp : failures = [] := by
        rw [hfailu, haft, hzero]
        split
        · rfl
        rename_i hnot
        have hcounted := h.counted
        rw [horderly.none_counting htx hhld hcnts] at hcounted
        have hlng : watched.failures.length = 0 := by
          simp at hcounted
          omega
        exact length_eq_zero_iff.mp hlng
      subst hemp
      refine ⟨?_, trivial, ?_, hpend⟩
      · dsimp only
        rw [hnone, haft, hzero]
        rfl
      · intro _ settings _ hmany
        simp at hmany

theorem Tallied.step (h : Tallied watched) (horderly : Orderly service watched.store)
    (hcareful : Careful service watched.store action) (hstep : watched.step service action = some watched') : Tallied watched' := by
  obtain ⟨hstore, hfailu⟩ := watched_step hstep
  obtain ⟨store', failures⟩ := watched'
  dsimp only at hstore hfailu
  -- While the settings stand, no failure is forgotten.
  have hlonger : store'.settings = watched.store.settings →
      failures = (failure service watched.store action).toList ++ watched.failures := by
    intro hsett
    rw [hfailu, failedAttempts_congr hsett, if_neg (lt_irrefl _)]
  cases step_moves hstore with
  | same _ _ hnone _ hrng hsett =>
    obtain rfl := hlonger hsett
    rw [hnone]
    refine h.kept hsett fun transaction _ => ?_
    rw [hrng]
  | begun =>
    obtain rfl := hlonger rfl
    refine h.kept rfl fun transaction hcnts => ?_
    rw [mem_cons]
    refine ⟨fun hin => hin.resolve_left ?_, .inr⟩
    rintro rfl
    cases hcnts
  | gone id ambient transaction next htx hgoes =>
    obtain ⟨hmem, hid⟩ := transaction_mem htx
    have hkept := horderly.kept transaction hmem
    have hquiet := hkept.statement_not_counting (by rw [hgoes]; exact nofun)
    have hfailure := hlonger rfl
    rw [failure_advance htx] at hfailure
    rcases statement_compared hkept hgoes with
      ⟨hwrong, settings, written, hread, hnext, hon, hopen, hwritten, hfail, hlocks⟩ | ⟨hright, hcnts⟩
    · rw [if_pos hwrong] at hfailure
      subst hfailure
      exact h.failed horderly htx (statement_goes hkept hgoes) hquiet hread hnext hon hopen hwritten hfail hlocks
    · rw [if_neg hright] at hfailure
      subst hfailure
      refine h.kept rfl fun other hcnts' => ⟨fun hin => ?_, fun hold => ?_⟩
      · rcases advanced_cases hin with ⟨hold, _⟩ | rfl
        · exact hold
        · rw [hcnts] at hcnts'
          cases hcnts'
      · refine unmatched_mem hold fun hsameId => ?_
        rw [horderly.same_id htx hold (by simpa using hsameId), hquiet] at hcnts'
        cases hcnts'
  | ended id ambient transaction answer htx hends =>
    obtain ⟨hmem, hid⟩ := transaction_mem htx
    have hquiet := (horderly.kept transaction hmem).statement_not_counting (by rw [hends]; exact nofun)
    have hright : transaction.comparison service watched.store.sessions ambient.now ≠ some false := by
      by_cases hcall : ∃ idToken enabled newPassword currentPassword,
          transaction.call = .configure idToken enabled newPassword currentPassword
      · obtain ⟨idToken, enabled, newPassword, currentPassword, hcall⟩ := hcall
        rcases hcareful transaction idToken enabled newPassword currentPassword htx hcall with hnone | ⟨htrue, _⟩
        · rw [hnone]
          simp
        · rw [htrue]
          simp
      · rw [statement_ends (fun idToken enabled newPassword currentPassword heq =>
          hcall ⟨idToken, enabled, newPassword, currentPassword, heq⟩) hends]
        simp
    have hfailure := hlonger rfl
    rw [failure_advance htx, if_neg hright] at hfailure
    subst hfailure
    refine h.kept rfl fun other => horderly.mem_dropped fun found hfind => ?_
    cases htx.symm.trans hfind
    exact hquiet
  | committed id transaction _ htx hrng hsett =>
    exact h.committed horderly htx hrng hsett hfailu
  | aborted id =>
    obtain rfl := hlonger rfl
    exact h.kept rfl fun other => horderly.mem_dropped hcareful

/-! ## A step compares under guard -/

theorem Orderly.guards (h : Orderly service store) (hcareful : Careful service store action)
    (hstep : TradeAuth.step service store action = some store') : Guards service store action store' where
  unlocked := by
    rintro id ambient transaction rfl htx hsome
    obtain ⟨hmem, hid⟩ := transaction_mem htx
    cases hcall : transaction.call with
    | authorize =>
      obtain ⟨settings, hsett, hon, hopen⟩ := comparison_open hcall hsome
      rcases ((h.kept transaction hmem).seen settings hsett).2 with hstrd | ⟨_, hinitial⟩
      · unfold lockedAt
        rw [hstrd]
        exact hopen
      · rw [hinitial] at hon
        cases hon
    | configure idToken enabled newPassword currentPassword =>
      rcases hcareful transaction idToken enabled newPassword currentPassword htx hcall with hnone | ⟨_, hopen⟩
      · rw [hnone] at hsome
        cases hsome
      · exact hopen
    | lock | confirmPasswordRecovery =>
      rw [comparison_of_call (by rw [hcall]; rfl)] at hsome
      cases hsome
  proven := by
    intro hlowered
    have hchgd : store'.settings ≠ store.settings := by
      intro hsame
      rw [failedAttempts_congr hsame] at hlowered
      exact absurd hlowered (lt_irrefl _)
    cases step_moves hstep with
    | same _ _ _ _ _ hsett => exact absurd hsett hchgd
    | begun | gone | ended | aborted => exact absurd rfl hchgd
    | committed id transaction _ htx _ hsett =>
      have hkept := h.kept transaction (transaction_mem htx).1
      cases hwritten : transaction.writes.settings with
      | none =>
        rw [hwritten, none_or] at hsett
        exact absurd hsett hchgd
      | some written =>
        rw [hwritten, some_or] at hsett
        obtain ⟨read, hread, hwrote⟩ := hkept.wrote written hwritten
        unfold failedAttempts at hlowered
        rw [hsett] at hlowered
        rcases (hkept.seen read hread).2 with hstrd | ⟨hunset, _⟩
        · rw [hstrd] at hlowered
          refine ⟨id, transaction, read, rfl, htx, hstrd, ?_⟩
          cases hwrote with
          | counted =>
            simp only [map_some, getD_some] at hlowered
            omega
          | cleared _ _ hproof =>
            rcases hproof with hoff | hproven
            · simp only [map_some, getD_some, (h.disabled read hstrd hoff).1] at hlowered
              omega
            · exact hproven
        · rw [hunset] at hlowered
          simp at hlowered

theorem careful_of_bounded (horderly : Orderly service watched.store)
    (hbef : Bounded watched) (hstep : watched.step service action = some watched') (haft : Bounded watched')
    (hguards : Guards service watched.store action watched'.store) : Careful service watched.store action := by
  obtain ⟨hstore, hfailu⟩ := watched_step hstep
  obtain ⟨store', failures⟩ := watched'
  dsimp only at hstore hfailu hguards
  have hcounted := haft.counted
  have hcountedBefore := hbef.counted
  dsimp only at hcounted
  have hlonger : store'.settings = watched.store.settings →
      failures.length = (failure service watched.store action).toList.length + watched.failures.length := by
    intro hsett
    rw [hfailu, failedAttempts_congr hsett, if_neg (lt_irrefl _), length_append]
  cases action with
  | advance id ambient =>
    intro transaction idToken enabled newPassword currentPassword htx hcall
    obtain ⟨hmem, hid⟩ := transaction_mem htx
    have hkept := horderly.kept transaction hmem
    cases hcompare : transaction.comparison service watched.store.sessions ambient.now with
    | none => exact .inl rfl
    | some right =>
      have hopen := hguards.unlocked id ambient transaction rfl htx (by rw [hcompare]; rfl)
      cases right with
      | true => exact .inr ⟨rfl, hopen⟩
      | false =>
        -- A wrong guess that no statement counts would take the tally past the settings' own.
        exfalso
        cases step_moves hstore with
        | same _ _ hnone =>
          rw [failure_advance htx, if_pos hcompare] at hnone
          cases hnone
        | gone _ _ transaction' next htx' hgoes =>
          rw [htx] at htx'
          cases htx'
          rcases statement_compared hkept hgoes with
            ⟨_, settings, written, _, hnext, _, _, hwritten, hfail, _⟩ | ⟨hright, _⟩
          · have hquiet := (statement_goes hkept hgoes).not_counting (by rw [hcall]; rfl)
            unfold Transaction.counting at hquiet
            rw [hnext, hwritten] at hquiet
            simp [hfail] at hquiet
          · exact hright hcompare
        | ended _ _ transaction' answer htx' hends =>
          rw [htx] at htx'
          cases htx'
          have hquiet := hkept.statement_not_counting (by rw [hends]; exact Outcome.noConfusion)
          have hany : (watched.store.over id answer).running.any (·.counting) = watched.store.running.any (·.counting) := by
            refine any_counting fun other => horderly.mem_dropped fun found hfind => ?_
            cases htx.symm.trans hfind
            exact hquiet
          have hmore := hlonger rfl
          rw [failure_advance htx, if_pos hcompare] at hmore
          have hsame : (watched.store.over id answer).failedAttempts = watched.store.failedAttempts := rfl
          rw [hany, hsame] at hcounted
          simp only [toList_some, length_singleton] at hmore
          omega
  | abort id =>
    intro transaction htx
    by_contra hcnts
    rw [not_eq_false] at hcnts
    obtain ⟨hmem, hid⟩ := transaction_mem htx
    have hhld := ((horderly.kept transaction hmem).counting hcnts).1
    cases hstore
    have hmore := hlonger rfl
    have hany : watched.store.running.any (·.counting) = true := List.any_eq_true.mpr ⟨transaction, hmem, hcnts⟩
    have hnone := horderly.none_dropped htx hhld
    have hsame : ({ watched.store with running := watched.store.running.filter (·.id ≠ id) } : Store).failedAttempts
      = watched.store.failedAttempts := rfl
    rw [hnone, hsame, if_neg Bool.false_ne_true] at hcounted
    rw [hany, if_pos rfl] at hcountedBefore
    simp only [failure, toList_none, length_nil] at hmore
    omega
  | _ => trivial

/-! ## Runs -/

/-- Nothing running, and a counter that has been put back. -/
structure Fresh (store : Store) : Prop where
  running : store.running = []
  unlocked : ∀ settings, store.settings = some settings → settings.failedAttempts = 0 ∧ settings.lockedUntil = none

theorem Fresh.orderly (h : Fresh store) : Orderly service store where
  ids := by
    rw [h.running]
    exact nodup_nil
  holder := by
    rw [h.running]
    intro first hfs
    cases hfs
  kept := by
    rw [h.running]
    intro transaction hmem
    cases hmem
  disabled := fun settings hsett _ => h.unlocked settings hsett

theorem Fresh.tallied (h : Fresh store) : Tallied ⟨store, []⟩ where
  counted := by
    have hzero : store.failedAttempts = 0 := by
      unfold failedAttempts
      cases hsett : store.settings with
      | none => rfl
      | some settings => exact (h.unlocked settings hsett).1
    simp [h.running, hzero]
  spaced := trivial
  locks := by
    intro _ settings _ hmany
    simp at hmany
  pending := by
    intro transaction hmem
    rw [h.running] at hmem
    cases hmem

/-- **Guessing is bounded exactly in the runs whose configurations compare with care** and whose wrong
comparisons are not given up. -/
theorem guessing_bounded_iff {start : Store} {watched : Watched} {log : List (Move Watched Action)} (hstart : Fresh start)
    (hrun : Records (Watched.step service) always moves ⟨start, []⟩ watched log) :
    (∀ entry ∈ log, Careful service entry.before.store entry.action) ↔
    ∀ entry ∈ log, Bounded entry.after ∧ Guards service entry.before.store entry.action entry.after.store := by
  refine hrun.all_iff (fun before action => Careful service before.store action)
    (fun before action after => Bounded after ∧ Guards service before.store action after.store)
    (fun watched => Orderly service watched.store ∧ Tallied watched) ⟨hstart.orderly, hstart.tallied⟩ ?_ ?_
  · intro before action after ⟨horderly, htallied⟩ _ hstep hcareful
    have haft := htallied.step horderly hcareful hstep
    have hstore := (watched_step hstep).1
    exact ⟨⟨horderly.step hstore, haft⟩, haft.bounded, horderly.guards hcareful hstore⟩
  · intro before action after ⟨horderly, htallied⟩ _ hstep ⟨haft, hguards⟩
    exact careful_of_bounded horderly htallied.bounded hstep haft hguards

/-- `Careful`, as it is computed. -/
def isCareful (service : Service) (store : Store) : Action → Bool
  | .advance id ambient => (store.transaction id).all fun transaction =>
      transaction.call.authorizes || (transaction.comparison service store.sessions ambient.now).all (· && !store.lockedAt ambient.now)
  | .abort id => (store.transaction id).all (!·.counting)
  | _ => true

theorem careful_of_isCareful (store : Store) (action : Action) (h : isCareful service store action = true) :
    Careful service store action := by
  cases action with
  | advance id ambient =>
    intro transaction idToken enabled newPassword currentPassword htx hcall
    simp only [isCareful, htx, all_some, hcall, Call.authorizes, Bool.false_or] at h
    cases hcompare : transaction.comparison service store.sessions ambient.now with
    | none => exact .inl rfl
    | some =>
      rw [hcompare, all_some, Bool.and_eq_true, Bool.not_eq_true'] at h
      exact .inr ⟨by rw [h.1], h.2⟩
  | abort =>
    intro transaction htx
    simpa [isCareful, htx] using h
  | _ => trivial

def protectedSettings : Settings := ⟨true, some "hash", 0, none⟩

theorem fresh_protected : Fresh (emptyStore (some protectedSettings)) where
  running := rfl
  unlocked := by
    intro settings hsett
    cases hsett
    exact ⟨rfl, rfl⟩

/-- A wrong password in a call that authorizes. -/
def wrongAuthorize (id : Nat) (now : Int) : List Action :=
  [.beginCall id (.authorize "session" "command" "\x7b\"command\":1\x7d" "guess" ""), .advance id { zeroAmbient with now },
    .advance id { zeroAmbient with now }, .commit id]

/-- Five wrong passwords at once, and a sixth half a minute later. -/
def sixGuesses : List Action :=
  [1, 2, 3, 4, 5].flatMap (wrongAuthorize · 0) ++ wrongAuthorize 6 (30 * second)

theorem guessing_bounded_sixGuesses : ∃ watched log,
    Records (Watched.step zeroService) always moves ⟨emptyStore (some protectedSettings), []⟩ watched log ∧
    watched.failures = [30 * second, 0, 0, 0, 0, 0] ∧
    ∀ entry ∈ log, Bounded entry.after ∧ Guards zeroService entry.before.store entry.action entry.after.store := by
  have hsome : ((execRecords (Watched.step zeroService) (fun _ _ => true) moves ⟨emptyStore (some protectedSettings), []⟩ []
      sixGuesses).map fun final => (final.1.failures, final.2.all fun entry => isCareful zeroService entry.before.store entry.action))
      = some ([30 * second, 0, 0, 0, 0, 0], true) := by
    decide +kernel
  obtain ⟨⟨watched, log⟩, hexec, hlog⟩ := map_eq_some_iff.mp hsome
  obtain ⟨hfailu, hcareful⟩ := Prod.mk.inj hlog
  have hrun := records_exec hexec
  refine ⟨watched, log, hrun, hfailu, (guessing_bounded_iff fresh_protected hrun).mp fun entry hent => ?_⟩
  exact careful_of_isCareful _ _ (all_eq_true.mp hcareful entry hent)

/-- A wrong current password in a call that would disable the protection. -/
def wrongConfigure (id : Nat) (now : Int) : List Action :=
  [.beginCall id (.configure "identity" false "" "guess"), .advance id { zeroAmbient with now }, .advance id { zeroAmbient with now },
    .advance id { zeroAmbient with now }]

/-- **Configurations guess as often as they like**, also while the password is locked. -/
theorem configure_guesses : ∃ watched,
    Reaches (Watched.step zeroService) always ⟨emptyStore (some protectedSettings), []⟩ watched ∧
    watched.failures = List.replicate 12 0 ∧ watched.store.failedAttempts = 5 ∧ watched.store.lockedAt 0 = true ∧
    ¬ Bounded watched := by
  have hsome : ((exec (Watched.step zeroService) (fun _ _ => true) ⟨emptyStore (some protectedSettings), []⟩
      ([1, 2, 3, 4, 5].flatMap (wrongAuthorize · 0) ++ [1, 2, 3, 4, 5, 6, 7].flatMap (wrongConfigure · 0))).map fun watched =>
        (watched.failures, watched.store.failedAttempts, watched.store.lockedAt 0, watched.store.running))
      = some (replicate 12 0, 5, true, []) := by
    decide +kernel
  obtain ⟨watched, hrch, hview⟩ := reached_of_map hsome
  simp only [Prod.mk.injEq] at hview
  obtain ⟨hfailu, hfail, hlkd, hrng⟩ := hview
  refine ⟨watched, hrch, hfailu, hfail, hlkd, ?_⟩
  intro hbdd
  have hcounted := hbdd.counted
  rw [hfailu, hfail, hrng] at hcounted
  simp at hcounted

end MarketLens.TradeAuth
