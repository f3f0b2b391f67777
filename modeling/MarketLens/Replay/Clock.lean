import MarketLens.Replay.Sessions

/-!
# The clock of a session

Every track shows the last row that has opened by the simulated time, and a step
moves neither the time nor a cursor back. Both need the clock to be within the end
of the session when a step is taken: a step is clamped to that end, and a seek may
go beyond it.
-/

namespace MarketLens.Replay

open List Journal Runs

/-- Every track of the session stands on the last row that has opened by the simulated time. -/
def Database.OnClock (db : Database) : Prop :=
  ∀ track ∈ db.tracks, track.OnClock db.session.simulatedTime

/-- A step that will run finds the clock no later than where stepping ends. -/
def WithinEnd (db : Database) (input : CommandInput) : Prop :=
  stepsNow db.session input.command = true →
    db.session.simulatedTime ≤ completionTime db.session db.tracks

instance (db : Database) (input : CommandInput) : Decidable (WithinEnd db input) :=
  inferInstanceAs (Decidable (_ = true → _ ≤ _))

/-- Neither the simulated time nor the cursor of a track has gone back. -/
structure NotBack (db db' : Database) : Prop where
  time : db.session.simulatedTime ≤ db'.session.simulatedTime
  cursors : List.Forall₂ (fun before after : Track => after.id = before.id ∧
    before.cursorSeq ≤ after.cursorSeq) db.tracks db'.tracks

/-! ## One step -/

section Step

variable {tracks : List Track} {selected : List Bar} {session : Session} {count : Nat}
  {target : Int}

section Target

variable (h : resolveReplayStepTarget tracks (stepTarget session tracks count) (completionTime session tracks)
  = .ok (selected, target))
include h

/-- From a clock within the end, a step goes forward. -/
theorem step_forward (hend : session.simulatedTime ≤ completionTime session tracks) : session.simulatedTime ≤ target := by
  have hplain : session.simulatedTime ≤ stepTarget session tracks count := by
    unfold stepTarget
    have hspan : (0 : Int) ≤ session.replayIntervalSeconds * count * second := by
      unfold second
      positivity
    omega
  rcases (resolveReplayStepTarget_ok h).2 with hreached | ⟨hgap, -⟩
  · rw [hreached]
    exact hplain
  · omega

/-- From a clock beyond the end, a step goes back to the end. -/
theorem step_back (hend : completionTime session tracks < session.simulatedTime) : target < session.simulatedTime := by
  have hclamped : stepTarget session tracks count ≤ completionTime session tracks := by
    exact Int.min_le_right _ _
  rcases (resolveReplayStepTarget_ok h).2 with hreached | ⟨-, hreached⟩ <;> omega

end Target

theorem onClock_step {time : Int} {track shown : Track} {bar : Bar} (hclock : track.OnClock time)
    (htime : time ≤ target) (hsel : track.dataset.LastRowAt target bar)
    (hsame : track.SameTrack shown) (hcsr : shown.cursorSeq = max track.cursorSeq bar.seq) :
    shown.OnClock target := by
  obtain ⟨row, hrow, hseq⟩ := hclock
  -- the row it shows has opened by the later time too, so the selected one is no earlier
  have hopened := hrow.opened
  have hlast := hsel.last row hrow.mem (by omega)
  refine ⟨bar, ?_, ?_⟩
  · rw [hsame.dataset]
    exact hsel
  · omega

theorem stepped_onClock {shown : List Track} {time : Int} (htime : time ≤ target)
    (hsel : Forall₂ (fun track bar => track.dataset.LastRowAt target bar) tracks selected)
    (hclock : ∀ track ∈ tracks, track.OnClock time)
    (h : Forall₂ (fun next shown => Track.SameTrack next.1 shown ∧ shown.cursorSeq = max next.1.cursorSeq next.2.seq ∧
        (next.2.seq ≤ next.1.cursorSeq → shown = next.1)) (tracks.zip selected) shown) :
    ∀ track ∈ shown, track.OnClock target := by
  intro track htrk
  obtain ⟨⟨before, bar⟩, hpair, hsame, hcsr, -⟩ := forall₂_mem_right h htrk
  have hbar := forall₂_zip hsel hpair
  exact onClock_step (hclock before (of_mem_zip hpair).1) htime hbar hsame hcsr

theorem arrived_time (session : Session) (target completion : Int) :
    (session.arrived target completion).simulatedTime = target := by
  unfold Session.arrived
  split <;> rfl

end Step

/-! ## One command -/

section Command

variable {db db' : Database} {input : CommandInput} {result : CommandResult} {claimed : Session}
  {moved : Moved} {response : Response}

theorem Committed.onClock (hend : WithinEnd db input) (hclock : db.OnClock)
    (h : Committed db input result db' claimed moved) : db'.OnClock := by
  obtain ⟨lease, rfl⟩ := h.claim
  unfold Database.OnClock
  rw [h.time, h.tracks]
  cases hchgd : moved.changed with
  | false =>
    rw [(h.unchanged hchgd).1]
    exact hclock
  | true =>
    cases h.moves with
    | kept _ _ sameTracks _ sameTime =>
      rw [sameTracks, sameTime]
      exact hclock
    | stepped count batch selected target revealed steps resolved reveals shown arrives =>
      rw [arrives, arrived_time, shown]
      exact stepped_onClock (step_forward resolved (hend steps))
        (resolveReplayStepTarget_ok resolved).1 hclock (revealed_tracks reveals)
    | sought _ _ _ _ _ _ onClock => exact onClock
    | traded _ _ _ _ _ _ _ sameTracks sameSession =>
      rw [sameTracks, sameSession]
      exact hclock

theorem Unmoved.notBack (h : Unmoved db db') : NotBack db db' := by
  constructor
  · rw [h.session]
  · rw [h.tracks, forall₂_same]
    exact fun _ _ => ⟨rfl, Nat.le_refl _⟩

/-- A step that is taken goes back exactly when the clock is beyond the end. -/
theorem Committed.notBack_iff (hstep : input.command.isStep = true)
    (h : Committed db input result db' claimed moved) : NotBack db db' ↔ WithinEnd db input := by
  obtain ⟨lease, rfl⟩ := h.claim
  have hunmoved : Forall₂ (fun before after : Track => after.id = before.id ∧
      before.cursorSeq ≤ after.cursorSeq) db.tracks db.tracks := by
    rw [forall₂_same]
    exact fun _ _ => ⟨rfl, Nat.le_refl _⟩
  cases h.moves with
  | kept notStep _ sameTracks _ sameTime =>
    refine iff_of_true ⟨by rw [h.time, sameTime], ?_⟩ fun hsteps => ?_
    · rw [h.tracks, sameTracks, ite_self]
      exact hunmoved
    · have hsteps : stepsNow { db.session with lease := lease } input.command = true := hsteps
      rw [notStep] at hsteps
      cases hsteps
  | stepped count batch selected target revealed steps resolved reveals shown arrives =>
    have htime : db'.session.simulatedTime = target := by rw [h.time, arrives, arrived_time]
    constructor
    · intro hback hsteps
      -- a step that runs from beyond the end ends before it started
      by_contra hbeyond
      have hback := hback.time
      have hlt : target < db.session.simulatedTime := step_back resolved (Int.not_le.mp hbeyond)
      omega
    · refine fun hend => ⟨htime ▸ step_forward resolved (hend steps), ?_⟩
      rw [h.tracks]
      split
      · rw [shown]
        have hlen := (resolveReplayStepTarget_ok resolved).1.length_eq
        exact (stepped_forall₂ hlen (revealed_tracks reveals)).imp fun _ _ hmvd => ⟨hmvd.1.id, hmvd.2⟩
      · exact hunmoved
  | sought _ _ _ seeks =>
    rw [seekTarget_notStep seeks] at hstep
    cases hstep
  | traded _ _ trades =>
    rw [isTrade_notStep trades] at hstep
    cases hstep

theorem command_onClock (hids : (db.tracks.map (·.id)).Nodup) (hend : WithinEnd db input)
    (hclock : db.OnClock) (h : db.command input = some db') : db'.OnClock := by
  obtain ⟨response, hcs⟩ := commanded_of_command hids h
  cases hcs with
  | unmoved _ same =>
    unfold Database.OnClock
    rw [same.tracks, same.session]
    exact hclock
  | committed _ _ commits => exact commits.onClock hend hclock

end Command

/-! ## Runs -/

section Runs

variable {start db : Database}

theorem prepared_onClock (h : Prepared start) : start.OnClock := by
  intro track htrk
  rw [h.atStart]
  exact h.placed track htrk

/--
**In every run that steps only from within the end, the clock and the cursors agree,
and a step never moves back; a step from beyond the end always does.**
-/
theorem clock_never_back (hprepared : Prepared start) (hrun : Reaches Database.command WithinEnd start db) :
    db.OnClock ∧ ∀ input, input.command.isStep = true → (WithinEnd db input → NotBack db (applyCommand db input).2) ∧
      ((applyCommand db input).1.applied = true → NotBack db (applyCommand db input).2 → WithinEnd db input) := by
  have hids := reaches_distinct hprepared hrun
  have hclock : (db.tracks.map (·.id)).Nodup ∧ db.OnClock := by
    refine hrun.invariant (fun db => (db.tracks.map (·.id)).Nodup ∧ db.OnClock)
      ⟨hprepared.distinct, prepared_onClock hprepared⟩ ?_
    intro db input db' ⟨hids, hclock⟩ hend hstep
    exact ⟨command_distinct hids hstep, command_onClock hids hend hclock hstep⟩
  refine ⟨hclock.2, fun input hstep => ?_⟩
  have hcs := applyCommand_cases hids input
  generalize (applyCommand db input).1 = response at hcs ⊢
  cases hcs with
  | unmoved notApplied same =>
    refine ⟨fun _ => same.notBack, fun happlied => ?_⟩
    rw [notApplied] at happlied
    cases happlied
  | committed _ _ commits =>
    exact ⟨fun hend => (commits.notBack_iff hstep).mpr hend, fun _ hback => (commits.notBack_iff hstep).mp hback⟩

end Runs

/-! ## A seek beyond the end -/

/-- Three minutes of one track, in a session that ends at the second of them. -/
def threeMinutes (endTime : Option Int) : Database :=
  minuteSession [minuteTrack 0 [1, 1, 1] (by decide)] endTime (.disabled id)

theorem threeMinutes_prepared (endTime : Option Int) : Prepared (threeMinutes endTime) := by
  refine minuteSession_prepared (by decide) (by decide) ?_ (.inr ⟨id, rfl⟩)
  intro track htrk
  rw [mem_singleton.mp htrk]
  exact minuteTrack_onClock _ _ _

def stepCommand (key : String) : CommandInput := clientCommand key (.step (some 1))

/-- Two steps through a session without an end time. -/
theorem two_steps_forward : ∃ db, Reaches Database.command WithinEnd (threeMinutes none) db ∧
    db.session.simulatedTime = 60 * second ∧ db.OnClock ∧
    NotBack db (applyCommand db (stepCommand "second")).2 := by
  have hrun : ((exec Database.command (fun db input => decide (WithinEnd db input))
      (threeMinutes none) [stepCommand "first"]).map fun db =>
        decide (db.session.simulatedTime = 60 * second)
          && decide (WithinEnd db (stepCommand "second"))) = some true := by decide +kernel
  obtain ⟨db, hexec, htest⟩ := Option.map_eq_some_iff.mp hrun
  rw [Bool.and_eq_true, decide_eq_true_eq, decide_eq_true_eq] at htest
  have hrch : Reaches Database.command WithinEnd (threeMinutes none) db :=
    reaches_of_exec (fun _ _ h => of_decide_eq_true h) hexec
  obtain ⟨hclock, hsteps⟩ := clock_never_back (threeMinutes_prepared none) hrch
  exact ⟨db, hrch, htest.1, hclock, (hsteps (stepCommand "second") rfl).1 htest.2⟩

/-- A seek to the third minute, past the end of the session, and a step from there: the clock goes
back to the end while the cursor stays on the third minute. -/
theorem step_past_end_goes_back :
    ¬ ∀ start db, Prepared start → Reaches Database.command always start db → db.OnClock ∧
      ∀ input, input.command.isStep = true → NotBack db (applyCommand db input).2 := by
  intro h
  have hrun : ((exec Database.command (fun _ _ => true) (threeMinutes (some (60 * second)))
      [clientCommand "seek" (.seek (some (some (120 * second), false)))]).map fun db =>
        decide ((applyCommand db (stepCommand "first")).2.session.simulatedTime
          < db.session.simulatedTime)) = some true := by decide +kernel
  obtain ⟨db, hrch, htest⟩ := reached_of_map hrun
  have hback := of_decide_eq_true htest
  have hforward := (h _ db (threeMinutes_prepared _) hrch).2 (stepCommand "first") rfl
  exact absurd hforward.time (Int.not_le.mpr hback)

end MarketLens.Replay
