import MarketLens.Replay.Runtime

/-!
# What a transition can do

One inversion for both the transition of one track and the synchronized ones: a
command keeps the clock and the ledger, or steps the tracks, or moves them by a
seek, or trades. Later proofs split on `Moves` and never open a transition again.
-/

namespace MarketLens.Replay

open Journal List Except Fallible

/-! ## Drafts that say nothing about trading -/

def tradeDrafts (drafts : List EventDraft) : List EventDraft := drafts.filter EventDraft.isTrade

@[simp] theorem tradeDrafts_nil : tradeDrafts [] = [] := rfl

@[simp] theorem tradeDrafts_append (first second : List EventDraft) :
    tradeDrafts (first ++ second) = tradeDrafts first ++ tradeDrafts second :=
  filter_append first second

variable {drafts : List EventDraft}

theorem tradeChangedInDrafts_eq_false : tradeChangedInDrafts drafts = false ↔ tradeDrafts drafts = [] := by
  unfold tradeChangedInDrafts tradeDrafts
  rw [any_eq_false, filter_eq_nil_iff]

theorem tradeDrafts_replayBarDrafts (trackId : Uuid) (bars : List ReplayBar) (batch : Bool) :
    tradeDrafts (replayBarDrafts trackId bars batch) = [] := by
  unfold replayBarDrafts tradeDrafts
  split
  · rfl
  rw [filter_eq_nil_iff]
  intro draft hdraft
  obtain ⟨bar, -, rfl⟩ := mem_map.mp hdraft
  exact Bool.false_ne_true

theorem tradeDrafts_ite {p : Prop} [Decidable p] {draft : EventDraft} (h : draft.isTrade = false) :
    tradeDrafts (if p then [draft] else []) = [] := by
  unfold tradeDrafts
  split
  · rw [filter_cons_of_neg (by rw [h]; exact Bool.false_ne_true), filter_nil]
  · rfl

/-! ## The parts of a track a step or a seek looks at -/

structure Track.SameTrack (before after : Track) : Prop where
  id : after.id = before.id
  symbol : after.symbol = before.symbol
  dataset : after.dataset = before.dataset

/-- The track stands on the last row that has opened by `time`. -/
def Track.OnClock (time : Int) (track : Track) : Prop :=
  ∃ bar, track.dataset.LastRowAt time bar ∧ bar.seq = track.cursorSeq

/-! ## Steps -/

variable {target : Int} {tracks : List Track} {selected : List Bar}

theorem selectAtTarget_ok (h : selectAtTarget target tracks = .ok selected) :
    List.Forall₂ (fun track bar => track.dataset.LastRowAt target bar) tracks selected := by
  induction tracks generalizing selected with
  | nil =>
    cases h
    exact .nil
  | cons track rest ih =>
    rw [selectAtTarget, bind_ok] at h
    obtain ⟨bar, hbar, h⟩ := h
    obtain ⟨bars, hbars, h⟩ := bind_ok.mp h
    cases h
    rw [require_ok] at hbar
    exact .cons (Dataset.barAtOrBefore_spec hbar) (ih hbars)

/-- A step ends at its target, or past an empty interval at the next row before the end. -/
theorem resolveReplayStepTarget_ok {target completion reached : Int}
    (h : resolveReplayStepTarget tracks target completion = .ok (selected, reached)) :
    List.Forall₂ (fun track bar => track.dataset.LastRowAt reached bar) tracks selected ∧
      (reached = target ∨ (target < reached ∧ reached ≤ completion)) := by
  unfold resolveReplayStepTarget at h
  obtain ⟨first, hfs, h⟩ := bind_ok.mp h
  split at h
  · cases h
    exact ⟨selectAtTarget_ok hfs, .inl rfl⟩
  · split at h
    · cases h
      exact ⟨selectAtTarget_ok hfs, .inl rfl⟩
    · rename_i next hnext
      obtain ⟨second, hsec, h⟩ := bind_ok.mp h
      cases h
      refine ⟨selectAtTarget_ok hsec, .inr ?_⟩
      -- the next row is one of those that open after the target and by the end
      have hmem := min?_mem hnext
      obtain ⟨track, -, hopening⟩ := mem_filterMap.mp hmem
      unfold Track.nextOpening at hopening
      split at hopening
      · cases hopening
      have hbounds := (Option.filter_eq_some_iff.mp hopening).2
      rw [Bool.and_eq_true, decide_eq_true_iff, decide_eq_true_iff] at hbounds
      exact hbounds

variable {useLedger batch : Bool} {revealed : Revealed}

theorem revealRows_ok {track : Track} {selected : Bar} {ledger : Ledger}
    (h : revealRows useLedger batch track selected ledger = .ok revealed) :
    (selected.seq ≤ track.cursorSeq ∧ revealed = ⟨track, ledger, [], []⟩) ∨
      (track.cursorSeq < selected.seq ∧ (∃ state, revealed.track = track.movedTo selected state) ∧
        tradeDrafts revealed.drafts = [] ∧
        tradeRows useLedger track selected ledger = .ok (revealed.trading, revealed.ledger)) := by
  unfold revealRows at h
  split at h
  · rename_i hle
    cases h
    exact .inl ⟨hle, rfl⟩
  · obtain ⟨state, -, h⟩ := bind_ok.mp h
    obtain ⟨⟨next, upserts⟩, -, h⟩ := bind_ok.mp h
    obtain ⟨⟨trading, after⟩, htrd, h⟩ := bind_ok.mp h
    cases h
    exact .inr ⟨by omega, ⟨next, rfl⟩, tradeDrafts_replayBarDrafts _ _ _, htrd⟩

theorem revealTrack_ok {ledger after : Ledger} {next : Track × Bar}
    {entries : List Revealed} (h : revealTrack useLedger batch ledger next = .ok (entries, after)) :
    ∃ revealed, entries = [revealed] ∧ after = revealed.ledger ∧
      revealRows useLedger batch next.1 next.2 ledger = .ok revealed := by
  unfold revealTrack at h
  obtain ⟨revealed, hrevl, h⟩ := bind_ok.mp h
  cases h
  exact ⟨revealed, rfl, rfl, hrevl⟩

theorem revealRows_track {track : Track} {selected : Bar} {ledger : Ledger}
    (h : revealRows useLedger batch track selected ledger = .ok revealed) :
    track.SameTrack revealed.track ∧ revealed.track.cursorSeq = max track.cursorSeq selected.seq := by
  rcases revealRows_ok h with ⟨hle, rfl⟩ | ⟨hlt, ⟨state, hmvd⟩, -, -⟩
  · exact ⟨⟨rfl, rfl, rfl⟩, by rw [Nat.max_eq_left hle]⟩
  · rw [hmvd]
    exact ⟨⟨rfl, rfl, rfl⟩, by rw [Nat.max_eq_right hlt.le]; rfl⟩

/-! ## What the rows of a step do -/

section Rows

variable {ledger after : Ledger} (Change : Ledger → List EventDraft → Ledger → Prop) (hrefl : ∀ now, Change now [] now)
  (htrans : ∀ now first next second last, Change now first next → Change next second last →
    Change now (first ++ second) last)

include hrefl htrans

/-- What a row may do to a ledger, with what it writes of it, the rows of a track may. -/
theorem processRows_change {trackId : Uuid} {symbol : String} {rows : List Bar}
    (hrow : ∀ now bar entries next, bar ∈ rows → Ledger.processRow trackId symbol now bar = .ok (entries, next) →
      Change now entries next)
    (h : ledger.processRows trackId symbol rows = .ok (drafts, after)) : Change ledger drafts after := by
  unfold Ledger.processRows at h
  split at h
  · exact collect_change Change hrefl htrans hrow h
  · cases h
    exact hrefl _

/-- **What the revealed rows may do to a ledger, a step may.** -/
theorem reveal_change {pairs : List (Track × Bar)} {revealed : List Revealed}
    (hrow : ∀ next ∈ pairs, ∀ now bar entries after, bar ∈ next.1.revealedBy next.2 →
      Ledger.processRow next.1.id next.1.symbol now bar = .ok (entries, after) → Change now entries after)
    (h : collect (revealTrack useLedger batch) ledger pairs = .ok (revealed, after)) :
    Change ledger (revealed.flatMap (·.trading)) after := by
  refine collect_change (fun now shown next => Change now (shown.flatMap (·.trading)) next) hrefl ?_ ?_ h
  · intro now first next second last hfs hsec
    rw [flatMap_append]
    exact htrans _ _ _ _ _ hfs hsec
  · intro now next entries after hnext hrnd
    obtain ⟨shown, rfl, rfl, hrows⟩ := revealTrack_ok hrnd
    rw [flatMap_singleton]
    rcases revealRows_ok hrows with ⟨-, rfl⟩ | ⟨-, -, -, htrd⟩
    · exact hrefl _
    · unfold tradeRows at htrd
      split at htrd
      · exact processRows_change Change hrefl htrans (hrow next hnext) htrd
      · obtain ⟨hnone, hldg⟩ := Prod.mk.inj (Except.ok.inj htrd)
        rw [← hnone, ← hldg]
        exact hrefl _

end Rows

/-- What every revealed row keeps, the step keeps. -/
theorem reveal_keeps (Inv : Ledger → Prop) {ledger after : Ledger} {pairs : List (Track × Bar)} {revealed : List Revealed}
    (hrow : ∀ next ∈ pairs, ∀ now bar entries after, bar ∈ next.1.revealedBy next.2 →
      Ledger.processRow next.1.id next.1.symbol now bar = .ok (entries, after) → Inv now → Inv after)
    (hreveal : collect (revealTrack useLedger batch) ledger pairs = .ok (revealed, after)) (h : Inv ledger) : Inv after :=
  reveal_change (fun now _ next => Inv now → Inv next) (fun _ => id) (fun _ _ _ _ _ hfs hsec hnow => hsec (hfs hnow)) hrow hreveal h

/-! ## Seeks -/

theorem seekTrack_ok {track moved : Track} (h : seekTrack target track = .ok moved) :
    track.SameTrack moved ∧ ∃ bar, track.dataset.LastRowAt target bar ∧
      moved.cursorSeq = bar.seq ∧ moved.visibleThrough = bar.openTime := by
  unfold seekTrack at h
  obtain ⟨-, h⟩ := unit_bind_ok.mp h
  obtain ⟨bar, hbar, h⟩ := bind_ok.mp h
  obtain ⟨rebuilt, -, h⟩ := bind_ok.mp h
  cases h
  rw [require_ok] at hbar
  exact ⟨⟨rfl, rfl, rfl⟩, bar, Dataset.barAtOrBefore_spec hbar, rfl, rfl⟩

theorem seekTracks_ok {tracks moved : List Track} (h : seekTracks target tracks = .ok moved) :
    List.Forall₂ (fun before after => seekTrack target before = .ok after) tracks moved := by
  induction tracks generalizing moved with
  | nil =>
    cases h
    exact .nil
  | cons track rest ih =>
    rw [seekTracks, bind_ok] at h
    obtain ⟨first, hfs, h⟩ := h
    obtain ⟨more, hmore, h⟩ := bind_ok.mp h
    cases h
    exact .cons hfs (ih hmore)

theorem seekTrack_onClock {track moved : Track} (h : seekTrack target track = .ok moved) : moved.OnClock target := by
  obtain ⟨hsame, bar, hlast, hseq, -⟩ := seekTrack_ok h
  unfold Track.OnClock
  rw [hsame.dataset, hseq]
  exact ⟨bar, hlast, rfl⟩

/-- The row a seek selects is also the last one opened by its own time. -/
theorem seekTrack_onVisible {track moved : Track} (h : seekTrack target track = .ok moved) :
    moved.OnClock moved.visibleThrough ∧ moved.visibleThrough ≤ target := by
  obtain ⟨hsame, bar, hlast, hseq, hvisible⟩ := seekTrack_ok h
  unfold Track.OnClock
  rw [hsame.dataset, hseq, hvisible]
  refine ⟨⟨bar, ⟨hlast.mem, Int.le_refl _, fun other hoth htime => ?_⟩, rfl⟩, hlast.opened⟩
  have := hlast.opened
  exact hlast.last other hoth (by omega)

/-! ## The inversion -/

def Command.isTrade : Command → Bool
  | .placeOrder _ | .cancelOrder _ | .closePosition _ | .updateOrder _ | .resetTrading => true
  | _ => false

def stepsNow (session : Session) : Command → Bool
  | .step _ => session.status = .paused
  | .clockStep _ => session.status = .playing
  | _ => false

/-- The columns of a session row that no transition writes. -/
def Session.fixed (session : Session) : Nat × Nat × Nat × Int × Option Int × Option Lease :=
  (session.generation, session.version, session.nextEventSeq, session.startTime, session.endTime,
    session.lease)

section Moves

variable (useLedger : Bool) (session : Session) (tracks : List Track) (ledger : Ledger)
  (command : Command) (moved : Moved)

/-- What a command that succeeds has done. -/
inductive Moves : Prop where
  /-- Neither the clock nor the ledger. -/
  | kept
      (notStep : stepsNow session command = false)
      (notTrade : command.isTrade = false)
      (sameTracks : moved.tracks = tracks)
      (sameLedger : moved.ledger = ledger)
      (sameTime : moved.session.simulatedTime = session.simulatedTime)
      (fixed : moved.session.fixed = session.fixed)
      (quiet : tradeDrafts moved.drafts = [])
  /-- A step: the rows selected at the time reached are revealed on every track. -/
  | stepped (count : Nat) (batch : Bool) (selected : List Bar) (target : Int)
      (revealed : List Revealed)
      (steps : stepsNow session command = true)
      (resolved : resolveReplayStepTarget tracks (stepTarget session tracks count)
        (completionTime session tracks) = .ok (selected, target))
      (reveals : Journal.collect (revealTrack useLedger batch) ledger (tracks.zip selected)
        = .ok (revealed, moved.ledger))
      (shown : moved.tracks = revealed.map (·.track))
      (arrives : moved.session = session.arrived target (completionTime session tracks))
      (drafted : tradeDrafts moved.drafts = tradeDrafts (revealed.flatMap (·.trading)))
      (counted : stepCount session command = .ok (some count))
  /-- A seek or restart. -/
  | sought (target : Int) (resetTrading : Bool) (resetDrafts : List EventDraft)
      (seeks : seekTarget session command = .ok (target, resetTrading))
      (rewinds : rewind useLedger session target resetTrading ledger = .ok (resetDrafts, moved.ledger))
      (placed : List.Forall₂ (fun before after => seekTrack target before = .ok after) tracks
        moved.tracks)
      (onClock : ∀ track ∈ moved.tracks, track.OnClock moved.session.simulatedTime)
      (notPast : moved.session.simulatedTime ≤ target)
      (fixed : moved.session.fixed = session.fixed)
      (drafted : tradeDrafts moved.drafts = tradeDrafts resetDrafts)
  /-- A trade command on one of the tracks. -/
  | traded (track : Track) (drafts : List EventDraft)
      (trades : command.isTrade = true)
      (hasLedger : useLedger = true)
      (enabled : ledger.enabled = true)
      (onTrack : track ∈ tracks)
      (operates : tradeLedger session track ledger command = .ok (drafts, moved.ledger))
      (sameTracks : moved.tracks = tracks)
      (sameSession : moved.session = session)
      (drafted : tradeDrafts moved.drafts = tradeDrafts drafts)

end Moves

section Inversion

variable {useLedger : Bool} {session : Session} {track : Track} {tracks : List Track}
  {ledger : Ledger} {command : Command} {now : Int}

theorem stepCount_some {count : Nat} (h : stepCount session command = .ok (some count)) : stepsNow session command = true := by
  cases command with
  | step =>
    rw [stepCount, unit_bind_ok, refuseIf_ok] at h
    unfold stepsNow
    simpa using h.1
  | clockStep =>
    rw [stepCount] at h
    unfold stepsNow
    split at h
    · cases h
    · rename_i hplaying
      simpa using hplaying
  | _ => cases h

theorem stepCount_none (h : stepCount session command = .ok none) : stepsNow session command = false := by
  cases command with
  | step =>
    rw [stepCount, unit_bind_ok, bind_ok] at h
    obtain ⟨-, count, -, h⟩ := h
    cases h
  | clockStep =>
    rw [stepCount] at h
    unfold stepsNow
    split at h
    · rename_i hplaying
      simpa using hplaying
    · obtain ⟨count, -, h⟩ := bind_ok.mp h
      cases h
  | _ => rfl

variable {attempt closed : Attempt}

/-- The closing part adds no trade event and drops none that a trade made. -/
theorem concluded_spec {remarshalled isClose changed : Bool}
    (hhonest : attempt.tradeChanged = false → tradeDrafts attempt.drafts = [])
    (h : concluded session track attempt remarshalled isClose = (closed, changed)) :
    closed.session = attempt.session ∧ closed.track = attempt.track ∧
      closed.ledger = attempt.ledger ∧ tradeDrafts closed.drafts = tradeDrafts attempt.drafts := by
  unfold concluded at h
  dsimp only at h
  split at h
  · cases h
    refine ⟨rfl, rfl, rfl, ?_⟩
    rw [tradeDrafts_append, tradeDrafts_append]
    rw [tradeDrafts_ite rfl, tradeDrafts_ite rfl, append_nil, append_nil]
  · rename_i hunch
    cases h
    refine ⟨rfl, rfl, rfl, ?_⟩
    have htrd : attempt.tradeChanged = false := by
      cases ht : attempt.tradeChanged with
      | false => rfl
      | true =>
        rw [ht, Bool.or_true] at hunch
        exact absurd rfl hunch
    rw [hhonest htrd]
    rfl

/-- A transition that reports no change has left the clock and the cursor, and did not trade. -/
theorem concluded_unchanged {remarshalled isClose : Bool}
    (h : concluded session track attempt remarshalled isClose = (closed, false)) :
    attempt.session.simulatedTime = session.simulatedTime ∧
      attempt.track.cursorSeq = track.cursorSeq ∧ attempt.tradeChanged = false ∧
      remarshalled = false ∧ closed.drafts = [] := by
  unfold concluded at h
  dsimp only at h
  split at h
  · cases h
  rename_i hunch
  cases h
  simp only [Bool.or_eq_true, decide_eq_true_eq, not_or, not_not] at hunch
  obtain ⟨⟨⟨⟨⟨⟨-, hcsr⟩, -⟩, htime⟩, hmarshalled⟩, -⟩, htrd⟩ := hunch
  exact ⟨htime.symm, hcsr.symm, Bool.eq_false_iff.mpr htrd, Bool.eq_false_iff.mpr hmarshalled, rfl⟩

theorem concluded_ledger {remarshalled isClose changed : Bool}
    (h : concluded session track attempt remarshalled isClose = (closed, changed)) :
    closed.session = attempt.session ∧ closed.ledger = attempt.ledger := by
  unfold concluded at h
  dsimp only at h
  split at h <;> cases h <;> exact ⟨rfl, rfl⟩

variable {attempt : Attempt}

theorem stepOne_ok (h : stepOne useLedger session track ledger command = .ok (some attempt)) :
    ∃ count batch selected target revealed, stepCount session command = .ok (some count) ∧
      resolveReplayStepTarget [track] (stepTarget session [track] count)
        (completionTime session [track]) = .ok ([selected], target) ∧
      revealRows useLedger batch track selected ledger = .ok revealed ∧
      attempt = ⟨session.arrived target (completionTime session [track]), revealed.track,
        revealed.ledger, revealed.drafts ++ revealed.trading, !revealed.trading.isEmpty⟩ := by
  unfold stepOne at h
  obtain ⟨found, hfnd, h⟩ := bind_ok.mp h
  cases found with
  | none => cases h
  | some count =>
    obtain ⟨⟨rows, target⟩, hreso, h⟩ := bind_ok.mp h
    obtain ⟨selected, rfl⟩ : ∃ selected, rows = [selected] := by
      have hlen := (resolveReplayStepTarget_ok hreso).1.length_eq
      exact length_eq_one_iff.mp hlen.symm
    obtain ⟨first, hfs, h⟩ := bind_ok.mp h
    rw [require_ok, head?_cons, Option.some.injEq] at hfs
    subst hfs
    obtain ⟨revealed, hrevl, h⟩ := bind_ok.mp h
    cases h
    exact ⟨count, _, selected, target, revealed, hfnd, hreso, hrevl, rfl⟩

theorem stepOne_none (h : stepOne useLedger session track ledger command = .ok none) : stepsNow session command = false := by
  unfold stepOne at h
  obtain ⟨found, hfnd, h⟩ := bind_ok.mp h
  cases found with
  | none => exact stepCount_none hfnd
  | some =>
    obtain ⟨⟨rows, target⟩, -, h⟩ := bind_ok.mp h
    obtain ⟨first, -, h⟩ := bind_ok.mp h
    obtain ⟨revealed, -, h⟩ := bind_ok.mp h
    cases h

theorem seekOne_ok (h : seekOne useLedger session track ledger command = .ok attempt) :
    ∃ target resetTrading resetDrafts moved, seekTarget session command = .ok (target, resetTrading) ∧
      rewind useLedger session target resetTrading ledger = .ok (resetDrafts, attempt.ledger) ∧
      seekTrack target track = .ok moved ∧ attempt.track = moved ∧
      attempt.session.simulatedTime = moved.visibleThrough ∧ attempt.session.fixed = session.fixed ∧
      attempt.drafts = resetDrafts ++ [moved.trackReset] ∧
      attempt.tradeChanged = !resetDrafts.isEmpty := by
  unfold seekOne at h
  obtain ⟨⟨target, resetTrading⟩, hseek, h⟩ := bind_ok.mp h
  obtain ⟨⟨resetDrafts, after⟩, hrewind, h⟩ := bind_ok.mp h
  obtain ⟨moved, hmvd, h⟩ := bind_ok.mp h
  cases h
  exact ⟨target, resetTrading, resetDrafts, moved, hseek, hrewind, hmvd, rfl, rfl, rfl, rfl, rfl⟩

theorem tradeOne_ok (h : tradeOne useLedger session track ledger command = .ok attempt) :
    useLedger = true ∧ ledger.enabled = true ∧ ∃ drafts after, tradeLedger session track ledger command = .ok (drafts, after) ∧
      attempt = ⟨session, track, after, drafts, true⟩ := by
  unfold tradeOne at h
  rw [unit_bind_ok, refuseIf_ok, unit_bind_ok, refuseIf_ok, bind_ok] at h
  obtain ⟨huse, henab, ⟨drafts, after⟩, htrd, h⟩ := h
  cases h
  exact ⟨by simpa using huse, by simpa using henab, drafts, after, htrd, rfl⟩

theorem transport_time {after : Session} (h : transport session track now command = .ok after) :
    after.simulatedTime = session.simulatedTime ∧ after.fixed = session.fixed := by
  have hpaused : ∀ {reason : String} {after : Session}, transport.pausedWith session reason = .ok after →
      after.simulatedTime = session.simulatedTime ∧ after.fixed = session.fixed := by
    intro reason after h
    unfold transport.pausedWith at h
    split at h <;> cases h <;> exact ⟨rfl, rfl⟩
  cases command with
  | play =>
    rw [transport] at h
    split at h
    · cases h
    · split at h <;> cases h <;> exact ⟨rfl, rfl⟩
  | pause | pauseNoSubscribers | pauseServerRestart => exact hpaused h
  | setSpeed =>
    rw [transport, bind_ok] at h
    obtain ⟨given, -, h⟩ := h
    rw [unit_bind_ok] at h
    cases h.2
    exact ⟨rfl, rfl⟩
  | setReplayInterval =>
    rw [transport, bind_ok] at h
    obtain ⟨given, -, h⟩ := h
    obtain ⟨interval, -, h⟩ := bind_ok.mp h
    cases h
    exact ⟨rfl, rfl⟩
  | close =>
    cases h
    exact ⟨rfl, rfl⟩
  | _ => cases h

/-- `seek` or `restart`. -/
def Command.isSeek : Command → Bool
  | .seek _ | .restart _ => true
  | _ => false

theorem seekTarget_isSeek {target : Int × Bool} (h : seekTarget session command = .ok target) : command.isSeek = true := by
  cases command with
  | seek | restart => rfl
  | _ => cases h

theorem seekTarget_notStep {target : Int × Bool} (h : seekTarget session command = .ok target) : command.isStep = false := by
  cases command with
  | seek | restart => rfl
  | _ => cases h

theorem isTrade_notStep (h : command.isTrade = true) : command.isStep = false := by
  cases command with
  | step | clockStep => cases h
  | _ => rfl

theorem stepsNow_isStep (h : stepsNow session command = true) : command.isStep = true := by
  cases command with
  | step | clockStep => rfl
  | _ => cases h

variable {batch : Bool} {after : Ledger}

section OneTrack

variable {attempt : Attempt} {changed : Bool}

/-- The moved rows of one track, as rows of a session. -/
def Attempt.moved (attempt : Attempt) (changed : Bool) : Moved :=
  ⟨attempt.session, [attempt.track], attempt.ledger, attempt.drafts, changed⟩

variable {made : Attempt}

theorem moves_of_step (hmade : stepOne useLedger session track ledger command = .ok (some made))
    (hclsd : concluded session track made false false = (attempt, changed)) :
    Moves useLedger session [track] ledger command (attempt.moved changed) := by
  obtain ⟨count, batch, selected, target, revealed, hcnt, hreso, hrevl, rfl⟩ :=
    stepOne_ok hmade
  have hquiet : tradeDrafts revealed.drafts = [] := by
    rcases revealRows_ok hrevl with ⟨-, rfl⟩ | ⟨-, -, hdrfs, -⟩
    · rfl
    · exact hdrfs
  obtain ⟨hs, ht, hl, hd⟩ := concluded_spec (fun hnone => by
    have hemp : revealed.trading = [] := by simpa using hnone
    rw [tradeDrafts_append, hquiet, hemp]
    rfl) hclsd
  refine .stepped count batch [selected] target [revealed] (stepCount_some hcnt) hreso ?_
    (congrArg (fun track => [track]) ht) hs ?_ hcnt
  · have hldg : (attempt.moved changed).ledger = revealed.ledger := hl
    rw [hldg]
    simp [collect, revealTrack, hrevl, bind, Except.bind, pure, Except.pure]
  · refine Eq.trans hd ?_
    rw [tradeDrafts_append, hquiet, nil_append, flatMap_cons, flatMap_nil, append_nil]

theorem moves_of_seek (hmade : seekOne useLedger session track ledger command = .ok made)
    (hclsd : concluded session track made true false = (attempt, changed)) :
    Moves useLedger session [track] ledger command (attempt.moved changed) := by
  obtain ⟨target, resetTrading, resetDrafts, moved, htgt, hrewind, hmvd, htrk, htime, hfixed, hdrfs, htrad⟩ := seekOne_ok hmade
  have hdrafted : tradeDrafts made.drafts = tradeDrafts resetDrafts := by
    rw [hdrfs, tradeDrafts_append]
    exact append_nil _
  obtain ⟨hs, ht, hl, hd⟩ := concluded_spec (fun hnone => by
    rw [htrad] at hnone
    have hemp : resetDrafts = [] := by simpa using hnone
    rw [hdrafted, hemp]
    rfl) hclsd
  have hshn : attempt.track = moved := ht.trans htrk
  have hclock : attempt.session.simulatedTime = moved.visibleThrough := by rw [hs, htime]
  obtain ⟨hvisible, hle⟩ := seekTrack_onVisible hmvd
  refine .sought target resetTrading resetDrafts htgt (hrewind.trans ?_) (.cons ?_ .nil) ?_ ?_
    ((congrArg Session.fixed hs).trans hfixed) (hd.trans hdrafted)
  · exact congrArg (fun ledger => ok (resetDrafts, ledger)) hl.symm
  · exact hmvd.trans (congrArg ok hshn.symm)
  · intro other hoth
    have hoth : other = attempt.track := mem_singleton.mp hoth
    rw [hoth, hshn]
    exact hclock ▸ hvisible
  · exact hclock.trans_le hle

theorem moves_of_trade (hcmd : command.isTrade = true) (hmade : tradeOne useLedger session track ledger command = .ok made)
    (hclsd : concluded session track made false false = (attempt, changed)) :
    Moves useLedger session [track] ledger command (attempt.moved changed) := by
  obtain ⟨huse, henab, drafts, after, hop, rfl⟩ := tradeOne_ok hmade
  obtain ⟨hs, ht, hl, hd⟩ := concluded_spec (fun hnone => by cases hnone) hclsd
  refine .traded track drafts hcmd huse henab (mem_singleton.mpr rfl) (hop.trans ?_) (congrArg (fun track => [track]) ht) hs hd
  exact congrArg (fun ledger => ok (drafts, ledger)) hl.symm

theorem moves_of_transport {after : Session} {isClose : Bool}
    (hnot : stepsNow session command = false) (hcmd : command.isTrade = false)
    (haft : transport session track now command = .ok after)
    (hclsd : concluded session track ⟨after, track, ledger, [], false⟩ false isClose = (attempt, changed)) :
    Moves useLedger session [track] ledger command (attempt.moved changed) := by
  obtain ⟨hs, ht, hl, hd⟩ := concluded_spec (fun _ => rfl) hclsd
  have htime : attempt.session.simulatedTime = session.simulatedTime := by
    rw [hs]
    exact (transport_time haft).1
  have hfixed : attempt.session.fixed = session.fixed := by
    rw [hs]
    exact (transport_time haft).2
  exact .kept hnot hcmd (congrArg (fun track => [track]) ht) hl htime hfixed hd

inductive TransitionCases (useLedger : Bool) (session : Session) (track : Track) (ledger : Ledger)
    (now : Int) (command : Command) (attempt : Attempt) (changed : Bool) : Prop where
  | waits (made : stepOne useLedger session track ledger command = .ok none)
      (notTrade : command.isTrade = false)
      (same : (⟨session, track, ledger, [], false⟩, false) = (attempt, changed))
  | steps (attempted : Attempt)
      (made : stepOne useLedger session track ledger command = .ok (some attempted))
      (closed : concluded session track attempted false false = (attempt, changed))
  | seeks (attempted : Attempt) (made : seekOne useLedger session track ledger command = .ok attempted)
      (closed : concluded session track attempted true false = (attempt, changed))
  | trades (attempted : Attempt) (isTrade : command.isTrade = true)
      (made : tradeOne useLedger session track ledger command = .ok attempted)
      (closed : concluded session track attempted false false = (attempt, changed))
  | transports (after : Session) (isClose : Bool) (notStep : stepsNow session command = false)
      (notTrade : command.isTrade = false)
      (made : transport session track now command = .ok after)
      (closed : concluded session track ⟨after, track, ledger, [], false⟩ false isClose
        = (attempt, changed))

section Applied

variable (h : applyRuntimeTransition useLedger session track ledger now command = .ok (attempt, changed))
include h

theorem applyRuntimeTransition_cases : TransitionCases useLedger session track ledger now command attempt changed := by
  cases command with
  | step | clockStep =>
    rw [applyRuntimeTransition, bind_ok] at h
    obtain ⟨found, hfnd, h⟩ := h
    cases found with
    | none => exact .waits hfnd rfl (ok.inj h)
    | some made => exact .steps made hfnd (ok.inj h)
  | seek | restart =>
    rw [applyRuntimeTransition, bind_ok] at h
    obtain ⟨made, hmade, h⟩ := h
    exact .seeks made hmade (ok.inj h)
  | placeOrder | cancelOrder | closePosition | updateOrder | resetTrading =>
    rw [applyRuntimeTransition, bind_ok] at h
    obtain ⟨made, hmade, h⟩ := h
    exact .trades made rfl hmade (ok.inj h)
  | _ =>
    unfold applyRuntimeTransition at h
    obtain ⟨after, haft, h⟩ := bind_ok.mp h
    exact .transports after _ rfl rfl haft (ok.inj h)

/-- **Everything the transition of one track can do.** -/
theorem transition_one : Moves useLedger session [track] ledger command (attempt.moved changed) := by
  cases applyRuntimeTransition_cases h with
  | waits made notTrade same =>
    cases same
    exact .kept (stepOne_none made) notTrade rfl rfl rfl rfl rfl
  | steps _ made closed => exact moves_of_step made closed
  | seeks _ made closed => exact moves_of_seek made closed
  | trades _ isTrade made closed => exact moves_of_trade isTrade made closed
  | transports _ _ notStep notTrade made closed => exact moves_of_transport notStep notTrade made closed

end Applied

/-- A step that leaves the cursor leaves the ledger. -/
theorem revealRows_still {selected : Bar} (h : revealRows useLedger batch track selected ledger = .ok revealed)
    (hcsr : revealed.track.cursorSeq = track.cursorSeq) : revealed.ledger = ledger := by
  rcases revealRows_ok h with ⟨-, rfl⟩ | ⟨hlt, ⟨state, hmvd⟩, -, -⟩
  · rfl
  rw [hmvd] at hcsr
  have hseq : selected.seq = track.cursorSeq := hcsr
  omega

theorem rewind_ok {resetTrading : Bool} (h : rewind useLedger session target resetTrading ledger = .ok (drafts, after)) :
    (drafts = [] ∧ after = ledger) ∨ (useLedger = true ∧ target < session.simulatedTime ∧ ledger.hasFills = true ∧
        resetTrading = true ∧ ledger.reset target = (drafts, after)) := by
  unfold rewind at h
  split at h
  · rename_i hback
    rw [Bool.and_eq_true, Bool.and_eq_true, decide_eq_true_iff] at hback
    split at h
    · rename_i hreset
      exact .inr ⟨hback.1.1, hback.1.2, hback.2, hreset, ok.inj h⟩
    · cases h
  · cases h
    exact .inl ⟨rfl, rfl⟩

/-- A transition that reports no change leaves the clock and the ledger, and drafts nothing. -/
theorem transition_one_unchanged (h : applyRuntimeTransition useLedger session track ledger now command = .ok (attempt, false)) :
    attempt.session.simulatedTime = session.simulatedTime ∧ attempt.ledger = ledger ∧ attempt.drafts = [] := by
  cases applyRuntimeTransition_cases h with
  | waits _ _ same =>
    cases same
    exact ⟨rfl, rfl, rfl⟩
  | steps _ made closed =>
    obtain ⟨htime, hcsr, -, -, hdrfs⟩ := concluded_unchanged closed
    obtain ⟨hs, hl⟩ := concluded_ledger closed
    obtain ⟨count, batch, selected, target, revealed, -, -, hrevl, rfl⟩ := stepOne_ok made
    rw [hs, hl]
    exact ⟨htime, revealRows_still hrevl hcsr, hdrfs⟩
  | seeks _ _ closed =>
    -- a seek marshals the candle
    obtain ⟨-, -, -, hmarshalled, -⟩ := concluded_unchanged closed
    cases hmarshalled
  | trades _ _ made closed =>
    obtain ⟨-, -, htrd, -, -⟩ := concluded_unchanged closed
    obtain ⟨-, -, drafts, after, -, rfl⟩ := tradeOne_ok made
    cases htrd
  | transports _ _ _ _ made closed =>
    obtain ⟨hs, hl⟩ := concluded_ledger closed
    obtain ⟨-, -, -, -, hdrfs⟩ := concluded_unchanged closed
    rw [hs, hl]
    exact ⟨(transport_time made).1, rfl, hdrfs⟩

end OneTrack

/-! ## Several tracks -/

theorem map_replace_self (hids : (tracks.map (·.id)).Nodup) (hmem : track ∈ tracks) :
    tracks.map (fun other => if other.id = track.id then track else other) = tracks := by
  refine (map_congr_left fun other hoth => ?_).trans (map_id tracks)
  split
  · rename_i hid
    exact inj_on_of_nodup_map hids hmem hoth hid.symm
  · rfl

/-- A command that neither steps nor seeks leaves the track it goes through where it is. -/
theorem Moves.lift {session' : Session} {shown : Track} {ledger' : Ledger} {changed : Bool} (hstep : command.isStep = false)
    (hseek : command.isSeek = false) (hids : (tracks.map (·.id)).Nodup) (hmem : track ∈ tracks)
    (h : Moves useLedger session [track] ledger command ⟨session', [shown], ledger', drafts, changed⟩) :
    Moves useLedger session tracks ledger command ⟨session',
      tracks.map fun other => if other.id = track.id then shown else other, ledger', drafts, changed⟩ := by
  cases h with
  | kept notStep notTrade sameTracks sameLedger sameTime fixed quiet =>
    have hshn : shown = track := (cons.inj sameTracks).1
    subst hshn
    exact .kept notStep notTrade (map_replace_self hids hmem) sameLedger sameTime fixed quiet
  | stepped count batch selected target revealed steps =>
    rw [stepsNow_isStep steps] at hstep
    cases hstep
  | sought target resetTrading resetDrafts seeks =>
    rw [seekTarget_isSeek seeks] at hseek
    cases hseek
  | traded other drafts trades hasLedger enabled onTrack operates sameTracks sameSession drafted =>
    have hshn : shown = track := (cons.inj sameTracks).1
    have hoth : other = track := mem_singleton.mp onTrack
    subst hshn hoth
    exact .traded other drafts trades hasLedger enabled hmem operates (map_replace_self hids hmem) sameSession drafted

variable {moved : Moved}

theorem onTrack_moves (hstep : command.isStep = false)
    (hseek : command.isSeek = false) (hids : (tracks.map (·.id)).Nodup) (hmem : track ∈ tracks)
    (h : onTrack useLedger session tracks ledger now command track = .ok moved) :
    Moves useLedger session tracks ledger command moved := by
  unfold onTrack at h
  obtain ⟨⟨attempt, changed⟩, hatt, h⟩ := bind_ok.mp h
  cases h
  exact (transition_one hatt).lift hstep hseek hids hmem

theorem commandTrack_mem {trackId : Option (Option Uuid)} (h : commandTrack tracks trackId = .ok track) : track ∈ tracks := by
  unfold commandTrack at h
  obtain ⟨given, -, h⟩ := bind_ok.mp h
  obtain ⟨id, -, h⟩ := bind_ok.mp h
  rw [require_ok] at h
  exact mem_of_find?_eq_some h

variable {revealed : List Revealed}

theorem tradeDrafts_flatMap (h : ∀ track ∈ revealed, tradeDrafts track.drafts = []) :
    tradeDrafts (revealed.flatMap fun track => track.drafts ++ track.trading) = tradeDrafts (revealed.flatMap (·.trading)) := by
  induction revealed with
  | nil => rfl
  | cons first rest ih =>
    have hrest := ih fun track htrk => h track (mem_cons_of_mem _ htrk)
    rw [flatMap_cons, flatMap_cons, tradeDrafts_append, tradeDrafts_append,
      tradeDrafts_append, h first mem_cons_self, nil_append, hrest]

/-- The candles of a step say nothing about trading; only what its rows triggered does. -/
theorem revealed_quiet {pairs : List (Track × Bar)}
    (h : collect (revealTrack useLedger batch) ledger pairs = .ok (revealed, after)) :
    ∀ track ∈ revealed, tradeDrafts track.drafts = [] := by
  refine collect_change (fun _ entries _ => ∀ track ∈ entries, tradeDrafts track.drafts = [])
    (fun _ track htrk => by cases htrk) ?_ ?_ h
  · intro s d s' d' s'' hd hd' track htrk
    rcases mem_append.mp htrk with hmem | hmem
    · exact hd track hmem
    · exact hd' track hmem
  · intro ledger next entries after _ hrnd track htrk
    obtain ⟨revealed, rfl, -, hrows⟩ := revealTrack_ok hrnd
    rw [mem_singleton.mp htrk]
    rcases revealRows_ok hrows with ⟨-, rfl⟩ | ⟨-, -, hdrfs, -⟩
    · rfl
    · exact hdrfs

/-- The tracks a step leaves: each where the selected row or its own cursor is further. -/
theorem revealed_tracks (h : collect (revealTrack useLedger batch) ledger (tracks.zip selected) = .ok (revealed, after)) :
    List.Forall₂ (fun next shown => Track.SameTrack next.1 shown ∧ shown.cursorSeq = max next.1.cursorSeq next.2.seq ∧
        (next.2.seq ≤ next.1.cursorSeq → shown = next.1))
      (tracks.zip selected) (revealed.map (·.track)) := by
  rw [forall₂_map_right_iff]
  refine collect_forall₂ _ (fun ledger next entries after _ hrnd => ?_) h
  obtain ⟨revealed, rfl, -, hrows⟩ := revealTrack_ok hrnd
  obtain ⟨hsame, hcsr⟩ := revealRows_track hrows
  refine ⟨revealed, rfl, hsame, hcsr, fun hle => ?_⟩
  rcases revealRows_ok hrows with ⟨-, rfl⟩ | ⟨hlt, -⟩
  · rfl
  · omega

theorem drafted_step {pairs : List (Track × Bar)} {shown : List Track} {p : Prop} [Decidable p] {arrived : Session}
    (h : collect (revealTrack useLedger batch) ledger pairs = .ok (revealed, after)) :
    tradeDrafts (revealed.flatMap (fun track => track.drafts ++ track.trading)
      ++ shown.map Track.cursorAdvanced ++ (if p then [arrived.stateChanged] else [])) =
      tradeDrafts (revealed.flatMap (·.trading)) := by
  have hcursors : tradeDrafts (shown.map Track.cursorAdvanced) = [] := by
    unfold tradeDrafts
    rw [filter_eq_nil_iff]
    intro draft hdraft
    obtain ⟨track, -, rfl⟩ := mem_map.mp hdraft
    exact Bool.false_ne_true
  rw [tradeDrafts_append, tradeDrafts_append, tradeDrafts_flatMap (revealed_quiet h),
    tradeDrafts_ite rfl, hcursors, append_nil, append_nil]

theorem applySynchronizedStep_moves (htrd : command.isTrade = false)
    (h : applySynchronizedStep useLedger session tracks ledger command = .ok moved) :
    Moves useLedger session tracks ledger command moved := by
  unfold applySynchronizedStep at h
  obtain ⟨found, hfnd, h⟩ := bind_ok.mp h
  cases found with
  | none =>
    cases h
    exact .kept (stepCount_none hfnd) htrd rfl rfl rfl rfl rfl
  | some count =>
    obtain ⟨⟨selected, target⟩, hreso, h⟩ := bind_ok.mp h
    obtain ⟨⟨revealed, after⟩, hreveal, h⟩ := bind_ok.mp h
    cases h
    exact .stepped count _ selected target revealed (stepCount_some hfnd) hreso hreveal rfl rfl (drafted_step hreveal) hfnd

theorem applySynchronizedSeek_moves (h : applySynchronizedSeek useLedger session tracks ledger command = .ok moved) :
    Moves useLedger session tracks ledger command moved := by
  unfold applySynchronizedSeek at h
  obtain ⟨⟨target, resetTrading⟩, hseek, h⟩ := bind_ok.mp h
  obtain ⟨⟨resetDrafts, after⟩, hrewind, h⟩ := bind_ok.mp h
  obtain ⟨shown, hshn, h⟩ := bind_ok.mp h
  cases h
  have hplaced := seekTracks_ok hshn
  refine .sought target resetTrading resetDrafts hseek hrewind hplaced ?_ (Int.le_refl _) rfl ?_
  · intro track htrk
    obtain ⟨before, -, hmvd⟩ := forall₂_mem_right hplaced htrk
    exact seekTrack_onClock hmvd
  · have hplaces : tradeDrafts (shown.flatMap fun track => [track.trackReset, track.cursorAdvanced]) = [] := by
      unfold tradeDrafts
      rw [filter_eq_nil_iff]
      intro draft hdraft
      obtain ⟨track, -, hdraft⟩ := mem_flatMap.mp hdraft
      rcases mem_cons.mp hdraft with rfl | hdraft
      · exact Bool.false_ne_true
      · rw [mem_singleton.mp hdraft]
        exact Bool.false_ne_true
    rw [tradeDrafts_append, tradeDrafts_append, hplaces, append_nil]
    exact append_nil _

theorem applySynchronizedReplayInterval_moves {requested : Option String}
    (h : applySynchronizedReplayInterval session tracks ledger requested = .ok moved) :
    Moves useLedger session tracks ledger (.setReplayInterval requested) moved := by
  unfold applySynchronizedReplayInterval at h
  obtain ⟨given, -, h⟩ := bind_ok.mp h
  obtain ⟨interval, -, h⟩ := bind_ok.mp h
  split at h
  · cases h
    exact .kept rfl rfl rfl rfl rfl rfl rfl
  · cases h
    exact .kept rfl rfl rfl rfl rfl rfl rfl

theorem transition_cases (h : applyRuntimeTransitionTracks useLedger session tracks ledger now command = .ok moved) :
    (∃ track ∈ tracks, (tracks = [track] ∨ command.isStep = false ∧ command.isSeek = false) ∧
        onTrack useLedger session tracks ledger now command track = .ok moved) ∨
      (command.isTrade = false ∧ applySynchronizedStep useLedger session tracks ledger command = .ok moved) ∨
      applySynchronizedSeek useLedger session tracks ledger command = .ok moved ∨
      ∃ requested, command = .setReplayInterval requested ∧
        applySynchronizedReplayInterval session tracks ledger requested = .ok moved := by
  match tracks, h with
  | [], h => cases h
  | [track], h => exact .inl ⟨track, mem_cons_self, .inl rfl, h⟩
  | first :: second :: rest, h =>
    cases command with
    | step | clockStep => exact .inr (.inl ⟨rfl, h⟩)
    | seek | restart => exact .inr (.inr (.inl h))
    | setReplayInterval requested => exact .inr (.inr (.inr ⟨requested, rfl, h⟩))
    | placeOrder | closePosition =>
      obtain ⟨track, htrk, h⟩ := bind_ok.mp h
      exact .inl ⟨track, commandTrack_mem htrk, .inr ⟨rfl, rfl⟩, h⟩
    | _ => exact .inl ⟨first, mem_cons_self, .inr ⟨rfl, rfl⟩, h⟩

/-- **Everything a command of a session can do.** -/
theorem transition_moves (hids : (tracks.map (·.id)).Nodup)
    (h : applyRuntimeTransitionTracks useLedger session tracks ledger now command = .ok moved) :
    Moves useLedger session tracks ledger command moved := by
  obtain ⟨track, hmem, rfl | ⟨hstep, hseek⟩, h⟩ | ⟨htrd, h⟩ | h | ⟨requested, rfl, hintv⟩ := transition_cases h
  · unfold onTrack at h
    obtain ⟨⟨attempt, changed⟩, hatt, h⟩ := bind_ok.mp h
    have hshn : [track].map (fun other => if other.id = track.id then attempt.track else other) = [attempt.track] := by
      rw [map_cons, if_pos rfl, map_nil]
    cases h
    rw [hshn]
    exact transition_one hatt
  · exact onTrack_moves hstep hseek hids hmem h
  · exact applySynchronizedStep_moves htrd h
  · exact applySynchronizedSeek_moves h
  · exact applySynchronizedReplayInterval_moves hintv

/-- A synchronized step that moves no cursor leaves the ledger. -/
theorem revealed_still :
    ∀ {selected : List Bar} {ledger after : Ledger} {revealed : List Revealed},
      tracks.length = selected.length →
      collect (revealTrack useLedger batch) ledger (tracks.zip selected) = .ok (revealed, after) →
      (∀ pair ∈ tracks.zip (revealed.map (·.track)), pair.1.cursorSeq = pair.2.cursorSeq) →
      after = ledger := by
  induction tracks with
  | nil =>
    intro selected ledger after revealed _ h _
    cases h
    rfl
  | cons track rest ih =>
    intro selected ledger after revealed hlen h hstill
    cases selected with
    | nil => cases hlen
    | cons =>
      obtain ⟨first, mid, more, hfs, hmore, rfl⟩ := collect_cons_ok h
      obtain ⟨shown, rfl, rfl, hrows⟩ := revealTrack_ok hfs
      have hhead : track.cursorSeq = shown.track.cursorSeq :=
        hstill (track, shown.track) mem_cons_self
      rw [ih (Nat.succ.inj hlen) hmore fun pair hpair => hstill pair (mem_cons_of_mem _ hpair)]
      exact revealRows_still hrows hhead.symm

theorem onTrack_unchanged (hunch : moved.changed = false)
    (h : onTrack useLedger session tracks ledger now command track = .ok moved) :
    moved.session.simulatedTime = session.simulatedTime ∧ moved.ledger = ledger ∧ tradeDrafts moved.drafts = [] := by
  unfold onTrack at h
  obtain ⟨⟨attempt, changed⟩, hatt, h⟩ := bind_ok.mp h
  cases h
  have hchgd : changed = false := hunch
  rw [hchgd] at hatt
  obtain ⟨htime, hldg, hdrfs⟩ := transition_one_unchanged hatt
  exact ⟨htime, hldg, congrArg tradeDrafts hdrfs⟩

/-- **A command that reports no change leaves the clock and the ledger, and drafts no trade.** -/
theorem transition_unchanged (hunch : moved.changed = false)
    (h : applyRuntimeTransitionTracks useLedger session tracks ledger now command = .ok moved) :
    moved.session.simulatedTime = session.simulatedTime ∧ moved.ledger = ledger ∧ tradeDrafts moved.drafts = [] := by
  obtain ⟨track, -, -, h⟩ | ⟨-, h⟩ | h | ⟨requested, rfl, hintv⟩ := transition_cases h
  · exact onTrack_unchanged hunch h
  · unfold applySynchronizedStep at h
    obtain ⟨found, -, h⟩ := bind_ok.mp h
    cases found with
    | none =>
      cases h
      exact ⟨rfl, rfl, rfl⟩
    | some =>
      obtain ⟨⟨selected, target⟩, hreso, h⟩ := bind_ok.mp h
      obtain ⟨⟨revealed, after⟩, hreveal, h⟩ := bind_ok.mp h
      cases h
      simp only [Bool.or_eq_false_iff, decide_eq_false_iff_not, not_not, Bool.not_eq_false',
        List.isEmpty_iff, List.filterMap_eq_nil_iff] at hunch
      obtain ⟨⟨⟨-, htime⟩, hcursors⟩, htrdg⟩ := hunch
      refine ⟨?_, revealed_still (resolveReplayStepTarget_ok hreso).1.length_eq hreveal ?_, ?_⟩
      · unfold Session.arrived
        split <;> exact htime.symm
      · intro pair hpair
        by_contra hne
        have := hcursors pair hpair
        rw [if_pos hne] at this
        cases this
      · rw [drafted_step hreveal, htrdg]
        rfl
  · unfold applySynchronizedSeek at h
    simp only [bind_ok] at h
    obtain ⟨_, -, _, -, _, -, h⟩ := h
    cases h
    cases hunch
  · have hmoves : Moves useLedger session tracks ledger (.setReplayInterval requested) moved :=
      applySynchronizedReplayInterval_moves hintv
    cases hmoves with
    | kept _ _ _ sameLedger sameTime _ quiet => exact ⟨sameTime, sameLedger, quiet⟩
    | stepped _ _ _ _ _ steps => cases steps
    | sought _ _ _ seeks => cases seeks
    | traded _ _ trades => cases trades

end Inversion

end MarketLens.Replay
