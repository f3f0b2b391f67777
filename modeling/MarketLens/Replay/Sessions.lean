import MarketLens.Replay.Commit

/-!
# Runs of a session

A session is prepared once and then takes commands, one transaction after another,
from any number of actors. This is the run the invariants of the replay are about,
and what every such run keeps: which tracks there are and what they read.
-/

namespace MarketLens.Replay

open List Runs

/-- A command as a step of what is stored. A refused command is a step that moves nothing. -/
def Database.command (db : Database) (input : CommandInput) : Option Database :=
  some (applyCommand db input).2

/-- A session as `Repo.Prepare` and `Repo.Fork` leave it. -/
structure Prepared (db : Database) : Prop where
  paused : db.session.status = .paused
  atStart : db.session.simulatedTime = db.session.startTime
  numbered : db.session.version = 1 ∧ db.session.nextEventSeq = 1
  unleased : db.session.lease = none
  tracked : 1 ≤ db.tracks.length ∧ db.tracks.length ≤ 4
  distinct : (db.tracks.map (·.id)).Nodup
  placed : ∀ track ∈ db.tracks, track.OnClock db.session.startTime
  account : (∃ currency equity commission uuids,
    db.ledger = Ledger.create currency equity commission uuids) ∨ ∃ uuids, db.ledger = .disabled uuids
  unlogged : db.commands = [] ∧ db.events = [] ∧ db.checkpoints = []

/-! ## The tracks of a session -/

theorem forall₂_sameTrack_refl (tracks : List Track) : Forall₂ Track.SameTrack tracks tracks := by
  rw [forall₂_same]
  exact fun _ _ => ⟨rfl, rfl, rfl⟩

theorem forall₂_sameTrack_ids {before after : List Track}
    (h : Forall₂ Track.SameTrack before after) : after.map (·.id) = before.map (·.id) := by
  induction h with
  | nil => rfl
  | cons hfs _ ih => rw [map_cons, map_cons, ih, hfs.id]

theorem stepped_forall₂ {tracks : List Track} {selected : List Bar} {shown : List Track} (hlen : tracks.length = selected.length)
    (h : Forall₂ (fun next shown => Track.SameTrack next.1 shown ∧ shown.cursorSeq = max next.1.cursorSeq next.2.seq ∧
        (next.2.seq ≤ next.1.cursorSeq → shown = next.1)) (tracks.zip selected) shown) :
    Forall₂ (fun before after => Track.SameTrack before after ∧ before.cursorSeq ≤ after.cursorSeq) tracks shown := by
  induction tracks generalizing selected shown with
  | nil =>
    cases h
    exact .nil
  | cons track rest ih =>
    cases selected with
    | nil => cases hlen
    | cons =>
      cases h with
      | cons hfs hrest =>
        obtain ⟨hsame, hcsr, -⟩ := hfs
        refine .cons ⟨hsame, ?_⟩ (ih (Nat.succ.inj hlen) hrest)
        rw [hcsr]
        exact Nat.le_max_left _ _

section Moves

variable {useLedger : Bool} {session : Session} {tracks : List Track} {ledger : Ledger}
  {command : Command} {moved : Moved}

theorem Moves.sameTracks (h : Moves useLedger session tracks ledger command moved) :
    Forall₂ Track.SameTrack tracks moved.tracks := by
  cases h with
  | kept _ _ sameTracks | traded _ _ _ _ _ _ _ sameTracks =>
    rw [sameTracks]
    exact forall₂_sameTrack_refl tracks
  | stepped _ _ selected _ revealed _ resolved reveals shown =>
    rw [shown]
    have hlen := (resolveReplayStepTarget_ok resolved).1.length_eq
    exact (stepped_forall₂ hlen (revealed_tracks reveals)).imp fun _ _ hmvd => hmvd.1
  | sought _ _ _ _ _ placed => exact placed.imp fun _ _ hmvd => (seekTrack_ok hmvd).1

end Moves

section Command

variable {db db' : Database} {input : CommandInput} {response : Response} {result : CommandResult}
  {claimed : Session} {moved : Moved}

theorem Committed.sameTracks (h : Committed db input result db' claimed moved) :
    Forall₂ Track.SameTrack db.tracks db'.tracks := by
  rw [h.tracks]
  split
  · exact h.moves.sameTracks
  · exact forall₂_sameTrack_refl db.tracks

theorem Commanded.sameTracks (h : Commanded db input response db') : Forall₂ Track.SameTrack db.tracks db'.tracks := by
  cases h with
  | unmoved _ same =>
    rw [same.tracks]
    exact forall₂_sameTrack_refl db.tracks
  | committed _ _ commits => exact commits.sameTracks

theorem commanded_of_command (hids : (db.tracks.map (·.id)).Nodup)
    (h : db.command input = some db') : ∃ response, Commanded db input response db' := by
  cases h
  exact ⟨_, applyCommand_cases hids input⟩

/-- The tracks of a session have different ids, whatever commands it takes. -/
theorem command_distinct (hids : (db.tracks.map (·.id)).Nodup)
    (h : db.command input = some db') : (db'.tracks.map (·.id)).Nodup := by
  obtain ⟨response, hcs⟩ := commanded_of_command hids h
  rw [forall₂_sameTrack_ids hcs.sameTracks]
  exact hids

theorem reaches_distinct {start : Database} {ok : Database → CommandInput → Prop}
    (hprep : Prepared start) (h : Reaches Database.command ok start db) :
    (db.tracks.map (·.id)).Nodup :=
  h.invariant (fun db => (db.tracks.map (·.id)).Nodup) hprep.distinct fun _ _ _ hids _ hstep => command_distinct hids hstep

end Command

/-! ## A session over minute rows -/

/-- A minute in which nothing but one price was traded. -/
def minuteRow (seq : Nat) (price : Decimal) : Bar :=
  ⟨seq, seq * (60 * second), 60, price, price, price, price, 0⟩

/-- A dataset with a row for each minute since the epoch. -/
def minuteDataset (prices : List Decimal) (nonempty : prices ≠ []) : Dataset where
  id := 1
  sourceTimeframe := "M1"
  baseIntervalSeconds := 60
  bars := prices.mapIdx minuteRow
  nonempty := by
    intro hnil
    exact nonempty (List.mapIdx_eq_nil_iff.mp hnil)
  numbered := by
    intro i h
    rw [List.getElem_mapIdx]
    rfl
  ascending := by
    rw [List.pairwise_iff_getElem]
    intro i j hi hj hlt
    rw [List.getElem_mapIdx, List.getElem_mapIdx]
    unfold minuteRow second
    dsimp only
    omega
  interval_pos := by decide

/-- A track on the first minute of its dataset, its candle built from that row. -/
def minuteTrack (id : Uuid) (prices : List Decimal) (nonempty : prices ≠ []) : Track where
  id := id
  slot := id
  symbol := "EURUSD"
  chartTimeframe := .m1
  cursorSeq := 0
  visibleThrough := 0
  aggregateState := ((aggregateRevealedBars .m1 [minuteRow 0 (prices.head nonempty)]).map
    (·.2)).getD newAggregateState
  dataset := minuteDataset prices nonempty

theorem minuteTrack_onClock (id : Uuid) (prices : List Decimal) (nonempty : prices ≠ []) :
    (minuteTrack id prices nonempty).OnClock 0 := by
  cases prices with
  | nil => exact absurd rfl nonempty
  | cons price rest =>
    have hfs : minuteRow 0 price ∈ (minuteDataset (price :: rest) nonempty).bars := by
      have hrows : minuteRow 0 price ∈ (price :: rest).mapIdx minuteRow := by
        rw [mapIdx_cons]
        exact mem_cons_self
      exact hrows
    refine ⟨minuteRow 0 price, ⟨hfs, Int.le_of_eq rfl, fun other hoth htime => ?_⟩, rfl⟩
    exact (Dataset.openTime_le_iff hoth hfs).mp htime

/-- A session prepared over such tracks at the epoch, with a minute between steps. -/
def minuteSession (tracks : List Track) (endTime : Option Int) (ledger : Ledger) : Database where
  session := ⟨.paused, 1, 1, 1, 1, 60, 0, 0, endTime, some "created", none, none⟩
  tracks := tracks
  ledger := ledger
  commands := []
  events := []
  checkpoints := []

theorem minuteSession_prepared {tracks : List Track} {endTime : Option Int} {ledger : Ledger}
    (hcnt : 1 ≤ tracks.length ∧ tracks.length ≤ 4) (hids : (tracks.map (·.id)).Nodup)
    (hplaced : ∀ track ∈ tracks, track.OnClock 0)
    (hldg : (∃ currency equity commission uuids,
      ledger = Ledger.create currency equity commission uuids) ∨ ∃ uuids, ledger = .disabled uuids) :
    Prepared (minuteSession tracks endTime ledger) :=
  ⟨rfl, rfl, ⟨rfl, rfl⟩, rfl, hcnt, hids, hplaced, hldg, rfl, rfl, rfl⟩

/-- A command of a client, with no lease and no projection of the ledger at hand. -/
def clientCommand (key : String) (command : Command) : CommandInput :=
  ⟨key, none, command, "", 0, none, 0⟩

end MarketLens.Replay
