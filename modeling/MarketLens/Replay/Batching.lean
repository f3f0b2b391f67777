import MarketLens.Replay.Playback
import MarketLens.Replay.Reorder

/-!
# Playback in batches

A run of playback commands shows every track its rows in order, and only the order on
each track counts for the ledger. So two runs that leave the tracks at the same rows
leave the same orders, fills, positions and account, if the ids of the second are drawn
in the order it needs them.
-/

namespace MarketLens.Replay

open List Option Bool Journal Fallible Runs Table Interleave

/-! ## Rows shown -/

/-- The rows a track shows on its way, under its id. -/
def Track.shownTo (before after : Track) : List Shown :=
  (before.rowsTo after).map fun bar => ⟨before.id, before.symbol, bar⟩

/-- The rows of a command, track by track. -/
def shownBetween (before after : List Track) : List Shown :=
  (before.zip after).flatMap fun way => way.1.shownTo way.2

theorem shownBetween_cons (track shown : Track) (before after : List Track) :
    shownBetween (track :: before) (shown :: after) = track.shownTo shown ++ shownBetween before after := rfl

theorem shownBetween_self (tracks : List Track) : shownBetween tracks tracks = [] := by
  induction tracks with
  | nil => rfl
  | cons track rest ih =>
    rw [shownBetween_cons, ih, append_nil, Track.shownTo, Track.rowsTo_self, map_nil]

section Projections

variable {before mid after : List Track} {k : Uuid}

theorem ofKey_shownTo (track shown : Track) :
    ofKey (·.trackId) k (track.shownTo shown) = if track.id = k then track.shownTo shown else [] := by
  split
  · rename_i hk
    refine filter_eq_self.mpr fun row hrow => ?_
    obtain ⟨bar, -, rfl⟩ := mem_map.mp hrow
    exact decide_eq_true hk
  · rename_i hk
    refine ofKey_none fun row hrow => ?_
    obtain ⟨bar, -, rfl⟩ := mem_map.mp hrow
    exact hk

theorem ofKey_shownBetween_none (h : k ∉ before.map (·.id)) : ofKey (·.trackId) k (shownBetween before after) = [] := by
  refine ofKey_none fun row hrow => ?_
  obtain ⟨way, hway, hrow⟩ := mem_flatMap.mp hrow
  obtain ⟨bar, -, rfl⟩ := mem_map.mp hrow
  exact fun hsame => h (hsame ▸ mem_map_of_mem (of_mem_zip hway).1)

theorem Track.shownTo_append {first second third : Track} (h : first.PlayedTo second)
    (h' : second.PlayedTo third) : first.shownTo second ++ second.shownTo third = first.shownTo third := by
  obtain ⟨hid, hsym, hdataset⟩ := h.kept
  unfold shownTo rowsTo
  rw [hid, hsym, hdataset, ← map_append, Dataset.barsBySeqRange_append h.le h'.le]

/-- **On each track the rows of two runs are those of one after those of the other.** -/
theorem ofKey_shownBetween_append (hids : (before.map (·.id)).Nodup)
    (h : Forall₂ Track.PlayedTo before mid) (h' : Forall₂ Track.PlayedTo mid after) (k : Uuid) :
    ofKey (·.trackId) k (shownBetween before mid ++ shownBetween mid after) =
      ofKey (·.trackId) k (shownBetween before after) := by
  induction h generalizing after with
  | nil =>
    cases h'
    rfl
  | @cons track shown before mid hfs hrest ih =>
    cases h' with
    | @cons _ last _ after hfs' hrest' =>
      rw [map_cons, nodup_cons] at hids
      have hmore := ih hids.2 hrest'
      rw [shownBetween_cons, shownBetween_cons, shownBetween_cons, ← Track.shownTo_append hfs hfs']
      simp only [ofKey_append, ofKey_shownTo, hfs.kept.1] at hmore ⊢
      by_cases hk : track.id = k
      · -- no other track has this id
        have hoth : k ∉ before.map (·.id) := hk ▸ hids.1
        have hlat : k ∉ mid.map (·.id) := by
          have hsame : mid.map (·.id) = before.map (·.id) := by
            clear ih hmore hrest' hids hoth
            induction hrest with
            | nil => rfl
            | cons hplayed _ ih => rw [map_cons, map_cons, ih, hplayed.kept.1]
          rw [hsame]
          exact hoth
        rw [if_pos hk, if_pos hk, ofKey_shownBetween_none hoth, ofKey_shownBetween_none hlat, ofKey_shownBetween_none hoth]
        simp only [append_nil]
      · rw [if_neg hk, if_neg hk, nil_append, nil_append, append_nil, nil_append]
        exact hmore

end Projections

/-! ## Trading row by row -/

namespace Ledger

variable {t : Uuid} {A B L L' M N : Ledger} {drafts : List EventDraft}

theorem processShown_append {shown more : List Shown} :
    L.processShown (shown ++ more) = .ok (drafts, L') ↔ ∃ first mid later,
      L.processShown shown = .ok (first, mid) ∧ mid.processShown more = .ok (later, L') ∧ drafts = first ++ later := by
  unfold processShown
  induction shown generalizing L drafts with
  | nil =>
    constructor
    · exact fun h => ⟨[], L, drafts, rfl, h, rfl⟩
    · rintro ⟨first, mid, later, hfs, hlat, rfl⟩
      cases hfs
      exact hlat
  | cons row shown ih =>
    constructor
    · intro h
      obtain ⟨entries, next, rest, hrnd, hrest, rfl⟩ := collect_cons_ok h
      obtain ⟨first, mid, later, hfs, hlat, rfl⟩ := ih.mp hrest
      exact ⟨entries ++ first, mid, later, collect_cons hrnd hfs, hlat, (append_assoc _ _ _).symm⟩
    · rintro ⟨first, mid, later, hfs, hlat, rfl⟩
      obtain ⟨entries, next, rest, hrnd, hrest, rfl⟩ := collect_cons_ok hfs
      rw [append_assoc]
      exact collect_cons hrnd (ih.mpr ⟨rest, mid, later, hrest, hlat, rfl⟩)

/-- A row on a track with nothing at work leaves the books. -/
theorem processRow_inactive (h : L.hasActiveMarketState t = false) (symbol : String) (bar : Bar) :
    processRow t symbol L bar = .ok ([], L.markToMarket t bar) ∧ SameBooks L (L.markToMarket t bar) := by
  have hspl := h
  unfold hasActiveMarketState at hspl
  rw [or_eq_false_iff, List.any_eq_false, List.any_eq_false] at hspl
  have hposs : L.openPositions t = [] := by
    refine eq_nil_iff_forall_not_mem.mpr fun p hp => ?_
    obtain ⟨hmem, htrk, hopen⟩ := mem_openPositions hp
    refine hspl.2 p hmem ?_
    rw [and_eq_true, decide_eq_true_iff, decide_eq_true_iff]
    exact ⟨htrk, hopen⟩
  have hords : L.pendingOrders t = [] := by
    refine eq_nil_iff_forall_not_mem.mpr fun order hord => ?_
    obtain ⟨hmem, htrk, hactv⟩ := mem_pendingOrders.mp hord
    refine hspl.1 order hmem ?_
    rw [and_eq_true, decide_eq_true_iff]
    exact ⟨htrk, hactv⟩
  have hmarked : (L.markToMarket t bar).positions = L.positions := by
    exact updateWhere_none fun p hp => eq_false_of_not_eq_true (hspl.2 p hp)
  have hsett : (L.markToMarket t bar).account.map AccountRow.settings =
      L.account.map AccountRow.settings := refreshEquity_settings _
  refine ⟨?_, fun k => ⟨rfl, rfl, by rw [hmarked]⟩, hsett.symm, (markToMarket_balance L t bar).symm, rfl⟩
  unfold processRow processBrackets
  rw [hposs]
  simp only [Journal.collect, bind, Except.bind, hords]
  rfl

theorem processShown_inactive (h : L.hasActiveMarketState t = false) (symbol : String) (rows : List Bar) :
    ∃ M, L.processShown (rows.map fun bar => ⟨t, symbol, bar⟩) = .ok ([], M) ∧ SameBooks L M ∧ M.uuids = L.uuids := by
  induction rows generalizing L with
  | nil => exact ⟨L, rfl, .refl L, rfl⟩
  | cons bar rows ih =>
    obtain ⟨hrow, hbooks⟩ := processRow_inactive h symbol bar
    obtain ⟨M, hmore, hrest, hdra⟩ :=
      ih ((hasActiveMarketState_agree (hbooks.agree t)).symm.trans h)
    refine ⟨M, ?_, hbooks.trans hrest, hdra⟩
    unfold processShown at hmore ⊢
    rw [map_cons, collect]
    simp only [bind, Except.bind, hrow, hmore]
    rfl

theorem processRows_shown {symbol : String} {rows : List Bar} :
    (∀ L', L.processRows t symbol rows = .ok (drafts, L') → ∃ M,
      L.processShown (rows.map fun bar => ⟨t, symbol, bar⟩) = .ok (drafts, M) ∧ SameBooks L' M ∧ M.uuids = L'.uuids) ∧
    (∀ M, L.processShown (rows.map fun bar => ⟨t, symbol, bar⟩) = .ok (drafts, M) → ∃ L',
      L.processRows t symbol rows = .ok (drafts, L') ∧ SameBooks L' M ∧ M.uuids = L'.uuids) := by
  cases hactv : L.hasActiveMarketState t with
  | true =>
    have hsame : L.processRows t symbol rows = L.processShown (rows.map fun bar => ⟨t, symbol, bar⟩) := by
      unfold processRows
      rw [hactv, if_pos rfl]
      clear hactv
      unfold processShown
      induction rows generalizing L with
      | nil => rfl
      | cons bar rows ih =>
        refine bind_congr fun next => ?_
        dsimp only
        rw [ih]
    rw [hsame]
    exact ⟨fun L' h => ⟨L', h, .refl _, rfl⟩, fun M h => ⟨M, h, .refl _, rfl⟩⟩
  | false =>
    have hnone : L.processRows t symbol rows = .ok ([], L) := by
      unfold processRows
      rw [hactv]
      rfl
    obtain ⟨shown, hshn, hbooks, hdra⟩ := processShown_inactive hactv symbol rows
    rw [hnone, hshn]
    refine ⟨fun L' h => ?_, fun M h => ?_⟩
    · cases h
      exact ⟨shown, rfl, hbooks, hdra⟩
    · cases h
      exact ⟨L, rfl, hbooks, hdra⟩

variable {before after : List Track}

/-- What is traded between two places of the tracks leaves the books that the rows leave. -/
theorem tradeBetween_shown (hL : L.Keyed) (h : L.tradeBetween before after = .ok (drafts, L')) :
    ∃ more M,
      L.processShown (shownBetween before after) = .ok (more, M) ∧ SameBooks L' M ∧ M.uuids = L'.uuids := by
  unfold tradeBetween at h
  unfold shownBetween
  generalize before.zip after = ways at h
  induction ways generalizing L drafts with
  | nil =>
    cases h
    exact ⟨[], L', rfl, .refl _, rfl⟩
  | cons way ways ih =>
    obtain ⟨first, mid, later, hfs, hlat, -⟩ := collect_cons_ok h
    obtain ⟨shown, hshn, hbooks, hdra⟩ := processRows_shown.1 mid hfs
    have hmid := processRows_keyed hL hfs
    have hshownKeyed := processShown_keyed hL hshn
    obtain ⟨more, rest, hrest, hrestBooks, hrestDraws⟩ := ih hmid hlat
    obtain ⟨final, hfinal, hfinalBooks, hfinDr⟩ :=
      processShown_same hmid hshownKeyed hbooks hdra hrest
    exact ⟨first ++ more, final, processShown_append.mpr ⟨first, shown, more, hshn, hfinal, rfl⟩,
      hrestBooks.trans hfinalBooks, hfinDr.trans hrestDraws⟩

/-- What the rows leave can be traded between the places of the tracks. -/
theorem shown_tradeBetween (hL : L.Keyed) (h : L.processShown (shownBetween before after) = .ok (drafts, M)) :
    ∃ more L',
      L.tradeBetween before after = .ok (more, L') ∧ SameBooks L' M ∧ M.uuids = L'.uuids := by
  unfold shownBetween at h
  unfold tradeBetween
  generalize before.zip after = ways at h
  induction ways generalizing L drafts M with
  | nil =>
    cases h
    exact ⟨[], L, rfl, .refl _, rfl⟩
  | cons way ways ih =>
    rw [flatMap_cons, processShown_append] at h
    obtain ⟨first, shown, later, hshn, hlat, -⟩ := h
    obtain ⟨mid, hfs, hbooks, hdra⟩ := processRows_shown.2 shown hshn
    have hmid := processRows_keyed hL hfs
    have hshownKeyed := processShown_keyed hL hshn
    obtain ⟨rest, hrest, hrestBooks, hrestDraws⟩ :=
      processShown_same hshownKeyed hmid hbooks.symm hdra.symm hlat
    obtain ⟨more, L', hmore, hmoreBooks, hmoreDraws⟩ := ih hmid hrest
    have hrnd : tradeShown L way = .ok (first, mid) := hfs
    exact ⟨first ++ more, L', collect_cons hrnd hmore, hmoreBooks.trans hrestBooks.symm, hrestDraws.symm.trans hmoreDraws⟩

theorem tradeBetween_keyed (hL : L.Keyed) (h : L.tradeBetween before after = .ok (drafts, L')) : L'.Keyed :=
  collect_invariant Keyed (fun _ _ _ _ _ hnow hrnd => processRows_keyed hnow hrnd) hL h

end Ledger

/-! ## Equity -/

namespace Ledger

variable {A B L L' M : Ledger} {drafts : List EventDraft} {shown more : List Shown}

/-- The rows found nothing at work and changed nothing, or they left the account balanced. -/
def Touched (L : Ledger) (shown : List Shown) (L' : Ledger) : Prop :=
  (L' = L ∧ ∀ row ∈ shown, L.hasActiveMarketState row.trackId = false) ∨
    (L'.Balanced ∧ ∃ row ∈ shown, L.hasActiveMarketState row.trackId = true)

theorem Touched.refl (L : Ledger) : Touched L [] L := .inl ⟨rfl, nofun⟩

theorem Touched.trans (h : Touched L shown M) (h' : Touched M more L') : Touched L (shown ++ more) L' := by
  rcases h with ⟨rfl, hquiet⟩ | ⟨hbalanced, row, hrow, hactv⟩
  · rcases h' with ⟨rfl, hquiet'⟩ | ⟨hbalanced, row, hrow, hactv⟩
    · exact .inl ⟨rfl, fun row hrow => (mem_append.mp hrow).elim (hquiet row) (hquiet' row)⟩
    · exact .inr ⟨hbalanced, row, mem_append_right _ hrow, hactv⟩
  · refine .inr ⟨?_, row, mem_append_left _ hrow, hactv⟩
    rcases h' with ⟨rfl, -⟩ | ⟨hbalanced', -⟩
    · exact hbalanced
    · exact hbalanced'

theorem Touched.of_mem (h : Touched L shown L') (hmem : ∀ row, row ∈ shown ↔ row ∈ more) : Touched L more L' := by
  rcases h with ⟨hsame, hquiet⟩ | ⟨hbalanced, row, hrow, hactv⟩
  · exact .inl ⟨hsame, fun row hrow => hquiet row ((hmem row).mpr hrow)⟩
  · exact .inr ⟨hbalanced, row, (hmem row).mp hrow, hactv⟩

theorem processRows_touched {t : Uuid} {symbol : String} {rows : List Bar} (h : L.processRows t symbol rows = .ok (drafts, L')) :
    Touched L (rows.map fun bar => ⟨t, symbol, bar⟩) L' := by
  unfold processRows at h
  split at h
  · rename_i hactv
    rcases eq_nil_or_concat rows with rfl | ⟨front, last, rfl⟩
    · cases h
      exact .refl _
    · -- the last row marks
      rw [concat_eq_append] at h ⊢
      obtain ⟨mid, more, hrnd⟩ := collect_last_ok h
      obtain ⟨_, _, _, final, -, -, -, rfl⟩ := processRow_ok hrnd
      refine .inr ⟨refreshEquity_balanced _, ⟨t, symbol, last⟩, ?_, hactv⟩
      exact mem_map_of_mem (mem_append_right _ mem_cons_self)
  · rename_i hinact
    cases h
    refine .inl ⟨rfl, fun row hrow => ?_⟩
    obtain ⟨bar, -, rfl⟩ := mem_map.mp hrow
    exact eq_false_of_not_eq_true hinact

theorem tradeBetween_touched {before after : List Track}
    (h : L.tradeBetween before after = .ok (drafts, L')) : Touched L (shownBetween before after) L' := by
  unfold tradeBetween at h
  unfold shownBetween
  generalize before.zip after = ways at h
  induction ways generalizing L drafts with
  | nil =>
    cases h
    exact .refl _
  | cons way ways ih =>
    obtain ⟨first, mid, later, hfs, hlat, -⟩ := collect_cons_ok h
    exact (processRows_touched hfs).trans (ih hlat)

theorem SameBooks.account (h : SameBooks A B) (hA : A.Balanced) (hB : B.Balanced) : A.account = B.account := by
  have hposs : A.positions.Perm B.positions := perm_of_ofKey fun k => (h.agree k).positions
  have hsum := (hposs.map (·.unrealizedPnl)).sum_eq
  have hsett := h.settings
  have hbal := h.balance
  unfold Ledger.balance at hbal
  cases hfs : A.account with
  | none =>
    rw [hfs, map_none, eq_comm, map_eq_none_iff] at hsett
    exact hsett.symm
  | some account =>
    rw [hfs, map_some, eq_comm, map_eq_some_iff] at hsett
    obtain ⟨other, hoth, hsame⟩ := hsett
    rw [hfs, hoth, map_some, map_some, getD_some, getD_some] at hbal
    have hequity : account.equity = other.equity := by
      rw [hA account hfs, hB other hoth, hbal, hsum]
    have hmade : ∀ row : AccountRow, row = { row.settings with balance := row.balance, equity := row.equity } := fun _ => rfl
    rw [hoth, hmade account, hmade other, hsame, hbal, hequity]

end Ledger

/-! ## Runs -/

inductive Playback.Played : Playback → List Command → Playback → Prop where
  | nil (p : Playback) : Played p [] p
  | cons {p mid q : Playback} {command : Command} {rest : List Command} :
      p.Plays command mid → Played mid rest q → Played p (command :: rest) q

namespace Playback

variable {p q mid : Playback} {command : Command} {commands : List Command}

structure RunShows (p : Playback) (commands : List Command) (q : Playback) (shown : List Shown) : Prop where
  played : List.Forall₂ Track.PlayedTo p.tracks q.tracks
  shows : ∀ k, ofKey (·.trackId) k shown = ofKey (·.trackId) k (shownBetween p.tracks q.tracks)
  traded : ∃ drafts M, p.ledger.processShown shown = .ok (drafts, M) ∧ Ledger.SameBooks q.ledger M ∧
    M.uuids = q.ledger.uuids
  repeats : ∀ N drafts M, Ledger.Keyed N → N.processShown shown = .ok (drafts, M) →
    ∃ final, Played ⟨p.session, p.tracks, N⟩ commands ⟨q.session, q.tracks, final⟩ ∧
      Ledger.SameBooks final M ∧ M.uuids = final.uuids

theorem plays_shows (hids : (p.tracks.map (·.id)).Nodup) (h : p.Plays command q) :
    Forall₂ Track.PlayedTo p.tracks q.tracks ∧
      (∃ drafts, p.ledger.tradeBetween p.tracks q.tracks = .ok (drafts, q.ledger)) ∧
      ∀ M drafts M', Ledger.tradeBetween M p.tracks q.tracks = .ok (drafts, M') →
        Plays ⟨p.session, p.tracks, M⟩ command ⟨q.session, q.tracks, M'⟩ := by
  obtain ⟨hplays, useLedger, now, moved, hrest, hmvd, rfl⟩ := h
  have hshows := transition_shows hrest hids hplays hmvd
  refine ⟨hshows.played, hshows.traded, fun M drafts M' hM => ?_⟩
  obtain ⟨other, hoth, hsess, htrks, hldg⟩ := hshows.repeats M drafts M' hM
  refine ⟨hplays, true, now, other, nofun, hoth, ?_⟩
  rw [← hsess, ← htrks, ← hldg]

theorem played_ids {before after : List Track} (h : Forall₂ Track.PlayedTo before after) :
    after.map (·.id) = before.map (·.id) := by
  induction h with
  | nil => rfl
  | cons hplayed _ ih => rw [map_cons, map_cons, ih, hplayed.kept.1]

theorem playedTo_trans {before between after : List Track} (h : Forall₂ Track.PlayedTo before between)
    (h' : Forall₂ Track.PlayedTo between after) : Forall₂ Track.PlayedTo before after := by
  induction h generalizing after with
  | nil => exact h'
  | cons hfs _ ih =>
    cases h' with
    | cons hfs' hrest' => exact .cons (hfs.trans hfs') (ih hrest')

/-- **What a run shows and trades, and that it can be run over any ledger that trades on it.** -/
theorem played_shows (hids : (p.tracks.map (·.id)).Nodup) (hkyd : p.ledger.Keyed)
    (h : Played p commands q) : ∃ shown, RunShows p commands q shown := by
  induction h with
  | nil p =>
    refine ⟨[], ?_, fun k => ?_, ⟨[], p.ledger, rfl, .refl _, rfl⟩, fun N drafts M _ hM => ?_⟩
    · rw [forall₂_same]
      exact fun _ _ => .inl rfl
    · rw [shownBetween_self]
    · cases hM
      exact ⟨N, .nil _, .refl _, rfl⟩
  | @cons p mid q command rest hplays _ ih =>
    obtain ⟨htrks, ⟨drafts, htrad⟩, haga⟩ := plays_shows hids hplays
    have hmidIds : (mid.tracks.map (·.id)).Nodup := by
      rw [played_ids htrks]
      exact hids
    have hmidKeyed := Ledger.tradeBetween_keyed hkyd htrad
    obtain ⟨shown, hshows⟩ := ih hmidIds hmidKeyed
    refine ⟨shownBetween p.tracks mid.tracks ++ shown, playedTo_trans htrks hshows.played, fun k => ?_,
      ?_, fun N entries M hN hM => ?_⟩
    · rw [ofKey_append, hshows.shows k, ← ofKey_append]
      exact ofKey_shownBetween_append hids htrks hshows.played k
    · obtain ⟨more, first, hfs, hfirstBooks, hfirstDraws⟩ := Ledger.tradeBetween_shown hkyd htrad
      obtain ⟨later, last, hlast, hlastBooks, hlastDraws⟩ := hshows.traded
      obtain ⟨final, hfinal, hfinalBooks, hfinDr⟩ := Ledger.processShown_same hmidKeyed
        (Ledger.processShown_keyed hkyd hfs) hfirstBooks hfirstDraws hlast
      exact ⟨more ++ later, final, Ledger.processShown_append.mpr ⟨more, first, later, hfs, hfinal, rfl⟩,
        hlastBooks.trans hfinalBooks, hfinDr.trans hlastDraws⟩
    · obtain ⟨first, between, later, hfs, hlat, -⟩ := Ledger.processShown_append.mp hM
      obtain ⟨more, N', htrd, hbooks, hdra⟩ := Ledger.shown_tradeBetween hN hfs
      have hN' := Ledger.tradeBetween_keyed hN htrd
      obtain ⟨M', hM', hM'Books, hM'Draws⟩ := Ledger.processShown_same
        (Ledger.processShown_keyed hN hfs) hN' hbooks.symm hdra.symm hlat
      obtain ⟨final, hrun, hfinalBooks, hfinDr⟩ := hshows.repeats N' later M' hN' hM'
      exact ⟨final, .cons (haga N more N' htrd) hrun, hfinalBooks.trans hM'Books.symm, hM'Draws.symm.trans hfinDr⟩

/-- A run leaves the account balanced, or nothing was at work on the tracks it moved. -/
theorem played_touched (hids : (p.tracks.map (·.id)).Nodup) (hkyd : p.ledger.Keyed) (h : Played p commands q) :
    Ledger.Touched p.ledger (shownBetween p.tracks q.tracks) q.ledger := by
  induction h with
  | nil =>
    rw [shownBetween_self]
    exact .refl _
  | @cons p mid q command rest hplays hrest ih =>
    obtain ⟨htrks, ⟨drafts, htrad⟩, -⟩ := plays_shows hids hplays
    have hmidIds : (mid.tracks.map (·.id)).Nodup := by
      rw [played_ids htrks]
      exact hids
    have hmidKeyed := Ledger.tradeBetween_keyed hkyd htrad
    obtain ⟨shown, hshows⟩ := played_shows hmidIds hmidKeyed hrest
    refine ((Ledger.tradeBetween_touched htrad).trans (ih hmidIds hmidKeyed)).of_mem fun row => ?_
    have hsame := ofKey_shownBetween_append hids htrks hshows.played row.trackId
    have hmem : ∀ rows : List Shown, row ∈ ofKey (·.trackId) row.trackId rows ↔ row ∈ rows := by
      intro rows
      unfold ofKey
      rw [mem_filter, and_iff_left (decide_eq_true rfl)]
    rw [← hmem, hsame, hmem]

/-- Tracks that have come equally far are the same. -/
theorem played_unique {before after other : List Track} (h : Forall₂ Track.PlayedTo before after)
    (h' : Forall₂ Track.PlayedTo before other)
    (hcursors : after.map (·.cursorSeq) = other.map (·.cursorSeq)) : after = other := by
  induction h generalizing other with
  | nil =>
    cases h'
    rfl
  | cons hplayed _ ih =>
    cases h' with
    | cons hplayed' hrest' =>
      obtain ⟨hcsr, hmore⟩ := cons.inj hcursors
      rw [hplayed.unique hplayed' hcsr, ih hrest' hmore]

/--
**Batching does not change results.**

The ids are random, so the second run is compared with the first when its ids are those of
the first, drawn in the order it needs them.
-/
theorem batching_same {start db : Database} {ok : Database → CommandInput → Prop}
    {commands others : List Command} {one other : Playback} (hprepared : Prepared start)
    (hfresh : Function.Injective start.ledger.uuids) (hreach : Reaches Database.command ok start db)
    (hone : Played ⟨db.session, db.tracks, db.ledger⟩ commands one)
    (hother : Played ⟨db.session, db.tracks, db.ledger⟩ others other)
    (hcursors : one.tracks.map (·.cursorSeq) = other.tracks.map (·.cursorSeq)) :
    one.tracks = other.tracks ∧ ∃ uuids final, Redraws db.ledger.uuids uuids ∧
      Played ⟨db.session, db.tracks, { db.ledger with uuids := uuids }⟩ others ⟨other.session, other.tracks, final⟩ ∧
      (∀ trackId, Ledger.Agree trackId one.ledger final) ∧ one.ledger.account = final.account := by
  have hids := reaches_distinct hprepared hreach
  have hkyd := reaches_keyed hprepared hfresh hreach
  obtain ⟨shown, hshows⟩ := played_shows hids hkyd hone
  obtain ⟨shown', hshows'⟩ := played_shows hids hkyd hother
  have htrks : one.tracks = other.tracks := played_unique hshows.played hshows'.played hcursors
  refine ⟨htrks, ?_⟩
  -- every track shows the same rows in both runs
  have hswapped : Swapped (·.trackId) shown shown' := swapped_of_ofKey fun k => by
    rw [hshows.shows, hshows'.shows, htrks]
  obtain ⟨drafts, M, hM, hMBooks, -⟩ := hshows.traded
  obtain ⟨uuids, more, N, hred, hN, hNBooks, -⟩ := Ledger.processShown_swapped hswapped hkyd hM
  obtain ⟨final, hrun, hfinalBooks, -⟩ := hshows'.repeats _ more N (hkyd.redraws hred) hN
  have hbooks := hMBooks.trans (hNBooks.trans hfinalBooks.symm)
  refine ⟨uuids, final, hred, hrun, hbooks.agree, ?_⟩
  -- the accounts are balanced, or neither run changed anything
  have htouched := played_touched hids hkyd hone
  have htouched' := played_touched (p := ⟨db.session, db.tracks, { db.ledger with uuids := uuids }⟩) hids (hkyd.redraws hred) hrun
  dsimp only at htouched htouched'
  rw [htrks] at htouched
  rcases htouched with ⟨hsame, hquiet⟩ | ⟨hbalanced, row, hrow, hactv⟩
  · rcases htouched' with ⟨hsame', -⟩ | ⟨-, row, hrow, hactv⟩
    · rw [hsame, hsame']
    · exact absurd ((hquiet row hrow).symm.trans hactv) false_ne_true
  · rcases htouched' with ⟨-, hquiet⟩ | ⟨hbalanced', -⟩
    · exact absurd ((hquiet row hrow).symm.trans hactv) false_ne_true
    · exact hbooks.account hbalanced hbalanced'

/-! ## Two minutes at once -/

def play : Playback → List Command → Option Playback
  | p, [] => some p
  | p, command :: rest =>
    if command.playsOn then
      ((applyRuntimeTransitionTracks true p.session p.tracks p.ledger 0 command).toOption).bind
        fun moved => play ⟨moved.session, moved.tracks, moved.ledger⟩ rest
    else none

theorem played_of_play (h : p.play commands = some q) : Played p commands q := by
  induction commands generalizing p with
  | nil =>
    cases h
    exact .nil _
  | cons command rest ih =>
    rw [play] at h
    split at h
    · rename_i hplays
      obtain ⟨moved, hmvd, hrest⟩ := bind_eq_some_iff.mp h
      exact .cons ⟨hplays, true, 0, moved, nofun, toOption_some hmvd, rfl⟩ (ih hrest)
    · cases h

/-- Three minutes of two tracks. -/
def pairedMinutes : Database :=
  minuteSession [minuteTrack 0 [1, 3, 2] (List.cons_ne_nil _ _),
    minuteTrack 1 [2, 2, 4] (List.cons_ne_nil _ _)] none (Ledger.create "USD" 100 ⟨"", none⟩ id)

theorem pairedMinutes_prepared : Prepared pairedMinutes := by
  refine minuteSession_prepared (by decide) (by decide) ?_ (.inl ⟨_, _, _, _, rfl⟩)
  intro track htrk
  rcases mem_cons.mp htrk with rfl | htrk
  · exact minuteTrack_onClock _ _ _
  · rw [mem_singleton.mp htrk]
    exact minuteTrack_onClock _ _ _

/-- A request to buy two units of the first track, to be closed at three. -/
def buyPaired : CommandInput :=
  clientCommand "buy" (.placeOrder
    (some ⟨"buy-1", some 0, "buy", "market", 2, none, none, some 3, none⟩))

/-- Two minutes at once or one after the other close the position at its target. -/
theorem two_minutes_batched : ∃ db one other, Reaches Database.command always pairedMinutes db ∧
    Played ⟨db.session, db.tracks, db.ledger⟩ [.step (some 2)] one ∧
    Played ⟨db.session, db.tracks, db.ledger⟩ [.step (some 1), .step (some 1)] other ∧
    one.ledger.fills.length = 2 ∧ one.tracks = other.tracks ∧ ∃ uuids final, Redraws db.ledger.uuids uuids ∧
      Played ⟨db.session, db.tracks, { db.ledger with uuids := uuids }⟩ [.step (some 1), .step (some 1)]
        ⟨other.session, other.tracks, final⟩ ∧
      (∀ trackId, Ledger.Agree trackId one.ledger final) ∧ one.ledger.account = final.account := by
  have hrun : ((exec Database.command (fun _ _ => true) pairedMinutes [buyPaired]).bind fun db =>
      (play ⟨db.session, db.tracks, db.ledger⟩ [.step (some 2)]).bind fun one =>
        (play ⟨db.session, db.tracks, db.ledger⟩ [.step (some 1), .step (some 1)]).map fun other =>
          (one.tracks.map (·.cursorSeq), other.tracks.map (·.cursorSeq), one.ledger.fills.length)) =
      some ([2, 2], [2, 2], 2) := by decide +kernel
  obtain ⟨db, hexec, hrun⟩ := bind_eq_some_iff.mp hrun
  obtain ⟨one, hone, hrun⟩ := bind_eq_some_iff.mp hrun
  obtain ⟨other, hoth, hfnd⟩ := map_eq_some_iff.mp hrun
  rw [Prod.mk.injEq, Prod.mk.injEq] at hfnd
  obtain ⟨hcursors, hcursors', hfills⟩ := hfnd
  have hrch := reaches_exec hexec
  have hone' := played_of_play hone
  have hother' := played_of_play hoth
  exact ⟨db, one, other, hrch, hone', hother', hfills, batching_same pairedMinutes_prepared
    Function.injective_id hrch hone' hother' (hcursors.trans hcursors'.symm)⟩

end Playback

end MarketLens.Replay
