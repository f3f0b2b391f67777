import MarketLens.Replay.Equity

/-!
# Marks and equity of a session

Runs of steps and trade commands. The equity of the account is right in all of
them. The marks of the open positions are right as long as a step that leaves the
ledger alone finds no position open, and a fill at the close under the cursor leaves
no older part of a position with another average price.
-/

namespace MarketLens.Replay

open List Journal Bool Ledger Database Fallible Table Runs

/-- Every open position stands on one of the tracks, marked at the close under its cursor. -/
def MarkedOn (tracks : List Track) (ledger : Ledger) : Prop :=
  ∀ p ∈ ledger.positions, p.netQuantity ≠ 0 → ∃ track ∈ tracks, track.id = p.trackId ∧
    ∃ bar, track.dataset.barBySeq track.cursorSeq = some bar ∧ p.unrealizedPnl = p.mark bar.close

/-- A fill of a market that leaves no part of an older position at another price than its own. -/
def Ledger.LeavesNoOlder (ledger : Ledger) (trackId : Uuid) (symbol : String) (signed : Int)
    (price : Decimal) : Prop :=
  ∀ p ∈ ledger.positions, p.trackId = trackId → p.symbol = symbol →
    sameSign p.netQuantity (p.netQuantity + signed) = true → p.averagePrice = price

/-- Commands that step, trade, or leave the clock and the ledger: all but the seeks and the reset. -/
def Command.isPlain : Command → Bool
  | .seek _ | .restart _ | .resetTrading => false
  | _ => true

/-- A market order or a close leaves no older part of the position it fills at a price other than
the close under the cursor. -/
def FillsWhole (tracks : List Track) (ledger : Ledger) : Command → Prop
  | .placeOrder (some body) => parseOrderType body.orderType = some .market →
      ∀ side, parseSide body.side = some side →
        ∀ track ∈ tracks, (∀ id, body.trackId = some id → id = track.id) →
          ∀ bar, track.dataset.barBySeq track.cursorSeq = some bar →
            ledger.LeavesNoOlder track.id track.symbol (side.signed (toUnits body.quantity)) bar.close
  | .closePosition (some body) => ∀ p ∈ ledger.positions, body.positionId = some p.id →
      ∀ track ∈ tracks, track.id = p.trackId →
        ∀ bar, track.dataset.barBySeq track.cursorSeq = some bar →
          ledger.LeavesNoOlder p.trackId p.symbol ((Ledger.closingSide p.netQuantity).signed
            (toUnits (Ledger.closeQuantity body p.netQuantity))) bar.close
  | _ => True

/-- A command that keeps the marks right: neither a seek nor the reset, a step that leaves the
ledger alone only over flat positions, and only fills that leave nothing older behind. -/
structure KeepsMarks (db : Database) (input : CommandInput) : Prop where
  plain : input.command.isPlain = true
  idle : canReuseIdleTradingProjection input = true → ∀ p ∈ db.ledger.positions, p.netQuantity = 0
  whole : FillsWhole db.tracks db.ledger input.command

/-! ## Steps -/

/-- What a step leaves of a position: marked at the row its track moved to, or as it was, on a
track that did not move. -/
def SteppedPosition (pairs : List (Track × Bar)) (ledger : Ledger) (q : PositionRow) : Prop :=
  (∃ pair ∈ pairs, pair.1.id = q.trackId ∧ pair.1.cursorSeq < pair.2.seq ∧
      (q.netQuantity ≠ 0 → q.unrealizedPnl = q.mark pair.2.close)) ∨
    (q ∈ ledger.positions ∧ ∀ pair ∈ pairs, pair.1.id = q.trackId → pair.2.seq ≤ pair.1.cursorSeq)

variable {batch : Bool} {ledger : Ledger}

theorem revealRows_marks {track : Track} {selected : Bar}
    {revealed : Revealed} (h : ledger.Booked) (hsel : selected ∈ track.dataset.bars)
    (hreveal : revealRows true batch track selected ledger = .ok revealed) :
    revealed.ledger.Booked ∧ ∀ q ∈ revealed.ledger.positions, SteppedPosition [(track, selected)] ledger q := by
  rcases revealRows_ok hreveal with ⟨hle, rfl⟩ | ⟨hlt, -, -, htrd⟩
  · refine ⟨h, fun q hq => .inr ⟨hq, fun pair hpair _ => ?_⟩⟩
    rw [mem_singleton.mp hpair]
    exact hle
  · obtain ⟨front, hrows⟩ := Dataset.barsBySeqRange_last hsel hlt
    unfold tradeRows Track.revealedBy at htrd
    rw [if_pos rfl, hrows] at htrd
    obtain ⟨hbooked, htouches, hmarks⟩ := processRows_marks h htrd
    refine ⟨hbooked, fun q hq => ?_⟩
    by_cases htrk : q.trackId = track.id
    · exact .inl ⟨_, mem_cons_self, htrk.symm, hlt, hmarks q hq htrk⟩
    · refine .inr ⟨htouches q hq htrk, fun pair hpair hid => ?_⟩
      rw [mem_singleton.mp hpair] at hid
      exact absurd hid.symm htrk

variable {ledger after : Ledger} {revealed : List Revealed}

theorem reveal_marks {pairs : List (Track × Bar)} (h : ledger.Booked) (hsel : ∀ pair ∈ pairs, pair.2 ∈ pair.1.dataset.bars)
    (hreveal : collect (revealTrack true batch) ledger pairs = .ok (revealed, after)) :
    after.Booked ∧ ∀ q ∈ after.positions, SteppedPosition pairs ledger q := by
  induction pairs generalizing ledger revealed with
  | nil =>
    cases hreveal
    exact ⟨h, fun q hq => .inr ⟨hq, fun _ hnone => by cases hnone⟩⟩
  | cons next rest ih =>
    obtain ⟨first, mid, more, hfs, hmore, -⟩ := collect_cons_ok hreveal
    obtain ⟨shown, -, rfl, hrows⟩ := revealTrack_ok hfs
    obtain ⟨hmid, hhead⟩ := revealRows_marks h (hsel next mem_cons_self) hrows
    obtain ⟨haft, htail⟩ := ih hmid (fun pair hpair => hsel pair (mem_cons_of_mem _ hpair)) hmore
    refine ⟨haft, fun q hq => ?_⟩
    rcases htail q hq with ⟨pair, hpair, hid, hmvd, hmark⟩ | ⟨hq, hrest⟩
    · exact .inl ⟨pair, mem_cons_of_mem _ hpair, hid, hmvd, hmark⟩
    · rcases hhead q hq with ⟨pair, hpair, hid, hmvd, hmark⟩ | ⟨hold, hstill⟩
      · rw [mem_singleton] at hpair
        exact .inl ⟨pair, hpair ▸ mem_cons_self, hid, hmvd, hmark⟩
      · refine .inr ⟨hold, fun pair hpair hid => ?_⟩
        rcases mem_cons.mp hpair with hpair | hpair
        · exact hstill pair (mem_singleton.mpr hpair) hid
        · exact hrest pair hpair hid

variable {tracks : List Track}

/-- A step that trades leaves the positions marked at the rows it reached. -/
theorem stepped_marked {selected : List Bar} {target : Int} (h : ledger.Booked) (hmarked : MarkedOn tracks ledger)
    (hsel : Forall₂ (fun track bar => track.dataset.LastRowAt target bar) tracks selected)
    (hreveal : collect (revealTrack true batch) ledger (tracks.zip selected) = .ok (revealed, after)) :
    MarkedOn (revealed.map (·.track)) after := by
  have hrows : ∀ pair ∈ tracks.zip selected, pair.2 ∈ pair.1.dataset.bars :=
    fun pair hpair => (forall₂_zip hsel hpair).mem
  have hshn := (revealed_tracks hreveal).flip
  intro p hp hopen
  rcases (reveal_marks h hrows hreveal).2 p hp with ⟨pair, hpair, hid, hmvd, hmark⟩ | ⟨hold, hstill⟩
  · obtain ⟨shown, hmem, hsame, hcsr, -⟩ := forall₂_mem_right hshn hpair
    refine ⟨shown, hmem, hsame.id.trans hid, pair.2, ?_, hmark hopen⟩
    rw [hsame.dataset, hcsr, Nat.max_eq_right hmvd.le]
    exact Dataset.barBySeq_of_mem (hrows pair hpair)
  · obtain ⟨track, htrk, hid, bar, hbar, hmark⟩ := hmarked p hold hopen
    obtain ⟨row, hpair⟩ : ∃ row, (track, row) ∈ tracks.zip selected := by
      obtain ⟨i, hi, rfl⟩ := getElem_of_mem htrk
      have hlen : i < selected.length := hsel.length_eq ▸ hi
      refine ⟨selected[i], ?_⟩
      rw [← getElem_zip (h := by rw [length_zip]; omega)]
      exact getElem_mem _
    obtain ⟨shown, hmem, -, -, hsame⟩ := forall₂_mem_right hshn hpair
    refine ⟨shown, hmem, ?_⟩
    rw [hsame (hstill _ hpair hid)]
    exact ⟨hid, bar, hbar, hmark⟩

/-- A step that does not trade. -/
theorem reveal_idle {pairs : List (Track × Bar)}
    (hreveal : collect (revealTrack false batch) ledger pairs = .ok (revealed, after)) :
    after = ledger := by
  refine collect_invariant (fun now => now = ledger) ?_ rfl hreveal
  intro now next entries after _ hsame hrnd
  obtain ⟨shown, -, rfl, hrows⟩ := revealTrack_ok hrnd
  rcases revealRows_ok hrows with ⟨-, rfl⟩ | ⟨-, -, -, htrd⟩
  · exact hsame
  · have hsec := (Prod.mk.inj (Except.ok.inj htrd)).2
    exact hsec.symm.trans hsame

/-! ## Trade commands -/

section Trade

variable {session : Session} {track : Track} {tracks : List Track} {ledger after : Ledger}
  {drafts : List EventDraft}

theorem MarkedOn.of_positions (h : MarkedOn tracks ledger)
    (hsame : after.positions = ledger.positions) : MarkedOn tracks after := by
  unfold MarkedOn
  rw [hsame]
  exact h

theorem fill_marked {fill : Ledger.FillRequest} {bar : Bar} (h : MarkedOn tracks ledger)
    (htrk : track ∈ tracks) (hid : fill.trackId = track.id)
    (hbar : track.dataset.barBySeq track.cursorSeq = some bar) (hprc : fill.price = bar.close)
    (holder : ledger.LeavesNoOlder fill.trackId fill.symbol (fill.side.signed fill.qty) fill.price)
    (hfill : ledger.fillOrder fill = .ok (drafts, after)) : MarkedOn tracks after := by
  obtain ⟨hqty, -, ⟨-, -, rfl⟩ | ⟨row, p, position, realized, base, hfld⟩⟩ :=
    fillOrder_ok hfill
  · exact h
  intro q hq hopen
  rcases hfld.mem_positions hq with rfl | hold
  · refine ⟨track, htrk, hid.symm.trans hfld.position_track.symm, bar, hbar, ?_⟩
    rw [hfld.position_eq, filled_same.2.2.2, ← hprc]
    refine ((filled_mark_eq_zero hqty).mpr fun hkept => ?_).symm
    have happ := hfld.applies
    cases happ with
    | found mem track market => exact holder p mem track market hkept
    | opened _ _ empty =>
      -- a new position has no older part
      rw [empty, sameSign_iff] at hkept
      unfold emptyPosition at hkept
      dsimp only at hkept
      omega
  · exact h q hold hopen

theorem opened_marked {order : OrderRow} {id : Uuid} {placed : Ledger} {fill : Ledger.FillRequest}
    {bar : Bar} (h : MarkedOn tracks ledger)
    (hins : Ledger.Inserted ledger order id placed) (htrk : track ∈ tracks)
    (hid : fill.trackId = track.id) (hbar : track.dataset.barBySeq track.cursorSeq = some bar)
    (hprc : fill.price = bar.close)
    (holder : ledger.LeavesNoOlder fill.trackId fill.symbol (fill.side.signed fill.qty) fill.price)
    (hfill : placed.fillOrder fill = .ok (drafts, after)) : MarkedOn tracks after := by
  have hposs : placed.positions = ledger.positions := by rw [hins.rows]
  refine fill_marked (h.of_positions hposs) htrk hid hbar hprc ?_ hfill
  unfold Ledger.LeavesNoOlder
  rw [hposs]
  exact holder

end Trade

section Trade

variable {session : Session} {track : Track} {tracks : List Track} {ledger after : Ledger}
  {drafts : List EventDraft} {command : Command}

theorem FillsWhole.of_positions (h : FillsWhole tracks ledger command)
    (hsame : after.positions = ledger.positions) : FillsWhole tracks after command := by
  cases command with
  | placeOrder payload | closePosition payload =>
    cases payload with
    | none => trivial
    | some =>
      unfold FillsWhole Ledger.LeavesNoOlder at h ⊢
      rw [hsame]
      exact h
  | _ => trivial

/-- A new bracket changes neither what a position is worth nor what it holds. -/
theorem update_marked {payload : Option UpdateBody} (h : MarkedOn tracks ledger)
    (hupdate : ledger.updateBracket payload = .ok (drafts, after)) : MarkedOn tracks after := by
  obtain ⟨id, trackId, sl, tp, -, rfl⟩ := updateBracket_ok hupdate
  intro q hq hopen
  rcases updateWhere_cases hq with ⟨hold, -⟩ | ⟨old, hold, -, rfl⟩
  · exact h q hold hopen
  · exact h old hold hopen

theorem update_booked {payload : Option UpdateBody} (h : ledger.Booked)
    (hupdate : ledger.updateBracket payload = .ok (drafts, after)) : after.Booked := by
  obtain ⟨id, trackId, sl, tp, -, rfl⟩ := updateBracket_ok hupdate
  constructor
  · rw [map_updateWhere_of]
    · exact h.distinct
    · exact fun _ _ => rfl
  · intro account hacct
    rw [map_updateWhere_of]
    · exact h.balanced account hacct
    · exact fun _ _ => rfl

/-- Every trade command but the reset keeps the account balanced. -/
theorem trade_booked (hplain : command.isPlain = true) (h : ledger.Booked) (htrd : command.isTrade = true)
    (hop : tradeLedger session track ledger command = .ok (drafts, after)) : after.Booked := by
  cases command with
  | placeOrder =>
    rw [tradeLedger, bind_ok] at hop
    obtain ⟨view, -, hpl⟩ := hop
    obtain ⟨order, id, placed, -, hins, ⟨-, -, rfl⟩ | ⟨filled, -, hfill, -⟩⟩ :=
      place_ok hpl
    · exact (hins.booked h).1
    · exact (fillOrder_booked hfill (hins.booked h).1).1
  | closePosition =>
    rw [tradeLedger, bind_ok] at hop
    obtain ⟨view, -, hclose⟩ := hop
    obtain ⟨body, p, clientOrderId, id, placed, filled, -, -, -, -, hins, hfill, -⟩ :=
      closePosition_ok hclose
    exact (fillOrder_booked hfill (hins.booked h).1).1
  | cancelOrder =>
    obtain ⟨id, -, rfl⟩ := cancel_ok hop
    exact h.of_rows rfl rfl
  | updateOrder => exact update_booked h hop
  | resetTrading => cases hplain
  | _ => cases htrd

/-- Every trade command but the reset keeps the marks, if its fill leaves nothing older behind. -/
theorem trade_marked (hplain : command.isPlain = true) (hwho : FillsWhole tracks ledger command)
    (h : MarkedOn tracks ledger) (htrk : track ∈ tracks) (htrd : command.isTrade = true)
    (hop : tradeLedger session track ledger command = .ok (drafts, after)) :
    MarkedOn tracks after := by
  cases command with
  | placeOrder =>
    rw [tradeLedger, bind_ok] at hop
    obtain ⟨view, hview, hpl⟩ := hop
    obtain ⟨hid, hsym, -, hbar⟩ := marketView_ok hview
    obtain ⟨order, id, placed, hreqd, hins, ⟨-, -, rfl⟩ | ⟨filled, hmkt, hfill, -⟩⟩ :=
      place_ok hpl
    · exact h.of_positions (by rw [hins.rows])
    · obtain ⟨body, rfl, hside, htype, hqnt, hnamed⟩ := hreqd.body
      rw [hmkt] at htype
      rw [hid] at hnamed
      have holder := hwho htype order.side hside track htrk hnamed view.bar hbar
      refine opened_marked h hins htrk hid hbar rfl ?_ hfill
      rw [hqnt, hid, hsym]
      exact holder
  | closePosition =>
    rw [tradeLedger, bind_ok] at hop
    obtain ⟨view, hview, hclose⟩ := hop
    obtain ⟨hid, -, -, hbar⟩ := marketView_ok hview
    obtain ⟨body, p, clientOrderId, id, placed, filled, rfl, hposn, hp, hptrack, hins, hfill, -⟩ := closePosition_ok hclose
    have hptrack : p.trackId = track.id := hptrack.trans hid
    refine opened_marked h hins htrk hptrack hbar rfl ?_ hfill
    exact hwho p hp hposn track htrk hptrack.symm view.bar hbar
  | cancelOrder =>
    obtain ⟨id, -, rfl⟩ := cancel_ok hop
    exact h.of_positions rfl
  | updateOrder => exact update_marked h hop
  | resetTrading => cases hplain
  | _ => cases htrd

end Trade

/-! ## One command -/

section Command

variable {db db' : Database} {input : CommandInput} {result : CommandResult} {claimed : Session}
  {moved : Moved}

theorem not_sought_of_plain {session : Session} {target : Int × Bool} (hplain : input.command.isPlain = true) :
    seekTarget session input.command ≠ .ok target := by
  intro hseek
  cases hcmd : input.command <;> rw [hcmd] at hplain hseek <;> cases hplain <;> cases hseek

theorem recordEquity_booked (h : ledger.Booked) (seq : Nat) (at_ : Int) : (ledger.recordEquity seq at_).Booked := by
  unfold recordEquity
  split
  · exact h
  · exact h.of_rows rfl rfl

theorem recordEquity_marked (h : MarkedOn tracks ledger)
    (seq : Nat) (at_ : Int) : MarkedOn tracks (ledger.recordEquity seq at_) := by
  unfold recordEquity
  split
  · exact h
  · exact h.of_positions rfl

theorem Committed.moved_booked (hplain : input.command.isPlain = true) (hbooked : db.ledger.Booked)
    (h : Committed db input result db' claimed moved) : moved.ledger.Booked := by
  have hdrawn : ({ db.ledger with uuids := db.ledger.drawn } : Ledger).Booked :=
    hbooked.of_rows rfl rfl
  cases h.moves with
  | kept _ _ _ sameLedger =>
    rw [sameLedger]
    exact hdrawn
  | stepped count batch selected target revealed steps resolved reveals =>
    cases hidle : canReuseIdleTradingProjection input with
    | false =>
      rw [hidle] at reveals
      refine (reveal_marks hdrawn (fun pair hpair => ?_) reveals).1
      exact (forall₂_zip (resolveReplayStepTarget_ok resolved).1 hpair).mem
    | true =>
      rw [hidle] at reveals
      rw [reveal_idle reveals]
      exact hdrawn
  | sought _ _ _ seeks => exact absurd seeks (not_sought_of_plain hplain)
  | traded track drafts trades hasLedger enabled onTrack operates =>
    exact trade_booked hplain hdrawn trades operates

theorem Committed.moved_marked (hkeeps : KeepsMarks db input) (hbooked : db.ledger.Booked)
    (hmarked : MarkedOn db.tracks db.ledger) (h : Committed db input result db' claimed moved) :
    MarkedOn moved.tracks moved.ledger := by
  have hfnd : MarkedOn db.tracks { db.ledger with uuids := db.ledger.drawn } :=
    hmarked.of_positions rfl
  cases h.moves with
  | kept _ _ sameTracks sameLedger =>
    rw [sameTracks, sameLedger]
    exact hfnd
  | stepped count batch selected target revealed steps resolved reveals shown =>
    rw [shown]
    cases hidle : canReuseIdleTradingProjection input with
    | false =>
      rw [hidle] at reveals
      have hdrawn : ({ db.ledger with uuids := db.ledger.drawn } : Ledger).Booked :=
        hbooked.of_rows rfl rfl
      exact stepped_marked hdrawn hfnd (resolveReplayStepTarget_ok resolved).1 reveals
    | true =>
      rw [hidle] at reveals
      rw [reveal_idle reveals]
      exact fun p hp hopen => absurd (hkeeps.idle hidle p hp) hopen
  | sought _ _ _ seeks => exact absurd seeks (not_sought_of_plain hkeeps.plain)
  | traded track drafts trades hasLedger enabled onTrack operates sameTracks =>
    rw [sameTracks]
    have hwho : FillsWhole db.tracks { db.ledger with uuids := db.ledger.drawn } input.command :=
      hkeeps.whole.of_positions rfl
    exact trade_marked hkeeps.plain hwho hfnd onTrack trades operates

theorem command_booked (hids : (db.tracks.map (·.id)).Nodup) (hplain : input.command.isPlain = true)
    (hbooked : db.ledger.Booked) (h : db.command input = some db') : db'.ledger.Booked := by
  obtain ⟨response, hcs⟩ := commanded_of_command hids h
  cases hcs with
  | unmoved _ same =>
    obtain ⟨uuids, hldg⟩ := same.ledger
    rw [hldg]
    exact hbooked.of_rows rfl rfl
  | committed _ _ commits =>
    exact commits.stored (fun _ _ ledger => ledger.Booked) (hbooked.of_rows rfl rfl)
      (commits.moved_booked hplain hbooked) fun _ _ _ seq at_ h => recordEquity_booked h seq at_

theorem command_marked (hids : (db.tracks.map (·.id)).Nodup) (hkeeps : KeepsMarks db input)
    (hbooked : db.ledger.Booked) (hmarked : MarkedOn db.tracks db.ledger)
    (h : db.command input = some db') : MarkedOn db'.tracks db'.ledger := by
  obtain ⟨response, hcs⟩ := commanded_of_command hids h
  cases hcs with
  | unmoved _ same =>
    obtain ⟨uuids, hldg⟩ := same.ledger
    rw [same.tracks, hldg]
    exact hmarked.of_positions rfl
  | committed _ _ commits =>
    exact commits.stored (fun _ tracks ledger => MarkedOn tracks ledger) (hmarked.of_positions rfl)
      (commits.moved_marked hkeeps hbooked hmarked) fun _ _ _ seq at_ h => recordEquity_marked h seq at_

end Command

/-! ## Runs -/

section Runs

variable {start : Database}

theorem prepared_booked (h : Prepared start) : start.ledger.Booked ∧ start.ledger.positions = [] := by
  rcases h.account with ⟨currency, equity, commission, uuids, hldg⟩ | ⟨uuids, hldg⟩ <;>
    rw [hldg]
  · refine ⟨⟨nodup_nil, fun account hacct => ?_⟩, rfl⟩
    cases hacct
    exact (add_zero _).symm
  · exact ⟨⟨nodup_nil, fun account hacct => by cases hacct⟩, rfl⟩

/--
**Equity is balance and what is unrealized in every run of steps and trade commands;
the marks are right in every state of one whose commands keep them.**
-/
theorem equity_and_marks (hprepared : Prepared start) :
    (∀ db, Reaches Database.command (fun _ input => input.command.isPlain = true) start db → db.ledger.Balanced) ∧
    ∀ db, Reaches Database.command KeepsMarks start db → MarkedOn db.tracks db.ledger := by
  obtain ⟨hbooked, hemp⟩ := prepared_booked hprepared
  have hplain : ∀ db, Reaches command (fun _ input => input.command.isPlain = true) start db →
      (db.tracks.map (·.id)).Nodup ∧ db.ledger.Booked := by
    intro db hrun
    refine hrun.invariant (fun db => (db.tracks.map (·.id)).Nodup ∧ db.ledger.Booked) ⟨hprepared.distinct, hbooked⟩ ?_
    intro db input db' ⟨hids, hldg⟩ hcmd hstep
    exact ⟨command_distinct hids hstep, command_booked hids hcmd hldg hstep⟩
  refine ⟨fun db hrun => (hplain db hrun).2.balanced, fun db hrun => ?_⟩
  have hmarks : ((db.tracks.map (·.id)).Nodup ∧ db.ledger.Booked) ∧ MarkedOn db.tracks db.ledger := by
    refine hrun.invariant (fun db => ((db.tracks.map (·.id)).Nodup ∧ db.ledger.Booked) ∧
      MarkedOn db.tracks db.ledger) ⟨⟨hprepared.distinct, hbooked⟩, ?_⟩ ?_
    · unfold MarkedOn
      rw [hemp]
      exact nofun
    · intro db input db' ⟨⟨hids, hldg⟩, hmarked⟩ hkeeps hstep
      exact ⟨⟨command_distinct hids hstep, command_booked hids hkeeps.plain hldg hstep⟩,
        command_marked hids hkeeps hldg hmarked hstep⟩
  exact hmarks.2

end Runs

/-! ## A partial close -/

/-- Two minutes of one track, at one and then at three, in a session that trades. -/
def risingMinutes : Database :=
  minuteSession [minuteTrack 0 [1, 3] (List.cons_ne_nil _ _)] none
    (Ledger.create "USD" 100 ⟨"", none⟩ id)

theorem risingMinutes_prepared : Prepared risingMinutes := by
  refine minuteSession_prepared (by decide) (by decide) ?_ (.inl ⟨_, _, _, _, rfl⟩)
  intro track htrk
  rw [mem_singleton.mp htrk]
  exact minuteTrack_onClock _ _ _

/-- A request to buy two units at the market. -/
def buyTwo : CommandInput :=
  clientCommand "buy" (.placeOrder (some ⟨"buy-1", none, "buy", "market", 2, none, none, none, none⟩))

/-- A request to close half of the position, whose id is the fourth one drawn. -/
def closeHalf : CommandInput :=
  clientCommand "close" (.closePosition (some ⟨some 3, none, 1 / 2, none⟩))

/-- Some open position is not marked at the close under the cursor of any track. -/
def wronglyMarked (db : Database) : Bool :=
  db.ledger.positions.any fun p => p.netQuantity ≠ 0 && !db.tracks.any fun track =>
    (track.dataset.barBySeq track.cursorSeq).any fun bar => p.unrealizedPnl = p.mark bar.close

theorem MarkedOn.not_wrongly {db : Database} (h : MarkedOn db.tracks db.ledger) : wronglyMarked db = false := by
  unfold wronglyMarked
  rw [any_eq_false]
  intro p hp hwrong
  rw [and_eq_true, decide_eq_true_iff, not_eq_true', any_eq_false] at hwrong
  obtain ⟨track, htrk, -, bar, hbar, hmark⟩ := h p hp hwrong.1
  refine hwrong.2 track htrk ?_
  rw [hbar, Option.any_some]
  exact decide_eq_true hmark

theorem fillsWhole_of_empty (h : ledger.positions = []) (command : Command) : FillsWhole tracks ledger command := by
  have hnone : ∀ trackId symbol signed price, ledger.LeavesNoOlder trackId symbol signed price := by
    unfold Ledger.LeavesNoOlder
    rw [h]
    exact nofun
  cases command with
  | placeOrder payload =>
    cases payload with
    | none => trivial
    | some => exact fun _ side _ track _ _ bar _ => hnone _ _ _ _
  | closePosition payload =>
    cases payload with
    | none => trivial
    | some => exact fun p _ _ track _ _ bar _ => hnone _ _ _ _
  | _ => trivial

theorem fillsWhole_of_step {command : Command} (h : command.isStep = true) : FillsWhole tracks ledger command := by
  cases command with
  | step | clockStep => trivial
  | _ => cases h

/-- Two units bought and carried to the next minute: worth two each, and marked so. -/
theorem carried_position_marked : ∃ db, Reaches Database.command KeepsMarks risingMinutes db ∧
    (db.ledger.positions.map fun p => (p.netQuantity, p.unrealizedPnl)) = [(20000000000, 4)] ∧
    MarkedOn db.tracks db.ledger := by
  have hrun : ((exec command (fun db input => input.command.isPlain
      && input.runtimeTrading.isNone && (db.ledger.positions.isEmpty || input.command.isStep))
      risingMinutes [buyTwo, clientCommand "step" (.step (some 1))]).map fun db =>
        db.ledger.positions.map fun p => (p.netQuantity, p.unrealizedPnl))
      = some [(20000000000, 4)] := by decide +kernel
  obtain ⟨db, hexec, htest⟩ := Option.map_eq_some_iff.mp hrun
  have hrch : Reaches command KeepsMarks risingMinutes db := by
    refine reaches_of_exec (fun db input h => ?_) hexec
    rw [and_eq_true, and_eq_true, or_eq_true, List.isEmpty_iff, Option.isNone_iff_eq_none] at h
    obtain ⟨⟨hplain, hnone⟩, hemp⟩ := h
    refine ⟨hplain, fun hidle => ?_, ?_⟩
    · unfold canReuseIdleTradingProjection at hidle
      rw [hnone, Option.any_none, Bool.and_false] at hidle
      cases hidle
    · rcases hemp with hemp | hstep
      · exact fillsWhole_of_empty hemp _
      · exact fillsWhole_of_step hstep
  exact ⟨db, hrch, htest, (equity_and_marks risingMinutes_prepared).2 db hrch⟩

/-- Two units bought at one, carried to three, and one of them closed: the other is marked at
nothing, though it is worth two. -/
theorem partial_close_unmarked : ¬ ∀ start db, Prepared start →
    Reaches Database.command (fun _ input => input.command.isPlain = true) start db →
    MarkedOn db.tracks db.ledger := by
  intro h
  have hrun : ((exec command (fun _ input => input.command.isPlain) risingMinutes
      [buyTwo, clientCommand "step" (.step (some 1)), closeHalf]).map wronglyMarked) = some true := by
    decide +kernel
  obtain ⟨db, hexec, htest⟩ := Option.map_eq_some_iff.mp hrun
  have hrch : Reaches command (fun _ input => input.command.isPlain = true)
      risingMinutes db := reaches_of_exec (fun _ _ hplain => hplain) hexec
  rw [(h _ db risingMinutes_prepared hrch).not_wrongly] at htest
  cases htest

end MarketLens.Replay
