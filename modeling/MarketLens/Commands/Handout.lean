import MarketLens.Commands.DeferredProof

/-!
# Handing commands out

A poll is the only statement that hands commands out, and what it hands out is
decided by five columns of the row. The other statements change those columns, each
in its own way. Two things they never do is to reopen a command that is over, or to
forget when it was first delivered; and a lease ends early only by its EA's report.
-/

namespace MarketLens.Commands

open List Option Bool Table QueueState Store Copier Fallible Runs

/-- The gateway has declared the outcome of the command unknown. -/
def gaveUp (row : TargetCommandRow) : Bool :=
  row.status = .unknown && row.rejectCode = some deliveryOutcomeUnknown

/-- A command one poll handed out: its row before, and to whom it went when. -/
structure Handout where
  session : EaSession
  time : Millis
  row : TargetCommandRow

/-- The commands a transaction hands out. -/
def handouts (s : QueueState) (action : QueueAction) (_ : QueueState) : List Handout :=
  match action with
  | .poll session now =>
    (leasable session.accountId now (expireStale session.accountId now s.tables)).map
      fun row => ⟨session, now, row⟩
  | _ => []

def reportsOn (id : String) : QueueAction → Bool
  | .acknowledge _ events _ => events.any fun event => (report event).any fun report =>
      report.commandId = id
  | _ => false

/-! ## What a poll hands out -/

/-- The command is over: it has its final outcome, or the gateway has given it up. -/
def Closed (row : TargetCommandRow) : Prop :=
  row.status ≠ .waiting ∧ (row.terminal = true ∨ gaveUp row = true)

variable {row : TargetCommandRow}

theorem Closed.not_deliverable (h : Closed row) : deliverable row = false := by
  unfold deliverable
  rcases h.2 with hterm | hgaveUp
  · rw [hterm]
    rfl
  · unfold gaveUp at hgaveUp
    rw [and_eq_true, decide_eq_true_iff, decide_eq_true_iff] at hgaveUp
    rw [hgaveUp.1, hgaveUp.2]
    simp

theorem open_of_deliverable (h : deliverable row = true) : row.terminal = false ∧ gaveUp row = false := by
  obtain ⟨hopen, hnot⟩ := deliverable_open h
  constructor
  · rw [← not_eq_true]
    intro hterm
    rw [Closed.not_deliverable ⟨hnot, .inl hterm⟩] at h
    cases h
  · rw [← not_eq_true]
    intro hgaveUp
    rw [Closed.not_deliverable ⟨hnot, .inr hgaveUp⟩] at h
    cases h

/-- What a poll leaves of a command it gives up on is over. -/
theorem expireDelivery_closed (now : Millis) (row : TargetCommandRow) : Closed (expireDelivery now row) := by
  unfold expireDelivery
  split
  · exact ⟨nofun, .inl rfl⟩
  · exact ⟨nofun, .inr rfl⟩

theorem fenceRow_closed (now : Millis) (row : TargetCommandRow) : Closed (fenceRow now row) := by
  unfold fenceRow
  split
  · exact ⟨nofun, .inl rfl⟩
  · exact ⟨nofun, .inr rfl⟩

theorem mem_handouts {s s' : QueueState} {action : QueueAction} {d : Handout}
    (h : d ∈ handouts s action s') : action = .poll d.session d.time ∧ d.row ∈ s.tables.commands ∧
      deliverable d.row = true ∧ d.time < deliveryDeadline d.row ∧ d.row.leaseFree d.time = true := by
  cases action with
  | poll session now =>
    obtain ⟨row, hrow, rfl⟩ := mem_map.mp h
    have hrow := mem_of_mem_take hrow
    rw [mem_insertionSort, mem_filter] at hrow
    simp only [and_eq_true, decide_eq_true_eq] at hrow
    obtain ⟨hmem, ⟨⟨⟨-, hdelv⟩, hearly⟩, -⟩, hfree⟩ := hrow
    refine ⟨rfl, ?_, hdelv, hearly, hfree⟩
    rcases updateWhere_cases hmem with ⟨hold, -⟩ | ⟨old, -, -, rfl⟩
    · exact hold
    · rw [(expireDelivery_closed now old).not_deliverable] at hdelv
      cases hdelv
  | _ => cases h

/-! ## What row steps keep -/

section RowStep

variable {stops : TargetCommandRow → Prop} {row row' : TargetCommandRow}

/-- A command that is over stays over. -/
theorem RowStep.closed (hclsd : Closed row) (h : RowStep stops row row') : Closed row' := by
  have hopen := hclsd.not_deliverable
  obtain ⟨hnot, hover⟩ := hclsd
  cases h with
  | expired now hdelv | leased sessionId now hdelv =>
    rw [hopen] at hdelv
    cases hdelv
  | held lease hwtg | released at' hwtg | activated order now hwtg | rejected code message now hwtg
  | waitExpired now hwtg => exact absurd hwtg hnot
  | @acknowledged event r accountId now hr hack =>
    refine ⟨fun hwtg => ?_, ?_⟩
    · rw [acknowledgeRow_status] at hwtg
      rcases report_status hr with hs | hs | hs <;> rw [hs] at hwtg <;> cases hwtg
    · unfold acknowledgeRow
      split
      · -- an ambiguous report finds no final outcome, so the gateway has given up, and it stands
        rename_i hunk
        have hopen := acknowledges_unknown hack hunk
        rcases hover with hterm | hgaveUp
        · rw [hopen] at hterm
          cases hterm
        · unfold gaveUp at hgaveUp ⊢
          rw [and_eq_true] at hgaveUp
          right
          rw [hgaveUp.2]
          rfl
      · exact .inl rfl
  | stopped => exact ⟨fun h => (by cases h), .inl rfl⟩
  | fenced now => exact fenceRow_closed now _

theorem RowStep.firstDelivered {first : Millis} (hfs : row.firstDeliveredAt = some first)
    (h : RowStep stops row row') : row'.firstDeliveredAt = some first := by
  cases h with
  | expired =>
    unfold expireDelivery
    split <;> exact hfs
  | leased =>
    unfold leaseTo
    rw [hfs]
    rfl
  | activated =>
    unfold activateRow
    split <;> exact hfs
  | acknowledged =>
    unfold acknowledgeRow
    split <;> exact hfs
  | fenced =>
    unfold fenceRow
    split <;> exact hfs
  | held | released | rejected | waitExpired | stopped => exact hfs

theorem closed_of_history (hclsd : Closed row) (h : Relation.ReflTransGen (RowStep stops) row row') : Closed row' := by
  induction h with
  | refl => exact hclsd
  | tail _ hstep ih => exact hstep.closed ih

theorem firstDelivered_of_history {first : Millis} (hfs : row.firstDeliveredAt = some first)
    (h : Relation.ReflTransGen (RowStep stops) row row') : row'.firstDeliveredAt = some first := by
  induction h with
  | refl => exact hfs
  | tail _ hstep ih => exact hstep.firstDelivered ih

end RowStep

/-! ## Leases -/

/-- No poll may take the command before `time`: it is leased until then or later, or over. -/
def HeldUntil (time : Millis) (row : TargetCommandRow) : Prop :=
  Closed row ∨ (row.status ≠ .waiting ∧ ∃ lease, row.lease = some lease ∧ time ≤ lease.2)

/-- A poll that takes a held command comes no sooner. -/
theorem HeldUntil.le_of_free {time now : Millis} (h : HeldUntil time row)
    (hdelv : deliverable row = true) (hfree : row.leaseFree now = true) : time ≤ now := by
  rcases h with hclsd | ⟨-, lease, hls, htime⟩
  · rw [hclsd.not_deliverable] at hdelv
    cases hdelv
  · unfold TargetCommandRow.leaseFree at hfree
    rw [hls, all_some, decide_eq_true_iff] at hfree
    exact htime.trans hfree

section Step

variable {s s' : QueueState} {action : QueueAction} {row : TargetCommandRow}

theorem held_of_poll {session : EaSession} {now time : Millis} (hids : UniqueIds s.tables)
    (h : s.step (.poll session now) = some s') (hrow : row ∈ s.tables.commands)
    (hheld : HeldUntil time row) :
    ∃ row' ∈ s'.tables.commands, row'.id = row.id ∧ HeldUntil time row' := by
  obtain ⟨commands, tables', hpoll, rfl⟩ := poll_step h
  have hcmds := (leaseCommands_ok hpoll).1
  have hids' := expireStale_ids hids session.accountId now
  have hstale : (expireStale session.accountId now s.tables).commands = Table.updateWhere
    (deliveryExpired session.accountId now) (expireDelivery now) s.tables.commands := rfl
  obtain ⟨kept, hkept, hid, hheld⟩ := row_of_updateWhere hstale hrow (expireDelivery_id now row)
    hheld fun _ => .inl (expireDelivery_closed now row)
  rw [← hid]
  refine row_of_updateWhere hcmds hkept rfl hheld fun hleas => ?_
  rw [List.contains_iff_mem, List.mem_map] at hleas
  obtain ⟨candidate, hcand, hsame⟩ := hleas
  have hfree := mem_of_mem_take hcand
  rw [mem_insertionSort, mem_filter] at hfree
  rw [hids'.eq_of_id hfree.1 hkept hsame] at hfree
  simp only [and_eq_true] at hfree
  obtain ⟨-, ⟨⟨⟨-, hdelv⟩, -⟩, -⟩, hfree⟩ := hfree
  -- `time` has come, and the new lease ends later still
  have htime := hheld.le_of_free hdelv hfree
  exact .inr ⟨(deliverable_open hdelv).2, (session.sessionId, now + commandLease), rfl,
    htime.trans (Nat.le_add_right now commandLease)⟩

/-- **Only a report on a command takes its lease away early.** -/
theorem held_step {time : Millis} (hids : UniqueIds s.tables)
    (hsilent : reportsOn row.id action = false) (h : s.step action = some s')
    (hrow : row ∈ s.tables.commands) (hheld : HeldUntil time row) :
    ∃ row' ∈ s'.tables.commands, row'.id = row.id ∧ HeldUntil time row' := by
  have hnot : row.status ≠ .waiting := by
    rcases hheld with hclsd | hleas
    · exact hclsd.1
    · exact hleas.1
  -- the row waits for no session, so the writes on deferred orders pass it by
  have hoth : ∀ (session : EaSession) (id : String), holdsWaiting session id row = true → False :=
    fun session id hwtg => hnot (holdsWaiting_waiting hwtg).2
  cases action with
  | pair | authenticate | heartbeat | manageTerminals | finalizeRejected | enqueue | deferOrder =>
    rcases addsOnly_rows rfl h with hc | ⟨parent, fresh, -, hinse⟩
    · exact row_of_eq hc hrow hheld
    · exact row_of_insert hinse hrow hheld
  | poll => exact held_of_poll hids h hrow hheld
  | acknowledge session events =>
    obtain ⟨tables', hbat, rfl⟩ := commit_some (asSession_some h)
    have hpass : ∀ event ∈ events, ∀ r, report event = some r → row.id ≠ r.commandId := by
      intro event hevt r hr hid
      have hnone := any_eq_false.mp hsilent event hevt
      rw [hr, any_some, decide_eq_true_iff] at hnone
      exact hnone hid.symm
    exact ⟨row, row_of_batch hpass hbat hrow, rfl, hheld⟩
  | leaseDeferred =>
    cases asSession_some h
    exact row_of_updateWhere rfl hrow rfl hheld fun hdue => absurd (waiting_of_due hids hrow hdue) hnot
  | releaseDeferred =>
    cases asSession_some h
    exact row_of_updateWhere rfl hrow rfl hheld fun hp => (hoth _ _ hp).elim
  | activateDeferred session order now =>
    cases asSession_some h
    refine row_of_updateWhere rfl hrow (activateRow_id order now row) hheld fun hp => ?_
    rw [and_eq_true, and_eq_true] at hp
    exact (hoth _ _ hp.1.1).elim
  | rejectDeferred =>
    cases asSession_some h
    refine row_of_updateWhere rfl hrow rfl hheld fun hp => ?_
    rw [and_eq_true] at hp
    exact (hoth _ _ hp.1).elim
  | expireDeferred =>
    cases h
    exact row_of_updateWhere rfl hrow rfl hheld fun _ => .inl ⟨nofun, .inl rfl⟩
  | manageAccount =>
    obtain ⟨tables', hmanage, rfl⟩ := commit_some h
    exact row_of_updateWhere (manageAccount_ok hmanage).1 hrow rfl hheld fun _ =>
      .inl ⟨nofun, .inl rfl⟩
  | disconnectManaged accountId expectedRevision now =>
    obtain ⟨tables', hdisc, rfl⟩ := map_eq_some_iff.mp h
    exact row_of_updateWhere (disconnectManaged_some hdisc).1 hrow (fenceRow_id now row) hheld
      fun _ => .inl (fenceRow_closed now row)

theorem handout_leases {d : Handout} (h : s.step action = some s')
    (hd : d ∈ handouts s action s') : ∃ row ∈ s'.tables.commands, row.id = d.row.id ∧
      row.status ≠ .waiting ∧ row.lease = some (d.session.sessionId, d.time + commandLease) ∧
      row.firstDeliveredAt = some (d.row.firstDeliveredAt.getD d.time) := by
  obtain ⟨rfl, -, hdelv, -⟩ := mem_handouts hd
  obtain ⟨commands, tables', hpoll, rfl⟩ := poll_step h
  obtain ⟨candidate, hcand, hsame⟩ := mem_map.mp hd
  have hrow : candidate = d.row := congrArg Handout.row hsame
  rw [hrow] at hcand
  have hmem := (mem_leasable hcand).1
  refine ⟨leaseTo d.session.sessionId d.time d.row, ?_, rfl, (deliverable_open hdelv).2, rfl, rfl⟩
  have hcmds := (leaseCommands_ok hpoll).1
  rw [show (s.withTables tables').tables.commands = tables'.commands from rfl, hcmds]
  refine updated_mem hmem ?_
  rw [contains_iff_mem]
  exact mem_map.mpr ⟨d.row, hcand, rfl⟩

/-- A command that is waiting has not been handed out, and has no outcome. -/
structure Waits (tables : CommandTables) : Prop where
  ids : UniqueIds tables
  waits : ∀ row ∈ tables.commands, row.status = .waiting →
    row.firstDeliveredAt = none ∧ row.terminalAckAt = none

theorem Waits.empty : Waits .empty := ⟨nodup_nil, forall_mem_nil _⟩

theorem Waits.step (hinv : Waits s.tables) (h : s.step action = some s') : Waits s'.tables := by
  obtain ⟨hrows, hids⟩ := step_rows hinv.ids h
  refine ⟨hids, fun row' hrow' hwtg => ?_⟩
  rcases hrows.back row' hrow' with hfsh | ⟨row, hrow, hhist⟩
  · cases hfsh <;> exact ⟨rfl, rfl⟩
  obtain ⟨hbef, hdlvd, hsttl⟩ := waiting_of_history hhist hwtg
  rw [hdlvd, hsttl]
  exact hinv.waits row hrow hbef

theorem Waits.closed (hinv : Waits s.tables) (hrow : row ∈ s.tables.commands)
    (hover : row.terminal = true ∨ gaveUp row = true) : Closed row := by
  refine ⟨fun hwtg => ?_, hover⟩
  unfold TargetCommandRow.terminal gaveUp at hover
  rw [(hinv.waits row hrow hwtg).2, hwtg] at hover
  rcases hover with hover | hover <;> cases hover

end Step

/-! ## Runs -/

/-- Whenever the command is handed out in a run from here on, it is as `P` says. -/
def Later (ok : QueueState → QueueAction → Prop) (s : QueueState) (id : String)
    (P : Handout → Prop) : Prop :=
  ∀ s' log, Records QueueState.step ok handouts s s' log → ∀ d ∈ log, d.row.id = id → P d

section Runs

variable {ok : QueueState → QueueAction → Prop} {s : QueueState} {row : TargetCommandRow}

theorem later_of_kept {Q : TargetCommandRow → Prop} {P : Handout → Prop} (hids : UniqueIds s.tables)
    (hrow : row ∈ s.tables.commands) (hrowQ : Q row)
    (hstep : ∀ s a s' mid, UniqueIds s.tables → ok s a → s.step a = some s' → mid ∈ s.tables.commands → mid.id = row.id → Q mid →
      ∃ mid' ∈ s'.tables.commands, mid'.id = mid.id ∧ Q mid')
    (hP : ∀ s a s' d, d ∈ handouts s a s' → Q d.row → P d) : Later ok s row.id P := by
  intro s' log h
  have hinv : UniqueIds s'.tables ∧ (∃ mid ∈ s'.tables.commands, mid.id = row.id ∧ Q mid) ∧
      ∀ d ∈ log, d.row.id = row.id → P d := by
    refine h.invariant (fun s log => UniqueIds s.tables ∧
      (∃ mid ∈ s.tables.commands, mid.id = row.id ∧ Q mid) ∧ ∀ d ∈ log, d.row.id = row.id → P d)
      ⟨hids, ⟨row, hrow, rfl, hrowQ⟩, forall_mem_nil _⟩ ?_
    rintro s a s' log ⟨hids, ⟨mid, hmid, hid, hmidQ⟩, hlog⟩ hok hs
    obtain ⟨mid', hmid', hid', hmidQ'⟩ := hstep s a s' mid hids hok hs hmid hid hmidQ
    refine ⟨(step_changes hids hs).2, ⟨mid', hmid', hid'.trans hid, hmidQ'⟩, fun d hd hsame => ?_⟩
    rcases mem_append.mp hd with hd | hd
    · exact hlog d hd hsame
    · refine hP s a s' d hd ?_
      rw [hids.eq_of_id (mem_handouts hd).2.1 hmid (hsame.trans hid.symm)]
      exact hmidQ
  exact hinv.2.2

theorem later_of_history {Q : TargetCommandRow → Prop} {P : Handout → Prop}
    (hids : UniqueIds s.tables) (hrow : row ∈ s.tables.commands) (hrowQ : Q row)
    (hkept : ∀ (stops : TargetCommandRow → Prop) mid mid', Relation.ReflTransGen (RowStep stops) mid mid' → Q mid → Q mid')
    (hP : ∀ s a s' d, d ∈ handouts s a s' → Q d.row → P d) : Later ok s row.id P := by
  refine later_of_kept hids hrow hrowQ (fun s a s' mid hids _ hs hmid _ hmidQ => ?_) hP
  obtain ⟨mid', hmid', hhist⟩ := (step_rows hids hs).1.forth mid hmid
  exact ⟨mid', hmid', id_of_history hhist, hkept _ mid mid' hhist hmidQ⟩

/--
**What a poll hands out is open, free and in time, and it takes a lease on it.** A command
that is over, by its EA's report or because the gateway has given it up, is never handed
out again; one handed out before is handed out only within two minutes of that; and while
its EA does not report on it, only after its lease has run out.
-/
theorem handouts_safe {log : List Handout} (h : Records QueueState.step always handouts .start s log) : UniqueIds s.tables ∧
    (∀ d ∈ log, d.row.terminal = false ∧ gaveUp d.row = false ∧ d.row.leaseFree d.time = true ∧ d.time < deliveryDeadline d.row) ∧
    (∀ action s', s.step action = some s' → ∀ d ∈ handouts s action s',
      ∃ row ∈ s'.tables.commands, row.id = d.row.id ∧ row.status ≠ .waiting ∧
        row.lease = some (d.session.sessionId, d.time + commandLease) ∧
        row.firstDeliveredAt = some (d.row.firstDeliveredAt.getD d.time)) ∧
    ∀ row ∈ s.tables.commands, (row.terminal = true ∨ gaveUp row = true → Later always s row.id fun _ => False) ∧
      (∀ first, row.firstDeliveredAt = some first → Later always s row.id fun d => d.time < first + commandDeliveryTtl) ∧
      ∀ lease, row.lease = some lease → row.status ≠ .waiting →
        Later (fun _ action => reportsOn row.id action = false) s row.id fun d => lease.2 ≤ d.time := by
  have hinv : Waits s.tables ∧ ∀ d ∈ log, d.row.terminal = false ∧ gaveUp d.row = false ∧
      d.row.leaseFree d.time = true ∧ d.time < deliveryDeadline d.row := by
    refine h.invariant (fun s log => Waits s.tables ∧ ∀ d ∈ log, d.row.terminal = false ∧
      gaveUp d.row = false ∧ d.row.leaseFree d.time = true ∧ d.time < deliveryDeadline d.row)
      ⟨.empty, forall_mem_nil _⟩ ?_
    rintro s a s' log ⟨hwaits, hlog⟩ - hs
    refine ⟨hwaits.step hs, fun d hd => ?_⟩
    rcases mem_append.mp hd with hd | hd
    · exact hlog d hd
    · obtain ⟨-, -, hdelv, hearly, hfree⟩ := mem_handouts hd
      obtain ⟨hopen, hgoing⟩ := open_of_deliverable hdelv
      exact ⟨hopen, hgoing, hfree, hearly⟩
  obtain ⟨hwaits, hlog⟩ := hinv
  refine ⟨hwaits.ids, hlog, fun action s' hs d hd => handout_leases hs hd, fun row hrow => ⟨?_, ?_, ?_⟩⟩
  -- each of the three is kept by the history of the row, and refuses a handout
  · intro hover
    refine later_of_history hwaits.ids hrow (hwaits.closed hrow hover)
      (fun _ _ _ hhist hclsd => closed_of_history hclsd hhist) fun s a s' d hd hclsd => ?_
    have hdelv := (mem_handouts hd).2.2.1
    rw [hclsd.not_deliverable] at hdelv
    cases hdelv
  · intro first hfs
    refine later_of_history hwaits.ids hrow hfs (fun _ _ _ hhist hdlvd => firstDelivered_of_history hdlvd hhist)
      fun s a s' d hd hdlvd => ?_
    have hearly := (mem_handouts hd).2.2.2.1
    unfold deliveryDeadline at hearly
    rw [hdlvd] at hearly
    exact hearly
  · intro lease hls hstat
    have hheld : HeldUntil lease.2 row := .inr ⟨hstat, lease, hls, le_rfl⟩
    refine later_of_kept hwaits.ids hrow hheld (fun s a s' mid hids hsilent hs hmid hid hheld => ?_) fun s a s' d hd hheld => ?_
    · rw [← hid] at hsilent
      exact held_step hids hsilent hs hmid hheld
    · obtain ⟨-, -, hdelv, -, hfree⟩ := mem_handouts hd
      exact hheld.le_of_free hdelv hfree

/-- The EA cannot tell what became of the command. -/
def closeUnknown : EaEvent := .commandUnknown "close-1" "request timed out" 1450

/-- The EA reports that it does not know the outcome, and polls again half a minute later. -/
def unknownThenPoll : List QueueAction :=
  [.acknowledge ⟨1, "mt5-a"⟩ [closeUnknown] 1500,
   .poll ⟨1, "mt5-a"⟩ 31500]

/-- A command whose outcome its EA declared unknown is handed out again. -/
theorem unknown_redelivered :
    ¬ ∀ s log, Records QueueState.step always handouts .start s log → ∀ row ∈ s.tables.commands,
      row.status = .unknown → Later always s row.id fun _ => False := by
  have hrun :
      ((execRecords step (fun _ _ => true) handouts .start [] (deliverClose ++ unknownThenPoll.take 1)).any fun mid =>
        mid.1.tables.commands.any (fun row => row.id = "close-1" && row.status = .unknown) &&
        (execRecords step (fun _ _ => true) handouts mid.1 [] (unknownThenPoll.drop 1)).any fun final =>
            final.2.any fun d => d.row.id = "close-1") = true := by decide +kernel
  obtain ⟨⟨s, log⟩, hexec, hrest⟩ := any_eq_true _ _ |>.mp hrun
  rw [and_eq_true, List.any_eq_true] at hrest
  obtain ⟨⟨row, hrow, hunk⟩, hpoll⟩ := hrest
  rw [and_eq_true, decide_eq_true_iff, decide_eq_true_iff] at hunk
  obtain ⟨⟨s', later⟩, hexec', haga⟩ := any_eq_true _ _ |>.mp hpoll
  obtain ⟨d, hd, hid⟩ := any_eq_true.mp haga
  intro hnever
  have hbef := records_exec hexec
  have haft := records_exec hexec'
  refine hnever s log hbef row hrow hunk.2 s' later haft d hd ?_
  rw [hunk.1]
  exact of_decide_eq_true hid

/-- The command a poll handed out at 1400 is held by its lease and by its deadline. -/
theorem delivered_close_held : ∃ s log, Records QueueState.step always handouts .start s log ∧
    log.map (fun d => (d.row.id, d.time)) = [("close-1", 1400)] ∧
    Later (fun _ action => reportsOn "close-1" action = false) s "close-1" (fun d => 16400 ≤ d.time) ∧
    Later always s "close-1" fun d => d.time < 121400 := by
  have hrun : ((execRecords step (fun _ _ => true) handouts .start [] deliverClose).any
      fun final => final.2.map (fun d => (d.row.id, d.time)) = [("close-1", 1400)] &&
        final.1.tables.commands.any fun row => row.id = "close-1" && row.status = .queued
          && row.lease = some (1, 16400) && row.firstDeliveredAt = some 1400) = true := by
    decide +kernel
  obtain ⟨⟨s, log⟩, hexec, hfinal⟩ := any_eq_true _ _ |>.mp hrun
  simp only [and_eq_true, decide_eq_true_eq, List.any_eq_true] at hfinal
  obtain ⟨hlog, row, hrow, ⟨⟨hid, hqueu⟩, hls⟩, hfs⟩ := hfinal
  have hrecords := records_exec hexec
  obtain ⟨-, hearly, hheld⟩ := (handouts_safe hrecords).2.2.2 row hrow
  refine ⟨s, log, hrecords, hlog, ?_, ?_⟩
  · have hheld := hheld _ hls (by rw [hqueu]; decide)
    rwa [hid] at hheld
  · have hearly := hearly _ hfs
    rwa [hid] at hearly

end Runs

end MarketLens.Commands
