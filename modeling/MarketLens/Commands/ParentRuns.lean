import MarketLens.Commands.ParentProof

/-!
# Parents over whole runs

`ParentInv` is kept by every transaction that settles rightly, so it holds in
every state of a run made of such transactions: a finished parent's status is a
function of its targets' outcomes, in whatever order they came.
-/

namespace MarketLens.Commands

open List Option Bool Store Copier Fallible Runs

variable {tables tables' : CommandTables}

variable {s s' : QueueState}

/-- A rejected target stays, so what waits to be finalized keeps its reason. -/
theorem ParentInv.rejected_stays {stops : TargetCommandRow → Prop} (hinv : ParentInv s)
    (hforth : ∀ row ∈ s.tables.commands, ∃ row' ∈ tables.commands, Relation.ReflTransGen (RowStep stops) row row')
    {parentId : String} (h : ∃ row ∈ s.tables.commands, row.parentCommandId = parentId ∧ row.status = .rejected) :
    ∃ row ∈ tables.commands, row.parentCommandId = parentId ∧ row.status = .rejected := by
  obtain ⟨row, hrow, rfl, hrej⟩ := h
  obtain ⟨row', hrow', hhist⟩ := hforth row hrow
  obtain ⟨_, hpar, hstays⟩ := (hinv.rows row hrow).of_history hhist
  exact ⟨row', hrow', hpar, hstays hrej⟩

/-- What the tables of a transaction are while it runs: the rows have come from those it
found, and the parents are settled. -/
structure Settling (s : QueueState) (tables : CommandTables) : Prop where
  ids : UniqueIds tables
  rows : Evolves (fun _ => False) s.tables tables
  settled : Settled s.finalizing tables

theorem Settling.commit (hinv : ParentInv s) (h : Settling s tables) : ParentInv (s.withTables tables) := by
  refine ⟨h.ids, fun row' hrow' => ?_, fun parentId hin => ?_, h.settled⟩
  · obtain ⟨row, hrow, hhist⟩ := h.rows.back row' hrow'
    exact ((hinv.rows row hrow).of_history hhist).1
  · exact hinv.rejected_stays h.rows.forth (hinv.finalizing parentId hin)

section Batch

variable {accountId : String} {now : Millis} {state state' : List String × CommandTables} {event : EaEvent × CommandTables}

theorem Settling.acknowledge (h : Settling s state.2)
    (hok : (report event.1).all (fun r => !misjudges s.finalizing accountId r state.1 event.2 state.2) = true)
    (hack : acknowledgeSeeing accountId now state event = .ok state') : Settling s state'.2 := by
  have hsttl := acknowledgeSeeing_settled h.ids h.settled hok hack
  rcases acknowledgeSeeing_ok hack with ⟨_, rfl⟩ | ⟨r, hr, _, hcmds, _⟩
  · exact h
  have hevo : Evolves (fun _ => False) state.2 state'.2 :=
    .of_updateWhere hcmds fun _ _ hp => .acknowledged accountId now hr hp
  exact ⟨h.ids.of_updateWhere hcmds (acknowledgeRow_id r now), h.rows.trans hevo, hsttl⟩

/-- **A batch whose reports all settle rightly does.** -/
theorem Settling.batch : ∀ {events : List (EaEvent × CommandTables)} {state : List String × CommandTables},
    Settling s state.2 → batchSettles s.finalizing accountId now events state = true →
    events.foldlM (acknowledgeSeeing accountId now) state = .ok state' → Settling s state'.2 := by
  intro events
  induction events with
  | nil =>
    intro state h _ hbat
    cases hbat
    exact h
  | cons event rest ih =>
    intro state h hok hbat
    rw [foldlM_cons, bind_ok] at hbat
    obtain ⟨mid, hmid, hrest⟩ := hbat
    rw [batchSettles, and_eq_true, hmid] at hok
    exact ih (h.acknowledge hok.1 hmid) hok.2 hrest

end Batch

/-- **Each transaction that settles rightly keeps the parents right.** -/
theorem ParentInv.whole {past : List CommandTables} {action : QueueAction} (hinv : ParentInv s)
    (hnow : action.judgesLater = false) (hok : settlesRightly ⟨s, past⟩ (.whole action) = true)
    (h : s.step action = some s') : ParentInv s' := by
  obtain ⟨hfrom, hids⟩ := step_rows hinv.ids h
  have hrows : ∀ row ∈ s'.tables.commands, OutcomeInv row := by
    intro row' hrow'
    rcases hfrom.back row' hrow' with hfsh | ⟨row, hrow, hhist⟩
    · exact .of_fresh hfsh
    · exact ((hinv.rows row hrow).of_history hhist).1
  -- what is to be finalized changes in two kinds of transactions only
  have hsame : s'.finalizing = s.finalizing → Settled s.finalizing s'.tables → ParentInv s' := by
    intro heq hsttl
    refine ⟨hids, hrows, fun parentId hin => ?_, heq ▸ hsttl⟩
    rw [heq] at hin
    exact hinv.rejected_stays hfrom.forth (hinv.finalizing parentId hin)
  cases action with
  | pair =>
    obtain ⟨tables', hpair, rfl⟩ := commit_some h
    obtain ⟨hc, hp⟩ := createSession_ok hpair
    exact hsame rfl (hinv.settled.of_eq hc hp)
  | authenticate =>
    obtain ⟨hc, hp, hf⟩ := authenticate_step h
    exact hsame hf (hinv.settled.of_eq hc hp)
  | heartbeat =>
    obtain ⟨tables', htouch, rfl⟩ := commit_some (asSession_some h)
    obtain ⟨hc, hp⟩ := touchAccount_ok htouch
    exact hsame rfl (hinv.settled.of_eq hc hp)
  | manageTerminals =>
    simp only [QueueState.step] at h
    split at h
    · cases h
      exact hsame rfl (hinv.settled.of_eq rfl rfl)
    · cases h
  | enqueue =>
    obtain ⟨tables', henqueue, rfl⟩ := commit_some h
    rcases enqueue_ok henqueue with rfl | ⟨id, hid, parentId, key, _, _, hinse⟩
    · exact hsame rfl hinv.settled
    · exact hsame rfl (hinv.settled.insertCommand rfl rfl hinse)
  | deferOrder =>
    obtain ⟨tables', hdefer, rfl⟩ := commit_some h
    rcases deferOrder_ok hdefer with rfl | hinse
    · exact hsame rfl hinv.settled
    · exact hsame rfl (hinv.settled.insertCommand rfl rfl hinse)
  | poll | acknowledge => cases hnow
  | leaseDeferred =>
    cases asSession_some h
    refine hsame rfl (hinv.settled.of_rows (fun _ => id) rfl rfl (fun _ => rfl) ?_)
    intro row hrow hp
    have hopen := waiting_open (hinv.rows row hrow) (waiting_of_due hinv.ids hrow hp)
    exact .inr hopen
  | releaseDeferred =>
    cases asSession_some h
    refine hsame rfl (hinv.settled.of_rows (fun _ h => h) rfl rfl (fun _ => rfl) ?_)
    intro row hrow hp
    have hopen := waiting_open (hinv.rows row hrow) (holdsWaiting_waiting hp).2
    exact .inr hopen
  | activateDeferred =>
    cases asSession_some h
    refine hsame rfl (hinv.settled.of_rows (fun _ h => h) rfl rfl (fun row => ?_) ?_)
    · unfold activateRow
      split <;> rfl
    · intro row hrow hp
      simp only [and_eq_true] at hp
      have hopen := waiting_open (hinv.rows row hrow) (holdsWaiting_waiting hp.1.1).2
      refine .inr ?_
      unfold activateRow
      split <;> exact hopen
  | rejectDeferred =>
    cases asSession_some h
    refine ⟨hids, hrows, fun parentId hin => ?_, ?_⟩
    · rcases mem_append.mp hin with hin | hin
      · exact rejectedParents_rejected (fun row hrow => hinv.rows row hrow) hin
      · exact hinv.rejected_stays hfrom.forth (hinv.finalizing parentId hin)
    · refine hinv.settled.of_rows (fun _ hin => mem_append_right _ hin) rfl rfl
        (fun _ => rfl) fun row hrow hp => .inl (mem_append_left _ ?_)
      exact mem_rejectedParents (hinv.rows row hrow) hrow hp
  | finalizeRejected parentId =>
    simp only [QueueState.step] at h
    split at h
    · rename_i hin
      cases h
      refine ⟨hids, hrows, fun other hoth => ?_, ?_⟩
      · exact hinv.finalizing other (mem_of_mem_erase hoth)
      · exact finalizeRejected_settled hinv.settled (hinv.finalizing parentId hin)
    · cases h
  | expireDeferred now =>
    cases h
    exact hsame rfl (expireDeferred_settled hinv.settled now)
  | manageAccount =>
    obtain ⟨tables', hmanage, rfl⟩ := commit_some h
    obtain ⟨hc, hp⟩ := manageAccount_ok hmanage
    refine hsame rfl (Settled.of_eq ?_ hc hp)
    exact stopCommands_settled hinv.settled (fun _ => rfl) (fun _ h => absurd h (by simp)) hok
  | disconnectManaged =>
    simp only [QueueState.step] at h
    obtain ⟨tables', hdisc, rfl⟩ := map_eq_some_iff.mp h
    obtain ⟨hc, hp⟩ := disconnectManaged_some hdisc
    refine hsame rfl (Settled.of_eq ?_ hc hp)
    refine stopCommands_settled hinv.settled (fun row => ?_) (fun row hends => ?_) hok
    · unfold fenceRow
      split <;> rfl
    · unfold fenceRow
      split
      · rename_i hnone
        rw [hnone] at hends
        cases hends
      · rfl

theorem ParentInv.step {s s' : QueueHistory} {action : SeeingAction} (hinv : ParentInv s.queue)
    (hok : settlesRightly s action = true) (h : s.step action = some s') : ParentInv s'.queue := by
  obtain ⟨queue, hnext, rfl⟩ := map_eq_some_iff.mp h
  cases action with
  | whole action =>
    simp only [QueueHistory.next] at hnext
    split at hnext
    · cases hnext
    · rename_i hnow
      exact hinv.whole ((not_eq_true _).mp hnow) hok hnext
  | acknowledge session events now =>
    obtain ⟨pictured, hpict, hnext⟩ := bind_eq_some_iff.mp hnext
    obtain ⟨written, tables', hbat, rfl⟩ := commit_snd (asSession_some hnext)
    simp only [settlesRightly, hpict, Option.all_some] at hok
    have hbegin : Settling s.queue s.queue.tables := ⟨hinv.ids, .of_eq rfl, hinv.settled⟩
    exact (hbegin.batch hok hbat).commit hinv
  | poll session age now =>
    obtain ⟨picture, hpict, hnext⟩ := bind_eq_some_iff.mp hnext
    obtain ⟨commands, tables', hpoll, rfl⟩ := commit_snd (asSession_some hnext)
    simp only [settlesRightly, hpict, Option.all_some] at hok
    -- the expiry changes the rows as one that sees the present does
    have hids : UniqueIds (expireSeeing picture session.accountId now s.queue.tables) :=
      expireStale_ids hinv.ids session.accountId now
    have hexp : Evolves (fun _ => False) s.queue.tables (expireSeeing picture session.accountId now s.queue.tables) :=
      (expireStale_evolves session.accountId now).trans (.of_eq rfl)
    obtain ⟨hevo, hids'⟩ := leaseCommands_evolves hids hpoll
    have hsttl := leaseCommands_settled hids (expireSeeing_settled hinv.settled hok) hpoll
    exact Settling.commit hinv ⟨hids', hexp.trans hevo, hsttl⟩

theorem ParentInv.of_reaches {s : QueueHistory}
    (h : Reaches QueueHistory.step (fun s a => settlesRightly s a = true) .start s) : ParentInv s.queue :=
  h.invariant (fun s => ParentInv s.queue) .start fun _ _ _ hinv hok hstep => hinv.step hok hstep

/-! ## The main result -/

/-- **A finished parent's status is a function of its targets' outcomes**, in every run whose
transactions settle rightly: completed if each target was accepted, partially rejected otherwise,
and terminal in both cases. -/
theorem parent_status_of_outcomes {s : QueueHistory}
    (h : Reaches QueueHistory.step (fun s a => settlesRightly s a = true) .start s) :
    ∀ parent ∈ s.queue.tables.parents, parent.id ∉ s.queue.finalizing → finished s.queue.tables parent.id = true →
      parent.status = finalStatus (outcomes s.queue.tables parent.id) ∧
      (parent.status = .completed → ∀ row ∈ s.queue.tables.targetsOf parent.id, row.status = .accepted) ∧
      parent.status.terminal = true := by
  intro parent hpar hnot hfin
  have hstat := (ParentInv.of_reaches h).settled parent hpar hnot hfin
  refine ⟨hstat, fun hcompleted row hrow => ?_, ?_⟩
  · by_contra hne
    obtain ⟨hmem, hown⟩ := mem_targetsOf.mp hrow
    rw [hstat, finalStatus_of_mem (mem_outcomes hmem hown) hne] at hcompleted
    exact absurd hcompleted (by decide)
  · rw [hstat]
    unfold finalStatus
    split <;> rfl

section Runs

/-- A market order for two accounts. -/
def twoTargets : OrderIntent :=
  ⟨"p1", "k1", none, "EURUSD", .buy, .market, .fixed 1 .lots, none, none, none, none⟩

def secondTarget : AdminOrderTarget := ⟨"mt5-b", .sameQuantity, none⟩

def firstOrder : RoutedOrder :=
  ⟨"p1", "p1:mt5-a", "k1:mt5-a", "mt5-a", "demo", .metaTrader5, "EURUSD", "EURUSD", .buy,
    .market, 1, .lots, none, none, none, none, none, []⟩

/-- Two accounts are paired; the order is queued for one and kept for the other. -/
def submitTwo : List SeeingAction :=
  [.whole (.pair "mt5-a" 1 demoAccount none 1000),
   .whole (.authenticate 1 false 1100),
   .poll ⟨1, "mt5-a"⟩ 0 1200,
   .whole (.pair "mt5-b" 2 demoAccount none 1300),
   .whole (.authenticate 2 false 1400),
   .whole (.enqueue noCopier "mt5-a" (.place firstOrder) 1500),
   .whole (.deferOrder twoTargets secondTarget 1500),
   .poll ⟨1, "mt5-a"⟩ 0 1600]

/-- The EA of the first account reports success. -/
def acceptFirst : List SeeingAction :=
  [.acknowledge ⟨1, "mt5-a"⟩ [(.commandAccepted "p1:mt5-a" (some "501") none 10009 "done" 1650, 0)] 1700]

/-- The router refuses the order for the second account. -/
def rejectSecond : List SeeingAction :=
  [.whole (.leaseDeferred ⟨2, "mt5-b"⟩ 1800),
   .whole (.rejectDeferred ⟨2, "mt5-b"⟩ "p1:mt5-b" "mt5-b" .symbolBlocked "symbol is blocked" 1800),
   .whole (.finalizeRejected "p1")]

/-- The order for the second account goes into the queue and to its EA. -/
def activateSecond : List SeeingAction :=
  [.whole (.leaseDeferred ⟨2, "mt5-b"⟩ 1620),
   .whole (.activateDeferred ⟨2, "mt5-b"⟩ { firstOrder with
      commandId := "p1:mt5-b"
      idempotencyKey := "k1:mt5-b"
      targetAccountId := "mt5-b" } 1620),
   .poll ⟨2, "mt5-b"⟩ 0 1640]

/-- Its EA reports success too, in a transaction that began before the other was committed. -/
def acceptMeanwhile : List SeeingAction :=
  [.acknowledge ⟨2, "mt5-b"⟩ [(.commandAccepted "p1:mt5-b" (some "502") none 10009 "done" 1650, 1)] 1700]

/-- What became of parent `p1`: its status, its targets' outcomes, nothing left to finalize. -/
def parentIs (status : ParentStatus) (results : List TargetStatus) (s : QueueHistory) : Bool :=
  s.queue.tables.parents.any (fun parent => parent.id = "p1" && parent.status = status)
    && decide ((s.queue.tables.targetsOf "p1").map (·.status) = results)
    && finished s.queue.tables "p1" && s.queue.finalizing.isEmpty

/-- The same two outcomes, in either order: partially rejected one way, completed the other. Two
acceptances at once: each is judged on a picture in which the other target is open. -/
theorem outcome_order_decides :
    (∃ s s', Reaches QueueHistory.step always .start s ∧ Reaches QueueHistory.step always .start s' ∧
      parentIs .partiallyRejected [.accepted, .rejected] s = true ∧
      parentIs .completed [.accepted, .rejected] s' = true) ∧
    ∃ s, Reaches QueueHistory.step always .start s ∧ parentIs .submitted [.accepted, .accepted] s = true := by
  have hrun :
      (exec QueueHistory.step (fun _ _ => true) .start (submitTwo ++ acceptFirst ++ rejectSecond)).any
        (parentIs .partiallyRejected [.accepted, .rejected]) = true := by decide
  have hrun' :
      (exec QueueHistory.step (fun _ _ => true) .start (submitTwo ++ rejectSecond ++ acceptFirst)).any
        (parentIs .completed [.accepted, .rejected]) = true := by decide
  have hboth :
      (exec QueueHistory.step (fun _ _ => true) .start (submitTwo ++ activateSecond ++ acceptFirst ++ acceptMeanwhile)).any
        (parentIs .submitted [.accepted, .accepted]) = true := by decide
  rw [Option.any_eq_true] at hrun hrun' hboth
  obtain ⟨s, hexec, hs⟩ := hrun
  obtain ⟨s', hexec', hs'⟩ := hrun'
  obtain ⟨last, hlast, hopen⟩ := hboth
  exact ⟨⟨s, s', reaches_exec hexec, reaches_exec hexec', hs, hs'⟩, last, reaches_exec hlast, hopen⟩

/-- The run that accepts first and rejects then settles its parent rightly. -/
theorem accept_then_reject_settles :
    ∃ s, Reaches QueueHistory.step (fun s a => settlesRightly s a = true) .start s ∧
      ∃ parent ∈ s.queue.tables.parents, parent.id ∉ s.queue.finalizing ∧ finished s.queue.tables parent.id = true ∧
        parent.status = finalStatus (outcomes s.queue.tables parent.id) ∧
        parent.status.terminal = true := by
  have hrun :
      (exec QueueHistory.step settlesRightly .start (submitTwo ++ acceptFirst ++ rejectSecond)).any (fun s =>
        s.queue.tables.parents.any fun parent =>
          decide (parent.id ∉ s.queue.finalizing) && finished s.queue.tables parent.id) = true := by decide
  rw [Option.any_eq_true] at hrun
  obtain ⟨s, hexec, hs⟩ := hrun
  obtain ⟨parent, hpar, hs⟩ := List.any_eq_true.mp hs
  rw [Bool.and_eq_true, decide_eq_true_eq] at hs
  have hrch := reaches_of_exec (fun _ _ h => h) hexec
  obtain ⟨hstat, _, hterm⟩ :=
    parent_status_of_outcomes hrch parent hpar hs.1 hs.2
  exact ⟨s, hrch, parent, hpar, hs.1, hs.2, hstat, hterm⟩

end Runs

end MarketLens.Commands
