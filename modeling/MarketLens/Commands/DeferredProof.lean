import MarketLens.Commands.DeliveryProof

/-!
# Orders that wait for their terminal

An order for a terminal that is away waits five minutes in the queue. Five
statements can end the wait, in any order and from any connection: activation and
refusal by a heartbeat, the expiry sweep, and the two ways an account is stopped.
Each one names `waiting` in its condition and writes another status, so only the
first to come finds the order.
-/

namespace MarketLens.Commands

open Table List Store Copier Fallible Runs

/-- How the wait of an order ends. -/
inductive Fate where
  | queued
  | rejected
  | expired
  | stopped

/-- What the row shows once the order has met its fate. -/
def Fate.shown (row : TargetCommandRow) : Fate → Prop
  | .queued => row.status = .queued
  | .rejected => row.status = .rejected
  | .expired => row.status = .failed ∧ row.rejectCode = some "DEFERRED_DELIVERY_EXPIRED"
  | .stopped => row.status = .failed ∧
      (row.rejectCode = some "ACCOUNT_REMOVED" ∨ row.rejectCode = some "ACCOUNT_DISCONNECTED")

variable {row : TargetCommandRow}

theorem Fate.shown_unique {first second : Fate} (h : first.shown row) (h' : second.shown row) : first = second := by
  cases first <;> cases second <;> simp_all [Fate.shown]

/-- An EA reports on commands it was handed, never on an order that still waits. -/
def reportsNoWaiting (s : QueueState) : QueueAction → Bool
  | .acknowledge _ events _ => events.all fun event => (report event).all fun report =>
      s.tables.commands.all fun row => row.status ≠ .waiting || row.id ≠ report.commandId
  | _ => true

/-! ## One transaction -/

/-- What becomes of a waiting order in one transaction. -/
inductive WaitStep (action : QueueAction) (row row' : TargetCommandRow) : Prop where
  | waits (status : row'.status = .waiting)
  | ends (fate : Fate) (shown : fate.shown row')
      (inTime : fate = .queued → ∃ session order now, action = .activateDeferred session order now ∧
        row.deliverBy.any (now < ·) = true)

variable {now : Millis}

section Row

variable {action : QueueAction} {row : TargetCommandRow} {tables tables' : CommandTables}

theorem not_deliverable_of_waiting (hwtg : row.status = .waiting) : deliverable row = false := by
  rw [← Bool.not_eq_true]
  exact fun hdelv => (deliverable_open hdelv).2 hwtg

theorem wait_of_poll {session : EaSession} {commands : List EaCommand}
    (hids : UniqueIds tables) (h : pollCommands session now tables = .ok (commands, tables'))
    (hrow : row ∈ tables.commands) (hwtg : row.status = .waiting) : row ∈ tables'.commands := by
  have hclsd := not_deliverable_of_waiting hwtg
  have hkept : row ∈ (expireStale session.accountId now tables).commands := by
    refine unmatched_mem hrow ?_
    unfold deliveryExpired
    rw [hclsd, Bool.and_false, Bool.false_and, Bool.false_and]
    exact Bool.false_ne_true
  rw [(leaseCommands_ok h).1]
  refine unmatched_mem hkept fun hid => ?_
  have hids' := expireStale_ids hids session.accountId now
  rw [deliverable_of_leasable hids' hkept hid] at hclsd
  cases hclsd

/-- An account's stop ends the wait; no EA has had the order. -/
theorem fenceRow_stopped (hundelivered : row.firstDeliveredAt = none) : Fate.stopped.shown (fenceRow now row) := by
  unfold fenceRow
  rw [hundelivered]
  exact ⟨rfl, .inr rfl⟩

theorem stopRow_stopped (remove : Bool) (now : Millis) (row : TargetCommandRow) :
    Fate.stopped.shown (stopRow remove now row) := by
  cases remove
  · exact ⟨rfl, .inr rfl⟩
  · exact ⟨rfl, .inl rfl⟩

end Row

/-- **What one transaction does to a waiting order**: it waits on, or meets one fate, and it is
queued only by an activation before its deadline. -/
theorem waiting_step {s s' : QueueState} {action : QueueAction}
    (hids : UniqueIds s.tables) (hok : reportsNoWaiting s action = true)
    (h : s.step action = some s') (hrow : row ∈ s.tables.commands) (hwtg : row.status = .waiting)
    (hundelivered : row.firstDeliveredAt = none) :
    ∃ row' ∈ s'.tables.commands, row'.id = row.id ∧ WaitStep action row row' := by
  cases action with
  | pair | authenticate | heartbeat | manageTerminals | finalizeRejected | enqueue | deferOrder =>
    rcases addsOnly_rows rfl h with hc | ⟨parent, fresh, -, hinse⟩
    · exact row_of_eq hc hrow (.waits hwtg)
    · exact row_of_insert hinse hrow (.waits hwtg)
  | poll =>
    obtain ⟨commands, tables', hpoll, rfl⟩ := poll_step h
    exact ⟨row, wait_of_poll hids hpoll hrow hwtg, rfl, .waits hwtg⟩
  | acknowledge session events =>
    obtain ⟨tables', hbat, rfl⟩ := commit_some (asSession_some h)
    -- no report is on the order, so none of the batch is for its row
    have hoth : ∀ event ∈ events, ∀ r, report event = some r → row.id ≠ r.commandId := by
      intro event hevt r hr
      have hevs := all_eq_true.mp hok event hevt
      rw [hr, Option.all_some, all_eq_true] at hevs
      have hne := hevs row hrow
      rwa [hwtg, decide_eq_false (fun hne => hne rfl), Bool.false_or, decide_eq_true_iff] at hne
    exact ⟨row, row_of_batch hoth hbat hrow, rfl, .waits hwtg⟩
  | leaseDeferred | releaseDeferred =>
    cases asSession_some h
    exact row_of_updateWhere rfl hrow rfl (.waits hwtg) fun _ => .waits hwtg
  | activateDeferred session order now =>
    cases asSession_some h
    refine row_of_updateWhere rfl hrow (activateRow_id order now row) (.waits hwtg) fun hp => ?_
    rw [Bool.and_eq_true, Bool.and_eq_true] at hp
    have hid := (holdsWaiting_waiting hp.1.1).1
    unfold activateRow
    rw [dif_pos hid.symm]
    exact .ends .queued rfl fun _ => ⟨session, order, now, rfl, hp.2⟩
  | rejectDeferred =>
    cases asSession_some h
    exact row_of_updateWhere rfl hrow rfl (.waits hwtg) fun _ =>
      .ends .rejected rfl nofun
  | expireDeferred =>
    cases h
    exact row_of_updateWhere rfl hrow rfl (.waits hwtg) fun _ =>
      .ends .expired ⟨rfl, rfl⟩ nofun
  | manageAccount copier accountId remove now =>
    obtain ⟨tables', hmanage, rfl⟩ := commit_some h
    exact row_of_updateWhere (manageAccount_ok hmanage).1 hrow rfl (.waits hwtg) fun _ =>
      .ends .stopped (stopRow_stopped remove now row) nofun
  | disconnectManaged accountId expectedRevision now =>
    obtain ⟨tables', hdisc, rfl⟩ := Option.map_eq_some_iff.mp h
    exact row_of_updateWhere (disconnectManaged_some hdisc).1 hrow (fenceRow_id now row) (.waits hwtg) fun _ =>
        .ends .stopped (fenceRow_stopped hundelivered) nofun

/-! ## What row steps keep -/

section RowStep

variable {stops : TargetCommandRow → Prop} {row row' : TargetCommandRow}

/-- The columns of a target command that are written when it is inserted. -/
def TargetCommandRow.inserted (row : TargetCommandRow) : String × String × Option Millis :=
  (row.parentCommandId, row.targetAccountId, row.deliverBy)

theorem RowStep.inserted_eq (h : RowStep stops row row') : TargetCommandRow.inserted row' = TargetCommandRow.inserted row := by
  cases h with
  | expired =>
    unfold expireDelivery
    split <;> rfl
  | activated =>
    unfold activateRow
    split <;> rfl
  | acknowledged =>
    unfold acknowledgeRow
    split <;> rfl
  | fenced =>
    unfold fenceRow
    split <;> rfl
  | leased | held | released | rejected | waitExpired | stopped => rfl

/-- No row step makes an order wait again, and none that leaves it waiting hands it out or
settles it. -/
theorem RowStep.waiting_back (h : RowStep stops row row') (hwtg : row'.status = .waiting) :
    row.status = .waiting ∧ row'.firstDeliveredAt = row.firstDeliveredAt ∧ row'.terminalAckAt = row.terminalAckAt := by
  cases h with
  | expired =>
    unfold expireDelivery at hwtg
    split at hwtg <;> cases hwtg
  | leased sessionId now hdelv => exact absurd hwtg (deliverable_open hdelv).2
  | held lease hstat | released at' hstat => exact ⟨hstat, rfl, rfl⟩
  | activated order now hstat =>
    refine ⟨hstat, ?_⟩
    unfold activateRow
    split <;> exact ⟨rfl, rfl⟩
  | rejected | waitExpired | stopped => cases hwtg
  | @acknowledged event r accountId now hr =>
    rw [acknowledgeRow_status] at hwtg
    rcases report_status hr with hs | hs | hs <;> rw [hs] at hwtg <;> cases hwtg
  | fenced =>
    unfold fenceRow at hwtg
    split at hwtg <;> cases hwtg

theorem inserted_of_history (h : Relation.ReflTransGen (RowStep stops) row row') :
    TargetCommandRow.inserted row' = TargetCommandRow.inserted row := by
  induction h with
  | refl => rfl
  | tail _ hstep ih => exact hstep.inserted_eq.trans ih

theorem waiting_of_history (h : Relation.ReflTransGen (RowStep stops) row row') (hwtg : row'.status = .waiting) :
    row.status = .waiting ∧ row'.firstDeliveredAt = row.firstDeliveredAt ∧ row'.terminalAckAt = row.terminalAckAt := by
  induction h with
  | refl => exact ⟨hwtg, rfl, rfl⟩
  | tail _ hstep ih =>
    obtain ⟨hmid, hdlvd, hsttl⟩ := hstep.waiting_back hwtg
    obtain ⟨hfs, hkept, hopen⟩ := ih hmid
    exact ⟨hfs, hdlvd.trans hkept, hsttl.trans hopen⟩

end RowStep

/-- One command for each parent and account. -/
def UniqueTargets (tables : CommandTables) : Prop :=
  ∀ first ∈ tables.commands, ∀ second ∈ tables.commands,
    first.parentCommandId = second.parentCommandId →
    first.targetAccountId = second.targetAccountId → first = second

theorem UniqueTargets.step {s s' : QueueState} {action : QueueAction} (hids : UniqueIds s.tables)
    (h : UniqueTargets s.tables) (hstep : s.step action = some s') : UniqueTargets s'.tables := by
  obtain ⟨⟨parent, row, -, hinse⟩ | hevo, hids'⟩ := step_changes hids hstep
  · have hnew := insertCommand_newTarget hinse
    intro first hfs second hsec hpar hacct
    rw [(insertCommand_ok hinse).1, mem_append, mem_singleton] at hfs hsec
    rcases hfs with hfs | rfl <;> rcases hsec with hsec | rfl
    · exact h first hfs second hsec hpar hacct
    · exact absurd ⟨hpar, hacct⟩ (hnew first hfs)
    · exact absurd ⟨hpar.symm, hacct.symm⟩ (hnew second hsec)
    · rfl
  · intro first hfs second hsec hpar hacct
    obtain ⟨old, hold, hhist⟩ := hevo.back first hfs
    obtain ⟨old', hold', hhist'⟩ := hevo.back second hsec
    have hins := inserted_of_history hhist
    have hins' := inserted_of_history hhist'
    unfold TargetCommandRow.inserted at hins hins'
    simp only [Prod.mk.injEq] at hins hins'
    obtain ⟨hp, ha, -⟩ := hins
    obtain ⟨hp', ha', -⟩ := hins'
    have hsame : old = old' := h old hold old' hold' (hp.symm.trans (hpar.trans hp')) (ha.symm.trans (hacct.trans ha'))
    refine hids'.eq_of_id hfs hsec ?_
    rw [id_of_history hhist, id_of_history hhist', hsame]

/-! ## Runs and their departures -/

/-- An order that left `waiting`: by which transaction, and its row before and after. -/
structure Departure where
  action : QueueAction
  waiting : TargetCommandRow
  left : TargetCommandRow

/-- The orders that leave `waiting` in one transaction. -/
def departures (s : QueueState) (action : QueueAction) (s' : QueueState) : List Departure :=
  (s.tables.commands.filter fun row => row.status = .waiting).filterMap fun row =>
    (s'.tables.commands.find? fun row' => row'.id = row.id && row'.status ≠ .waiting).map
      fun row' => ⟨action, row, row'⟩

/-- The departure names an activation before the order's deadline. -/
def Departure.inTime (d : Departure) : Prop :=
  ∃ session order now, d.action = .activateDeferred session order now ∧
    d.waiting.deliverBy.any (now < ·) = true

section Departures

variable {s s' : QueueState} {action : QueueAction} {d : Departure}

theorem mem_departures (h : d ∈ departures s action s') : d.action = action ∧
    d.waiting ∈ s.tables.commands ∧ d.waiting.status = .waiting ∧ d.left ∈ s'.tables.commands ∧
    d.left.id = d.waiting.id ∧ d.left.status ≠ .waiting := by
  obtain ⟨row, hrow, h⟩ := mem_filterMap.mp h
  rw [mem_filter, decide_eq_true_iff] at hrow
  obtain ⟨row', hfnd, rfl⟩ := Option.map_eq_some_iff.mp h
  have hmat := find?_some hfnd
  rw [Bool.and_eq_true, decide_eq_true_iff, decide_eq_true_iff] at hmat
  exact ⟨rfl, hrow.1, hrow.2, mem_of_find?_eq_some hfnd, hmat.1, hmat.2⟩

/-- Every order that stops waiting is among the departures. -/
theorem departs {row row' : TargetCommandRow} (hrow : row ∈ s.tables.commands)
    (hwtg : row.status = .waiting) (hrow' : row' ∈ s'.tables.commands) (hid : row'.id = row.id)
    (hleft : row'.status ≠ .waiting) :
    ∃ d ∈ departures s action s', d.waiting = row := by
  have hfnd : (s'.tables.commands.find? fun other =>
      other.id = row.id && other.status ≠ .waiting).isSome = true := by
    rw [find?_isSome]
    refine ⟨row', hrow', ?_⟩
    rw [Bool.and_eq_true, decide_eq_true_iff, decide_eq_true_iff]
    exact ⟨hid, hleft⟩
  obtain ⟨left, hleft⟩ := Option.isSome_iff_exists.mp hfnd
  refine ⟨⟨action, row, left⟩, mem_filterMap.mpr ⟨row, ?_, ?_⟩, rfl⟩
  · rw [mem_filter, decide_eq_true_iff]
    exact ⟨hrow, hwtg⟩
  · rw [hleft]
    rfl

/-- In one transaction an order leaves once. -/
theorem departures_nodup (hids : UniqueIds s.tables) (action : QueueAction) (s' : QueueState) :
    ((departures s action s').map (·.waiting.id)).Nodup := by
  have hkey : ∀ (row : TargetCommandRow) (d : Departure), ((s'.tables.commands.find? fun row' =>
      row'.id = row.id && row'.status ≠ .waiting).map fun row' => ⟨action, row, row'⟩) = some d →
      d.waiting.id = row.id := by
    intro row d hd
    obtain ⟨_, -, rfl⟩ := Option.map_eq_some_iff.mp hd
    rfl
  have hsub : ((departures s action s').map (·.waiting.id)).Sublist (s.tables.commands.map (·.id)) :=
    (filterMap_sublist hkey _).trans (filter_sublist.map _)
  exact hsub.nodup hids

end Departures

/-- What holds of the queue and the departures so far. A command has a deadline exactly when it was
deferred. -/
structure DeferredInv (tables : CommandTables) (log : List Departure) : Prop where
  ids : UniqueIds tables
  targets : UniqueTargets tables
  waits : ∀ row ∈ tables.commands, row.status = .waiting →
    row.firstDeliveredAt = none ∧ row.deliverBy.isSome = true
  known : ∀ d ∈ log, ∃ row ∈ tables.commands, row.id = d.waiting.id
  once : (log.map (·.waiting.id)).Nodup
  left : ∀ row ∈ tables.commands, row.deliverBy.isSome = true →
    (row.status = .waiting ↔ row.id ∉ log.map (·.waiting.id))
  fates : ∀ d ∈ log, (∃ fate, Fate.shown d.left fate) ∧ (d.left.status = .queued → d.inTime)

section Step

variable {s s' : QueueState} {action : QueueAction} {log : List Departure}

/-- The fate of an order that leaves. -/
theorem departure_fate (hinv : DeferredInv s.tables log) (hok : reportsNoWaiting s action = true)
    (hstep : s.step action = some s') {d : Departure} (hd : d ∈ departures s action s') :
    (∃ fate, Fate.shown d.left fate) ∧ (d.left.status = .queued → d.inTime) := by
  obtain ⟨haction, hrow, hwtg, hleft, hid, hnot⟩ := mem_departures hd
  obtain ⟨row', hrow', hid', hwait⟩ := waiting_step hinv.ids hok hstep hrow hwtg (hinv.waits _ hrow hwtg).1
  have hids' := (step_changes hinv.ids hstep).2
  rw [← hids'.eq_of_id hleft hrow' (hid.trans hid'.symm)] at hwait
  cases hwait with
  | waits status => exact absurd status hnot
  | ends fate shown inTime =>
    refine ⟨⟨fate, shown⟩, fun hqueu => ?_⟩
    have hshn : Fate.queued.shown d.left := hqueu
    unfold Departure.inTime
    rw [haction]
    exact inTime (Fate.shown_unique shown hshn)

theorem departed_iff (hinv : DeferredInv s.tables log) (hstep : s.step action = some s')
    {row row' : TargetCommandRow} (hrow : row ∈ s.tables.commands)
    (hrow' : row' ∈ s'.tables.commands) (hid : row'.id = row.id)
    (hback : row'.status = .waiting → row.status = .waiting) (hdef : row.deliverBy.isSome = true) :
    row'.status = .waiting ↔ row'.id ∉ (log ++ departures s action s').map (·.waiting.id) := by
  have hids' := (step_changes hinv.ids hstep).2
  have hbef := hinv.left row hrow hdef
  rw [hid, map_append, mem_append, not_or]
  constructor
  · intro hwtg
    refine ⟨hbef.mp (hback hwtg), fun hin => ?_⟩
    obtain ⟨d, hd, hsame⟩ := mem_map.mp hin
    obtain ⟨-, -, -, hleft, hleftId, hnot⟩ := mem_departures hd
    rw [hids'.eq_of_id hleft hrow' (hleftId.trans (hsame.trans hid.symm))] at hnot
    exact hnot hwtg
  · rintro ⟨hold, hnew⟩
    by_contra hnot
    obtain ⟨d, hd, hsame⟩ : ∃ d ∈ departures s action s', d.waiting = row :=
      departs hrow (hbef.mpr hold) hrow' hid hnot
    exact hnew (mem_map.mpr ⟨d, hd, by rw [hsame]⟩)

/-- An order departs once: what has departed waits no more. -/
theorem DeferredInv.step (hinv : DeferredInv s.tables log) (hok : reportsNoWaiting s action = true)
    (hstep : s.step action = some s') :
    DeferredInv s'.tables (log ++ departures s action s') := by
  obtain ⟨hchg, hids'⟩ := step_changes hinv.ids hstep
  have hrows := (step_rows hinv.ids hstep).1
  -- who departs now was waiting, and so has not departed before
  have hnotLeft : ∀ d ∈ departures s action s', d.waiting.id ∉ log.map (·.waiting.id) := by
    intro d hd
    obtain ⟨-, hrow, hwtg, -⟩ := mem_departures hd
    exact (hinv.left _ hrow (hinv.waits _ hrow hwtg).2).mp hwtg
  have hkno : ∀ d ∈ log ++ departures s action s', ∃ row ∈ s.tables.commands, row.id = d.waiting.id := by
    intro d hd
    rcases mem_append.mp hd with hd | hd
    · exact hinv.known d hd
    · exact ⟨d.waiting, (mem_departures hd).2.1, rfl⟩
  refine ⟨hids', hinv.targets.step hinv.ids hstep, ?_, ?_, ?_, ?_, ?_⟩
  · intro row' hrow' hwtg
    rcases hrows.back row' hrow' with hfsh | ⟨row, hrow, hhist⟩
    · cases hfsh with
      | queued => cases hwtg
      | waiting => exact ⟨rfl, rfl⟩
    · obtain ⟨hbef, hdlvd, -⟩ := waiting_of_history hhist hwtg
      have hins := inserted_of_history hhist
      unfold TargetCommandRow.inserted at hins
      simp only [Prod.mk.injEq] at hins
      rw [hdlvd, hins.2.2]
      exact hinv.waits row hrow hbef
  · intro d hd
    obtain ⟨row, hrow, hid⟩ := hkno d hd
    obtain ⟨row', hrow', hhist⟩ := hrows.forth row hrow
    exact ⟨row', hrow', (id_of_history hhist).trans hid⟩
  · rw [map_append, nodup_append]
    refine ⟨hinv.once, departures_nodup hinv.ids action s', ?_⟩
    rintro id hold _ hnew rfl
    obtain ⟨d, hd, rfl⟩ := mem_map.mp hnew
    exact hnotLeft d hd hold
  · intro row' hrow' hdef
    rcases hchg with ⟨parent, new, hfsh, hinse⟩ | hevo
    · obtain ⟨hcmds, -, hnewId⟩ := insertCommand_ok hinse
      have hmem := hrow'
      rw [hcmds, mem_append, mem_singleton] at hmem
      rcases hmem with hold | rfl
      · exact departed_iff hinv hstep hold hrow' rfl (fun hwtg => hwtg) hdef
      · -- the new order has not been there to depart
        refine iff_of_true ?_ fun hin => ?_
        · cases hfsh with
          | queued => cases hdef
          | waiting => rfl
        · obtain ⟨d, hd, hsame⟩ := mem_map.mp hin
          obtain ⟨row, hrow, hid⟩ := hkno d hd
          exact hnewId row hrow (hid.trans hsame)
    · obtain ⟨row, hrow, hhist⟩ := hevo.back row' hrow'
      have hins := inserted_of_history hhist
      unfold TargetCommandRow.inserted at hins
      simp only [Prod.mk.injEq] at hins
      rw [hins.2.2] at hdef
      exact departed_iff hinv hstep hrow hrow' (id_of_history hhist) (fun hwtg => (waiting_of_history hhist hwtg).1) hdef
  · intro d hd
    rcases mem_append.mp hd with hd | hd
    · exact hinv.fates d hd
    · exact departure_fate hinv hok hstep hd

end Step

section Runs

variable {s : QueueState} {log : List Departure}

theorem DeferredInv.empty : DeferredInv .empty [] where
  ids := nodup_nil
  targets := forall_mem_nil _
  waits := forall_mem_nil _
  known := forall_mem_nil _
  once := nodup_nil
  left := forall_mem_nil _
  fates := forall_mem_nil _

theorem sweep_in_time {tables : CommandTables}
    (hdef : ∀ row ∈ tables.commands, row.status = .waiting → row.deliverBy.isSome = true)
    (hrow : row ∈ (expireDeferredOrders now tables).commands) (hwtg : row.status = .waiting) :
    row.deliverBy.any (now < ·) = true := by
  rcases updateWhere_cases hrow with ⟨hold, hpass⟩ | ⟨old, -, -, rfl⟩
  · obtain ⟨deadline, hends⟩ := Option.isSome_iff_exists.mp (hdef row hold hwtg)
    unfold deferredExpired at hpass
    rw [hwtg, hends, decide_eq_true rfl, Bool.true_and, Option.any_some,
      decide_eq_false_iff_not] at hpass
    rw [hends, Option.any_some, decide_eq_true_iff]
    exact Nat.lt_of_not_le hpass
  · cases hwtg

/--
**A deferred order leaves `waiting` once at most, by exactly one fate, and into the queue
only before its deadline**; it is the only command of its parent on its account, and a
sweep ends the wait of every order past its deadline. So it is in every run in which EAs
report on no order that still waits.
-/
theorem deferred_orders_end_once
    (h : Records QueueState.step (fun s action => reportsNoWaiting s action = true) departures .start s log) :
    (∀ row ∈ s.tables.commands, row.deliverBy.isSome = true →
      (log.filter fun d => d.waiting.id = row.id).length = if row.status = .waiting then 0 else 1) ∧
    (∀ d ∈ log, (∃! fate, Fate.shown d.left fate) ∧ (d.left.status = .queued → d.inTime)) ∧
    (∀ first ∈ s.tables.commands, ∀ second ∈ s.tables.commands,
      first.parentCommandId = second.parentCommandId →
      first.targetAccountId = second.targetAccountId → first = second) ∧
    ∀ now s', s.step (.expireDeferred now) = some s' → ∀ row ∈ s'.tables.commands,
      row.status = .waiting → row.deliverBy.any (now < ·) = true := by
  have hinv : DeferredInv s.tables log :=
    h.invariant (fun s log => DeferredInv s.tables log) .empty fun _ _ _ _ hinv hok hstep => hinv.step hok hstep
  refine ⟨fun row hrow hdef => ?_, fun d hd => ?_, hinv.targets, fun now s' hstep => ?_⟩
  · have hleft := hinv.left row hrow hdef
    have hcnt : (log.filter fun d => d.waiting.id = row.id).length = (log.map (·.waiting.id)).count row.id := by
      rw [count_eq_countP, countP_map, countP_eq_length_filter]
      rfl
    rw [hcnt]
    by_cases hwtg : row.status = .waiting
    · rw [if_pos hwtg, count_eq_zero]
      exact hleft.mp hwtg
    · rw [if_neg hwtg]
      refine count_eq_one_of_mem hinv.once ?_
      by_contra hnot
      exact hwtg (hleft.mpr hnot)
  · obtain ⟨⟨fate, hshn⟩, hqueu⟩ := hinv.fates d hd
    exact ⟨⟨fate, hshn, fun other hoth => Fate.shown_unique hoth hshn⟩, hqueu⟩
  · cases hstep
    intro row hrow hwtg
    exact sweep_in_time (fun row hrow hwtg => (hinv.waits row hrow hwtg).2) hrow hwtg

/-- A market order for a terminal that is away, and what it is routed to once it is back. -/
def heldOrder : OrderIntent :=
  ⟨"order-1", "key-1", none, "EURUSD", .buy, .market, .fixed 1 .lots, none, none, none, none⟩

def heldTarget : AdminOrderTarget := ⟨"mt5-a", .sameQuantity, none⟩

def routedHeld : RoutedOrder :=
  ⟨"order-1", "order-1:mt5-a", "key-1:mt5-a", "mt5-a", "demo", .metaTrader5, "EURUSD", "EURUSD", .buy,
    .market, 1, .lots, none, none, none, none, none, []⟩

/-- Two orders are deferred; the terminal comes back for the first, and the second expires. -/
def deferTwo : List QueueAction :=
  [.pair "mt5-a" 1 demoAccount none 1000,
   .pair "mt5-b" 2 demoAccount none 1000,
   .deferOrder heldOrder heldTarget 2000,
   .deferOrder heldOrder { heldTarget with accountId := "mt5-b" } 2000,
   .authenticate 1 false 3000,
   .leaseDeferred ⟨1, "mt5-a"⟩ 3100,
   .activateDeferred ⟨1, "mt5-a"⟩ routedHeld 3200,
   .expireDeferred 400000]

/-- Both waits end, one in the queue and one with its deadline. -/
theorem both_waits_end : ∃ s log,
    Records QueueState.step (fun s action => reportsNoWaiting s action = true) departures .start s log ∧
    log.map (fun d => (d.waiting.id, d.left.status)) = [("order-1:mt5-a", .queued), ("order-1:mt5-b", .failed)] ∧
    ∀ d ∈ log, (∃! fate, Fate.shown d.left fate) ∧ (d.left.status = .queued → d.inTime) := by
  have hrun : ((execRecords QueueState.step reportsNoWaiting departures .start [] deferTwo).map
      fun final => final.2.map fun d => (d.waiting.id, d.left.status)) =
        some [("order-1:mt5-a", .queued), ("order-1:mt5-b", .failed)] := by decide +kernel
  obtain ⟨⟨s, log⟩, hexec, hlog⟩ := Option.map_eq_some_iff.mp hrun
  have hrecords := records_of_exec (fun _ _ h => h) hexec
  exact ⟨s, log, hrecords, hlog, (deferred_orders_end_once hrecords).2.1⟩

end Runs

end MarketLens.Commands
