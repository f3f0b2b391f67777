import MarketLens.Commands.RowChange

/-!
# Gateway-made outcomes

A command's final outcome is either one an EA reported or one the gateway made
up because it thinks the command was never executed. The second kind must not be
given to a command some EA has had: its report may still be on the way, and would
then contradict the stored outcome and take its whole batch down with it.

Every statement of the gateway respects this but one: disconnecting or removing
an account also fails the commands the account's EA has already been handed.
`request_managed_mt5_disconnect` does the same for managed terminals and leaves
delivered commands open.
-/

namespace MarketLens.Commands

open Store Copier Fallible Runs List Except

/-- The command has a final outcome that no EA reported: a report clears the reject code. -/
def gatewayMade (row : TargetCommandRow) : Bool := row.terminal && row.rejectCode.isSome

def stopsOnlyUndelivered (s : QueueState) : QueueAction → Bool
  | .manageAccount _ accountId _ _ =>
    s.tables.commands.all fun row => !stoppable accountId row || row.firstDeliveredAt.isNone
  | _ => true

/-- What every row satisfies while stops find only undelivered commands. -/
structure DeliveryInv (row : TargetCommandRow) : Prop where
  waiting : row.status = .waiting → row.firstDeliveredAt = none
  gateway : gatewayMade row = true → row.firstDeliveredAt = none

variable {row : TargetCommandRow}

theorem DeliveryInv.of_fresh (h : FreshRow row) : DeliveryInv row := by
  cases h with
  | queued | waiting =>
    exact ⟨fun _ => rfl, fun _ => rfl⟩

/-- A row without a final outcome has none from the gateway. -/
theorem gatewayMade_terminal (h : gatewayMade row = true) : row.terminal = true := by
  unfold gatewayMade at h
  rw [Bool.and_eq_true] at h
  exact h.1

theorem deliverable_open (h : deliverable row = true) : row.terminal = false ∧ row.status ≠ .waiting := by
  unfold deliverable at h
  simp only [Bool.and_eq_true, Bool.not_eq_true', Bool.or_eq_true, decide_eq_true_eq] at h
  refine ⟨h.1.1, fun hwtg => ?_⟩
  rw [hwtg] at h
  rcases h.1.2 with (h | h) | h <;> exact absurd h (by decide)

variable {r : Report}

theorem report_status {event : EaEvent} (h : report event = some r) :
    r.status = .accepted ∨ r.status = .failed ∨ r.status = .unknown := by
  cases event <;> cases h <;> simp

variable {accountId : String}

theorem acknowledges_unknown (h : acknowledges accountId r row = true) (hunk : r.status = .unknown) : row.terminal = false := by
  unfold acknowledges at h
  rw [if_pos hunk, Bool.and_eq_true, Bool.not_eq_true'] at h
  exact h.2

/-- **Each row step keeps the invariant**, if the account stops are held to it. -/
theorem RowStep.deliveryInv {stops : TargetCommandRow → Prop} {row row' : TargetCommandRow}
    (hstops : ∀ row, stops row → row.firstDeliveredAt = none) (hinv : DeliveryInv row)
    (h : RowStep stops row row') : DeliveryInv row' := by
  cases h with
  | expired =>
    unfold expireDelivery
    split
    · rename_i hnone
      exact ⟨fun _ => hnone, fun _ => hnone⟩
    · exact ⟨fun h => absurd h (by simp), fun h => absurd (gatewayMade_terminal h) Bool.false_ne_true⟩
  | leased sessionId now hdelv =>
    obtain ⟨hopen, hwtg⟩ := deliverable_open hdelv
    refine ⟨fun h => absurd h hwtg, fun h => ?_⟩
    have hterm : row.terminal = true := gatewayMade_terminal h
    exact absurd (hopen.symm.trans hterm) Bool.false_ne_true
  | held lease hwtg => exact ⟨fun _ => hinv.waiting hwtg, fun _ => hinv.waiting hwtg⟩
  | released at' hwtg | rejected code message now hwtg | waitExpired now hwtg =>
    exact ⟨fun _ => hinv.waiting hwtg, fun _ => hinv.waiting hwtg⟩
  | activated order now hwtg =>
    unfold activateRow
    split
    · exact ⟨fun _ => hinv.waiting hwtg, fun _ => hinv.waiting hwtg⟩
    · exact hinv
  | @acknowledged event r accountId now hr hack =>
    unfold acknowledgeRow
    split
    · rename_i hunk
      have hopen := acknowledges_unknown hack hunk
      refine ⟨fun h => absurd h (by simp), fun h => ?_⟩
      have hterm : row.terminal = true := gatewayMade_terminal h
      exact absurd (hopen.symm.trans hterm) Bool.false_ne_true
    · refine ⟨fun h => ?_, fun h => absurd h (by simp [gatewayMade])⟩
      rcases report_status hr with hs | hs | hs <;> exact absurd (hs.symm.trans h) (by decide)
  | stopped remove now hstopp hs =>
    exact ⟨fun h => absurd h (by simp [stopRow]), fun _ => hstops row hs⟩
  | fenced =>
    unfold fenceRow
    split
    · rename_i hnone
      exact ⟨fun _ => hnone, fun _ => hnone⟩
    · exact ⟨fun h => absurd h (by simp), fun h => absurd (gatewayMade_terminal h) Bool.false_ne_true⟩

theorem DeliveryInv.of_history {stops : TargetCommandRow → Prop} {row row' : TargetCommandRow}
    (hstops : ∀ row, stops row → row.firstDeliveredAt = none) (hinv : DeliveryInv row)
    (h : Relation.ReflTransGen (RowStep stops) row row') : DeliveryInv row' := by
  induction h with
  | refl => exact hinv
  | tail _ hstep ih => exact hstep.deliveryInv hstops ih

/-- The queue's invariant: unique ids, and `DeliveryInv` on every row. -/
structure DeliveredOpen (tables : CommandTables) : Prop where
  ids : UniqueIds tables
  rows : ∀ row ∈ tables.commands, DeliveryInv row

theorem DeliveredOpen.empty : DeliveredOpen .empty :=
  ⟨nodup_nil, fun _ hrow => absurd hrow (not_mem_nil)⟩

theorem DeliveredOpen.step {s s' : QueueState} {action : QueueAction}
    (hinv : DeliveredOpen s.tables) (hok : stopsOnlyUndelivered s action = true)
    (h : s.step action = some s') : DeliveredOpen s'.tables := by
  obtain ⟨hrows, hids⟩ := step_rows hinv.ids h
  refine ⟨hids, fun row' hrow' => ?_⟩
  rcases hrows.back row' hrow' with hfsh | ⟨row, hrow, hhist⟩
  · exact .of_fresh hfsh
  · refine .of_history ?_ (hinv.rows row hrow) hhist
    rintro stopped ⟨copier, accountId, remove, now, rfl, hmem, hstopp⟩
    have h := all_eq_true.mp hok stopped hmem
    rw [hstopp, Bool.not_true, Bool.false_or, Option.isNone_iff_eq_none] at h
    exact h

/-- One run keeps every delivered command open to its EA's report. -/
theorem DeliveredOpen.of_reaches {s : QueueState}
    (h : Reaches QueueState.step (fun s a => stopsOnlyUndelivered s a = true) .start s) :
    DeliveredOpen s.tables :=
  h.invariant (fun s => DeliveredOpen s.tables) .empty fun _ _ _ hinv hok hstep => hinv.step hok hstep

variable {now : Millis}

/-- No stop happens inside a batch, so a batch keeps the invariant on its own. -/
theorem DeliveredOpen.acknowledgeBatch {events : List EaEvent} {tables tables' : CommandTables} (hinv : DeliveredOpen tables)
    (h : acknowledgeBatch accountId now events tables = .ok tables') : DeliveredOpen tables' := by
  have hboth : Evolves (fun _ => False) tables tables' ∧ UniqueIds tables' :=
    acknowledgeBatch_evolves hinv.ids h
  obtain ⟨hevo, hids⟩ := hboth
  refine ⟨hids, fun row' hrow' => ?_⟩
  obtain ⟨row, hrow, hhist⟩ := hevo.back row' hrow'
  exact .of_history (fun _ hfalse => hfalse.elim) (hinv.rows row hrow) hhist

/-! ## Refused batches -/

/-- A refused batch stops at the first of its events that is refused. -/
theorem acknowledgeBatch_error {e : ApiError} :
    ∀ (events : List EaEvent) (tables : CommandTables),
      acknowledgeBatch accountId now events tables = .error e →
      ∃ before event after mid, events = before ++ event :: after ∧ acknowledgeBatch accountId now before tables = .ok mid ∧
        acknowledge accountId now mid event = .error e := by
  intro events
  induction events with
  | nil => intro tables h; exact absurd h (by simp [acknowledgeBatch, pure, Except.pure])
  | cons event rest ih =>
    intro tables h
    unfold acknowledgeBatch at h
    rw [foldlM_cons] at h
    cases hevt : acknowledge accountId now tables event with
    | error =>
      rw [hevt] at h
      cases h
      exact ⟨[], event, rest, tables, rfl, rfl, hevt⟩
    | ok next =>
      rw [hevt] at h
      obtain ⟨before, bad, after, mid, rfl, hbef, hbad⟩ := ih next h
      refine ⟨event :: before, bad, after, mid, rfl, ?_, hbad⟩
      unfold MarketLens.Commands.acknowledgeBatch
      rw [foldlM_cons, hevt]
      exact hbef

theorem countP_acknowledges {tables : CommandTables} (hids : UniqueIds tables) (hrow : row ∈ tables.commands)
    (hack : acknowledges accountId r row = true) :
    tables.commands.countP (acknowledges accountId r) = 1 := by
  have hid : ∀ other, acknowledges accountId r other = true → other.id = r.commandId := by
    intro other hoth
    unfold acknowledges at hoth
    simp only [Bool.and_eq_true, decide_eq_true_eq] at hoth
    exact hoth.1.2
  have hndp : tables.commands.Nodup := List.Nodup.of_map _ hids
  rw [countP_eq_length_filter]
  have hfilter : tables.commands.filter (acknowledges accountId r) = [row] := by
    refine perm_singleton.mp ((perm_ext_iff_of_nodup (hndp.filter _) (nodup_singleton row)).mpr fun other => ?_)
    rw [mem_filter, mem_singleton]
    constructor
    · rintro ⟨hoth, hack'⟩
      exact hids.eq_of_id hoth hrow ((hid other hack').trans (hid row hack).symm)
    · rintro rfl
      exact ⟨hrow, hack⟩
  rw [hfilter]
  rfl

/-- A refused report is about a command with a different final outcome, if about any at all. -/
theorem acknowledge_error {event : EaEvent} {e : ApiError} {tables : CommandTables} (hids : UniqueIds tables)
    (h : acknowledge accountId now tables event = .error e) :
    e = commandEventInvalid ∧ ∃ r, report event = some r ∧
      ∀ row ∈ tables.commands, row.id = r.commandId → row.targetAccountId = accountId →
        row.terminal = true ∧ (r.status = .unknown ∨ row.status ≠ r.status) := by
  unfold acknowledge at h
  split at h
  · cases h
  rename_i r hr
  split at h
  · cases h
  rename_i hcnt
  refine ⟨(error.inj h).symm, r, hr, fun row hrow hid hacct => ?_⟩
  by_contra hcontra
  refine hcnt (countP_acknowledges hids hrow ?_)
  unfold acknowledges
  rw [hacct, hid]
  rw [not_and_or, not_or, not_not] at hcontra
  by_cases hunk : r.status = .unknown
  · rw [if_pos hunk]
    rcases hcontra with h | h
    · simpa using h
    · exact absurd hunk h.1
  · rw [if_neg hunk]
    rcases hcontra with h | h
    · simp [h]
    · simp [h.2]

/-! ## The main result -/

theorem stop_delivered {s s' : QueueState} {action : QueueAction}
    (h : s.step action = some s') (hbad : stopsOnlyUndelivered s action = false) :
    ∃ row ∈ s'.tables.commands, gatewayMade row = true ∧ row.firstDeliveredAt ≠ none := by
  cases action with
  | manageAccount copier accountId remove now =>
    obtain ⟨tables', hok, rfl⟩ := commit_some h
    obtain ⟨hc, _⟩ := manageAccount_ok hok
    obtain ⟨row, hrow, hrow'⟩ := all_eq_false.mp hbad
    rw [Bool.or_eq_true, not_or, Bool.not_eq_true', Bool.not_eq_false, Option.isNone_iff_eq_none] at hrow'
    refine ⟨stopRow remove now row, ?_, rfl, hrow'.2⟩
    show _ ∈ tables'.commands
    rw [hc]
    exact Table.updated_mem hrow hrow'.1
  | _ => exact absurd hbad (by simp [stopsOnlyUndelivered])

/-- **Only undelivered commands get an outcome from the gateway, as long as account stops find
no delivered ones**: then no report about a delivered command is refused on account of such an
outcome. A stop that does find one breaks this at once. -/
theorem gatewayMade_undelivered {s : QueueState}
    (h : Reaches QueueState.step (fun s a => stopsOnlyUndelivered s a = true) .start s) :
    (∀ row ∈ s.tables.commands, gatewayMade row = true → row.firstDeliveredAt = none) ∧
    (∀ accountId now events e, acknowledgeBatch accountId now events s.tables = .error e →
      ∃ before event after mid r, events = before ++ event :: after ∧ acknowledgeBatch accountId now before s.tables = .ok mid ∧
        report event = some r ∧ e = commandEventInvalid ∧
        ∀ row ∈ mid.commands, row.id = r.commandId → row.targetAccountId = accountId → row.firstDeliveredAt ≠ none →
          row.terminal = true ∧ gatewayMade row = false ∧ (r.status = .unknown ∨ row.status ≠ r.status)) ∧
    (∀ action s', s.step action = some s' → stopsOnlyUndelivered s action = false →
      ∃ row ∈ s'.tables.commands, gatewayMade row = true ∧ row.firstDeliveredAt ≠ none) := by
  have hinv := DeliveredOpen.of_reaches h
  refine ⟨fun row hrow => (hinv.rows row hrow).gateway, ?_, fun _ _ => stop_delivered⟩
  intro accountId now events e herror
  obtain ⟨before, event, after, mid, hevs, hbef, hbad⟩ :=
    acknowledgeBatch_error events s.tables herror
  have hmid := hinv.acknowledgeBatch hbef
  obtain ⟨he, r, hr, hrows⟩ := acknowledge_error hmid.ids hbad
  refine ⟨before, event, after, mid, r, hevs, hbef, hr, he, ?_⟩
  intro row hrow hid hacct hdlvd
  obtain ⟨hterm, hstat⟩ := hrows row hrow hid hacct
  refine ⟨hterm, ?_, hstat⟩
  rw [← Bool.not_eq_true]
  exact fun hgateway => hdlvd ((hmid.rows row hrow).gateway hgateway)

section Runs

/-- A demo terminal with a current EA. -/
def demoAccount : EaAccountSnapshot :=
  ⟨"1001", "Demo Broker", "Demo-1", .demo, "USD", 10000, 10000, 0, 10000, 100, true, 4000,
    some "1.26"⟩

def noCopier : CopyTables := ⟨[], [], [], [], [], []⟩

def closeTicket : EaCommand :=
  .closePosition ⟨"close-1", "key-1", "mt5-a", "77", none, 20⟩

/-- An EA pairs, polls, and is handed a command with its second poll. -/
def deliverClose : List QueueAction :=
  [.pair "mt5-a" 1 demoAccount none 1000,
   .authenticate 1 false 1100,
   .poll ⟨1, "mt5-a"⟩ 1200,
   .enqueue noCopier "mt5-a" closeTicket 1300,
   .poll ⟨1, "mt5-a"⟩ 1400]

/-- The user disconnects the account, and the EA pairs again. -/
def disconnectAndPair : List QueueAction :=
  [.manageAccount noCopier "mt5-a" false 1500,
   .pair "mt5-a" 2 demoAccount none 1600,
   .authenticate 2 false 1700]

def closeAccepted : EaEvent := .commandAccepted "close-1" (some "501") none 10009 "done" 1450

/-- Delivered, then disconnected: the EA's report of success is refused, and its batch with
it, because the gateway has declared the command failed. -/
theorem disconnect_poisons_batch : ∃ s, Reaches QueueState.step always .start s ∧
      (∃ row ∈ s.tables.commands, gatewayMade row = true ∧ row.status = .failed ∧ row.firstDeliveredAt = some 1400) ∧
      ⟨2, "mt5-a"⟩ ∈ s.requests ∧
      acknowledgeBatch "mt5-a" 1800 [closeAccepted] s.tables = .error commandEventInvalid := by
  have hrun :
      (exec QueueState.step (fun _ _ => true) .start (deliverClose ++ disconnectAndPair)).any (fun s =>
        s.tables.commands.any (fun row => gatewayMade row && row.status = .failed && row.firstDeliveredAt = some 1400)
        && decide (⟨2, "mt5-a"⟩ ∈ s.requests)
        && decide ((acknowledgeBatch "mt5-a" 1800 [closeAccepted] s.tables).toOption = none))
      = true := by decide
  rw [Option.any_eq_true] at hrun
  obtain ⟨s, hexec, hs⟩ := hrun
  simp only [Bool.and_eq_true, any_eq_true, decide_eq_true_eq] at hs
  obtain ⟨⟨⟨row, hrow, ⟨hgateway, hfail⟩, hdlvd⟩, hsess⟩, hrefd⟩ := hs
  refine ⟨s, reaches_exec hexec, ⟨row, hrow, hgateway, hfail, hdlvd⟩, hsess, ?_⟩
  cases hbat : acknowledgeBatch "mt5-a" 1800 [closeAccepted] s.tables with
  | ok => rw [hbat] at hrefd; exact absurd hrefd (by simp [Except.toOption])
  | error =>
    obtain ⟨_, event, _, mid, _, _, hbad⟩ := acknowledgeBatch_error _ _ hbat
    unfold acknowledge at hbad
    split at hbad
    · cases hbad
    split at hbad
    · cases hbad
    · exact congrArg error (error.inj hbad).symm

/-- A run with a delivered command and no stop of it. -/
theorem deliverClose_undelivered :
    ∃ s, Reaches QueueState.step (fun s a => stopsOnlyUndelivered s a = true) .start s ∧
      s.tables.commands ≠ [] ∧
      ∀ row ∈ s.tables.commands, gatewayMade row = true → row.firstDeliveredAt = none := by
  have hrun : (exec QueueState.step stopsOnlyUndelivered .start deliverClose).any
      (fun s => decide (s.tables.commands ≠ [])) = true := by decide
  rw [Option.any_eq_true] at hrun
  obtain ⟨s, hexec, hs⟩ := hrun
  have hrch := reaches_of_exec (fun _ _ h => h) hexec
  exact ⟨s, hrch, of_decide_eq_true hs, (gatewayMade_undelivered hrch).1⟩

end Runs

end MarketLens.Commands
