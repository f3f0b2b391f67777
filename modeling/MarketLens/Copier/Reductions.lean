import MarketLens.Copier.CloseLedger
import MarketLens.Lib.Proportion

/-!
# A source that gives up its position piece by piece

Each piece is copied by a partial close, the last one by a close of the whole ticket,
and the link of the leg has the volumes of both sides as the reports left them. The
close of a piece is worked out from these running volumes, not from the ones the leg
was opened with. So the two sides of a link shrink with the position like two parts
of it; a close that is not carried out leaves both as they were.
-/

namespace MarketLens.Copier

open Table List LinkRow Store Commands Fallible Runs Proportion

/-! ## Reductions of a position -/

/-- The copier's tables, and the volume of the source's position. -/
structure LegState where
  tables : CopyTables
  held : Decimal

/-- A change of the source that is to be copied, and what the EA reports of the command. -/
structure CopiedReduction where
  env : WorkEnv
  work : WorkRow
  status : TargetStatus
  brokerOrderId : Option String
  brokerDealId : Option String
  brokerPositionId : Option String

def CopiedReduction.report (a : CopiedReduction) (commandId : String) : Report :=
  ⟨commandId, a.status, a.brokerOrderId, a.brokerDealId⟩

/-- What a change takes of a position of this volume, if it reduces it. -/
def takenFrom (held : Decimal) : PortfolioChange → Option Decimal
  | .positionReduced previous current delta =>
    if previous.quantity = held ∧ 0 < delta ∧ delta ≤ held ∧ current.quantity = held - delta then some delta else none
  | .positionClosed previous => if previous.quantity = held ∧ 0 < held then some held else none
  | _ => none

/-- Carry out one reduction on the leg: plan its command, persist it, publish it under the id the queue took it in by, and take
the EA's report in. -/
def LegState.step (leg : Leg) (s : LegState) (a : CopiedReduction) : Option LegState :=
  match planWork a.env s.tables a.work with
  | .ok (.issue (.closePosition close)) => do
    let taken ← takenFrom s.held a.work.payload.change
    let persisted ← (persistCopierOutbox a.env s.tables a.work (.closePosition close)).toOption
    let issued := { a.env with issuedCommands := close.commandId :: a.env.issuedCommands }
    let published ← (publishCopierOutbox issued persisted a.work.id close.commandId
      a.work.payload.change).toOption
    let reported ← (acknowledgeCopier (a.report close.commandId) a.brokerPositionId a.env.now
      published).toOption
    -- staging gives every live leg the item of each change it copies
    if leg.concernedBy a.work && a.work.operation ∈ copyWorkOperations a.work.payload.change a.work.payload.groupConfig
        && !s.tables.outbox.any (fun row => row.workItemId = a.work.id
          || row.targetCommandId = some close.commandId) then
      return ⟨reported, s.held - taken⟩
    else none
  | _ => none

def accepted (_ : LegState) (a : CopiedReduction) : Prop := a.status = .accepted

/-- The volumes that are left on the two sides of a link; of a closed one nothing is. -/
def LinkRow.remaining (link : LinkRow) : Option (Decimal × Decimal) :=
  if link.lifecycleStatus = .closed then some (0, 0)
  else do
    let source ← link.sourceQuantity
    let target ← link.targetQuantity
    return (source, target)

/-- What is left of the leg. -/
def Leg.remaining (leg : Leg) (tables : CopyTables) : Option (Decimal × Decimal) :=
  (tables.links.find? fun link => LinkRow.key link = leg.key).bind LinkRow.remaining

/-- The leg as its opening leaves it: its link has the ticket, and a volume on either side. -/
structure Opened (leg : Leg) (ticket : String) (source target : Decimal) (s : LegState) : Prop where
  unique : (s.tables.links.map LinkRow.key).Nodup
  held_pos : 0 < s.held
  source_pos : 0 < source
  target_pos : 0 < target
  link : ∃ link ∈ s.tables.links, LinkRow.key link = leg.key ∧ link.lifecycleStatus.live = true ∧
    link.target = some (.position, ticket) ∧ link.sourceQuantity = some source ∧ link.targetQuantity = some target

theorem Leg.remaining_eq {leg : Leg} {tables : CopyTables} {link : LinkRow} (huniq : (tables.links.map LinkRow.key).Nodup)
    (hlink : link ∈ tables.links) (hkey : LinkRow.key link = leg.key) : leg.remaining tables = LinkRow.remaining link := by
  unfold Leg.remaining
  rw [← hkey, Table.find?_key huniq hlink]
  rfl

theorem LinkRow.remaining_of_live {link : LinkRow} {source target : Decimal} (hlive : link.lifecycleStatus.live = true)
    (hsource : link.sourceQuantity = some source) (htarget : link.targetQuantity = some target) :
    LinkRow.remaining link = some (source, target) := by
  unfold remaining
  rw [hsource, htarget, if_neg]
  · rfl
  intro hclsd
  rw [hclsd] at hlive
  cases hlive

/-! ## The close of a whole position -/

section Close

variable {env : WorkEnv} {tables after : CopyTables} {work : WorkRow} {link : LinkRow} {leg : Leg}

theorem publishCopierOutbox_marks {workId : Uuid} {commandId : String} {change : PortfolioChange}
    (h : publishCopierOutbox env tables workId commandId change = .ok after) :
    ∃ closing, after.links = updateWhere closing (closeLink env.now) tables.links := by
  obtain ⟨-, h⟩ := unit_bind_ok.mp h
  rw [← Except.ok.inj h]
  cases endsSource change with
  | true => exact ⟨_, rfl⟩
  | false => exact ⟨fun _ => false, (updateWhere_none fun _ _ => rfl).symm⟩

theorem reportedLink_closed {report : Report} {outbox : List OutboxRow} {row : OutboxRow} (brokerPositionId : Option String)
    (now : Time) (hfnd : reportedOutbox report outbox link = some row) (htype : row.commandType = "close_position") :
    (reportedLink report brokerPositionId outbox now link).lifecycleStatus
      = (if report.status = .accepted then .closed else .error) ∧
    (reportedLink report brokerPositionId outbox now link).sourceQuantity = link.sourceQuantity ∧
    (reportedLink report brokerPositionId outbox now link).targetQuantity = link.targetQuantity := by
  unfold reportedLink
  rw [hfnd]
  unfold acknowledgeLink acknowledgedStatus opensTarget reducesLeg
  simp [htype]

/-- **What the close of a whole position leaves of the leg.** -/
theorem closePosition_leaves {ticket : String} {close : ClosePositionCommand} {report : Report} {brokerPositionId : Option String}
    (huniq : (tables.links.map LinkRow.key).Nodup) (hlink : link ∈ tables.links)
    (hkey : LinkRow.key link = leg.key) (hlive : link.lifecycleStatus.live = true)
    (htgt : link.target = some (.position, ticket)) (hop : work.operation = .closePosition)
    (hcon : leg.concernedBy work = true) (h : Carried env work report brokerPositionId tables close after) :
    close.brokerPositionId = ticket ∧ close.quantity = none ∧
    (after.links.map LinkRow.key).Nodup ∧ ∃ link' ∈ after.links, LinkRow.key link' = leg.key ∧
      link'.lifecycleStatus = (if report.status = .accepted then .closed else .error) ∧
      link'.sourceQuantity = link.sourceQuantity ∧ link'.targetQuantity = link.targetQuantity := by
  obtain ⟨hplan, hcmd, hnew, persisted, published, hpersist, hpublish, hrpt⟩ := h
  have hiss := planWork_issue hplan
  rw [hop] at hiss
  obtain ⟨ticket', htkt, hclose⟩ := hiss
  have htkt := copierTargetEntityId_eq huniq hlink hkey hcon htkt
  rw [htgt] at htkt
  obtain rfl : ticket = ticket' := Option.some.inj htkt
  obtain ⟨houtbox, htagged⟩ := persistCopierOutbox_close (fun row hrow => (hnew row hrow).1) hpersist
  obtain ⟨closing, hmarks⟩ := publishCopierOutbox_marks hpublish
  have haft := acknowledgeCopier_ok hrpt
  rw [reported_outbox hnew ⟨rfl, rfl⟩ houtbox hpublish, hmarks, htagged, ← hcmd] at haft
  have hplace : close.brokerPositionId = ticket ∧ close.quantity = none := by
    cases hclose
    exact ⟨rfl, rfl⟩
  refine ⟨hplace.1, hplace.2, ?_, ?_⟩
  · have hclosing : ∀ other, key (closeLink env.now other) = key other := fun _ => rfl
    rw [haft, reportedLinks_keys]
    rwa [← (map_updateWhere hclosing _).trans (map_updateWhere tagLink_key _)] at huniq
  · -- the link is tagged, may be marked as closing, and is found by the report
    obtain ⟨marked, hmem, hmarked⟩ : ∃ marked ∈ updateWhere closing (closeLink env.now)
        (updateWhere (concerns work) (tagLink env work report.commandId) tables.links),
        marked = tagLink env work report.commandId link ∨ marked = closeLink env.now (tagLink env work report.commandId link) := by
      have htag : tagLink env work report.commandId link ∈
          updateWhere (concerns work) (tagLink env work report.commandId) tables.links :=
        updated_mem hlink (concerns_link hkey hcon hlive)
      exact exists_updateWhere htag (.inl rfl) fun _ => .inr rfl
    have hleg := (concernedBy_key hcon).mpr hkey
    unfold LinkRow.isLegOf at hleg
    simp only [Bool.and_eq_true, decide_eq_true_eq] at hleg
    have hfnd : reportedOutbox report (tables.outbox ++ [acknowledgeOutbox report (publishRow report.commandId
        (outboxRow env tables work (.closePosition close)))]) marked = some _ :=
      reportedOutbox_tagged (fun row hrow => (hnew row hrow).2) (by rcases hmarked with rfl | rfl <;>
        exact ⟨rfl, hleg.1.1.1.1.symm, hleg.1.1.1.2.symm⟩) (by rcases hmarked with rfl | rfl <;> rfl)
    refine ⟨_, by rw [haft]; exact mem_map_of_mem hmem, (reportedLink_key _).trans ?_, ?_⟩
    · rcases hmarked with rfl | rfl <;> exact hkey
    · obtain ⟨hsts, hsource, htarget⟩ := reportedLink_closed brokerPositionId env.now hfnd (if_neg (by rw [hop]; exact nofun))
      rcases hmarked with rfl | rfl <;> exact ⟨hsts, hsource, htarget⟩

end Close

section Step

variable {leg : Leg} {s s' : LegState} {a : CopiedReduction}

/-- The transactions of one reduction. -/
theorem LegState.step_cases (h : s.step leg a = some s') : ∃ close taken,
    Carried a.env a.work (a.report close.commandId) a.brokerPositionId s.tables close s'.tables ∧
    takenFrom s.held a.work.payload.change = some taken ∧ leg.concernedBy a.work = true ∧
    a.work.operation ∈ copyWorkOperations a.work.payload.change a.work.payload.groupConfig ∧
    s'.held = s.held - taken := by
  unfold LegState.step at h
  split at h
  · rename_i close hplan
    obtain ⟨taken, htaken, h⟩ := Option.bind_eq_some_iff.mp h
    obtain ⟨persisted, hpersist, h⟩ := Option.bind_eq_some_iff.mp h
    obtain ⟨published, hpublish, h⟩ := Option.bind_eq_some_iff.mp h
    obtain ⟨reported, hrpt, h⟩ := Option.bind_eq_some_iff.mp h
    split at h
    · rename_i hguard
      rw [Bool.and_eq_true, Bool.and_eq_true, Bool.not_eq_true', any_eq_false, decide_eq_true_iff] at hguard
      obtain ⟨⟨hcon, hstaged⟩, hnew⟩ := hguard
      cases h
      refine ⟨close, taken, ⟨hplan, rfl, fun row hrow => ?_, persisted, published, toOption_some hpersist,
        toOption_some hpublish, toOption_some hrpt⟩, htaken, hcon, hstaged, rfl⟩
      have hoth := hnew row hrow
      rw [Bool.or_eq_true, not_or, decide_eq_true_iff, decide_eq_true_iff] at hoth
      exact hoth
    · cases h
  · cases h

/-- The position of the source and the two sides of the leg's link are these parts. -/
structure Splits (leg : Leg) (ticket : String) (parts : Parts Decimal) (s : LegState) : Prop where
  whole : parts.whole = s.held
  left : leg.remaining s.tables = some (parts.first, parts.second)
  live : 0 < s.held → (s.tables.links.map LinkRow.key).Nodup ∧
    ∃ link ∈ s.tables.links, LinkRow.key link = leg.key ∧ link.lifecycleStatus.live = true ∧
      link.target = some (.position, ticket) ∧ link.sourceQuantity = some parts.first ∧ link.targetQuantity = some parts.second

variable {ticket : String} {parts : Parts Decimal}

/-- A part of the position is copied by a partial close, the whole of it by a close. -/
theorem takenFrom_some {held taken : Decimal} {change : PortfolioChange} {operation : CopyOperation}
    {config : ContinuousCopyConfig} (h : takenFrom held change = some taken)
    (hstaged : operation ∈ copyWorkOperations change config) : 0 < taken ∧ taken ≤ held ∧
      ((∃ previous current, change = .positionReduced previous current taken ∧ previous.quantity = held ∧
        operation = .partialClose) ∨
      ((∃ previous, change = .positionClosed previous) ∧ taken = held ∧ operation = .closePosition)) := by
  unfold takenFrom at h
  split at h
  · rename_i previous current delta
    split at h
    · rename_i hred
      cases h
      have hstaged : operation ∈ if config.copyPartialCloses then [CopyOperation.partialClose] else [] := hstaged
      split at hstaged
      · exact ⟨hred.2.1, hred.2.2.1, .inl ⟨_, _, rfl, hred.1, mem_singleton.mp hstaged⟩⟩
      · cases hstaged
    · cases h
  · split at h
    · rename_i hclsd
      cases h
      exact ⟨hclsd.2, le_rfl, .inr ⟨⟨_, rfl⟩, rfl, mem_singleton.mp hstaged⟩⟩
    · cases h
  · cases h

/-- A part of the position asks for the same share of either side of the link. -/
theorem closedShare_reduced {previous current : EaPositionSnapshot} {delta volume : Decimal} (hwhole : 0 < previous.quantity)
    (hle : delta ≤ previous.quantity) (hvol : 0 ≤ volume) :
    closedShare (.positionReduced previous current delta) volume = delta * volume / previous.quantity ∧
      sourceShareLeft (.positionReduced previous current delta) (some volume) = rest previous.quantity delta volume :=
  ⟨min_eq_left (share_le hwhole hle hvol), (if_pos hwhole).trans (max_eq_left (rest_nonneg hwhole hle hvol))⟩

/-- **One reduction is one cut**, which the leg follows if the EA reports success. -/
theorem Splits.step (h : Splits leg ticket parts s) (hleft : 0 < parts.whole → 0 < parts.first ∧ 0 < parts.second)
    (hs : s.step leg a = some s') :
    (∃ taken parts', parts.step ⟨taken, a.status = .accepted⟩ = some parts' ∧ Splits leg ticket parts' s') ∧
    ∃ close, planWork a.env s.tables a.work = .ok (.issue (.closePosition close)) ∧ close.brokerPositionId = ticket ∧
      close.quantity = copierPartialCloseQuantity a.work.payload.change (some parts.second) ∧
      0 < close.quantity.getD parts.second ∧ close.quantity.getD parts.second ≤ parts.second := by
  obtain ⟨close, taken, hcarried, htaken, hcon, hstaged, hheld⟩ := LegState.step_cases hs
  obtain ⟨hpos, hle, hchg⟩ := takenFrom_some htaken hstaged
  have hwhole : 0 < s.held := hpos.trans_le hle
  obtain ⟨huniq, link, hlink, hkey, hlive, htgt, hsource, htarget⟩ := h.live hwhole
  rw [← h.whole] at hle hwhole hheld hchg
  obtain ⟨hfirst, hsecond⟩ := hleft hwhole
  suffices hsplits : Splits leg ticket (parts.cut ⟨taken, a.status = .accepted⟩) s' ∧ close.brokerPositionId = ticket ∧
      close.quantity = copierPartialCloseQuantity a.work.payload.change (some parts.second) ∧
      0 < close.quantity.getD parts.second ∧ close.quantity.getD parts.second ≤ parts.second from
    ⟨⟨taken, _, if_pos ⟨hpos, hle⟩, hsplits.1⟩, close, hcarried.plan, hsplits.2⟩
  rcases hchg with ⟨previous, current, hchg, hprev, hop⟩ | ⟨⟨previous, hchg⟩, rfl, hop⟩
  · -- a part of the position: the share of the volume on either side
    obtain ⟨hticket, hquant, hshare, -, huniq', link', hlink', hkey', hlive', htgt', hsource', htarget'⟩ :=
      partialClose_leaves huniq hlink hkey hlive htgt htarget (copiedBy_iff.mpr ⟨hop, hcon⟩) hcarried
    obtain ⟨hshareEq, -⟩ := closedShare_reduced (hprev ▸ hwhole) (hprev ▸ hle) hsecond.le
    rw [hchg, hshareEq] at hshare htarget'
    rw [hchg, hsource, (closedShare_reduced (hprev ▸ hwhole) (hprev ▸ hle) hfirst.le).2] at hsource'
    rw [hprev] at hshare htarget' hsource'
    have hcut : link'.sourceQuantity = some (parts.cut ⟨taken, a.status = .accepted⟩).first ∧
        link'.targetQuantity = some (parts.cut ⟨taken, a.status = .accepted⟩).second := by
      rw [hsource', htarget']
      unfold CopiedReduction.report Parts.cut rest
      by_cases hacc : a.status = .accepted
      · simp [hacc]
      · simp [hacc]
    refine ⟨⟨hheld.symm, ?_, fun _ => ⟨huniq', link', hlink', hkey', hlive', htgt', hcut⟩⟩, hticket, hquant, ?_⟩
    · rw [Leg.remaining_eq huniq' hlink' hkey', remaining_of_live hlive' hcut.1 hcut.2]
    · rw [hshare]
      exact ⟨share_pos hwhole hpos hsecond, share_le hwhole hle hsecond.le⟩
  · -- the whole of it
    obtain ⟨hticket, hquant, huniq', link', hlink', hkey', hsts, hsource', htarget'⟩ :=
      closePosition_leaves huniq hlink hkey hlive htgt hop hcon hcarried
    rw [hquant, hchg]
    refine ⟨⟨?_, ?_, ?_⟩, hticket, rfl, hsecond, le_rfl⟩
    · exact hheld.symm
    · rw [Leg.remaining_eq huniq' hlink' hkey']
      unfold remaining Parts.cut
      rw [hsts, hsource', htarget', hsource, htarget]
      unfold CopiedReduction.report
      by_cases hacc : a.status = .accepted
      · simp [hacc, rest_all hwhole]
      · simp [hacc]
    · intro hmore
      rw [hheld, sub_self] at hmore
      exact absurd hmore (lt_irrefl _)

variable {source target : Decimal} {start : LegState}

/-- A run of reductions of the source is a run of cuts. -/
theorem splits_of_reaches {ok : LegState → CopiedReduction → Prop} (ok' : Parts Decimal → Cut Decimal → Prop)
    (hok : ∀ s a parts taken, ok s a → ok' parts ⟨taken, a.status = .accepted⟩) (hstart : Opened leg ticket source target start)
    (h : Reaches (LegState.step leg) ok start s) :
    ∃ parts, Reaches Parts.step ok' ⟨start.held, source, target⟩ parts ∧ Splits leg ticket parts s := by
  refine h.simulated (Splits leg ticket) ?_ fun parts s a s' hrun hsplits hallowed hs => ?_
  · obtain ⟨huniq, -, -, -, link, hlink, hkey, hlive, htgt, hsource, htarget⟩ := hstart
    refine ⟨rfl, ?_, fun _ => ⟨huniq, link, hlink, hkey, hlive, htgt, hsource, htarget⟩⟩
    rw [Leg.remaining_eq huniq hlink hkey, remaining_of_live hlive hsource htarget]
  · have hkeeps := Parts.keeps_of_reaches hstart.held_pos.le hstart.source_pos hstart.target_pos hrun
    obtain ⟨⟨taken, parts', hcut, hsplits'⟩, -⟩ := hsplits.step hkeeps.left hs
    exact ⟨_, parts', hok _ _ _ taken hallowed, hcut, hsplits'⟩

/-- **A source that is reduced piece by piece.** Every close it makes the leg ask for is positive and no more than what is
left of the target's volume. What is left of both sides keeps the ratio the leg was opened with, and neither is used up
before the other; where no close is refused they are used up together with the position of the source. -/
theorem reductions_proportional (hstart : Opened leg ticket source target start)
    (h : Reaches (LegState.step leg) always start s) : ∃ sourceLeft targetLeft,
    leg.remaining s.tables = some (sourceLeft, targetLeft) ∧ 0 ≤ sourceLeft ∧ 0 ≤ targetLeft ∧
    targetLeft * source = sourceLeft * target ∧ (targetLeft = 0 ↔ sourceLeft = 0) ∧
    (∀ a s', s.step leg a = some s' → ∃ close, planWork a.env s.tables a.work = .ok (.issue (.closePosition close)) ∧
      close.brokerPositionId = ticket ∧
      close.quantity = copierPartialCloseQuantity a.work.payload.change (some targetLeft) ∧
      0 < close.quantity.getD targetLeft ∧ close.quantity.getD targetLeft ≤ targetLeft) ∧
    (Reaches (LegState.step leg) accepted start s →
      sourceLeft * start.held = s.held * source ∧ (targetLeft = 0 ↔ s.held = 0)) := by
  obtain ⟨parts, hrun, hsplits⟩ := splits_of_reaches always (fun _ _ _ _ _ => trivial) hstart h
  have hkeeps := Parts.keeps_of_reaches hstart.held_pos.le hstart.source_pos hstart.target_pos hrun
  have hends := hkeeps.ends hstart.source_pos hstart.target_pos
  refine ⟨parts.first, parts.second, hsplits.left, hkeeps.first, hkeeps.second, hkeeps.ratio, hends.1,
    fun a s' hs => (hsplits.step hkeeps.left hs).2, fun hacc => ?_⟩
  -- the accepted run cuts the same parts
  obtain ⟨parts', hrun', hsplits'⟩ := splits_of_reaches followed (fun _ _ _ _ hsts => decide_eq_true hsts) hstart hacc
  have hratio := Parts.followed_ratio hrun'
  obtain ⟨hfirst, -⟩ := Prod.mk.inj (Option.some.inj (hsplits.left.symm.trans hsplits'.left))
  rw [← hfirst, hsplits'.whole] at hratio
  refine ⟨hratio, hsplits.whole ▸ hends.2, fun hzero => hends.1.mpr ?_⟩
  rw [hzero, zero_mul, mul_eq_zero] at hratio
  exact hratio.resolve_right hstart.held_pos.ne'

end Step

section Examples

/-- The item that copies the end of what a quarter leaves of `sourcePosition`. -/
def restWork : WorkRow :=
  let work := positionWork .closePosition (.positionClosed { sourcePosition with quantity := 3 / 4 })
  { work with id := 8, idempotencyKey := "cpw:8", payload := { work.payload with targetLeg := some 0 } }

/-- A leg of half the volume of `sourcePosition`. -/
def halfLeg : LegState :=
  let tables := copyTables (reduceWork (1 / 4)) [{ positionLink with targetQuantity := some (1 / 2) }]
  ⟨{ tables with work := restWork :: tables.work }, 1⟩

def reported (work : WorkRow) : CopiedReduction := ⟨copyEnv, work, .accepted, none, some "902", none⟩

theorem halfLeg_opened : Opened copiedLeg "77" 1 (1 / 2) halfLeg :=
  ⟨nodup_singleton _, by decide +kernel, by decide +kernel, by decide +kernel, _, mem_singleton.mpr rfl, rfl, rfl, rfl, rfl, rfl⟩

/-- A quarter is taken off both sides, and the rest can be closed. -/
theorem quarter_then_rest : ∃ s sourceLeft targetLeft,
    exec (LegState.step copiedLeg) (fun _ a => a.status = .accepted) halfLeg [reported (reduceWork (1 / 4))] = some s ∧
    copiedLeg.remaining s.tables = some (sourceLeft, targetLeft) ∧ targetLeft * 1 = sourceLeft * (1 / 2) ∧
    sourceLeft * 1 = 3 / 4 * 1 ∧ ∃ close, planWork copyEnv s.tables restWork = .ok (.issue (.closePosition close)) ∧
      close.quantity.getD targetLeft ≤ targetLeft := by
  have hrun : (exec (LegState.step copiedLeg) (fun _ a => a.status = .accepted) halfLeg [reported (reduceWork (1 / 4))]).any
      (fun s => s.held = 3 / 4 && (s.step copiedLeg (reported restWork)).isSome) = true := by decide +kernel
  obtain ⟨s, hexec, htest⟩ := Option.any_eq_true _ _ |>.mp hrun
  rw [Bool.and_eq_true, decide_eq_true_iff, Option.isSome_iff_exists] at htest
  obtain ⟨hheld, s', hs⟩ := htest
  have hreach : Reaches (LegState.step copiedLeg) accepted halfLeg s :=
    reaches_of_exec (fun _ a hacc => show a.status = .accepted from of_decide_eq_true hacc) hexec
  obtain ⟨sourceLeft, targetLeft, hleft, -, -, hratio, -, hclose, hacc⟩ :=
    reductions_proportional halfLeg_opened (hreach.weaken fun _ _ _ => trivial)
  obtain ⟨close, hplan, -, -, -, hle⟩ := hclose _ _ hs
  exact ⟨s, sourceLeft, targetLeft, hexec, hleft, hratio, hheld ▸ (hacc hreach).1, close, hplan, hle⟩

end Examples

end MarketLens.Copier
