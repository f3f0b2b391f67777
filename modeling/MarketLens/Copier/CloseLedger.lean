import MarketLens.Copier.Acknowledge
import MarketLens.Copier.CommandIdentity

/-!
# Partial closes and the volumes they leave

A source that gives up part of a position makes every copy of it give up the same
share. The gateway takes that share of the volume in the leg's link off the link
once the EA reports success. The EA itself closes whole volume steps only, so the
link follows the broker exactly as long as every share is a whole number of steps.

Later items of a group's target wait until the command before them has been
reported on, so partial closes of one leg are carried out one after another: one
step here is one partial close, from its plan to the report. Volumes are exact
numbers; the EA's tolerance, which is there for its floating-point arithmetic, is
kept.
-/

namespace MarketLens.Copier

open Table List Except Store Commands Fallible Runs

/-! ## The EA -/

/-- What a broker says about the volumes of a symbol. -/
structure VolumeRules where
  step : Decimal
  minimum : Decimal
  minimum_pos : 0 < minimum

def VolumeRules.closeStep (rules : VolumeRules) : Decimal :=
  if rules.step ≤ 0 then rules.minimum else rules.step

def closeTolerance : Decimal := 1 / 10 ^ 9

/-- `ExecuteClosePositionCommand`: the volume of an open position that the EA asks its broker to
close, unless it refuses the command. -/
def executeClosePosition (rules : VolumeRules) (currentVolume : Decimal) (quantity : Option Decimal) :
    Option Decimal :=
  if currentVolume = 0 then none
  else
    let volume := quantity.getD currentVolume
    let volume := min currentVolume
      (⌊volume / rules.closeStep + closeTolerance⌋ * rules.closeStep)
    if volume < rules.minimum || volume ≤ 0 then none else some volume

/-- What may come of a close: the EA or the broker refuses it, or the broker closes whole steps of
what it was asked for, and the EA reports success for a part of it too. -/
def mayClose (rules : VolumeRules) (requested closed : Option Decimal) : Bool :=
  closed.all fun closed => requested.any fun requested =>
    0 ≤ closed && closed ≤ requested && floorToStep closed rules.closeStep = closed

/-! ## One partial close -/

structure Leg where
  groupId : Uuid
  targetAccountId : String
  sourceEntityId : String
  targetLeg : Nat

def LinkRow.key (link : LinkRow) : Uuid × String × EntityKind × String × Nat :=
  (link.groupId, link.targetAccountId, link.sourceEntityKind, link.sourceEntityId, link.targetLeg)

def Leg.key (leg : Leg) : Uuid × String × EntityKind × String × Nat :=
  (leg.groupId, leg.targetAccountId, .position, leg.sourceEntityId, leg.targetLeg)

/-- The copier's tables, and the volume of each position the target's broker has open. -/
structure CloseState where
  tables : CopyTables
  volumes : String → Decimal

/-- A partial close, what the broker closes, and the ids the report gives. -/
structure CopiedClose where
  env : WorkEnv
  work : WorkRow
  closed : Option Decimal
  brokerOrderId : Option String
  brokerDealId : Option String
  brokerPositionId : Option String

/-- The item copies a partial close of the leg. Staging gives such an item for every live leg. -/
def Leg.copiedBy (leg : Leg) (work : WorkRow) : Bool :=
  work.operation = .partialClose && work.groupId = leg.groupId
    && work.targetAccountId = leg.targetAccountId
    && copySourceEntityKind work.payload.change = .position
    && work.payload.change.sourceResourceId = leg.sourceEntityId
    && work.payload.targetLeg = some leg.targetLeg

/-- The item is about the leg. -/
def Leg.concernedBy (leg : Leg) (work : WorkRow) : Bool :=
  work.groupId = leg.groupId && work.targetAccountId = leg.targetAccountId
    && copySourceEntityKind work.payload.change = .position
    && work.payload.change.sourceResourceId = leg.sourceEntityId
    && work.payload.targetLeg = some leg.targetLeg

def CopiedClose.report (a : CopiedClose) (commandId : String) : Report :=
  ⟨commandId, if a.closed.isSome then .accepted else .failed, a.brokerOrderId, a.brokerDealId⟩

/-- Carry out one partial close of the leg: plan it, persist it, publish it under the id the queue
took it in by, let the EA execute it, and take its report in. -/
def CloseState.step (rules : VolumeRules) (leg : Leg) (s : CloseState) (a : CopiedClose) :
    Option CloseState :=
  match planWork a.env s.tables a.work with
  | .ok (.issue (.closePosition close)) => do
    let persisted ← (persistCopierOutbox a.env s.tables a.work (.closePosition close)).toOption
    let issued := { a.env with issuedCommands := close.commandId :: a.env.issuedCommands }
    let published ← (publishCopierOutbox issued persisted a.work.id close.commandId
      a.work.payload.change).toOption
    let reported ← (acknowledgeCopier (a.report close.commandId) a.brokerPositionId a.env.now
      published).toOption
    -- the queue refuses a second command under one id, and an item is persisted once
    if leg.copiedBy a.work
        && !s.tables.outbox.any (fun row => row.workItemId = a.work.id
          || row.targetCommandId = some close.commandId)
        && mayClose rules
          (executeClosePosition rules (s.volumes close.brokerPositionId) close.quantity) a.closed then
      return ⟨reported, Function.update s.volumes close.brokerPositionId
        (s.volumes close.brokerPositionId - a.closed.getD 0)⟩
    else none
  | _ => none

/-! ## The ledger and the broker -/

/-- The volume the leg's link says is open. -/
def ledgerVolume (leg : Leg) (tables : CopyTables) : Option Decimal :=
  (tables.links.find? fun link => LinkRow.key link = leg.key).bind (·.targetQuantity)

/-- The leg as its opening leaves it: its link has the ticket and the volume of an open position. -/
structure Tracks (leg : Leg) (ticket : String) (s : CloseState) : Prop where
  unique : (s.tables.links.map LinkRow.key).Nodup
  link : ∃ link ∈ s.tables.links, LinkRow.key link = leg.key ∧ link.lifecycleStatus.live = true ∧
    link.target = some (.position, ticket) ∧ link.targetQuantity = some (s.volumes ticket)

/-- The share of a volume that a reduction of the source asks for. -/
def closedShare (change : PortfolioChange) (volume : Decimal) : Decimal :=
  match change with
  | .positionReduced previous _ delta => min (delta * volume / previous.quantity) volume
  | _ => 0

/-- What a reduction of the source leaves of the volume that the leg copies. -/
def sourceShareLeft (change : PortfolioChange) (sourceQuantity : Option Decimal) : Decimal :=
  match change with
  | .positionReduced previous current delta =>
    match sourceQuantity with
    | some quantity => if previous.quantity > 0 then max (quantity - delta * quantity / previous.quantity) 0
      else current.quantity
    | none => current.quantity
  | _ => 0

/-- Nothing is closed, or the share is a whole number of steps and the broker closes all of what
the EA asks for. -/
def wholeSteps (rules : VolumeRules) (ticket : String) (s : CloseState) (a : CopiedClose) : Prop :=
  a.closed = none ∨
    floorToStep (closedShare a.work.payload.change (s.volumes ticket)) rules.closeStep =
      closedShare a.work.payload.change (s.volumes ticket) ∧
    a.closed = executeClosePosition rules (s.volumes ticket)
      (some (closedShare a.work.payload.change (s.volumes ticket)))

/-! ## Whole steps -/

theorem VolumeRules.closeStep_pos (rules : VolumeRules) : 0 < rules.closeStep := by
  unfold VolumeRules.closeStep
  split
  · exact rules.minimum_pos
  · rename_i hstep
    exact not_le.mp hstep

theorem executeClosePosition_whole {rules : VolumeRules} {current share requested : Decimal}
    (hle : share ≤ current) (hwho : floorToStep share rules.closeStep = share)
    (h : executeClosePosition rules current (some share) = some requested) : requested = share := by
  have hpos := rules.closeStep_pos
  obtain ⟨steps, hsteps⟩ := (floorToStep_eq_iff hpos).mp hwho
  have hrounded : ⌊share / rules.closeStep + closeTolerance⌋ = steps := by
    rw [hsteps, mul_div_cancel_right₀ _ hpos.ne', Int.floor_intCast_add]
    have htolerance : ⌊closeTolerance⌋ = 0 := by
      rw [Int.floor_eq_zero_iff]
      unfold closeTolerance
      constructor <;> norm_num
    rw [htolerance, add_zero]
  unfold executeClosePosition at h
  split at h
  · cases h
  rw [Option.getD_some] at h
  dsimp only at h
  rw [hrounded, ← hsteps, min_eq_right hle] at h
  split at h
  · cases h
  · exact (Option.some.inj h).symm

/-! ## What a partial close says -/

variable {change : PortfolioChange} {brokerPositionId : Option String} {now : Time}

section Plan

variable {env : WorkEnv} {tables after : CopyTables} {work : WorkRow}

theorem planWork_partialClose {command : EaCommand} (hop : work.operation = .partialClose)
    (h : planWork env tables work = .ok (.issue command)) : ∃ ticket held share,
      copierTargetEntityId tables work .position = some ticket ∧
      copierTargetQuantity tables work .position = some held ∧
      copierPartialCloseQuantity work.payload.change (some held) = some share ∧
      command = closeCommand env work (some share) ticket := by
  have hiss := planWork_issue h
  rw [hop] at hiss
  obtain ⟨ticket, htkt, hbui⟩ := hiss
  obtain ⟨held, hheld, hbui⟩ := bind_ok.mp hbui
  obtain ⟨share, hshare, hbui⟩ := bind_ok.mp hbui
  exact ⟨ticket, held, share, htkt, require_ok.mp hheld, require_ok.mp hshare, (ok.inj hbui).symm⟩

theorem copierPartialCloseQuantity_some {held share : Decimal} (h : copierPartialCloseQuantity change (some held) = some share) :
    (∃ previous current delta, change = .positionReduced previous current delta) ∧
      share = closedShare change held ∧ share ≤ held := by
  cases change with
  | positionReduced previous current delta =>
    unfold copierPartialCloseQuantity at h
    dsimp only at h
    split at h
    · obtain ⟨target, htgt, h⟩ := Option.bind_eq_some_iff.mp h
      cases htgt
      split at h
      · cases h
        exact ⟨⟨previous, current, delta, rfl⟩, rfl, min_le_right _ _⟩
      · cases h
    · cases h
  | _ => cases h

/-- What persisting a command that is not an order leaves behind. -/
theorem persistCopierOutbox_close {close : ClosePositionCommand} (hnew : ∀ row ∈ tables.outbox, row.workItemId ≠ work.id)
    (h : persistCopierOutbox env tables work (.closePosition close) = .ok after) :
    after.outbox = tables.outbox ++ [outboxRow env tables work (.closePosition close)] ∧
      after.links = updateWhere (concerns work) (tagLink env work close.commandId) tables.links := by
  obtain ⟨group, -, -, rfl⟩ := persistCopierOutbox_ok h
  refine ⟨?_, rfl⟩
  refine if_neg ?_
  rw [any_eq_true]
  rintro ⟨row, hrow, hsame⟩
  exact hnew row hrow (of_decide_eq_true hsame)

theorem publishCopierOutbox_links {workId : Uuid} {commandId : String} (hkept : endsSource change = false)
    (h : publishCopierOutbox env tables workId commandId change = .ok after) :
    after.links = tables.links := by
  obtain ⟨-, h⟩ := unit_bind_ok.mp h
  rw [← ok.inj h, hkept]
  rfl

theorem acknowledgeCopier_ok {report : Report} (h : acknowledgeCopier report brokerPositionId now tables = .ok after) :
    after.links = tables.links.map (reportedLink report brokerPositionId
      (updateWhere (·.targetCommandId = some report.commandId) (acknowledgeOutbox report) tables.outbox) now) := by
  obtain ⟨-, h⟩ := unit_bind_ok.mp h
  rw [← ok.inj h]

end Plan

/-! ## The link of the leg -/

variable {held closed : Decimal}

section Link

variable {leg : Leg} {tables : CopyTables} {work : WorkRow} {link : LinkRow}

theorem copiedBy_iff : leg.copiedBy work = true ↔ work.operation = .partialClose ∧ leg.concernedBy work = true := by
  unfold Leg.copiedBy Leg.concernedBy
  simp only [Bool.and_eq_true, decide_eq_true_eq, and_assoc]

variable {other : LinkRow}

theorem concernedBy_key (h : leg.concernedBy work = true) :
    (other.isLegOf work.groupId work.targetAccountId (copySourceEntityKind work.payload.change)
      work.payload.change.sourceResourceId && other.onLeg work.payload.targetLeg) = true ↔
      LinkRow.key other = leg.key := by
  unfold Leg.concernedBy at h
  simp only [Bool.and_eq_true, decide_eq_true_eq] at h
  obtain ⟨⟨⟨⟨hgrp, hacct⟩, hkind⟩, hentity⟩, hleg⟩ := h
  unfold LinkRow.isLegOf LinkRow.onLeg LinkRow.key Leg.key
  rw [hgrp, hacct, hkind, hentity, hleg]
  simp [and_assoc]

/-- A command about the leg leaves its mark on the link. -/
theorem concerns_link (hkey : LinkRow.key link = leg.key) (hcon : leg.concernedBy work = true)
    (hlive : link.lifecycleStatus.live = true) : concerns work link = true := by
  have hleg := (concernedBy_key hcon).mpr hkey
  unfold concerns
  rw [hlive, Bool.and_true]
  exact hleg

variable (huniq : (tables.links.map LinkRow.key).Nodup) (hlink : link ∈ tables.links)
  (hkey : LinkRow.key link = leg.key) (hcon : leg.concernedBy work = true)
include huniq hlink hkey hcon

theorem eq_of_entityLinks (h : other ∈ entityLinks tables work)
    (hleg : other.onLeg work.payload.targetLeg = true) : other = link := by
  unfold entityLinks at h
  rw [mem_filter] at h
  have hoth : LinkRow.key other = leg.key := by
    rw [← concernedBy_key hcon, Bool.and_eq_true]
    exact ⟨h.2, hleg⟩
  exact inj_on_of_nodup_map huniq h.1 hlink (hoth.trans hkey.symm)

variable {kind : EntityKind}

theorem eq_of_targetLinks (h : other ∈ targetLinks tables work kind) : other = link := by
  unfold targetLinks at h
  rw [mem_insertionSort, mem_filter, Bool.and_eq_true, Bool.and_eq_true] at h
  exact eq_of_entityLinks huniq hlink hkey hcon h.1 h.2.1.2

/-- A command about the leg is addressed to the link's ticket. -/
theorem copierTargetEntityId_eq {ticket : String}
    (h : copierTargetEntityId tables work kind = some ticket) : link.target.map (·.2) = some ticket := by
  obtain ⟨other, hoth, h⟩ := Option.bind_eq_some_iff.mp h
  rwa [eq_of_targetLinks huniq hlink hkey hcon (mem_of_mem_head? hoth)] at h

theorem copierTargetQuantity_eq {held : Decimal}
    (h : copierTargetQuantity tables work kind = some held) : link.targetQuantity = some held := by
  obtain ⟨other, hoth, h⟩ := Option.bind_eq_some_iff.mp h
  have hmem := mem_of_mem_filter (mem_of_mem_head? hoth)
  rwa [eq_of_targetLinks huniq hlink hkey hcon hmem] at h

/-- What a partial close leaves is counted from the link's volumes. -/
theorem remainingQuantities_eq {close : ClosePositionCommand}
    (hop : work.operation = .partialClose) (hlive : link.lifecycleStatus.live = true)
    (hheld : link.targetQuantity = some held) (hclsd : close.quantity = some closed)
    (hchg : ∃ previous current delta, work.payload.change = .positionReduced previous current delta) :
    remainingQuantities tables work (.closePosition close) =
      some (sourceShareLeft work.payload.change link.sourceQuantity, max (held - closed) 0) := by
  obtain ⟨previous, current, delta, hchg⟩ := hchg
  have hleg := (concernedBy_key hcon).mpr hkey
  rw [Bool.and_eq_true] at hleg
  have hprior : (((entityLinks tables work).filter fun link =>
      link.onLeg work.payload.targetLeg && link.lifecycleStatus.live
        && link.targetQuantity.isSome).insertionSort fun a b => legOrder a b).head? = some link := by
    have hmem : link ∈ ((entityLinks tables work).filter fun link =>
        link.onLeg work.payload.targetLeg && link.lifecycleStatus.live
          && link.targetQuantity.isSome).insertionSort fun a b => legOrder a b := by
      rw [mem_insertionSort, mem_filter]
      refine ⟨mem_filter.mpr ⟨hlink, hleg.1⟩, ?_⟩
      rw [hleg.2, hlive, hheld]
      rfl
    obtain ⟨first, hfs⟩ := Option.isSome_iff_exists.mp (isSome_head?.mpr (ne_nil_of_mem hmem))
    have hin := mem_of_mem_head? hfs
    rw [mem_insertionSort, mem_filter, Bool.and_eq_true, Bool.and_eq_true] at hin
    rw [hfs, eq_of_entityLinks huniq hlink hkey hcon hin.1 hin.2.1.1]
  unfold remainingQuantities
  rw [hop, hchg]
  dsimp only
  rw [hclsd, hprior]
  simp only [Option.bind_eq_bind, Option.bind_some, hheld]
  rfl

end Link

/-! ## What one partial close leaves -/

section Step

variable {rules : VolumeRules} {leg : Leg} {ticket : String} {s s' : CloseState} {a : CopiedClose}

variable {report : Report} {env : WorkEnv} {rows : List OutboxRow} {row : OutboxRow}

theorem reported_outbox {persisted published : CopyTables} {workId : Uuid}
    (hrows : ∀ other ∈ rows, other.workItemId ≠ workId ∧ other.targetCommandId ≠ some report.commandId)
    (hrow : row.workItemId = workId ∧ row.status = .pending) (hpersisted : persisted.outbox = rows ++ [row])
    (h : publishCopierOutbox env persisted workId report.commandId change = .ok published) :
    updateWhere (·.targetCommandId = some report.commandId) (acknowledgeOutbox report)
      published.outbox = rows ++ [acknowledgeOutbox report (publishRow report.commandId row)] := by
  have hpass : updateWhere (fun other => other.workItemId = workId && other.status.open)
      (publishRow report.commandId) rows = rows := by
    refine updateWhere_none fun other hoth => ?_
    rw [decide_eq_false (hrows other hoth).1, Bool.false_and]
  have hunreported : updateWhere (·.targetCommandId = some report.commandId) (acknowledgeOutbox report) rows = rows :=
    updateWhere_none fun other hoth => decide_eq_false (hrows other hoth).2
  rw [publishCopierOutbox_outbox h, hpersisted, updateWhere_append, updateWhere_append, hpass, hunreported]
  have hopen : (decide (row.workItemId = workId) && row.status.open) = true := by
    rw [hrow.1, hrow.2, decide_eq_true rfl]
    rfl
  unfold updateWhere
  rw [map_singleton, map_singleton]
  rw [if_pos hopen]
  refine congrArg (fun last => rows ++ [last]) (if_pos ?_)
  exact decide_eq_true rfl

variable {link : LinkRow}

theorem reportedOutbox_tagged (hrows : ∀ other ∈ rows, other.targetCommandId ≠ some report.commandId)
    (hrow : row.targetCommandId = some report.commandId ∧ row.groupId = link.groupId ∧ row.targetAccountId = link.targetAccountId)
    (htag : link.metadata.lastCommandId = some report.commandId) :
    reportedOutbox report (rows ++ [row]) link = some row := by
  unfold reportedOutbox
  rw [find?_append]
  have hnone : rows.find? (fun other => other.targetCommandId = some report.commandId
      && other.groupId = link.groupId && other.targetAccountId = link.targetAccountId
      && (link.metadata.commandId = some report.commandId
        || link.metadata.lastCommandId = some report.commandId)) = none := by
    rw [find?_eq_none]
    intro other hoth
    rw [decide_eq_false (hrows other hoth)]
    exact Bool.false_ne_true
  rw [hnone, Option.none_or, find?_singleton, hrow.1, hrow.2.1, hrow.2.2, htag]
  simp

/-- A report on a partial close keeps the link as it is, up to what is left on its two sides. -/
theorem reportedLink_tagged (brokerPositionId : Option String) {sourceLeft targetLeft : Decimal}
    {work : WorkRow} (now : Time) (hlive : link.lifecycleStatus.live = true)
    (htgt : link.target = some (.position, ticket))
    (hfnd : reportedOutbox report (rows ++ [row]) (tagLink env work report.commandId link) = some row)
    (htype : row.commandType = "partial_close")
    (hsource : row.commandPayload.copierSourceRemaining = some sourceLeft)
    (htarget : row.commandPayload.copierTargetRemaining = some targetLeft) :
    (reportedLink report brokerPositionId (rows ++ [row]) now
      (tagLink env work report.commandId link)).lifecycleStatus.live = true ∧
    (reportedLink report brokerPositionId (rows ++ [row]) now
      (tagLink env work report.commandId link)).target = some (.position, ticket) ∧
    (reportedLink report brokerPositionId (rows ++ [row]) now (tagLink env work report.commandId link)).sourceQuantity =
        (if report.status = .accepted then some sourceLeft else link.sourceQuantity) ∧
    (reportedLink report brokerPositionId (rows ++ [row]) now (tagLink env work report.commandId link)).targetQuantity =
        if report.status = .accepted then some targetLeft else link.targetQuantity := by
  unfold reportedLink
  rw [hfnd]
  dsimp only
  unfold acknowledgeLink
  have hops : opensTarget row = false := by
    unfold opensTarget
    rw [htype]
    decide
  refine ⟨?_, ?_, ?_, ?_⟩
  · unfold acknowledgedStatus
    split
    · rfl
    · rw [hops, htype]
      exact hlive
  · unfold acknowledgedTarget
    rw [show (tagLink env work report.commandId link).target = link.target from rfl, htgt]
    rfl
  · unfold reducesLeg
    rw [htype, hsource, show (tagLink env work report.commandId link).sourceQuantity = link.sourceQuantity from rfl]
    simp
  · unfold reducesLeg
    rw [htype, htarget, show (tagLink env work report.commandId link).targetQuantity = link.targetQuantity from rfl]
    simp

theorem reportedLink_key {outbox : List OutboxRow} (link : LinkRow) :
    LinkRow.key (reportedLink report brokerPositionId outbox now link) = LinkRow.key link := by
  unfold reportedLink
  split <;> rfl

theorem reportedLinks_keys {outbox : List OutboxRow} (links : List LinkRow) :
    (links.map (reportedLink report brokerPositionId outbox now)).map LinkRow.key = links.map LinkRow.key := by
  rw [map_map]
  exact map_congr_left fun other _ => reportedLink_key other

theorem tagLink_key {work : WorkRow} {commandId : String} (link : LinkRow) :
    LinkRow.key (tagLink env work commandId link) = LinkRow.key link := rfl

theorem reported_links {work : WorkRow} {sourceLeft targetLeft : Decimal} {tables : CopyTables} {links : List LinkRow}
    (huniq : (tables.links.map LinkRow.key).Nodup) (hlink : link ∈ tables.links)
    (hkey : LinkRow.key link = leg.key) (hcon : leg.concernedBy work = true)
    (hlive : link.lifecycleStatus.live = true) (htgt : link.target = some (.position, ticket))
    (hrows : ∀ other ∈ rows, other.targetCommandId ≠ some report.commandId)
    (hrow : row.targetCommandId = some report.commandId ∧ row.groupId = work.groupId ∧
      row.targetAccountId = work.targetAccountId) (htype : row.commandType = "partial_close")
    (hsource : row.commandPayload.copierSourceRemaining = some sourceLeft)
    (htarget : row.commandPayload.copierTargetRemaining = some targetLeft)
    (hlinks : links = (updateWhere (concerns work) (tagLink env work report.commandId)
      tables.links).map (reportedLink report brokerPositionId (rows ++ [row]) now)) :
    (links.map LinkRow.key).Nodup ∧ ∃ link' ∈ links, LinkRow.key link' = leg.key ∧
      link'.lifecycleStatus.live = true ∧ link'.target = some (.position, ticket) ∧
      link'.sourceQuantity = (if report.status = .accepted then some sourceLeft else link.sourceQuantity) ∧
      link'.targetQuantity = if report.status = .accepted then some targetLeft else link.targetQuantity := by
  have hleg := (concernedBy_key hcon).mpr hkey
  unfold LinkRow.isLegOf at hleg
  simp only [Bool.and_eq_true, decide_eq_true_eq] at hleg
  have hfnd : reportedOutbox report (rows ++ [row]) (tagLink env work report.commandId link) = some row :=
    reportedOutbox_tagged hrows ⟨hrow.1, hrow.2.1.trans hleg.1.1.1.1.symm, hrow.2.2.trans hleg.1.1.1.2.symm⟩ rfl
  have hreported := reportedLink_tagged brokerPositionId now hlive htgt hfnd htype hsource htarget
  constructor
  · have hkeys : (updateWhere (concerns work) (tagLink env work report.commandId) tables.links).map LinkRow.key
        = tables.links.map LinkRow.key := map_updateWhere tagLink_key _
    rwa [hlinks, reportedLinks_keys, hkeys]
  · refine ⟨reportedLink report brokerPositionId (rows ++ [row]) now
      (tagLink env work report.commandId link), ?_, (reportedLink_key _).trans hkey, hreported⟩
    rw [hlinks]
    exact mem_map_of_mem (updated_mem hlink (concerns_link hkey hcon hlive))

/-- A close is planned for an item, persisted, published under the id the queue took it in by, and reported on. -/
structure Carried (env : WorkEnv) (work : WorkRow) (report : Report) (brokerPositionId : Option String)
    (tables : CopyTables) (close : ClosePositionCommand) (after : CopyTables) : Prop where
  plan : planWork env tables work = .ok (.issue (.closePosition close))
  command : report.commandId = close.commandId
  new : ∀ row ∈ tables.outbox, row.workItemId ≠ work.id ∧ row.targetCommandId ≠ some report.commandId
  writes : ∃ persisted published, persistCopierOutbox env tables work (.closePosition close) = .ok persisted ∧
    publishCopierOutbox { env with issuedCommands := close.commandId :: env.issuedCommands }
      persisted work.id report.commandId work.payload.change = .ok published ∧
    acknowledgeCopier report brokerPositionId env.now published = .ok after

/-- **What a partial close asks for, and what a report on it leaves of the leg.** It asks for the share of the link's volume,
and an accepted one leaves the rest on both sides. -/
theorem partialClose_leaves {work : WorkRow} {close : ClosePositionCommand} {tables after : CopyTables}
    (huniq : (tables.links.map LinkRow.key).Nodup) (hlink : link ∈ tables.links)
    (hkey : LinkRow.key link = leg.key) (hlive : link.lifecycleStatus.live = true)
    (htgt : link.target = some (.position, ticket)) (hheld : link.targetQuantity = some held)
    (hcop : leg.copiedBy work = true) (h : Carried env work report brokerPositionId tables close after) :
    close.brokerPositionId = ticket ∧ close.quantity = copierPartialCloseQuantity work.payload.change (some held) ∧
    close.quantity = some (closedShare work.payload.change held) ∧ closedShare work.payload.change held ≤ held ∧
    (after.links.map LinkRow.key).Nodup ∧ ∃ link' ∈ after.links, LinkRow.key link' = leg.key ∧
      link'.lifecycleStatus.live = true ∧ link'.target = some (.position, ticket) ∧
      link'.sourceQuantity = (if report.status = .accepted then
        some (sourceShareLeft work.payload.change link.sourceQuantity) else link.sourceQuantity) ∧
      link'.targetQuantity = some (held - if report.status = .accepted then closedShare work.payload.change held else 0) := by
  obtain ⟨hop, hcon⟩ := copiedBy_iff.mp hcop
  obtain ⟨hplan, hcmd, hnew, persisted, published, hpersist, hpublish, hrpt⟩ := h
  -- the command names the link's ticket, and a share of the link's volume
  obtain ⟨ticket', held', share, htkt, hqnt, hshare, hclose⟩ :=
    planWork_partialClose hop hplan
  have htkt := copierTargetEntityId_eq huniq hlink hkey hcon htkt
  rw [htgt] at htkt
  have hqnt := copierTargetQuantity_eq huniq hlink hkey hcon hqnt
  obtain rfl : ticket = ticket' := Option.some.inj htkt
  obtain rfl : held = held' := Option.some.inj (hheld.symm.trans hqnt)
  have hplace : close.brokerPositionId = ticket ∧ close.quantity = some share := by
    cases hclose
    exact ⟨rfl, rfl⟩
  obtain ⟨hchg, rfl, hle⟩ := copierPartialCloseQuantity_some hshare
  have hleft := remainingQuantities_eq huniq hlink hkey hcon hop hlive hheld hplace.2 hchg
  obtain ⟨houtbox, hlinks⟩ := persistCopierOutbox_close (fun row hrow => (hnew row hrow).1) hpersist
  have hkept : endsSource work.payload.change = false := by
    obtain ⟨previous, current, delta, hchg⟩ := hchg
    rw [hchg]
    rfl
  have haft := acknowledgeCopier_ok hrpt
  rw [publishCopierOutbox_links hkept hpublish, hlinks, reported_outbox hnew ⟨rfl, rfl⟩ houtbox hpublish, ← hcmd] at haft
  obtain ⟨huniq', link', hlink', hkey', hlive', htgt', hsource, htarget⟩ := reported_links huniq hlink hkey hcon hlive htgt
    (fun row hrow => (hnew row hrow).2) ⟨rfl, rfl, rfl⟩ (if_pos hop) (congrArg (Option.map (·.1)) hleft)
    (congrArg (Option.map (·.2)) hleft) haft
  refine ⟨hplace.1, hplace.2.trans hshare.symm, hplace.2, hle, huniq', link', hlink', hkey', hlive', htgt', hsource, ?_⟩
  rw [htarget, hheld, max_eq_left (sub_nonneg.mpr hle)]
  split
  · rfl
  · rw [sub_zero]

/-- The transactions of one partial close. -/
theorem step_cases (h : s.step rules leg a = some s') : ∃ close,
    Carried a.env a.work (a.report close.commandId) a.brokerPositionId s.tables close s'.tables ∧
    leg.copiedBy a.work = true ∧
    mayClose rules (executeClosePosition rules (s.volumes close.brokerPositionId) close.quantity) a.closed = true ∧
    s'.volumes = Function.update s.volumes close.brokerPositionId (s.volumes close.brokerPositionId - a.closed.getD 0) := by
  unfold CloseState.step at h
  split at h
  · rename_i close hplan
    obtain ⟨persisted, hpersist, h⟩ := Option.bind_eq_some_iff.mp h
    obtain ⟨published, hpublish, h⟩ := Option.bind_eq_some_iff.mp h
    obtain ⟨reported, hrpt, h⟩ := Option.bind_eq_some_iff.mp h
    split at h
    · rename_i hguard
      rw [Bool.and_eq_true, Bool.and_eq_true, Bool.not_eq_true', any_eq_false] at hguard
      obtain ⟨⟨hcop, hnew⟩, hclsd⟩ := hguard
      cases h
      refine ⟨close, ⟨hplan, rfl, fun row hrow => ?_, persisted, published, toOption_some hpersist,
        toOption_some hpublish, toOption_some hrpt⟩, hcop, hclsd, rfl⟩
      have hoth := hnew row hrow
      rw [Bool.or_eq_true, not_or, decide_eq_true_iff, decide_eq_true_iff] at hoth
      exact hoth
    · cases h
  · cases h

/-- **What one partial close leaves.** The link loses the share if the close was reported as a
success, the position loses what the broker closed. -/
theorem step_leaves (htrks : Tracks leg ticket s) (h : s.step rules leg a = some s') : (s'.tables.links.map LinkRow.key).Nodup ∧
    s'.volumes = Function.update s.volumes ticket (s.volumes ticket - a.closed.getD 0) ∧
    closedShare a.work.payload.change (s.volumes ticket) ≤ s.volumes ticket ∧
    mayClose rules (executeClosePosition rules (s.volumes ticket)
      (some (closedShare a.work.payload.change (s.volumes ticket)))) a.closed = true ∧
    ∃ link ∈ s'.tables.links, LinkRow.key link = leg.key ∧ link.lifecycleStatus.live = true ∧
      link.target = some (.position, ticket) ∧ link.targetQuantity = some (s.volumes ticket -
        if a.closed.isSome then closedShare a.work.payload.change (s.volumes ticket) else 0) := by
  obtain ⟨huniq, link, hlink, hkey, hlive, htgt, hheld⟩ := htrks
  obtain ⟨close, hcarried, hcop, hclsd, hvolumes⟩ := step_cases h
  obtain ⟨hticket, -, hshare, hle, huniq', link', hlink', hkey', hlive', htgt', -, hqnt'⟩ :=
    partialClose_leaves huniq hlink hkey hlive htgt hheld hcop hcarried
  rw [hticket] at hvolumes hclsd
  rw [hshare] at hclsd
  refine ⟨huniq', hvolumes, hle, hclsd, link', hlink', hkey', hlive', htgt', hqnt'.trans ?_⟩
  unfold CopiedClose.report
  cases a.closed with
  | none | some => rfl

theorem ledgerVolume_eq {tables : CopyTables} (huniq : (tables.links.map LinkRow.key).Nodup) (hlink : link ∈ tables.links)
    (hkey : LinkRow.key link = leg.key) : ledgerVolume leg tables = link.targetQuantity := by
  unfold ledgerVolume
  rw [← hkey, Table.find?_key huniq hlink]
  rfl

theorem closed_eq_share {volume share closed : Decimal} (hle : share ≤ volume)
    (hclsd : mayClose rules (executeClosePosition rules volume (some share)) (some closed) = true) :
    closed = share ↔ floorToStep share rules.closeStep = share ∧
      some closed = executeClosePosition rules volume (some share) := by
  unfold mayClose at hclsd
  rw [Option.all_some, Option.any_eq_true] at hclsd
  obtain ⟨requested, hreqd, hclsd⟩ := hclsd
  simp only [Bool.and_eq_true, decide_eq_true_eq] at hclsd
  constructor
  · rintro rfl
    rw [hreqd, executeClosePosition_whole hle hclsd.2 hreqd]
    exact ⟨hclsd.2, rfl⟩
  · rintro ⟨hwho, hfld⟩
    exact executeClosePosition_whole hle hwho hfld.symm

/-- One partial close keeps the ledger and the broker together exactly under `wholeSteps`. -/
theorem step_exact_iff (htrks : Tracks leg ticket s) (h : s.step rules leg a = some s') :
    ledgerVolume leg s'.tables = some (s'.volumes ticket) ↔ wholeSteps rules ticket s a := by
  obtain ⟨huniq, hvolumes, hle, hclsd, link, hlink, hkey, -, -, hqnt⟩ := step_leaves htrks h
  rw [ledgerVolume_eq huniq hlink hkey, hqnt, hvolumes, Function.update_self, Option.some.injEq, sub_right_inj]
  unfold wholeSteps
  cases hcase : a.closed with
  | none => simp
  | some =>
    rw [hcase] at hclsd
    have hiff := closed_eq_share hle hclsd
    rw [Option.isSome_some, if_pos rfl, Option.getD_some, eq_comm, hiff]
    simp

theorem Tracks.step (htrks : Tracks leg ticket s) (hwho : wholeSteps rules ticket s a)
    (h : s.step rules leg a = some s') : Tracks leg ticket s' := by
  have hexact := (step_exact_iff htrks h).mpr hwho
  obtain ⟨huniq, -, -, -, link, hlink, hkey, hlive, htgt, -⟩ := step_leaves htrks h
  rw [ledgerVolume_eq huniq hlink hkey] at hexact
  exact ⟨huniq, link, hlink, hkey, hlive, htgt, hexact⟩

/--
**The ledger follows the broker as long as every partial close is a whole number of volume
steps that the broker fills, or is refused**; the first close of another kind parts them.
-/
theorem close_ledger_exact {start : CloseState} (hstart : Tracks leg ticket start)
    (h : Reaches (CloseState.step rules leg) (wholeSteps rules ticket) start s) :
    ledgerVolume leg s.tables = some (s.volumes ticket) ∧
    ∀ a s', s.step rules leg a = some s' →
      (ledgerVolume leg s'.tables = some (s'.volumes ticket) ↔ wholeSteps rules ticket s a) := by
  have htrks : Tracks leg ticket s :=
    h.invariant (fun s => Tracks leg ticket s) hstart fun _ _ _ hinv hok hs => hinv.step hok hs
  refine ⟨?_, fun a s' hs => step_exact_iff htrks hs⟩
  obtain ⟨huniq, link, hlink, hkey, -, -, hheld⟩ := htrks
  rw [ledgerVolume_eq huniq hlink hkey, hheld]

end Step

section Examples

/-- A symbol that trades in tenths of a lot. -/
def tenths : VolumeRules := ⟨1 / 10, 1 / 10, by norm_num⟩

def copiedLeg : Leg := ⟨1, "mt5-b", "11", 0⟩

/-- The item that copies a reduction of `sourcePosition` by `delta` to its only leg. -/
def reduceWork (delta : Decimal) : WorkRow :=
  let work := positionWork .partialClose
    (.positionReduced sourcePosition { sourcePosition with quantity := 1 - delta } delta)
  { work with payload := { work.payload with targetLeg := some 0 } }

/-- The copy of `sourcePosition` is open with half a lot, and one reduction is to be copied. -/
def halfLot (delta : Decimal) : CloseState :=
  ⟨copyTables (reduceWork delta) [{ positionLink with targetQuantity := some (1 / 2) }],
    fun ticket => if ticket = "77" then 1 / 2 else 0⟩

def closeTenth (delta : Decimal) : CopiedClose :=
  ⟨copyEnv, reduceWork delta, some (1 / 10), some "901", some "902", none⟩

theorem halfLot_tracks (delta : Decimal) : Tracks copiedLeg "77" (halfLot delta) :=
  ⟨nodup_singleton _, _, mem_singleton.mpr rfl, rfl, rfl, rfl, rfl⟩

/-- The source gives up a quarter; an eighth of a lot leaves the ledger and a tenth the broker. -/
theorem quarter_parts_ledger : ¬ ∀ (rules : VolumeRules) (leg : Leg) (ticket : String)
    (start s : CloseState), Tracks leg ticket start →
    Reaches (CloseState.step rules leg) always start s →
    ledgerVolume leg s.tables = some (s.volumes ticket) := by
  have hrun : ((halfLot (1 / 4)).step tenths copiedLeg (closeTenth (1 / 4))).any (fun s =>
      ledgerVolume copiedLeg s.tables = some (3 / 8) && s.volumes "77" = 2 / 5) = true := by
    decide +kernel
  obtain ⟨s, hs, hvolumes⟩ := Option.any_eq_true _ _ |>.mp hrun
  rw [Bool.and_eq_true, decide_eq_true_iff, decide_eq_true_iff] at hvolumes
  intro hclaim
  have hsame := hclaim tenths copiedLeg "77" _ s (halfLot_tracks (1 / 4)) (.step .refl trivial hs)
  rw [hvolumes.1, hvolumes.2] at hsame
  exact absurd (Option.some.inj hsame) (by norm_num)

/-- A fifth is a tenth of a lot on the copy, and both sides take it. -/
theorem fifth_keeps_ledger : ∃ s, (halfLot (1 / 5)).step tenths copiedLeg (closeTenth (1 / 5)) = some s ∧
    ledgerVolume copiedLeg s.tables = some (s.volumes "77") ∧ s.volumes "77" = 2 / 5 := by
  have hrun : ((halfLot (1 / 5)).step tenths copiedLeg (closeTenth (1 / 5))).any (fun s =>
      s.volumes "77" = 2 / 5) = true := by decide +kernel
  obtain ⟨s, hs, hvol⟩ := Option.any_eq_true _ _ |>.mp hrun
  have hwho : wholeSteps tenths "77" (halfLot (1 / 5)) (closeTenth (1 / 5)) :=
    .inr ⟨by decide +kernel, by decide +kernel⟩
  exact ⟨s, hs, (close_ledger_exact (halfLot_tracks (1 / 5)) (.step .refl hwho hs)).1, of_decide_eq_true hvol⟩

end Examples

end MarketLens.Copier
