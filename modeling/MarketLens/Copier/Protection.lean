import MarketLens.Copier.CommandIdentity

/-!
# Protection from terminal to terminal

The stop loss and the take profit of a source, followed through the EA that reports
them, the diff that notices a change, the command that copies it, and the EA that
carries it out. A level that is not there is nothing in a snapshot, and nothing in a
command; the EA of the target reads a command without a level as one that keeps the
level the target has.
-/

namespace MarketLens.Copier

open Store Fallible List Option
open Std (TreeMap)

/-! ## Levels -/

/-- The levels of a position or an order as its terminal has them; zero where there is none. -/
structure Levels where
  stopLoss : Decimal
  takeProfit : Decimal
deriving DecidableEq

/-- The levels a reversed trade has for those of its source. -/
def Levels.mapped (levels : Levels) (reverseTrade : Bool) : Levels :=
  if reverseTrade then ⟨levels.takeProfit, levels.stopLoss⟩ else levels

def Mirrored (source target : Levels) : Prop :=
  (0 < target.stopLoss ↔ 0 < source.stopLoss) ∧ (0 < target.takeProfit ↔ 0 < source.takeProfit)

/-- `NormalizeDouble`, and `DoubleToString`: halves away from zero. -/
def normalizeDouble (value : Decimal) (digits : Nat) : Decimal :=
  let units := |value| * 10 ^ digits
  (if value < 0 then -1 else 1) * ⌊units + 1 / 2⌋ / 10 ^ digits

/-- The level of a snapshot: `DecimalText` writes twelve digits. -/
def snapshotLevel (value : Decimal) : Option Decimal :=
  if 0 < value then some (normalizeDouble value 12) else none

/-! ## The target's EA -/

/-- A position or a pending order of a terminal. -/
structure TerminalEntity where
  ticket : Nat
  digits : Nat
  price : Decimal
  levels : Levels

structure Terminal where
  accountId : String
  /-- The commands whose outcome is recorded. -/
  seen : List String
  tradeAllowed : Bool
  positions : List TerminalEntity
  orders : List TerminalEntity

/-- `MqlTradeRequest`, of the two actions that modify. -/
inductive TradeRequest where
  | sltp (position : Nat) (levels : Levels)
  | modify (order : Nat) (price : Decimal) (levels : Levels)
deriving DecidableEq

/-- `StringToInteger` of a ticket: its leading digits. -/
def stringToInteger (text : String) : Nat :=
  (text.toList.takeWhile isAsciiDigit).foldl (fun value c => value * 10 + (c.toNat - '0'.toNat)) 0

/-- `PositionSelectByTicket` and `OrderSelect`, of a ticket that is not zero. -/
def selectByTicket (entities : List TerminalEntity) (text : String) : Option TerminalEntity :=
  if stringToInteger text = 0 then none else entities.find? (·.ticket = stringToInteger text)

/-- `ValidateDirectCommand`. -/
def validateDirectCommand (terminal : Terminal) (commandId targetAccountId : String) : Except String Unit := do
  refuseIf (targetAccountId ≠ terminal.accountId) "Target account does not match this EA session"
  refuseIf (terminal.seen.contains commandId) "the recorded outcome is replayed"
  refuseIf (!terminal.tradeAllowed) "MT5 automated trading is not allowed"

/-- A level that is requested: what the command carries, or what there is. -/
def requestedLevel (level : Option Decimal) (digits : Nat) (held : Decimal) : Decimal :=
  match level with
  | some value => normalizeDouble value digits
  | none => held

/-- `ExecuteModifyPositionCommand`, up to what it submits. -/
def executeModifyPositionCommand (terminal : Terminal) (command : ModifyPositionCommand) : Except String TradeRequest := do
  validateDirectCommand terminal command.commandId command.targetAccountId
  let position ← require (selectByTicket terminal.positions command.brokerPositionId) "Position was not found"
  refuseIf (command.stopLoss.isNone && command.takeProfit.isNone) "Position modification is empty"
  return .sltp position.ticket
    ⟨requestedLevel command.stopLoss position.digits position.levels.stopLoss,
      requestedLevel command.takeProfit position.digits position.levels.takeProfit⟩

/-- `ExecuteModifyPendingOrderCommand`, up to what it submits. -/
def executeModifyPendingOrderCommand (terminal : Terminal) (command : ModifyPendingOrderCommand) :
    Except String TradeRequest := do
  validateDirectCommand terminal command.commandId command.targetAccountId
  let order ← require (selectByTicket terminal.orders command.brokerOrderId) "Pending order was not found"
  return .modify order.ticket (normalizeDouble command.price order.digits)
    ⟨requestedLevel command.stopLoss order.digits order.levels.stopLoss,
      requestedLevel command.takeProfit order.digits order.levels.takeProfit⟩

def executeModification (terminal : Terminal) : EaCommand → Except String TradeRequest
  | .modifyPosition command => executeModifyPositionCommand terminal command
  | .modifyPendingOrder command => executeModifyPendingOrderCommand terminal command
  | _ => .error "ignored unsupported command type"

/-- The entities after the broker has accepted a request about one of them. -/
def modified (ticket : Nat) (change : TerminalEntity → TerminalEntity) (entities : List TerminalEntity) : List TerminalEntity :=
  Table.updateWhere (·.ticket = ticket) change entities

/-- The terminal after the broker has accepted a request. -/
def Terminal.accept (terminal : Terminal) : TradeRequest → Terminal
  | .sltp position levels =>
    { terminal with positions := modified position ({ · with levels }) terminal.positions }
  | .modify order price levels =>
    { terminal with orders := modified order ({ · with price, levels }) terminal.orders }

/-- What a command of this kind is about. -/
def Terminal.entityOf (terminal : Terminal) : EaCommand → Option TerminalEntity
  | .modifyPosition command => selectByTicket terminal.positions command.brokerPositionId
  | .modifyPendingOrder command => selectByTicket terminal.orders command.brokerOrderId
  | _ => none

def Terminal.admits (terminal : Terminal) : EaCommand → Prop
  | .modifyPosition command => validateDirectCommand terminal command.commandId command.targetAccountId = .ok ()
  | .modifyPendingOrder command => validateDirectCommand terminal command.commandId command.targetAccountId = .ok ()
  | _ => False

/-! ## From the source to the target -/

def Reports (source : Levels) : PortfolioChange → Prop
  | .positionProtectionChanged _ current =>
    current.stopLoss = snapshotLevel source.stopLoss ∧ current.takeProfit = snapshotLevel source.takeProfit
  | .pendingModified _ current =>
    current.stopLoss = snapshotLevel source.stopLoss ∧ current.takeProfit = snapshotLevel source.takeProfit
  | _ => False

structure Copied (env : WorkEnv) (tables : CopyTables) (work : WorkRow) (command : EaCommand) : Prop where
  found : ∃ previousPositions previousPending currentPositions currentPending fills,
    work.payload.change ∈ diffPortfolio previousPositions previousPending currentPositions currentPending fills
  staged : work.operation ∈ copyWorkOperations work.payload.change work.payload.groupConfig
  phase : work.payload.phase = none
  issued : planWork env tables work = .ok (.issue command)

/-- The command does not fail for being empty, and what it leaves mirrors the source. -/
def Mirrors (source : Levels) (terminal : Terminal) (command : EaCommand) : Prop :=
  executeModification terminal command ≠ .error "Position modification is empty" ∧
  ∀ request, executeModification terminal command = .ok request →
    ∃ entity, (terminal.accept request).entityOf command = some entity ∧ Mirrored source entity.levels

/-- A level that is there survives its rounding; one that is not there is not there on the target either. -/
def LevelFits (source held : Decimal) (digits : Nat) : Prop :=
  if 0 < source then 0 < normalizeDouble (normalizeDouble source 12) digits else ¬ 0 < held

theorem requested_mirrors {source held : Decimal} {digits : Nat} :
    (0 < requestedLevel (snapshotLevel source) digits held ↔ 0 < source) ↔ LevelFits source held digits := by
  unfold LevelFits snapshotLevel
  by_cases hsrc : 0 < source <;> simp [hsrc, requestedLevel]

theorem snapshotLevel_isNone {source : Decimal} : (snapshotLevel source).isNone = true ↔ ¬ 0 < source := by
  unfold snapshotLevel
  by_cases hsrc : 0 < source <;> simp [hsrc]

theorem select_modified {entities : List TerminalEntity} {text : String} {held : TerminalEntity}
    (h : selectByTicket entities text = some held) {change : TerminalEntity → TerminalEntity}
    (htkt : ∀ entity, (change entity).ticket = entity.ticket) :
    selectByTicket (modified held.ticket change entities) text = some (change held) := by
  unfold selectByTicket at h ⊢
  split at h
  · cases h
  rename_i hnonzero
  rw [if_neg hnonzero]
  have hfnd := find?_some h
  have hsame : held.ticket = stringToInteger text := of_decide_eq_true hfnd
  unfold modified
  rw [hsame, Table.find?_updateWhere fun entity hentity => by rw [htkt]; exact hentity, h, map_some]

/-! ### What is carried out -/

section Mirror

variable {source : Levels} {terminal : Terminal} {held : TerminalEntity}

theorem executeModifyPosition_eq {command : ModifyPositionCommand} (hadmits : terminal.admits (.modifyPosition command))
    (hheld : terminal.entityOf (.modifyPosition command) = some held) :
    executeModification terminal (.modifyPosition command) =
      if command.stopLoss.isNone && command.takeProfit.isNone then .error "Position modification is empty"
      else .ok (.sltp held.ticket ⟨requestedLevel command.stopLoss held.digits held.levels.stopLoss,
          requestedLevel command.takeProfit held.digits held.levels.takeProfit⟩) := by
  have hheld : selectByTicket terminal.positions command.brokerPositionId = some held := hheld
  show executeModifyPositionCommand terminal command = _
  unfold executeModifyPositionCommand
  rw [hadmits, hheld]
  cases hemp : command.stopLoss.isNone && command.takeProfit.isNone <;> rfl

theorem executeModifyPending_eq {command : ModifyPendingOrderCommand} (hadmits : terminal.admits (.modifyPendingOrder command))
    (hheld : terminal.entityOf (.modifyPendingOrder command) = some held) :
    executeModification terminal (.modifyPendingOrder command) =
      .ok (.modify held.ticket (normalizeDouble command.price held.digits)
        ⟨requestedLevel command.stopLoss held.digits held.levels.stopLoss,
          requestedLevel command.takeProfit held.digits held.levels.takeProfit⟩) := by
  have hheld : selectByTicket terminal.orders command.brokerOrderId = some held := hheld
  show executeModifyPendingOrderCommand terminal command = _
  unfold executeModifyPendingOrderCommand
  rw [hadmits, hheld]
  rfl

theorem mirrors_accepted {command : EaCommand} {request : TradeRequest} {left : TerminalEntity}
    (hexecute : executeModification terminal command = .ok request)
    (hleft : (terminal.accept request).entityOf command = some left) :
    Mirrors source terminal command ↔ Mirrored source left.levels := by
  unfold Mirrors
  rw [hexecute]
  constructor
  · rintro ⟨-, hmirrored⟩
    obtain ⟨entity, hentity, hmirrored⟩ := hmirrored _ rfl
    rw [hleft] at hentity
    cases hentity
    exact hmirrored
  · intro hmirrored
    refine ⟨nofun, fun request hreq => ?_⟩
    cases hreq
    exact ⟨_, hleft, hmirrored⟩

theorem mirrors_position_iff {command : ModifyPositionCommand} (hadmits : terminal.admits (.modifyPosition command))
    (hheld : terminal.entityOf (.modifyPosition command) = some held) (hstop : command.stopLoss = snapshotLevel source.stopLoss)
    (htgt : command.takeProfit = snapshotLevel source.takeProfit) :
    Mirrors source terminal (.modifyPosition command) ↔ (0 < source.stopLoss ∨ 0 < source.takeProfit) ∧
        LevelFits source.stopLoss held.levels.stopLoss held.digits ∧
        LevelFits source.takeProfit held.levels.takeProfit held.digits := by
  have hexecute := executeModifyPosition_eq hadmits hheld
  rw [hstop, htgt] at hexecute
  by_cases hsome : 0 < source.stopLoss ∨ 0 < source.takeProfit
  · have hfull : ¬ ((snapshotLevel source.stopLoss).isNone && (snapshotLevel source.takeProfit).isNone) = true := by
      rw [Bool.and_eq_true, snapshotLevel_isNone, snapshotLevel_isNone]
      exact fun h => hsome.elim h.1 h.2
    rw [if_neg hfull] at hexecute
    have hsel : ∀ levels, (terminal.accept (.sltp held.ticket levels)).entityOf (.modifyPosition command)
        = some { held with levels } := fun levels => select_modified hheld fun _ => rfl
    rw [mirrors_accepted hexecute (hsel _), ← requested_mirrors, ← requested_mirrors]
    exact (and_iff_right hsome).symm
  · have hemp : ((snapshotLevel source.stopLoss).isNone && (snapshotLevel source.takeProfit).isNone) = true := by
      rw [Bool.and_eq_true, snapshotLevel_isNone, snapshotLevel_isNone]
      exact not_or.mp hsome
    rw [if_pos hemp] at hexecute
    exact iff_of_false (fun h => h.1 hexecute) fun h => hsome h.1

theorem mirrors_pending_iff {command : ModifyPendingOrderCommand} (hadmits : terminal.admits (.modifyPendingOrder command))
    (hheld : terminal.entityOf (.modifyPendingOrder command) = some held)
    (hstop : command.stopLoss = snapshotLevel source.stopLoss) (htgt : command.takeProfit = snapshotLevel source.takeProfit) :
    Mirrors source terminal (.modifyPendingOrder command) ↔ LevelFits source.stopLoss held.levels.stopLoss held.digits ∧
        LevelFits source.takeProfit held.levels.takeProfit held.digits := by
  have hexecute := executeModifyPending_eq hadmits hheld
  rw [hstop, htgt] at hexecute
  have hsel : ∀ price levels, (terminal.accept (.modify held.ticket price levels)).entityOf (.modifyPendingOrder command)
      = some { held with price, levels } := fun price levels => select_modified hheld fun _ => rfl
  rw [mirrors_accepted hexecute (hsel _ _), ← requested_mirrors, ← requested_mirrors]
  exact Iff.rfl

end Mirror

/-! ## All the way -/

theorem protectionChanged_found {previousPositions currentPositions : List EaPositionSnapshot}
    {previousPending currentPending : List EaPendingOrderSnapshot} {fills : TreeMap String String compare}
    {id : String} {previous current : EaPositionSnapshot} (hprv : (positionMap previousPositions)[id]? = some previous)
    (hcurr : (positionMap currentPositions)[id]? = some current)
    (hchgd : current.stopLoss ≠ previous.stopLoss ∨ current.takeProfit ≠ previous.takeProfit) :
    .positionProtectionChanged previous current ∈
      diffPortfolio previousPositions previousPending currentPositions currentPending fills := by
  refine mem_append_left _ (mem_append_right _ (mem_flatMap.mpr
    ⟨(id, previous), TreeMap.mem_toList_iff_getElem?_eq_some.mpr hprv, ?_⟩))
  simp only [positionChanges, hcurr]
  rw [if_pos hchgd]
  exact mem_append_right _ (mem_singleton.mpr rfl)

section Whole

variable {env : WorkEnv} {tables : CopyTables} {work : WorkRow} {command : EaCommand} {source : Levels} {terminal : Terminal}
  {held : TerminalEntity}

theorem mapped_some (reverseTrade : Bool) :
    (0 < (source.mapped reverseTrade).stopLoss ∨ 0 < (source.mapped reverseTrade).takeProfit) ↔
      (0 < source.stopLoss ∨ 0 < source.takeProfit) := by
  cases reverseTrade with
  | false => exact Iff.rfl
  | true => exact or_comm

theorem modifyPositionCommand_levels {ticket : String} {previous current : EaPositionSnapshot} (hphs : work.payload.phase = none)
    (hchg : work.payload.change = .positionProtectionChanged previous current)
    (hreports : Reports source (.positionProtectionChanged previous current))
    (h : modifyPositionCommand env work ticket = .ok command) :
    ∃ modify : ModifyPositionCommand, command = .modifyPosition modify ∧
      modify.stopLoss = snapshotLevel (source.mapped work.payload.targetConfig.reverseTrade).stopLoss ∧
      modify.takeProfit = snapshotLevel (source.mapped work.payload.targetConfig.reverseTrade).takeProfit := by
  obtain ⟨hstop, htgt⟩ := hreports
  unfold modifyPositionCommand copierPositionProtection at h
  rw [hphs, hchg] at h
  cases hreverse : work.payload.targetConfig.reverseTrade with
  | false =>
    rw [hreverse] at h
    cases h
    exact ⟨_, rfl, hstop, htgt⟩
  | true =>
    rw [hreverse] at h
    cases h
    exact ⟨_, rfl, htgt, hstop⟩

theorem modifyPendingCommand_levels {ticket : String} {previous current : EaPendingOrderSnapshot}
    (hchg : work.payload.change = .pendingModified previous current)
    (hreports : Reports source (.pendingModified previous current)) (h : modifyPendingCommand env work ticket = .ok command) :
    ∃ modify : ModifyPendingOrderCommand, command = .modifyPendingOrder modify ∧
      modify.stopLoss = snapshotLevel (source.mapped work.payload.targetConfig.reverseTrade).stopLoss ∧
      modify.takeProfit = snapshotLevel (source.mapped work.payload.targetConfig.reverseTrade).takeProfit := by
  obtain ⟨hstop, htgt⟩ := hreports
  unfold modifyPendingCommand copierPendingModification copierCurrentPending at h
  rw [hchg] at h
  cases hreverse : work.payload.targetConfig.reverseTrade with
  | false =>
    rw [hreverse] at h
    cases h
    exact ⟨_, rfl, hstop, htgt⟩
  | true =>
    rw [hreverse] at h
    cases h
    exact ⟨_, rfl, htgt, hstop⟩

/-- **When a change of protection is mirrored**: no level the source does not have is one the target has,
the others survive their rounding, and a position keeps some level. -/
theorem protection_mirrored_iff (hcopied : Copied env tables work command) (hreports : Reports source work.payload.change)
    (hadmits : terminal.admits command) (hheld : terminal.entityOf command = some held) :
    Mirrors (source.mapped work.payload.targetConfig.reverseTrade) terminal command ↔
      (work.operation = .modifyPosition → 0 < source.stopLoss ∨ 0 < source.takeProfit) ∧
        LevelFits (source.mapped work.payload.targetConfig.reverseTrade).stopLoss held.levels.stopLoss held.digits ∧
        LevelFits (source.mapped work.payload.targetConfig.reverseTrade).takeProfit held.levels.takeProfit held.digits := by
  obtain ⟨-, hstaged, hphs, hissued⟩ := hcopied
  cases hchg : work.payload.change with
  | positionProtectionChanged =>
    rw [hchg] at hreports hstaged
    have hstaged : work.operation ∈ if _ then [CopyOperation.modifyPosition] else [] := hstaged
    have hoperation : work.operation = .modifyPosition := by
      split at hstaged
      · exact mem_singleton.mp hstaged
      · cases hstaged
    have hiss := planWork_issue hissued
    rw [hoperation] at hiss
    obtain ⟨ticket, -, hbui⟩ := hiss
    obtain ⟨modify, rfl, hstop, htgt⟩ := modifyPositionCommand_levels hphs hchg hreports hbui
    rw [mirrors_position_iff hadmits hheld hstop htgt, mapped_some]
    exact and_congr_left fun _ => ⟨fun h _ => h, fun h => h hoperation⟩
  | pendingModified =>
    rw [hchg] at hreports hstaged
    have hstaged : work.operation ∈ if _ then [CopyOperation.modifyPending] else [] := hstaged
    have hoperation : work.operation = .modifyPending := by
      split at hstaged
      · exact mem_singleton.mp hstaged
      · cases hstaged
    have hiss := planWork_issue hissued
    rw [hoperation] at hiss
    obtain ⟨ticket, -, hbui⟩ := hiss
    obtain ⟨modify, rfl, hstop, htgt⟩ := modifyPendingCommand_levels hchg hreports hbui
    rw [mirrors_pending_iff hadmits hheld hstop htgt]
    refine ⟨fun h => ⟨fun hposn => ?_, h⟩, fun h => h.2⟩
    rw [hoperation] at hposn
    cases hposn
  | _ =>
    rw [hchg] at hreports
    exact hreports.elim

end Whole

/-! ## A stop that is moved, and one that is taken away -/

section Examples

/-- The source with these levels. -/
def protectedPosition (levels : Levels) : EaPositionSnapshot :=
  { sourcePosition with stopLoss := snapshotLevel levels.stopLoss, takeProfit := snapshotLevel levels.takeProfit }

/-- The item that copies a change of the levels of `sourcePosition`. -/
def protectionWork (previous current : Levels) : WorkRow :=
  positionWork .modifyPosition (.positionProtectionChanged (protectedPosition previous) (protectedPosition current))

def protectionCommand (current : Levels) : ModifyPositionCommand :=
  ⟨"cp:1:7:modify_position", "cpc:cpw:7", "mt5-b", "77", snapshotLevel current.stopLoss, snapshotLevel current.takeProfit⟩

/-- The terminal of `mt5-b` with a copy of the source. -/
def targetTerminal (levels : Levels) : Terminal := ⟨"mt5-b", [], true, [⟨77, 5, 11 / 10, levels⟩], []⟩

theorem protection_copied {previous current : Levels} {command : EaCommand}
    (hchgd : snapshotLevel current.stopLoss ≠ snapshotLevel previous.stopLoss
      ∨ snapshotLevel current.takeProfit ≠ snapshotLevel previous.takeProfit)
    (hissued : (planWork copyEnv (copyTables (protectionWork previous current) [positionLink])
      (protectionWork previous current)).toOption = some (.issue command)) :
    Copied copyEnv (copyTables (protectionWork previous current) [positionLink]) (protectionWork previous current) command where
  found := by
    refine ⟨[protectedPosition previous], [], [protectedPosition current], [], ∅, ?_⟩
    have hindex : ∀ levels : Levels, (positionMap [protectedPosition levels])["11"]? = some (protectedPosition levels) := by
      intro levels
      have hndp : ([protectedPosition levels].map (·.brokerPositionId)).Nodup := nodup_singleton _
      exact (KeyedMap.getElem?_index hndp).mpr ⟨mem_singleton.mpr rfl, rfl⟩
    exact protectionChanged_found (hindex previous) (hindex current) hchgd
  staged := mem_singleton.mpr rfl
  phase := rfl
  issued := toOption_some hissued

/-- The stop is moved, and the target follows. -/
theorem moved_stop_mirrored : Mirrors ⟨106 / 100, 0⟩ (targetTerminal ⟨105 / 100, 0⟩)
    (.modifyPosition (protectionCommand ⟨106 / 100, 0⟩)) := by
  have hcop : Copied copyEnv _ (protectionWork ⟨105 / 100, 0⟩ ⟨106 / 100, 0⟩) (.modifyPosition (protectionCommand ⟨106 / 100, 0⟩)) :=
    protection_copied (by decide +kernel) (by decide +kernel)
  have hiff := protection_mirrored_iff hcop (show Reports ⟨106 / 100, 0⟩ _ from ⟨rfl, rfl⟩)
    (show (targetTerminal ⟨105 / 100, 0⟩).admits _ from rfl) rfl
  exact hiff.mpr ⟨fun _ => .inl (by decide +kernel), by unfold LevelFits; decide +kernel, by unfold LevelFits; decide +kernel⟩

/-- The source takes both levels away, and the command is refused as empty; it takes its stop away, and
the target keeps the one it has. -/
theorem removed_stop_kept :
    (∃ work command, Copied copyEnv (copyTables work [positionLink]) work command ∧
      Reports ⟨0, 0⟩ work.payload.change ∧
      executeModification (targetTerminal ⟨105 / 100, 12 / 10⟩) command = .error "Position modification is empty" ∧
      ¬ Mirrors ⟨0, 0⟩ (targetTerminal ⟨105 / 100, 12 / 10⟩) command) ∧
    ∃ work command, Copied copyEnv (copyTables work [positionLink]) work command ∧ Reports ⟨0, 12 / 10⟩ work.payload.change ∧
      executeModification (targetTerminal ⟨105 / 100, 12 / 10⟩) command = .ok (.sltp 77 ⟨105 / 100, 12 / 10⟩) ∧
      ¬ Mirrors ⟨0, 12 / 10⟩ (targetTerminal ⟨105 / 100, 12 / 10⟩) command := by
  constructor
  · have hrefd : executeModification (targetTerminal ⟨105 / 100, 12 / 10⟩) (.modifyPosition (protectionCommand ⟨0, 0⟩))
        = .error "Position modification is empty" := rfl
    refine ⟨protectionWork ⟨105 / 100, 12 / 10⟩ ⟨0, 0⟩, .modifyPosition (protectionCommand ⟨0, 0⟩),
      protection_copied (by decide +kernel) (by decide +kernel), ⟨rfl, rfl⟩, hrefd, fun h => h.1 hrefd⟩
  · have hkept : executeModification (targetTerminal ⟨105 / 100, 12 / 10⟩) (.modifyPosition (protectionCommand ⟨0, 12 / 10⟩))
        = .ok (.sltp 77 ⟨105 / 100, 12 / 10⟩) := toOption_some (by decide +kernel)
    refine ⟨protectionWork ⟨105 / 100, 12 / 10⟩ ⟨0, 12 / 10⟩, .modifyPosition (protectionCommand ⟨0, 12 / 10⟩),
      protection_copied (by decide +kernel) (by decide +kernel), ⟨rfl, rfl⟩, hkept, fun h => ?_⟩
    obtain ⟨entity, hentity, hstop, -⟩ := h.2 _ hkept
    cases hentity
    exact absurd (hstop.mp (by decide +kernel)) (by decide +kernel)

end Examples

/-! ## The ratchet of a target's own protection -/

/-- How far the second price is on the winning side of the first. -/
def gain (side : Side) (first second : Decimal) : Decimal :=
  match side with
  | .buy => second - first
  | .sell => first - second

/-- `copier_target_protection_stop`, of the candidates: the best of those on the losing side of the market. -/
def bestStop (side : Side) (currentPrice : Decimal) (candidates : List Decimal) : Option Decimal :=
  let allowed := candidates.filter fun candidate => 0 < candidate && 0 < gain side candidate currentPrice
  match side with
  | .buy => allowed.max?
  | .sell => allowed.min?

section
variable (position : EaPositionSnapshot) (priceTick : Decimal) (protection : CopyProtectionConfig)

def trailingStop : List Decimal :=
  let distance := priceTick * protection.trailingStopPoints
  let candidate := match position.side with
    | .buy => position.currentPrice - distance
    | .sell => position.currentPrice + distance
  let step := priceTick * (max protection.trailingStepPoints 1 : Nat)
  if 0 < protection.trailingStopPoints
      && protection.trailingStartPoints ≤ gain position.side position.openPrice position.currentPrice / priceTick
      && position.stopLoss.all (step ≤ gain position.side · candidate) then [candidate] else []

def breakevenStop : List Decimal :=
  let offset := priceTick * protection.breakevenOffsetPoints
  let candidate := match position.side with
    | .buy => position.openPrice + offset
    | .sell => position.openPrice - offset
  if 0 < protection.breakevenTriggerPoints
      && protection.breakevenTriggerPoints ≤ gain position.side position.openPrice position.currentPrice / priceTick
      && position.stopLoss.all (0 < gain position.side · candidate) then [candidate] else []

/-- `copier_target_protection_stop`. -/
def copierTargetProtectionStop :
    Option Decimal :=
  if priceTick ≤ 0 || gain position.side position.openPrice position.currentPrice ≤ 0 then none
  else bestStop position.side position.currentPrice
    (trailingStop position priceTick protection ++ breakevenStop position priceTick protection)

end

section Ratchet

variable {position : EaPositionSnapshot} {priceTick stop : Decimal} {protection : CopyProtectionConfig}

theorem bestStop_mem {side : Side} {currentPrice : Decimal} {candidates : List Decimal}
    (h : bestStop side currentPrice candidates = some stop) : stop ∈ candidates ∧ 0 < stop ∧ 0 < gain side stop currentPrice := by
  have hmem : stop ∈ candidates.filter fun candidate => 0 < candidate && 0 < gain side candidate currentPrice := by
    cases side with
    | buy => exact max?_mem h
    | sell => exact min?_mem h
  simpa using hmem

theorem trailingStop_mem (hmem : stop ∈ trailingStop position priceTick protection) (htick : 0 < priceTick) :
    (∀ held, position.stopLoss = some held → 0 < gain position.side held stop) ∧
      ∃ points : ℤ, stop = position.currentPrice + points * priceTick := by
  simp only [trailingStop, mem_ite_nil_right, mem_singleton, Bool.and_eq_true, Option.all_eq_true, decide_eq_true_eq] at hmem
  obtain ⟨⟨-, hstep⟩, rfl⟩ := hmem
  have hahead : 0 < priceTick * (max protection.trailingStepPoints 1 : Nat) :=
    mul_pos htick (Nat.cast_pos.mpr (lt_max_of_lt_right Nat.one_pos))
  refine ⟨fun held hheld => hahead.trans_le (hstep held hheld), ?_⟩
  cases position.side with
  | buy => exact ⟨-protection.trailingStopPoints, by push_cast; ring⟩
  | sell => exact ⟨protection.trailingStopPoints, by push_cast; ring⟩

theorem breakevenStop_mem (hmem : stop ∈ breakevenStop position priceTick protection) :
    (∀ held, position.stopLoss = some held → 0 < gain position.side held stop) ∧
      ∃ points : ℤ, stop = position.openPrice + points * priceTick := by
  simp only [breakevenStop, mem_ite_nil_right, mem_singleton, Bool.and_eq_true, Option.all_eq_true, decide_eq_true_eq] at hmem
  obtain ⟨⟨-, hahead⟩, rfl⟩ := hmem
  refine ⟨hahead, ?_⟩
  cases position.side with
  | buy => exact ⟨protection.breakevenOffsetPoints, by push_cast; ring⟩
  | sell => exact ⟨-protection.breakevenOffsetPoints, by push_cast; ring⟩

/-- A stop that is produced is a candidate, and every candidate is ahead of the stop that is held. -/
theorem protectionStop_spec (h : copierTargetProtectionStop position priceTick protection = some stop) :
    0 < stop ∧ 0 < gain position.side stop position.currentPrice ∧
      (∀ held, position.stopLoss = some held → 0 < gain position.side held stop) ∧ ∃ points : ℤ,
        stop = position.currentPrice + points * priceTick ∨ stop = position.openPrice + points * priceTick := by
  unfold copierTargetProtectionStop at h
  split at h
  next => cases h
  next hpositive =>
    obtain ⟨hmem, hpos, hlosing⟩ := bestStop_mem h
    simp only [Bool.or_eq_true, decide_eq_true_eq, not_or, not_le] at hpositive
    refine ⟨hpos, hlosing, ?_⟩
    rcases mem_append.mp hmem with htrailing | hbreakeven
    · obtain ⟨hahead, points, hgrid⟩ := trailingStop_mem htrailing hpositive.1
      exact ⟨hahead, points, .inl hgrid⟩
    · obtain ⟨hahead, points, hgrid⟩ := breakevenStop_mem hbreakeven
      exact ⟨hahead, points, .inr hgrid⟩

/-- A stop that was produced: at which price, and which one it replaces. -/
structure Ratcheted where
  price : Decimal
  held : Option Decimal
  stop : Decimal
deriving DecidableEq

variable (position priceTick protection) in
def stopAt (held : Option Decimal) (price : Decimal) : Option Decimal :=
  copierTargetProtectionStop { position with currentPrice := price, stopLoss := held } priceTick protection

variable (position priceTick protection) in
/-- The sweep at a market price: a stop that is produced is accepted. -/
def feedPrice (held : Option Decimal) (price : Decimal) : Option (Option Decimal) :=
  some ((stopAt position priceTick protection held price).or held)

variable (position priceTick protection) in
def ratcheted (held : Option Decimal) (price : Decimal) (_ : Option Decimal) : List Ratcheted :=
  (stopAt position priceTick protection held price).toList.map fun stop => ⟨price, held, stop⟩

/-- The produced stop is positive, on the losing side of the market and ahead of the one it replaces. -/
def Ratcheted.Sound (side : Side) (move : Ratcheted) : Prop :=
  0 < move.stop ∧ 0 < gain side move.stop move.price ∧ ∀ held, move.held = some held → 0 < gain side held move.stop

theorem gain_add (side : Side) (start middle finish : Decimal) :
    gain side start middle + gain side middle finish = gain side start finish := by
  cases side <;> simp only [gain] <;> ring

variable (priceTick) in
/-- The price is a whole number of ticks. -/
def OnGrid (price : Decimal) : Prop := ∃ ticks : ℤ, price = ticks * priceTick

theorem OnGrid.add {price : Decimal} (h : OnGrid priceTick price) (points : ℤ) : OnGrid priceTick (price + points * priceTick) := by
  obtain ⟨ticks, hticks⟩ := h
  exact ⟨ticks + points, by rw [hticks]; push_cast; ring⟩

theorem OnGrid.roundToTick_eq {price : Decimal} (h : OnGrid priceTick price) : roundToTick price priceTick = price := by
  obtain ⟨ticks, rfl⟩ := h
  unfold roundToTick
  split
  next => rfl
  next hpos => rw [mul_div_cancel_right₀ _ (not_le.mp hpos).ne', roundHalfEven_intCast]

/-- **The stops of a sweep only tighten, over any prices, and where the entry and the prices are on the grid they are too.** -/
theorem protection_ratchets {start held : Option Decimal} {log : List Ratcheted}
    (hrun : Runs.Records (feedPrice position priceTick protection) Runs.always (ratcheted position priceTick protection) start held log) :
    (∀ move ∈ log, move.Sound position.side) ∧
      log.Pairwise (fun earlier later => 0 < gain position.side earlier.stop later.stop) ∧
      (OnGrid priceTick position.openPrice → ∀ move ∈ log, OnGrid priceTick move.price →
        roundToTick move.stop priceTick = move.stop) := by
  have hkept := hrun.invariant (fun held log => (∀ move ∈ log, move.Sound position.side) ∧
      log.Pairwise (fun earlier later => 0 < gain position.side earlier.stop later.stop) ∧
      (OnGrid priceTick position.openPrice → ∀ move ∈ log, OnGrid priceTick move.price → OnGrid priceTick move.stop) ∧
      ∀ move ∈ log, ∃ stop, held = some stop ∧ 0 ≤ gain position.side move.stop stop)
    ⟨nofun, .nil, nofun, nofun⟩ ?_
  · exact ⟨hkept.1, hkept.2.1, fun hopen move hmove hprc => (hkept.2.2.1 hopen move hmove hprc).roundToTick_eq⟩
  · intro held price held' log ⟨hsnd, hordd, hgrid, hbehind⟩ _ hstep
    cases hstep
    cases hstop : stopAt position priceTick protection held price with
    | none => simpa [ratcheted, hstop] using ⟨hsnd, hordd, hgrid, hbehind⟩
    | some stop =>
      obtain ⟨hpos, hlosing, hahead, points, hpoints⟩ := protectionStop_spec hstop
      -- what is held is behind no stop before it, and the new stop is ahead of what is held
      have haft : ∀ move ∈ log, 0 < gain position.side move.stop stop := by
        intro move hmove
        obtain ⟨last, hlast, hle⟩ := hbehind move hmove
        rw [← gain_add position.side move.stop last stop]
        exact add_pos_of_nonneg_of_pos hle (hahead last hlast)
      simp only [ratcheted, hstop, toList_some, map_cons, map_nil, forall_mem_append, forall_mem_singleton, some_or]
      refine ⟨⟨hsnd, hpos, hlosing, hahead⟩, ?_, fun hopen => ⟨hgrid hopen, fun hprc => ?_⟩, fun move hmove => ?_, ?_⟩
      · exact pairwise_append.mpr ⟨hordd, pairwise_singleton _ _, by simpa using haft⟩
      -- each candidate is a whole number of ticks from the market or the entry
      · rcases hpoints with rfl | rfl
        · exact hprc.add points
        · exact hopen.add points
      · exact ⟨stop, rfl, (haft move hmove).le⟩
      · exact ⟨stop, rfl, by cases position.side <;> simp [gain]⟩

end Ratchet

section Examples

def longPosition (openPrice : Decimal) : EaPositionSnapshot :=
  { protectedPosition ⟨0, 0⟩ with side := .buy, openPrice := openPrice }

/-- To the entry after one point, then two points behind the market. -/
def entryThenTrail : CopyProtectionConfig :=
  { trailingStopPoints := 2, trailingStepPoints := 1, breakevenTriggerPoints := 1, breakevenOffsetPoints := 0 }

theorem rising_price_ratchets : Ratcheted.Sound .buy ⟨15, some 10, 13⟩ ∧ 0 < gain .buy 10 13 ∧ roundToTick 13 1 = 13 := by
  have hexec : Runs.execRecords (feedPrice (longPosition 10) 1 entryThenTrail) (fun _ _ => true)
      (ratcheted (longPosition 10) 1 entryThenTrail) none [] [12, 15] = some (some 13, [⟨12, none, 10⟩, ⟨15, some 10, 13⟩]) := by
    decide +kernel
  obtain ⟨hsnd, hordd, hgrid⟩ := protection_ratchets (Runs.records_exec hexec)
  exact ⟨hsnd ⟨15, some 10, 13⟩ (by simp), rel_of_pairwise_cons hordd (mem_singleton_self _),
    hgrid ⟨10, by decide +kernel⟩ ⟨15, some 10, 13⟩ (by simp) ⟨15, by decide +kernel⟩⟩

/-- An entry between two ticks: the stop at the entry, rounded, is the one it replaces. -/
theorem rounded_entry_kept :
      Runs.Records (feedPrice (longPosition (104 / 10)) 1 entryThenTrail) Runs.always
        (ratcheted (longPosition (104 / 10)) 1 entryThenTrail) (some 10) (some (104 / 10)) [⟨114 / 10, some 10, 104 / 10⟩] ∧
      ¬ Ratcheted.Sound .buy ⟨114 / 10, some 10, roundToTick (104 / 10) 1⟩ := by
  have hexec : Runs.execRecords (feedPrice (longPosition (104 / 10)) 1 entryThenTrail) (fun _ _ => true)
      (ratcheted (longPosition (104 / 10)) 1 entryThenTrail) (some 10) [] [114 / 10] =
        some (some (104 / 10), [⟨114 / 10, some 10, 104 / 10⟩]) := by
    decide +kernel
  exact ⟨Runs.records_exec hexec, fun hsnd => absurd (hsnd.2.2 10 rfl) (by decide +kernel)⟩

end Examples

end MarketLens.Copier
