import Std.Data.ExtTreeMap.Lemmas
import MarketLens.Domain.Text

/-!
# The runtime registry of the terminal agent

The slots of the terminals one worker runs, keyed by account: each with the lease
it was provisioned under and the state its runtime is in. A slot moves between
states along the edges of `validStateTransition` only, and only for the holder of
its lease. Every operation checks before it writes, so a failed one leaves the
registry as it was.
-/

namespace MarketLens.VmAgent

open Fallible
open Std (ExtTreeMap)

/-- `HARD_MAX_TERMINALS`. -/
def hardMaxTerminals : Nat := 32

inductive RuntimeState where
  | provisioning
  | terminalStarting
  | authenticating
  | synchronizing
  | ready
  | degraded
  | reconnecting
  | stopped
deriving DecidableEq

/-- A component of a path that is not its root. -/
inductive Component where
  | normal (name : String)
  | parentDir
deriving DecidableEq

structure Path where
  isAbsolute : Bool
  components : List Component

namespace Path

def join (path : Path) (name : String) : Path :=
  { path with components := path.components ++ [.normal name] }

def startsWith (path base : Path) : Bool :=
  path.isAbsolute = base.isAbsolute && base.components.isPrefixOf path.components

end Path

structure RuntimeSlot where
  accountId : String
  leaseGeneration : Nat
  state : RuntimeState
  runtimeDirectory : Path
  terminalPid : Option Nat
  adapterPid : Option Nat

inductive AgentError where
  | invalidAccountId
  | pathMustBeAbsolute
  | invalidCapacity
  | capacityExhausted
  | runtimeExists
  | runtimeNotFound
  | staleLeaseGeneration
  | invalidLeaseGeneration
  | unsafeRuntimePath
  | invalidStateTransition

structure RuntimeRegistry where
  dataRoot : Path
  maxTerminals : Nat
  runtimes : ExtTreeMap String RuntimeSlot compare

/-- `valid_state_transition`. -/
def validStateTransition : RuntimeState → RuntimeState → Bool
  | .stopped, .stopped => false
  | _, .stopped => true
  | .provisioning, .terminalStarting => true
  | .terminalStarting, .authenticating => true
  | .authenticating, .synchronizing => true
  | .synchronizing, .ready => true
  | .ready, .degraded => true
  | .ready, .reconnecting => true
  | .degraded, .reconnecting => true
  | .reconnecting, .authenticating => true
  | .reconnecting, .terminalStarting => true
  | _, _ => false

/-- `is_safe_identifier`. -/
def isSafeIdentifier (value : String) : Bool :=
  !value.isEmpty && value.utf8ByteSize ≤ 64
    && value.toList.all fun c => isAsciiAlphanumeric c || c = '-' || c = '_'

/-- `checked_runtime_directory`. -/
def checkedRuntimeDirectory (dataRoot : Path) (accountId : String) : Except AgentError Path := do
  refuseIf (!dataRoot.isAbsolute) .pathMustBeAbsolute
  refuseIf (!isSafeIdentifier accountId) .invalidAccountId
  refuseIf (dataRoot.components.any (· = .parentDir)) .unsafeRuntimePath
  let candidate := (dataRoot.join "accounts").join accountId
  refuseIf (!candidate.startsWith dataRoot) .unsafeRuntimePath
  return candidate

namespace RuntimeRegistry

/-- `RuntimeRegistry::new`. -/
def new (dataRoot : Path) (maxTerminals : Nat) : Except AgentError RuntimeRegistry := do
  refuseIf (!dataRoot.isAbsolute) .pathMustBeAbsolute
  refuseIf (!(1 ≤ maxTerminals && maxTerminals ≤ hardMaxTerminals)) .invalidCapacity
  return ⟨dataRoot, maxTerminals, ∅⟩

/-- The slot a provisioned account starts with. -/
def freshSlot (accountId : String) (leaseGeneration : Nat) (directory : Path) : RuntimeSlot :=
  { accountId, leaseGeneration, state := .provisioning, runtimeDirectory := directory, terminalPid := none
    adapterPid := none }

section
variable (registry : RuntimeRegistry) (accountId : String) (leaseGeneration : Nat)

def provision :
    Except AgentError RuntimeRegistry := do
  refuseIf (!isSafeIdentifier accountId) .invalidAccountId
  refuseIf (leaseGeneration = 0) .invalidLeaseGeneration
  refuseIf (registry.runtimes.contains accountId) .runtimeExists
  refuseIf (registry.maxTerminals ≤ registry.runtimes.size) .capacityExhausted
  let directory ← checkedRuntimeDirectory registry.dataRoot accountId
  return { registry with
    runtimes := registry.runtimes.insert accountId (freshSlot accountId leaseGeneration directory) }

def leased : Except AgentError RuntimeSlot := do
  let slot ← require registry.runtimes[accountId]? .runtimeNotFound
  refuseIf (slot.leaseGeneration ≠ leaseGeneration) .staleLeaseGeneration
  return slot

def transition (state : RuntimeState) :
    Except AgentError RuntimeRegistry := do
  let slot ← registry.leased accountId leaseGeneration
  refuseIf (slot.state ≠ state && !validStateTransition slot.state state) .invalidStateTransition
  return { registry with runtimes := registry.runtimes.insert accountId { slot with state } }

def setProcessIds
    (terminalPid adapterPid : Option Nat) : Except AgentError RuntimeRegistry := do
  let slot ← registry.leased accountId leaseGeneration
  return { registry with runtimes := registry.runtimes.insert accountId { slot with terminalPid, adapterPid } }

def requireLease :
    Except AgentError RuntimeSlot := do
  let slot ← require registry.runtimes[accountId]? .runtimeNotFound
  refuseIf (leaseGeneration = 0) .invalidLeaseGeneration
  refuseIf (slot.leaseGeneration ≠ leaseGeneration) .staleLeaseGeneration
  return slot

def remove :
    Except AgentError RuntimeRegistry := do
  let _ ← registry.leased accountId leaseGeneration
  return { registry with runtimes := registry.runtimes.erase accountId }

end

/-! ## What the operations do to a slot -/

def setSlot (registry : RuntimeRegistry) (accountId : String) (slot : RuntimeSlot) : RuntimeRegistry :=
  { registry with runtimes := registry.runtimes.insert accountId slot }

variable {registry registry' : RuntimeRegistry} {accountId : String} {generation : Nat} {slot : RuntimeSlot}

theorem getElem?_setSlot (other : String) :
    (registry.setSlot accountId slot).runtimes[other]? = if accountId = other then some slot else registry.runtimes[other]? := by
  show (registry.runtimes.insert accountId slot)[other]? = _
  rw [ExtTreeMap.getElem?_insert]
  simp only [Std.LawfulEqOrd.compare_eq_iff_eq]

@[simp] theorem setSlot_setSlot (slot' : RuntimeSlot) :
    (registry.setSlot accountId slot).setSlot accountId slot' = registry.setSlot accountId slot' := by
  have hruntimes : ((registry.setSlot accountId slot).setSlot accountId slot').runtimes
      = (registry.setSlot accountId slot').runtimes := by
    refine ExtTreeMap.ext_getElem? fun other => ?_
    rw [getElem?_setSlot, getElem?_setSlot, getElem?_setSlot]
    split <;> rfl
  exact congrArg (RuntimeRegistry.mk registry.dataRoot registry.maxTerminals) hruntimes

theorem leased_ok : registry.leased accountId generation = .ok slot
    ↔ registry.runtimes[accountId]? = some slot ∧ slot.leaseGeneration = generation := by
  unfold leased
  rw [bind_ok]
  constructor
  · rintro ⟨found, hfnd, h⟩
    obtain ⟨hgen, h⟩ := unit_bind_ok.mp h
    cases h
    rw [require_ok] at hfnd
    rw [refuseIf_ok] at hgen
    exact ⟨hfnd, by simpa using hgen⟩
  · rintro ⟨hslot, hgen⟩
    refine ⟨slot, require_ok.mpr hslot, unit_bind_ok.mpr ⟨?_, rfl⟩⟩
    rw [refuseIf_ok]
    simpa using hgen

variable {state : RuntimeState}

/-- A slot takes a state it has already, or one an edge leads to. -/
theorem transition_of_valid (hslot : registry.runtimes[accountId]? = some slot) (hls : slot.leaseGeneration = generation)
    (hval : slot.state = state ∨ validStateTransition slot.state state = true) :
    registry.transition accountId generation state = .ok (registry.setSlot accountId { slot with state }) := by
  unfold transition
  rw [leased_ok.mpr ⟨hslot, hls⟩]
  have hedge : (slot.state ≠ state && !validStateTransition slot.state state) = false := by
    rcases hval with hsame | hedge
    · simp [hsame]
    · simp [hedge]
  show (refuseIf _ _ >>= fun _ => _) = _
  rw [hedge]
  rfl

theorem transition_of_invalid (hslot : registry.runtimes[accountId]? = some slot)
    (hls : slot.leaseGeneration = generation) (hoth : slot.state ≠ state)
    (hinvalid : validStateTransition slot.state state = false) :
    registry.transition accountId generation state = .error .invalidStateTransition := by
  unfold transition
  rw [leased_ok.mpr ⟨hslot, hls⟩]
  have hedge : (slot.state ≠ state && !validStateTransition slot.state state) = true := by
    simp [hoth, hinvalid]
  show (refuseIf _ _ >>= fun _ => _) = _
  rw [hedge]
  rfl

theorem transition_ok (h : registry.transition accountId generation state = .ok registry') :
    ∃ slot, registry.runtimes[accountId]? = some slot ∧ registry' = registry.setSlot accountId { slot with state } := by
  unfold transition at h
  obtain ⟨slot, hslot, h⟩ := bind_ok.mp h
  obtain ⟨-, h⟩ := unit_bind_ok.mp h
  cases h
  exact ⟨slot, (leased_ok.mp hslot).1, rfl⟩

theorem setProcessIds_ok {terminalPid adapterPid : Option Nat}
    (h : registry.setProcessIds accountId generation terminalPid adapterPid = .ok registry') :
    ∃ slot, registry.runtimes[accountId]? = some slot
      ∧ registry' = registry.setSlot accountId { slot with terminalPid, adapterPid } := by
  unfold setProcessIds at h
  obtain ⟨slot, hslot, h⟩ := bind_ok.mp h
  cases h
  exact ⟨slot, (leased_ok.mp hslot).1, rfl⟩

theorem setProcessIds_of_leased {terminalPid adapterPid : Option Nat}
    (hslot : registry.runtimes[accountId]? = some slot) (hls : slot.leaseGeneration = generation) :
    registry.setProcessIds accountId generation terminalPid adapterPid
      = .ok (registry.setSlot accountId { slot with terminalPid, adapterPid }) := by
  unfold setProcessIds
  rw [leased_ok.mpr ⟨hslot, hls⟩]
  rfl

theorem remove_of_leased (hslot : registry.runtimes[accountId]? = some slot) (hls : slot.leaseGeneration = generation) :
    registry.remove accountId generation = .ok { registry with runtimes := registry.runtimes.erase accountId } := by
  unfold remove
  rw [leased_ok.mpr ⟨hslot, hls⟩]
  rfl

theorem requireLease_ok : registry.requireLease accountId generation = .ok slot
    ↔ registry.runtimes[accountId]? = some slot ∧ slot.leaseGeneration = generation ∧ 0 < generation := by
  unfold requireLease
  rw [bind_ok]
  constructor
  · rintro ⟨found, hfnd, h⟩
    obtain ⟨hpos, h⟩ := unit_bind_ok.mp h
    obtain ⟨hgen, h⟩ := unit_bind_ok.mp h
    cases h
    rw [require_ok] at hfnd
    rw [refuseIf_ok, decide_eq_false_iff_not] at hpos
    rw [refuseIf_ok] at hgen
    exact ⟨hfnd, by simpa using hgen, by omega⟩
  · rintro ⟨hslot, hgen, hpos⟩
    refine ⟨slot, require_ok.mpr hslot, unit_bind_ok.mpr ⟨?_, unit_bind_ok.mpr ⟨?_, rfl⟩⟩⟩
    · rw [refuseIf_ok, decide_eq_false_iff_not]
      omega
    · rw [refuseIf_ok]
      simpa using hgen

theorem provision_ok (h : registry.provision accountId generation = .ok registry') :
    ∃ directory, registry' = registry.setSlot accountId (freshSlot accountId generation directory)
      ∧ 0 < generation ∧ registry.runtimes[accountId]? = none ∧ registry.runtimes.size < registry.maxTerminals := by
  unfold provision at h
  rw [unit_bind_ok, unit_bind_ok, unit_bind_ok, unit_bind_ok] at h
  obtain ⟨-, hpos, habse, hroom, h⟩ := h
  obtain ⟨directory, -, h⟩ := bind_ok.mp h
  cases h
  rw [refuseIf_ok, decide_eq_false_iff_not] at hpos hroom
  rw [refuseIf_ok] at habse
  refine ⟨directory, rfl, by omega, ?_, by omega⟩
  exact ExtTreeMap.getElem?_eq_none_of_contains_eq_false habse

end RuntimeRegistry

end MarketLens.VmAgent
