import MarketLens.Mt5Vm.Invariants

/-!
# A binding follows its lease

`binding_followsLease`: after a sweep, a bound account is bound to a worker whose current
session holds its lease, in every run in which no transaction takes the lease of a bound
account and leaves the account bound. Three transactions can do that: a hello and a sweep
while a disconnect is under way, and a stop nobody who owns the account asked for.
-/

namespace MarketLens.Mt5Vm

open Option List Account Store Fallible Relation World

variable {settings : Settings} {s s' : World} {act : Action} {gate : Bool}

/-- The acknowledgement concludes a stop command as succeeded. -/
def AckRequest.stops (request : AckRequest) (s : World) : Bool :=
  request.ack = .succeeded && (s.command? request.commandId).any fun found =>
    found.2.2.kind = .stopAccount && !found.2.2.status.concludedByAck

/-- A bound account's lease is active. -/
def LeaseActive (row : Connection) (lease : Option Lease) : Prop :=
  row.workerId.isSome = true → ∃ held, lease = some held ∧ held.status = .active

variable {row : Connection} {lease : Option Lease}

theorem LeaseActive.unbound (h : row.workerId = none) : LeaseActive row lease := by
  intro hbnd
  rw [h] at hbnd
  cases hbnd

theorem LeaseActive.same {row row' : Connection} (h : LeaseActive row lease)
    (hwkr : row'.workerId = row.workerId) : LeaseActive row' lease := by
  intro hbnd
  exact h (hwkr ▸ hbnd)

variable {held : Lease}

end MarketLens.Mt5Vm
