/-!
# Fallible computations, taken apart

A validator is a chain of refusals. These are the rules that read a successful
run of such a chain backwards: every refusal was passed, every step succeeded.
-/

namespace Fallible

variable {ε α β : Type}

/-- Refuse with `e` when the condition holds. -/
def refuseIf (bad : Bool) (e : ε) : Except ε Unit :=
  if bad then .error e else .ok ()

/-- A sequence succeeds exactly when both of its halves do. -/
theorem bind_ok {x : Except ε α} {f : α → Except ε β} {b : β} : (x >>= f) = .ok b ↔ ∃ a, x = .ok a ∧ f a = .ok b := by
  cases x with
  | error | ok => simp [bind, Except.bind]

@[simp] theorem refuseIf_ok {bad : Bool} {e : ε} : refuseIf bad e = .ok () ↔ bad = false := by
  cases bad <;> simp [refuseIf]

/-- A step that returns nothing succeeds and the rest goes on. -/
theorem unit_bind_ok {x : Except ε Unit} {f : Unit → Except ε β} {b : β} : (x >>= f) = .ok b ↔ x = .ok () ∧ f () = .ok b := by
  rw [bind_ok]
  exact ⟨fun ⟨_, hx, hf⟩ => ⟨hx, hf⟩, fun ⟨hx, hf⟩ => ⟨(), hx, hf⟩⟩

/-- Take the value, or refuse with `e` when there is none. -/
def require (value : Option α) (e : ε) : Except ε α :=
  match value with
  | some a => .ok a
  | none => .error e

@[simp] theorem require_ok {value : Option α} {e : ε} {a : α} : require value e = .ok a ↔ value = some a := by
  cases value <;> simp [require]

/-- A sequence fails where its first half does, or its second. -/
theorem bind_error {x : Except ε α} {f : α → Except ε β} {e : ε} :
    (x >>= f) = .error e ↔ x = .error e ∨ ∃ a, x = .ok a ∧ f a = .error e := by
  cases x with
  | error | ok => simp [bind, Except.bind]

@[simp] theorem refuseIf_error {bad : Bool} {e e' : ε} : refuseIf bad e = .error e' ↔ bad = true ∧ e = e' := by
  cases bad <;> simp [refuseIf]

@[simp] theorem require_error {value : Option α} {e e' : ε} : require value e = .error e' ↔ value = none ∧ e = e' := by
  cases value <;> simp [require]

/-- A computation that has a value succeeded with it. -/
theorem toOption_some {result : Except ε α} {value : α} (h : result.toOption = some value) : result = .ok value := by
  cases result with
  | error => exact absurd h (by simp [Except.toOption])
  | ok => exact congrArg Except.ok (Option.some.inj h)

/-- Run a check over every item, stopping at the first failure. -/
def checkAll (check : α → Except ε Unit) : List α → Except ε Unit
  | [] => .ok ()
  | item :: rest => do
    check item
    checkAll check rest

end Fallible
