/-!
# Calls that keep their writes when they fail

A method that mutates its receiver and returns a `Result` leaves what it has
written behind when it fails half way. An `Attempt` is such a call: it always
leaves a state, with a value or with an error.
-/

namespace Attempts

/-- A call on a state `S`: the result, and the state it leaves either way. -/
def Attempt (S ε α : Type) : Type := S → Except ε α × S

namespace Attempt

variable {S ε α β : Type}

instance : Monad (Attempt S ε) where
  pure value := fun s => (.ok value, s)
  bind call next := fun s =>
    match call s with
    | (.ok value, s') => next value s'
    | (.error e, s') => (.error e, s')

/-- The state. -/
def get : Attempt S ε S := fun s => (.ok s, s)

def modify (f : S → S) : Attempt S ε Unit := fun s => (.ok (), f s)

def fail (e : ε) : Attempt S ε α := fun s => (.error e, s)

/-- An early return where `bad` holds. -/
def refuseIf (bad : Bool) (e : ε) : Attempt S ε Unit := fun s => (if bad then .error e else .ok (), s)

/-- `value.ok_or(e)?`. -/
def require (value : Option α) (e : ε) : Attempt S ε α := fun s =>
  match value with
  | some value => (.ok value, s)
  | none => (.error e, s)

/-- `result?`. -/
def ofExcept (result : Except ε α) : Attempt S ε α := fun s => (result, s)

/-- `let _ = call`: the call, whatever comes of it. -/
def ignore (call : Attempt S ε α) : Attempt S ε Unit := fun s => (.ok (), (call s).2)

theorem pure_apply (value : α) (s : S) : (pure value : Attempt S ε α) s = (.ok value, s) := rfl

variable {call : Attempt S ε α} {next : α → Attempt S ε β}

theorem bind_of_ok {s s' : S} {value : α} (h : call s = (.ok value, s')) : (call >>= next) s = next value s' := by
  show (match call s with
    | (.ok value, s') => next value s'
    | (.error e, s') => (.error e, s')) = _
  rw [h]

variable {e : ε}

theorem bind_of_error {s s' : S} (h : call s = (.error e, s')) : (call >>= next) s = (.error e, s') := by
  show (match call s with
    | (.ok value, s') => next value s'
    | (.error e, s') => (.error e, s')) = _
  rw [h]

/-- A call made of two ends where the first fails, or goes on from what it leaves. -/
theorem bind_cases (call : Attempt S ε α) (next : α → Attempt S ε β) (s : S) :
    (∃ value, (call s).1 = .ok value ∧ (call >>= next) s = next value (call s).2)
    ∨ ∃ e, (call s).1 = .error e ∧ (call >>= next) s = (.error e, (call s).2) := by
  cases h : call s with
  | mk result =>
    cases result with
    | ok value => exact .inl ⟨value, rfl, bind_of_ok h⟩
    | error e => exact .inr ⟨e, rfl, bind_of_error h⟩

@[simp] theorem get_apply (s : S) : (get : Attempt S ε S) s = (.ok s, s) := rfl

variable {bad : Bool}

theorem refuseIf_false (h : bad = false) (s : S) : refuseIf bad e s = (.ok (), s) := by
  subst h
  rfl

theorem refuseIf_true (h : bad = true) (s : S) : refuseIf bad e s = (.error e, s) := by
  subst h
  rfl

variable {value : Option α}

theorem require_some {a : α} (e : ε) (h : value = some a) (s : S) : require value e s = (.ok a, s) := by
  subst h
  rfl

theorem require_none (e : ε) (h : value = none) (s : S) : require value e s = (.error e, s) := by
  subst h
  rfl

/-! ### Checks on the way -/

section Checks

variable {P : Except ε β × S → Prop} {s : S}

/-- What holds of a call behind a check: of the refusal, and of what goes on. -/
theorem refuseIf_bind {next : Unit → Attempt S ε β} (hbad : bad = true → P (.error e, s))
    (hgood : bad = false → P (next () s)) : P ((refuseIf bad e >>= next) s) := by
  cases bad with
  | true => exact hbad rfl
  | false => exact hgood rfl

theorem ofExcept_bind {result : Except ε α} (hbad : ∀ e, result = .error e → P (.error e, s))
    (hgood : ∀ value, result = .ok value → P (next value s)) : P ((ofExcept result >>= next) s) := by
  cases result with
  | error e => exact hbad e rfl
  | ok value => exact hgood value rfl

theorem require_bind (hbad : value = none → P (.error e, s))
    (hgood : ∀ a, value = some a → P (next a s)) : P ((require value e >>= next) s) := by
  cases value with
  | none => exact hbad rfl
  | some a => exact hgood a rfl

end Checks

/-! ### What a call keeps -/

section Keeps

variable {R : S → S → Prop}

/-- Whatever comes of the call, the state it leaves is related to the one it found. -/
def Keeps (R : S → S → Prop) (call : Attempt S ε α) : Prop := ∀ s, R s (call s).2

theorem keeps_bind (htrans : ∀ a b c, R a b → R b c → R a c)
    (hcall : Keeps R call) (hnext : ∀ value, Keeps R (next value)) : Keeps R (call >>= next) := by
  intro s
  rcases bind_cases call next s with ⟨value, -, h⟩ | ⟨e, -, h⟩
  · rw [h]
    exact htrans _ _ _ (hcall s) (hnext value _)
  · rw [h]
    exact hcall s

theorem keeps_pure (hrefl : ∀ s, R s s) (value : α) : Keeps R (pure value : Attempt S ε α) := hrefl

theorem keeps_fail (hrefl : ∀ s, R s s) (e : ε) : Keeps R (fail e : Attempt S ε α) := hrefl

theorem keeps_ofExcept (hrefl : ∀ s, R s s) (result : Except ε α) : Keeps R (ofExcept result) := hrefl

end Keeps

end Attempt

end Attempts
