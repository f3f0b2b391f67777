/-!
# Conditions that may be unknown

A comparison with a null column has no truth value. What it is under `NOT` and `AND` follows
the strong three-valued tables, and a condition takes its branch only where it is true.
-/

/-- The value of a condition, `none` where it is unknown. -/
abbrev Truth := Option Bool

namespace Truth

variable {K : Type} [DecidableEq K]

/-- A comparison with a column that may be null. -/
def eq (column : Option K) (value : K) : Truth := column.map (decide <| · = value)

def not : Truth → Truth := Option.map (!·)

def and : Truth → Truth → Truth
  | some false, _ | _, some false => some false
  | some true, some true => some true
  | _, _ => none

variable {a b : Truth}

theorem not_true : a.not = some true ↔ a = some false := by
  rcases a with _ | _ | _ <;> decide

theorem and_true : a.and b = some true ↔ a = some true ∧ b = some true := by
  rcases a with _ | _ | _ <;> rcases b with _ | _ | _ <;> decide

theorem and_false : a.and b = some false ↔ a = some false ∨ b = some false := by
  rcases a with _ | _ | _ <;> rcases b with _ | _ | _ <;> decide

theorem eq_false {column : Option K} {value : K} : eq column value = some false ↔ column ≠ none ∧ column ≠ some value := by
  cases column <;> simp [eq]

end Truth
