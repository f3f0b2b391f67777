import Mathlib.Order.MinMax

/-!
# Walking a path past levels

A path is a starting point and the turning points it runs through, straight from
one to the next. A level is passed at every point on its far side. The path passes
a level first where it starts, if that is on the far side already, and otherwise
on the first leg that ends there, at the level itself. A path that starts between
two levels leaves through the one it passes first.
-/

namespace Walk

variable {P : Type} [LinearOrder P]

/-- A level, passed at the points above it or at the points below it. -/
structure Level (P : Type) where
  price : P
  above : Bool

def Level.passed (level : Level P) (point : P) : Bool :=
  if level.above then level.price ≤ point else point ≤ level.price

/-- Where a path first passes a level, and the turning points that are left from there. -/
def touchAt (level : Level P) (start : P) : List P → Option (P × List P)
  | [] => if level.passed start then some (start, []) else none
  | next :: rest =>
    if level.passed start then some (start, next :: rest)
    else if level.passed next then some (level.price, next :: rest)
    else touchAt level next rest

/-- Where a path first passes a level. -/
def touch (level : Level P) (start : P) (path : List P) : Option P :=
  (touchAt level start path).map Prod.fst

/-- Where a path first passes one of two levels, the lower one downwards or the upper one upwards. -/
def leave (lower upper : Option P) (start : P) : List P → Option P
  | [] => if lower.any (start ≤ ·) || upper.any (· ≤ start) then some start else none
  | next :: rest =>
    if lower.any (start ≤ ·) || upper.any (· ≤ start) then some start
    else if lower.any (next ≤ ·) then lower
    else if upper.any (· ≤ next) then upper
    else leave lower upper next rest

variable {level : Level P} {start point low high : P} {path rest : List P}

theorem Level.between {next : P} (hstart : level.passed start = false)
    (hnext : level.passed next = true) : min start next ≤ level.price ∧ level.price ≤ max start next := by
  unfold Level.passed at hstart hnext
  split at hstart
  · rename_i habo
    rw [if_pos habo, decide_eq_true_iff] at hnext
    rw [decide_eq_false_iff_not, not_le] at hstart
    exact ⟨(min_le_left _ _).trans hstart.le, hnext.trans (le_max_right _ _)⟩
  · rename_i hbelow
    rw [if_neg hbelow, decide_eq_true_iff] at hnext
    rw [decide_eq_false_iff_not, not_le] at hstart
    exact ⟨(min_le_right _ _).trans hnext, hstart.le.trans (le_max_left _ _)⟩

theorem touchAt_within (hstart : low ≤ start ∧ start ≤ high) (hpath : ∀ p ∈ path, low ≤ p ∧ p ≤ high)
    (h : touchAt level start path = some (point, rest)) :
    (low ≤ point ∧ point ≤ high) ∧ ∀ p ∈ rest, low ≤ p ∧ p ≤ high := by
  induction path generalizing start with
  | nil =>
    rw [touchAt] at h
    split at h
    · cases h
      exact ⟨hstart, hpath⟩
    · cases h
  | cons next tail ih =>
    have hnext := hpath next List.mem_cons_self
    rw [touchAt] at h
    split at h
    · cases h
      exact ⟨hstart, hpath⟩
    · rename_i hbef
      split at h
      · rename_i hpass
        cases h
        obtain ⟨hmin, hmax⟩ := Level.between (Bool.eq_false_of_not_eq_true hbef) hpass
        exact ⟨⟨(le_min hstart.1 hnext.1).trans hmin, hmax.trans (max_le hstart.2 hnext.2)⟩, hpath⟩
      · exact ih hnext (fun p hp => hpath p (List.mem_cons_of_mem _ hp)) h

theorem touch_within (hstart : low ≤ start ∧ start ≤ high) (hpath : ∀ p ∈ path, low ≤ p ∧ p ≤ high)
    (h : touch level start path = some point) : low ≤ point ∧ point ≤ high := by
  obtain ⟨⟨first, rest⟩, htouch, rfl⟩ := Option.map_eq_some_iff.mp h
  exact (touchAt_within hstart hpath htouch).1

theorem leave_within {lower upper : Option P} (hstart : low ≤ start ∧ start ≤ high)
    (hpath : ∀ p ∈ path, low ≤ p ∧ p ≤ high) (h : leave lower upper start path = some point) :
    low ≤ point ∧ point ≤ high := by
  induction path generalizing start with
  | nil =>
    rw [leave] at h
    split at h
    · cases h
      exact hstart
    · cases h
  | cons next tail ih =>
    have hnext := hpath next List.mem_cons_self
    rw [leave] at h
    split at h
    · cases h
      exact hstart
    · rename_i hinsi
      rw [Bool.not_eq_true, Bool.or_eq_false_iff] at hinsi
      split at h
      · rename_i hpass
        subst h
        have hlow : start ≤ point → False := by simpa using hinsi.1
        have hle : next ≤ point := by simpa using hpass
        exact ⟨hnext.1.trans hle, (not_le.mp hlow).le.trans hstart.2⟩
      · split at h
        · rename_i hpass
          subst h
          have hhigh : point ≤ start → False := by simpa using hinsi.2
          have hge : point ≤ next := by simpa using hpass
          exact ⟨hstart.1.trans (not_le.mp hhigh).le, hge.trans hnext.2⟩
        · exact ih hnext (fun p hp => hpath p (List.mem_cons_of_mem _ hp)) h

end Walk
