import MarketLens.Domain.Decimal

/-!
# The numbers of Pine

A point of a series is an exact number or it is unusable: `na`, not a number or infinite.
Integers are Go's, 64 bits wide: an unusable point becomes the least of them, as it does
on amd64. The functions of the vector evaluator that take a whole series give one of the same
length; the stateful VM calls some of them on the series it has recorded.
-/

namespace MarketLens.Pine

/-- A `float64`; `none` if `usable` says no. -/
abbrev Point := Option Decimal

/-- `usable`, and `statefulUsable`. -/
def usable (p : Point) : Bool := p.isSome

/-- An operation of two points, unusable if one of them is. -/
def Point.both (f : Decimal → Decimal → Decimal) (a b : Point) : Point :=
  a.bind fun x => b.map fun y => f x y

def Point.add (a b : Point) : Point := a.both (· + ·) b
def Point.sub (a b : Point) : Point := a.both (· - ·) b
def Point.mul (a b : Point) : Point := a.both (· * ·) b
def Point.neg (a : Point) : Point := a.map (- ·)

/-- A quotient; nothing is usable that is divided by zero. -/
def Point.div (a b : Point) : Point :=
  a.bind fun x => b.bind fun y => if y = 0 then none else some (x / y)

/-- `math.Max` of a number and a point. -/
def Point.atLeast (least : Decimal) (p : Point) : Point := p.map (max least)

/-- A comparison of two points. -/
def Point.test (f : Decimal → Decimal → Bool) (a b : Point) : Bool :=
  match a, b with
  | some x, some y => f x y
  | _, _ => false

/-! ## Integers -/

/-- The least `int64`. -/
def int64Min : Int := -9223372036854775808

/-- An integer in 64 bits. -/
def wrap64 (n : Int) : Int := (n - int64Min) % 18446744073709551616 + int64Min

/-- `math.Round`: halves away from zero. -/
def roundAway (value : Decimal) : Int :=
  if value < 0 then -⌊-value + 1 / 2⌋ else ⌊value + 1 / 2⌋

/-- `math.Trunc`. -/
def truncate (value : Decimal) : Int :=
  if value < 0 then -⌊-value⌋ else ⌊value⌋

/-- A conversion to `int`. -/
def toInt (p : Point) : Int :=
  match p with
  | none => int64Min
  | some value => if wrap64 (truncate value) = truncate value then truncate value else int64Min

/-- `math.Round` of a point. -/
def Point.round (p : Point) : Point := p.map fun value => (roundAway value : Decimal)

/-- `int(math.Max(least, math.Round(p)))`. -/
def roundedAtLeast (least : Decimal) (p : Point) : Int := toInt (Point.atLeast least p.round)

theorem wrap64_eq_self {n : Int} (hlow : int64Min ≤ n) (hhigh : n < -int64Min) : wrap64 n = n := by
  unfold wrap64 int64Min at *
  omega

/-! ## Technical analysis on a slice -/

section
variable (values : List Point)

/-- The point at an index, unusable outside the slice. -/
def pointAt (i : Nat) : Point := (values[i]?).getD none

def Point.sum (points : List Point) : Point := points.foldl Point.add (some 0)

/-- The `length` points that end at an index, oldest first. -/
def windowAt (i length : Nat) : List Point := (values.take (i + 1)).drop (i + 1 - length)

/-- Whether an index has too few points before it: `i < length-1`. -/
def beforeWindow (i : Nat) (length : Int) : Bool := (i : Int) < wrap64 (length - 1)

def rollingAverage (length : Int) : List Point :=
  (List.range values.length).map fun i =>
    if beforeWindow i length then none
    else (Point.sum (windowAt values i length.toNat)).div (some (length : Decimal))

/-- The loop of the two smoothed averages: an unusable point is passed over, and nothing is put out
before `length` points were seen. -/
def smoothedFrom (step : Decimal → Decimal → Decimal) (length : Int) : Point → Int → List Point → List Point
  | _, _, [] => []
  | prev, seen, none :: rest => none :: smoothedFrom step length prev seen rest
  | prev, seen, some value :: rest =>
    let next := match prev with
      | some before => step before value
      | none => value
    (if length ≤ seen + 1 then some next else none) :: smoothedFrom step length (some next) (seen + 1) rest

def exponentialAverage (length : Int) : List Point :=
  let k : Decimal := 2 / ((length : Decimal) + 1)
  smoothedFrom (fun prev value => value * k + prev * (1 - k)) length none 0 values

def runningMovingAverage (length : Int) : List Point :=
  smoothedFrom (fun prev value => (prev * (wrap64 (length - 1) : Decimal) + value) / (length : Decimal))
    length none 0 values

/-- The weights of a window, newest first. -/
def weights (length : Nat) : List Decimal := (List.range length).map fun j => ((length - j : Nat) : Decimal)

/-- The points of a window under these weights, newest first. -/
def weightedPoints (i length : Nat) : List Point :=
  (List.range length).map fun j => (pointAt values (i - j)).mul (some ((length - j : Nat) : Decimal))

def weightedMovingAverage (length : Int) : List Point :=
  (List.range values.length).map fun i =>
    if beforeWindow i length then none
    else (Point.sum (weightedPoints values i length.toNat)).div (some (weights length.toNat).sum)

end

def volumeWeightedMovingAverage (values volumes : List Point) (length : Int) : List Point :=
  (List.range values.length).map fun i =>
    if beforeWindow i length then none
    else
      let products := (List.range length.toNat).map fun j =>
        (pointAt values (i + 1 - length.toNat + j)).mul (pointAt volumes (i + 1 - length.toNat + j))
      let counted := (List.range length.toNat).map fun j => pointAt volumes (i + 1 - length.toNat + j)
      (Point.sum products).div (Point.sum counted)

/-- `math.Round(math.Sqrt(float64(n)))`. -/
def roundSqrt (n : Nat) : Nat := if n.sqrt * n.sqrt + n.sqrt < n then n.sqrt + 1 else n.sqrt

/-- Twice one series less another. -/
def doubleLess (half full : List Point) : List Point :=
  List.zipWith (fun h f => (Point.mul (some 2) h).sub f) half full

/-! ## Relative strength -/

/-- The index from the mean gain and the mean loss. -/
def relativeStrength (gain loss : Point) : Point :=
  if loss = some 0 then some 100
  else Point.sub (some 100) (Point.div (some 100) (Point.add (some 1) (gain.div loss)))

/-! ## Pivots -/

/-- Whether a neighbour leaves the center standing out. -/
def outranked (high : Bool) (center : Decimal) (neighbor : Point) : Bool :=
  match neighbor with
  | some value => if high then value < center else center < value
  | none => false

end MarketLens.Pine
