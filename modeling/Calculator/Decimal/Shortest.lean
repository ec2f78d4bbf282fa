import Calculator.Decimal.Grid

/-!
# Shortest digits

The shortest decimal that reads back as a given double: the coarsest decimal grid with a point that
rounds to the double, and on it the nearest such point. Of two points equally near, the larger magnitude
is taken.
-/

namespace Calculator.Decimal

/-- The number `digits * 10 ^ place`. -/
structure Scaled where
  digits : Nat
  place : Int

/-- The reals that round to `m * 2 ^ e`, in quarters of `2 ^ e`. The gap below a power of two is half as
wide, and a half way point belongs to the even significand. -/
structure Interval where
  low : Nat
  middle : Nat
  high : Nat
  closed : Bool

def Interval.around (m : Nat) : Interval where
  low := 4 * m - if m = 1 <<< 52 then 1 else 2
  middle := 4 * m
  high := 4 * m + 2
  closed := m % 2 = 0

def Interval.contains (i : Interval) (n d : Nat) : Bool :=
  if i.closed then i.low * d ≤ n && n ≤ i.high * d else i.low * d < n && n < i.high * d

/-- The point nearest to the middle on the grid of `10 ^ place`, the upper one when two are equally near. -/
def Interval.nearest (i : Interval) (e place : Int) : Scaled :=
  let (a, b) := ratio (e - 2) place
  ⟨(2 * (i.middle * a) + b) / (2 * b), place⟩

/-- The neighbour of the middle on the grid of `10 ^ place` that lies in the interval, the nearest point
when both do. -/
def Interval.point? (i : Interval) (e place : Int) : Option Scaled :=
  let (a, b) := ratio (e - 2) place
  let below := i.middle * a / b
  let above := below + 1
  match i.contains (below * b) a, i.contains (above * b) a with
  | true, true => some (i.nearest e place)
  | true, false => some ⟨below, place⟩
  | false, true => some ⟨above, place⟩
  | false, false => none

/-- The first hit on the grids of `10 ^ place`, `10 ^ (place - 1)` and so on; on the last grid tried, the
nearest point in any case. -/
def Interval.search (i : Interval) (e : Int) : Nat → Int → Scaled
  | 0, place => i.nearest e place
  | tries + 1, place => (i.point? e place).getD (i.search e tries (place - 1))

/-- The shortest decimal that reads back as the double `m * 2 ^ e`. Seventeen digits always suffice. -/
def shortest (m : Nat) (e : Int) : Scaled :=
  (Interval.around m).search e 16 (leadingPlace m e)

end Calculator.Decimal
