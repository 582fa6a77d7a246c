/-
The shortest decimal that reads back as a given binary number.

The reals that round to a magnitude form an interval around it, whose ends belong to it iff the mantissa is even. On the
decimal grids of 1, 2, 3, ... significant digits only the two neighbours of the magnitude can be the nearest hit, so
the first grid on which one of them lies in the interval gives the digits (`shortest`); of two hits the nearer counts,
and which of two equally near ones is the caller's choice (`Tie`). Seventeen digits always suffice.
-/
import ZonePlan.Number.Binary64
namespace ZonePlan.Number

/-- which of two neighbours on a grid stands for the number half-way between them -/
inductive Tie where
  | up
  | even
deriving DecidableEq, Repr

/-- `d.ddd * 10 ^ exponent`; the digits neither start nor end with a zero -/
structure Decimal where
  digits : List Char
  exponent : Int
deriving DecidableEq, Repr

/-- whether `a / b < c / d` -/
def ratioLt (x y : Nat × Nat) : Bool :=
  x.1 * y.2 < y.1 * x.2

/-- the reals that round to a magnitude: their bounds, and whether these belong to them -/
structure Cell where
  low : Nat × Nat
  high : Nat × Nat
  closed : Bool

/-- in quarters of the last place, so that the narrow side below a power of two is exact -/
def Cell.of (x : Magnitude) : Cell :=
  let narrow := x.mantissa = Nat.pow 2 52 ∧ Magnitude.leastExponent < x.exponent
  let quarter (n : Nat) : Nat × Nat := unscale n 1 (2 - x.exponent)
  ⟨quarter (4 * x.mantissa - if narrow then 1 else 2), quarter (4 * x.mantissa + 2), x.mantissa % 2 == 0⟩

/-- whether a real rounds to the magnitude of the cell -/
def Cell.contains (cell : Cell) (y : Nat × Nat) : Bool :=
  if cell.closed then !ratioLt y cell.low && !ratioLt cell.high y
  else ratioLt cell.low y && ratioLt y cell.high

/-- numerator and denominator of `c * 10 ^ g` -/
def onGrid (c : Nat) (g : Int) : Nat × Nat :=
  if 0 ≤ g then (c * Nat.pow 10 g.toNat, 1) else (c, Nat.pow 10 (-g).toNat)

/-- the exponent of the first significant digit of a positive quotient -/
def leadingExponent (num den : Nat) : Int :=
  if den ≤ num then (Nat.toDigits 10 (num / den)).length - 1
  else
    let n := (Nat.toDigits 10 (den / num)).length
    if den ≤ num * Nat.pow 10 (n - 1) then -((n : Int) - 1) else -(n : Int)

/-- the digits of a number on the grid `10 ^ g` without final zeros -/
def Decimal.ofGrid (c : Nat) (g : Int) : Decimal :=
  let ds := Nat.toDigits 10 c
  ⟨(ds.reverse.dropWhile (· == '0')).reverse, g + ds.length - 1⟩

/-- the natural number next to a quotient -/
def Tie.round (tie : Tie) (num den : Nat) : Nat :=
  match tie with
  | .even => roundHalfEven num den
  | .up => if den ≤ 2 * (num % den) then num / den + 1 else num / den

/-- the nearest neighbour of a quotient on a grid that lies in the cell -/
def nearestOn (tie : Tie) (cell : Cell) (num den : Nat) (g : Int) : Option Nat :=
  let n := num * Nat.pow 10 (-g).toNat
  let d := den * Nat.pow 10 g.toNat
  let c := n / d
  match cell.contains (onGrid c g), cell.contains (onGrid (c + 1) g) with
  | true, true => some (tie.round n d)
  | true, false => some c
  | false, true => some (c + 1)
  | false, false => none

/-- the first grid with a hit, from `n` digits on and for at most `more` further digits -/
def search (tie : Tie) (cell : Cell) (num den : Nat) (leading : Int) (n : Nat) : Nat → Decimal
  | 0 => .ofGrid (num * Nat.pow 10 (n - 1 - leading).toNat / den) (leading - n + 1)
  | more + 1 =>
    let g := leading - n + 1
    match nearestOn tie cell num den g with
    | some c => .ofGrid c g
    | none => search tie cell num den leading (n + 1) more

/-- the shortest decimal that rounds to a positive magnitude, and of several the nearest -/
def shortest (tie : Tie) (x : Magnitude) : Decimal :=
  let (num, den) := x.ratio
  search tie (Cell.of x) num den (leadingExponent num den) 1 17

end ZonePlan.Number
