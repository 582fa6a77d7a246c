/-
How a binary number is written in decimal: with a point between its digits, or with one digit before the point and an
exponent. A layout says which exponents are written the first way, what a tie between two shortest decimals gives, and
what stands for the values that are no finite numbers. A finite number always shows either a point or an exponent.
-/
import ZonePlan.Number.Shortest
namespace ZonePlan.Number

structure Layout where
  /-- the least exponent of the first digit that is written with a point alone -/
  leastPlain : Int
  /-- the greatest such exponent -/
  greatestPlain : Int
  /-- the sign of a positive exponent -/
  exponentPlus : String
  /-- the choice between two equally short and near decimals -/
  tie : Tie
  infinity : String
  negativeInfinity : String
  notNumber : String
deriving DecidableEq, Repr

namespace Layout

def zeros (n : Nat) : List Char := List.replicate n '0'

/-- digits with a point among them -/
def plain (d : Decimal) : List Char :=
  if 0 ≤ d.exponent then
    let whole := d.exponent.toNat + 1
    let fraction := d.digits.drop whole
    d.digits.take whole ++ zeros (whole - d.digits.length) ++ '.' :: if fraction.isEmpty then ['0'] else fraction
  else '0' :: '.' :: zeros ((-d.exponent).toNat - 1) ++ d.digits

/-- one digit, the others behind a point, an exponent -/
def scientific (layout : Layout) (d : Decimal) : List Char :=
  let mantissa := match d.digits with
    | first :: second :: rest => first :: '.' :: second :: rest
    | short => short
  let sign := if d.exponent < 0 then "-" else layout.exponentPlus
  mantissa ++ 'e' :: sign.toList ++ Nat.toDigits 10 d.exponent.natAbs

def magnitude (layout : Layout) (x : Magnitude) : String :=
  if x.mantissa = 0 then "0.0"
  else
    let d := shortest layout.tie x
    if layout.leastPlain ≤ d.exponent ∧ d.exponent ≤ layout.greatestPlain then String.ofList (plain d)
    else String.ofList (layout.scientific d)

/-- a number with its sign -/
def text (layout : Layout) : Binary64 → String
  | .finite negative x => (if negative then "-" else "") ++ layout.magnitude x
  | .infinite negative => if negative then layout.negativeInfinity else layout.infinity
  | .nan => layout.notNumber

end Layout

end ZonePlan.Number
