/-
Binary numbers with 53 significant bits and exponents from -1074 to 971, with signed zeros, infinities and one
not-a-number.

Every operation takes the exact quotient of two natural numbers and rounds it once, to the nearest representable
number, a half to the even neighbour (`Magnitude.ofRatio?`). A quotient too large to be rounded to a finite number has
no magnitude.
-/
namespace ZonePlan.Number

/-- a finite number without sign: `mantissa * 2 ^ exponent` -/
structure Magnitude where
  mantissa : Nat
  exponent : Int
deriving DecidableEq, Repr

/-- a number of the format -/
inductive Binary64 where
  | finite (negative : Bool) (magnitude : Magnitude)
  | infinite (negative : Bool)
  | nan
deriving DecidableEq, Repr

/-- the natural number next to a quotient, the even one of two equally near -/
def roundHalfEven (num den : Nat) : Nat :=
  let q := num / den
  let twice := 2 * (num % den)
  if den < twice ∨ (twice = den ∧ q % 2 = 1) then q + 1 else q

/-- numerator and denominator of `num / den / 2 ^ e` -/
def unscale (num den : Nat) (e : Int) : Nat × Nat :=
  if 0 ≤ e then (num, den * Nat.pow 2 e.toNat) else (num * Nat.pow 2 (-e).toNat, den)

namespace Magnitude

def zero : Magnitude := ⟨0, -1074⟩

def leastExponent : Int := -1074

def greatestExponent : Int := 971

/-- the exponent at which a positive quotient has 53 bits before the point, or the least one -/
def exponentFor (num den : Nat) : Int :=
  let guess : Int := (Nat.log2 num : Int) - Nat.log2 den - 52
  let (n, d) := unscale num den guess
  max (if n / d < Nat.pow 2 52 then guess - 1 else guess) leastExponent

/-- the nearest magnitude to a quotient, none if it is too large -/
def ofRatio? (num den : Nat) : Option Magnitude :=
  if num = 0 then some zero
  else
    let e := exponentFor num den
    let (n, d) := unscale num den e
    let m := roundHalfEven n d
    let x : Magnitude := if m = Nat.pow 2 53 then ⟨Nat.pow 2 52, e + 1⟩ else ⟨m, e⟩
    if greatestExponent < x.exponent then none else some x

/-- numerator and denominator of a magnitude -/
def ratio (x : Magnitude) : Nat × Nat :=
  unscale x.mantissa 1 (-x.exponent)

def times? (x y : Magnitude) : Option Magnitude :=
  ofRatio? (x.ratio.1 * y.ratio.1) (x.ratio.2 * y.ratio.2)

def over? (x y : Magnitude) : Option Magnitude :=
  ofRatio? (x.ratio.1 * y.ratio.2) (x.ratio.2 * y.ratio.1)

end Magnitude

namespace Binary64

/-- a magnitude with a sign; without one, an infinity -/
def signed (negative : Bool) : Option Magnitude → Binary64
  | some x => .finite negative x
  | none => .infinite negative

/-- the number nearest to `digits * 10 ^ exponent`, an infinity if that is too large -/
def ofDecimal (negative : Bool) (digits : Nat) (exponent : Int) : Binary64 :=
  let places : Int := (Nat.toDigits 10 digits).length + exponent
  if digits = 0 ∨ places < -400 then .finite negative .zero
  else if 400 < places then .infinite negative
  else if 0 ≤ exponent then signed negative (Magnitude.ofRatio? (digits * Nat.pow 10 exponent.toNat) 1)
  else signed negative (Magnitude.ofRatio? digits (Nat.pow 10 (-exponent).toNat))

end Binary64

end ZonePlan.Number
