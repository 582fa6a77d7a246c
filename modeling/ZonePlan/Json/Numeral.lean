/-
JSON numbers. A number without fraction and exponent is kept as an integer while it fits into 64 bits; every other one,
and negative zero, is a binary number.

The digits of such a number count as far as they fit into 64 bits. Further digits of the whole part raise the exponent,
further digits of the fraction count for nothing. What they make is rounded, and then multiplied by or divided by a
rounded power of ten, so that the result can miss the nearest binary number. A number that is too large is no number at
all, however, and one that is too small is zero.
-/
import ZonePlan.Json.Fault
import ZonePlan.Text.Numeral
namespace ZonePlan.Json

open ZonePlan.Number

inductive Numeral where
  | natural (n : Nat)
  /-- below zero; `n` is its distance -/
  | negative (n : Nat)
  | real (x : Binary64)
deriving DecidableEq, Repr

namespace Numeral

/-- the greatest number that digits may make -/
def greatest : Nat := Nat.pow 2 64 - 1

/-- the greatest distance of a negative integer -/
def greatestNegative : Nat := Nat.pow 2 63

/-- the digits at the beginning of a text, and what follows them -/
def digits (cs : List Char) : List Nat × List Char :=
  ((cs.takeWhile Char.isDigit).map fun d => d.toNat - '0'.toNat, cs.dropWhile Char.isDigit)

/-- what digits behind `n` make as long as they fit, and the digits left over -/
def absorb (n : Nat) : List Nat → Nat × List Nat
  | [] => (n, [])
  | d :: ds => if n * 10 + d ≤ greatest then absorb (n * 10 + d) ds else (n, d :: ds)

/-- the greatest power of ten with a finite rounded value -/
def greatestPower : Nat := 308

def roundedPower (e : Nat) : Magnitude :=
  (Magnitude.ofRatio? (Nat.pow 10 e) 1).getD .zero

/-- a magnitude divided by a power of ten, in steps of at most the greatest rounded power -/
def divided (x : Magnitude) (e : Nat) : Magnitude :=
  if x.mantissa = 0 then x
  else if e ≤ greatestPower then (x.over? (roundedPower e)).getD .zero
  else divided ((x.over? (roundedPower greatestPower)).getD .zero) (e - greatestPower)
termination_by e
decreasing_by
  have h : 0 < greatestPower := by decide
  omega

/-- `n * 10 ^ e`, unless that is too large -/
def scaled? (n : Nat) (e : Int) : Option Magnitude :=
  match Magnitude.ofRatio? n 1 with
  | none => none
  | some x =>
    if e < 0 then some (divided x (-e).toNat)
    else if e ≤ greatestPower then x.times? (roundedPower e.toNat)
    else if n = 0 then some .zero
    else none

def realOf (negative : Bool) (n : Nat) (e : Int) : Except Fault Numeral :=
  match scaled? n e with
  | some x => .ok (.real (.finite negative x))
  | none => .error .malformed

/-- what to say of a place where a digit should stand -/
def noDigit : List Char → Fault
  | [] => .truncated
  | _ => .malformed

/-- the greatest exponent; a greater one only leaves zero as it is -/
def greatestExponent : Nat := Nat.pow 2 31 - 1

/-- the number `n * 10 ^ e` with an exponent that may follow -/
def withExponent (negative : Bool) (n : Nat) (e : Int) (cs : List Char) : Except Fault (Numeral × List Char) :=
  match cs with
  | [] => (realOf negative n e).map (·, [])
  | c :: rest =>
    if c = 'e' ∨ c = 'E' then
      let (down, rest) := Text.cutSign rest
      match digits rest with
      | ([], rest) => .error (noDigit rest)
      | (ds, rest) =>
        let f := Text.ofDigits 10 ds
        if greatestExponent < f then
          if n ≠ 0 ∧ !down then .error .malformed else .ok (.real (.finite negative .zero), rest)
        else (realOf negative n (if down then e - f else e + f)).map (·, rest)
    else (realOf negative n e).map (·, c :: rest)

/-- whether a text goes on with a fraction or an exponent -/
def isReal : List Char → Bool
  | c :: _ => c == '.' || c == 'e' || c == 'E'
  | [] => false

/-- a number behind its sign, and what follows it -/
def unsigned (negative : Bool) (cs : List Char) : Except Fault (Numeral × List Char) :=
  match digits cs with
  | ([], rest) => .error (noDigit rest)
  | (ds, rest) =>
    if ds.head? = some 0 ∧ 1 < ds.length then .error .malformed
    else
      let (n, left) := absorb 0 ds
      if left = [] ∧ !isReal rest then
        if !negative then .ok (.natural n, rest)
        else if n = 0 ∨ greatestNegative < n then (realOf true n 0).map (·, rest)
        else .ok (.negative n, rest)
      else
        match rest with
        | '.' :: rest =>
          match digits rest with
          | ([], rest) => .error (noDigit rest)
          | (fraction, rest) =>
            let (n, ignored) := absorb n fraction
            withExponent negative n ((left.length : Int) - (fraction.length - ignored.length : Nat)) rest
        | rest => withExponent negative n left.length rest

/-- a number, and what follows it -/
def read : List Char → Except Fault (Numeral × List Char)
  | '-' :: cs => unsigned true cs
  | cs => unsigned false cs

/-- how a number is named in the place of something else -/
def found : Numeral → Found
  | .natural n => .integer n
  | .negative n => .integer (-n)
  | .real x => .real x

/-- what follows a number whose value does not count -/
def skip (cs : List Char) : Except Fault (List Char) :=
  let cs := match cs with
    | '-' :: cs => cs
    | cs => cs
  match digits cs with
  | ([], _) => .error .malformed
  | (ds, rest) =>
    if ds.head? = some 0 ∧ 1 < ds.length then .error .malformed
    else
      let afterFraction : Except Fault (List Char) :=
        match rest with
        | '.' :: rest =>
          match digits rest with
          | ([], _) => .error .malformed
          | (_, rest) => .ok rest
        | rest => .ok rest
      match afterFraction with
      | .error fault => .error fault
      | .ok (c :: rest) =>
        if c = 'e' ∨ c = 'E' then
          match digits (Text.cutSign rest).2 with
          | ([], _) => .error .malformed
          | (_, rest) => .ok rest
        else .ok (c :: rest)
      | .ok [] => .ok []

end Numeral

end ZonePlan.Json
