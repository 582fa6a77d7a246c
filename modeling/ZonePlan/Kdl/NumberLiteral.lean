/-
Number literals: integers in four radices, and decimals with a fraction or an exponent. Underscores may stand behind the
first digit of a run and mean nothing. No run of digits may exceed the greatest signed 128-bit number, also where only
its rounded value is kept.
-/
import ZonePlan.Kdl.Value
import ZonePlan.Text.Numeral
namespace ZonePlan.Kdl.NumberLiteral

open ZonePlan.Number

/-- the greatest value of a run of digits -/
def greatestRun : Nat := Nat.pow 2 127 - 1

/-- the value of a digit in a radix -/
def digit? (radix : Nat) (c : Char) : Option Nat :=
  (Text.digitValue? c).filter (· < radix)

/-- the digits of a run, and what follows it -/
def run? (radix : Nat) (cs : List Char) : Option (List Nat × List Char) :=
  match cs with
  | [] => none
  | c :: _ => do
    let _ ← digit? radix c
    let digits := (cs.takeWhile fun d => (digit? radix d).isSome || d == '_').filterMap (digit? radix)
    let rest := cs.dropWhile fun d => (digit? radix d).isSome || d == '_'
    if Text.ofDigits radix digits ≤ greatestRun then some (digits, rest) else none

def integer (negative : Bool) (radix : Nat) (digits : List Nat) : Value :=
  let n : Int := Text.ofDigits radix digits
  .integer (if negative then -n else n)

/-- the digits behind a point; none at all without a point -/
def fraction? : List Char → Option (Option (List Nat) × List Char)
  | '.' :: cs => (run? 10 cs).map fun (digits, rest) => (some digits, rest)
  | cs => some (none, cs)

/-- the number behind an exponent mark; none at all without a mark -/
def exponent? (cs : List Char) : Option (Option Int × List Char) :=
  match cs with
  | c :: rest =>
    if c = 'e' ∨ c = 'E' then
      let (negative, rest) := Text.cutSign rest
      (run? 10 rest).map fun (digits, rest) =>
        let n : Int := Text.ofDigits 10 digits
        (some (if negative then -n else n), rest)
    else some (none, cs)
  | [] => some (none, cs)

/-- a decimal number without its sign at the beginning of a text, and what follows it -/
def decimal? (negative : Bool) (cs : List Char) : Option (Value × List Char) := do
  let (whole, rest) ← run? 10 cs
  let (fraction, rest) ← fraction? rest
  let (exponent, rest) ← exponent? rest
  match fraction, exponent with
  | none, none => return (integer negative 10 whole, rest)
  | _, _ =>
    let places := fraction.getD []
    return (.real (.ofDecimal negative (Text.ofDigits 10 (whole ++ places)) (exponent.getD 0 - places.length)), rest)

/-- the radix that a letter of either case behind a zero announces -/
def radix? : Char → Option Nat
  | 'x' | 'X' => some 16
  | 'o' | 'O' => some 8
  | 'b' | 'B' => some 2
  | _ => none

/-- a number at the beginning of a text, and what follows it -/
def number? (cs : List Char) : Option (Value × List Char) :=
  let (negative, unsigned) := Text.cutSign cs
  match unsigned with
  | '0' :: c :: rest =>
    match radix? c with
    | some radix => (run? radix rest).map fun (digits, rest) => (integer negative radix digits, rest)
    | none => decimal? negative unsigned
  | _ => decimal? negative unsigned

/-- whether a text begins with an optional sign and a digit -/
def starts (cs : List Char) : Bool :=
  match (Text.cutSign cs).2 with
  | c :: _ => c.isDigit
  | [] => false

end ZonePlan.Kdl.NumberLiteral
