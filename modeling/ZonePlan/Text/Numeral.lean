/-
Numerals: digits of the radices up to sixteen, the number that a row of digits makes, and unsigned decimal numerals, which
are an optional `+`, then at least one ASCII digit, then nothing. Leading zeros are allowed, a minus sign is not.
-/
namespace ZonePlan.Text

/-- the value of a hexadecimal digit of either case -/
def digitValue? (c : Char) : Option Nat :=
  if c.isDigit then some (c.toNat - '0'.toNat)
  else if 'a' ≤ c ∧ c ≤ 'f' then some (c.toNat - 'a'.toNat + 10)
  else if 'A' ≤ c ∧ c ≤ 'F' then some (c.toNat - 'A'.toNat + 10)
  else none

/-- the number that digits make in a base, the most significant first -/
def ofDigits (base : Nat) (ds : List Nat) : Nat :=
  ds.foldl (fun n d => n * base + d) 0

/-- the value of a run of decimal digits -/
def decimalValue (ds : List Char) : Nat :=
  ofDigits 10 (ds.map fun d => d.toNat - '0'.toNat)

/-- whether a text begins with a minus sign, and what follows its sign if it has one -/
def cutSign : List Char → Bool × List Char
  | '-' :: cs => (true, cs)
  | '+' :: cs => (false, cs)
  | cs => (false, cs)

/-- a numeral without its sign -/
def dropPlus : List Char → List Char
  | '+' :: ds => ds
  | ds => ds

/-- the value of a numeral that is at most `limit` -/
def unsigned? (limit : Nat) (cs : List Char) : Option Nat :=
  let ds := dropPlus cs
  if ds ≠ [] ∧ ds.all Char.isDigit ∧ decimalValue ds ≤ limit then some (decimalValue ds) else none

end ZonePlan.Text
