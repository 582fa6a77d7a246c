/-
IP addresses and their written form.

An IPv4 address is four decimal octets without leading zeros. An IPv6 address is eight groups of one to four hexadecimal
digits; one `::` may stand for one or more groups of zeros, and the last two groups may be written as an IPv4 address.
Nothing may surround an address, and no zone or port belongs to it.
-/
import ZonePlan.Text.Cut
import ZonePlan.Text.Numeral
namespace ZonePlan

inductive Address where
  | v4 (bits : BitVec 32)
  | v6 (bits : BitVec 128)
deriving DecidableEq, Repr

namespace Address

/-- the value of a decimal octet -/
def octet? (cs : List Char) : Option Nat :=
  if cs = [] ∨ 3 < cs.length ∨ !cs.all Char.isDigit then none
  else if cs.head? = some '0' ∧ 1 < cs.length then none
  else if Text.decimalValue cs ≤ 255 then some (Text.decimalValue cs) else none

/-- an IPv4 address -/
def v4? (cs : List Char) : Option (BitVec 32) := do
  let octets ← (Text.cutAll '.' cs).mapM octet?
  if octets.length = 4 then some (.ofNat 32 (Text.ofDigits 256 octets)) else none

/-- the value of a group -/
def group? (cs : List Char) : Option Nat :=
  if cs = [] ∨ 4 < cs.length then none else (cs.mapM Text.digitValue?).map (Text.ofDigits 16)

/-- the groups of an address or of one side of `::`; an empty side has none -/
def groups? (cs : List Char) : Option (List Nat) :=
  if cs = [] then some [] else (Text.cutAll ':' cs).mapM group?

/-- the groups at the end of an address, which may close with an IPv4 address -/
def closingGroups? (cs : List Char) : Option (List Nat) :=
  let pieces := Text.cutAll ':' cs
  match (v4? (pieces.getLastD [])).map BitVec.toNat with
  | some n => (pieces.dropLast.mapM group?).map (· ++ [n / Nat.pow 2 16, n % Nat.pow 2 16])
  | none => groups? cs

/-- what stands before and after the first `::` -/
def cutGap? : List Char → Option (List Char × List Char)
  | [] => none
  | [_] => none
  | ':' :: ':' :: cs => some ([], cs)
  | c :: cs => (cutGap? cs).map fun (before, after) => (c :: before, after)

/-- an IPv6 address -/
def v6? (cs : List Char) : Option (BitVec 128) := do
  let groups ← match cutGap? cs with
    | some (before, after) => do
      let front ← groups? before
      let back ← closingGroups? after
      if front.length + back.length ≤ 7 then
        some (front ++ List.replicate (8 - front.length - back.length) 0 ++ back)
      else none
    | none => do
      let groups ← closingGroups? cs
      if groups.length = 8 then some groups else none
  some (.ofNat 128 (Text.ofDigits (Nat.pow 2 16) groups))

/-- whether a text is an IPv4 address -/
def isV4 (s : String) : Bool := (v4? s.toList).isSome

/-- whether a text is an IPv6 address -/
def isV6 (s : String) : Bool := (v6? s.toList).isSome

/-- an address of either kind -/
def ofChars? (cs : List Char) : Option Address :=
  match v4? cs with
  | some bits => some (.v4 bits)
  | none => (v6? cs).map .v6

end Address

end ZonePlan
