/-
Reverse zones: the zone that holds the PTR records of a block of addresses.

A block is an address and the number of its leading bits that all addresses of the block share; the other bits of the
address are zero. An IPv4 block that ends between two octets is named by these octets in reverse order under
`in-addr.arpa`. One that ends within an octet has no zone of its own in that scheme; it is named by RFC 4183, with its
last octet and its length as one more label in front of the name of the enclosing block. IPv6 blocks end between two
nibbles and are named by them, in reverse order, under `ip6.arpa`.
-/
import ZonePlan.Address
import ZonePlan.Text.Blank
namespace ZonePlan

/-- a block of addresses whose bits behind the first `length` are zero -/
inductive AddressBlock where
  | v4 (bits : BitVec 32) (length : Nat) (length_le : length ≤ 32)
    (host_zero : bits.toNat % Nat.pow 2 (32 - length) = 0)
  | v6 (bits : BitVec 128) (length : Nat) (length_le : length ≤ 128) (whole_nibbles : length % 4 = 0)
    (host_zero : bits.toNat % Nat.pow 2 (128 - length) = 0)
deriving DecidableEq, Repr

namespace AddressBlock

/-- why a text is no block -/
inductive Problem where
  | noLength
  | invalidLength
  | invalidAddress
  | tooLongV4
  | tooLongV6
  | splitNibble
  | hostBits
deriving DecidableEq, Repr

def Problem.message : Problem → String
  | .noLength => "expected <address>/<prefix-length>"
  | .invalidLength => "invalid prefix length"
  | .invalidAddress => "invalid IP address"
  | .tooLongV4 => "IPv4 prefix length must be at most 32"
  | .tooLongV6 => "IPv6 prefix length must be at most 128"
  | .splitNibble => "IPv6 prefix length must be a multiple of 4"
  | .hostBits => "address has host bits set"

/-- the block of the first `length` bits of an address -/
def of (address : Address) (length : Nat) : Except Problem AddressBlock :=
  match address with
  | .v4 bits =>
    if short : length ≤ 32 then
      if clean : bits.toNat % Nat.pow 2 (32 - length) = 0 then .ok (.v4 bits length short clean) else .error .hostBits
    else .error .tooLongV4
  | .v6 bits =>
    if short : length ≤ 128 then
      if whole : length % 4 = 0 then
        if clean : bits.toNat % Nat.pow 2 (128 - length) = 0 then .ok (.v6 bits length short whole clean)
        else .error .hostBits
      else .error .splitNibble
    else .error .tooLongV6

/-- the block of a text such as `192.0.2.0/24`, which blanks may surround -/
def ofString (s : String) : Except Problem AddressBlock :=
  match Text.cutFirst? '/' (Text.trimChars s.toList) with
  | none => .error .noLength
  | some (address, length) =>
    match Text.unsigned? (Nat.pow 2 32 - 1) length with
    | none => .error .invalidLength
    | some n =>
      match Address.ofChars? address with
      | none => .error .invalidAddress
      | some address => of address n

/-- the octets of an IPv4 address, the most significant first -/
def octets (bits : BitVec 32) : List Nat :=
  (List.range 4).map fun i => bits.toNat / Nat.pow 2 (24 - 8 * i) % Nat.pow 2 8

/-- the nibbles of an IPv6 address, the most significant first -/
def nibbles (bits : BitVec 128) : List Nat :=
  (List.range 32).map fun i => bits.toNat / Nat.pow 2 (124 - 4 * i) % Nat.pow 2 4

/-- numbers as labels in reverse order above a parent name -/
def reversed (base : Nat) (digits : List Nat) (parent : String) : String :=
  Text.joinWith "." ((digits.map fun d => String.ofList (Nat.toDigits base d)).reverse ++ [parent])

/-- whether a block ends within an octet -/
def isClassless : AddressBlock → Bool
  | .v4 _ length _ _ => length % 8 != 0
  | .v6 .. => false

/-- the name of the reverse zone of a block -/
def zoneName (block : AddressBlock) : String :=
  match block with
  | .v4 bits length _ _ =>
    let enclosing := reversed 10 ((octets bits).take (length / 8)) "in-addr.arpa"
    if block.isClassless then s!"{(octets bits).getD (length / 8) 0}-{length}.{enclosing}" else enclosing
  | .v6 bits length _ _ _ => reversed 16 ((nibbles bits).take (length / 4)) "ip6.arpa"

end AddressBlock

/-- the reverse zone of a block, and whether it took RFC 4183 to name it -/
structure ReverseZone where
  name : String
  classless : Bool
deriving DecidableEq, Repr

namespace ReverseZone

/-- the zone of a text such as `192.0.2.0/24` -/
def ofString (s : String) : Except AddressBlock.Problem ReverseZone :=
  (AddressBlock.ofString s).map fun block => ⟨block.zoneName, block.isClassless⟩

/-- what a check tells its reader once RFC 4183 was needed -/
def advisory : String :=
  "WARNING: reverse zones for prefixes that are not on an octet boundary are named using RFC 4183 " ++
    "(e.g. 64-26.2.0.192.in-addr.arpa). Check that your DNS provider expects this format.\n"

end ReverseZone

end ZonePlan
