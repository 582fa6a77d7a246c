/-
The plan of a DNS installation: the registrars and DNS providers that are declared, and the domains with their records,
all in the order of their declaration.

A record carries its target as one text; the numbers and the tag of MX, SRV and CAA records are fields of their own once
they have been split off the target, and unset before.
-/
import ZonePlan.SortedMap
namespace ZonePlan

/-- a registrar or a DNS provider under the name by which domains refer to it -/
structure Declaration where
  name : String
  kind : String
deriving DecidableEq, Repr

structure Record where
  kind : String
  /-- relative to the zone, `@` for the zone itself -/
  label : String
  target : String
  /-- in seconds; zero asks for the default -/
  ttl : UInt32 := 0
  preference? : Option UInt16 := none
  priority? : Option UInt16 := none
  weight? : Option UInt16 := none
  port? : Option UInt16 := none
  flag? : Option UInt8 := none
  tag? : Option String := none
  metadata : SortedMap String := .empty
deriving DecidableEq, Inhabited

structure Domain where
  name : String
  registrar : String := ""
  /-- how many name servers each provider contributes; without a number, the provider's default -/
  providers : SortedMap (Option UInt32) := .empty
  records : List Record := []
  metadata : SortedMap String := .empty
deriving DecidableEq, Inhabited

structure Plan where
  registrars : List Declaration := []
  providers : List Declaration := []
  domains : List Domain := []
deriving DecidableEq, Inhabited

/-- kind, label and target in one line -/
def Record.text (r : Record) : String :=
  s!"{r.kind} {r.label} {r.target}"

/-- the records at a label, in order -/
def Domain.recordsAt (d : Domain) (label : String) : List Record :=
  d.records.filter fun r => r.label == label

end ZonePlan
