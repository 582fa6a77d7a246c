/-
What a validation can find, and the words for it.
-/
import ZonePlan.Issue
namespace ZonePlan.Zone

inductive Finding where
  | repeatedRegistrar (name : String)
  | repeatedProvider (name : String)
  | repeatedDomain (zone : String)
  | noRegistrar (zone : String)
  | undefinedRegistrar (zone registrar : String)
  | noProviders (zone : String)
  | undefinedProvider (zone provider : String)
  | unknownKind (zone kind label : String)
  /-- a relative label ends with the name of the zone -/
  | doubledZone (zone label : String)
  | outsideZone (zone label : String)
  | invalidLabel (zone label : String)
  | notV4 (zone label target : String)
  | notV6 (zone label target : String)
  /-- a text of so many bytes does not fit into one string of a TXT record -/
  | longText (zone label : String) (size : Nat)
  | aliasAtApex (zone : String)
  | noPreference (zone label : String)
  | noService (zone label : String)
  /-- a CNAME record is not alone at its label -/
  | sharedAlias (zone label : String)
  | repeatedRecord (zone record : String)
deriving DecidableEq, Repr

/-- the greatest number of bytes in one string of a TXT record -/
def greatestText : Nat := 255

/-- a finding as an issue -/
def Finding.issue : Finding → Issue
  | .repeatedRegistrar name => .error s!"registrar {name} is defined more than once"
  | .repeatedProvider name => .error s!"DNS provider {name} is defined more than once"
  | .repeatedDomain zone => .error s!"domain {zone} is defined more than once"
  | .noRegistrar zone => .error s!"domain {zone} has no registrar"
  | .undefinedRegistrar zone registrar => .error s!"domain {zone} uses undefined registrar {registrar}"
  | .noProviders zone => .warning s!"domain {zone} has no DNS providers; its records will not be published"
  | .undefinedProvider zone provider => .error s!"domain {zone} uses undefined DNS provider {provider}"
  | .unknownKind zone kind label => .error s!"unknown record type {kind} for {label} in {zone}"
  | .doubledZone zone label =>
    .warning (s!"label {label} in {zone} ends with the zone name; " ++
      s!"the zone will be appended again (use {label}. if that is not intended)")
  | .outsideZone zone label => .error s!"record {label} is not in zone {zone}"
  | .invalidLabel zone label => .error s!"invalid label {label} in {zone}"
  | .notV4 zone label target => .error s!"A record {label} in {zone} has invalid IPv4 address {target}"
  | .notV6 zone label target => .error s!"AAAA record {label} in {zone} has invalid IPv6 address {target}"
  | .longText zone label size =>
    .warning s!"TXT record {label} in {zone} is {size} bytes; it will be split into {greatestText}-byte strings"
  | .aliasAtApex zone => .error s!"CNAME record cannot be at the apex of {zone}"
  | .noPreference zone label => .error s!"MX record {label} in {zone} has no preference"
  | .noService zone label => .error s!"SRV record {label} in {zone} is missing priority, weight or port"
  | .sharedAlias zone label => .error s!"CNAME {label} in {zone} cannot coexist with other records"
  | .repeatedRecord zone record => .error s!"duplicate record {record} in {zone}"

end ZonePlan.Zone
