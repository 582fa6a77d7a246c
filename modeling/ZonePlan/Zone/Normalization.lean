/-
The normal form of a plan, and what a validation finds on the way to it.

Zone names, kinds, labels and host names are brought into one form each (`Zone.normalize`); nothing is added, dropped or
put elsewhere. A record of an unknown kind only has the name of its kind made capital. The findings (`findings`) are in the
order of the plan: registrars, providers, then each domain with its references, its records and their conflicts.
-/
import ZonePlan.Address
import ZonePlan.Plan
import ZonePlan.Zone.Finding
import ZonePlan.Zone.Label
namespace ZonePlan.Zone

/-- the kinds of records that are known -/
def knownKinds : List String := ["A", "AAAA", "ALIAS", "CAA", "CNAME", "MX", "NS", "PTR", "SRV", "TXT"]

/-- the kinds of records whose target is the name of a host -/
def hostKinds : List String := ["ALIAS", "CNAME", "MX", "NS", "PTR", "SRV"]

/-- the time to live of a record that asks for the default -/
def defaultTtl : UInt32 := 300

/-! ## Records -/

/-- a record of a zone in normal form -/
def normalizeRecord (zone : String) (r : Record) : Record :=
  let kind := Text.upper r.kind
  if knownKinds.contains kind then
    { r with
      kind
      label := (place zone (clean r.label)).label
      target := if hostKinds.contains kind then absolute zone (clean r.target) else r.target
      ttl := if r.ttl = 0 then defaultTtl else r.ttl }
  else { r with kind }

/-- what is wrong with a label in its final form -/
def invalidLabels (zone label : String) : List Finding :=
  if label ≠ "@" ∧ !isLabel label then [.invalidLabel zone label] else []

/-- what is found at a label -/
def labelFindings (zone : String) (placement : Placement) : List Finding :=
  match placement with
  | .doubled label => .doubledZone zone label :: invalidLabels zone label
  | .outside label => [.outsideZone zone label]
  | placement => invalidLabels zone placement.label

/-- what is found at a target as it is given, by the kind of its record -/
def targetFindings (zone kind label target : String) : List Finding :=
  if kind = "A" ∧ !Address.isV4 target then [.notV4 zone label target]
  else if kind = "AAAA" ∧ !Address.isV6 target then [.notV6 zone label target]
  else if kind = "TXT" ∧ greatestText < target.utf8ByteSize then [.longText zone label target.utf8ByteSize]
  else []

/-- what is found at the place and the fields of a record in normal form, by its kind -/
def fieldFindings (zone : String) (r : Record) : List Finding :=
  if r.kind = "CNAME" ∧ r.label = "@" then [.aliasAtApex zone]
  else if r.kind = "MX" ∧ r.preference?.isNone then [.noPreference zone r.label]
  else if r.kind = "SRV" ∧ (r.priority?.isNone ∨ r.weight?.isNone ∨ r.port?.isNone) then [.noService zone r.label]
  else []

/-- what is found at a record -/
def recordFindings (zone : String) (r : Record) : List Finding :=
  let s := normalizeRecord zone r
  if knownKinds.contains s.kind then
    labelFindings zone (place zone (clean r.label)) ++ targetFindings zone s.kind s.label r.target ++
      fieldFindings zone s
  else [.unknownKind zone s.kind r.label]

/-! ## Conflicts -/

/-- what tells two records apart once their fields have been split off their targets -/
structure Identity where
  kind : String
  label : String
  target : String
  preference? : Option UInt16
  service : List (Option UInt16)
  flag? : Option UInt8
  tag? : Option String
deriving DecidableEq

def identity (r : Record) : Identity where
  kind := r.kind
  label := r.label
  target := r.target
  preference? := r.preference?
  service := [r.priority?, r.weight?, r.port?]
  flag? := r.flag?
  tag? := r.tag?

/-- the conflicts of the records behind others, of which the reported labels and all identities are known -/
def conflictsAfter (d : Domain) (reported : List String) (seen : List Identity) : List Record → List Finding
  | [] => []
  | r :: rs =>
    let shared := r.kind = "CNAME" ∧ 1 < (d.recordsAt r.label).length ∧ r.label ∉ reported
    (if shared then [.sharedAlias d.name r.label] else []) ++
      (if identity r ∈ seen then [.repeatedRecord d.name r.text] else []) ++
      conflictsAfter d (if shared then r.label :: reported else reported) (identity r :: seen) rs

/-- a CNAME record must be alone at its label, and no record may appear twice -/
def conflicts (d : Domain) : List Finding :=
  conflictsAfter d [] [] d.records

/-! ## Domains and plans -/

def normalizeDomain (d : Domain) : Domain :=
  { d with name := name d.name, records := d.records.map (normalizeRecord (name d.name)) }

def normalize (p : Plan) : Plan :=
  { p with domains := p.domains.map normalizeDomain }

/-- what is found at a domain's registrar -/
def registrarFindings (p : Plan) (d : Domain) : List Finding :=
  if d.registrar = "" then [.noRegistrar d.name]
  else if (p.registrars.map Declaration.name).contains d.registrar then []
  else [.undefinedRegistrar d.name d.registrar]

/-- what is found at a domain's providers -/
def providerFindings (p : Plan) (d : Domain) : List Finding :=
  (if d.providers.isEmpty then [.noProviders d.name] else []) ++
    (d.providers.keys.filter fun key => !(p.providers.map Declaration.name).contains key).map
      (.undefinedProvider d.name)

/-- what is found at a domain alone -/
def domainFindings (p : Plan) (d : Domain) : List Finding :=
  let normal := normalizeDomain d
  registrarFindings p normal ++ providerFindings p normal ++ d.records.flatMap (recordFindings normal.name) ++
    conflicts normal

/-- the names of a list that stand in it before, or are among those seen already -/
def repeatedNames (seen : List String) : List String → List String
  | [] => []
  | n :: ns => if n ∈ seen then n :: repeatedNames seen ns else repeatedNames (n :: seen) ns

/-- what is found at domains behind others whose names are known -/
def domainsFindings (p : Plan) (seen : List String) : List Domain → List Finding
  | [] => []
  | d :: ds =>
    let zone := name d.name
    (if zone ∈ seen then [.repeatedDomain zone] else []) ++ domainFindings p d ++ domainsFindings p (zone :: seen) ds

/-- all that is found in a plan -/
def findings (p : Plan) : List Finding :=
  (repeatedNames [] (p.registrars.map Declaration.name)).map .repeatedRegistrar ++
    (repeatedNames [] (p.providers.map Declaration.name)).map .repeatedProvider ++ domainsFindings p [] p.domains

/-- the normal form of a plan and the issues of its validation -/
def validate (p : Plan) : Plan × List Issue :=
  (normalize p, (findings p).map Finding.issue)

end ZonePlan.Zone
