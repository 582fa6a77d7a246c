/-
Splitting the fields of MX, SRV and CAA records off their targets.

A source writes them in front of the target, separated by blanks. A record is split once: afterwards its preference, port
or tag is set, and it is left alone. The first record that cannot be split ends the matter; what was split before stays
split, also the first numbers of that record.
-/
import ZonePlan.Fault
import ZonePlan.Plan
import ZonePlan.Text.AsciiCase
import ZonePlan.Text.Blank
import ZonePlan.Text.Cut
import ZonePlan.Text.Numeral
namespace ZonePlan

namespace Record

/-- a record, and why it could not be split any further if it could not -/
abbrev Split := Record × Option Fault

/-- a target that does not have the fields of its record's kind -/
def malformed (zone : String) (r : Record) (expected : String) : Fault :=
  .invalid s!"{r.kind} record '{r.label}' in domain '{zone}'" s!"target '{r.target}' does not match \"{expected}\""

/-- a field that is no number of its range -/
def badNumber (zone : String) (r : Record) (field raw : String) : Fault :=
  .invalid s!"{field} of {r.kind} record '{r.label}' in domain '{zone}'" s!"'{raw}' is not a valid number"

/-- the record with a number put into it, which is read from `raw`, and then split further -/
def withNumber (zone : String) (r : Record) (limit : Nat) (field raw : String) (next : Nat → Split) : Split :=
  match Text.unsigned? limit raw.toList with
  | some n => next n
  | none => (r, some (badNumber zone r field raw))

def splitMX (zone : String) (r : Record) : Split :=
  match Text.words r.target with
  | [preference, host] =>
    r.withNumber zone 0xFFFF "preference" preference fun n =>
      ({ r with preference? := some (.ofNat n), target := host }, none)
  | _ => (r, some (malformed zone r "<preference> <host>"))

def splitSRV (zone : String) (r : Record) : Split :=
  match Text.words r.target with
  | [priority, weight, port, host] =>
    r.withNumber zone 0xFFFF "priority" priority fun n =>
      let r := { r with priority? := some (.ofNat n) }
      r.withNumber zone 0xFFFF "weight" weight fun n =>
        let r := { r with weight? := some (.ofNat n) }
        r.withNumber zone 0xFFFF "port" port fun n =>
          ({ r with port? := some (.ofNat n), target := host }, none)
  | _ => (r, some (malformed zone r "<priority> <weight> <port> <host>"))

/-- a text without the double quotes at its ends -/
def trimQuotes (s : String) : String :=
  String.ofList (Text.dropTrailing (· == '"') (s.toList.dropWhile (· == '"')))

def splitCAA (zone : String) (r : Record) : Split :=
  match Text.words r.target with
  | flag :: tag :: first :: rest =>
    r.withNumber zone 0xFF "flag" flag fun n =>
      ({ r with
        flag? := some (.ofNat n)
        tag? := some tag
        target := trimQuotes (Text.joinWith " " (first :: rest)) }, none)
  | _ => (r, some (malformed zone r "<flag> <tag> <value>"))

/-- a record with its fields split off its target -/
def split (zone : String) (r : Record) : Split :=
  if Text.upper r.kind = "MX" then if r.preference?.isSome then (r, none) else r.splitMX zone
  else if Text.upper r.kind = "SRV" then if r.port?.isSome then (r, none) else r.splitSRV zone
  else if Text.upper r.kind = "CAA" then if r.tag?.isSome then (r, none) else r.splitCAA zone
  else (r, none)

/-- records with their fields split off, up to the first that cannot be split -/
def splitAll (zone : String) : List Record → List Record × Option Fault
  | [] => ([], none)
  | r :: rs =>
    match r.split zone with
    | (r, some fault) => (r :: rs, some fault)
    | (r, none) =>
      let (rs, fault) := splitAll zone rs
      (r :: rs, fault)

end Record

/-- domains with the fields of their records split off, up to the first record that cannot be split -/
def Domain.splitAll : List Domain → List Domain × Option Fault
  | [] => ([], none)
  | d :: ds =>
    match Record.splitAll d.name d.records with
    | (records, some fault) => ({ d with records } :: ds, some fault)
    | (records, none) =>
      let (ds, fault) := splitAll ds
      ({ d with records } :: ds, fault)

end ZonePlan
