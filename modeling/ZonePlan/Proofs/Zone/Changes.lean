/-
What normalization changes in a plan, and what it leaves alone (`normalize_changes`).

Declarations stay. A domain changes in its name and its records, and none of these is added, dropped or put elsewhere. A
record of an unknown kind changes in the case of its kind only; another one may also change in its label, in its time to
live if that asks for the default, and in its target if that is a host name (`Changes`). What a host name becomes is said
by a relation (`HostName`); it has no capitals and ends with a point (`IsFinal`).
-/
import ZonePlan.Proofs.Zone.NormalForm

namespace ZonePlan.Zone

/-! ## Host names -/

/-- the full name of a host that is given in small letters without blanks around it: the zone, a name that is full
already, or a name relative to the zone -/
inductive HostName (zone given : String) : String → Prop
  | apex (hat : given = "@") : HostName zone given (zone ++ ".")
  | full (hpoint : given.toList.getLast? = some '.') : HostName zone given given
  | relative (hat : given ≠ "@") (hpoint : given.toList.getLast? ≠ some '.') :
      HostName zone given (given ++ "." ++ zone ++ ".")

/-- a text in small letters with a point at its end -/
structure IsFinal (s : String) : Prop where
  small : ∀ c ∈ s.toList, c.isUpper = false
  point : s.toList.getLast? = some '.'

theorem hostName_absolute (zone given : String) : HostName zone given (absolute zone given) := by
  unfold absolute
  split_ifs with hat hpoint
  · exact .apex hat
  · exact .full hpoint
  · exact .relative hat hpoint

theorem isFinal_absolute (given target : String) : IsFinal (absolute (name given) (clean target)) := by
  refine ⟨fun c hc => ?_, getLast_absolute _ _⟩
  rw [← clean_absolute] at hc
  rw [← Text.toLower_of_mem_lower hc]
  exact Char.isUpper_toLower_eq_false c

/-! ## Records -/

/-- what becomes of a record in a zone -/
structure Changes (zone : String) (r s : Record) : Prop where
  /-- kind, label, target and time to live are all that changes -/
  only : s = { r with kind := s.kind, label := s.label, target := s.target, ttl := s.ttl }
  kind : s.kind = Text.upper r.kind
  letters : Text.lower s.kind = Text.lower r.kind
  unknown : s.kind ∉ knownKinds → s = { r with kind := s.kind }
  ttl : s.kind ∈ knownKinds → s.ttl = if r.ttl = 0 then 300 else r.ttl
  target : s.kind ∉ hostKinds → s.target = r.target
  host : s.kind ∈ hostKinds → HostName zone (Text.lower (Text.trim r.target)) s.target ∧ IsFinal s.target

theorem hostKinds_subset : ∀ kind ∈ hostKinds, kind ∈ knownKinds := by decide

theorem changes_normalizeRecord (given : String) (r : Record) :
    Changes (name given) r (normalizeRecord (name given) r) := by
  have hkind := normalizeRecord_kind (name given) r
  have hletters : Text.lower (normalizeRecord (name given) r).kind = Text.lower r.kind := by
    rw [hkind, Text.lower_upper]
  have htarget := fun hhost : Text.upper r.kind ∉ hostKinds => normalizeRecord_target (name given) hhost
  by_cases hknown : Text.upper r.kind ∈ knownKinds
  · have hnormal := normalizeRecord_of_known (name given) hknown
    refine ⟨by rw [hnormal], hkind, hletters, ?_, ?_, ?_, ?_⟩
    · rw [hkind]
      exact absurd hknown
    · intro _
      rw [hnormal]
      rfl
    · rwa [hkind]
    · rw [hkind]
      intro hhost
      have habsolute : (normalizeRecord (name given) r).target = absolute (name given) (clean r.target) := by
        rw [hnormal]
        exact if_pos (List.contains_iff_mem.2 hhost)
      rw [habsolute]
      exact ⟨hostName_absolute _ _, isFinal_absolute given r.target⟩
  · have hnormal := normalizeRecord_of_unknown (name given) hknown
    refine ⟨by rw [hnormal], hkind, hletters, ?_, ?_, ?_, ?_⟩
    · intro _
      rw [hnormal]
    · rw [hkind]
      exact fun h => absurd h hknown
    · rwa [hkind]
    · rw [hkind]
      exact fun hhost => absurd (hostKinds_subset _ hhost) hknown

/-! ## Domains and plans -/

/-- what becomes of a domain -/
structure DomainChanges (d e : Domain) : Prop where
  /-- name and records are all that changes -/
  only : e = { d with name := e.name, records := e.records }
  name : e.name = Zone.name d.name
  records : List.Forall₂ (Changes e.name) d.records e.records

theorem changes_normalizeDomain (d : Domain) : DomainChanges d (normalizeDomain d) := by
  refine ⟨rfl, rfl, ?_⟩
  rw [normalizeDomain_records, List.forall₂_map_right_iff, List.forall₂_same]
  exact fun r _ => changes_normalizeRecord d.name r

/-- **What normalization changes**: no declaration, and of each domain its name and its records, in their order. A record
of an unknown kind keeps everything but the case of its kind. A record of a known kind keeps its metadata and all fields
that are split off its target; its time to live changes only if it asks for the default, and its target only if it is the
name of a host, which becomes a full name in small letters. -/
theorem normalize_changes (p : Plan) :
    let q := (validate p).1
    q.registrars = p.registrars ∧ q.providers = p.providers ∧ List.Forall₂ DomainChanges p.domains q.domains := by
  intro q
  refine ⟨rfl, rfl, ?_⟩
  rw [show q.domains = p.domains.map normalizeDomain from rfl, List.forall₂_map_right_iff, List.forall₂_same]
  exact fun d _ => changes_normalizeDomain d

/-- a host relative to its zone, in capitals, and no time to live -/
example :
    let mail : Record := { kind := "mx", label := "@", target := " MAIL ", preference? := some 10 }
    (normalize { domains := [{ name := " A. ", records := [mail] }] }).domains =
      [{ name := "a", records := [{ mail with kind := "MX", target := "mail.a.", ttl := 300 }] }] := by
  decide +kernel

end ZonePlan.Zone
