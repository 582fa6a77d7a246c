/-
Records with all the fields of their kind, and no others.

A record that comes from a document has nothing but its target (`Record.Unsplit`). If the fields can be split off, it is
complete (`Record.Complete`): it has a preference exactly if it is an MX record, all three numbers of a service exactly
if it is an SRV record, and flag and tag exactly if it is a CAA record. The normal form of a complete record is complete
again, so no validation of a plan from a document misses a field (`loaded_complete`).

Kinds are compared in capitals when records are split, and a document has its kinds made capital before. The invariant
therefore says so of the kind, too: `mx` would be split, but it is no kind that the validation compares with.
-/
import ZonePlan.Proofs.Evaluation.Success
import ZonePlan.Proofs.Zone.Occasions
import ZonePlan.RecordFields

namespace ZonePlan

namespace Record

/-! ## Splitting one record -/

section

variable {zone : String} {r s : Record}

theorem withNumber_eq_none {limit : Nat} {field raw : String} {next : Nat → Split} :
    r.withNumber zone limit field raw next = (s, none) ↔
      ∃ n, Text.unsigned? limit raw.toList = some n ∧ next n = (s, none) := by
  unfold withNumber
  cases Text.unsigned? limit raw.toList with
  | none => simp
  | some n => simp

/-- an MX record is split exactly if its target is a number and a host -/
theorem splitMX_eq_none :
    r.splitMX zone = (s, none) ↔
      ∃ preference host n, Text.words r.target = [preference, host] ∧
        Text.unsigned? 0xFFFF preference.toList = some n ∧
        { r with preference? := some (.ofNat n), target := host } = s := by
  unfold splitMX
  split
  · next preference host hwords =>
    simp only [withNumber_eq_none, hwords, Prod.mk.injEq, and_true]
    constructor
    · rintro ⟨n, hn, hs⟩
      exact ⟨preference, host, n, rfl, hn, hs⟩
    · rintro ⟨_, _, n, hpair, hn, hs⟩
      cases hpair
      exact ⟨n, hn, hs⟩
  · next hwords =>
    refine iff_of_false (by simp) ?_
    rintro ⟨preference, host, -, hpair, -⟩
    exact hwords preference host hpair

/-- an SRV record is split exactly if its target is three numbers and a host -/
theorem splitSRV_eq_none :
    r.splitSRV zone = (s, none) ↔
      ∃ priority weight port host n₁ n₂ n₃, Text.words r.target = [priority, weight, port, host] ∧
        Text.unsigned? 0xFFFF priority.toList = some n₁ ∧ Text.unsigned? 0xFFFF weight.toList = some n₂ ∧
        Text.unsigned? 0xFFFF port.toList = some n₃ ∧
        { r with
          priority? := some (.ofNat n₁)
          weight? := some (.ofNat n₂)
          port? := some (.ofNat n₃)
          target := host } = s := by
  unfold splitSRV
  split
  · next priority weight port host hwords =>
    simp only [withNumber_eq_none, hwords, Prod.mk.injEq, and_true]
    constructor
    · rintro ⟨n₁, h₁, n₂, h₂, n₃, h₃, hs⟩
      exact ⟨priority, weight, port, host, n₁, n₂, n₃, rfl, h₁, h₂, h₃, hs⟩
    · rintro ⟨_, _, _, _, n₁, n₂, n₃, hquad, h₁, h₂, h₃, hs⟩
      cases hquad
      exact ⟨n₁, h₁, n₂, h₂, n₃, h₃, hs⟩
  · next hwords =>
    refine iff_of_false (by simp) ?_
    rintro ⟨priority, weight, port, host, -, -, -, hquad, -⟩
    exact hwords priority weight port host hquad

/-- a CAA record is split exactly if its target is a number and at least two more words -/
theorem splitCAA_eq_none :
    r.splitCAA zone = (s, none) ↔
      ∃ flag tag first rest n, Text.words r.target = flag :: tag :: first :: rest ∧
        Text.unsigned? 0xFF flag.toList = some n ∧
        { r with
          flag? := some (.ofNat n)
          tag? := some tag
          target := trimQuotes (Text.joinWith " " (first :: rest)) } = s := by
  unfold splitCAA
  split
  · next flag tag first rest hwords =>
    simp only [withNumber_eq_none, hwords, Prod.mk.injEq, and_true]
    constructor
    · rintro ⟨n, hn, hs⟩
      exact ⟨flag, tag, first, rest, n, rfl, hn, hs⟩
    · rintro ⟨_, _, _, _, n, hwords', hn, hs⟩
      cases hwords'
      exact ⟨n, hn, hs⟩
  · next hwords =>
    refine iff_of_false (by simp) ?_
    rintro ⟨flag, tag, first, rest, -, hwords', -⟩
    exact hwords flag tag first rest hwords'

end

/-! ## Records before and after -/

/-- a record of which nothing has been split off -/
structure Unsplit (r : Record) : Prop where
  capital : Text.upper r.kind = r.kind
  preference : r.preference? = none
  priority : r.priority? = none
  weight : r.weight? = none
  port : r.port? = none
  flag : r.flag? = none
  tag : r.tag? = none

/-- a record with all the fields of its kind and no others -/
structure Complete (r : Record) : Prop where
  capital : Text.upper r.kind = r.kind
  preference : r.preference?.isSome = true ↔ r.kind = "MX"
  priority : r.priority?.isSome = true ↔ r.kind = "SRV"
  weight : r.weight?.isSome = true ↔ r.kind = "SRV"
  port : r.port?.isSome = true ↔ r.kind = "SRV"
  flag : r.flag?.isSome = true ↔ r.kind = "CAA"
  tag : r.tag?.isSome = true ↔ r.kind = "CAA"

variable {zone : String} {r s : Record}

/-- an unsplit record is split by its kind -/
theorem split_of_unsplit (h : r.Unsplit) :
    r.split zone =
      if r.kind = "MX" then r.splitMX zone
      else if r.kind = "SRV" then r.splitSRV zone
      else if r.kind = "CAA" then r.splitCAA zone
      else (r, none) := by
  unfold split
  simp only [h.capital, h.preference, h.port, h.tag, Option.isSome_none, Bool.false_eq_true, if_false]

/-- an unsplit record is complete once it is split -/
theorem complete_of_split (h : r.Unsplit) (hs : r.split zone = (s, none)) : s.Complete := by
  obtain ⟨hcapital, hpreference, hpriority, hweight, hport, hflag, htag⟩ := h
  rw [split_of_unsplit ⟨hcapital, hpreference, hpriority, hweight, hport, hflag, htag⟩] at hs
  by_cases hmx : r.kind = "MX"
  · rw [if_pos hmx] at hs
    obtain ⟨preference, host, n, -, -, rfl⟩ := splitMX_eq_none.1 hs
    constructor <;> simp [hmx, hpriority, hweight, hport, hflag, htag, hmx ▸ hcapital]
  rw [if_neg hmx] at hs
  by_cases hsrv : r.kind = "SRV"
  · rw [if_pos hsrv] at hs
    obtain ⟨priority, weight, port, host, n₁, n₂, n₃, -, -, -, -, rfl⟩ := splitSRV_eq_none.1 hs
    constructor <;> simp [hsrv, hpreference, hflag, htag, hsrv ▸ hcapital]
  rw [if_neg hsrv] at hs
  by_cases hcaa : r.kind = "CAA"
  · rw [if_pos hcaa] at hs
    obtain ⟨flag, tag, first, rest, n, -, -, rfl⟩ := splitCAA_eq_none.1 hs
    constructor <;> simp [hcaa, hpreference, hpriority, hweight, hport, hcaa ▸ hcapital]
  · rw [if_neg hcaa] at hs
    obtain rfl := (Prod.mk.inj hs).1
    constructor <;> simp [hmx, hsrv, hcaa, hcapital, hpreference, hpriority, hweight, hport, hflag, htag]

end Record

/-! ## Splitting many -/

section

variable {α : Type} {step : α → α × Option Fault}

/-- what a step makes of the elements of a list, up to the first that is at fault -/
def untilFault (step : α → α × Option Fault) : List α → List α × Option Fault
  | [] => ([], none)
  | x :: xs =>
    match step x with
    | (y, some fault) => (y :: xs, some fault)
    | (y, none) =>
      let (ys, fault) := untilFault step xs
      (y :: ys, fault)

/-- without a fault, a step has been made of each element -/
theorem untilFault_eq_none {xs ys : List α} :
    untilFault step xs = (ys, none) ↔ List.Forall₂ (fun x y => step x = (y, none)) xs ys := by
  induction xs generalizing ys with
  | nil => cases ys <;> simp [untilFault]
  | cons x xs ih =>
    rw [untilFault, List.forall₂_cons_left_iff]
    rcases hstep : step x with ⟨y, _ | fault⟩
    · rcases hrest : untilFault step xs with ⟨zs, _ | fault⟩
      · simp only [Prod.mk.injEq, and_true, ← ih, hrest]
        constructor
        · rintro rfl
          exact ⟨y, zs, rfl, rfl, rfl⟩
        · rintro ⟨_, _, rfl, rfl, rfl⟩
          rfl
      · simp [← ih, hrest]
    · simp

end

namespace Record

theorem splitAll_eq (zone : String) (rs : List Record) : splitAll zone rs = untilFault (split zone) rs := by
  induction rs with
  | nil => rfl
  | cons r rs ih =>
    rw [splitAll, untilFault]
    rcases r.split zone with ⟨s, _ | fault⟩
    · simp only [ih]
    · rfl

/-- without a fault, each record has been split -/
theorem splitAll_eq_none {zone : String} {rs ss : List Record} :
    splitAll zone rs = (ss, none) ↔ List.Forall₂ (fun r s => r.split zone = (s, none)) rs ss := by
  rw [splitAll_eq, untilFault_eq_none]

end Record

namespace Domain

/-- a domain with the fields of its records split off, up to the first record that cannot be split -/
def splitRecords (d : Domain) : Domain × Option Fault :=
  let (records, fault) := Record.splitAll d.name d.records
  ({ d with records }, fault)

theorem splitAll_eq (ds : List Domain) : splitAll ds = untilFault splitRecords ds := by
  induction ds with
  | nil => rfl
  | cons d ds ih =>
    rw [splitAll, untilFault, splitRecords]
    rcases Record.splitAll d.name d.records with ⟨rs, _ | fault⟩
    · simp only [ih]
    · rfl

/-- without a fault, the records of each domain have been split, and nothing else is changed -/
theorem splitAll_eq_none {ds es : List Domain} :
    splitAll ds = (es, none) ↔
      List.Forall₂ (fun d e => ∃ rs, Record.splitAll d.name d.records = (rs, none) ∧ { d with records := rs } = e)
        ds es := by
  have hdomain : ∀ d e : Domain, splitRecords d = (e, none) ↔
      ∃ rs, Record.splitAll d.name d.records = (rs, none) ∧ { d with records := rs } = e := by
    intro d e
    rw [splitRecords]
    rcases Record.splitAll d.name d.records with ⟨rs, _ | fault⟩
    · simp
    · simp
  simp only [splitAll_eq, untilFault_eq_none, hdomain]

end Domain

namespace Setting

variable {setting : Setting}

/-- nothing has been split off a record that has just been evaluated -/
theorem unsplit_of_record {zone : String} {node : Kdl.Node} {r : Record}
    (h : (setting.record zone node).result = .ok r) : r.Unsplit := by
  obtain ⟨label, target, metadata, -, rfl⟩ := record_eq_ok h
  exact ⟨Text.upper_upper node.name, rfl, rfl, rfl, rfl, rfl, rfl⟩

theorem unsplit_of_plan {document : Kdl.Document} {p : Plan} (h : (setting.plan document).result = .ok p) :
    ∀ d ∈ p.domains, ∀ r ∈ d.records, r.Unsplit := by
  intro d hd r hr
  obtain ⟨-, -, hdomains⟩ := plan_eq_ok h
  obtain ⟨node, -, hdomain⟩ := exists_of_forall₂ hdomains hd
  obtain ⟨child, -, hrecord⟩ := exists_of_forall₂ (domain_eq_ok hdomain) hr
  exact unsplit_of_record hrecord

end Setting

/-- what can be split off the records of domains makes them complete -/
theorem Domain.complete_of_splitAll {ds es : List Domain} (h : ∀ d ∈ ds, ∀ r ∈ d.records, r.Unsplit)
    (hes : splitAll ds = (es, none)) : ∀ e ∈ es, ∀ s ∈ e.records, s.Complete := by
  intro e he s hs
  obtain ⟨d, hd, rs, hrs, rfl⟩ := exists_of_forall₂ (splitAll_eq_none.1 hes) he
  obtain ⟨r, hr, hsplit⟩ := exists_of_forall₂ (Record.splitAll_eq_none.1 hrs) hs
  exact Record.complete_of_split (h d hd r hr) hsplit

/-! ## Validating complete records -/

namespace Zone

/-- the normal form of a complete record is complete -/
theorem complete_normalizeRecord (zone : String) {r : Record} (h : r.Complete) :
    (normalizeRecord zone r).Complete := by
  obtain ⟨hcapital, hpreference, hpriority, hweight, hport, hflag, htag⟩ := h
  by_cases hknown : Text.upper r.kind ∈ knownKinds
  · rw [normalizeRecord_of_known zone hknown, hcapital]
    exact ⟨hcapital, hpreference, hpriority, hweight, hport, hflag, htag⟩
  · rw [normalizeRecord_of_unknown zone hknown, hcapital]
    exact ⟨hcapital, hpreference, hpriority, hweight, hport, hflag, htag⟩

/-- whether a finding is about a field that is missing -/
def Finding.isMissingField : Finding → Bool
  | .noPreference .. | .noService .. => true
  | _ => false

/-- the words for a missing field are used for nothing else -/
theorem isMissingField_of_issue {f g : Finding} (h : f.issue = g.issue) (hg : g.isMissingField = true) :
    f.isMissingField = true := by
  cases g <;> cases hg <;> cases f <;> simp [Finding.issue, Finding.isMissingField] at h ⊢
  all_goals simpa [toString] using congrArg (fun s => s.toList.head?) h

/-- no field is missing by what is found -/
def NothingMissing (fs : List Finding) : Prop := ∀ f ∈ fs, f.isMissingField = false

@[simp] theorem nothingMissing_nil : NothingMissing [] := nofun

@[simp] theorem nothingMissing_cons (f : Finding) (fs : List Finding) :
    NothingMissing (f :: fs) ↔ f.isMissingField = false ∧ NothingMissing fs :=
  List.forall_mem_cons

@[simp] theorem nothingMissing_append (fs gs : List Finding) :
    NothingMissing (fs ++ gs) ↔ NothingMissing fs ∧ NothingMissing gs :=
  List.forall_mem_append

attribute [local simp] Finding.isMissingField

theorem nothingMissing_labelFindings (zone : String) (placement : Placement) :
    NothingMissing (labelFindings zone placement) := by
  have hlabel : ∀ label, NothingMissing (invalidLabels zone label) := by
    intro label
    unfold invalidLabels
    split_ifs <;> simp
  cases placement <;> simp [labelFindings, hlabel]

theorem nothingMissing_targetFindings (zone kind label target : String) :
    NothingMissing (targetFindings zone kind label target) := by
  unfold targetFindings
  split_ifs <;> simp

/-- a complete record misses no field -/
theorem nothingMissing_fieldFindings (zone : String) {r : Record} (h : r.Complete) :
    NothingMissing (fieldFindings zone r) := by
  have hgiven : ∀ {α : Type} {x : Option α}, x.isSome = true → x.isNone = false := Option.isNone_eq_false_iff.2
  unfold fieldFindings
  split_ifs with hcname hmx hsrv
  · simp
  · rw [hgiven (h.preference.2 hmx.1)] at hmx
    cases hmx.2
  · obtain ⟨hkind, hmissing⟩ := hsrv
    rw [hgiven (h.priority.2 hkind), hgiven (h.weight.2 hkind), hgiven (h.port.2 hkind)] at hmissing
    simp at hmissing
  · simp

theorem nothingMissing_recordFindings (zone : String) {r : Record} (h : r.Complete) :
    NothingMissing (recordFindings zone r) := by
  by_cases hknown : Text.upper r.kind ∈ knownKinds
  · rw [recordFindings_of_known zone hknown, nothingMissing_append, nothingMissing_append]
    exact ⟨⟨nothingMissing_labelFindings zone _, nothingMissing_targetFindings zone _ _ _⟩,
      nothingMissing_fieldFindings zone (complete_normalizeRecord zone h)⟩
  · rw [recordFindings_of_unknown zone hknown]
    simp

theorem nothingMissing_findings {p : Plan} (h : ∀ d ∈ p.domains, ∀ r ∈ d.records, r.Complete) :
    NothingMissing (findings p) := by
  intro f hf
  cases occasion_of_mem_findings hf with
  | record hd hr hf => exact nothingMissing_recordFindings _ (h _ hd _ hr) f hf
  | _ => rfl

/-- no issue of a validation speaks of a missing field if all records are complete -/
theorem not_mem_issues {p : Plan} (h : ∀ d ∈ p.domains, ∀ r ∈ d.records, r.Complete) {f : Finding}
    (hf : f.isMissingField = true) : f.issue ∉ (validate p).2 := by
  intro hmem
  obtain ⟨g, hg, hissue⟩ := List.mem_map.1 hmem
  have hmissing := isMissingField_of_issue hissue hf
  rw [nothingMissing_findings h g hg] at hmissing
  cases hmissing

end Zone

/-- **What is loaded from a document is complete**: if a document is evaluated and the fields are split off, every
record has the fields of its kind and no others, also in normal form, and the validation never misses one. -/
theorem loaded_complete (setting : Setting) (document : Kdl.Document) {p : Plan} {ds : List Domain}
    (hp : (setting.plan document).result = .ok p) (hds : Domain.splitAll p.domains = (ds, none)) :
    let loaded := { p with domains := ds }
    let validated := Zone.validate loaded
    (∀ d ∈ loaded.domains, ∀ r ∈ d.records, r.Complete) ∧
      (∀ d ∈ validated.1.domains, ∀ r ∈ d.records, r.Complete) ∧
      ∀ zone label, (Zone.Finding.noPreference zone label).issue ∉ validated.2 ∧
        (Zone.Finding.noService zone label).issue ∉ validated.2 := by
  intro loaded validated
  have hloaded : ∀ d ∈ loaded.domains, ∀ r ∈ d.records, r.Complete :=
    Domain.complete_of_splitAll (Setting.unsplit_of_plan hp) hds
  refine ⟨hloaded, ?_, fun zone label => ⟨Zone.not_mem_issues hloaded rfl, Zone.not_mem_issues hloaded rfl⟩⟩
  intro e he s hs
  obtain ⟨d, hd, rfl⟩ := List.mem_map.1 he
  obtain ⟨r, hr, rfl⟩ := List.mem_map.1 hs
  exact Zone.complete_normalizeRecord _ (hloaded d hd r hr)

/-- kinds in small letters, numbers as arguments of their own and in one text -/
theorem loaded_complete_service :
    let document : Kdl.Document := [
      ⟨"domain", [⟨none, .string "a"⟩], [
        ⟨"mx", [⟨none, .string "@"⟩, ⟨none, .integer 10⟩, ⟨none, .string "m"⟩], []⟩,
        ⟨"Srv", [⟨none, .string "_s"⟩, ⟨none, .string "1 2 03 h"⟩], []⟩]⟩]
    let p : Plan := {
      domains := [{
        name := "a"
        records := [
          { kind := "MX", label := "@", target := "10 m" },
          { kind := "SRV", label := "_s", target := "1 2 03 h" }] }] }
    let mx : Record := { kind := "MX", label := "@", target := "m", preference? := some 10 }
    let srv : Record := {
      kind := "SRV", label := "_s", target := "h", priority? := some 1, weight? := some 2, port? := some 3 }
    let loaded : Plan := { domains := [{ name := "a", records := [mx, srv] }] }
    (Setting.plan ⟨{}, false⟩ document).result = .ok p ∧ Domain.splitAll p.domains = (loaded.domains, none) ∧
      srv.Complete ∧ (Zone.Finding.noService "a" "_s").issue ∉ (Zone.validate loaded).2 := by
  intro document p mx srv loaded
  have hp : (Setting.plan ⟨{}, false⟩ document).result = .ok p := by decide +kernel
  have hds : Domain.splitAll p.domains = (loaded.domains, none) := by decide +kernel
  obtain ⟨hcomplete, -, hissues⟩ := loaded_complete ⟨{}, false⟩ document hp hds
  refine ⟨hp, hds, hcomplete { name := "a", records := [mx, srv] } ?_ srv ?_, (hissues "a" "_s").2⟩
  · exact List.mem_singleton.2 rfl
  · exact List.mem_cons_of_mem mx (List.mem_singleton.2 rfl)

end ZonePlan
