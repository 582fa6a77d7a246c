/-
Validation is sound and complete: what is found in a plan contains no error exactly if the normal form of the plan is
valid (`no_error_iff_valid`).

What is valid (`Valid`) is said of a plan alone, without findings: names stand for one thing each, domains refer to
what is declared, every record can be published, and the records of a domain do not disturb each other. The validation
looks at a plan from front to back and remembers the names, labels and records that it has seen. What is ahead is
without error only if it is fresh, so nothing stands twice in it and nothing has been seen (`Fresh`); one step of each
pass is one step of `fresh_cons`.
-/
import ZonePlan.Proofs.Zone.Record

namespace ZonePlan.Zone

attribute [local simp] Finding.issue Issue.isFatal

/-! ## Valid plans -/

/-- every CNAME record is the only record at its label -/
def AliasesAlone (rs : List Record) : Prop :=
  rs.Pairwise fun r s => r.kind = "CNAME" ∨ s.kind = "CNAME" → r.label ≠ s.label

/-- a domain that can be published with the declarations of a plan -/
structure ValidDomain (p : Plan) (d : Domain) : Prop where
  registered : d.registrar ≠ ""
  registrar : d.registrar ∈ p.registrars.map Declaration.name
  providers : ∀ key ∈ d.providers.keys, key ∈ p.providers.map Declaration.name
  records : ∀ r ∈ d.records, ValidRecord r
  aliases : AliasesAlone d.records
  distinct : (d.records.map identity).Nodup

/-- a plan that can be published -/
structure Valid (p : Plan) : Prop where
  registrars : (p.registrars.map Declaration.name).Nodup
  providers : (p.providers.map Declaration.name).Nodup
  names : (p.domains.map Domain.name).Nodup
  domains : ∀ d ∈ p.domains, ValidDomain p d

/-! ## What is met for the first time -/

/-- nothing stands twice in a list, and nothing in it has been seen -/
def Fresh {α : Type} (seen xs : List α) : Prop := xs.Nodup ∧ ∀ x ∈ xs, x ∉ seen

@[simp] theorem fresh_nil {α : Type} (seen : List α) : Fresh seen [] := by
  simp [Fresh]

@[simp] theorem fresh_of_nothing {α : Type} (xs : List α) : Fresh [] xs ↔ xs.Nodup := by
  simp [Fresh]

/-- what is ahead is fresh exactly if its first element is, and the others are once the first has been seen -/
theorem fresh_cons {α : Type} (seen : List α) (x : α) (xs : List α) :
    Fresh seen (x :: xs) ↔ x ∉ seen ∧ Fresh (x :: seen) xs := by
  simp only [Fresh, List.nodup_cons, List.forall_mem_cons]
  constructor
  · rintro ⟨⟨hx, hnodup⟩, hseen, hxs⟩
    refine ⟨hseen, hnodup, fun y hy hmem => ?_⟩
    rcases List.mem_cons.1 hmem with rfl | hmem
    · exact hx hy
    · exact hxs y hy hmem
  · rintro ⟨hseen, hnodup, hxs⟩
    refine ⟨⟨fun hx => hxs x hx List.mem_cons_self, hnodup⟩, hseen, fun y hy hmem => ?_⟩
    exact hxs y hy (List.mem_cons_of_mem x hmem)

theorem repeatedNames_eq_nil (seen ns : List String) : repeatedNames seen ns = [] ↔ Fresh seen ns := by
  induction ns generalizing seen with
  | nil => simp [repeatedNames]
  | cons n ns ih =>
    rw [fresh_cons, ← ih]
    by_cases hseen : n ∈ seen <;> simp [repeatedNames, hseen]

/-! ## Conflicts -/

/-- a label has room for no other record exactly if the aliases are alone -/
theorem aliasesAlone_iff (rs : List Record) :
    AliasesAlone rs ↔ ∀ r ∈ rs, r.kind = "CNAME" → (rs.filter fun s => s.label == r.label).length ≤ 1 := by
  unfold AliasesAlone
  induction rs with
  | nil => simp
  | cons x rs ih =>
    rw [List.pairwise_cons, ih]
    constructor
    · rintro ⟨hx, hrs⟩ r hr hkind
      rcases List.mem_cons.1 hr with rfl | hr
      · have hnone : rs.filter (fun s => s.label == r.label) = [] := by
          refine List.filter_eq_nil_iff.2 fun s hs hlabel => ?_
          exact hx s hs (Or.inl hkind) (beq_iff_eq.1 hlabel).symm
        simp [hnone]
      · have hlabel : x.label ≠ r.label := hx r hr (Or.inr hkind)
        simpa [hlabel] using hrs r hr hkind
    · intro h
      refine ⟨fun s hs hkind hlabel => ?_, fun r hr hkind => ?_⟩
      · -- `x` and `s` are two records at one label, whichever of them is the alias
        have hs' : s ∈ rs.filter fun t => t.label == s.label := List.mem_filter.2 ⟨hs, by simp⟩
        have hpos : 0 < (rs.filter fun t => t.label == s.label).length := List.length_pos_of_mem hs'
        rcases hkind with hkind | hkind
        · have := h x List.mem_cons_self hkind
          simp only [hlabel, beq_self_eq_true, List.filter_cons_of_pos, List.length_cons] at this
          omega
        · have := h s (List.mem_cons_of_mem x hs) hkind
          simp only [hlabel, beq_self_eq_true, List.filter_cons_of_pos, List.length_cons] at this
          omega
      · have hsub : (rs.filter fun s => s.label == r.label).Sublist
            ((x :: rs).filter fun s => s.label == r.label) := (List.sublist_cons_self x rs).filter _
        exact hsub.length_le.trans (h r (List.mem_cons_of_mem x hr) hkind)

/-- behind other records, there is no conflict exactly if no alias ahead shares its label, unless that is reported, and
every record ahead is fresh -/
theorem harmless_conflictsAfter (d : Domain) (reported : List String) (seen : List Identity) (rs : List Record) :
    Harmless (conflictsAfter d reported seen rs) ↔
      (∀ r ∈ rs, r.kind = "CNAME" → r.label ∉ reported → (d.recordsAt r.label).length ≤ 1) ∧
        Fresh seen (rs.map identity) := by
  induction rs generalizing reported seen with
  | nil => simp [conflictsAfter]
  | cons r rs ih =>
    rw [List.map_cons, fresh_cons, List.forall_mem_cons]
    by_cases hshared : r.kind = "CNAME" ∧ 1 < (d.recordsAt r.label).length ∧ r.label ∉ reported
    · refine iff_of_false ?_ fun h => not_le.2 hshared.2.1 (h.1.1 hshared.1 hshared.2.2)
      simp [conflictsAfter, hshared]
    · have hr : r.kind = "CNAME" → r.label ∉ reported → (d.recordsAt r.label).length ≤ 1 := by
        intro hkind hlabel
        by_contra hlength
        exact hshared ⟨hkind, not_le.1 hlength, hlabel⟩
      rw [and_iff_right hr]
      by_cases hseen : identity r ∈ seen
      · simp [conflictsAfter, hseen]
      · rw [and_iff_right hseen]
        simp only [conflictsAfter, if_neg hshared, if_neg hseen, List.nil_append, ih]

theorem harmless_conflicts (d : Domain) :
    Harmless (conflicts d) ↔ AliasesAlone d.records ∧ (d.records.map identity).Nodup := by
  rw [conflicts, harmless_conflictsAfter, aliasesAlone_iff]
  simp [Domain.recordsAt]

/-! ## Domains -/

theorem normalizeDomain_name (d : Domain) : (normalizeDomain d).name = name d.name := rfl

theorem normalizeDomain_records (d : Domain) :
    (normalizeDomain d).records = d.records.map (normalizeRecord (name d.name)) := rfl

theorem harmless_registrarFindings (p : Plan) (d : Domain) :
    Harmless (registrarFindings p d) ↔ d.registrar ≠ "" ∧ d.registrar ∈ p.registrars.map Declaration.name := by
  rw [registrarFindings]
  by_cases hempty : d.registrar = ""
  · simp [hempty]
  · rw [if_neg hempty, ← List.contains_iff_mem]
    by_cases hdeclared : (p.registrars.map Declaration.name).contains d.registrar = true
    · rw [if_pos hdeclared]
      exact iff_of_true harmless_nil ⟨hempty, hdeclared⟩
    · rw [if_neg hdeclared]
      refine iff_of_false ?_ fun h => hdeclared h.2
      simp

/-- that there are no providers is no error -/
theorem harmless_providerFindings (p : Plan) (d : Domain) :
    Harmless (providerFindings p d) ↔ ∀ key ∈ d.providers.keys, key ∈ p.providers.map Declaration.name := by
  have hnone : Harmless (if d.providers.isEmpty then [Finding.noProviders d.name] else []) := by
    split_ifs <;> simp
  rw [providerFindings, harmless_append, and_iff_right hnone, harmless_map fun _ => rfl, List.filter_eq_nil_iff]
  refine forall₂_congr fun key _ => ?_
  rw [Bool.not_eq_true', Bool.not_eq_false, List.contains_iff_mem]

/-- a domain is found without error exactly if its normal form is valid -/
theorem harmless_domainFindings (p : Plan) (d : Domain) :
    Harmless (domainFindings p d) ↔ ValidDomain (normalize p) (normalizeDomain d) := by
  have hrecords : Harmless (d.records.flatMap (recordFindings (name d.name))) ↔
      ∀ r ∈ (normalizeDomain d).records, ValidRecord r := by
    rw [harmless_flatMap, normalizeDomain_records, List.forall_mem_map]
    exact forall₂_congr fun r _ => harmless_recordFindings (name d.name) r
  rw [domainFindings, harmless_append, harmless_append, harmless_append, harmless_registrarFindings,
    harmless_providerFindings, harmless_conflicts]
  constructor
  · rintro ⟨⟨⟨⟨hregistered, hregistrar⟩, hproviders⟩, hfound⟩, haliases, hdistinct⟩
    exact ⟨hregistered, hregistrar, hproviders, hrecords.1 hfound, haliases, hdistinct⟩
  · intro h
    exact ⟨⟨⟨⟨h.registered, h.registrar⟩, h.providers⟩, hrecords.2 h.records⟩, h.aliases, h.distinct⟩

/-- behind other domains, nothing is wrong exactly if the zones ahead are fresh and nothing is wrong within their
domains -/
theorem harmless_domainsFindings (p : Plan) (seen : List String) (ds : List Domain) :
    Harmless (domainsFindings p seen ds) ↔
      Fresh seen (ds.map fun d => name d.name) ∧ ∀ d ∈ ds, Harmless (domainFindings p d) := by
  induction ds generalizing seen with
  | nil => simp [domainsFindings]
  | cons d ds ih =>
    rw [List.map_cons, fresh_cons, List.forall_mem_cons]
    by_cases hseen : name d.name ∈ seen
    · simp [domainsFindings, hseen]
    · rw [and_iff_right hseen]
      simp only [domainsFindings, if_neg hseen, List.nil_append, harmless_append, ih]
      exact and_left_comm

/-! ## Plans -/

theorem harmless_findings (p : Plan) : Harmless (findings p) ↔ Valid (normalize p) := by
  have hnames : (normalize p).domains.map Domain.name = p.domains.map fun d => name d.name := by
    simp [normalize, normalizeDomain]
  have hdomains : (∀ d ∈ p.domains, Harmless (domainFindings p d)) ↔
      ∀ d ∈ (normalize p).domains, ValidDomain (normalize p) d := by
    rw [normalize, List.forall_mem_map]
    exact forall₂_congr fun d _ => harmless_domainFindings p d
  rw [findings, harmless_append, harmless_append, harmless_map fun _ => rfl, harmless_map fun _ => rfl,
    repeatedNames_eq_nil, repeatedNames_eq_nil, harmless_domainsFindings, hdomains, ← hnames, fresh_of_nothing,
    fresh_of_nothing, fresh_of_nothing]
  constructor
  · rintro ⟨⟨hregistrars, hproviders⟩, hzones, hvalid⟩
    exact ⟨hregistrars, hproviders, hzones, hvalid⟩
  · intro h
    exact ⟨⟨h.registrars, h.providers⟩, h.names, h.domains⟩

/-- **Validation is sound and complete**: no issue is an error exactly if the plan in normal form is valid -/
theorem no_error_iff_valid (p : Plan) :
    (∀ i ∈ (validate p).2, i.isFatal = false) ↔ Valid (validate p).1 := by
  have hissues : (∀ i ∈ (validate p).2, i.isFatal = false) ↔ Harmless (findings p) := List.forall_mem_map
  rw [hissues, harmless_findings]
  rfl

end ZonePlan.Zone
