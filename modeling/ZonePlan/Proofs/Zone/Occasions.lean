/-
What the findings of a validation are about.

The validation goes through a plan once and remembers names, labels and records on its way. Whatever it remembers, a
finding is about one place of the plan: a declaration, a domain and what it refers to, or a record (`Occasion`). So what
is to be shown of all findings is shown place by place (`occasion_of_mem_findings`). That they are found exactly where
they should be is left open here.
-/
import ZonePlan.Proofs.Zone.Record

namespace ZonePlan.Zone

/-- what can be found in a plan: in its declarations, in the domains of its normal form, and in its records -/
inductive Occasion (p : Plan) : Finding → Prop where
  | registrar {n : String} (hn : n ∈ p.registrars.map Declaration.name) : Occasion p (.repeatedRegistrar n)
  | provider {n : String} (hn : n ∈ p.providers.map Declaration.name) : Occasion p (.repeatedProvider n)
  | domain {d : Domain} (hd : d ∈ (normalize p).domains) : Occasion p (.repeatedDomain d.name)
  | noRegistrar {d : Domain} (hd : d ∈ (normalize p).domains) : Occasion p (.noRegistrar d.name)
  | registrarOf {d : Domain} (hd : d ∈ (normalize p).domains) : Occasion p (.undefinedRegistrar d.name d.registrar)
  | noProviders {d : Domain} (hd : d ∈ (normalize p).domains) : Occasion p (.noProviders d.name)
  | providerOf {d : Domain} {key : String} (hd : d ∈ (normalize p).domains) (hkey : key ∈ d.providers.keys) :
    Occasion p (.undefinedProvider d.name key)
  | record {d : Domain} {r : Record} {f : Finding} (hd : d ∈ p.domains) (hr : r ∈ d.records)
    (hf : f ∈ recordFindings (name d.name) r) : Occasion p f
  | sharedAlias {d : Domain} {r : Record} (hd : d ∈ (normalize p).domains) (hr : r ∈ d.records) :
    Occasion p (.sharedAlias d.name r.label)
  | repeatedRecord {d : Domain} {r : Record} (hd : d ∈ (normalize p).domains) (hr : r ∈ d.records) :
    Occasion p (.repeatedRecord d.name r.text)

theorem mem_of_mem_repeatedNames {seen ns : List String} {n : String} (h : n ∈ repeatedNames seen ns) : n ∈ ns := by
  induction ns generalizing seen with
  | nil => cases h
  | cons m ns ih =>
    rw [repeatedNames] at h
    split_ifs at h
    · rcases List.mem_cons.1 h with rfl | h
      · exact List.mem_cons_self
      · exact List.mem_cons_of_mem _ (ih h)
    · exact List.mem_cons_of_mem _ (ih h)

/-- conflicts are those of a record of the domain, whatever is remembered of the records in front of it -/
theorem of_mem_conflictsAfter {d : Domain} {reported : List String} {seen : List Identity} {rs : List Record}
    {f : Finding} (h : f ∈ conflictsAfter d reported seen rs) :
    ∃ r ∈ rs, f = .sharedAlias d.name r.label ∨ f = .repeatedRecord d.name r.text := by
  induction rs generalizing reported seen with
  | nil => cases h
  | cons r rs ih =>
    rw [conflictsAfter, List.mem_append, List.mem_append] at h
    rcases h with (h | h) | h
    · split_ifs at h
      · exact ⟨r, List.mem_cons_self, Or.inl (List.mem_singleton.1 h)⟩
      · cases h
    · split_ifs at h
      · exact ⟨r, List.mem_cons_self, Or.inr (List.mem_singleton.1 h)⟩
      · cases h
    · obtain ⟨s, hs, hf⟩ := ih h
      exact ⟨s, List.mem_cons_of_mem _ hs, hf⟩

section

variable {p : Plan} {d : Domain} {f : Finding}

theorem occasion_of_mem_registrarFindings (hd : d ∈ (normalize p).domains) (h : f ∈ registrarFindings p d) :
    Occasion p f := by
  unfold registrarFindings at h
  split_ifs at h
  · obtain rfl := List.mem_singleton.1 h
    exact .noRegistrar hd
  · cases h
  · obtain rfl := List.mem_singleton.1 h
    exact .registrarOf hd

theorem occasion_of_mem_providerFindings (hd : d ∈ (normalize p).domains) (h : f ∈ providerFindings p d) :
    Occasion p f := by
  rcases List.mem_append.1 h with h | h
  · split_ifs at h
    · obtain rfl := List.mem_singleton.1 h
      exact .noProviders hd
    · cases h
  · obtain ⟨key, hkey, rfl⟩ := List.mem_map.1 h
    exact .providerOf hd (List.mem_of_mem_filter hkey)

theorem occasion_of_mem_conflicts (hd : d ∈ (normalize p).domains) (h : f ∈ conflicts d) : Occasion p f := by
  obtain ⟨r, hr, rfl | rfl⟩ := of_mem_conflictsAfter h
  · exact .sharedAlias hd hr
  · exact .repeatedRecord hd hr

theorem occasion_of_mem_domainFindings (hd : d ∈ p.domains) (h : f ∈ domainFindings p d) : Occasion p f := by
  have hnormal : normalizeDomain d ∈ (normalize p).domains := List.mem_map_of_mem hd
  rw [domainFindings, List.mem_append, List.mem_append, List.mem_append] at h
  rcases h with ((h | h) | h) | h
  · exact occasion_of_mem_registrarFindings hnormal h
  · exact occasion_of_mem_providerFindings hnormal h
  · obtain ⟨r, hr, hf⟩ := List.mem_flatMap.1 h
    exact .record hd hr hf
  · exact occasion_of_mem_conflicts hnormal h

/-- all that is found in a plan has its place there -/
theorem occasion_of_mem_findings (h : f ∈ findings p) : Occasion p f := by
  have hdomains : ∀ seen ds, ds ⊆ p.domains → f ∈ domainsFindings p seen ds → Occasion p f := by
    intro seen ds hds hf
    induction ds generalizing seen with
    | nil => cases hf
    | cons d ds ih =>
      obtain ⟨hd, hds⟩ := List.cons_subset.1 hds
      rw [domainsFindings, List.mem_append, List.mem_append] at hf
      rcases hf with (hf | hf) | hf
      · split_ifs at hf
        · obtain rfl := List.mem_singleton.1 hf
          exact .domain (d := normalizeDomain d) (List.mem_map_of_mem hd)
        · cases hf
      · exact occasion_of_mem_domainFindings hd hf
      · exact ih _ hds hf
  rw [findings, List.mem_append, List.mem_append] at h
  rcases h with (h | h) | h
  · obtain ⟨n, hn, rfl⟩ := List.mem_map.1 h
    exact .registrar (mem_of_mem_repeatedNames hn)
  · obtain ⟨n, hn, rfl⟩ := List.mem_map.1 h
    exact .provider (mem_of_mem_repeatedNames hn)
  · exact hdomains [] p.domains (List.Subset.refl _) h

end

end ZonePlan.Zone
