/-
The order of a plan does not matter to its validation (`validate_arranged`): put the declarations, the domains and the
records of each domain in another order, and the normal form is the same but for that order, and so are the issues, each
as often as before.

Which of two equal names is the repeated one depends on their order, because the validation goes from front to back and
remembers what it has seen. But what is said of the repeated one is said of its name alone. So every such pass is a pass
over names, labels or identities (`sift`), and it is enough that two neighbours can change places there (`sift_perm`).
-/
import Mathlib
import ZonePlan.Zone.Normalization

namespace ZonePlan

/-! ## Orders -/

/-- the elements of a list at these places -/
def arrange {α : Type} (places : List Nat) (xs : List α) : List α :=
  places.filterMap (xs[·]?)

/-- an order for all that stands in a plan, by the places where it stands -/
structure Order where
  registrars : List Nat
  providers : List Nat
  /-- each domain with the order of its records -/
  domains : List (Nat × List Nat)

/-- a plan in another order -/
def Plan.arranged (p : Plan) (o : Order) : Plan where
  registrars := arrange o.registrars p.registrars
  providers := arrange o.providers p.providers
  domains := o.domains.filterMap fun e =>
    p.domains[e.1]?.map fun d => { d with records := arrange e.2 d.records }

/-- every place of a plan is taken once -/
structure Order.Fits (o : Order) (p : Plan) : Prop where
  registrars : o.registrars.Perm (List.range p.registrars.length)
  providers : o.providers.Perm (List.range p.providers.length)
  domains : (o.domains.map Prod.fst).Perm (List.range p.domains.length)
  records : ∀ e ∈ o.domains, ∀ d ∈ p.domains[e.1]?, e.2.Perm (List.range d.records.length)

theorem arrange_map {α β : Type} (f : α → β) (places : List Nat) (xs : List α) :
    arrange places (xs.map f) = (arrange places xs).map f := by
  simp [arrange, List.map_filterMap]

theorem arrange_range {α : Type} (xs : List α) : arrange (List.range xs.length) xs = xs := by
  induction xs with
  | nil => rfl
  | cons x xs ih =>
    have hrest : arrange ((List.range xs.length).map Nat.succ) (x :: xs) = xs := by
      rw [arrange, List.filterMap_map]
      exact ih
    rw [List.length_cons, List.range_succ_eq_map]
    exact congrArg (x :: ·) hrest

theorem arrange_perm {α : Type} {places : List Nat} {xs : List α} (h : places.Perm (List.range xs.length)) :
    (arrange places xs).Perm xs := by
  have hperm : (arrange places xs).Perm (arrange (List.range xs.length) xs) := h.filterMap _
  rwa [arrange_range] at hperm

namespace Zone

/-! ## Passes that remember -/

variable {α : Type} [DecidableEq α]

/-- the elements of a list that are met again, or those that are met for the first time -/
def sift (again : Bool) (seen : List α) : List α → List α
  | [] => []
  | x :: xs => (if decide (x ∈ seen) = again then [x] else []) ++ sift again (x :: seen) xs

theorem sift_congr (again : Bool) {seen seen' : List α} (h : ∀ x, x ∈ seen ↔ x ∈ seen') (xs : List α) :
    sift again seen xs = sift again seen' xs := by
  induction xs generalizing seen seen' with
  | nil => rfl
  | cons x xs ih =>
    have hcons : ∀ y, y ∈ x :: seen ↔ y ∈ x :: seen' := by
      intro y
      rw [List.mem_cons, List.mem_cons, h]
    rw [sift, sift, ih hcons, decide_eq_decide.2 (h x)]

/-- two neighbours can change places -/
theorem sift_swap (again : Bool) (seen : List α) (x y : α) (xs : List α) :
    (sift again seen (x :: y :: xs)).Perm (sift again seen (y :: x :: xs)) := by
  by_cases hxy : x = y
  · rw [hxy]
  · have hrest : sift again (y :: x :: seen) xs = sift again (x :: y :: seen) xs := by
      refine sift_congr again (fun z => ?_) xs
      simp only [List.mem_cons]
      exact or_left_comm
    simp only [sift, List.mem_cons, hxy, Ne.symm hxy, false_or, hrest]
    rw [← List.append_assoc, ← List.append_assoc]
    exact List.perm_append_comm.append_right _

/-- what is met again or for the first time does not depend on the order -/
theorem sift_perm (again : Bool) {xs ys : List α} (h : xs.Perm ys) (seen : List α) :
    (sift again seen xs).Perm (sift again seen ys) := by
  induction h generalizing seen with
  | nil => exact .refl _
  | cons x _ ih => exact (ih (x :: seen)).append_left _
  | swap x y xs => exact sift_swap again seen y x xs
  | trans _ _ ih ih' => exact (ih seen).trans (ih' seen)

theorem sift_of_mem (again : Bool) {seen : List α} {x : α} (h : x ∈ seen) (xs : List α) :
    sift again (x :: seen) xs = sift again seen xs := by
  refine sift_congr again (fun y => ?_) xs
  rw [List.mem_cons, or_iff_right_of_imp]
  rintro rfl
  exact h

theorem repeatedNames_eq (seen ns : List String) : repeatedNames seen ns = sift true seen ns := by
  induction ns generalizing seen with
  | nil => rfl
  | cons n ns ih =>
    by_cases hseen : n ∈ seen
    · simp [repeatedNames, sift, hseen, ih, sift_of_mem]
    · simp [repeatedNames, sift, hseen, ih]

/-- one step of a pass over names behind which something is said of each that is met again -/
theorem map_sift_cons {β : Type} (f : α → β) (seen : List α) (x : α) (xs : List α) :
    (sift true seen (x :: xs)).map f = (if x ∈ seen then [f x] else []) ++ (sift true (x :: seen) xs).map f := by
  by_cases hseen : x ∈ seen
  · simp [sift, hseen]
  · simp [sift, hseen]

theorem append_regroup {β : Type} (xs ys xs' ys' : List β) :
    (xs ++ ys ++ (xs' ++ ys')).Perm (xs ++ xs' ++ (ys ++ ys')) := by
  simp only [List.append_assoc]
  refine List.Perm.append_left xs ?_
  rw [← List.append_assoc, ← List.append_assoc]
  exact List.perm_append_comm.append_right ys'

/-! ## Conflicts -/

/-- a CNAME record that is not alone at its label -/
def Shared (d : Domain) (r : Record) : Prop :=
  r.kind = "CNAME" ∧ 1 < (d.recordsAt r.label).length

instance (d : Domain) (r : Record) : Decidable (Shared d r) :=
  inferInstanceAs (Decidable (_ ∧ _))

/-- the labels of the records that share theirs -/
def sharedLabels (d : Domain) (rs : List Record) : List String :=
  (rs.filter (Shared d ·)).map Record.label

/-- what is said of a record that is there already -/
def repeatedRecord (zone : String) (i : Identity) : Finding :=
  .repeatedRecord zone s!"{i.kind} {i.label} {i.target}"

theorem repeatedRecord_identity (zone : String) (r : Record) :
    repeatedRecord zone (identity r) = .repeatedRecord zone r.text := rfl

/-- a label is reported when it is met for the first time -/
theorem sift_sharedLabels_cons (d : Domain) (reported : List String) (r : Record) (rs : List Record) :
    sift false reported (sharedLabels d (r :: rs)) =
      if Shared d r ∧ r.label ∉ reported then r.label :: sift false (r.label :: reported) (sharedLabels d rs)
      else sift false reported (sharedLabels d rs) := by
  by_cases hshared : Shared d r
  · have hlabels : sharedLabels d (r :: rs) = r.label :: sharedLabels d rs := by simp [sharedLabels, hshared]
    by_cases hreported : r.label ∈ reported
    · simp [hlabels, sift, hreported, sift_of_mem]
    · simp [hlabels, sift, hshared, hreported]
  · have hlabels : sharedLabels d (r :: rs) = sharedLabels d rs := by simp [sharedLabels, hshared]
    simp [hlabels, hshared]

/-- the conflicts are those of the labels and those of the records -/
theorem conflictsAfter_perm (d : Domain) (reported : List String) (seen : List Identity) (rs : List Record) :
    (conflictsAfter d reported seen rs).Perm
      ((sift false reported (sharedLabels d rs)).map (.sharedAlias d.name) ++
        (sift true seen (rs.map identity)).map (repeatedRecord d.name)) := by
  induction rs generalizing reported seen with
  | nil => exact .refl _
  | cons r rs ih =>
    have hreports : (r.kind = "CNAME" ∧ 1 < (d.recordsAt r.label).length ∧ r.label ∉ reported) ↔
        Shared d r ∧ r.label ∉ reported := and_assoc.symm
    rw [sift_sharedLabels_cons, List.map_cons, map_sift_cons, repeatedRecord_identity]
    simp only [conflictsAfter, hreports]
    by_cases hshared : Shared d r ∧ r.label ∉ reported
    · simp only [if_pos hshared, List.map_cons]
      exact ((ih _ _).append_left _).trans (append_regroup [_] _ _ _)
    · simp only [if_neg hshared]
      exact ((ih _ _).append_left _).trans (append_regroup [] _ _ _)

theorem conflicts_perm {d e : Domain} (hname : e.name = d.name) (h : e.records.Perm d.records) :
    (conflicts e).Perm (conflicts d) := by
  have hshared : ∀ r, Shared e r ↔ Shared d r := by
    intro r
    rw [Shared, Shared, Domain.recordsAt, Domain.recordsAt, (h.filter _).length_eq]
  refine (conflictsAfter_perm e [] [] e.records).trans (.trans ?_ (conflictsAfter_perm d [] [] d.records).symm)
  simp only [sharedLabels, hname, hshared]
  refine .append ?_ ?_
  · exact (sift_perm false ((h.filter _).map _) []).map _
  · exact (sift_perm true (h.map _) []).map _

/-! ## Domains -/

variable {p q : Plan}

/-- what is found at domains is that names are there already and what is found at each alone -/
theorem domainsFindings_perm (p : Plan) (seen : List String) (ds : List Domain) :
    (domainsFindings p seen ds).Perm
      ((sift true seen (ds.map fun d => name d.name)).map .repeatedDomain ++ ds.flatMap (domainFindings p)) := by
  induction ds generalizing seen with
  | nil => exact .refl _
  | cons d ds ih =>
    rw [List.map_cons, map_sift_cons, List.flatMap_cons]
    exact ((ih _).append_left _).trans (append_regroup _ _ _ _)

theorem contains_names {ds es : List Declaration} (h : ds.Perm es) (n : String) :
    (ds.map Declaration.name).contains n = (es.map Declaration.name).contains n := by
  rw [Bool.eq_iff_iff, List.contains_iff_mem, List.contains_iff_mem, (h.map _).mem_iff]

theorem registrarFindings_congr (h : q.registrars.Perm p.registrars) {d e : Domain} (hname : e.name = d.name)
    (hregistrar : e.registrar = d.registrar) : registrarFindings q e = registrarFindings p d := by
  rw [registrarFindings, registrarFindings, hname, hregistrar, contains_names h]

theorem providerFindings_congr (h : q.providers.Perm p.providers) {d e : Domain} (hname : e.name = d.name)
    (hproviders : e.providers = d.providers) : providerFindings q e = providerFindings p d := by
  rw [providerFindings, providerFindings, hname, hproviders]
  simp only [contains_names h]

/-- what is found at a domain, with its records and the declarations in another order -/
theorem domainFindings_perm (hregistrars : q.registrars.Perm p.registrars) (hproviders : q.providers.Perm p.providers)
    {d : Domain} {rs : List Record} (hrecords : rs.Perm d.records) :
    (domainFindings q { d with records := rs }).Perm (domainFindings p d) := by
  have hregistrar : registrarFindings q (normalizeDomain { d with records := rs }) =
      registrarFindings p (normalizeDomain d) := registrarFindings_congr hregistrars rfl rfl
  have hprovider : providerFindings q (normalizeDomain { d with records := rs }) =
      providerFindings p (normalizeDomain d) := providerFindings_congr hproviders rfl rfl
  have hfound : (rs.flatMap (recordFindings (name d.name))).Perm (d.records.flatMap (recordFindings (name d.name))) :=
    hrecords.flatMap_right _
  have hconflicts : (conflicts (normalizeDomain { d with records := rs })).Perm (conflicts (normalizeDomain d)) :=
    conflicts_perm rfl (hrecords.map _)
  dsimp only [domainFindings]
  rw [hregistrar, hprovider]
  exact (hfound.append_left _).append hconflicts

/-! ## Plans -/

variable {o : Order}

/-- the domains of a plan in another order, each with the places of its records -/
def placed (p : Plan) (o : Order) : List (Domain × List Nat) :=
  o.domains.filterMap fun e => p.domains[e.1]?.map (·, e.2)

theorem domains_arranged (p : Plan) (o : Order) :
    (p.arranged o).domains = (placed p o).map fun e => { e.1 with records := arrange e.2 e.1.records } := by
  simp only [Plan.arranged, placed, List.map_filterMap, Option.map_map]
  rfl

theorem map_fst_placed (p : Plan) (o : Order) :
    (placed p o).map Prod.fst = arrange (o.domains.map Prod.fst) p.domains := by
  rw [placed, arrange, List.map_filterMap, List.filterMap_map]
  refine congrArg (List.filterMap · o.domains) (funext fun e => ?_)
  rw [Option.map_map]
  exact Option.map_id'

theorem normalize_arranged (p : Plan) (o : Order) : normalize (p.arranged o) = (normalize p).arranged o := by
  have hdomain : ∀ (places : List Nat) (d : Domain),
      normalizeDomain { d with records := arrange places d.records } =
        { normalizeDomain d with records := arrange places (normalizeDomain d).records } := by
    intro places d
    simp only [normalizeDomain, arrange_map]
  simp only [normalize, Plan.arranged, List.map_filterMap, List.getElem?_map, Option.map_map, Function.comp_def,
    hdomain]

theorem findings_arranged (h : o.Fits p) : (findings (p.arranged o)).Perm (findings p) := by
  have hregistrars : (p.arranged o).registrars.Perm p.registrars := arrange_perm h.registrars
  have hproviders : (p.arranged o).providers.Perm p.providers := arrange_perm h.providers
  have hplaced : ((placed p o).map Prod.fst).Perm p.domains := by
    rw [map_fst_placed]
    exact arrange_perm h.domains
  have hrecords : ∀ e ∈ placed p o, (arrange e.2 e.1.records).Perm e.1.records := by
    intro e he
    obtain ⟨e', he', hsome⟩ := List.mem_filterMap.1 he
    obtain ⟨d, hd, rfl⟩ := Option.map_eq_some_iff.1 hsome
    exact arrange_perm (h.records e' he' d hd)
  have hzones : ((p.arranged o).domains.map fun d => name d.name).Perm (p.domains.map fun d => name d.name) := by
    rw [domains_arranged, List.map_map]
    have hsame := hplaced.map fun d => name d.name
    rwa [List.map_map] at hsame
  have hfound : ((p.arranged o).domains.flatMap (domainFindings (p.arranged o))).Perm
      (p.domains.flatMap (domainFindings p)) := by
    rw [domains_arranged, List.flatMap_map]
    refine (List.Perm.flatMap_left _ fun e he => domainFindings_perm hregistrars hproviders (hrecords e he)).trans ?_
    have hsame := hplaced.flatMap_right (domainFindings p)
    rwa [List.flatMap_map] at hsame
  have hdomains : (domainsFindings (p.arranged o) [] (p.arranged o).domains).Perm (domainsFindings p [] p.domains) :=
    (domainsFindings_perm _ _ _).trans ((((sift_perm true hzones []).map _).append hfound).trans
      (domainsFindings_perm _ _ _).symm)
  rw [findings, findings, repeatedNames_eq, repeatedNames_eq, repeatedNames_eq, repeatedNames_eq]
  exact (((sift_perm true (hregistrars.map _) []).map _).append ((sift_perm true (hproviders.map _) []).map _)).append
    hdomains

/-- **The order of a plan does not matter to its validation**: in another order it has the same normal form in that
order, and there are the same issues, each as often as before. -/
theorem validate_arranged (p : Plan) (o : Order) (h : o.Fits p) :
    (validate (p.arranged o)).1 = (validate p).1.arranged o ∧ (validate (p.arranged o)).2.Perm (validate p).2 ∧
      (validate (p.arranged o)).2.any Issue.isFatal = (validate p).2.any Issue.isFatal := by
  have hissues : (validate (p.arranged o)).2.Perm (validate p).2 := (findings_arranged h).map _
  exact ⟨normalize_arranged p o, hissues, hissues.any_eq⟩

/-- two names of one zone, the second before the first, and records at one label from back to front -/
theorem validate_arranged_backwards :
    let host : Record := { kind := "A", label := "w", target := "192.0.2.1" }
    let link : Record := { kind := "CNAME", label := "w", target := "x" }
    let p : Plan := {
      registrars := [⟨"r", ""⟩, ⟨"s", ""⟩]
      domains := [
        { name := "a", registrar := "r", records := [host, link, host] },
        { name := "A.", registrar := "s" }] }
    let o : Order := { registrars := [1, 0], providers := [], domains := [(1, []), (0, [2, 1, 0])] }
    o.Fits p ∧ (validate (p.arranged o)).1 = (validate p).1.arranged o ∧
      (validate (p.arranged o)).2.Perm (validate p).2 ∧ (validate (p.arranged o)).2.any Issue.isFatal = true := by
  intro host link p o
  have hfits : o.Fits p := ⟨by decide, by decide, by decide, by decide⟩
  have hfatal : (validate p).2.any Issue.isFatal = true := by decide +kernel
  obtain ⟨hnormal, hissues, hsame⟩ := validate_arranged p o hfits
  exact ⟨hfits, hnormal, hissues, hsame.trans hfatal⟩

end Zone

end ZonePlan
