/-
Normal forms that stay as they are.

A second normalization changes nothing in the records that were found without error, in whatever zone it takes place
(`normalizeRecord_normalizeRecord`): valid labels and host names with a point at their end are read as they stand. In
the same zone it finds the same as before, and at most one warning more (`normalized_record_stays`).
With the names of zones it is different. Blanks are taken off before the points at the end are, so a blank in front of
these points is left over, and only the next normalization takes it off (`name_name`). A valid plan therefore stays as
it is exactly if the name of no zone ends with a blank (`normalize_normalize`).
-/
import ZonePlan.Proofs.Zone.Validity

namespace ZonePlan.Zone

/-! ## Final forms of texts -/

theorem clean_eq_self {s : String} (htrim : Text.Trimmed s.toList) (hlower : Text.lower s = s) : clean s = s := by
  have : Text.trim s = s := by
    rw [← String.toList_inj, Text.toList_trim, Text.trimChars_eq_self_iff.2 htrim]
  rw [clean, this, hlower]

theorem trimmed_clean (given : String) : Text.Trimmed (clean given).toList := by
  rw [clean, Text.toList_lower, Text.toList_trim]
  exact (Text.trimmed_trimChars given.toList).map_toLower

theorem lower_clean (given : String) : Text.lower (clean given) = clean given :=
  Text.lower_lower (Text.trim given)

theorem clean_clean (given : String) : clean (clean given) = clean given :=
  clean_eq_self (trimmed_clean given) (lower_clean given)

theorem getLast_append_point (s : String) : (s ++ ".").toList.getLast? = some '.' := by
  simp

/-- a point at the end is no blank -/
theorem clean_append_point {s : String} (hhead : ∀ c ∈ s.toList.head?, Text.isBlank c = false)
    (hlower : Text.lower s = s) : clean (s ++ ".") = s ++ "." := by
  have hpoint : Text.isBlank '.' = false := by decide
  refine clean_eq_self ⟨fun c hc => ?_, fun c hc => ?_⟩ ?_
  · rw [String.toList_append, List.head?_append] at hc
    cases hs : s.toList.head? with
    | none =>
      rw [hs] at hc
      cases hc
      exact hpoint
    | some d =>
      rw [hs] at hc
      cases hc
      exact hhead c hs
  · rw [getLast_append_point] at hc
    cases hc
    exact hpoint
  · rw [Text.lower_append, hlower]
    rfl

/-! ## Names of zones -/

theorem toList_name (given : String) :
    (name given).toList = (Text.dropTrailing (· == '.') (Text.trimChars given.toList)).map Char.toLower := by
  simp [name]

theorem lower_name (given : String) : Text.lower (name given) = name given :=
  Text.lower_lower _

/-- no blank begins the name of a zone -/
theorem head_name (given : String) : ∀ c ∈ (name given).toList.head?, Text.isBlank c = false := by
  intro c hc
  rw [toList_name, List.head?_map] at hc
  obtain ⟨d, hd, rfl⟩ := Option.map_eq_some_iff.1 hc
  rw [Text.isBlank_toLower]
  exact (Text.trimmed_trimChars given.toList).1 d (Text.head?_dropTrailing hd)

/-- no point ends the name of a zone -/
theorem getLast_name (given : String) : ∀ c ∈ (name given).toList.getLast?, (c == '.') = false := by
  intro c hc
  rw [toList_name, List.getLast?_map] at hc
  obtain ⟨d, hd, rfl⟩ := Option.map_eq_some_iff.1 hc
  have hlast := Text.getLast?_dropTrailing _ _ d hd
  rw [beq_eq_false_iff_ne] at hlast ⊢
  exact fun hpoint => hlast (Text.eq_of_toLower_eq hpoint (by decide))

/-- **The name of a zone stays as it is** exactly if it does not end with a blank -/
theorem name_name (given : String) :
    name (name given) = name given ↔ ∀ c ∈ (name given).toList.getLast?, Text.isBlank c = false := by
  constructor
  · intro h
    -- nothing is taken off, so in particular no blank is
    have hlength : (name given).toList.length ≤ (Text.trimChars (name given).toList).length := calc
      (name given).toList.length = (name (name given)).toList.length := by rw [h]
      _ = (Text.dropTrailing (· == '.') (Text.trimChars (name given).toList)).length := by
        rw [toList_name (name given), List.length_map]
      _ ≤ (Text.trimChars (name given).toList).length := (Text.dropTrailing_isPrefix _ _).length_le
    have htrim := (Text.trimChars_sublist (name given).toList).eq_of_length_le hlength
    exact (Text.trimChars_eq_self_iff.1 htrim).2
  · intro hlast
    have htrimmed : Text.Trimmed (name given).toList := ⟨head_name given, hlast⟩
    rw [← String.toList_inj, toList_name (name given), Text.trimChars_eq_self_iff.2 htrimmed,
      Text.dropTrailing_eq_self (getLast_name given), ← Text.toList_lower, lower_name]

/-! ## Targets -/

theorem getLast_absolute (zone target : String) : (absolute zone target).toList.getLast? = some '.' := by
  unfold absolute
  split_ifs with hat hpoint
  · exact getLast_append_point zone
  · exact hpoint
  · exact getLast_append_point (target ++ "." ++ zone)

/-- a full name is a full name in any zone -/
theorem absolute_eq_self {target : String} (h : target.toList.getLast? = some '.') (zone : String) :
    absolute zone target = target := by
  have hat : target ≠ "@" := by
    rintro rfl
    revert h
    decide
  rw [absolute, if_neg hat, if_pos h]

/-- a full name in a zone is in its final form -/
theorem clean_absolute (given target : String) :
    clean (absolute (name given) (clean target)) = absolute (name given) (clean target) := by
  unfold absolute
  split_ifs with hat hpoint
  · exact clean_append_point (head_name given) (lower_name given)
  · exact clean_clean target
  · refine clean_append_point (fun c hc => ?_) ?_
    · rw [String.toList_append, String.toList_append, List.append_assoc, List.head?_append] at hc
      cases htarget : (clean target).toList.head? with
      | none =>
        rw [htarget] at hc
        cases hc
        decide
      | some d =>
        rw [htarget] at hc
        cases hc
        exact (trimmed_clean target).1 c htarget
    · rw [Text.lower_append, Text.lower_append, lower_clean, lower_name]
      rfl

/-! ## Records -/

/-- a valid label is relative to any zone -/
theorem place_of_isLabel {label : String} (h : isLabel label = true) (zone : String) :
    place zone label = .relative label ∨ place zone label = .doubled label := by
  have hpoint : ∀ full, label ≠ full ++ "." := by
    rintro full rfl
    rw [isLabel_append_point] at h
    cases h
  rcases place_cases zone label with ⟨hlabel, -⟩ | ⟨rest, hlabel, -⟩ | ⟨full, hlabel, -⟩ | ⟨-, -, -, hplace⟩
  · rcases hlabel with hlabel | hlabel | hlabel
    · exact absurd hlabel (ne_empty_of_isLabel h)
    · exact absurd hlabel (ne_apex_of_isLabel h)
    · exact absurd hlabel (hpoint zone)
  · exact absurd hlabel (hpoint _)
  · exact absurd hlabel (hpoint full)
  · exact hplace

theorem clean_apex : clean "@" = "@" := by decide

/-- a valid label stays where it is in any zone -/
theorem place_label_of_valid {label : String} (h : label = "@" ∨ isLabel label = true) (zone : String) :
    (place zone (clean label)).label = label := by
  rcases h with rfl | h
  · rw [clean_apex]
    rfl
  · rw [clean_of_isLabel h]
    rcases place_of_isLabel h zone with hplace | hplace
    · rw [hplace, Placement.label]
    · rw [hplace, Placement.label]

/-- **A valid record in normal form stays as it is**, also when its zone gets another name -/
theorem normalizeRecord_normalizeRecord (zone given : String) {r : Record}
    (h : ValidRecord (normalizeRecord (name given) r)) :
    normalizeRecord zone (normalizeRecord (name given) r) = normalizeRecord (name given) r := by
  have hkind : Text.upper (normalizeRecord (name given) r).kind = (normalizeRecord (name given) r).kind := by
    rw [normalizeRecord_kind, Text.upper_upper]
  have hknown : Text.upper r.kind ∈ knownKinds := normalizeRecord_kind (name given) r ▸ h.known
  have hlabel : (place zone (clean (normalizeRecord (name given) r).label)).label =
      (normalizeRecord (name given) r).label :=
    place_label_of_valid (by rw [isLabel_iff]; exact h.label) zone
  have htarget : hostKinds.contains (Text.upper r.kind) = true →
      absolute zone (clean (normalizeRecord (name given) r).target) = (normalizeRecord (name given) r).target := by
    intro hhost
    rw [normalizeRecord_of_known (name given) hknown]
    simp only [if_pos hhost, clean_absolute]
    exact absolute_eq_self (getLast_absolute _ _) zone
  have httl : (normalizeRecord (name given) r).ttl ≠ 0 := by
    rw [normalizeRecord_of_known (name given) hknown]
    dsimp only
    split_ifs with hzero
    · decide
    · exact hzero
  rw [normalizeRecord_of_known zone (hkind.symm ▸ h.known), hkind, hlabel, if_neg httl, normalizeRecord_kind]
  by_cases hhost : hostKinds.contains (Text.upper r.kind) = true
  · rw [if_pos hhost, htarget hhost, ← normalizeRecord_kind (name given) r]
  · rw [if_neg hhost, ← normalizeRecord_kind (name given) r]

/-! ## Records once more -/

/-- what is found at the final form of a label and was not found at the label as it was given: what is left of a full
name may end with the name of the zone -/
def rereadFindings (zone : String) : Placement → List Finding
  | .within rest => if place zone rest = .doubled rest then [.doubledZone zone rest] else []
  | _ => []

theorem invalidLabels_eq_nil {label : String} (h : label = "@" ∨ isLabel label = true) (zone : String) :
    invalidLabels zone label = [] := by
  refine if_neg ?_
  rintro ⟨hat, hlabel⟩
  rcases h with h | h
  · exact hat h
  · simp [h] at hlabel

/-- what is found at an accepted label that is in its final form: nothing, unless it ends with the name of the zone -/
theorem labelFindings_of_valid {label : String} (h : label = "@" ∨ isLabel label = true) (zone : String) :
    labelFindings zone (place zone (clean label)) =
      if place zone label = .doubled label then [.doubledZone zone label] else [] := by
  rcases h with rfl | h
  · rw [clean_apex]
    rfl
  · have hvalid := invalidLabels_eq_nil (Or.inr h) zone
    rw [clean_of_isLabel h]
    rcases place_of_isLabel h zone with hplace | hplace
    · simp [hplace, labelFindings, Placement.label, hvalid]
    · simp [hplace, labelFindings, hvalid]

/-- the final form of an accepted label is accepted -/
theorem labelFindings_again {zone label : String} (h : Harmless (labelFindings zone (place zone label))) :
    labelFindings zone (place zone (clean (place zone label).label)) =
      rereadFindings zone (place zone label) ++ labelFindings zone (place zone label) := by
  have hvalid := (harmless_labelFindings zone label).1 h
  rw [labelFindings_of_valid hvalid]
  rcases place_cases zone label with ⟨-, hplace⟩ | ⟨rest, -, hplace⟩ | ⟨full, -, -, -, hplace⟩ |
    ⟨-, -, -, hplace | hplace⟩
  · rw [hplace]
    rfl
  · rw [hplace] at hvalid ⊢
    rw [labelFindings, invalidLabels_eq_nil hvalid, List.append_nil]
    · rfl
    all_goals
      intro _ hother
      cases hother
  · rw [hplace] at h
    simp [labelFindings, Harmless, Finding.issue, Issue.isFatal] at h
  · rw [hplace] at hvalid ⊢
    have hnothing : invalidLabels zone label = [] := invalidLabels_eq_nil hvalid zone
    simp [labelFindings, rereadFindings, Placement.label, hplace, hnothing]
  · rw [hplace] at hvalid ⊢
    have hnothing : invalidLabels zone label = [] := invalidLabels_eq_nil hvalid zone
    simp [labelFindings, rereadFindings, Placement.label, hplace, hnothing]

/-- what is found at a target is found on texts that normalization leaves as they are -/
theorem targetFindings_normalizeRecord (zone zone' label : String) (r : Record) :
    targetFindings zone (Text.upper r.kind) label (normalizeRecord zone' r).target =
      targetFindings zone (Text.upper r.kind) label r.target := by
  by_cases hhost : Text.upper r.kind ∈ hostKinds
  · have hkind : ∀ kind ∈ hostKinds, kind ≠ "A" ∧ kind ≠ "AAAA" ∧ kind ≠ "TXT" := by decide
    obtain ⟨hv4, hv6, htext⟩ := hkind _ hhost
    simp [targetFindings, hv4, hv6, htext]
  · rw [normalizeRecord_target zone' hhost]

/-- **An accepted record is in its final form once it is normalized.** A second normalization in the same zone changes no
field and finds no error; what it finds is what was found before, and in front of it, where the label was given as a full
name and what is left of it ends with the name of the zone, the warning that tells so. -/
theorem normalized_record_stays (given : String) (r : Record) (h : Harmless (recordFindings (name given) r)) :
    let zone := name given
    let s := normalizeRecord zone r
    normalizeRecord zone s = s ∧ Harmless (recordFindings zone s) ∧
      recordFindings zone s = rereadFindings zone (place zone (clean r.label)) ++ recordFindings zone r := by
  intro zone s
  have hvalid : ValidRecord s := (harmless_recordFindings zone r).1 h
  have hstays : normalizeRecord zone s = s := normalizeRecord_normalizeRecord zone given hvalid
  have hkind : s.kind = Text.upper r.kind := normalizeRecord_kind zone r
  have hknown : Text.upper r.kind ∈ knownKinds := hkind ▸ hvalid.known
  have hupper : Text.upper s.kind = Text.upper r.kind := by rw [hkind, Text.upper_upper]
  have hlabel : s.label = (place zone (clean r.label)).label := by
    rw [show s = normalizeRecord zone r from rfl, normalizeRecord_of_known zone hknown]
  refine ⟨hstays, (harmless_recordFindings zone s).2 (hstays.symm ▸ hvalid), ?_⟩
  have hfound : Harmless (labelFindings zone (place zone (clean r.label))) := by
    rw [recordFindings_of_known _ hknown, harmless_append, harmless_append] at h
    exact h.1.1
  calc recordFindings zone s = labelFindings zone (place zone (clean s.label)) ++
        targetFindings zone (Text.upper r.kind) s.label s.target ++ fieldFindings zone s := by
        rw [recordFindings_of_known zone (hupper.symm ▸ hknown), hstays, hupper]
    _ = rereadFindings zone (place zone (clean r.label)) ++ (labelFindings zone (place zone (clean r.label)) ++
        targetFindings zone (Text.upper r.kind) s.label r.target ++ fieldFindings zone s) := by
        rw [hlabel, labelFindings_again hfound, targetFindings_normalizeRecord]
        simp only [List.append_assoc]
    _ = rereadFindings zone (place zone (clean r.label)) ++ recordFindings zone r := by
        rw [recordFindings_of_known zone hknown]

/-- of a full name in capitals the name of the zone is left, about which there is a warning the second time only -/
theorem normalized_record_stays_doubled :
    let r : Record := { kind := "ns", label := " Example.com.EXAMPLE.com. ", target := "@" }
    let s : Record := { kind := "NS", label := "example.com", target := "example.com.", ttl := 300 }
    normalizeRecord (name "Example.com.") r = s ∧ recordFindings (name "Example.com.") r = [] ∧
      normalizeRecord (name "Example.com.") s = s ∧
      recordFindings (name "Example.com.") s = [.doubledZone "example.com" "example.com"] := by
  intro r s
  have hfirst : normalizeRecord (name "Example.com.") r = s := by decide +kernel
  have hnothing : recordFindings (name "Example.com.") r = [] := by decide +kernel
  obtain ⟨hstays, -, hfound⟩ := normalized_record_stays "Example.com." r (hnothing ▸ harmless_nil)
  rw [hfirst] at hstays hfound
  refine ⟨hfirst, hnothing, hstays, ?_⟩
  rw [hfound, hnothing]
  decide +kernel

/-! ## Plans -/

/-- no name of a zone ends with a blank -/
def Settled (p : Plan) : Prop :=
  ∀ d ∈ p.domains, ∀ c ∈ d.name.toList.getLast?, Text.isBlank c = false

instance (p : Plan) : Decidable (Settled p) :=
  decidable_of_iff (∀ d ∈ p.domains, d.name.toList.getLast?.all (fun c => !Text.isBlank c) = true)
    (by simp [Settled, Option.all_eq_true])

/-- a second normalization of a domain changes its name at most -/
theorem normalizeDomain_normalizeDomain {d : Domain} (h : ∀ r ∈ (normalizeDomain d).records, ValidRecord r) :
    normalizeDomain (normalizeDomain d) = { normalizeDomain d with name := name (name d.name) } := by
  have hrecords :
      (normalizeDomain d).records.map (normalizeRecord (name (name d.name))) = (normalizeDomain d).records := by
    rw [normalizeDomain_records, List.map_map]
    refine List.map_congr_left fun r hr => ?_
    have hmem : normalizeRecord (name d.name) r ∈ (normalizeDomain d).records := List.mem_map_of_mem hr
    rw [Function.comp_apply]
    exact normalizeRecord_normalizeRecord (name (name d.name)) d.name (h _ hmem)
  rw [normalizeDomain, normalizeDomain_name, hrecords]

/-- **A valid plan in normal form stays as it is** exactly if no name of a zone ends with a blank -/
theorem normalize_normalize {p : Plan} (h : Valid (normalize p)) :
    normalize (normalize p) = normalize p ↔ Settled (normalize p) := by
  have hdomain : ∀ d ∈ p.domains, normalizeDomain (normalizeDomain d) = normalizeDomain d ↔
      ∀ c ∈ (normalizeDomain d).name.toList.getLast?, Text.isBlank c = false := by
    intro d hd
    have hmem : normalizeDomain d ∈ (normalize p).domains := List.mem_map_of_mem hd
    rw [normalizeDomain_normalizeDomain (h.domains _ hmem).records, normalizeDomain_name, ← name_name]
    constructor
    · intro heq
      have hname := congrArg Domain.name heq
      rwa [normalizeDomain_name] at hname
    · intro heq
      rw [heq, ← normalizeDomain_name d]
  have hplan : normalize (normalize p) = normalize p ↔
      ∀ d ∈ p.domains, normalizeDomain (normalizeDomain d) = normalizeDomain d := by
    rw [normalize, normalize, Plan.mk.injEq, List.map_map]
    simp [List.map_inj_left]
  rw [hplan, Settled, normalize, List.forall_mem_map]
  exact forall₂_congr hdomain

end ZonePlan.Zone
