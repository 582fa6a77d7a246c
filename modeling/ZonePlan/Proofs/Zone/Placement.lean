/-
Which name in the DNS a label stands for, before and after it is brought into normal form.

A label and its normal form should stand for one name (`fullName`). They do, with one exception: the full name `@.` in
front of the zone. What is left of it is `@`, which is read as the zone itself from then on, and no error tells so
(`fullName_normalizeRecord`, `apex_mark_moves`). A full name outside the zone is found in every case and is never
taken for another name.
-/
import ZonePlan.Proofs.Zone.Record

namespace ZonePlan.Zone

/-! ## Full names -/

/-- the name that a label in small letters without blanks around it stands for in a zone -/
def fullName (zone label : String) : String :=
  if label = "" ∨ label = "@" then zone
  else
    match Text.dropSuffix? ['.'] label.toList with
    | some full => String.ofList full
    | none => label ++ "." ++ zone

/-- a full name that is neither that of the zone nor of something in it -/
def Outside (zone label : String) : Prop :=
  ∃ full, label = full ++ "." ∧ full ≠ zone ∧ ∀ rest, full ≠ rest ++ "." ++ zone

theorem fullName_apex {zone label : String} (h : label = "" ∨ label = "@") : fullName zone label = zone :=
  if_pos h

theorem append_point_ne (full : String) : ¬(full ++ "." = "" ∨ full ++ "." = "@") := by
  rintro (h | h)
  · simpa using congrArg String.toList h
  · simpa using congrArg (fun s => s.toList.getLast?) h

/-- no name lies within itself -/
theorem ne_within_self (rest zone : String) : zone ≠ rest ++ "." ++ zone := by
  intro h
  have := congrArg String.length h
  simp only [String.length_append] at this
  have hpoint : ".".length = 1 := rfl
  omega

theorem fullName_point (zone full : String) : fullName zone (full ++ ".") = full := by
  have hdrop : Text.dropSuffix? ['.'] (full ++ ".").toList = some full.toList :=
    dropSuffix?_point.2 (by rw [String.ofList_toList])
  rw [fullName, if_neg (append_point_ne full), hdrop]
  exact String.ofList_toList

theorem fullName_relative {zone label : String} (hempty : label ≠ "") (hat : label ≠ "@")
    (hpoint : ∀ full, label ≠ full ++ ".") : fullName zone label = label ++ "." ++ zone := by
  have hdrop : Text.dropSuffix? ['.'] label.toList = none := by
    rw [Option.eq_none_iff_forall_ne_some]
    intro full hfull
    exact hpoint _ (dropSuffix?_point.1 hfull)
  rw [fullName, if_neg (not_or.2 ⟨hempty, hat⟩), hdrop]

theorem fullName_of_isLabel {zone label : String} (h : isLabel label = true) :
    fullName zone label = label ++ "." ++ zone := by
  refine fullName_relative (ne_empty_of_isLabel h) (ne_apex_of_isLabel h) fun full hfull => ?_
  rw [hfull, isLabel_append_point] at h
  cases h

/-! ## Places and names -/

/-- where a label stands, its final form stands for the same name unless it is an apex mark in front of the zone -/
theorem fullName_place {zone label : String}
    (h : (place zone label).label = "@" ∨ isLabel (place zone label).label = true) :
    fullName zone (place zone label).label = fullName zone label ↔ label ≠ "@." ++ zone ++ "." := by
  have hmark : "@." ++ zone ++ "." = ("@" ++ "." ++ zone) ++ "." := rfl
  rcases place_cases zone label with ⟨hlabel, hplace⟩ | ⟨rest, hlabel, hplace⟩ |
    ⟨full, hlabel, hzone, hrest, hplace⟩ | ⟨hempty, hat, hpoint, hplace⟩
  · -- the zone itself, in any of its spellings
    rw [hplace, Placement.label, fullName_apex (Or.inr rfl)]
    rcases hlabel with hlabel | hlabel | hlabel
    · refine iff_of_true (fullName_apex (Or.inl hlabel)).symm ?_
      rw [hlabel, hmark]
      exact fun he => append_point_ne _ (Or.inl he.symm)
    · refine iff_of_true (fullName_apex (Or.inr hlabel)).symm ?_
      rw [hlabel, hmark]
      exact fun he => append_point_ne _ (Or.inr he.symm)
    · rw [hlabel, hmark]
      exact iff_of_true (fullName_point zone zone).symm fun he =>
        ne_within_self "@" zone ((String.append_left_inj _).1 he)
  · rw [hplace, Placement.label] at h ⊢
    rw [hlabel, fullName_point, hmark]
    rcases h with hrest | hrest
    · subst hrest
      refine iff_of_false (fun he => ?_) fun hne => hne rfl
      rw [fullName_apex (Or.inr rfl)] at he
      exact ne_within_self "@" zone he
    · refine iff_of_true (fullName_of_isLabel hrest) fun he => ne_apex_of_isLabel hrest ?_
      rwa [String.append_left_inj, String.append_left_inj, String.append_left_inj] at he
  · rw [hplace, Placement.label]
    refine iff_of_true rfl ?_
    rw [hlabel, hmark]
    exact fun he => hrest "@" ((String.append_left_inj _).1 he)
  · have hfinal : (place zone label).label = label := by
      rcases hplace with hplace | hplace <;> rw [hplace, Placement.label]
    rw [hfinal]
    exact iff_of_true rfl (hpoint _)

theorem outsideZone_mem_invalidLabels (z l zone label : String) : .outsideZone z l ∉ invalidLabels zone label := by
  unfold invalidLabels
  split_ifs <;> simp

/-- a label is found outside the zone exactly if its full name is outside -/
theorem outsideZone_mem_labelFindings (z l zone label : String) :
    .outsideZone z l ∈ labelFindings zone (place zone label) ↔ z = zone ∧ l = label ∧ Outside zone label := by
  rcases place_cases zone label with ⟨hlabel, hplace⟩ | ⟨rest, hlabel, hplace⟩ |
    ⟨full, hlabel, hzone, hrest, hplace⟩ | ⟨hempty, hat, hpoint, hplace⟩
  · rw [hplace]
    refine iff_of_false (outsideZone_mem_invalidLabels z l zone _) ?_
    rintro ⟨-, -, full, hfull, hzone, -⟩
    rcases hlabel with hlabel | hlabel | hlabel
    · exact append_point_ne full (Or.inl (hfull ▸ hlabel))
    · exact append_point_ne full (Or.inr (hfull ▸ hlabel))
    · exact hzone ((String.append_left_inj _).1 (hfull ▸ hlabel))
  · rw [hplace]
    refine iff_of_false (outsideZone_mem_invalidLabels z l zone _) ?_
    rintro ⟨-, -, full, hfull, -, hrest⟩
    exact hrest rest ((String.append_left_inj _).1 (hfull ▸ hlabel))
  · rw [hplace, labelFindings, List.mem_singleton, Finding.outsideZone.injEq]
    exact and_congr_right fun _ => (and_iff_left ⟨full, hlabel, hzone, hrest⟩).symm
  · refine iff_of_false (fun hmem => ?_) fun hout => ?_
    · rcases hplace with hplace | hplace
      · rw [hplace] at hmem
        exact outsideZone_mem_invalidLabels z l zone _ hmem
      · rw [hplace, labelFindings, List.mem_cons] at hmem
        rcases hmem with hmem | hmem
        · cases hmem
        · exact outsideZone_mem_invalidLabels z l zone _ hmem
    · obtain ⟨-, -, full, hfull, -⟩ := hout
      exact hpoint full hfull

/-! ## Records -/

theorem outsideZone_mem_recordFindings (z l zone : String) {r : Record} (hknown : Text.upper r.kind ∈ knownKinds) :
    .outsideZone z l ∈ recordFindings zone r ↔ .outsideZone z l ∈ labelFindings zone (place zone (clean r.label)) := by
  have htarget : ∀ kind label target, .outsideZone z l ∉ targetFindings zone kind label target := by
    intro kind label target
    unfold targetFindings
    split_ifs <;> simp
  have hfield : ∀ s : Record, .outsideZone z l ∉ fieldFindings zone s := by
    intro s
    unfold fieldFindings
    split_ifs <;> simp
  rw [recordFindings_of_known zone hknown, List.mem_append, List.mem_append]
  simp [htarget, hfield]

/-- **What becomes of the name of a record**: without an error, its label stands for the name that it stood for,
unless it was given as an apex mark in front of the zone; and a record is said to be outside the zone exactly if its
full name is -/
theorem fullName_normalizeRecord (zone : String) (r : Record) (hknown : Text.upper r.kind ∈ knownKinds) :
    (Harmless (recordFindings zone r) →
      (fullName zone (normalizeRecord zone r).label = fullName zone (clean r.label) ↔
        clean r.label ≠ "@." ++ zone ++ ".")) ∧
    ∀ z l, .outsideZone z l ∈ recordFindings zone r ↔ z = zone ∧ l = clean r.label ∧ Outside zone (clean r.label) := by
  constructor
  · intro hfound
    have hlabel : (normalizeRecord zone r).label = (place zone (clean r.label)).label := by
      rw [normalizeRecord_of_known zone hknown]
    have hvalid := (harmless_recordFindings zone r).1 hfound
    rw [hlabel]
    refine fullName_place ?_
    rw [← hlabel, isLabel_iff]
    exact hvalid.label
  · intro z l
    rw [outsideZone_mem_recordFindings z l zone hknown, outsideZone_mem_labelFindings]

/-- a full name in capitals with blanks around it keeps its place -/
theorem fullName_normalizeRecord_www :
    let r : Record := { kind := "a", label := " WWW.Example.com. ", target := "192.0.2.1" }
    Text.upper r.kind ∈ knownKinds ∧
      fullName (name "example.com") (normalizeRecord (name "example.com") r).label = "www.example.com" ∧
      .outsideZone "example.com" "www.example.com." ∉ recordFindings (name "example.com") r := by
  intro r
  have hknown : Text.upper r.kind ∈ knownKinds := by decide
  obtain ⟨hname, houtside⟩ := fullName_normalizeRecord (name "example.com") r hknown
  have hclean : clean r.label = "www.example.com." := by decide
  have hfull : fullName (name "example.com") (clean r.label) = "www.example.com" := by decide
  refine ⟨hknown, ?_, fun hmem => ?_⟩
  · exact ((hname (by decide)).2 (by decide)).trans hfull
  · obtain ⟨-, -, full, hlabel, -, hrest⟩ := (houtside _ _).1 hmem
    refine hrest "www" ((String.append_left_inj ".").1 ?_)
    rw [← hlabel, hclean]
    decide

/-- an apex mark in front of the zone is a name of its own, and its record is put at the zone without an error -/
theorem apex_mark_moves :
    ¬∀ (given : String) (r : Record), Text.upper r.kind ∈ knownKinds → Harmless (recordFindings (name given) r) →
      fullName (name given) (normalizeRecord (name given) r).label = fullName (name given) (clean r.label) := by
  intro h
  have hkeeps := h "example.com" { kind := "A", label := "@.example.com.", target := "192.0.2.1" } (by decide)
    (by decide)
  revert hkeeps
  decide

end ZonePlan.Zone
