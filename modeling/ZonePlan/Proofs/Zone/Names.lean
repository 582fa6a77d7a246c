/-
Names as lists of labels.

A name lies in a zone, or is that of the zone, exactly if the labels of the zone are the last labels of the name
(`labels_suffix_iff`); as the labels are compared as wholes, `12.0.192` is not taken for a name in `2.0.192`. Of a
plain name, whose labels are all valid parts, what is placed in a zone by its full name is settled by that
(`place_of_plain`): inside, the label in front of the zone is left, or the apex mark, and nothing is found; outside,
nothing else is found than that.
-/
import ZonePlan.Proofs.Zone.NormalForm
import ZonePlan.Proofs.Zone.Placement

namespace ZonePlan.Zone

/-! ## Labels -/

/-- the labels of a name, in the order in which they are written -/
def labels (full : String) : List (List Char) := Text.cutAll '.' full.toList

theorem labels_ne_nil (full : String) : labels full ≠ [] := cutAll_ne_nil '.' full.toList

theorem labels_append (rest zone : String) : labels (rest ++ "." ++ zone) = labels rest ++ labels zone := by
  have hcut := List.splitOn_append_cons_self rest.toList (a := '.') zone.toList
  simpa [labels, Text.cutAll_eq_splitOn] using hcut

/-- texts without points are the first labels of a name that they are joined to -/
theorem labels_joinWith {ss : List String} (h : ∀ s ∈ ss, '.' ∉ s.toList) (parent : String) :
    labels (Text.joinWith "." (ss ++ [parent])) = ss.map String.toList ++ labels parent := by
  induction ss with
  | nil => rfl
  | cons s ss ih =>
    obtain ⟨hs, hss⟩ := List.forall_mem_cons.1 h
    have hjoin : Text.joinWith "." (s :: ss ++ [parent]) = s ++ "." ++ Text.joinWith "." (ss ++ [parent]) :=
      Text.joinWith_cons (by simp)
    have hlabel : labels s = [s.toList] := by
      rw [labels, Text.cutAll_eq_splitOn]
      exact List.splitOn_eq_singleton hs
    rw [hjoin, labels_append, ih hss, hlabel]
    rfl

/-- a text is made of its pieces -/
theorem intercalate_labels (full : String) : ['.'].intercalate (labels full) = full.toList := by
  rw [labels, Text.cutAll_eq_splitOn]
  exact List.intercalate_splitOn '.'

/-- pieces in front of others are the pieces of a text in front of a separator -/
theorem intercalate_append {separator : List Char} {front back : List (List Char)} (hfront : front ≠ [])
    (hback : back ≠ []) :
    separator.intercalate (front ++ back) = separator.intercalate front ++ separator ++ separator.intercalate back := by
  induction front with
  | nil => exact absurd rfl hfront
  | cons piece front ih =>
    cases front with
    | nil => simp [List.intercalate_cons_of_ne_nil hback]
    | cons next front =>
      rw [List.cons_append, List.intercalate_cons_of_ne_nil (by simp), ih (List.cons_ne_nil next front)]
      rw [List.intercalate_cons_of_ne_nil (List.cons_ne_nil next front)]
      simp only [List.append_assoc]

/-- a name is that of a zone or lies in it exactly if the labels of the zone are its last ones -/
theorem labels_suffix_iff (zone full : String) :
    labels zone <:+ labels full ↔ full = zone ∨ ∃ rest, full = rest ++ "." ++ zone := by
  constructor
  · intro h
    obtain ⟨front, hfront⟩ := h
    have hfull : full.toList = ['.'].intercalate (front ++ labels zone) := by rw [hfront, intercalate_labels]
    by_cases hempty : front = []
    · left
      rw [← String.toList_inj, hfull, hempty, List.nil_append, intercalate_labels]
    · right
      refine ⟨String.ofList (['.'].intercalate front), ?_⟩
      rw [← String.toList_inj, hfull, intercalate_append hempty (labels_ne_nil zone), intercalate_labels]
      simp
  · intro h
    rcases h with rfl | ⟨rest, rfl⟩
    · exact List.suffix_refl _
    · rw [labels_append]
      exact List.suffix_append _ _

/-! ## Plain names -/

/-- a name all of whose labels are valid parts -/
def PlainName (full : String) : Prop := ∀ part ∈ labels full, IsPart part

theorem PlainName.isLabel {full : String} (h : PlainName full) : isLabel full = true := by
  obtain ⟨first, rest, hlabels⟩ := List.exists_cons_of_ne_nil (labels_ne_nil full)
  have hparts := List.forall_mem_cons.1 (show ∀ part ∈ first :: rest, IsPart part from hlabels ▸ h)
  exact (isLabel_iff full).2 ⟨first, rest, hlabels, Or.inr hparts.1, hparts.2⟩

/-- a valid label without a star is plain -/
theorem plainName_of_isLabel {full : String} (h : isLabel full = true) (hstar : '*' ∉ full.toList) :
    PlainName full := by
  obtain ⟨first, rest, hlabels, hfirst, hrest⟩ := (isLabel_iff full).1 h
  intro part hpart
  rw [labels, hlabels] at hpart
  rcases List.mem_cons.1 hpart with rfl | hpart
  · rcases hfirst with rfl | hfirst
    · refine absurd ?_ hstar
      rw [← intercalate_labels, labels, hlabels]
      cases rest <;> simp [List.intercalate_cons_of_ne_nil]
    · exact hfirst
  · exact hrest part hpart

theorem PlainName.of_append {rest zone : String} (h : PlainName (rest ++ "." ++ zone)) : PlainName rest := by
  intro part hpart
  apply h
  rw [labels_append]
  exact List.mem_append_left _ hpart

/-- a valid label is in the form of the name of a zone -/
theorem name_of_isLabel {label : String} (h : isLabel label = true) : name label = label := by
  have hlast : ∀ c ∈ label.toList.getLast?, (c == '.') = false := by
    intro c hc
    rcases accepts_last h c hc with hedge | rfl
    · rw [beq_eq_false_iff_ne]
      rintro rfl
      exact absurd hedge (by decide)
    · decide
  rw [name, Text.trimChars_eq_self_iff.2 (trimmed_of_isLabel h), Text.dropTrailing_eq_self hlast, String.ofList_toList,
    lower_of_isLabel h]

/-- **A plain name with a point at its end**, placed in a zone: what is left of it inside is the apex mark or a valid
label, without a finding; outside, that is found and nothing else -/
theorem place_of_plain {zone full : String} (hfull : PlainName full) :
    let placed := place zone (clean (full ++ "."))
    (labels zone <:+ labels full → labelFindings zone placed = [] ∧
      ((full = zone ∧ placed.label = "@") ∨
        (full ≠ zone ∧ isLabel placed.label = true ∧ placed.label ++ "." ++ zone = full))) ∧
    (¬labels zone <:+ labels full → labelFindings zone placed = [.outsideZone zone (full ++ ".")]) := by
  intro placed
  have hclean : clean (full ++ ".") = full ++ "." :=
    clean_append_point (trimmed_of_isLabel hfull.isLabel).1 (lower_of_isLabel hfull.isLabel)
  have hplaced : placed = place zone (full ++ ".") := congrArg (place zone) hclean
  rw [hplaced, labels_suffix_iff]
  rcases place_cases zone (full ++ ".") with ⟨hlabel, hplace⟩ | ⟨rest, hlabel, hplace⟩ |
    ⟨front, hlabel, hzone, hrest, hplace⟩ | ⟨-, -, hpoint, -⟩
  · have hsame : full = zone := by
      rcases hlabel with hlabel | hlabel | hlabel
      · exact absurd (Or.inl hlabel) (append_point_ne full)
      · exact absurd (Or.inr hlabel) (append_point_ne full)
      · exact (String.append_left_inj _).1 hlabel
    rw [hplace]
    exact ⟨fun _ => ⟨rfl, Or.inl ⟨hsame, rfl⟩⟩, fun hout => absurd (Or.inl hsame) hout⟩
  · obtain rfl : full = rest ++ "." ++ zone := (String.append_left_inj _).1 hlabel
    have hvalid : isLabel rest = true := hfull.of_append.isLabel
    have hfound : labelFindings zone (.within rest) = [] := by
      simp [labelFindings, invalidLabels, Placement.label, hvalid]
    rw [hplace]
    refine ⟨fun _ => ⟨hfound, Or.inr ⟨?_, hvalid, rfl⟩⟩, fun hout => absurd (Or.inr ⟨rest, rfl⟩) hout⟩
    exact (ne_within_self rest zone).symm
  · obtain rfl : full = front := (String.append_left_inj _).1 hlabel
    rw [hplace]
    refine ⟨fun hin => ?_, fun _ => rfl⟩
    rcases hin with hsame | ⟨rest, hsame⟩
    · exact absurd hsame hzone
    · exact absurd hsame (hrest rest)
  · exact absurd rfl (hpoint full)

end ZonePlan.Zone
