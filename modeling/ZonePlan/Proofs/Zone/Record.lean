/-
When a record is found without error.

What is found at a record (`recordFindings`) is found on the way to its normal form, partly on the text as it was
given. All the same the result depends on the normal form alone: nothing that is found is an error exactly if the
record in normal form is a valid one (`harmless_recordFindings`). A name outside the zone has a finding of its own,
and is never a valid label.
-/
import ZonePlan.Proofs.Zone.Label
import ZonePlan.Zone.Normalization

namespace ZonePlan.Zone

/-! ## Findings without errors -/

/-- nothing that is found is an error -/
def Harmless (fs : List Finding) : Prop := ∀ f ∈ fs, f.issue.isFatal = false

instance (fs : List Finding) : Decidable (Harmless fs) :=
  inferInstanceAs (Decidable (∀ f ∈ fs, f.issue.isFatal = false))

@[simp] theorem harmless_nil : Harmless [] := by
  simp [Harmless]

@[simp] theorem harmless_cons (f : Finding) (fs : List Finding) :
    Harmless (f :: fs) ↔ f.issue.isFatal = false ∧ Harmless fs :=
  List.forall_mem_cons

@[simp] theorem harmless_append (fs gs : List Finding) : Harmless (fs ++ gs) ↔ Harmless fs ∧ Harmless gs :=
  List.forall_mem_append

theorem harmless_map {α : Type} {f : α → Finding} (hf : ∀ x, (f x).issue.isFatal = true) (xs : List α) :
    Harmless (xs.map f) ↔ xs = [] := by
  cases xs with
  | nil => simp
  | cons x xs => simp [hf]

theorem harmless_flatMap {α : Type} (f : α → List Finding) (xs : List α) :
    Harmless (xs.flatMap f) ↔ ∀ x ∈ xs, Harmless (f x) := by
  induction xs with
  | nil => simp
  | cons x xs ih => simp [ih]

attribute [local simp] Finding.issue Issue.isFatal

/-! ## Valid records -/

/-- a record that can be published -/
structure ValidRecord (r : Record) : Prop where
  known : r.kind ∈ knownKinds
  label : r.label = "@" ∨ ValidLabel r.label
  v4 : r.kind = "A" → Address.isV4 r.target = true
  v6 : r.kind = "AAAA" → Address.isV6 r.target = true
  off_apex : r.kind = "CNAME" → r.label ≠ "@"
  preference : r.kind = "MX" → r.preference?.isSome = true
  service : r.kind = "SRV" → r.priority?.isSome = true ∧ r.weight?.isSome = true ∧ r.port?.isSome = true

theorem harmless_invalidLabels (zone label : String) :
    Harmless (invalidLabels zone label) ↔ label = "@" ∨ isLabel label = true := by
  by_cases hapex : label = "@"
  · simp [invalidLabels, hapex]
  · by_cases hlabel : isLabel label = true <;> simp [invalidLabels, hapex, hlabel]

/-- wherever a label stands, it is found without error exactly if its final form is valid -/
theorem harmless_labelFindings (zone label : String) :
    Harmless (labelFindings zone (place zone label)) ↔
      (place zone label).label = "@" ∨ isLabel (place zone label).label = true := by
  rcases place_cases zone label with ⟨-, h⟩ | ⟨rest, -, h⟩ | ⟨full, hfull, -, -, h⟩ | ⟨-, -, -, h | h⟩
  · simp [h, labelFindings, harmless_invalidLabels]
  · simp [h, labelFindings, harmless_invalidLabels]
  · have hat : label ≠ "@" := by
      rintro rfl
      have := congrArg (fun s => s.toList.getLast?) hfull
      simp at this
    simp [h, labelFindings, Placement.label, hat, hfull ▸ isLabel_append_point full]
  · simp [h, labelFindings, harmless_invalidLabels]
  · simp [h, labelFindings, harmless_invalidLabels, Placement.label]

theorem harmless_targetFindings (zone kind label target : String) :
    Harmless (targetFindings zone kind label target) ↔
      (kind = "A" → Address.isV4 target = true) ∧ (kind = "AAAA" → Address.isV6 target = true) := by
  unfold targetFindings
  by_cases h4 : kind = "A"
  · subst h4
    by_cases hv : Address.isV4 target = true <;> simp [hv]
  · by_cases h6 : kind = "AAAA"
    · subst h6
      by_cases hv : Address.isV6 target = true <;> simp [hv]
    · simp only [h4, h6, false_and, ite_false, false_imp_iff, and_self, iff_true]
      split_ifs <;> simp

theorem harmless_fieldFindings (zone : String) (r : Record) :
    Harmless (fieldFindings zone r) ↔
      (r.kind = "CNAME" → r.label ≠ "@") ∧ (r.kind = "MX" → r.preference?.isSome = true) ∧
        (r.kind = "SRV" → r.priority?.isSome = true ∧ r.weight?.isSome = true ∧ r.port?.isSome = true) := by
  unfold fieldFindings
  by_cases hcname : r.kind = "CNAME"
  · by_cases hat : r.label = "@" <;> simp [hcname, hat]
  · by_cases hmx : r.kind = "MX"
    · cases r.preference? <;> simp [hmx]
    · by_cases hsrv : r.kind = "SRV"
      · cases r.priority? <;> cases r.weight? <;> cases r.port? <;>
          simp [hsrv]
      · simp [hcname, hmx, hsrv]

/-! ## Normal forms of records -/

/-- the normal form of a record of a known kind -/
theorem normalizeRecord_of_known (zone : String) {r : Record} (h : Text.upper r.kind ∈ knownKinds) :
    normalizeRecord zone r =
      { r with
        kind := Text.upper r.kind
        label := (place zone (clean r.label)).label
        target := if hostKinds.contains (Text.upper r.kind) then absolute zone (clean r.target) else r.target
        ttl := if r.ttl = 0 then defaultTtl else r.ttl } :=
  if_pos (List.contains_iff_mem.2 h)

/-- a record of an unknown kind only has its kind in normal form -/
theorem normalizeRecord_of_unknown (zone : String) {r : Record} (h : Text.upper r.kind ∉ knownKinds) :
    normalizeRecord zone r = { r with kind := Text.upper r.kind } :=
  if_neg fun hcontains => h (List.contains_iff_mem.1 hcontains)

theorem normalizeRecord_kind (zone : String) (r : Record) : (normalizeRecord zone r).kind = Text.upper r.kind := by
  by_cases h : Text.upper r.kind ∈ knownKinds
  · rw [normalizeRecord_of_known zone h]
  · rw [normalizeRecord_of_unknown zone h]

/-- a target that is no host name stays as it is given -/
theorem normalizeRecord_target (zone : String) {r : Record} (h : Text.upper r.kind ∉ hostKinds) :
    (normalizeRecord zone r).target = r.target := by
  by_cases hknown : Text.upper r.kind ∈ knownKinds
  · rw [normalizeRecord_of_known zone hknown]
    exact if_neg fun hcontains => h (List.contains_iff_mem.1 hcontains)
  · rw [normalizeRecord_of_unknown zone hknown]

theorem recordFindings_of_known (zone : String) {r : Record} (h : Text.upper r.kind ∈ knownKinds) :
    recordFindings zone r =
      labelFindings zone (place zone (clean r.label)) ++
        targetFindings zone (Text.upper r.kind) (normalizeRecord zone r).label r.target ++
        fieldFindings zone (normalizeRecord zone r) := by
  rw [← normalizeRecord_kind zone r] at h ⊢
  exact if_pos (List.contains_iff_mem.2 h)

theorem recordFindings_of_unknown (zone : String) {r : Record} (h : Text.upper r.kind ∉ knownKinds) :
    recordFindings zone r = [.unknownKind zone (Text.upper r.kind) r.label] := by
  rw [← normalizeRecord_kind zone r] at h ⊢
  exact if_neg fun hcontains => h (List.contains_iff_mem.1 hcontains)

/-- **A record is found without error exactly if its normal form is valid** -/
theorem harmless_recordFindings (zone : String) (r : Record) :
    Harmless (recordFindings zone r) ↔ ValidRecord (normalizeRecord zone r) := by
  have hkind := normalizeRecord_kind zone r
  by_cases hknown : Text.upper r.kind ∈ knownKinds
  · have hlabel : (normalizeRecord zone r).label = (place zone (clean r.label)).label := by
      rw [normalizeRecord_of_known zone hknown]
    have h4 : Text.upper r.kind = "A" → (normalizeRecord zone r).target = r.target := fun h =>
      normalizeRecord_target zone (by rw [h]; decide)
    have h6 : Text.upper r.kind = "AAAA" → (normalizeRecord zone r).target = r.target := fun h =>
      normalizeRecord_target zone (by rw [h]; decide)
    rw [recordFindings_of_known zone hknown, harmless_append, harmless_append, harmless_labelFindings,
      harmless_targetFindings, harmless_fieldFindings, ← hlabel, isLabel_iff, ← hkind]
    rw [← hkind] at h4 h6 hknown
    constructor
    · rintro ⟨⟨hlabel, hv4, hv6⟩, hcname, hmx, hsrv⟩
      exact ⟨hknown, hlabel, fun h => (h4 h).symm ▸ hv4 h, fun h => (h6 h).symm ▸ hv6 h, hcname, hmx, hsrv⟩
    · intro h
      exact ⟨⟨h.label, fun hk => h4 hk ▸ h.v4 hk, fun hk => h6 hk ▸ h.v6 hk⟩, h.off_apex, h.preference, h.service⟩
  · rw [recordFindings_of_unknown zone hknown]
    constructor
    · intro h
      simp at h
    · intro h
      exact absurd (hkind ▸ h.known) hknown

end ZonePlan.Zone
