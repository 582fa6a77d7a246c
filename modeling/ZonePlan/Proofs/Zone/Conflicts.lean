/-
What is found of conflicts among the records of a domain, record by record (`conflicts_exact`).

The pass over the records remembers which labels it has reported and which identities it has seen. Both are told by
the records in front (`Remembers`): the reported labels are those of the CNAME records there that are not alone at their
label. How many records stand at a label is the same wherever the pass is, so an earlier CNAME record at the label of
one that is not alone is not alone either, and its label is reported.

How many conflicts there are does not depend on their order, so they are counted in the passes over labels and
identities that they are made of (`conflictsAfter_perm`).
-/
import ZonePlan.Proofs.Zone.Order

namespace ZonePlan.Zone

variable {d : Domain}

/-! ## Records by their places -/

/-- the record at a place is a CNAME record, another place has a record of its label, and no earlier place has a CNAME
record of this label -/
def SharesFirst (d : Domain) (i : Fin d.records.length) : Prop :=
  d.records[i].kind = "CNAME" ∧ (∃ j, j ≠ i ∧ d.records[j].label = d.records[i].label) ∧
    ∀ j < i, d.records[j].kind = "CNAME" → d.records[j].label ≠ d.records[i].label

/-- an earlier place has a record that nothing tells from the one at a place -/
def Repeats (d : Domain) (i : Fin d.records.length) : Prop :=
  ∃ j < i, identity d.records[j] = identity d.records[i]

instance (d : Domain) (i : Fin d.records.length) : Decidable (SharesFirst d i) :=
  inferInstanceAs (Decidable (_ ∧ _ ∧ _))

instance (d : Domain) (i : Fin d.records.length) : Decidable (Repeats d i) :=
  inferInstanceAs (Decidable (∃ _, _))

/-- what is found at the record at a place -/
def conflictsAt (d : Domain) (i : Fin d.records.length) : List Finding :=
  (if SharesFirst d i then [.sharedAlias d.name d.records[i].label] else []) ++
    if Repeats d i then [.repeatedRecord d.name d.records[i].text] else []

/-- how many records stand at a label, by their places -/
theorem length_recordsAt (d : Domain) (label : String) :
    (d.recordsAt label).length =
      (Finset.univ.filter fun j : Fin d.records.length => d.records[j].label = label).card := by
  have hrecords : (List.finRange d.records.length).map (d.records[·]) = d.records := List.map_get_finRange d.records
  rw [Domain.recordsAt]
  conv_lhs => rw [← hrecords]
  rw [List.filter_map, List.length_map, ← List.toFinset_card_of_nodup]
  · congr 1
    ext j
    simp
  · exact (List.nodup_finRange _).filter _

theorem one_lt_recordsAt_iff (i : Fin d.records.length) :
    1 < (d.recordsAt d.records[i].label).length ↔ ∃ j, j ≠ i ∧ d.records[j].label = d.records[i].label := by
  rw [length_recordsAt]
  constructor
  · intro h
    obtain ⟨j, hj, hne⟩ := (Finset.one_lt_card_iff_nontrivial.1 h).exists_ne i
    exact ⟨j, hne, (Finset.mem_filter.1 hj).2⟩
  · rintro ⟨j, hne, hj⟩
    exact Finset.one_lt_card.2 ⟨j, by simpa using hj, i, by simp, hne⟩

/-! ## The pass over the records -/

/-- what the pass knows in front of a place -/
structure Remembers (d : Domain) (k : Nat) (reported : List String) (seen : List Identity) : Prop where
  reported : ∀ label, label ∈ reported ↔
    ∃ j : Fin d.records.length, j < k ∧ Shared d d.records[j] ∧ d.records[j].label = label
  seen : ∀ x, x ∈ seen ↔ ∃ j : Fin d.records.length, j < k ∧ identity d.records[j] = x

theorem remembers_nothing (d : Domain) : Remembers d 0 [] [] where
  reported := by simp
  seen := by simp

variable {k : Nat} {reported : List String} {seen : List Identity}

/-- a place in front of the next one is in front of this one or is this one -/
theorem exists_lt_succ {n : Nat} (hk : k < n) {p : Fin n → Prop} :
    (∃ j : Fin n, j < k + 1 ∧ p j) ↔ p ⟨k, hk⟩ ∨ ∃ j : Fin n, j < k ∧ p j := by
  constructor
  · rintro ⟨j, hj, hp⟩
    rcases Nat.lt_succ_iff_lt_or_eq.1 hj with hj | hj
    · exact Or.inr ⟨j, hj, hp⟩
    · obtain rfl : j = ⟨k, hk⟩ := Fin.ext hj
      exact Or.inl hp
  · rintro (hp | ⟨j, hj, hp⟩)
    · exact ⟨⟨k, hk⟩, Nat.lt_succ_self k, hp⟩
    · exact ⟨j, Nat.lt_succ_of_lt hj, hp⟩

namespace Remembers

variable (h : Remembers d k reported seen) (hk : k < d.records.length)
include h

/-- a label is reported exactly at the first CNAME record there, if it is not alone -/
theorem reports_iff :
    (Shared d d.records[k] ∧ d.records[k].label ∉ reported) ↔ SharesFirst d ⟨k, hk⟩ := by
  rw [Shared, SharesFirst, and_assoc, h.reported]
  refine and_congr_right fun _ => ?_
  rw [← one_lt_recordsAt_iff ⟨k, hk⟩]
  refine and_congr_right fun hcount => ?_
  simp only [not_exists, not_and]
  constructor
  · intro hnone j hj hkind hlabel
    refine hnone j hj ⟨hkind, ?_⟩ hlabel
    rw [hlabel]
    exact hcount
  · intro hfirst j hj hshared hlabel
    exact hfirst j hj hshared.1 hlabel

theorem repeats_iff : identity d.records[k] ∈ seen ↔ Repeats d ⟨k, hk⟩ := h.seen _

/-- what is known behind a record -/
theorem step :
    Remembers d (k + 1)
      (if Shared d d.records[k] ∧ d.records[k].label ∉ reported then d.records[k].label :: reported else reported)
      (identity d.records[k] :: seen) := by
  refine ⟨fun label => ?_, fun x => ?_⟩
  · rw [exists_lt_succ hk, ← h.reported]
    by_cases hfirst : Shared d d.records[k] ∧ d.records[k].label ∉ reported
    · rw [if_pos hfirst, List.mem_cons, eq_comm]
      exact or_congr_left (and_iff_right hfirst.1).symm
    · rw [if_neg hfirst]
      refine (or_iff_right_of_imp ?_).symm
      rintro ⟨hshared, rfl⟩
      by_contra hnew
      exact hfirst ⟨hshared, hnew⟩
  · rw [exists_lt_succ hk, ← h.seen, List.mem_cons, eq_comm]
    rfl

end Remembers

/-- from a place on, the pass finds what is found at each place -/
theorem conflictsAfter_drop (h : Remembers d k reported seen) :
    conflictsAfter d reported seen (d.records.drop k) =
      ((List.finRange d.records.length).drop k).flatMap (conflictsAt d) := by
  -- on how many records are left, as the place must be free to move on with what is remembered
  induction hleft : d.records.length - k generalizing k reported seen with
  | zero =>
    have hrecords : d.records.drop k = [] := List.drop_eq_nil_of_le (by omega)
    have hplaces : (List.finRange d.records.length).drop k = [] :=
      List.drop_eq_nil_of_le (by rw [List.length_finRange]; omega)
    rw [hrecords, hplaces]
    rfl
  | succ left ih =>
    have hk : k < d.records.length := by omega
    have hplaces : (List.finRange d.records.length).drop k =
        ⟨k, hk⟩ :: (List.finRange d.records.length).drop (k + 1) := by
      rw [List.drop_eq_getElem_cons (by rwa [List.length_finRange]), List.getElem_finRange]
      rfl
    have hreports : (d.records[k].kind = "CNAME" ∧ 1 < (d.recordsAt d.records[k].label).length ∧
        d.records[k].label ∉ reported) ↔ Shared d d.records[k] ∧ d.records[k].label ∉ reported := and_assoc.symm
    have hrest := ih (h.step hk) (by omega)
    rw [List.drop_eq_getElem_cons hk, hplaces, List.flatMap_cons, ← hrest]
    simp only [conflictsAfter, hreports, h.reports_iff hk, h.repeats_iff hk]
    rfl

/-! ## Counts -/

section

variable {α : Type} [DecidableEq α]

/-- each element is met again or is met for the first time -/
theorem length_sift (seen xs : List α) : (sift true seen xs).length + (sift false seen xs).length = xs.length := by
  induction xs generalizing seen with
  | nil => rfl
  | cons x xs ih =>
    have hrest := ih (x :: seen)
    by_cases hx : x ∈ seen
    · simp [sift, hx]
      omega
    · simp [sift, hx]
      omega

theorem mem_sift_false {seen xs : List α} {x : α} : x ∈ sift false seen xs ↔ x ∈ xs ∧ x ∉ seen := by
  induction xs generalizing seen with
  | nil => simp [sift]
  | cons y xs ih =>
    rw [sift, List.mem_append, ih]
    by_cases hxy : x = y
    · by_cases hy : y ∈ seen <;> simp [hxy, hy]
    · by_cases hy : y ∈ seen <;> simp [hxy, hy]

/-- nothing is met for the first time twice -/
theorem nodup_sift_false (seen xs : List α) : (sift false seen xs).Nodup := by
  induction xs generalizing seen with
  | nil => exact List.nodup_nil
  | cons x xs ih =>
    rw [sift]
    split_ifs
    · refine List.nodup_cons.2 ⟨fun hx => ?_, ih _⟩
      exact (mem_sift_false.1 hx).2 List.mem_cons_self
    · exact ih _

theorem length_sift_false (xs : List α) : (sift false [] xs).length = xs.toFinset.card := by
  rw [← List.toFinset_card_of_nodup (nodup_sift_false [] xs)]
  congr 1
  ext x
  simp [mem_sift_false]

end

/-- whether a finding is about a CNAME record that is not alone -/
def Finding.isSharedAlias : Finding → Bool
  | .sharedAlias .. => true
  | _ => false

/-- whether a finding is about a record that is there already -/
def Finding.isRepeatedRecord : Finding → Bool
  | .repeatedRecord .. => true
  | _ => false

theorem countP_conflicts (d : Domain) (p : Finding → Bool) :
    (conflicts d).countP p =
      ((sift false [] (sharedLabels d d.records)).map (Finding.sharedAlias d.name)).countP p +
        ((sift true [] (d.records.map identity)).map (repeatedRecord d.name)).countP p := by
  rw [conflicts, (conflictsAfter_perm d [] [] d.records).countP_eq, List.countP_append]

/-- the labels of CNAME records at which two records stand at least -/
def conflictingLabels (d : Domain) : Finset String :=
  ((d.records.filter (·.kind = "CNAME")).map Record.label).toFinset.filter fun label =>
    2 ≤ (d.recordsAt label).length

theorem countP_isSharedAlias (d : Domain) :
    (conflicts d).countP Finding.isSharedAlias = (conflictingLabels d).card := by
  have hlabels : (sharedLabels d d.records).toFinset = conflictingLabels d := by
    ext label
    simp only [sharedLabels, conflictingLabels, List.mem_toFinset, List.mem_map, List.mem_filter,
      Finset.mem_filter, decide_eq_true_eq]
    constructor
    · rintro ⟨r, ⟨hr, hkind, hcount⟩, rfl⟩
      exact ⟨⟨r, ⟨hr, hkind⟩, rfl⟩, hcount⟩
    · rintro ⟨⟨r, ⟨hr, hkind⟩, rfl⟩, hcount⟩
      exact ⟨r, ⟨hr, hkind, hcount⟩, rfl⟩
  rw [countP_conflicts, ← hlabels, ← length_sift_false, List.countP_map, List.countP_map]
  simp [Function.comp_def, Finding.isSharedAlias, repeatedRecord]

theorem countP_isRepeatedRecord (d : Domain) :
    (conflicts d).countP Finding.isRepeatedRecord =
      d.records.length - (d.records.map identity).toFinset.card := by
  have hlength := length_sift [] (d.records.map identity)
  rw [List.length_map] at hlength
  rw [countP_conflicts, ← length_sift_false, ← hlength, Nat.add_sub_cancel, List.countP_map, List.countP_map]
  simp [Function.comp_def, Finding.isRepeatedRecord, repeatedRecord]

/-- **Conflicts are reported exactly**: record by record, that a CNAME record is not alone, at the first one of its
label, and then that a record has been there before; so there is one report for each label of a CNAME record and another
record, and one for each record beyond the distinct ones. -/
theorem conflicts_exact (d : Domain) :
    conflicts d = (List.finRange d.records.length).flatMap (conflictsAt d) ∧
      (conflicts d).countP Finding.isSharedAlias = (conflictingLabels d).card ∧
      (conflicts d).countP Finding.isRepeatedRecord =
        d.records.length - (d.records.map identity).toFinset.card :=
  ⟨conflictsAfter_drop (remembers_nothing d), countP_isSharedAlias d, countP_isRepeatedRecord d⟩

/-- the second CNAME record at a label is there already, but the label is not reported again -/
example :
    let cname : Record := { kind := "CNAME", label := "a", target := "t." }
    conflicts { name := "z", records := [cname, { kind := "A", label := "a", target := "192.0.2.1" }, cname] } =
      [.sharedAlias "z" "a", .repeatedRecord "z" cname.text] := by
  decide +kernel

end ZonePlan.Zone
