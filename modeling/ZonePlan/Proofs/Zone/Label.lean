/-
Valid labels, and where labels stand.

- `isLabel_iff`: the states of the recognition accept exactly the texts whose parts between the points are valid
  (`ValidLabel`). What a state still needs of the part it is in is `LabelState.Completes`; one character leads from
  what one state needs to what the next one needs (`completes_cons`).
- `accepts_append`: wherever an accepted text is divided, some state accepts what is left. So its characters are those
  that lead from a state to a next one (`accepts_mem`), and its last one leads to a state that may end (`accepts_last`).
- `clean_of_isLabel`, `isLabel_append_point`: a valid label is in its final form, and no point ends it.
- `place_cases`: each of the ways in which a label can stand, with the texts that stand so.
-/
import ZonePlan.Proofs.Text
import ZonePlan.Zone.Label

namespace ZonePlan.Zone

/-! ## Parts -/

/-- a part of a label -/
structure IsPart (part : List Char) : Prop where
  nonempty : part ≠ []
  chars : ∀ c ∈ part, isLabelEdge c = true ∨ c = '-'
  first : part.head? ≠ some '-'
  last : part.getLast? ≠ some '-'

/-- a label: parts with points between them, the first of which may be a lone `*` -/
def ValidLabel (label : String) : Prop :=
  ∃ first rest, Text.cutAll '.' label.toList = first :: rest ∧ (first = ['*'] ∨ IsPart first) ∧
    ∀ part ∈ rest, IsPart part

/-- the rest of a part behind an edge -/
def Inner (p : List Char) : Prop := (∀ c ∈ p, isLabelEdge c = true ∨ c = '-') ∧ p.getLast? ≠ some '-'

theorem isLabelEdge_hyphen : isLabelEdge '-' = false := by decide

/-- a part begins with an edge -/
theorem isPart_cons (c : Char) (p : List Char) : IsPart (c :: p) ↔ isLabelEdge c = true ∧ Inner p := by
  constructor
  · intro h
    have hc : isLabelEdge c = true := by
      rcases h.chars c List.mem_cons_self with hc | rfl
      · exact hc
      · exact absurd rfl h.first
    refine ⟨hc, fun d hd => h.chars d (List.mem_cons_of_mem c hd), ?_⟩
    cases p with
    | nil => simp
    | cons d p => simpa [List.getLast?_cons_cons] using h.last
  · rintro ⟨hc, hchars, hlast⟩
    have hne : c ≠ '-' := by
      rintro rfl
      rw [isLabelEdge_hyphen] at hc
      cases hc
    refine ⟨List.cons_ne_nil c p, ?_, by simpa using hne, ?_⟩
    · intro d hd
      rcases List.mem_cons.1 hd with rfl | hd
      · exact Or.inl hc
      · exact hchars d hd
    · cases p with
      | nil => simpa using hne
      | cons d p => simpa [List.getLast?_cons_cons] using hlast

/-- inside a part there are edges, and hyphens with something behind them -/
theorem inner_cons (c : Char) (p : List Char) :
    Inner (c :: p) ↔ (isLabelEdge c = true ∧ Inner p) ∨ (c = '-' ∧ p ≠ [] ∧ Inner p) := by
  by_cases hhyphen : c = '-'
  · subst hhyphen
    cases p with
    | nil => simp [Inner, isLabelEdge_hyphen]
    | cons d p => simp [Inner, isLabelEdge_hyphen, List.getLast?_cons_cons]
  · cases p with
    | nil => simp [Inner, hhyphen]
    | cons d p => simp [Inner, hhyphen, List.getLast?_cons_cons, and_assoc]

/-! ## The recognition -/

/-- what a state needs of the rest of the part it is in -/
def LabelState.Completes : LabelState → List Char → Prop
  | .start, p => p = ['*'] ∨ IsPart p
  | .part, p => IsPart p
  | .edge, p => Inner p
  | .hyphen, p => p ≠ [] ∧ Inner p
  | .star, p => p = []

theorem completes_part (p : List Char) : LabelState.part.Completes p ↔ IsPart p := Iff.rfl

theorem completes_nil (state : LabelState) : state.Completes [] ↔ state.isFinal = true := by
  have hpart : ¬IsPart [] := fun h => h.nonempty rfl
  cases state <;> simp [LabelState.Completes, LabelState.isFinal, Inner, hpart]

theorem completes_cons {c : Char} (hpoint : c ≠ '.') (state : LabelState) (p : List Char) :
    state.Completes (c :: p) ↔ ∃ next, state.next? c = some next ∧ next.Completes p := by
  cases state with
  | start =>
    by_cases hstar : c = '*'
    · subst hstar
      have hedge : isLabelEdge '*' = false := by decide
      simp [LabelState.next?, LabelState.Completes, isPart_cons, hedge]
    · by_cases hedge : isLabelEdge c = true <;>
        simp [LabelState.next?, LabelState.Completes, isPart_cons, hstar, hedge]
  | part =>
    by_cases hedge : isLabelEdge c = true <;> simp [LabelState.next?, LabelState.Completes, isPart_cons, hedge]
  | star => simp [LabelState.next?, LabelState.Completes, hpoint]
  | edge | hyphen =>
    by_cases hhyphen : c = '-'
    · subst hhyphen
      simp [LabelState.next?, LabelState.Completes, inner_cons, isLabelEdge_hyphen]
    · by_cases hedge : isLabelEdge c = true <;>
        simp [LabelState.next?, LabelState.Completes, inner_cons, hhyphen, hpoint, hedge]

/-- a point can only follow what may end -/
theorem next?_point (state next : LabelState) :
    state.next? '.' = some next ↔ state.isFinal = true ∧ next = .part := by
  have hedge : isLabelEdge '.' = false := by decide
  cases state <;> simp [LabelState.next?, LabelState.isFinal, hedge, eq_comm]

theorem accepts_cons (state : LabelState) (c : Char) (cs : List Char) :
    state.accepts (c :: cs) = true ↔ ∃ next, state.next? c = some next ∧ next.accepts cs = true := by
  rw [LabelState.accepts]
  cases state.next? c <;> simp

theorem cutAll_ne_nil (c : Char) (cs : List Char) : Text.cutAll c cs ≠ [] := by
  rw [Text.cutAll_eq_splitOn]
  exact List.splitOn_ne_nil c cs

/-- the rest of a label is recognised in a state exactly if its first piece completes the part and the others are
parts -/
theorem accepts_iff (state : LabelState) (cs : List Char) :
    state.accepts cs = true ↔
      ∃ p ps, Text.cutAll '.' cs = p :: ps ∧ state.Completes p ∧ ∀ part ∈ ps, IsPart part := by
  induction cs generalizing state with
  | nil => simp [LabelState.accepts, Text.cutAll, completes_nil]
  | cons c cs ih =>
    obtain ⟨p, ps, hpieces⟩ := List.exists_cons_of_ne_nil (cutAll_ne_nil '.' cs)
    rw [accepts_cons]
    by_cases hpoint : c = '.'
    · subst hpoint
      have hcut : Text.cutAll '.' ('.' :: cs) = [] :: Text.cutAll '.' cs := by simp [Text.cutAll]
      simp [hcut, next?_point, ih, hpieces, completes_nil, completes_part]
    · have hcut : Text.cutAll '.' (c :: cs) = (c :: p) :: ps := by simp [Text.cutAll, hpoint, hpieces]
      simp [hcut, completes_cons hpoint, ih, hpieces, ← and_assoc]

/-- **The labels that are recognised are the valid ones** -/
theorem isLabel_iff (label : String) : isLabel label = true ↔ ValidLabel label :=
  accepts_iff .start label.toList

/-! ## What a valid label is made of -/

theorem labelChar_of_next? {state next : LabelState} {c : Char} (h : state.next? c = some next) :
    isLabelEdge c = true ∨ c = '-' ∨ c = '.' ∨ c = '*' := by
  by_contra hc
  simp only [not_or] at hc
  cases state <;> simp [LabelState.next?, hc] at h

/-- only an edge or the star leads to a state that may end -/
theorem edge_of_next? {state next : LabelState} {c : Char} (h : state.next? c = some next)
    (hfinal : next.isFinal = true) : isLabelEdge c = true ∨ c = '*' := by
  by_cases hedge : isLabelEdge c = true
  · exact Or.inl hedge
  by_cases hstar : c = '*'
  · exact Or.inr hstar
  exfalso
  cases state with
  | start => simp [LabelState.next?, hedge, hstar] at h
  | part => simp [LabelState.next?, hedge] at h
  | star =>
    simp only [LabelState.next?] at h
    split_ifs at h
    cases h
    cases hfinal
  | edge | hyphen =>
    simp only [LabelState.next?, if_neg hedge] at h
    split_ifs at h <;> cases h <;> cases hfinal

theorem next?_ne_start {state next : LabelState} {c : Char} (h : state.next? c = some next) : next ≠ .start := by
  rintro rfl
  cases state <;> simp only [LabelState.next?] at h <;> split_ifs at h <;> cases h

/-- where a text is accepted, the end of it is accepted in some state: the same one, or one that is not the start -/
theorem accepts_append {state : LabelState} {before after : List Char} (h : state.accepts (before ++ after) = true) :
    ∃ last : LabelState, last.accepts after = true ∧ (before = [] ∧ last = state ∨ last ≠ .start) := by
  induction before generalizing state with
  | nil => exact ⟨state, h, Or.inl ⟨rfl, rfl⟩⟩
  | cons c before ih =>
    obtain ⟨next, hnext, hrest⟩ := (accepts_cons state c (before ++ after)).1 h
    obtain ⟨last, hlast, ⟨-, rfl⟩ | hstart⟩ := ih hrest
    · exact ⟨last, hlast, Or.inr (next?_ne_start hnext)⟩
    · exact ⟨last, hlast, Or.inr hstart⟩

theorem accepts_mem {state : LabelState} {cs : List Char} (h : state.accepts cs = true) :
    ∀ c ∈ cs, isLabelEdge c = true ∨ c = '-' ∨ c = '.' ∨ c = '*' := by
  intro c hc
  obtain ⟨before, after, rfl⟩ := List.append_of_mem hc
  obtain ⟨last, hlast, -⟩ := accepts_append h
  obtain ⟨next, hnext, -⟩ := (accepts_cons last c after).1 hlast
  exact labelChar_of_next? hnext

theorem accepts_last {state : LabelState} {cs : List Char} (h : state.accepts cs = true) :
    ∀ c ∈ cs.getLast?, isLabelEdge c = true ∨ c = '*' := by
  intro c hc
  obtain ⟨before, rfl⟩ := List.getLast?_eq_some_iff.1 hc
  obtain ⟨last, hlast, -⟩ := accepts_append h
  obtain ⟨next, hnext, hfinal⟩ := (accepts_cons last c []).1 hlast
  exact edge_of_next? hnext hfinal

theorem toNat_of_isLabelEdge {c : Char} (h : isLabelEdge c = true) :
    (97 ≤ c.toNat ∧ c.toNat ≤ 122) ∨ (48 ≤ c.toNat ∧ c.toNat ≤ 57) ∨ c.toNat = 95 := by
  simp only [isLabelEdge, Char.isDigit, Bool.or_eq_true, Bool.and_eq_true, decide_eq_true_eq, beq_iff_eq,
    Char.le_def, UInt32.le_iff_toNat_le] at h
  rcases h with (h | h) | rfl
  · exact Or.inl h
  · exact Or.inr (Or.inl h)
  · exact Or.inr (Or.inr rfl)

/-- the characters of a label can be seen, belong to ASCII and are no capitals -/
theorem plain_labelChar {c : Char} (h : isLabelEdge c = true ∨ c = '-' ∨ c = '.' ∨ c = '*') :
    0x21 ≤ c.toNat ∧ c.toNat ≤ 0x7E ∧ c.isUpper = false := by
  rcases h with h | rfl | rfl | rfl
  · have hrange := toNat_of_isLabelEdge h
    refine ⟨by omega, by omega, Bool.eq_false_iff.2 fun hupper => ?_⟩
    have hcapital := Text.toNat_of_isUpper hupper
    omega
  all_goals decide

/-- the characters of a label are no blanks and no capitals -/
theorem isBlank_labelChar {c : Char} (h : isLabelEdge c = true ∨ c = '-' ∨ c = '.' ∨ c = '*') :
    Text.isBlank c = false ∧ c.toLower = c := by
  obtain ⟨hlow, hhigh, hupper⟩ := plain_labelChar h
  exact ⟨Text.isBlank_of_visible hlow hhigh, Char.toLower_eq_of_not_isUpper (Bool.eq_false_iff.1 hupper)⟩

theorem ne_empty_of_isLabel {label : String} (h : isLabel label = true) : label ≠ "" := by
  rintro rfl
  exact absurd h (by decide)

theorem ne_apex_of_isLabel {label : String} (h : isLabel label = true) : label ≠ "@" := by
  rintro rfl
  exact absurd h (by decide)

/-- no point ends a label -/
theorem isLabel_append_point (full : String) : isLabel (full ++ ".") = false := by
  rw [Bool.eq_false_iff]
  intro h
  have hlast := accepts_last h '.' (by simp)
  revert hlast
  decide

theorem trimmed_of_isLabel {label : String} (h : isLabel label = true) : Text.Trimmed label.toList :=
  Text.trimmed_of_forall fun c hc => (isBlank_labelChar (accepts_mem h c hc)).1

theorem lower_of_isLabel {label : String} (h : isLabel label = true) : Text.lower label = label :=
  Text.lower_eq_self fun c hc => (isBlank_labelChar (accepts_mem h c hc)).2

/-- a valid label is in its final form -/
theorem clean_of_isLabel {label : String} (h : isLabel label = true) : clean label = label := by
  have htrim : Text.trim label = label := by
    rw [← String.toList_inj, Text.toList_trim, Text.trimChars_eq_self_iff.2 (trimmed_of_isLabel h)]
  rw [clean, htrim, lower_of_isLabel h]

/-! ## Placement -/

/-- a text with a point at its end, and what stands in front of it -/
theorem dropSuffix?_point {label : String} {full : List Char} :
    Text.dropSuffix? ['.'] label.toList = some full ↔ label = String.ofList full ++ "." := by
  rw [Text.dropSuffix?_eq_some_iff, ← String.toList_inj]
  simp

/-- a full name within a zone, and what stands in front of the zone -/
theorem dropSuffix?_zone {zone : String} {full rest : List Char} :
    Text.dropSuffix? ('.' :: zone.toList) full = some rest ↔
      String.ofList full = String.ofList rest ++ "." ++ zone := by
  rw [Text.dropSuffix?_eq_some_iff, ← String.toList_inj]
  simp

/-- a label stands for the zone itself, as a full name in it, as one outside it, or relative to it -/
theorem place_cases (zone label : String) :
    ((label = "" ∨ label = "@" ∨ label = zone ++ ".") ∧ place zone label = .apex) ∨
    (∃ rest, label = rest ++ "." ++ zone ++ "." ∧ place zone label = .within rest) ∨
    (∃ full, label = full ++ "." ∧ full ≠ zone ∧ (∀ rest, full ≠ rest ++ "." ++ zone) ∧
      place zone label = .outside label) ∨
    (label ≠ "" ∧ label ≠ "@" ∧ (∀ full, label ≠ full ++ ".") ∧
      (place zone label = .relative label ∨ place zone label = .doubled label)) := by
  unfold place
  by_cases hapex : label = "" ∨ label = "@"
  · exact Or.inl ⟨by tauto, if_pos hapex⟩
  simp only [if_neg hapex]
  rw [not_or] at hapex
  cases hpoint : Text.dropSuffix? ['.'] label.toList with
  | none =>
    refine Or.inr (Or.inr (Or.inr ⟨hapex.1, hapex.2, ?_, ?_⟩))
    · intro full hfull
      have := dropSuffix?_point.2 (hfull.trans (by rw [String.ofList_toList]))
      rw [hpoint] at this
      cases this
    · simp only
      split_ifs
      · exact Or.inr rfl
      · exact Or.inl rfl
  | some full =>
    have hlabel := dropSuffix?_point.1 hpoint
    simp only
    by_cases hzone : full = zone.toList
    · subst hzone
      rw [String.ofList_toList] at hlabel
      exact Or.inl ⟨Or.inr (Or.inr hlabel), if_pos rfl⟩
    · rw [if_neg hzone]
      cases hrest : Text.dropSuffix? ('.' :: zone.toList) full with
      | some rest =>
        rw [dropSuffix?_zone] at hrest
        exact Or.inr (Or.inl ⟨String.ofList rest, hrest ▸ hlabel, rfl⟩)
      | none =>
        refine Or.inr (Or.inr (Or.inl ⟨String.ofList full, hlabel, ?_, ?_, rfl⟩))
        · intro h
          exact hzone (by rw [← h, String.toList_ofList])
        · intro rest h
          have := dropSuffix?_zone.2 (h.trans (by rw [String.ofList_toList]))
          rw [hrest] at this
          cases this

end ZonePlan.Zone
