/-
Valid labels as a regular language.

A label as a whole is of the pattern `(\*|part)(\.part)*`, where a part is `[a-z0-9_]([a-z0-9_-]*[a-z0-9_])?`: its first
and its last character are written apart from those between them.
- `isPart_iff_mem`: the words of the pattern of a part are the valid parts.
- `mem_labelPattern_iff`: the words of the whole pattern are the texts whose pieces between the points are valid. No
  part has a point in it, so a word is cut at just the points that the pattern puts there.
- `label_recognised`: the states of the recognition accept the same texts, and these are well spelled (`WellSpelled`).
  That is read off the states: a star can only stand at the start (`next?_star`), to which none leads back, and behind a
  point there is no second one (`not_accepts_points`).
-/
import ZonePlan.Proofs.Zone.Label

namespace ZonePlan.Zone

open scoped Computability

/-! ## The pattern -/

/-- the words of one character that is of a class -/
def oneOf (inClass : Char → Bool) : Language Char := {word | ∃ c, word = [c] ∧ inClass c = true}

/-- the characters of a part between its ends -/
def isLabelChar (c : Char) : Bool := isLabelEdge c || c == '-'

/-- an edge, or two of them with characters of a part between them -/
def partPattern : Language Char := oneOf isLabelEdge * ((oneOf isLabelChar)∗ * oneOf isLabelEdge + 1)

/-- a star or a part, then parts with a point in front of each -/
def labelPattern : Language Char := ({['*']} + partPattern) * ({['.']} * partPattern)∗

theorem mem_oneOf_mul {inClass : Char → Bool} {L : Language Char} {word : List Char} :
    word ∈ oneOf inClass * L ↔ ∃ c rest, word = c :: rest ∧ inClass c = true ∧ rest ∈ L := by
  rw [Language.mem_mul]
  constructor
  · rintro ⟨-, ⟨c, rfl, hc⟩, rest, hrest, rfl⟩
    exact ⟨c, rest, rfl, hc, hrest⟩
  · rintro ⟨c, rest, rfl, hc, hrest⟩
    exact ⟨[c], ⟨c, rfl, hc⟩, rest, hrest, rfl⟩

theorem mem_kstar_oneOf {inClass : Char → Bool} {word : List Char} :
    word ∈ (oneOf inClass)∗ ↔ ∀ c ∈ word, inClass c = true := by
  rw [Language.mem_kstar]
  constructor
  · rintro ⟨words, rfl, hwords⟩ c hc
    obtain ⟨single, hsingle, hmem⟩ := List.mem_flatten.1 hc
    obtain ⟨d, rfl, hd⟩ := hwords single hsingle
    rwa [List.mem_singleton.1 hmem]
  · intro h
    refine ⟨word.map fun c => [c], by rw [← List.flatMap_def, List.flatMap_singleton'], fun single hsingle => ?_⟩
    obtain ⟨c, hc, rfl⟩ := List.mem_map.1 hsingle
    exact ⟨c, rfl, h c hc⟩

/-- behind its first edge a part is at its end, or goes on to its last edge -/
theorem inner_iff_mem (word : List Char) : Inner word ↔ word ∈ (oneOf isLabelChar)∗ * oneOf isLabelEdge + 1 := by
  have hchar : ∀ c, isLabelChar c = true ↔ isLabelEdge c = true ∨ c = '-' := by simp [isLabelChar]
  rw [Language.mem_add, Language.mem_one, Language.mem_mul]
  constructor
  · rintro ⟨hchars, hlast⟩
    rcases List.eq_nil_or_concat word with rfl | ⟨front, d, rfl⟩
    · exact Or.inr rfl
    · rw [List.concat_eq_append] at hchars hlast ⊢
      rw [List.getLast?_concat, ne_eq, Option.some.injEq] at hlast
      refine Or.inl ⟨front, mem_kstar_oneOf.2 fun c hc => ?_, [d], ⟨d, rfl, ?_⟩, rfl⟩
      · exact (hchar c).2 (hchars c (List.mem_append_left _ hc))
      · exact (hchars d (List.mem_append_right _ (List.mem_singleton_self d))).resolve_right hlast
  · rintro (⟨front, hfront, -, ⟨d, rfl, hd⟩, rfl⟩ | rfl)
    · refine ⟨fun c hc => ?_, ?_⟩
      · rcases List.mem_append.1 hc with hc | hc
        · exact (hchar c).1 (mem_kstar_oneOf.1 hfront c hc)
        · exact Or.inl (List.mem_singleton.1 hc ▸ hd)
      · rw [List.getLast?_concat, ne_eq, Option.some.injEq]
        rintro rfl
        rw [isLabelEdge_hyphen] at hd
        cases hd
    · exact ⟨List.forall_mem_nil _, by simp⟩

/-- the words of the pattern of a part are the valid parts -/
theorem isPart_iff_mem (word : List Char) : IsPart word ↔ word ∈ partPattern := by
  rw [partPattern, mem_oneOf_mul]
  cases word with
  | nil => exact iff_of_false (fun h => h.nonempty rfl) (by simp)
  | cons c rest => simp [isPart_cons, inner_iff_mem]

/-! ## The words of the pattern -/

/-- pieces with a point in front of each, behind a first one -/
theorem intercalate_point (first : List Char) (rest : List (List Char)) :
    ['.'].intercalate (first :: rest) = first ++ rest.flatMap ('.' :: ·) := by
  induction rest generalizing first with
  | nil => simp
  | cons next rest ih =>
    rw [List.intercalate_cons_of_ne_nil (List.cons_ne_nil next rest), ih, List.flatMap_cons, List.append_assoc]
    rfl

theorem IsPart.point_not_mem {part : List Char} (h : IsPart part) : '.' ∉ part := by
  intro hmem
  have hpoint := h.chars '.' hmem
  revert hpoint
  decide

/-- what follows the first piece are parts with a point in front of each -/
theorem mem_kstar_pointed {word : List Char} :
    word ∈ ({['.']} * partPattern)∗ ↔
      ∃ rest : List (List Char), word = rest.flatMap ('.' :: ·) ∧ ∀ part ∈ rest, IsPart part := by
  rw [Language.mem_kstar]
  constructor
  · rintro ⟨pointed, rfl, hpointed⟩
    induction pointed with
    | nil => exact ⟨[], rfl, List.forall_mem_nil _⟩
    | cons first pointed ih =>
      obtain ⟨hfirst, hmore⟩ := List.forall_mem_cons.1 hpointed
      obtain ⟨-, rfl, part, hpart, rfl⟩ := Language.mem_mul.1 hfirst
      obtain ⟨rest, hrest, hparts⟩ := ih hmore
      refine ⟨part :: rest, ?_, List.forall_mem_cons.2 ⟨(isPart_iff_mem part).2 hpart, hparts⟩⟩
      rw [List.flatten_cons, hrest, List.flatMap_cons]
      rfl
  · rintro ⟨rest, rfl, hparts⟩
    refine ⟨rest.map ('.' :: ·), List.flatMap_def, fun pointed hpointed => ?_⟩
    obtain ⟨part, hpart, rfl⟩ := List.mem_map.1 hpointed
    exact ⟨['.'], rfl, part, (isPart_iff_mem part).1 (hparts part hpart), rfl⟩

/-- **The words of the pattern** are the texts whose pieces between the points are valid: parts, or a star in the place
of the first -/
theorem mem_labelPattern_iff (word : List Char) :
    word ∈ labelPattern ↔
      ∃ first rest, word.splitOn '.' = first :: rest ∧ (first = ['*'] ∨ IsPart first) ∧ ∀ part ∈ rest, IsPart part := by
  have hfirst : ∀ first, first ∈ ({['*']} + partPattern : Language Char) ↔ first = ['*'] ∨ IsPart first := fun first =>
    or_congr_right (isPart_iff_mem first).symm
  rw [labelPattern, Language.mem_mul]
  constructor
  · rintro ⟨first, hmem, tail, htail, rfl⟩
    obtain ⟨rest, rfl, hrest⟩ := mem_kstar_pointed.1 htail
    have hvalid := (hfirst first).1 hmem
    have hpoint : ∀ part ∈ first :: rest, '.' ∉ part := by
      refine List.forall_mem_cons.2 ⟨?_, fun part hpart => (hrest part hpart).point_not_mem⟩
      rcases hvalid with rfl | hvalid
      · decide
      · exact hvalid.point_not_mem
    -- the only points of the word are those in front of the parts
    refine ⟨first, rest, ?_, hvalid, hrest⟩
    rw [← intercalate_point, List.splitOn_intercalate '.' hpoint (List.cons_ne_nil first rest)]
  · rintro ⟨first, rest, hsplit, hvalid, hrest⟩
    refine ⟨first, (hfirst first).2 hvalid, _, mem_kstar_pointed.2 ⟨rest, rfl, hrest⟩, ?_⟩
    rw [← intercalate_point, ← hsplit, List.intercalate_splitOn]

/-! ## Valid labels as texts -/

/-- what a valid label looks like as a text -/
structure WellSpelled (label : String) : Prop where
  nonempty : label ≠ ""
  head : label.toList.head? ≠ some '.'
  last : label.toList.getLast? ≠ some '.'
  undoubled : ¬['.', '.'] <:+: label.toList
  unblank : ∀ c ∈ label.toList, Text.isBlank c = false
  unbroken : '\n' ∉ label.toList
  small : ∀ c ∈ label.toList, c.isUpper = false
  ascii : ∀ c ∈ label.toList, c.toNat < 0x80
  /-- a star stands at the beginning, and what follows it is behind a point -/
  star : ∀ before after, label.toList = before ++ '*' :: after → before = [] ∧ ∀ c ∈ after.head?, c = '.'

/-- a star can only stand at the start -/
theorem next?_star (state next : LabelState) : state.next? '*' = some next ↔ state = .start ∧ next = .star := by
  have hedge : isLabelEdge '*' = false := by decide
  cases state <;> simp [LabelState.next?, hedge, eq_comm]

/-- behind a point there is no second one -/
theorem not_accepts_points (state : LabelState) (cs : List Char) : ¬state.accepts ('.' :: '.' :: cs) = true := by
  intro h
  obtain ⟨next, hnext, hrest⟩ := (accepts_cons state '.' ('.' :: cs)).1 h
  obtain rfl := ((next?_point state next).1 hnext).2
  obtain ⟨behind, hbehind, -⟩ := (accepts_cons .part '.' cs).1 hrest
  cases ((next?_point .part behind).1 hbehind).1

/-- what follows a star is behind a point -/
theorem head_of_star_accepts {cs : List Char} (h : LabelState.star.accepts cs = true) : ∀ c ∈ cs.head?, c = '.' := by
  cases cs with
  | nil => simp
  | cons d cs =>
    obtain ⟨next, hnext, -⟩ := (accepts_cons .star d cs).1 h
    intro c hc
    obtain rfl := Option.some.inj hc
    simp only [LabelState.next?] at hnext
    split_ifs at hnext with hpoint
    exact hpoint

theorem wellSpelled_of_isLabel {label : String} (h : isLabel label = true) : WellSpelled label := by
  have hplain : ∀ c ∈ label.toList, 0x21 ≤ c.toNat ∧ c.toNat ≤ 0x7E ∧ c.isUpper = false := fun c hc =>
    plain_labelChar (accepts_mem h c hc)
  refine {
    nonempty := ne_empty_of_isLabel h
    unblank := fun c hc => Text.isBlank_of_visible (hplain c hc).1 (hplain c hc).2.1
    small := fun c hc => (hplain c hc).2.2
    ascii := fun c hc => Nat.lt_succ_of_le ((hplain c hc).2.1.trans (by decide))
    unbroken := fun hbreak => absurd (hplain '\n' hbreak).1 (by decide)
    head := ?head, last := ?last, undoubled := ?undoubled, star := ?star }
  case head =>
    intro hhead
    obtain ⟨cs, hcs⟩ := List.head?_eq_some_iff.1 hhead
    rw [isLabel, hcs] at h
    obtain ⟨next, hnext, -⟩ := (accepts_cons .start '.' cs).1 h
    cases ((next?_point .start next).1 hnext).1
  case last =>
    intro hlast
    have hedge := accepts_last h '.' hlast
    revert hedge
    decide
  case undoubled =>
    rintro ⟨before, after, hlabel⟩
    rw [isLabel, ← hlabel, List.append_assoc] at h
    obtain ⟨state, hstate, -⟩ := accepts_append h
    exact not_accepts_points state after hstate
  case star =>
    intro before after hlabel
    rw [isLabel, hlabel] at h
    obtain ⟨state, hstate, hstart⟩ := accepts_append h
    obtain ⟨next, hnext, hrest⟩ := (accepts_cons state '*' after).1 hstate
    obtain ⟨rfl, rfl⟩ := (next?_star state next).1 hnext
    refine ⟨?_, head_of_star_accepts hrest⟩
    rcases hstart with ⟨hbefore, -⟩ | hne
    · exact hbefore
    · exact absurd rfl hne

/-- **Recognised labels**: a text is recognised exactly if it is a word of the pattern, which are the texts whose pieces
between the points are valid; such a text is well spelled -/
theorem label_recognised (label : String) :
    (isLabel label = true ↔ label.toList ∈ labelPattern) ∧
      (isLabel label = true ↔
        ∃ first rest, label.toList.splitOn '.' = first :: rest ∧ (first = ['*'] ∨ IsPart first) ∧
          ∀ part ∈ rest, IsPart part) ∧
      (isLabel label = true → WellSpelled label) := by
  have hparts := isLabel_iff label
  simp only [ValidLabel, Text.cutAll_eq_splitOn] at hparts
  exact ⟨hparts.trans (mem_labelPattern_iff label.toList).symm, hparts, wellSpelled_of_isLabel⟩

/-- a star in front of parts with a hyphen and an underscore is a label, a label with a line feed behind it is none -/
theorem label_recognised_wildcard :
    isLabel "*.a-b._tcp" = true ∧ WellSpelled "*.a-b._tcp" ∧ "*.a-b._tcp".toList ∈ labelPattern ∧
      "a\n".toList ∉ labelPattern := by
  have hlabel : isLabel "*.a-b._tcp" = true := by decide
  obtain ⟨hpattern, -, hspelled⟩ := label_recognised "*.a-b._tcp"
  refine ⟨hlabel, hspelled hlabel, hpattern.1 hlabel, fun hmem => ?_⟩
  have hbroken : isLabel "a\n" = true := (label_recognised "a\n").1.2 hmem
  revert hbroken
  decide

end ZonePlan.Zone
