/-
What the written form of an address is made of: hexadecimal digits, points and colons (`chars_of_address`). So nothing
is taken off its ends as blank, and the first slash behind it is not its own.

The readers of the parts of an address agree on that one after another; each piece between separators is read by the
next reader, so only the digits have to be looked at.
-/
import ZonePlan.Address
import ZonePlan.Proofs.Text

namespace ZonePlan.Address

variable {α β : Type} {c : Char} {cs : List Char}

/-- a character of an address, of either kind -/
def IsAddressChar (c : Char) : Prop := (Text.digitValue? c).isSome = true ∨ c = '.' ∨ c = ':'

theorem isAddressChar_of_isDigit (h : c.isDigit = true) : IsAddressChar c := by
  refine Or.inl ?_
  rw [Text.digitValue?, if_pos h]
  rfl

theorem toNat_of_isAddressChar (h : IsAddressChar c) :
    c.toNat = 46 ∨ (48 ≤ c.toNat ∧ c.toNat ≤ 58) ∨ (65 ≤ c.toNat ∧ c.toNat ≤ 70) ∨ (97 ≤ c.toNat ∧ c.toNat ≤ 102) := by
  rcases h with h | rfl | rfl
  · unfold Text.digitValue? at h
    simp only [Char.isDigit, Bool.and_eq_true, decide_eq_true_eq, Char.le_def, UInt32.le_iff_toNat_le] at h
    split_ifs at h with hdigit hsmall hcapital
    · exact Or.inr (Or.inl ⟨hdigit.1, hdigit.2.trans (by decide)⟩)
    · exact Or.inr (Or.inr (Or.inr hsmall))
    · exact Or.inr (Or.inr (Or.inl hcapital))
    · cases h
  · exact Or.inl rfl
  · exact Or.inr (Or.inl (by decide))

theorem isBlank_addressChar (h : IsAddressChar c) : Text.isBlank c = false := by
  have hn := toNat_of_isAddressChar h
  exact Text.isBlank_of_visible (by omega) (by omega)

theorem ne_slash_of_isAddressChar (h : IsAddressChar c) : c ≠ '/' := by
  rintro rfl
  exact absurd (toNat_of_isAddressChar h) (by decide)

/-! ## Pieces -/

/-- what is read piece by piece has pieces that are read -/
theorem isSome_of_mapM {f : α → Option β} {xs : List α} {ys : List β} (h : xs.mapM f = some ys) {x : α} (hx : x ∈ xs) :
    (f x).isSome = true := by
  induction xs generalizing ys with
  | nil => cases hx
  | cons x' xs ih =>
    rw [List.mapM_cons] at h
    obtain ⟨y, hy, h⟩ := Option.bind_eq_some_iff.1 h
    obtain ⟨ys', hys, -⟩ := Option.bind_eq_some_iff.1 h
    rcases List.mem_cons.1 hx with rfl | hx
    · rw [hy]
      rfl
    · exact ih hys hx

theorem forall_mem_intercalate {P : Char → Prop} {separator : Char} (hseparator : P separator)
    {pieces : List (List Char)} (h : ∀ piece ∈ pieces, ∀ c ∈ piece, P c) :
    ∀ c ∈ [separator].intercalate pieces, P c := by
  induction pieces with
  | nil => simp
  | cons piece pieces ih =>
    obtain ⟨hpiece, hpieces⟩ := List.forall_mem_cons.1 h
    by_cases hempty : pieces = []
    · simpa [hempty] using hpiece
    · rw [List.intercalate_cons_of_ne_nil hempty]
      intro c hc
      rw [List.mem_append, List.mem_append, List.mem_singleton] at hc
      rcases hc with (hc | rfl) | hc
      · exact hpiece c hc
      · exact hseparator
      · exact ih hpieces c hc

/-- a text between whose separators there are only characters of an address -/
theorem chars_of_pieces {separator : Char} (hseparator : IsAddressChar separator)
    (h : ∀ piece ∈ Text.cutAll separator cs, ∀ c ∈ piece, IsAddressChar c) : ∀ c ∈ cs, IsAddressChar c := by
  rw [Text.cutAll_eq_splitOn] at h
  have hpieces : [separator].intercalate (cs.splitOn separator) = cs := List.intercalate_splitOn separator
  rw [← hpieces]
  exact forall_mem_intercalate hseparator h

/-! ## Addresses -/

theorem chars_of_octet (h : (octet? cs).isSome = true) : ∀ c ∈ cs, IsAddressChar c := by
  unfold octet? at h
  split_ifs at h with hbad
  · cases h
  · cases h
  · simp only [not_or, Bool.not_eq_true', Bool.not_eq_false] at hbad
    exact fun c hc => isAddressChar_of_isDigit (List.all_eq_true.1 hbad.2.2 c hc)
  · cases h

theorem chars_of_v4 {bits : BitVec 32} (h : v4? cs = some bits) : ∀ c ∈ cs, IsAddressChar c := by
  obtain ⟨octets, hoctets, -⟩ := Option.bind_eq_some_iff.1 h
  exact chars_of_pieces (Or.inr (Or.inl rfl)) fun piece hpiece => chars_of_octet (isSome_of_mapM hoctets hpiece)

theorem chars_of_group (h : (group? cs).isSome = true) : ∀ c ∈ cs, IsAddressChar c := by
  unfold group? at h
  split_ifs at h
  · cases h
  · rw [Option.isSome_map] at h
    obtain ⟨digits, hdigits⟩ := Option.isSome_iff_exists.1 h
    exact fun c hc => Or.inl (isSome_of_mapM hdigits hc)

theorem chars_of_groups {groups : List Nat} (h : groups? cs = some groups) : ∀ c ∈ cs, IsAddressChar c := by
  unfold groups? at h
  split_ifs at h with hempty
  · rw [hempty]
    exact nofun
  · exact chars_of_pieces (Or.inr (Or.inr rfl)) fun piece hpiece => chars_of_group (isSome_of_mapM h hpiece)

/-- of the pieces at the end of an address, the last may be an IPv4 address and the others are groups -/
theorem chars_of_closingGroups {groups : List Nat} (h : closingGroups? cs = some groups) :
    ∀ c ∈ cs, IsAddressChar c := by
  unfold closingGroups? at h
  dsimp only at h
  split at h
  · next n hlast =>
    obtain ⟨bits, hbits, -⟩ := Option.map_eq_some_iff.1 hlast
    obtain ⟨front, hfront, -⟩ := Option.map_eq_some_iff.1 h
    refine chars_of_pieces (Or.inr (Or.inr rfl)) fun piece hpiece => ?_
    have hne := List.ne_nil_of_mem hpiece
    rw [← List.dropLast_append_getLast hne, List.mem_append, List.mem_singleton] at hpiece
    rcases hpiece with hpiece | rfl
    · exact chars_of_group (isSome_of_mapM hfront hpiece)
    · rw [List.getLastD_eq_getLast?, List.getLast?_eq_some_getLast hne] at hbits
      exact chars_of_v4 hbits
  · exact chars_of_groups h

theorem cutGap?_eq_some {before after : List Char} (h : cutGap? cs = some (before, after)) :
    cs = before ++ ':' :: ':' :: after := by
  induction cs using cutGap?.induct generalizing before with
  | case1 => cases h
  | case2 c => cases h
  | case3 cs =>
    obtain ⟨rfl, rfl⟩ := Prod.mk.inj (Option.some.inj h)
    rfl
  | case4 c cs hempty hgap ih =>
    rw [cutGap?] at h
    · obtain ⟨⟨front, back⟩, hfront, hsplit⟩ := Option.map_eq_some_iff.1 h
      obtain ⟨rfl, rfl⟩ := Prod.mk.inj hsplit
      rw [ih hfront, List.cons_append]
    · exact hempty
    · exact hgap

theorem chars_of_v6 {bits : BitVec 128} (h : v6? cs = some bits) : ∀ c ∈ cs, IsAddressChar c := by
  have hcolon : IsAddressChar ':' := Or.inr (Or.inr rfl)
  unfold v6? at h
  dsimp only at h
  cases hgap : cutGap? cs with
  | some parts =>
    obtain ⟨before, after⟩ := parts
    rw [hgap] at h
    obtain ⟨front, hfront, h⟩ := Option.bind_eq_some_iff.1 h
    obtain ⟨back, hback, -⟩ := Option.bind_eq_some_iff.1 h
    rw [cutGap?_eq_some hgap]
    intro c hc
    rcases List.mem_append.1 hc with hc | hc
    · exact chars_of_groups hfront c hc
    · rcases List.mem_cons.1 hc with rfl | hc
      · exact hcolon
      · rcases List.mem_cons.1 hc with rfl | hc
        · exact hcolon
        · exact chars_of_closingGroups hback c hc
  | none =>
    rw [hgap] at h
    obtain ⟨groups, hgroups, -⟩ := Option.bind_eq_some_iff.1 h
    exact chars_of_closingGroups hgroups

/-- **An address is written with hexadecimal digits, points and colons** -/
theorem chars_of_address {a : Address} (h : ofChars? cs = some a) : ∀ c ∈ cs, IsAddressChar c := by
  unfold ofChars? at h
  cases hv4 : v4? cs with
  | some bits => exact chars_of_v4 hv4
  | none =>
    rw [hv4] at h
    obtain ⟨bits, hv6, -⟩ := Option.map_eq_some_iff.1 h
    exact chars_of_v6 hv6

end ZonePlan.Address
