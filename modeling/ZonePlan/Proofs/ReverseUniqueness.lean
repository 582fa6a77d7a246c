/-
No two reverse zones share a name (`reverse_zones_distinct`): two texts have zones of one name exactly if they write one
prefix, the same address with the same length.

A name does not show the whole address, so this rests on three things:
- the bits that it leaves out are zero, and a word is then told by its leading digits (`eq_of_leadingDigits_eq`);
- numbers are told apart by their digits, and the labels of a name are its digits, one number each;
- the label of a block that ends within an octet has a hyphen, and no number has one.
The two families of addresses have different names at the end.
-/
import ZonePlan.Proofs.ReverseNaming

namespace ZonePlan

open Zone

/-! ## Words by their leading digits -/

/-- words with nothing behind a length are told apart by the leading digits that reach as far -/
theorem eq_of_leadingDigits_eq {w u k length : Nat} (hk : u * k ≤ w) (hlength : length ≤ u * k) {a b : BitVec w}
    (ha : a.toNat % 2 ^ (w - length) = 0) (hb : b.toNat % 2 ^ (w - length) = 0)
    (h : leadingDigits w u k a.toNat = leadingDigits w u k b.toNat) : a = b := by
  have hbehind : 2 ^ (w - u * k) ∣ 2 ^ (w - length) := Nat.pow_dvd_pow 2 (by omega)
  have hzero : ∀ c : BitVec w, c.toNat % 2 ^ (w - length) = 0 → c.toNat % 2 ^ (w - u * k) = 0 := fun c hc =>
    Nat.mod_eq_zero_of_dvd (hbehind.trans (Nat.dvd_of_mod_eq_zero hc))
  refine BitVec.eq_of_toNat_eq (Nat.ext_div_mod ?_ ((hzero a ha).trans (hzero b hb).symm))
  exact (leadingDigits_eq_iff hk a.isLt b.isLt).1 h

theorem length_leadingDigits (w u k n : Nat) : (leadingDigits w u k n).length = k := by
  simp [leadingDigits]

/-! ## Labels of numbers -/

/-- rows of labels with the same numbers have the same numbers in the same order -/
theorem digits_eq_of_labels_eq {base : Nat} (hbase : 1 < base) (hhex : base ≤ 16) {ds es : List Nat}
    (h : (ds.map (Nat.toDigits base)).reverse = (es.map (Nat.toDigits base)).reverse) : ds = es :=
  List.map_injective_iff.2 (toDigits_injective hbase hhex) (List.reverse_injective h)

/-- neither hyphens nor points stand in numbers -/
theorem not_mem_toDigits {c : Char} (hc : isLabelEdge c = false) (n : Nat) : c ∉ Nat.toDigits 10 n := by
  intro hmem
  rw [isLabelEdge_of_mem_toDigits (by decide) (by decide) hmem] at hc
  cases hc

/-- the label of an octet that a block ends within and of the length of the block -/
def boundaryLabel (octet length : Nat) : List Char := Nat.toDigits 10 octet ++ '-' :: Nat.toDigits 10 length

theorem boundaryLabel_inj {octet length octet' length' : Nat}
    (h : boundaryLabel octet length = boundaryLabel octet' length') : octet = octet' ∧ length = length' := by
  have hhyphen : ∀ n, '-' ∉ Nat.toDigits 10 n := not_mem_toDigits (by decide)
  have hcut := congrArg (Text.cutFirst? '-') h
  rw [boundaryLabel, boundaryLabel, Text.cutFirst?_append (hhyphen octet), Text.cutFirst?_append (hhyphen octet')]
    at hcut
  obtain ⟨hoctet, hlength⟩ := Prod.mk.inj (Option.some.inj hcut)
  have hinjective : Function.Injective (Nat.toDigits 10) := toDigits_injective (by decide) (by decide)
  exact ⟨hinjective hoctet, hinjective hlength⟩

/-- no number is written like the label of a block that ends within an octet -/
theorem boundaryLabel_not_mem (octet length : Nat) (ds : List Nat) :
    boundaryLabel octet length ∉ (ds.map (Nat.toDigits 10)).reverse := by
  intro hmem
  obtain ⟨d, -, hd⟩ := List.mem_map.1 (List.mem_reverse.1 hmem)
  have hhyphen : '-' ∈ Nat.toDigits 10 d := by simp [hd, boundaryLabel]
  exact not_mem_toDigits (by decide) d hhyphen

theorem labels_boundary (octet length : Nat) (parent : String) :
    labels s!"{octet}-{length}.{parent}" = boundaryLabel octet length :: labels parent := by
  have htext : (s!"{octet}-{length}").toList = boundaryLabel octet length := by
    simp [boundaryLabel]
    rfl
  have hpoint : '.' ∉ boundaryLabel octet length := by
    have hnumber : ∀ n, '.' ∉ Nat.toDigits 10 n := not_mem_toDigits (by decide)
    simp [boundaryLabel, hnumber]
  have hlabel : labels s!"{octet}-{length}" = [boundaryLabel octet length] := by
    rw [labels, htext, Text.cutAll_eq_splitOn]
    exact List.splitOn_eq_singleton hpoint
  have happend := labels_append s!"{octet}-{length}" parent
  rw [hlabel] at happend
  exact happend

/-! ## Names of blocks -/

namespace AddressBlock

/-- the labels of a block's own in the name of its zone -/
def ownLabels : AddressBlock → List (List Char)
  | .v4 bits length _ _ =>
    let k := length / 8
    let whole := ((leadingDigits 32 8 k bits.toNat).map (Nat.toDigits 10)).reverse
    if length % 8 = 0 then whole
    else boundaryLabel (bits.toNat / 2 ^ (32 - 8 * (k + 1)) % 2 ^ 8) length :: whole
  | .v6 bits length _ _ _ => ((leadingDigits 128 4 (length / 4) bits.toNat).map (Nat.toDigits 16)).reverse

/-- the name above all reverse zones of the block's family -/
def root : AddressBlock → String
  | .v4 .. => "in-addr.arpa"
  | .v6 .. => "ip6.arpa"

theorem labels_zoneName (block : AddressBlock) : labels block.zoneName = block.ownLabels ++ labels block.root := by
  cases block with
  | v4 bits length length_le host_zero =>
    by_cases hwhole : length % 8 = 0
    · rw [zoneName_v4 bits length_le host_zero hwhole, labels_reversed (by decide) (by decide)]
      simp only [ownLabels, root, if_pos hwhole]
    · have hoctet : (leadingDigits 32 8 4 bits.toNat)[length / 8]? =
          some (bits.toNat / 2 ^ (32 - 8 * (length / 8 + 1)) % 2 ^ 8) := by
        have hfront : length / 8 < 4 := by omega
        simp [leadingDigits, hfront]
      rw [zoneName_withinOctet bits length_le host_zero hwhole hoctet, labels_boundary,
        labels_reversed (by decide) (by decide)]
      simp only [ownLabels, root, if_neg hwhole, List.cons_append]
  | v6 bits length length_le whole_nibbles host_zero =>
    rw [zoneName_v6, labels_reversed (by decide) (by decide)]
    rfl

/-- what stands in front of the name of the family is a block's own, and the families are told apart -/
theorem ownLabels_of_zoneName {block block' : AddressBlock} (h : block.zoneName = block'.zoneName) :
    block.root = block'.root ∧ block.ownLabels = block'.ownLabels := by
  have hlabels : block.ownLabels ++ labels block.root = block'.ownLabels ++ labels block'.root := by
    rw [← labels_zoneName, ← labels_zoneName, h]
  have hv4 : labels "in-addr.arpa" = ["in-addr".toList, "arpa".toList] := by decide +kernel
  have hv6 : labels "ip6.arpa" = ["ip6".toList, "arpa".toList] := by decide +kernel
  have hlength : (labels block.root).length = (labels block'.root).length := by
    cases block <;> cases block' <;> simp [root, hv4, hv6]
  obtain ⟨hown, hroot⟩ := List.append_inj' hlabels hlength
  have hname := congrArg ['.'].intercalate hroot
  rw [intercalate_labels, intercalate_labels, String.toList_inj] at hname
  exact ⟨hname, hown⟩

/-- an IPv4 block is told by its own labels -/
theorem v4_of_ownLabels {bits bits' : BitVec 32} {length length' : Nat} {length_le : length ≤ 32}
    {length_le' : length' ≤ 32} {host_zero : bits.toNat % Nat.pow 2 (32 - length) = 0}
    {host_zero' : bits'.toNat % Nat.pow 2 (32 - length') = 0}
    (h : ownLabels (.v4 bits length length_le host_zero) = ownLabels (.v4 bits' length' length_le' host_zero')) :
    bits = bits' ∧ length = length' := by
  simp only [ownLabels] at h
  split_ifs at h with hwhole hwhole' hwhole'
  · have hdigits := digits_eq_of_labels_eq (by decide) (by decide) h
    obtain rfl : length = length' := by
      have hcount := congrArg List.length hdigits
      rw [length_leadingDigits, length_leadingDigits] at hcount
      omega
    exact ⟨eq_of_leadingDigits_eq (by omega) (by omega) host_zero host_zero' hdigits, rfl⟩
  · exact absurd (h ▸ List.mem_cons_self) (boundaryLabel_not_mem _ _ _)
  · exact absurd (h ▸ List.mem_cons_self) (boundaryLabel_not_mem _ _ _)
  · obtain ⟨hboundary, hlabels⟩ := List.cons.inj h
    obtain ⟨hoctet, rfl⟩ := boundaryLabel_inj hboundary
    have hdigits := digits_eq_of_labels_eq (by decide) (by decide) hlabels
    -- the octet that the block ends within is one more leading digit
    have hmore : leadingDigits 32 8 (length / 8 + 1) bits.toNat = leadingDigits 32 8 (length / 8 + 1) bits'.toNat := by
      rw [leadingDigits_succ, leadingDigits_succ, hdigits, hoctet]
    exact ⟨eq_of_leadingDigits_eq (by omega) (by omega) host_zero host_zero' hmore, rfl⟩

/-- an IPv6 block is told by its own labels -/
theorem v6_of_ownLabels {bits bits' : BitVec 128} {length length' : Nat} {length_le : length ≤ 128}
    {length_le' : length' ≤ 128} {whole_nibbles : length % 4 = 0} {whole_nibbles' : length' % 4 = 0}
    {host_zero : bits.toNat % Nat.pow 2 (128 - length) = 0}
    {host_zero' : bits'.toNat % Nat.pow 2 (128 - length') = 0}
    (h : ownLabels (.v6 bits length length_le whole_nibbles host_zero) =
      ownLabels (.v6 bits' length' length_le' whole_nibbles' host_zero')) :
    bits = bits' ∧ length = length' := by
  have hdigits := digits_eq_of_labels_eq (by decide) (by decide) h
  obtain rfl : length = length' := by
    have hcount := congrArg List.length hdigits
    rw [length_leadingDigits, length_leadingDigits] at hcount
    omega
  exact ⟨eq_of_leadingDigits_eq (by omega) (by omega) host_zero host_zero' hdigits, rfl⟩

/-- blocks have names of their own -/
theorem zoneName_injective : Function.Injective zoneName := by
  intro block block' h
  obtain ⟨hroot, hown⟩ := ownLabels_of_zoneName h
  cases block with
  | v4 bits length length_le host_zero =>
    cases block' with
    | v4 bits' length' length_le' host_zero' =>
      obtain ⟨rfl, rfl⟩ := v4_of_ownLabels hown
      rfl
    | v6 => simp [root] at hroot
  | v6 bits length length_le whole_nibbles host_zero =>
    cases block' with
    | v4 => simp [root] at hroot
    | v6 bits' length' length_le' whole_nibbles' host_zero' =>
      obtain ⟨rfl, rfl⟩ := v6_of_ownLabels hown
      rfl

end AddressBlock

/-! ## Texts of blocks -/

/-- a text writes one prefix at most -/
theorem Writes.unique {s : String} {a b : Address} {n m : Nat} (h : Writes s a n) (h' : Writes s b m) :
    a = b ∧ n = m := by
  obtain ⟨before, after, htext, hslash, ha, hn, -⟩ := h
  obtain ⟨before', after', htext', hslash', hb, hm, -⟩ := h'
  have hcut := Text.cutFirst?_append hslash after
  rw [← htext, htext', Text.cutFirst?_append hslash'] at hcut
  obtain ⟨rfl, rfl⟩ := Prod.mk.inj (Option.some.inj hcut)
  exact ⟨Option.some.inj (ha.symm.trans hb), hn.unique hm⟩

theorem AddressBlock.eq_iff {block block' : AddressBlock} :
    block = block' ↔ block.address = block'.address ∧ block.length = block'.length := by
  constructor
  · rintro rfl
    exact ⟨rfl, rfl⟩
  · rintro ⟨haddress, hlength⟩
    have hof : of block'.address block'.length = .ok block := of_eq_ok_iff.2 ⟨haddress, hlength⟩
    exact Except.ok.inj (hof.symm.trans (of_eq_ok_iff.2 ⟨rfl, rfl⟩))

/-- a text that has a reverse zone writes the prefix of one block and no other -/
theorem ReverseZone.exists_prefix {s : String} {zone : ReverseZone} (h : ofString s = .ok zone) :
    ∃ block : AddressBlock, zone.name = block.zoneName ∧
      ∀ a n, Writes s a n ↔ a = block.address ∧ n = block.length := by
  obtain ⟨block, hblock, rfl⟩ := ofString_eq_ok h
  obtain ⟨a, n, hwrites, hof⟩ := AddressBlock.ofString_eq_ok_iff.1 hblock
  obtain ⟨rfl, rfl⟩ := AddressBlock.of_eq_ok_iff.1 hof
  refine ⟨block, rfl, fun b m => ⟨fun hwrites' => hwrites'.unique hwrites, ?_⟩⟩
  rintro ⟨rfl, rfl⟩
  exact hwrites

/-- **Reverse zones have names of their own.** Of two texts that have reverse zones each writes one prefix, an address
and a length, and their zones have one name exactly if the prefixes are the same: addresses of one family and one value,
with one length. -/
theorem reverse_zones_distinct {s t : String} {zone zone' : ReverseZone} (hs : ReverseZone.ofString s = .ok zone)
    (ht : ReverseZone.ofString t = .ok zone') :
    ∃ a n b m, (∀ a' n', Writes s a' n' ↔ a' = a ∧ n' = n) ∧ (∀ b' m', Writes t b' m' ↔ b' = b ∧ m' = m) ∧
      (zone.name = zone'.name ↔ a = b ∧ n = m) := by
  obtain ⟨block, hname, hprefix⟩ := ReverseZone.exists_prefix hs
  obtain ⟨block', hname', hprefix'⟩ := ReverseZone.exists_prefix ht
  refine ⟨block.address, block.length, block'.address, block'.length, hprefix, hprefix', ?_⟩
  rw [hname, hname', AddressBlock.zoneName_injective.eq_iff, AddressBlock.eq_iff]

/-- two spellings of one prefix, and two prefixes of one address that differ by a bit of length -/
theorem reverse_zones_distinct_withinOctet :
    let zone : ReverseZone := ⟨"64-26.2.0.192.in-addr.arpa", true⟩
    let other : ReverseZone := ⟨"64-27.2.0.192.in-addr.arpa", true⟩
    ReverseZone.ofString " 192.0.2.64/+26 " = .ok zone ∧ ReverseZone.ofString "192.0.2.64/026" = .ok zone ∧
      ReverseZone.ofString "192.0.2.64/27" = .ok other ∧
      (∃ a n, Writes " 192.0.2.64/+26 " a n ∧ Writes "192.0.2.64/026" a n) ∧
      ¬∃ a n, Writes "192.0.2.64/026" a n ∧ Writes "192.0.2.64/27" a n := by
  intro zone other
  have hzone : ReverseZone.ofString " 192.0.2.64/+26 " = .ok zone := by decide +kernel
  have hsame : ReverseZone.ofString "192.0.2.64/026" = .ok zone := by decide +kernel
  have hother : ReverseZone.ofString "192.0.2.64/27" = .ok other := by decide +kernel
  obtain ⟨a, n, b, m, hs, ht, hone⟩ := reverse_zones_distinct hzone hsame
  obtain ⟨c, k, e, l, ht', hu, hdiffer⟩ := reverse_zones_distinct hsame hother
  obtain ⟨rfl, rfl⟩ := hone.1 rfl
  refine ⟨hzone, hsame, hother, ⟨a, n, (hs a n).2 ⟨rfl, rfl⟩, (ht a n).2 ⟨rfl, rfl⟩⟩, ?_⟩
  rintro ⟨x, y, hx, hy⟩
  obtain ⟨rfl, rfl⟩ := (ht' x y).1 hx
  exact absurd (hdiffer.2 ((hu x y).1 hy)) (by decide)

end ZonePlan
