/-
Reverse zones hold the names of the addresses of their blocks, and no others (`reverse_zone_holds`).

Both the zone of a block that ends between two octets or nibbles and the name of an address are a row of digits of one
base under one parent name, the zone with the leading ones only. So the labels of the zone are the last ones of the name
exactly if the leading digits agree, which they do exactly if the leading bits do (`labels_reversed_suffix_iff`); that
digits are compared as labels keeps `2` apart from `12`. What is placed where is then a matter of labels
(`Zone.place_of_plain`).
-/
import ZonePlan.Proofs.Address
import ZonePlan.Proofs.Zone.Names
import ZonePlan.ReverseZone

namespace ZonePlan

open Zone

/-! ## Digits as labels -/

section

variable {base : Nat} (hbase : 1 < base)
include hbase

theorem toDigits_eq (n : Nat) :
    Nat.toDigits base n = (if n < base then [] else Nat.toDigits base (n / base)) ++ [Nat.digitChar (n % base)] := by
  rw [Nat.toDigits_eq_if hbase]
  split_ifs with h
  · rw [Nat.mod_eq_of_lt h]
    rfl
  · rfl

variable (hhex : base ≤ 16)
include hhex

theorem isLabelEdge_of_mem_toDigits {n : Nat} {c : Char} (hc : c ∈ Nat.toDigits base n) : isLabelEdge c = true := by
  have hdigit : ∀ d < 16, isLabelEdge (Nat.digitChar d) = true := by decide
  induction n using Nat.strongRecOn with
  | ind n ih =>
    rw [toDigits_eq hbase, List.mem_append, List.mem_singleton] at hc
    rcases hc with hc | rfl
    · split_ifs at hc with hn
      · cases hc
      · exact ih (n / base) (Nat.div_lt_self (by omega) hbase) hc
    · exact hdigit _ ((Nat.mod_lt n (by omega)).trans_le hhex)

/-- numbers with the same digits are the same -/
theorem toDigits_injective : Function.Injective (Nat.toDigits base) := by
  have hdigit : ∀ d < 16, ∀ e < 16, Nat.digitChar d = Nat.digitChar e → d = e := by decide
  intro n
  induction n using Nat.strongRecOn with
  | ind n ih =>
    intro m h
    rw [toDigits_eq hbase n, toDigits_eq hbase m] at h
    obtain ⟨hfront, hlast⟩ := List.append_inj' h rfl
    have hmod : n % base = m % base := hdigit _ ((Nat.mod_lt n (by omega)).trans_le hhex) _
      ((Nat.mod_lt m (by omega)).trans_le hhex) (List.singleton_inj.1 hlast)
    refine Nat.ext_div_mod ?_ hmod
    split_ifs at hfront with hn hm hm
    · rw [Nat.div_eq_of_lt hn, Nat.div_eq_of_lt hm]
    · exact absurd hfront.symm Nat.toDigits_ne_nil
    · exact absurd hfront Nat.toDigits_ne_nil
    · exact ih (n / base) (Nat.div_lt_self (by omega) hbase) hfront

theorem isPart_toDigits (n : Nat) : IsPart (Nat.toDigits base n) := by
  have hedge : ∀ c ∈ Nat.toDigits base n, isLabelEdge c = true := fun c => isLabelEdge_of_mem_toDigits hbase hhex
  have hhyphen : '-' ∉ Nat.toDigits base n := by
    intro hmem
    exact absurd (hedge '-' hmem) (by decide)
  refine ⟨Nat.toDigits_ne_nil, fun c hc => Or.inl (hedge c hc), ?_, ?_⟩
  · intro hhead
    exact hhyphen (List.mem_of_mem_head? hhead)
  · intro hlast
    exact hhyphen (List.mem_of_mem_getLast? hlast)

/-- the labels of a name that is made of digits -/
theorem labels_reversed (digits : List Nat) (parent : String) :
    labels (AddressBlock.reversed base digits parent) =
      (digits.map (Nat.toDigits base)).reverse ++ labels parent := by
  rw [AddressBlock.reversed, labels_joinWith]
  · rw [List.map_reverse, List.map_map]
    congr 2
    simp [Function.comp_def]
  · intro s hs hpoint
    obtain ⟨d, -, rfl⟩ := List.mem_map.1 (List.mem_reverse.1 hs)
    rw [String.toList_ofList] at hpoint
    exact absurd (isLabelEdge_of_mem_toDigits hbase hhex hpoint) (by decide)

theorem plainName_reversed (digits : List Nat) {parent : String} (hparent : PlainName parent) :
    PlainName (AddressBlock.reversed base digits parent) := by
  intro part hpart
  rw [labels_reversed hbase hhex, List.mem_append, List.mem_reverse, List.mem_map] at hpart
  rcases hpart with ⟨d, -, rfl⟩ | hpart
  · exact isPart_toDigits hbase hhex d
  · exact hparent part hpart

end

/-! ## Leading digits and bits -/

/-- the first `k` digits of a number of `w` bits, each of `u` bits, the most significant first -/
def leadingDigits (w u k n : Nat) : List Nat :=
  (List.range k).map fun i => n / 2 ^ (w - u * (i + 1)) % 2 ^ u

theorem leadingDigits_succ (w u k n : Nat) :
    leadingDigits w u (k + 1) n = leadingDigits w u k n ++ [n / 2 ^ (w - u * (k + 1)) % 2 ^ u] := by
  rw [leadingDigits, List.range_succ, List.map_append]
  rfl

theorem lt_of_mem_leadingDigits {w u k n d : Nat} (hd : d ∈ leadingDigits w u k n) : d < 2 ^ u := by
  obtain ⟨i, -, rfl⟩ := List.mem_map.1 hd
  exact Nat.mod_lt _ (Nat.two_pow_pos u)

/-- the bits behind `k` digits are those of the next digit and those behind it -/
theorem bits_behind_digits {w u k : Nat} (hk : u * (k + 1) ≤ w) : w - u * k = (w - u * (k + 1)) + u := by
  rw [Nat.mul_succ] at hk ⊢
  omega

theorem take_leadingDigits {k m : Nat} (h : k ≤ m) (w u n : Nat) :
    (leadingDigits w u m n).take k = leadingDigits w u k n := by
  rw [leadingDigits, ← List.map_take, List.take_range, min_eq_left h, leadingDigits]

/-- the leading digits of two numbers agree exactly if the numbers do above the other digits -/
theorem leadingDigits_eq_iff {w u k n m : Nat} (hk : u * k ≤ w) (hn : n < 2 ^ w) (hm : m < 2 ^ w) :
    leadingDigits w u k n = leadingDigits w u k m ↔ n / 2 ^ (w - u * k) = m / 2 ^ (w - u * k) := by
  rw [leadingDigits, leadingDigits, List.map_inj_left]
  simp only [List.mem_range]
  induction k with
  | zero => simp [Nat.div_eq_of_lt hn, Nat.div_eq_of_lt hm]
  | succ k ih =>
    have hprevious : u * k ≤ w := (Nat.mul_le_mul_left u k.le_succ).trans hk
    -- one digit more is the remainder of what stands above the digits behind it, and the others are the quotient
    rw [Nat.forall_lt_succ_right, ih hprevious, bits_behind_digits hk, Nat.pow_add, ← Nat.div_div_eq_div_mul,
      ← Nat.div_div_eq_div_mul]
    constructor
    · intro h
      exact Nat.ext_div_mod h.1 h.2
    · intro h
      rw [h]
      exact ⟨rfl, rfl⟩

/-- a bit is a digit of one bit -/
theorem getMsbD_eq_iff {w i : Nat} (hi : i < w) (a b : BitVec w) :
    a.getMsbD i = b.getMsbD i ↔
      a.toNat / 2 ^ (w - 1 * (i + 1)) % 2 ^ 1 = b.toNat / 2 ^ (w - 1 * (i + 1)) % 2 ^ 1 := by
  have hplace : w - 1 * (i + 1) = w - 1 - i := by omega
  rw [BitVec.getMsbD_eq_getLsbD, BitVec.getMsbD_eq_getLsbD, ← BitVec.testBit_toNat, ← BitVec.testBit_toNat,
    Nat.testBit_eq_decide_div_mod_eq, Nat.testBit_eq_decide_div_mod_eq, hplace, Nat.pow_one]
  simp only [hi, decide_true, Bool.true_and, decide_eq_decide]
  omega

theorem leading_bits_iff {w k : Nat} (hk : k ≤ w) (a b : BitVec w) :
    (∀ i < k, a.getMsbD i = b.getMsbD i) ↔ a.toNat / 2 ^ (w - k) = b.toNat / 2 ^ (w - k) := by
  have hdigits := leadingDigits_eq_iff (u := 1) (k := k) (by omega) a.isLt b.isLt
  rw [leadingDigits, leadingDigits, List.map_inj_left, Nat.one_mul] at hdigits
  rw [← hdigits]
  refine forall_congr' fun i => ?_
  rw [List.mem_range]
  exact forall_congr' fun hi => getMsbD_eq_iff (hi.trans_le hk) a b

/-! ## Names of addresses in zones of blocks -/

section

variable {base u w k m : Nat} (hbase : 1 < base) (hhex : base ≤ 16) (hk : k ≤ m) (hm : u * m ≤ w)
include hbase hhex hk hm

/-- the labels of a zone are the last ones of a name exactly if the bits agree that the zone is named by -/
theorem labels_reversed_suffix_iff (parent : String) (block host : BitVec w) :
    labels (AddressBlock.reversed base (leadingDigits w u k block.toNat) parent) <:+
        labels (AddressBlock.reversed base (leadingDigits w u m host.toNat) parent) ↔
      ∀ i < u * k, host.getMsbD i = block.getMsbD i := by
  have hbits : u * k ≤ w := (Nat.mul_le_mul_left u hk).trans hm
  have hlength : (leadingDigits w u k block.toNat).length = k := by simp [leadingDigits]
  rw [labels_reversed hbase hhex, labels_reversed hbase hhex]
  calc _ ↔ (leadingDigits w u k block.toNat).map (Nat.toDigits base) <+:
        (leadingDigits w u m host.toNat).map (Nat.toDigits base) := by
        rw [List.suffix_append_self_iff, List.reverse_suffix]
    _ ↔ leadingDigits w u k block.toNat <+: leadingDigits w u m host.toNat :=
        List.prefix_map_iff_of_injective (toDigits_injective hbase hhex)
    _ ↔ leadingDigits w u k host.toNat = leadingDigits w u k block.toNat := by
        rw [List.prefix_iff_eq_take, hlength, take_leadingDigits hk, eq_comm]
    _ ↔ host.toNat / 2 ^ (w - u * k) = block.toNat / 2 ^ (w - u * k) :=
        leadingDigits_eq_iff hbits host.isLt block.isLt
    _ ↔ ∀ i < u * k, host.getMsbD i = block.getMsbD i := (leading_bits_iff hbits host block).symm

end

/-! ## Addresses in blocks -/

/-- the number of bits of an address -/
def Address.width : Address → Nat
  | .v4 _ => 32
  | .v6 _ => 128

namespace AddressBlock

/-- the number of bits of the addresses of a block -/
def width : AddressBlock → Nat
  | .v4 .. => 32
  | .v6 .. => 128

/-- an address lies in a block if it is of its kind and has its leading bits -/
def Holds (block : AddressBlock) (a : Address) : Prop :=
  match block, a with
  | .v4 bits length _ _, .v4 host => ∀ i < length, host.getMsbD i = bits.getMsbD i
  | .v6 bits length _ _ _, .v6 host => ∀ i < length, host.getMsbD i = bits.getMsbD i
  | _, _ => False

theorem take_octets {k : Nat} (hk : k ≤ 4) (bits : BitVec 32) :
    (octets bits).take k = leadingDigits 32 8 k bits.toNat := by
  rw [octets, ← List.map_take, List.take_range, min_eq_left hk, leadingDigits, List.map_inj_left]
  intro i hi
  have hplace : 24 - 8 * i = 32 - 8 * (i + 1) := by omega
  rw [hplace]
  rfl

theorem take_nibbles {k : Nat} (hk : k ≤ 32) (bits : BitVec 128) :
    (nibbles bits).take k = leadingDigits 128 4 k bits.toNat := by
  rw [nibbles, ← List.map_take, List.take_range, min_eq_left hk, leadingDigits, List.map_inj_left]
  intro i hi
  have hplace : 124 - 4 * i = 128 - 4 * (i + 1) := by omega
  rw [hplace]
  rfl

/-- an IPv4 block that ends between two octets is named by the octets in front of its end -/
theorem zoneName_v4 (bits : BitVec 32) {length : Nat} (length_le : length ≤ 32)
    (host_zero : bits.toNat % Nat.pow 2 (32 - length) = 0) (h : length % 8 = 0) :
    zoneName (.v4 bits length length_le host_zero) =
      reversed 10 (leadingDigits 32 8 (length / 8) bits.toNat) "in-addr.arpa" := by
  have hwhole : isClassless (.v4 bits length length_le host_zero) = false := by simp [isClassless, h]
  rw [zoneName, hwhole, ← take_octets (by omega)]
  rfl

theorem zoneName_v6 (bits : BitVec 128) {length : Nat} (length_le : length ≤ 128) (whole_nibbles : length % 4 = 0)
    (host_zero : bits.toNat % Nat.pow 2 (128 - length) = 0) :
    zoneName (.v6 bits length length_le whole_nibbles host_zero) =
      reversed 16 (leadingDigits 128 4 (length / 4) bits.toNat) "ip6.arpa" := by
  rw [zoneName, take_nibbles (by omega)]

end AddressBlock

/-! ## Single addresses -/

/-- the block of one address -/
def Address.alone : Address → AddressBlock
  | .v4 bits => .v4 bits 32 le_rfl (Nat.mod_one bits.toNat)
  | .v6 bits => .v6 bits 128 le_rfl rfl (Nat.mod_one bits.toNat)

theorem AddressBlock.of_width (a : Address) : of a a.width = .ok a.alone := by
  cases a with
  | v4 bits => simp [of, Address.width, Address.alone, Nat.mod_one]
  | v6 bits => simp [of, Address.width, Address.alone, Nat.mod_one]

theorem isClassless_alone (a : Address) : a.alone.isClassless = false := by
  cases a <;> rfl

/-- a text of an address, with all its bits, is a text of the block of this address -/
theorem AddressBlock.ofString_address {cs : List Char} {a : Address} (h : Address.ofChars? cs = some a) :
    ofString (String.ofList cs ++ "/" ++ toString a.width) = .ok a.alone := by
  have hchars := Address.chars_of_address h
  have hslash : '/' ∉ cs := fun hmem => Address.ne_slash_of_isAddressChar (hchars '/' hmem) rfl
  have htext : (String.ofList cs ++ "/" ++ toString a.width).toList = cs ++ '/' :: (toString a.width).toList := by
    simp
  have hwidth : a.width = 32 ∨ a.width = 128 := by cases a <;> simp [Address.width]
  have hdigits : ∀ c ∈ (toString a.width).toList, Text.isBlank c = false := by
    intro c hc
    rw [Nat.toString_eq_ofList_toDigits, String.toList_ofList] at hc
    exact Address.isBlank_addressChar
      (Address.isAddressChar_of_isDigit (Nat.isDigit_of_mem_toDigits (by decide) le_rfl hc))
  have hlength : Text.unsigned? (Nat.pow 2 32 - 1) (toString a.width).toList = some a.width := by
    rcases hwidth with hwidth | hwidth <;> rw [hwidth] <;> decide
  have hclear : ∀ c ∈ cs ++ '/' :: (toString a.width).toList, Text.isBlank c = false := by
    intro c hc
    rcases List.mem_append.1 hc with hc | hc
    · exact Address.isBlank_addressChar (hchars c hc)
    · rcases List.mem_cons.1 hc with rfl | hc
      · decide
      · exact hdigits c hc
  rw [ofString, htext, Text.trimChars_eq_self_iff.2 (Text.trimmed_of_forall hclear), Text.cutFirst?_append hslash]
  simp only [hlength, h, of_width]

/-- the reverse zone of one address -/
theorem ReverseZone.ofString_address {cs : List Char} {a : Address} (h : Address.ofChars? cs = some a) :
    ReverseZone.ofString (String.ofList cs ++ "/" ++ toString a.width) = .ok ⟨a.alone.zoneName, false⟩ := by
  rw [ReverseZone.ofString, AddressBlock.ofString_address h, ← isClassless_alone a]
  rfl

/-! ## Reverse zones -/

theorem ReverseZone.ofString_eq_ok {s : String} {zone : ReverseZone} (h : ofString s = .ok zone) :
    ∃ block, AddressBlock.ofString s = .ok block ∧ (⟨block.zoneName, block.isClassless⟩ : ReverseZone) = zone := by
  unfold ofString at h
  cases hblock : AddressBlock.ofString s with
  | error problem =>
    rw [hblock] at h
    cases h
  | ok block =>
    rw [hblock] at h
    exact ⟨block, rfl, Except.ok.inj h⟩

theorem plainName_inAddr : PlainName "in-addr.arpa" :=
  plainName_of_isLabel (by decide +kernel) (by decide +kernel)

theorem plainName_ip6 : PlainName "ip6.arpa" :=
  plainName_of_isLabel (by decide +kernel) (by decide +kernel)

/-- the name of a zone that is not named by RFC 4183 is plain -/
theorem plainName_zoneName {block : AddressBlock} (h : block.isClassless = false) : PlainName block.zoneName := by
  cases block with
  | v4 bits length length_le host_zero =>
    have hwhole : length % 8 = 0 := by simpa [AddressBlock.isClassless] using h
    rw [AddressBlock.zoneName_v4 bits length_le host_zero hwhole]
    exact plainName_reversed (by decide) (by decide) _ plainName_inAddr
  | v6 bits length length_le whole_nibbles host_zero =>
    rw [AddressBlock.zoneName_v6]
    exact plainName_reversed (by decide) (by decide) _ plainName_ip6

/-- the labels of a zone that is not named by RFC 4183 are the last ones of the name of an address exactly if the
address lies in the block -/
theorem labels_zoneName_suffix_iff {block : AddressBlock} (h : block.isClassless = false) {a : Address}
    (ha : a.width = block.width) : labels block.zoneName <:+ labels a.alone.zoneName ↔ block.Holds a := by
  cases block with
  | v4 bits length length_le host_zero =>
    cases a with
    | v6 host => cases ha
    | v4 host =>
      have hwhole : length % 8 = 0 := by simpa [AddressBlock.isClassless] using h
      have hlength : 8 * (length / 8) = length := by omega
      rw [AddressBlock.zoneName_v4 bits length_le host_zero hwhole, Address.alone,
        AddressBlock.zoneName_v4 host le_rfl _ rfl,
        labels_reversed_suffix_iff (by decide) (by decide) (by omega) (by decide), hlength]
      rfl
  | v6 bits length length_le whole_nibbles host_zero =>
    cases a with
    | v4 host => cases ha
    | v6 host =>
      have hlength : 4 * (length / 4) = length := by omega
      rw [AddressBlock.zoneName_v6, Address.alone, AddressBlock.zoneName_v6,
        labels_reversed_suffix_iff (by decide) (by decide) (by omega) (by decide), hlength]
      rfl

/-- **A reverse zone holds the names of the addresses of its block and no others.** The name of a zone that is not named
by RFC 4183 is in its final form; and of an address of the same kind, the full name is placed in the zone without a
finding if the address lies in the block, at the apex if it is the zone's own and otherwise under the label that is in
front of the zone, and is found outside the zone, with nothing else, if the address does not lie in the block. -/
theorem reverse_zone_holds {s : String} {zone : ReverseZone} (hs : ReverseZone.ofString s = .ok zone)
    (hclassless : zone.classless = false) :
    name zone.name = zone.name ∧ ∃ block, AddressBlock.ofString s = .ok block ∧
      ∀ a : Address, a.width = block.width →
        let full := a.alone.zoneName
        let placed := place zone.name (clean (full ++ "."))
        AddressBlock.of a a.width = .ok a.alone ∧
        (∀ cs, Address.ofChars? cs = some a →
          ReverseZone.ofString (String.ofList cs ++ "/" ++ toString a.width) = .ok ⟨full, false⟩) ∧
        (block.Holds a → labelFindings zone.name placed = [] ∧
          ((full = zone.name ∧ placed.label = "@") ∨
            (full ≠ zone.name ∧ isLabel placed.label = true ∧ placed.label ++ "." ++ zone.name = full))) ∧
        (¬block.Holds a → labelFindings zone.name placed = [.outsideZone zone.name (full ++ ".")]) := by
  obtain ⟨block, hblock, rfl⟩ := ReverseZone.ofString_eq_ok hs
  have hplain := plainName_zoneName hclassless
  refine ⟨name_of_isLabel hplain.isLabel, block, hblock, ?_⟩
  intro a ha full placed
  refine ⟨AddressBlock.of_width a, fun cs hcs => ReverseZone.ofString_address hcs, ?_⟩
  rw [← labels_zoneName_suffix_iff hclassless ha]
  exact place_of_plain (plainName_zoneName (isClassless_alone a))

/-- an address of the block, and one whose third octet ends with the same digit -/
theorem reverse_zone_holds_digits :
    let zone : ReverseZone := ⟨"2.0.192.in-addr.arpa", false⟩
    ReverseZone.ofString "192.0.2.0/24" = .ok zone ∧
      labelFindings zone.name (place zone.name (clean "7.2.0.192.in-addr.arpa.")) = [] ∧
      labelFindings zone.name (place zone.name (clean "7.12.0.192.in-addr.arpa.")) =
        [.outsideZone zone.name "7.12.0.192.in-addr.arpa."] := by
  intro zone
  have hzone : ReverseZone.ofString "192.0.2.0/24" = .ok zone := by decide +kernel
  have hblock : AddressBlock.ofString "192.0.2.0/24" = .ok (.v4 0xC0000200 24 (by decide) (by decide)) := by
    decide +kernel
  have hinside : (Address.alone (.v4 0xC0000207)).zoneName = "7.2.0.192.in-addr.arpa" := by decide +kernel
  have houtside : (Address.alone (.v4 0xC0000C07)).zoneName = "7.12.0.192.in-addr.arpa" := by decide +kernel
  obtain ⟨-, block, hgiven, hplaced⟩ := reverse_zone_holds hzone rfl
  obtain rfl := Except.ok.inj (hgiven.symm.trans hblock)
  obtain ⟨-, -, hin, -⟩ := hplaced (.v4 0xC0000207) rfl
  obtain ⟨-, -, -, hout⟩ := hplaced (.v4 0xC0000C07) rfl
  rw [hinside] at hin
  rw [houtside] at hout
  refine ⟨hzone, (hin ?_).1, hout ?_⟩
  · simp only [AddressBlock.Holds]
    decide
  · simp only [AddressBlock.Holds]
    decide

end ZonePlan
