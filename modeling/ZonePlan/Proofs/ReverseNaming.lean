/-
Which texts have a reverse zone, and its name to the letter (`reverse_zone_exact`).

The name is told by three rules (`Names`) over the digits of the address, which are the only ones that make its number
(`Digits.unique`): a block that ends between two octets is named by those in front of its end, one that ends within an
octet by this octet, its length and the name of the block that encloses it, and an IPv6 block by its nibbles. That the
enclosing block has the octets of the block itself in front is a matter of leading bits (`leadingDigits_leading`).

An address ends at a length if the bits behind are zero. They can be told by a mask, and `hostMask` is the one that a
shift of all bits makes as long as it goes by less than the width; a remainder tells the same (`toNat_and_hostMask`).
-/
import ZonePlan.Proofs.ReverseZone

namespace ZonePlan

/-! ## Digits of an address -/

/-- `ds` are the digits of `n` in a base, `count` in all and the most significant first -/
structure Digits (base count n : Nat) (ds : List Nat) : Prop where
  length_eq : ds.length = count
  lt_base : ∀ d ∈ ds, d < base
  value_eq : Text.ofDigits base ds = n

theorem Digits.unique {base count n : Nat} {ds es : List Nat} (hbase : 1 < base) (hds : Digits base count n ds)
    (hes : Digits base count n es) : ds = es := by
  have hvalue : Nat.ofDigits base ds.reverse = Nat.ofDigits base es.reverse := by
    rw [← Text.ofDigits_eq_ofDigits_reverse, ← Text.ofDigits_eq_ofDigits_reverse, hds.value_eq, hes.value_eq]
  have hlength : ds.reverse.length = es.reverse.length := by
    rw [List.length_reverse, List.length_reverse, hds.length_eq, hes.length_eq]
  refine List.reverse_injective (Nat.ofDigits_inj_of_len_eq hbase hlength ?_ ?_ hvalue)
  · intro d hd
    exact hds.lt_base d (List.mem_reverse.1 hd)
  · intro d hd
    exact hes.lt_base d (List.mem_reverse.1 hd)

/-- the leading digits make what stands above the other ones -/
theorem ofDigits_leadingDigits {w u k n : Nat} (hk : u * k ≤ w) (hn : n < 2 ^ w) :
    Text.ofDigits (2 ^ u) (leadingDigits w u k n) = n / 2 ^ (w - u * k) := by
  induction k with
  | zero => simp [leadingDigits, Text.ofDigits, Nat.div_eq_of_lt hn]
  | succ k ih =>
    have hprevious : u * k ≤ w := (Nat.mul_le_mul_left u k.le_succ).trans hk
    rw [leadingDigits_succ, Text.ofDigits_append_singleton, ih hprevious, bits_behind_digits hk, Nat.pow_add,
      ← Nat.div_div_eq_div_mul, Nat.div_add_mod']

theorem digits_leadingDigits {w u m : Nat} (hw : w = u * m) (bits : BitVec w) :
    Digits (2 ^ u) m bits.toNat (leadingDigits w u m bits.toNat) where
  length_eq := by simp [leadingDigits]
  lt_base := fun _ => lt_of_mem_leadingDigits
  value_eq := by
    have hall : w - u * m = 0 := by omega
    rw [ofDigits_leadingDigits hw.ge bits.isLt, hall, Nat.pow_zero, Nat.div_one]

theorem digits_octets (bits : BitVec 32) : Digits 256 4 bits.toNat (leadingDigits 32 8 4 bits.toNat) :=
  digits_leadingDigits (u := 8) (m := 4) rfl bits

theorem digits_nibbles (bits : BitVec 128) : Digits 16 32 bits.toNat (leadingDigits 128 4 32 bits.toNat) :=
  digits_leadingDigits (u := 4) (m := 32) rfl bits

/-! ## Bits behind a length -/

/-- the mask of the bits behind the first `length`; at the width there are none, and nothing is shifted -/
def hostMask (w length : Nat) : BitVec w :=
  if length < w then BitVec.allOnes w >>> length else 0

theorem getLsbD_hostMask (w length i : Nat) : (hostMask w length).getLsbD i = decide (i < w - length) := by
  unfold hostMask
  split_ifs with h
  · rw [BitVec.getLsbD_ushiftRight, BitVec.getLsbD_allOnes, decide_eq_decide]
    omega
  · have hnone : ¬i < w - length := by omega
    simp [hnone]

/-- the mask keeps what a division by a power of two leaves over -/
theorem toNat_and_hostMask {w : Nat} (bits : BitVec w) (length : Nat) :
    (bits &&& hostMask w length).toNat = bits.toNat % 2 ^ (w - length) := by
  refine Nat.eq_of_testBit_eq fun i => ?_
  rw [BitVec.testBit_toNat, BitVec.getLsbD_and, getLsbD_hostMask, Nat.testBit_mod_two_pow, BitVec.testBit_toNat,
    Bool.and_comm]

theorem and_hostMask_eq_zero_iff {w : Nat} (bits : BitVec w) (length : Nat) :
    bits &&& hostMask w length = 0 ↔ bits.toNat % Nat.pow 2 (w - length) = 0 := by
  rw [← BitVec.toNat_inj, toNat_and_hostMask]
  rfl

theorem host_zero_iff {w : Nat} (bits : BitVec w) (length : Nat) :
    bits.toNat % Nat.pow 2 (w - length) = 0 ↔ ∀ i < w - length, bits.getLsbD i = false := by
  rw [← and_hostMask_eq_zero_iff]
  constructor
  · intro h i hi
    have hbit : (bits &&& hostMask w length).getLsbD i = false := by simp [h]
    simpa [getLsbD_hostMask, hi] using hbit
  · intro h
    refine BitVec.eq_of_getLsbD_eq fun i _ => ?_
    rw [BitVec.getLsbD_and, getLsbD_hostMask]
    by_cases hi : i < w - length
    · simp [h i hi]
    · simp [hi]

/-- a word with nothing behind its first `length` bits -/
def leading {w : Nat} (bits : BitVec w) (length : Nat) : BitVec w :=
  bits &&& ~~~hostMask w length

theorem getMsbD_leading {w length i : Nat} (hi : i < length) (hlength : length ≤ w) (bits : BitVec w) :
    (leading bits length).getMsbD i = bits.getMsbD i := by
  have hfront : ¬w - 1 - i < w - length := by omega
  have hrange : w - 1 - i < w := by omega
  rw [BitVec.getMsbD_eq_getLsbD, BitVec.getMsbD_eq_getLsbD, leading, BitVec.getLsbD_and, BitVec.getLsbD_not,
    getLsbD_hostMask]
  simp only [hfront, hrange, decide_true, decide_false, Bool.not_false, Bool.and_true]

theorem getLsbD_leading {w length i : Nat} (hi : i < w - length) (bits : BitVec w) :
    (leading bits length).getLsbD i = false := by
  simp [leading, getLsbD_hostMask, hi]

/-- the digits in front of a length are those of the word itself -/
theorem leadingDigits_leading {w u k : Nat} (hk : u * k ≤ w) (bits : BitVec w) :
    leadingDigits w u k (leading bits (u * k)).toNat = leadingDigits w u k bits.toNat := by
  rw [leadingDigits_eq_iff hk (BitVec.isLt _) (BitVec.isLt _), ← leading_bits_iff hk]
  intro i hi
  exact getMsbD_leading hi hk bits

/-! ## Blocks of an address and a length -/

/-- an address ends at a length if it has this many bits, the bits behind are zero, and an IPv6 address ends between two
nibbles -/
def Address.EndsAt (a : Address) (length : Nat) : Prop :=
  match a with
  | .v4 bits => length ≤ 32 ∧ ∀ i < 32 - length, bits.getLsbD i = false
  | .v6 bits => length ≤ 128 ∧ length % 4 = 0 ∧ ∀ i < 128 - length, bits.getLsbD i = false

namespace AddressBlock

/-- the address that a block begins with -/
def address : AddressBlock → Address
  | .v4 bits .. => .v4 bits
  | .v6 bits .. => .v6 bits

/-- the number of bits that the addresses of a block share -/
def length : AddressBlock → Nat
  | .v4 _ length .. => length
  | .v6 _ length .. => length

theorem of_eq_ok_iff {a : Address} {length : Nat} {block : AddressBlock} :
    of a length = .ok block ↔ block.address = a ∧ block.length = length := by
  constructor
  · intro h
    cases a <;>
    · simp only [of] at h
      split_ifs at h
      cases h
      exact ⟨rfl, rfl⟩
  · rintro ⟨rfl, rfl⟩
    cases block with
    | v4 bits length length_le host_zero =>
      change of (.v4 bits) length = _
      rw [of, dif_pos length_le, dif_pos host_zero]
    | v6 bits length length_le whole_nibbles host_zero =>
      change of (.v6 bits) length = _
      rw [of, dif_pos length_le, dif_pos whole_nibbles, dif_pos host_zero]

theorem endsAt (block : AddressBlock) : block.address.EndsAt block.length := by
  cases block with
  | v4 bits length length_le host_zero => exact ⟨length_le, (host_zero_iff bits length).1 host_zero⟩
  | v6 bits length length_le whole_nibbles host_zero =>
    exact ⟨length_le, whole_nibbles, (host_zero_iff bits length).1 host_zero⟩

/-- exactly an address that ends at a length makes a block with it -/
theorem exists_of_eq_ok_iff {a : Address} {length : Nat} : (∃ block, of a length = .ok block) ↔ a.EndsAt length := by
  constructor
  · rintro ⟨block, hblock⟩
    obtain ⟨rfl, rfl⟩ := of_eq_ok_iff.1 hblock
    exact block.endsAt
  · intro hends
    cases a with
    | v4 bits =>
      obtain ⟨hle, hzero⟩ := hends
      exact ⟨.v4 bits length hle ((host_zero_iff bits length).2 hzero), of_eq_ok_iff.2 ⟨rfl, rfl⟩⟩
    | v6 bits =>
      obtain ⟨hle, hwhole, hzero⟩ := hends
      exact ⟨.v6 bits length hle hwhole ((host_zero_iff bits length).2 hzero), of_eq_ok_iff.2 ⟨rfl, rfl⟩⟩

end AddressBlock

/-! ## Names -/

/-- the reverse zone of an address and a length at which it ends, by the digits of the address -/
inductive Names : Address → Nat → ReverseZone → Prop
  | octets {bits : BitVec 32} {length k : Nat} {ds : List Nat} (hends : (Address.v4 bits).EndsAt length)
      (hlength : length = 8 * k) (hds : Digits 256 4 bits.toNat ds) :
      Names (.v4 bits) length ⟨".".intercalate ((ds.take k).reverse.map toString ++ ["in-addr.arpa"]), false⟩
  | withinOctet {bits : BitVec 32} {length k r octet : Nat} {ds : List Nat} {parent : String}
      (hends : (Address.v4 bits).EndsAt length) (hlength : length = 8 * k + r) (hr : 0 < r ∧ r < 8)
      (hds : Digits 256 4 bits.toNat ds) (hoctet : ds[k]? = some octet)
      (henclosing : Names (.v4 (leading bits (8 * k))) (8 * k) ⟨parent, false⟩) :
      Names (.v4 bits) length ⟨s!"{octet}-{length}.{parent}", true⟩
  | nibbles {bits : BitVec 128} {length k : Nat} {ds : List Nat} (hends : (Address.v6 bits).EndsAt length)
      (hlength : length = 4 * k) (hds : Digits 16 32 bits.toNat ds) :
      Names (.v6 bits) length
        ⟨".".intercalate ((ds.take k).reverse.map (fun d => String.singleton d.digitChar) ++ ["ip6.arpa"]), false⟩

namespace AddressBlock

theorem reversed_eq_intercalate {base : Nat} {digits : List Nat} {label : Nat → String}
    (hlabel : ∀ d ∈ digits, String.ofList (Nat.toDigits base d) = label d) (parent : String) :
    reversed base digits parent = ".".intercalate (digits.reverse.map label ++ [parent]) := by
  rw [reversed, Text.joinWith_eq_intercalate, List.map_congr_left hlabel, List.map_reverse]

theorem reversed_octets (digits : List Nat) (parent : String) :
    reversed 10 digits parent = ".".intercalate (digits.reverse.map toString ++ [parent]) :=
  reversed_eq_intercalate (fun _ _ => Nat.toString_eq_ofList_toDigits.symm) parent

theorem reversed_nibbles {digits : List Nat} (hdigits : ∀ d ∈ digits, d < 16) (parent : String) :
    reversed 16 digits parent =
      ".".intercalate (digits.reverse.map (fun d => String.singleton d.digitChar) ++ [parent]) := by
  refine reversed_eq_intercalate (fun d hd => ?_) parent
  rw [Nat.toDigits_of_lt_base (hdigits d hd), String.singleton_eq_ofList]

theorem octets_eq (bits : BitVec 32) : octets bits = leadingDigits 32 8 4 bits.toNat := by
  rw [← take_octets le_rfl, List.take_of_length_le (by simp [octets])]

/-- an IPv4 block that ends within an octet has this octet and its length in front of the octets before -/
theorem zoneName_withinOctet (bits : BitVec 32) {length octet : Nat} (length_le : length ≤ 32)
    (host_zero : bits.toNat % Nat.pow 2 (32 - length) = 0) (h : length % 8 ≠ 0)
    (hoctet : (leadingDigits 32 8 4 bits.toNat)[length / 8]? = some octet) :
    let enclosing := reversed 10 (leadingDigits 32 8 (length / 8) bits.toNat) "in-addr.arpa"
    zoneName (.v4 bits length length_le host_zero) = s!"{octet}-{length}.{enclosing}" := by
  intro enclosing
  have hwithin : isClassless (.v4 bits length length_le host_zero) = true := by simp [isClassless, h]
  rw [zoneName, hwithin, take_octets (by omega), octets_eq, List.getD_eq_getElem?_getD, hoctet]
  rfl

end AddressBlock

namespace Names

/-- the digits of an address are the leading ones of its number, with the same ones in front -/
theorem of_octets {bits : BitVec 32} {length k : Nat} (hends : (Address.v4 bits).EndsAt length)
    (hlength : length = 8 * k) :
    Names (.v4 bits) length ⟨AddressBlock.reversed 10 (leadingDigits 32 8 k bits.toNat) "in-addr.arpa", false⟩ := by
  have hk : k ≤ 4 := by
    have hle := hends.1
    omega
  rw [AddressBlock.reversed_octets, ← take_leadingDigits hk]
  exact octets hends hlength (digits_octets bits)

/-- the zone of a block is named by the rules -/
theorem of_block (block : AddressBlock) : Names block.address block.length ⟨block.zoneName, block.isClassless⟩ := by
  have hends := block.endsAt
  cases block with
  | v4 bits length length_le host_zero =>
    change Names (.v4 bits) length _
    by_cases hwhole : length % 8 = 0
    · have hclassless : AddressBlock.isClassless (.v4 bits length length_le host_zero) = false := by
        simp [AddressBlock.isClassless, hwhole]
      rw [AddressBlock.zoneName_v4 bits length_le host_zero hwhole, hclassless]
      exact of_octets hends (by omega)
    · have hclassless : AddressBlock.isClassless (.v4 bits length length_le host_zero) = true := by
        simp [AddressBlock.isClassless, hwhole]
      have hfront : length / 8 < (leadingDigits 32 8 4 bits.toNat).length := by
        rw [(digits_octets bits).length_eq]
        omega
      have hbits : 8 * (length / 8) ≤ 32 := by omega
      have hoctet := List.getElem?_eq_getElem hfront
      rw [AddressBlock.zoneName_withinOctet bits length_le host_zero hwhole hoctet, hclassless]
      refine withinOctet hends (Nat.div_add_mod length 8).symm ⟨by omega, Nat.mod_lt _ (by decide)⟩
        (digits_octets bits) hoctet ?_
      rw [← leadingDigits_leading hbits]
      exact of_octets ⟨hbits, fun i hi => getLsbD_leading hi bits⟩ rfl
  | v6 bits length length_le whole_nibbles host_zero =>
    change Names (.v6 bits) length _
    have hfront : length / 4 ≤ 32 := by omega
    rw [AddressBlock.zoneName_v6, AddressBlock.reversed_nibbles fun d => lt_of_mem_leadingDigits,
      ← take_leadingDigits hfront]
    exact nibbles hends (by omega) (digits_nibbles bits)

theorem endsAt {a : Address} {length : Nat} {zone : ReverseZone} (h : Names a length zone) : a.EndsAt length := by
  cases h <;> assumption

/-- the rules give no two zones to an address and a length -/
theorem unique {a : Address} {length : Nat} {zone zone' : ReverseZone} (h : Names a length zone)
    (h' : Names a length zone') : zone = zone' := by
  induction h generalizing zone' with
  | @octets bits length k ds _ hlength hds =>
    cases h' with
    | @octets _ _ k' ds' _ hlength' hds' =>
      obtain rfl := hds.unique (by decide) hds'
      obtain rfl : k = k' := by omega
      rfl
    | withinOctet _ hlength' hr => omega
  | @withinOctet bits length k r octet ds parent _ hlength hr hds hoctet henclosing ih =>
    cases h' with
    | octets _ hlength' => omega
    | @withinOctet _ _ k' r' octet' ds' parent' _ hlength' hr' hds' hoctet' henclosing' =>
      obtain rfl := hds.unique (by decide) hds'
      obtain rfl : k = k' := by omega
      obtain rfl := Option.some.inj (hoctet.symm.trans hoctet')
      cases ih henclosing'
      rfl
  | @nibbles bits length k ds _ hlength hds =>
    cases h' with
    | @nibbles _ _ k' ds' _ hlength' hds' =>
      obtain rfl := hds.unique (by decide) hds'
      obtain rfl : k = k' := by omega
      rfl

end Names

/-! ## Texts of blocks -/

/-- a text writes an address and a length: with blanks around them, the address in front of the first slash and a number
of 32 bits behind it -/
def Writes (s : String) (a : Address) (length : Nat) : Prop :=
  ∃ before after, Text.trimChars s.toList = before ++ '/' :: after ∧ '/' ∉ before ∧
    Address.ofChars? before = some a ∧ Text.IsNumeral after length ∧ length < 2 ^ 32

theorem AddressBlock.ofString_eq_ok_iff {s : String} {block : AddressBlock} :
    ofString s = .ok block ↔ ∃ a length, Writes s a length ∧ of a length = .ok block := by
  unfold ofString
  constructor
  · intro h
    split at h
    · cases h
    next before after hcut =>
      split at h
      · cases h
      next length hlength =>
        split at h
        · cases h
        next a ha =>
          obtain ⟨htext, hslash⟩ := Text.cutFirst?_eq_some_iff.1 hcut
          obtain ⟨hnumeral, hle⟩ := Text.unsigned?_eq_some_iff.1 hlength
          have hlt : length < 2 ^ 32 := Nat.lt_of_le_pred (by decide) hle
          exact ⟨a, length, ⟨before, after, htext, hslash, ha, hnumeral, hlt⟩, h⟩
  · rintro ⟨a, length, ⟨before, after, htext, hslash, ha, hnumeral, hlt⟩, hblock⟩
    have hlength : Text.unsigned? (Nat.pow 2 32 - 1) after = some length :=
      Text.unsigned?_eq_some_iff.2 ⟨hnumeral, Nat.le_pred_of_lt hlt⟩
    rw [htext, Text.cutFirst?_append hslash]
    simp only [hlength, ha, hblock]

theorem ReverseZone.ofString_eq_ok_iff {s : String} {zone : ReverseZone} :
    ofString s = .ok zone ↔ ∃ a length, Writes s a length ∧ Names a length zone := by
  constructor
  · intro h
    obtain ⟨block, hblock, rfl⟩ := ofString_eq_ok h
    obtain ⟨a, length, hwrites, hof⟩ := AddressBlock.ofString_eq_ok_iff.1 hblock
    obtain ⟨rfl, rfl⟩ := AddressBlock.of_eq_ok_iff.1 hof
    exact ⟨_, _, hwrites, Names.of_block block⟩
  · rintro ⟨a, length, hwrites, hnames⟩
    obtain ⟨block, hof⟩ := AddressBlock.exists_of_eq_ok_iff.2 hnames.endsAt
    obtain ⟨rfl, rfl⟩ := AddressBlock.of_eq_ok_iff.1 hof
    rw [ofString, AddressBlock.ofString_eq_ok_iff.2 ⟨_, _, hwrites, hof⟩, ← (Names.of_block block).unique hnames]
    rfl

/-! ## Masks and places in range -/

namespace AddressBlock

theorem of_v4_eq_hostBits_iff (bits : BitVec 32) (length : Nat) :
    of (.v4 bits) length = .error .hostBits ↔ length ≤ 32 ∧ bits &&& hostMask 32 length ≠ 0 := by
  rw [Ne, and_hostMask_eq_zero_iff, of]
  split_ifs with hshort hclean
  · exact iff_of_false (by simp) fun h => h.2 hclean
  · exact iff_of_true rfl ⟨hshort, hclean⟩
  · exact iff_of_false (by simp) fun h => hshort h.1

theorem of_v6_eq_hostBits_iff (bits : BitVec 128) (length : Nat) :
    of (.v6 bits) length = .error .hostBits ↔
      length ≤ 128 ∧ length % 4 = 0 ∧ bits &&& hostMask 128 length ≠ 0 := by
  rw [Ne, and_hostMask_eq_zero_iff, of]
  split_ifs with hshort hwhole hclean
  · exact iff_of_false (by simp) fun h => h.2.2 hclean
  · exact iff_of_true rfl ⟨hshort, hwhole, hclean⟩
  · exact iff_of_false (by simp) fun h => hwhole h.2.1
  · exact iff_of_false (by simp) fun h => hshort h.1

/-- the digits in front of the end of a block are there, and so is the octet that it ends within -/
def InRange : AddressBlock → Prop
  | .v4 bits length .. => length / 8 ≤ (octets bits).length ∧ (length % 8 ≠ 0 → length / 8 < (octets bits).length)
  | .v6 bits length .. => length / 4 ≤ (nibbles bits).length

theorem inRange (block : AddressBlock) : block.InRange := by
  cases block with
  | v4 bits length length_le host_zero =>
    simp only [InRange, octets, List.length_map, List.length_range]
    omega
  | v6 bits length length_le whole_nibbles host_zero =>
    simp only [InRange, nibbles, List.length_map, List.length_range]
    omega

end AddressBlock

/-- **Reverse zones are named exactly.** A text has a reverse zone exactly if it writes an address and a length at which
the address ends, and its zone is the one that the rules name. The bits behind the length are those under a mask that is
shifted by less than the width, and the places of the digits that a name takes are in range, at every length. -/
theorem reverse_zone_exact (s : String) :
    ((∃ zone, ReverseZone.ofString s = .ok zone) ↔ ∃ a length, Writes s a length ∧ a.EndsAt length) ∧
      (∀ zone, ReverseZone.ofString s = .ok zone ↔ ∃ a length, Writes s a length ∧ Names a length zone) ∧
      (∀ bits length, AddressBlock.of (.v4 bits) length = .error .hostBits ↔
        length ≤ 32 ∧ bits &&& hostMask 32 length ≠ 0) ∧
      (∀ bits length, AddressBlock.of (.v6 bits) length = .error .hostBits ↔
        length ≤ 128 ∧ length % 4 = 0 ∧ bits &&& hostMask 128 length ≠ 0) ∧
      ∀ block : AddressBlock, block.InRange := by
  refine ⟨?_, fun zone => ReverseZone.ofString_eq_ok_iff, AddressBlock.of_v4_eq_hostBits_iff,
    AddressBlock.of_v6_eq_hostBits_iff, AddressBlock.inRange⟩
  constructor
  · rintro ⟨zone, hzone⟩
    obtain ⟨a, length, hwrites, hnames⟩ := ReverseZone.ofString_eq_ok_iff.1 hzone
    exact ⟨a, length, hwrites, hnames.endsAt⟩
  · rintro ⟨a, length, hwrites, hends⟩
    obtain ⟨block, hof⟩ := AddressBlock.exists_of_eq_ok_iff.2 hends
    obtain ⟨rfl, rfl⟩ := AddressBlock.of_eq_ok_iff.1 hof
    exact ⟨_, ReverseZone.ofString_eq_ok_iff.2 ⟨_, _, hwrites, Names.of_block block⟩⟩

/-- a block that ends within its last octet, with blanks around its text and a plus in front of its length -/
theorem reverse_zone_exact_withinOctet :
    ReverseZone.ofString " 192.0.2.64/+26 " = .ok ⟨"64-26.2.0.192.in-addr.arpa", true⟩ := by
  have hdigits : Digits 256 4 (0xC0000240 : BitVec 32).toNat [192, 0, 2, 64] := ⟨rfl, by decide, by decide⟩
  have henclosingDigits : Digits 256 4 (leading 0xC0000240 24 : BitVec 32).toNat [192, 0, 2, 0] :=
    ⟨rfl, by decide, by decide⟩
  have henclosing : Names (.v4 (leading 0xC0000240 24)) 24 ⟨"2.0.192.in-addr.arpa", false⟩ :=
    Names.octets (k := 3) ⟨by decide, by decide⟩ rfl henclosingDigits
  have hnames : Names (.v4 0xC0000240) 26 ⟨"64-26.2.0.192.in-addr.arpa", true⟩ :=
    Names.withinOctet (k := 3) (r := 2) ⟨by decide, by decide⟩ rfl (by decide) hdigits rfl henclosing
  have hwrites : Writes " 192.0.2.64/+26 " (.v4 0xC0000240) 26 :=
    ⟨"192.0.2.64".toList, "+26".toList, by decide +kernel, by decide +kernel, by decide +kernel,
      ⟨['2', '6'], by decide +kernel, by decide, List.all_eq_true.1 rfl, by decide⟩, by decide⟩
  obtain ⟨-, hzone, -⟩ := reverse_zone_exact " 192.0.2.64/+26 "
  exact (hzone _).2 ⟨_, _, hwrites, hnames⟩

end ZonePlan
