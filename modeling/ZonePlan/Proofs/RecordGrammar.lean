/-
Which records are split, and into what (`split_exact`).

A record that is not split yet is split exactly if the words of its target have the layout of its kind: so many words,
and numbers of the width of their fields in front. This is said by a relation without a reader (`SplitsTo`). The words
of a text are its pieces between blanks that are not empty (`Text.words_eq`), and a number is an optional plus sign and
digits (`Text.IsNumeral`); as the fields are words of 16 or 8 bits, a number that does not fit has no field to stand in.

A record that cannot be split stops for one of two reasons: it has not so many words, or one of them is no number that
fits (`StopsWith`, with what is left of the record). The fault names the record, with its kind, its label and its zone
(`Concerns`).
-/
import ZonePlan.Proofs.RecordFields

namespace ZonePlan

/-! ## Layouts -/

namespace Record

/-- the words of a record's target -/
def tokens (r : Record) : List String :=
  ((r.target.toList.splitOnP Text.isBlank).filter (· ≠ [])).map String.ofList

/-- the words that are read off a target one by one are its pieces -/
theorem tokens_eq (r : Record) : r.tokens = Text.words r.target :=
  (Text.words_eq r.target).symm

/-- what a record is split into -/
inductive SplitsTo (r : Record) : Record → Prop
  | mx {preference host : String} {p : UInt16} (hkind : Text.upper r.kind = "MX") (hunset : r.preference? = none)
      (htokens : r.tokens = [preference, host]) (hp : Text.IsNumeral preference.toList p.toNat) :
      SplitsTo r { r with preference? := some p, target := host }
  | srv {priority weight port host : String} {p w q : UInt16} (hkind : Text.upper r.kind = "SRV")
      (hunset : r.port? = none) (htokens : r.tokens = [priority, weight, port, host])
      (hp : Text.IsNumeral priority.toList p.toNat) (hw : Text.IsNumeral weight.toList w.toNat)
      (hq : Text.IsNumeral port.toList q.toNat) :
      SplitsTo r { r with priority? := some p, weight? := some w, port? := some q, target := host }
  | caa {flag tag first : String} {rest : List String} {f : UInt8} (hkind : Text.upper r.kind = "CAA")
      (hunset : r.tag? = none) (htokens : r.tokens = flag :: tag :: first :: rest)
      (hf : Text.IsNumeral flag.toList f.toNat) :
      SplitsTo r {
        r with flag? := some f, tag? := some tag, target := trimQuotes (Text.joinWith " " (first :: rest)) }
  /-- a record of another kind, or one that is split already -/
  | settled (hmx : Text.upper r.kind = "MX" → r.preference?.isSome = true)
      (hsrv : Text.upper r.kind = "SRV" → r.port?.isSome = true)
      (hcaa : Text.upper r.kind = "CAA" → r.tag?.isSome = true) : SplitsTo r r

variable {zone : String} {r s : Record}

theorem split_of_mx (hkind : Text.upper r.kind = "MX") (hunset : r.preference? = none) :
    r.split zone = r.splitMX zone := by
  simp [split, hkind, hunset]

theorem split_of_srv (hkind : Text.upper r.kind = "SRV") (hunset : r.port? = none) :
    r.split zone = r.splitSRV zone := by
  simp [split, hkind, hunset]

theorem split_of_caa (hkind : Text.upper r.kind = "CAA") (hunset : r.tag? = none) :
    r.split zone = r.splitCAA zone := by
  simp [split, hkind, hunset]

/-- what is split has the layout of its kind -/
theorem splitsTo_of_split (h : r.split zone = (s, none)) : r.SplitsTo s := by
  unfold split at h
  split_ifs at h with hmx hset hsrv hset hcaa hset
  · cases h
    exact .settled (fun _ => hset) (by simp [hmx]) (by simp [hmx])
  · obtain ⟨preference, host, n, hwords, hn, rfl⟩ := splitMX_eq_none.1 h
    obtain ⟨p, hp, rfl⟩ := Text.unsigned?_word16.1 hn
    rw [UInt16.ofNat_toNat]
    exact .mx hmx (Option.not_isSome_iff_eq_none.1 hset) (r.tokens_eq.trans hwords) hp
  · cases h
    exact .settled (by simp [hsrv]) (fun _ => hset) (by simp [hsrv])
  · obtain ⟨priority, weight, port, host, n₁, n₂, n₃, hwords, h₁, h₂, h₃, rfl⟩ := splitSRV_eq_none.1 h
    obtain ⟨p, hp, rfl⟩ := Text.unsigned?_word16.1 h₁
    obtain ⟨w, hw, rfl⟩ := Text.unsigned?_word16.1 h₂
    obtain ⟨q, hq, rfl⟩ := Text.unsigned?_word16.1 h₃
    simp only [UInt16.ofNat_toNat]
    exact .srv hsrv (Option.not_isSome_iff_eq_none.1 hset) (r.tokens_eq.trans hwords) hp hw hq
  · cases h
    exact .settled (by simp [hcaa]) (by simp [hcaa]) (fun _ => hset)
  · obtain ⟨flag, tag, first, rest, n, hwords, hn, rfl⟩ := splitCAA_eq_none.1 h
    obtain ⟨f, hf, rfl⟩ := Text.unsigned?_word8.1 hn
    rw [UInt8.ofNat_toNat]
    exact .caa hcaa (Option.not_isSome_iff_eq_none.1 hset) (r.tokens_eq.trans hwords) hf
  · cases h
    exact .settled (absurd · hmx) (absurd · hsrv) (absurd · hcaa)

/-- what has the layout of its kind is split -/
theorem split_of_splitsTo (h : r.SplitsTo s) : r.split zone = (s, none) := by
  cases h with
  | @mx preference host p hkind hunset htokens hp =>
    rw [split_of_mx hkind hunset, splitMX_eq_none, ← tokens_eq]
    exact ⟨preference, host, p.toNat, htokens, Text.unsigned?_word16.2 ⟨p, hp, rfl⟩, by rw [UInt16.ofNat_toNat]⟩
  | @srv priority weight port host p w q hkind hunset htokens hp hw hq =>
    rw [split_of_srv hkind hunset, splitSRV_eq_none, ← tokens_eq]
    refine ⟨priority, weight, port, host, p.toNat, w.toNat, q.toNat, htokens, ?_, ?_, ?_, ?_⟩
    · exact Text.unsigned?_word16.2 ⟨p, hp, rfl⟩
    · exact Text.unsigned?_word16.2 ⟨w, hw, rfl⟩
    · exact Text.unsigned?_word16.2 ⟨q, hq, rfl⟩
    · simp only [UInt16.ofNat_toNat]
  | @caa flag tag first rest f hkind hunset htokens hf =>
    rw [split_of_caa hkind hunset, splitCAA_eq_none, ← tokens_eq]
    refine ⟨flag, tag, first, rest, f.toNat, htokens, Text.unsigned?_word8.2 ⟨f, hf, rfl⟩, ?_⟩
    rw [UInt8.ofNat_toNat]
  | settled hmx hsrv hcaa =>
    unfold split
    split_ifs with hkind hset hkind hset hkind hset
    · rfl
    · exact absurd (hmx hkind) hset
    · rfl
    · exact absurd (hsrv hkind) hset
    · rfl
    · exact absurd (hcaa hkind) hset
    · rfl

/-! ## Records that cannot be split -/

/-- where a record that cannot be split is left, and its fault: its words are not so many, or one of them is no number
of the width of its field; of a service, the numbers in front of that one are set -/
inductive StopsWith (zone : String) (r : Record) : Record → Fault → Prop
  | mx (hkind : Text.upper r.kind = "MX") (hunset : r.preference? = none) (htokens : r.tokens.length ≠ 2) :
      StopsWith zone r r (r.malformed zone "<preference> <host>")
  | preference {raw host : String} (hkind : Text.upper r.kind = "MX") (hunset : r.preference? = none)
      (htokens : r.tokens = [raw, host]) (hraw : ∀ n : UInt16, ¬Text.IsNumeral raw.toList n.toNat) :
      StopsWith zone r r (r.badNumber zone "preference" raw)
  | srv (hkind : Text.upper r.kind = "SRV") (hunset : r.port? = none) (htokens : r.tokens.length ≠ 4) :
      StopsWith zone r r (r.malformed zone "<priority> <weight> <port> <host>")
  | priority {raw weight port host : String} (hkind : Text.upper r.kind = "SRV") (hunset : r.port? = none)
      (htokens : r.tokens = [raw, weight, port, host]) (hraw : ∀ n : UInt16, ¬Text.IsNumeral raw.toList n.toNat) :
      StopsWith zone r r (r.badNumber zone "priority" raw)
  | weight {priority raw port host : String} {p : UInt16} (hkind : Text.upper r.kind = "SRV") (hunset : r.port? = none)
      (htokens : r.tokens = [priority, raw, port, host]) (hp : Text.IsNumeral priority.toList p.toNat)
      (hraw : ∀ n : UInt16, ¬Text.IsNumeral raw.toList n.toNat) :
      StopsWith zone r { r with priority? := some p } (r.badNumber zone "weight" raw)
  | port {priority weight raw host : String} {p w : UInt16} (hkind : Text.upper r.kind = "SRV")
      (hunset : r.port? = none) (htokens : r.tokens = [priority, weight, raw, host])
      (hp : Text.IsNumeral priority.toList p.toNat) (hw : Text.IsNumeral weight.toList w.toNat)
      (hraw : ∀ n : UInt16, ¬Text.IsNumeral raw.toList n.toNat) :
      StopsWith zone r { r with priority? := some p, weight? := some w } (r.badNumber zone "port" raw)
  | caa (hkind : Text.upper r.kind = "CAA") (hunset : r.tag? = none) (htokens : r.tokens.length < 3) :
      StopsWith zone r r (r.malformed zone "<flag> <tag> <value>")
  | flag {raw tag first : String} {rest : List String} (hkind : Text.upper r.kind = "CAA") (hunset : r.tag? = none)
      (htokens : r.tokens = raw :: tag :: first :: rest) (hraw : ∀ n : UInt8, ¬Text.IsNumeral raw.toList n.toNat) :
      StopsWith zone r r (r.badNumber zone "flag" raw)

variable {fault : Fault}

/-- a number that cannot be put into a record leaves it as it is; if it can, something that is split off after it
cannot -/
theorem withNumber_eq_some {limit : Nat} {field raw : String} {next : Nat → Split} :
    r.withNumber zone limit field raw next = (s, some fault) ↔
      (Text.unsigned? limit raw.toList = none ∧ r = s ∧ r.badNumber zone field raw = fault) ∨
        ∃ n, Text.unsigned? limit raw.toList = some n ∧ next n = (s, some fault) := by
  unfold withNumber
  cases Text.unsigned? limit raw.toList with
  | none => simp
  | some n => simp

theorem stopsWith_of_splitMX (hkind : Text.upper r.kind = "MX") (hunset : r.preference? = none)
    (h : r.splitMX zone = (s, some fault)) : r.StopsWith zone s fault := by
  unfold splitMX at h
  split at h
  · next raw host hwords =>
    have htokens : r.tokens = [raw, host] := r.tokens_eq.trans hwords
    obtain ⟨hraw, rfl, rfl⟩ | ⟨n, -, hn⟩ := withNumber_eq_some.1 h
    · exact .preference hkind hunset htokens (Text.unsigned?_word16_eq_none.1 hraw)
    · simp at hn
  · next hwords =>
    cases h
    refine .mx hkind hunset fun hlength => ?_
    obtain ⟨raw, host, htokens⟩ := List.length_eq_two.1 hlength
    exact hwords raw host (r.tokens_eq.symm.trans htokens)

theorem stopsWith_of_splitSRV (hkind : Text.upper r.kind = "SRV") (hunset : r.port? = none)
    (h : r.splitSRV zone = (s, some fault)) : r.StopsWith zone s fault := by
  unfold splitSRV at h
  split at h
  · next priority weight port host hwords =>
    have htokens : r.tokens = [priority, weight, port, host] := r.tokens_eq.trans hwords
    obtain ⟨hraw, rfl, rfl⟩ | ⟨n₁, h₁, h⟩ := withNumber_eq_some.1 h
    · exact .priority hkind hunset htokens (Text.unsigned?_word16_eq_none.1 hraw)
    obtain ⟨p, hp, rfl⟩ := Text.unsigned?_word16.1 h₁
    rw [UInt16.ofNat_toNat] at h
    obtain ⟨hraw, rfl, rfl⟩ | ⟨n₂, h₂, h⟩ := withNumber_eq_some.1 h
    · exact .weight hkind hunset htokens hp (Text.unsigned?_word16_eq_none.1 hraw)
    obtain ⟨w, hw, rfl⟩ := Text.unsigned?_word16.1 h₂
    rw [UInt16.ofNat_toNat] at h
    obtain ⟨hraw, rfl, rfl⟩ | ⟨n₃, -, h⟩ := withNumber_eq_some.1 h
    · exact .port hkind hunset htokens hp hw (Text.unsigned?_word16_eq_none.1 hraw)
    · simp at h
  · next hwords =>
    cases h
    refine .srv hkind hunset fun hlength => ?_
    obtain ⟨priority, weight, port, host, htokens⟩ := List.length_eq_four.1 hlength
    exact hwords priority weight port host (r.tokens_eq.symm.trans htokens)

theorem stopsWith_of_splitCAA (hkind : Text.upper r.kind = "CAA") (hunset : r.tag? = none)
    (h : r.splitCAA zone = (s, some fault)) : r.StopsWith zone s fault := by
  unfold splitCAA at h
  split at h
  · next raw tag first rest hwords =>
    have htokens : r.tokens = raw :: tag :: first :: rest := r.tokens_eq.trans hwords
    obtain ⟨hraw, rfl, rfl⟩ | ⟨n, -, hn⟩ := withNumber_eq_some.1 h
    · exact .flag hkind hunset htokens (Text.unsigned?_word8_eq_none.1 hraw)
    · simp at hn
  · next hwords =>
    cases h
    refine .caa hkind hunset (not_le.1 fun hlength => ?_)
    obtain ⟨raw, tag, first, rest, htokens⟩ : ∃ raw tag first rest, r.tokens = raw :: tag :: first :: rest := by
      match r.tokens, hlength with
      | raw :: tag :: first :: rest, _ => exact ⟨raw, tag, first, rest, rfl⟩
    exact hwords raw tag first rest (r.tokens_eq.symm.trans htokens)

/-- a record that is not split stops by its grammar -/
theorem stopsWith_of_split (h : r.split zone = (s, some fault)) : r.StopsWith zone s fault := by
  unfold split at h
  split_ifs at h with hkind hset hkind hset hkind hset
  · cases h
  · exact stopsWith_of_splitMX hkind (Option.not_isSome_iff_eq_none.1 hset) h
  · cases h
  · exact stopsWith_of_splitSRV hkind (Option.not_isSome_iff_eq_none.1 hset) h
  · cases h
  · exact stopsWith_of_splitCAA hkind (Option.not_isSome_iff_eq_none.1 hset) h
  · cases h

/-- a record that stops by its grammar is not split -/
theorem split_of_stopsWith (h : r.StopsWith zone s fault) : r.split zone = (s, some fault) := by
  cases h with
  | mx hkind hunset htokens =>
    rw [split_of_mx hkind hunset, splitMX, ← tokens_eq]
    split
    · next htwo => simp [htwo] at htokens
    · rfl
  | preference hkind hunset htokens hraw =>
    rw [split_of_mx hkind hunset, splitMX, ← tokens_eq, htokens]
    simp only [withNumber, Text.unsigned?_word16_eq_none.2 hraw]
  | srv hkind hunset htokens =>
    rw [split_of_srv hkind hunset, splitSRV, ← tokens_eq]
    split
    · next hfour => simp [hfour] at htokens
    · rfl
  | priority hkind hunset htokens hraw =>
    rw [split_of_srv hkind hunset, splitSRV, ← tokens_eq, htokens]
    simp only [withNumber, Text.unsigned?_word16_eq_none.2 hraw]
  | weight hkind hunset htokens hp hraw =>
    have hpriority := Text.unsigned?_word16.2 ⟨_, hp, rfl⟩
    rw [split_of_srv hkind hunset, splitSRV, ← tokens_eq, htokens]
    simp only [withNumber, hpriority, Text.unsigned?_word16_eq_none.2 hraw, UInt16.ofNat_toNat]
    rfl
  | port hkind hunset htokens hp hw hraw =>
    have hpriority := Text.unsigned?_word16.2 ⟨_, hp, rfl⟩
    have hweight := Text.unsigned?_word16.2 ⟨_, hw, rfl⟩
    rw [split_of_srv hkind hunset, splitSRV, ← tokens_eq, htokens]
    simp only [withNumber, hpriority, hweight, Text.unsigned?_word16_eq_none.2 hraw, UInt16.ofNat_toNat]
    rfl
  | caa hkind hunset htokens =>
    rw [split_of_caa hkind hunset, splitCAA, ← tokens_eq]
    split
    · next hmany =>
      rw [hmany, List.length_cons, List.length_cons, List.length_cons] at htokens
      omega
    · rfl
  | flag hkind hunset htokens hraw =>
    rw [split_of_caa hkind hunset, splitCAA, ← tokens_eq, htokens]
    simp only [withNumber, Text.unsigned?_word8_eq_none.2 hraw]

/-! ## Faults -/

/-- the words for a record -/
def title (zone : String) (r : Record) : String :=
  s!"{r.kind} record '{r.label}' in domain '{zone}'"

/-- the fields that hold a number, under the names they have in faults -/
def numberFields : List String := ["preference", "priority", "weight", "port", "flag"]

/-- the faults of a record that cannot be split -/
inductive Concerns (zone : String) (r : Record) : Fault → Prop
  /-- too few words, or too many -/
  | layout (expected : String) :
      Concerns zone r (.invalid (r.title zone) s!"target '{r.target}' does not match \"{expected}\"")
  /-- a word that is no number of the width of its field -/
  | number {field raw : String} (hfield : field ∈ numberFields) (hraw : raw ∈ r.tokens) :
      Concerns zone r (.invalid s!"{field} of {r.title zone}" s!"'{raw}' is not a valid number")

theorem concerns_badNumber {field raw : String} (hfield : field ∈ numberFields) (hraw : raw ∈ r.tokens) :
    r.Concerns zone (r.badNumber zone field raw) := by
  have htitle : r.badNumber zone field raw =
      .invalid s!"{field} of {r.title zone}" s!"'{raw}' is not a valid number" := by
    simp only [badNumber, title, toString, String.append_assoc]
  rw [htitle]
  exact .number hfield hraw

theorem concerns_of_split (h : r.split zone = (s, some fault)) : r.Concerns zone fault := by
  cases stopsWith_of_split h with
  | mx | srv | caa => exact .layout _
  | preference _ _ htokens | priority _ _ htokens | weight _ _ htokens | port _ _ htokens | flag _ _ htokens =>
    exact concerns_badNumber (by simp [numberFields]) (by simp [htokens])

/-- **A record is split exactly by its grammar**: it is split if, and only if, the words of its target have the layout
of its kind, into the values of the leading words and the rest; a record of another kind, or one that is split already,
stays what it is. Every other record is named by the fault, with its kind, its label and its zone. -/
theorem split_exact (zone : String) (r : Record) :
    (∀ s, r.split zone = (s, none) ↔ r.SplitsTo s) ∧
      ∀ s fault, r.split zone = (s, some fault) → r.Concerns zone fault :=
  ⟨fun _ => ⟨splitsTo_of_split, split_of_splitsTo⟩, fun _ _ => concerns_of_split⟩

/-- small letters, a plus sign, leading zeros and blanks of several kinds; and a number that is too large by one -/
theorem split_exact_service :
    let r : Record := { kind := "srv", label := "_sip", target := "+01\u00a0\u3000007 \t65535 \n h" }
    let s : Record := { r with target := "h", priority? := some 1, weight? := some 7, port? := some 65535 }
    let wide : Record := { r with target := "1 65536 2 h" }
    let fault : Fault := .invalid "weight of srv record '_sip' in domain 'a'" "'65536' is not a valid number"
    r.SplitsTo s ∧ wide.split "a" = ({ wide with priority? := some 1 }, some fault) ∧ wide.Concerns "a" fault := by
  intro r s wide fault
  have hsplit : r.split "a" = (s, none) := by decide +kernel
  have hfault : wide.split "a" = ({ wide with priority? := some 1 }, some fault) := by decide +kernel
  exact ⟨((split_exact "a" r).1 s).1 hsplit, hfault, (split_exact "a" wide).2 _ _ hfault⟩

end Record

end ZonePlan
