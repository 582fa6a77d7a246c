/-
What trimming, letter case and suffixes do to a text.

- `trimChars_eq_self_iff`: a text stays as it is exactly if neither of its ends is blank (`Trimmed`).
- `lower_lower`, `upper_upper`: the second time, letter case changes nothing. Small letters are as blank as capitals
  (`isBlank_toLower`), so trimming and making small do not disturb each other.
- `dropSuffix?_eq_some_iff`: a suffix is dropped from exactly the texts that end with it.
- `cutFirst?_eq_some_iff`, `cutAll_eq_splitOn`: what is in front of the first separator, and all pieces between
  separators. Pieces are put together as in the library (`joinWith_eq_intercalate`).
- `words_eq`: words are the pieces between blanks that are not empty. They are read one by one up to a blank
  (`wordsFrom_append_blank`, `wordsFrom_of_isWord`).
- `unsigned?_eq_some_iff`: the texts that are numerals (`IsNumeral`), each of one number (`IsNumeral.unique`); among them
  are the decimal digits of a number (`isNumeral_toDigits`). A number that has a limit is read as a word of so many bits
  (`unsigned?_word16`, `unsigned?_word8`).
-/
import Mathlib
import ZonePlan.Text.AsciiCase
import ZonePlan.Text.Blank
import ZonePlan.Text.Cut
import ZonePlan.Text.Numeral

namespace ZonePlan.Text

/-! ## Trimming -/

/-- neither end is blank -/
def Trimmed (cs : List Char) : Prop :=
  (∀ c ∈ cs.head?, isBlank c = false) ∧ ∀ c ∈ cs.getLast?, isBlank c = false

theorem trimmed_of_forall {cs : List Char} (h : ∀ c ∈ cs, isBlank c = false) : Trimmed cs :=
  ⟨fun c hc => h c (List.mem_of_mem_head? hc), fun c hc => h c (List.mem_of_mem_getLast? hc)⟩

theorem dropTrailing_isPrefix {α : Type} (p : α → Bool) (xs : List α) : dropTrailing p xs <+: xs :=
  List.rdropWhile_prefix p xs

theorem getLast?_dropTrailing {α : Type} (p : α → Bool) (xs : List α) :
    ∀ x ∈ (dropTrailing p xs).getLast?, p x = false := by
  intro x hx
  obtain ⟨hne, rfl⟩ := List.mem_getLast?_eq_getLast hx
  exact Bool.eq_false_iff.2 (List.rdropWhile_last_not p xs hne)

theorem dropTrailing_eq_self {α : Type} {p : α → Bool} {xs : List α} (h : ∀ x ∈ xs.getLast?, p x = false) :
    dropTrailing p xs = xs := by
  refine List.rdropWhile_eq_self_iff.2 fun hne => ?_
  rw [h _ (List.getLast?_eq_some_getLast hne)]
  exact Bool.false_ne_true

/-- dropping from the end leaves the beginning -/
theorem head?_dropTrailing {α : Type} {p : α → Bool} {xs : List α} {x : α} (h : x ∈ (dropTrailing p xs).head?) :
    x ∈ xs.head? := by
  obtain ⟨ys, hys⟩ := dropTrailing_isPrefix p xs
  rw [← hys]
  exact List.mem_head?_append_of_mem_head? h

theorem trimmed_trimChars (cs : List Char) : Trimmed (trimChars cs) := by
  refine ⟨fun c hc => ?_, getLast?_dropTrailing isBlank _⟩
  have hhead : c ∈ (cs.dropWhile isBlank).head? := head?_dropTrailing hc
  have := List.head?_dropWhile_not isBlank cs
  rw [hhead] at this
  simpa using this

theorem trimChars_sublist (cs : List Char) : (trimChars cs).Sublist cs :=
  (dropTrailing_isPrefix isBlank _).sublist.trans (List.dropWhile_sublist isBlank)

theorem trimChars_eq_self_iff {cs : List Char} : trimChars cs = cs ↔ Trimmed cs := by
  constructor
  · intro h
    rw [← h]
    exact trimmed_trimChars cs
  · rintro ⟨hhead, hlast⟩
    have hdrop : cs.dropWhile isBlank = cs := by
      cases cs with
      | nil => rfl
      | cons c cs => simp [hhead c rfl]
    rw [trimChars, hdrop, dropTrailing_eq_self hlast]

/-- a character of ASCII that can be seen is not blank -/
theorem isBlank_of_visible {c : Char} (hlow : 0x21 ≤ c.toNat) (hhigh : c.toNat ≤ 0x7E) : isBlank c = false := by
  rw [Bool.eq_false_iff]
  simp only [isBlank, ne_eq, Bool.or_eq_true, Bool.and_eq_true, decide_eq_true_eq, beq_iff_eq]
  omega

theorem isBlank_of_isDigit {c : Char} (h : c.isDigit = true) : isBlank c = false := by
  have hrange : 48 ≤ c.toNat ∧ c.toNat ≤ 57 := by simpa [Char.isDigit, UInt32.le_iff_toNat_le] using h
  exact isBlank_of_visible (by omega) (by omega)

/-! ## Letter case -/

@[simp] theorem toList_lower (s : String) : (lower s).toList = s.toList.map Char.toLower := by
  simp [lower]

@[simp] theorem toList_upper (s : String) : (upper s).toList = s.toList.map Char.toUpper := by
  simp [upper]

@[simp] theorem toList_trim (s : String) : (trim s).toList = trimChars s.toList := by
  simp [trim]

theorem lower_eq_self {s : String} (h : ∀ c ∈ s.toList, c.toLower = c) : lower s = s := by
  rw [← String.toList_inj, toList_lower, List.map_congr_left h, List.map_id']

theorem toLower_of_mem_lower {s : String} {c : Char} (h : c ∈ (lower s).toList) : c.toLower = c := by
  rw [toList_lower] at h
  obtain ⟨d, -, rfl⟩ := List.mem_map.1 h
  exact Char.toLower_toLower_eq_toLower d

theorem lower_lower (s : String) : lower (lower s) = lower s :=
  lower_eq_self fun _ => toLower_of_mem_lower

theorem lower_append (s t : String) : lower (s ++ t) = lower s ++ lower t := by
  rw [← String.toList_inj]
  simp

theorem upper_upper (s : String) : upper (upper s) = upper s := by
  rw [← String.toList_inj]
  simp

/-- capitals are made small like the letters that they were made of -/
theorem lower_upper (s : String) : lower (upper s) = lower s := by
  rw [← String.toList_inj]
  simp

theorem toNat_of_isUpper {c : Char} (h : c.isUpper = true) : 65 ≤ c.toNat ∧ c.toNat ≤ 90 := by
  simpa [Char.isUpper, UInt32.le_iff_toNat_le] using h

/-- no letter is blank -/
theorem isBlank_toLower (c : Char) : isBlank c.toLower = isBlank c := by
  by_cases h : c.isUpper = true
  · obtain ⟨h1, h2⟩ := toNat_of_isUpper h
    have hvalid : (c.toNat + 32).isValidChar := Or.inl (by omega)
    have hlower : c.toLower.toNat = c.toNat + 32 := by
      rw [Char.toLower_eq_of_isUpper h, Char.toNat_ofNat, if_pos hvalid]
    simp only [isBlank, hlower]
    rw [Bool.eq_iff_iff]
    simp only [Bool.or_eq_true, Bool.and_eq_true, decide_eq_true_eq, beq_iff_eq]
    omega
  · rw [Char.toLower_eq_of_not_isUpper h]

/-- what is no letter comes from itself only -/
theorem eq_of_toLower_eq {c d : Char} (h : c.toLower = d) (hd : d.isAlpha = false) : c = d := by
  have hc : c.isAlpha = false := by rw [← Char.isAlpha_toLower_eq_isAlpha, h, hd]
  have hupper : ¬c.isUpper = true := by
    rw [Char.isAlpha, Bool.or_eq_false_iff] at hc
    simp [hc.1]
  rw [← h, Char.toLower_eq_of_not_isUpper hupper]

theorem Trimmed.map_toLower {cs : List Char} (h : Trimmed cs) : Trimmed (cs.map Char.toLower) := by
  constructor
  · intro c hc
    rw [List.head?_map] at hc
    obtain ⟨d, hd, rfl⟩ := Option.map_eq_some_iff.1 hc
    rw [isBlank_toLower]
    exact h.1 d hd
  · intro c hc
    rw [List.getLast?_map] at hc
    obtain ⟨d, hd, rfl⟩ := Option.map_eq_some_iff.1 hc
    rw [isBlank_toLower]
    exact h.2 d hd

/-! ## Suffixes -/

theorem dropSuffix?_eq_some_iff {suffix cs rest : List Char} :
    dropSuffix? suffix cs = some rest ↔ cs = rest ++ suffix := by
  unfold dropSuffix?
  split_ifs with h
  · obtain ⟨front, rfl⟩ := List.isSuffixOf_iff_suffix.1 h
    simp [eq_comm]
  · constructor
    · intro h'
      cases h'
    · rintro rfl
      exact absurd (List.isSuffixOf_iff_suffix.2 (List.suffix_append rest suffix)) h

/-! ## Pieces -/

theorem cutFirst?_append {c : Char} {before : List Char} (h : c ∉ before) (after : List Char) :
    cutFirst? c (before ++ c :: after) = some (before, after) := by
  induction before with
  | nil => simp [cutFirst?]
  | cons d before ih =>
    rw [List.mem_cons, not_or] at h
    rw [List.cons_append, cutFirst?, if_neg (Ne.symm h.1), ih h.2]
    rfl

theorem cutFirst?_eq_some_iff {c : Char} {cs before after : List Char} :
    cutFirst? c cs = some (before, after) ↔ cs = before ++ c :: after ∧ c ∉ before := by
  constructor
  · intro h
    induction cs generalizing before with
    | nil => cases h
    | cons d cs ih =>
      rw [cutFirst?] at h
      split_ifs at h with hd
      · cases h
        exact ⟨by rw [hd, List.nil_append], List.not_mem_nil⟩
      · obtain ⟨⟨before', after'⟩, hcut, hpair⟩ := Option.map_eq_some_iff.1 h
        cases hpair
        obtain ⟨rfl, hc⟩ := ih hcut
        refine ⟨rfl, fun hmem => ?_⟩
        rcases List.mem_cons.1 hmem with rfl | hmem
        · exact hd rfl
        · exact hc hmem
  · rintro ⟨rfl, hc⟩
    exact cutFirst?_append hc after

theorem cutAll_eq_splitOn (c : Char) (cs : List Char) : cutAll c cs = cs.splitOn c := by
  induction cs with
  | nil => simp [cutAll]
  | cons d ds ih =>
    obtain ⟨piece, pieces, hsplit⟩ := List.exists_cons_of_ne_nil (List.splitOn_ne_nil c ds)
    rw [cutAll, ih, List.splitOn_cons_eq_if_modifyHead, hsplit]
    simp

theorem joinWith_eq_intercalate (separator : String) (ss : List String) :
    joinWith separator ss = separator.intercalate ss := by
  fun_induction joinWith separator ss with
  | case1 => rfl
  | case2 s => rw [String.intercalate_singleton]
  | case3 s t rest ih => rw [ih, String.intercalate_cons_cons]

theorem joinWith_cons {separator s : String} {ss : List String} (h : ss ≠ []) :
    joinWith separator (s :: ss) = s ++ separator ++ joinWith separator ss := by
  obtain ⟨t, rest, rfl⟩ := List.exists_cons_of_ne_nil h
  rfl

/-! ## Words -/

/-- an unfinished word is the only piece of itself, if it has begun -/
theorem pieces_of_word {word : List Char} (hword : ∀ c ∈ word, isBlank c = false) :
    (word.reverse.splitOnP isBlank).filter (· ≠ []) = if word.isEmpty then [] else [word.reverse] := by
  rw [List.splitOnP_eq_singleton fun c hc => hword c (List.mem_reverse.1 hc)]
  cases word <;> simp

theorem wordsFrom_eq {word : List Char} (hword : ∀ c ∈ word, isBlank c = false) (cs : List Char) :
    wordsFrom word cs = ((word.reverse ++ cs).splitOnP isBlank).filter (· ≠ []) := by
  induction cs generalizing word with
  | nil =>
    rw [List.append_nil, pieces_of_word hword]
    rfl
  | cons c cs ih =>
    -- a blank ends the unfinished word, everything else belongs to it
    by_cases hc : isBlank c = true
    · rw [List.splitOnP_append_cons _ _ hc, List.filter_append, pieces_of_word hword, wordsFrom, if_pos hc,
        ih (List.forall_mem_nil _)]
      cases word <;> rfl
    · have hlonger : ∀ d ∈ c :: word, isBlank d = false :=
        List.forall_mem_cons.2 ⟨Bool.eq_false_iff.2 hc, hword⟩
      rw [wordsFrom, if_neg hc, ih hlonger, List.reverse_cons, List.append_assoc, List.singleton_append]

/-- words are the pieces between blanks that are not empty -/
theorem words_eq (s : String) :
    words s = ((s.toList.splitOnP isBlank).filter (· ≠ [])).map String.ofList := by
  rw [words, wordsFrom_eq (List.forall_mem_nil _)]
  rfl

/-- no word goes on behind a blank -/
theorem wordsFrom_append_blank {c : Char} (hc : isBlank c = true) (cs ds : List Char) :
    wordsFrom [] (cs ++ c :: ds) = wordsFrom [] cs ++ wordsFrom [] ds := by
  have hnone : ∀ d ∈ ([] : List Char), isBlank d = false := List.forall_mem_nil _
  rw [wordsFrom_eq hnone, wordsFrom_eq hnone, wordsFrom_eq hnone, List.reverse_nil, List.nil_append, List.nil_append,
    List.nil_append, List.splitOnP_append_cons _ _ hc, List.filter_append]

/-- a text that is one word -/
def IsWord (cs : List Char) : Prop :=
  cs ≠ [] ∧ ∀ c ∈ cs, isBlank c = false

theorem wordsFrom_of_isWord {cs : List Char} (h : IsWord cs) : wordsFrom [] cs = [cs] := by
  rw [wordsFrom_eq (List.forall_mem_nil _), List.reverse_nil, List.nil_append, List.splitOnP_eq_singleton h.2]
  simp [h.1]

/-! ## Numerals -/

theorem ofDigits_append_singleton (base : Nat) (ds : List Nat) (d : Nat) :
    ofDigits base (ds ++ [d]) = ofDigits base ds * base + d := by
  simp [ofDigits]

/-- the same number, from the digits in the other order -/
theorem ofDigits_eq_ofDigits_reverse (base : Nat) (ds : List Nat) :
    ofDigits base ds = Nat.ofDigits base ds.reverse := by
  induction ds using List.reverseRecOn with
  | nil => rfl
  | append_singleton ds d ih =>
    rw [ofDigits_append_singleton, ih, List.reverse_append, List.reverse_singleton, List.singleton_append,
      Nat.ofDigits_cons, Nat.mul_comm, Nat.add_comm]

/-- a text of decimal digits, which a plus may precede, writes their number -/
def IsNumeral (cs : List Char) (n : Nat) : Prop :=
  ∃ ds, (cs = ds ∨ cs = '+' :: ds) ∧ ds ≠ [] ∧ (∀ d ∈ ds, d.isDigit = true) ∧ decimalValue ds = n

theorem dropPlus_of_isDigit {ds : List Char} (h : ∀ d ∈ ds, d.isDigit = true) : dropPlus ds = ds := by
  unfold dropPlus
  split
  · exact absurd (h '+' List.mem_cons_self) (by decide)
  · rfl

theorem unsigned?_eq_some_iff {limit n : Nat} {cs : List Char} :
    unsigned? limit cs = some n ↔ IsNumeral cs n ∧ n ≤ limit := by
  unfold unsigned?
  constructor
  · intro h
    simp only at h
    split_ifs at h with hnumeral
    obtain ⟨hne, hdigits, hle⟩ := hnumeral
    obtain rfl := Option.some.inj h
    have hplus : cs = dropPlus cs ∨ cs = '+' :: dropPlus cs := by
      unfold dropPlus
      split <;> simp
    exact ⟨⟨dropPlus cs, hplus, hne, List.all_eq_true.1 hdigits, rfl⟩, hle⟩
  · rintro ⟨⟨ds, hplus, hne, hdigits, rfl⟩, hle⟩
    have hdrop : dropPlus cs = ds := by
      rcases hplus with rfl | rfl
      · exact dropPlus_of_isDigit hdigits
      · rfl
    simp only [hdrop]
    rw [if_pos ⟨hne, List.all_eq_true.2 hdigits, hle⟩]

/-- a numeral writes one number -/
theorem IsNumeral.unique {cs : List Char} {n m : Nat} (hn : IsNumeral cs n) (hm : IsNumeral cs m) : n = m := by
  have hread := unsigned?_eq_some_iff.2 ⟨hn, Nat.le_max_left n m⟩
  rw [unsigned?_eq_some_iff.2 ⟨hm, Nat.le_max_right n m⟩] at hread
  exact (Option.some.inj hread).symm

/-- the decimal digits of a number make it again -/
theorem decimalValue_toDigits (n : Nat) : decimalValue (Nat.toDigits 10 n) = n := by
  conv_rhs => rw [← Nat.ofDigitChars_ten_toDigits (n := n)]
  rw [Nat.ofDigitChars_eq_foldl, decimalValue, ofDigits, List.foldl_map]
  simp only [Nat.mul_comm]

/-- a number is written by its decimal digits -/
theorem isNumeral_toDigits (n : Nat) : IsNumeral (Nat.toDigits 10 n) n := by
  refine ⟨Nat.toDigits 10 n, .inl rfl, Nat.toDigits_ne_nil, fun d hd => ?_, decimalValue_toDigits n⟩
  exact Nat.isDigit_of_mem_toDigits (by decide) (by decide) hd

theorem isWord_toDigits (n : Nat) : IsWord (Nat.toDigits 10 n) :=
  ⟨Nat.toDigits_ne_nil, fun _ hc => isBlank_of_isDigit (Nat.isDigit_of_mem_toDigits (by decide) (by decide) hc)⟩

/-- what is read as a number is the numeral of a word if the words are the numbers up to the limit -/
theorem unsigned?_word {α : Type} {toNat : α → Nat} {limit : Nat} (hwords : ∀ n, n ≤ limit ↔ ∃ w, toNat w = n)
    {cs : List Char} {n : Nat} : unsigned? limit cs = some n ↔ ∃ w, IsNumeral cs (toNat w) ∧ toNat w = n := by
  rw [unsigned?_eq_some_iff, hwords]
  constructor
  · rintro ⟨hnumeral, w, rfl⟩
    exact ⟨w, hnumeral, rfl⟩
  · rintro ⟨w, hnumeral, rfl⟩
    exact ⟨hnumeral, w, rfl⟩

theorem unsigned?_word16 {cs : List Char} {n : Nat} :
    unsigned? 0xFFFF cs = some n ↔ ∃ w : UInt16, IsNumeral cs w.toNat ∧ w.toNat = n := by
  refine unsigned?_word fun n => ⟨fun hle => ⟨.ofNat n, UInt16.toNat_ofNat_of_lt' (Nat.lt_succ_of_le hle)⟩, ?_⟩
  rintro ⟨w, rfl⟩
  exact Nat.le_of_lt_succ w.toNat_lt

theorem unsigned?_word8 {cs : List Char} {n : Nat} :
    unsigned? 0xFF cs = some n ↔ ∃ w : UInt8, IsNumeral cs w.toNat ∧ w.toNat = n := by
  refine unsigned?_word fun n => ⟨fun hle => ⟨.ofNat n, UInt8.toNat_ofNat_of_lt' (Nat.lt_succ_of_le hle)⟩, ?_⟩
  rintro ⟨w, rfl⟩
  exact Nat.le_of_lt_succ w.toNat_lt

/-- what is read as no number is the numeral of no word -/
theorem unsigned?_word16_eq_none {cs : List Char} :
    unsigned? 0xFFFF cs = none ↔ ∀ w : UInt16, ¬IsNumeral cs w.toNat := by
  simp [Option.eq_none_iff_forall_ne_some, unsigned?_word16]

@[inherit_doc unsigned?_word16_eq_none]
theorem unsigned?_word8_eq_none {cs : List Char} :
    unsigned? 0xFF cs = none ↔ ∀ w : UInt8, ¬IsNumeral cs w.toNat := by
  simp [Option.eq_none_iff_forall_ne_some, unsigned?_word8]

end ZonePlan.Text
