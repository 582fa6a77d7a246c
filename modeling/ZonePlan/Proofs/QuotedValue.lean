/-
The value of a CAA record between double quotes.

A target is taken apart into its words, and what is left of them behind the flag and the tag is joined with single
spaces. So a value between quotes does not come out as it was written: each run of blanks in it has become one space
(`Text.squeeze`, `split_quoted`). It is kept exactly if no two blanks stand side by side in it and none of them is another
one than the space (`Text.squeeze_eq_self_iff`, `blanks_collapse`).
-/
import ZonePlan.Proofs.RecordGrammar

namespace ZonePlan

namespace Text

/-! ## Runs of blanks -/

/-- a text, behind a blank or at another place, with one space for each run of blanks -/
def squeezeFrom (behindBlank : Bool) : List Char → List Char
  | [] => []
  | c :: cs =>
    if isBlank c then (if behindBlank then [] else [' ']) ++ squeezeFrom true cs
    else c :: squeezeFrom false cs

/-- a text with one space for each run of blanks -/
def squeeze (s : String) : String := String.ofList (squeezeFrom false s.toList)

/-- a text without other blanks than spaces, which do not stand side by side -/
structure SingleSpaced (cs : List Char) : Prop where
  spaces : ∀ c ∈ cs, isBlank c = true → c = ' '
  apart : cs.IsChain fun c d => isBlank c = true → isBlank d = false

theorem length_squeezeFrom (behindBlank : Bool) (cs : List Char) : (squeezeFrom behindBlank cs).length ≤ cs.length := by
  induction cs generalizing behindBlank with
  | nil => exact le_rfl
  | cons c cs ih =>
    rw [squeezeFrom]
    split_ifs with hblank hbehind
    · exact (ih true).trans (Nat.le_succ _)
    · exact Nat.succ_le_succ (ih true)
    · exact Nat.succ_le_succ (ih false)

theorem mem_squeezeFrom {behindBlank : Bool} {cs : List Char} {c : Char} (h : c ∈ squeezeFrom behindBlank cs) :
    c = ' ' ∨ c ∈ cs := by
  induction cs generalizing behindBlank with
  | nil => cases h
  | cons d cs ih =>
    rw [squeezeFrom] at h
    split_ifs at h
    · exact (ih h).imp_right (List.mem_cons_of_mem d)
    · rcases List.mem_cons.1 h with h | h
      · exact .inl h
      · exact (ih h).imp_right (List.mem_cons_of_mem d)
    · rcases List.mem_cons.1 h with rfl | h
      · exact .inr List.mem_cons_self
      · exact (ih h).imp_right (List.mem_cons_of_mem d)

theorem singleSpaced_nil : SingleSpaced [] := ⟨List.forall_mem_nil _, .nil⟩

theorem singleSpaced_cons {c : Char} {cs : List Char} :
    SingleSpaced (c :: cs) ↔
      (isBlank c = true → c = ' ' ∧ ∀ d ∈ cs.head?, isBlank d = false) ∧ SingleSpaced cs := by
  constructor
  · rintro ⟨hspaces, hapart⟩
    obtain ⟨hc, hcs⟩ := List.forall_mem_cons.1 hspaces
    obtain ⟨hhead, htail⟩ := List.isChain_cons.1 hapart
    exact ⟨fun hblank => ⟨hc hblank, fun d hd => hhead d hd hblank⟩, hcs, htail⟩
  · rintro ⟨hc, hspaces, hapart⟩
    refine ⟨List.forall_mem_cons.2 ⟨fun hblank => (hc hblank).1, hspaces⟩, List.isChain_cons.2 ⟨?_, hapart⟩⟩
    exact fun d hd hblank => (hc hblank).2 d hd

/-- behind a blank, nothing changes only if the text does not begin with a blank -/
theorem squeezeFrom_eq_self_iff (behindBlank : Bool) (cs : List Char) :
    squeezeFrom behindBlank cs = cs ↔
      (behindBlank = true → ∀ c ∈ cs.head?, isBlank c = false) ∧ SingleSpaced cs := by
  induction cs generalizing behindBlank with
  | nil => simp [squeezeFrom, singleSpaced_nil]
  | cons c cs ih =>
    rw [singleSpaced_cons, squeezeFrom]
    by_cases hblank : isBlank c = true
    · cases behindBlank with
      | true =>
        -- the blank is left out, so what is left is too short
        refine iff_of_false (fun h => ?_) (fun h => ?_)
        · have hlength := length_squeezeFrom true cs
          simp only [hblank, if_true, List.nil_append] at h
          rw [h, List.length_cons] at hlength
          omega
        · have hhead := h.1 rfl c rfl
          rw [hblank] at hhead
          cases hhead
      | false =>
        simp only [hblank, if_true, Bool.false_eq_true, if_false, List.singleton_append, List.cons.injEq, ih,
          false_imp_iff, true_and, forall_const]
        rw [and_assoc, eq_comm]
    · simp [hblank, ih]

theorem squeeze_eq_self_iff (s : String) : squeeze s = s ↔ SingleSpaced s.toList := by
  rw [← String.toList_inj, squeeze, String.toList_ofList, squeezeFrom_eq_self_iff]
  simp

/-- the words up to a closing mark that is no blank, joined with spaces: runs of blanks are single spaces, and those
behind an unfinished word are not lost -/
theorem joinWith_wordsFrom {mark : Char} (hmark : isBlank mark = false) (word cs : List Char) :
    (joinWith " " ((wordsFrom word (cs ++ [mark])).map String.ofList)).toList =
      word.reverse ++ squeezeFrom word.isEmpty cs ++ [mark] := by
  induction cs generalizing word with
  | nil => simp [wordsFrom, hmark, squeezeFrom, joinWith]
  | cons c cs ih =>
    rw [List.cons_append, wordsFrom, squeezeFrom]
    by_cases hblank : isBlank c = true
    · have hrest := ih []
      cases word with
      | nil => simpa [hblank] using hrest
      | cons d word =>
        have hne : (wordsFrom [] (cs ++ [mark])).map String.ofList ≠ [] := by
          intro hnil
          rw [hnil] at hrest
          simp [joinWith] at hrest
        simp [hblank, joinWith_cons hne, hrest]
    · simp [hblank, ih]

end Text

namespace Record

/-! ## Quotes -/

/-- the quotes around a text without quotes are taken off, and nothing else -/
theorem trimQuotes_quoted {cs : List Char} (h : '"' ∉ cs) :
    trimQuotes (String.ofList ('"' :: cs ++ ['"'])) = String.ofList cs := by
  have hother : ∀ c ∈ cs, (c == '"') = false := by
    intro c hc
    rw [beq_eq_false_iff_ne]
    rintro rfl
    exact h hc
  have hclosing : Text.dropTrailing (· == '"') (cs ++ ['"']) = cs :=
    (List.rdropWhile_concat_pos (· == '"') cs '"' (by decide)).trans
      (Text.dropTrailing_eq_self fun c hc => hother c (List.mem_of_mem_getLast? hc))
  rw [trimQuotes, String.toList_ofList]
  cases cs with
  | nil => rfl
  | cons c cs =>
    have hopening : ('"' :: (c :: cs) ++ ['"']).dropWhile (· == '"') = c :: cs ++ ['"'] := by
      simp [hother c List.mem_cons_self]
    rw [hopening, hclosing]

/-- the words of a flag, a tag and a value between quotes: the tag is one word, and of the value at least a quote is -/
theorem tokens_of_quoted {r : Record} {flag tag value : String} (hflag : Text.IsWord flag.toList)
    (htag : Text.IsWord tag.toList) (htarget : r.target = s!"{flag} {tag} \"{value}\"") :
    ∃ first rest, r.tokens = flag :: tag :: first :: rest ∧
      Text.joinWith " " (first :: rest) =
        String.ofList ('"' :: Text.squeezeFrom false value.toList ++ ['"']) := by
  have hspace : Text.isBlank ' ' = true := by decide
  have hquote : Text.isBlank '"' = false := by decide
  have hlist : r.target.toList =
      flag.toList ++ ' ' :: (tag.toList ++ ' ' :: ('"' :: (value.toList ++ ['"']))) := by
    simp [htarget, toString]
  have htokens : r.tokens = flag :: tag ::
      (Text.wordsFrom ['"'] (value.toList ++ ['"'])).map String.ofList := by
    rw [r.tokens_eq, Text.words, hlist, Text.wordsFrom_append_blank hspace, Text.wordsFrom_append_blank hspace,
      Text.wordsFrom_of_isWord hflag, Text.wordsFrom_of_isWord htag, Text.wordsFrom, if_neg (by simp [hquote])]
    simp
  have hjoined := Text.joinWith_wordsFrom hquote ['"'] value.toList
  rcases hwords : (Text.wordsFrom ['"'] (value.toList ++ ['"'])).map String.ofList with _ | ⟨first, rest⟩
  · rw [hwords] at hjoined
    simp [Text.joinWith] at hjoined
  · rw [hwords] at htokens hjoined
    refine ⟨first, rest, htokens, ?_⟩
    rw [← String.toList_inj, hjoined, String.toList_ofList]
    rfl

/-- **What becomes of a value between double quotes**: flag and tag are split off as they are, and of the value each run of
blanks becomes one space. So it is kept exactly if every blank in it is a space of its own. -/
theorem split_quoted (zone : String) (r : Record) (flag : UInt8) (tag value : String)
    (hkind : Text.upper r.kind = "CAA") (hunset : r.tag? = none) (htag : tag ≠ "")
    (hword : ∀ c ∈ tag.toList, Text.isBlank c = false) (hvalue : '"' ∉ value.toList)
    (htarget : r.target = s!"{flag} {tag} \"{value}\"") :
    let s := { r with flag? := some flag, tag? := some tag, target := Text.squeeze value }
    r.split zone = (s, none) ∧ (s.target = value ↔ Text.SingleSpaced value.toList) := by
  intro s
  refine ⟨?_, Text.squeeze_eq_self_iff value⟩
  have hflag : (toString flag).toList = Nat.toDigits 10 flag.toNat := by
    rw [show toString flag = toString flag.toNat from rfl, Nat.toString_eq_ofList_toDigits, String.toList_ofList]
  have hnumeral : Text.IsNumeral (toString flag).toList flag.toNat := hflag ▸ Text.isNumeral_toDigits flag.toNat
  obtain ⟨first, rest, htokens, hjoined⟩ := tokens_of_quoted (hflag ▸ Text.isWord_toDigits flag.toNat)
    ⟨by simpa using htag, hword⟩ htarget
  have hsqueezed : '"' ∉ Text.squeezeFrom false value.toList := by
    intro hmem
    rcases Text.mem_squeezeFrom hmem with hspace | hmem
    · cases hspace
    · exact hvalue hmem
  have hsplit : r.split zone = _ := split_of_splitsTo (.caa hkind hunset htokens hnumeral)
  rwa [hjoined, trimQuotes_quoted hsqueezed] at hsplit

/-- single spaces are kept, also directly within the quotes -/
theorem split_quoted_kept :
    let value := " security team@a "
    let r : Record := { kind := "caa", label := "@", target := "128 iodef \" security team@a \"" }
    Text.SingleSpaced value.toList ∧
      r.split "a" = ({ r with flag? := some 128, tag? := some "iodef", target := value }, none) := by
  intro value r
  obtain ⟨hsplit, hkept⟩ := split_quoted "a" r 128 "iodef" value (by decide) rfl (by decide) (by simp [Text.isBlank])
    (by decide) (by decide)
  have hvalue : Text.squeeze value = value := by decide
  rw [hvalue] at hsplit hkept
  exact ⟨hkept.1 rfl, hsplit⟩

/-- of two spaces side by side only one is left -/
theorem blanks_collapse :
    ¬∀ (zone : String) (r : Record) (flag : UInt8) (tag value : String), Text.upper r.kind = "CAA" → r.flag? = none →
      r.tag? = none → tag ≠ "" → (∀ c ∈ tag.toList, Text.isBlank c = false) → value ≠ "" → '"' ∉ value.toList →
      r.target = s!"{flag} {tag} \"{value}\"" →
      r.split zone = ({ r with flag? := some flag, tag? := some tag, target := value }, none) := by
  intro h
  have hkeeps := h "example.com" { kind := "CAA", label := "@", target := "0 issue \"a  b\"" } 0 "issue" "a  b"
    (by decide) rfl rfl (by decide) (by simp [Text.isBlank]) (by decide) (by decide) (by decide)
  revert hkeeps
  decide

end Record

end ZonePlan
