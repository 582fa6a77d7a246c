/-
Literals of a JSON text are read as what was written.

- `read_quoted`: a string with its escapes, whatever characters it has, up to the closing quote.
- `read_toDigits`: the decimal digits of a natural number within the limit, up to a character that closes a value
  (`Closed`). A digit, a point or an exponent would make another number of them, so something has to be said of what
  follows.
-/
import Mathlib.Tactic
import ZonePlan.Json
import ZonePlan.Json.Reader
import ZonePlan.Proofs.Text

namespace ZonePlan.Json

/-! ## Strings -/

theorem digitValue?_digitChar : ∀ d < 16, Text.digitValue? (Nat.digitChar d) = some d := by
  decide

/-- an escape by number stands for the control character it was made from -/
theorem escape_control (pairs : Bool) {c : Char} (h : c.toNat < 0x20) (rest : List Char) :
    StringLiteral.escape pairs
      ('u' :: '0' :: '0' :: Nat.digitChar (c.toNat / 16) :: Nat.digitChar (c.toNat % 16) :: rest) = .ok (c, rest) := by
  have h1 := digitValue?_digitChar (c.toNat / 16) (by omega)
  have h2 := digitValue?_digitChar (c.toNat % 16) (by omega)
  have hv : Text.ofDigits 16 [0, 0, c.toNat / 16, c.toNat % 16] = c.toNat := by
    simp only [Text.ofDigits, List.foldl_cons, List.foldl_nil]
    omega
  have hu : StringLiteral.unit
      ('0' :: '0' :: Nat.digitChar (c.toNat / 16) :: Nat.digitChar (c.toNat % 16) :: rest) = .ok (c.toNat, rest) := by
    have h0 : Text.digitValue? '0' = some 0 := by decide
    simp only [StringLiteral.unit, List.mapM_cons, List.mapM_nil, h0, h1, h2]
    exact congrArg (fun n => Except.ok (n, rest)) hv
  have hlow : StringLiteral.isLow c.toNat = false := by
    simp only [StringLiteral.isLow, Bool.and_eq_false_imp, decide_eq_true_eq]
    omega
  have hhigh : StringLiteral.isHigh c.toNat = false := by
    simp only [StringLiteral.isHigh, Bool.and_eq_false_imp, decide_eq_true_eq]
    omega
  simp [StringLiteral.escape, hu, hlow, hhigh]

/-- an escape puts its character to those read before -/
theorem read_escape {pairs : Bool} {done cs rest : List Char} {d : Char}
    (h : StringLiteral.escape pairs cs = .ok (d, rest)) :
    StringLiteral.read pairs done ('\\' :: cs) = StringLiteral.read pairs (d :: done) rest := by
  rw [StringLiteral.read]
  simp only [Char.reduceEq, ↓reduceIte]
  split
  · next hf => rw [h] at hf; cases hf
  · next hf => rw [h] at hf; cases hf; rfl

/-- whatever stands for a character is read as that character -/
theorem read_escapedChar (pairs : Bool) (done : List Char) (c : Char) (rest : List Char) :
    StringLiteral.read pairs done (escapedChar c ++ rest) = StringLiteral.read pairs (c :: done) rest := by
  unfold escapedChar
  split
  case h_8 hquote hslash _ _ _ _ _ =>
    split_ifs with hc
    · exact read_escape (escape_control pairs hc rest)
    · rw [List.singleton_append, StringLiteral.read]
      rw [if_neg hquote, if_neg hslash, if_neg hc]
  all_goals exact read_escape rfl

theorem read_escaped (pairs : Bool) (cs rest : List Char) (done : List Char) :
    StringLiteral.read pairs done (cs.flatMap escapedChar ++ '"' :: rest) =
      .ok (String.ofList (done.reverse ++ cs), rest) := by
  induction cs generalizing done with
  | nil =>
    rw [List.flatMap_nil, List.nil_append, StringLiteral.read]
    simp
  | cons c cs ih =>
    rw [List.flatMap_cons, List.append_assoc, read_escapedChar, ih]
    simp

/-- **A written string is read as itself**, from behind its opening quote -/
theorem read_quoted (pairs : Bool) (s : String) (rest : List Char) :
    StringLiteral.read pairs [] ((quoted s).tail ++ rest) = .ok (s, rest) := by
  simp [quoted, read_escaped]

/-! ## Numbers -/

/-- what can follow a value: nothing, or a character that no number goes on with -/
def Closed (rest : List Char) : Prop := ∀ c ∈ rest.head?, c = ',' ∨ c = ']' ∨ c = '}' ∨ c = '\n'

theorem Closed.nil : Closed [] := by
  simp [Closed]

theorem Closed.not_digit {rest : List Char} (h : Closed rest) : ∀ c ∈ rest.head?, c.isDigit = false := by
  intro c hc
  rcases h c hc with rfl | rfl | rfl | rfl <;> decide

theorem Closed.not_real {rest : List Char} (h : Closed rest) : Numeral.isReal rest = false := by
  cases rest with
  | nil => rfl
  | cons c cs => rcases h c rfl with rfl | rfl | rfl | rfl <;> rfl

/-- the digits of a number, the most significant first -/
def digitsOf (n : Nat) : List Nat := (Nat.toDigits 10 n).map fun d => d.toNat - '0'.toNat

theorem digits_toDigits (n : Nat) {rest : List Char} (h : Closed rest) :
    Numeral.digits (Nat.toDigits 10 n ++ rest) = (digitsOf n, rest) := by
  have hall : ∀ c ∈ Nat.toDigits 10 n, c.isDigit = true :=
    fun c hc => Nat.isDigit_of_mem_toDigits (by decide) (by decide) hc
  have htake : rest.takeWhile Char.isDigit = [] := by
    cases rest with
    | nil => rfl
    | cons c cs => simp [h.not_digit c rfl]
  have hdrop : rest.dropWhile Char.isDigit = rest := by
    cases rest with
    | nil => rfl
    | cons c cs => simp [h.not_digit c rfl]
  rw [Numeral.digits, List.takeWhile_append_of_pos hall, List.dropWhile_append_of_pos hall, htake, hdrop,
    List.append_nil, digitsOf]

theorem digitsOf_ne_nil (n : Nat) : digitsOf n ≠ [] := by
  simp [digitsOf, Nat.toDigits_ne_nil]

/-- the digits make the number again -/
theorem ofDigits_digitsOf (n : Nat) : Text.ofDigits 10 (digitsOf n) = n :=
  Text.decimalValue_toDigits n

theorem head?_digitsOf_ne {n : Nat} (h : 0 < n) : (digitsOf n).head? ≠ some 0 := by
  induction n using Nat.strongRecOn with
  | ind n ih =>
    by_cases hn : n < 10
    · simp only [digitsOf, Nat.toDigits_of_lt_base hn, List.map_cons, List.map_nil, List.head?_cons, ne_eq,
        Option.some.injEq]
      have := Nat.toNat_digitChar_of_lt_ten hn
      have : '0'.toNat = 48 := rfl
      omega
    · have hlt : n / 10 < n := Nat.div_lt_self h (by decide)
      have hne : digitsOf (n / 10) ≠ [] := digitsOf_ne_nil _
      have hsplit : digitsOf n = digitsOf (n / 10) ++ [(Nat.digitChar (n % 10)).toNat - '0'.toNat] := by
        simp [digitsOf, Nat.toDigits_of_base_le (by decide : 1 < 10) (by omega : 10 ≤ n)]
      rw [hsplit, List.head?_append_of_ne_nil _ hne]
      exact ih _ hlt (by omega)

/-- a written number has no digit in front of its first significant one -/
theorem digitsOf_no_leading_zero (n : Nat) : ¬((digitsOf n).head? = some 0 ∧ 1 < (digitsOf n).length) := by
  rintro ⟨hhead, hlength⟩
  rcases Nat.eq_zero_or_pos n with rfl | hn
  · revert hlength; decide
  · exact head?_digitsOf_ne hn hhead

theorem le_foldl_digits (ds : List Nat) (n : Nat) : n ≤ ds.foldl (fun n d => n * 10 + d) n := by
  induction ds generalizing n with
  | nil => exact le_rfl
  | cons d ds ih => calc
      n ≤ n * 10 + d := by omega
      _ ≤ ds.foldl (fun n d => n * 10 + d) (n * 10 + d) := ih (n * 10 + d)

theorem absorb_of_le (ds : List Nat) (n : Nat) (h : ds.foldl (fun n d => n * 10 + d) n ≤ Numeral.greatest) :
    Numeral.absorb n ds = (ds.foldl (fun n d => n * 10 + d) n, []) := by
  induction ds generalizing n with
  | nil => rfl
  | cons d ds ih =>
    have hd : n * 10 + d ≤ Numeral.greatest := le_trans (le_foldl_digits ds _) h
    rw [Numeral.absorb, if_pos hd]
    exact ih _ h

theorem toDigits_eq_cons (n : Nat) : ∃ c cs, Nat.toDigits 10 n = c :: cs ∧ c.isDigit = true := by
  obtain ⟨c, cs, hcs⟩ := List.exists_cons_of_ne_nil (Nat.toDigits_ne_nil (n := n) (b := 10))
  have hmem : c ∈ Nat.toDigits 10 n := hcs ▸ List.mem_cons_self
  exact ⟨c, cs, hcs, Nat.isDigit_of_mem_toDigits (by decide) (by decide) hmem⟩

theorem read_toDigits {n : Nat} (hn : n ≤ Numeral.greatest) {rest : List Char} (h : Closed rest) :
    Numeral.read (Nat.toDigits 10 n ++ rest) = .ok (.natural n, rest) := by
  have habsorb : Numeral.absorb 0 (digitsOf n) = (n, []) := by
    have := absorb_of_le (digitsOf n) 0 (by rw [← Text.ofDigits, ofDigits_digitsOf]; exact hn)
    rw [this, ← Text.ofDigits, ofDigits_digitsOf]
  have hunsigned : Numeral.unsigned false (Nat.toDigits 10 n ++ rest) = .ok (.natural n, rest) := by
    rw [Numeral.unsigned, digits_toDigits n h]
    split
    · next hds => exact absurd (congrArg Prod.fst hds) (digitsOf_ne_nil n)
    · next hds =>
      cases hds
      simp [digitsOf_no_leading_zero n, habsorb, h.not_real]
  obtain ⟨c, cs, hcs, hc⟩ := toDigits_eq_cons n
  rw [hcs] at hunsigned ⊢
  unfold Numeral.read
  split
  · next heq =>
    obtain ⟨rfl, -⟩ := List.cons.inj heq
    exact absurd hc (by decide)
  · exact hunsigned

end ZonePlan.Json
