/-
The two styles of a JSON text differ in their layout only (`laidOut_chars`).

What is layout depends on where a character stands: a blank between tokens is, a blank in a string literal is not. So the
text is read from left to right with one of three spots at each character (`Spot`), and `withoutLayout` leaves out the
blanks outside of string literals. Every part of a written text begins and ends outside, so that the parts can be
looked at one by one (`LaidOut.append`); the only parts with quotes are the strings, whose escapes keep their characters
within the literal.
-/
import ZonePlan.Proofs.Json.Literals
import ZonePlan.Proofs.Text

namespace ZonePlan.Json

/-! ## String literals within a text -/

/-- where a character of a text stands -/
inductive Spot where
  /-- not in a string literal, or at the quote that opens one -/
  | outside
  /-- in a string literal, or at the quote that closes it -/
  | literal
  /-- behind a backslash in a string literal -/
  | escaped
deriving DecidableEq, Repr

/-- where the character behind another one stands -/
def Spot.next : Spot → Char → Spot
  | .outside, '"' => .literal
  | .literal, '"' => .outside
  | .literal, '\\' => .escaped
  | .escaped, _ => .literal
  | spot, _ => spot

/-- where the character behind a text stands that begins at a spot -/
def Spot.behind (spot : Spot) (cs : List Char) : Spot := cs.foldl Spot.next spot

/-- the characters of a text that begins at a spot, with where they stand -/
def Spot.marked (spot : Spot) : List Char → List (Spot × Char)
  | [] => []
  | c :: cs => (spot, c) :: (spot.next c).marked cs

/-- a blank outside of string literals -/
def isLayout (m : Spot × Char) : Bool := m.1 == .outside && Text.isBlank m.2

/-- a text without its blanks outside of string literals -/
def withoutLayout (cs : List Char) : List Char :=
  ((Spot.outside.marked cs).filter fun m => !isLayout m).map Prod.snd

theorem Spot.behind_append (spot : Spot) (xs ys : List Char) :
    spot.behind (xs ++ ys) = (spot.behind xs).behind ys :=
  List.foldl_append

theorem Spot.marked_append (spot : Spot) (xs ys : List Char) :
    spot.marked (xs ++ ys) = spot.marked xs ++ (spot.behind xs).marked ys := by
  induction xs generalizing spot with
  | nil => rfl
  | cons c xs ih =>
    rw [List.cons_append, marked, ih, marked, List.cons_append]
    rfl

theorem Spot.map_snd_marked (spot : Spot) (cs : List Char) : (spot.marked cs).map Prod.snd = cs := by
  induction cs generalizing spot with
  | nil => rfl
  | cons c cs ih => rw [marked, List.map_cons, ih]

/-- a text stays as it is exactly if it has no layout -/
theorem withoutLayout_eq_self_iff {cs : List Char} :
    withoutLayout cs = cs ↔ ∀ m ∈ Spot.outside.marked cs, isLayout m = false := by
  constructor
  · intro h m hm
    have hlength := congrArg List.length h
    conv_rhs at hlength => rw [← Spot.map_snd_marked .outside cs]
    rw [withoutLayout, List.length_map, List.length_map, List.length_filter_eq_length_iff] at hlength
    simpa using hlength m hm
  · intro h
    have hkept : (Spot.outside.marked cs).filter (fun m => !isLayout m) = Spot.outside.marked cs := by
      rw [List.filter_eq_self]
      intro m hm
      rw [h m hm, Bool.not_false]
    rw [withoutLayout, hkept, Spot.map_snd_marked]

theorem Spot.next_outside {c : Char} (h : c ≠ '"') : Spot.outside.next c = .outside := by
  unfold Spot.next
  split <;> simp_all

theorem Spot.next_literal {c : Char} (hquote : c ≠ '"') (hslash : c ≠ '\\') : Spot.literal.next c = .literal := by
  unfold Spot.next
  split <;> simp_all

/-! ## Parts of a text -/

/-- a text that begins and ends outside of string literals, has no control character in them, and is another text once
its layout is left out -/
structure LaidOut (cs compact : List Char) : Prop where
  ends : Spot.outside.behind cs = .outside
  literals : ∀ m ∈ Spot.outside.marked cs, m.1 ≠ .outside → 0x20 ≤ m.2.toNat
  stripped : withoutLayout cs = compact

theorem LaidOut.append {xs ys xs' ys' : List Char} (h : LaidOut xs ys) (h' : LaidOut xs' ys') :
    LaidOut (xs ++ xs') (ys ++ ys') where
  ends := by rw [Spot.behind_append, h.ends, h'.ends]
  literals := by
    rw [Spot.marked_append, h.ends, List.forall_mem_append]
    exact ⟨h.literals, h'.literals⟩
  stripped := by
    rw [withoutLayout, Spot.marked_append, h.ends, List.filter_append, List.map_append]
    exact congrArg₂ (· ++ ·) h.stripped h'.stripped

/-- a text without quotes is outside of string literals -/
theorem outside_of_unquoted {cs : List Char} (h : ∀ c ∈ cs, c ≠ '"') :
    Spot.outside.behind cs = .outside ∧ Spot.outside.marked cs = cs.map (Prod.mk .outside) := by
  induction cs with
  | nil => exact ⟨rfl, rfl⟩
  | cons c cs ih =>
    obtain ⟨hc, hcs⟩ := List.forall_mem_cons.1 h
    have hnext := Spot.next_outside hc
    rw [Spot.behind, List.foldl_cons, Spot.marked, hnext, List.map_cons, (ih hcs).2]
    exact ⟨(ih hcs).1, rfl⟩

theorem LaidOut.blanks {ws : List Char} (h : ∀ c ∈ ws, Text.isBlank c = true) : LaidOut ws [] := by
  have hunquoted : ∀ c ∈ ws, c ≠ '"' := by
    rintro c hc rfl
    exact absurd (h _ hc) (by decide)
  obtain ⟨hends, hmarked⟩ := outside_of_unquoted hunquoted
  refine ⟨hends, ?_, ?_⟩
  · simp [hmarked]
  · simpa [withoutLayout, hmarked, isLayout] using h

theorem LaidOut.token {cs : List Char} (h : ∀ c ∈ cs, c ≠ '"' ∧ Text.isBlank c = false) : LaidOut cs cs := by
  obtain ⟨hends, hmarked⟩ := outside_of_unquoted fun c hc => (h c hc).1
  refine ⟨hends, ?_, withoutLayout_eq_self_iff.2 ?_⟩
  · simp [hmarked]
  · rw [hmarked]
    intro m hm
    obtain ⟨c, hc, rfl⟩ := List.mem_map.1 hm
    simp [isLayout, (h c hc).2]

theorem LaidOut.mark {c : Char} (h : c ≠ '"' ∧ Text.isBlank c = false) : LaidOut [c] [c] :=
  .token (by simpa using h)

theorem LaidOut.nil : LaidOut [] [] := .token nofun

/-! ## Strings -/

/-- a part of a string literal that stays in the literal and has no control characters -/
structure WithinLiteral (cs : List Char) : Prop where
  ends : Spot.literal.behind cs = .literal
  marked : ∀ m ∈ Spot.literal.marked cs, m.1 ≠ .outside ∧ 0x20 ≤ m.2.toNat

theorem WithinLiteral.append {xs ys : List Char} (hxs : WithinLiteral xs) (hys : WithinLiteral ys) :
    WithinLiteral (xs ++ ys) where
  ends := by rw [Spot.behind_append, hxs.ends, hys.ends]
  marked := by
    rw [Spot.marked_append, hxs.ends, List.forall_mem_append]
    exact ⟨hxs.marked, hys.marked⟩

theorem withinLiteral_character {c : Char} (hquote : c ≠ '"') (hslash : c ≠ '\\') (hcontrol : 0x20 ≤ c.toNat) :
    WithinLiteral [c] := by
  refine ⟨Spot.next_literal hquote hslash, ?_⟩
  intro m hm
  rw [List.mem_singleton.1 hm]
  exact ⟨nofun, hcontrol⟩

/-- the character behind a backslash may be a quote or a backslash -/
theorem withinLiteral_escape {c : Char} (hcontrol : 0x20 ≤ c.toNat) : WithinLiteral ['\\', c] := by
  refine ⟨rfl, ?_⟩
  intro m hm
  rcases List.mem_pair.1 hm with rfl | rfl
  · exact ⟨nofun, by decide⟩
  · exact ⟨nofun, hcontrol⟩

theorem withinLiteral_digit : ∀ d < 16, WithinLiteral [Nat.digitChar d] := by
  have hdigit : ∀ d < 16, Nat.digitChar d ≠ '"' ∧ Nat.digitChar d ≠ '\\' ∧ 0x20 ≤ (Nat.digitChar d).toNat := by decide
  intro d hd
  obtain ⟨hquote, hslash, hcontrol⟩ := hdigit d hd
  exact withinLiteral_character hquote hslash hcontrol

theorem withinLiteral_escapedChar (c : Char) : WithinLiteral (escapedChar c) := by
  unfold escapedChar
  split
  case h_8 hquote hslash _ _ _ _ _ =>
    split_ifs with hc
    · have hzero := withinLiteral_digit 0 (by decide)
      have hhigh := withinLiteral_digit (c.toNat / 16) (by omega)
      have hlow := withinLiteral_digit (c.toNat % 16) (by omega)
      exact (withinLiteral_escape (by decide)).append (hzero.append (hzero.append (hhigh.append hlow)))
    · exact withinLiteral_character hquote hslash (by omega)
  all_goals exact withinLiteral_escape (by decide)

theorem withinLiteral_flatMap (cs : List Char) : WithinLiteral (cs.flatMap escapedChar) := by
  induction cs with
  | nil => exact ⟨rfl, nofun⟩
  | cons c cs ih =>
    rw [List.flatMap_cons]
    exact (withinLiteral_escapedChar c).append ih

/-- a string has no layout -/
theorem laidOut_quoted (s : String) : LaidOut (quoted s) (quoted s) := by
  have hwithin := withinLiteral_flatMap s.toList
  have hmarked : Spot.outside.marked (quoted s) =
      (.outside, '"') :: Spot.literal.marked (s.toList.flatMap escapedChar) ++ [(.literal, '"')] := by
    have happend := Spot.marked_append .literal (s.toList.flatMap escapedChar) ['"']
    rw [hwithin.ends] at happend
    rw [quoted, List.cons_append, Spot.marked, show Spot.outside.next '"' = .literal from rfl, happend]
    rfl
  have hliterals : ∀ m ∈ Spot.outside.marked (quoted s), m = (.outside, '"') ∨ (m.1 ≠ .outside ∧ 0x20 ≤ m.2.toNat) := by
    intro m hm
    rw [hmarked, List.mem_append, List.mem_cons, List.mem_singleton] at hm
    rcases hm with (rfl | hm) | rfl
    · exact Or.inl rfl
    · exact Or.inr (hwithin.marked m hm)
    · exact Or.inr ⟨by decide, by decide⟩
  refine ⟨?_, ?_, withoutLayout_eq_self_iff.2 ?_⟩
  · have hbehind : Spot.outside.behind (quoted s) =
        (Spot.literal.behind (s.toList.flatMap escapedChar)).behind ['"'] := by
      rw [← Spot.behind_append]
      rfl
    rw [hbehind, hwithin.ends]
    rfl
  · intro m hm hspot
    rcases hliterals m hm with rfl | h
    · exact absurd rfl hspot
    · exact h.2
  · intro m hm
    rcases hliterals m hm with rfl | h
    · decide
    · simp [isLayout, h.1]

/-! ## Values -/

theorem laidOut_number (n : Nat) : LaidOut (Nat.toDigits 10 n) (Nat.toDigits 10 n) := by
  refine .token fun c hc => ?_
  have hdigit : c.isDigit = true := Nat.isDigit_of_mem_toDigits (by decide) (by decide) hc
  refine ⟨?_, Text.isBlank_of_isDigit hdigit⟩
  rintro rfl
  exact absurd hdigit (by decide)

theorem laidOut_lineBreak (style : Style) (depth outer : Nat) :
    LaidOut (style.lineBreak depth) (Style.compact.lineBreak outer) := by
  refine .blanks ?_
  cases style with
  | compact => nofun
  | pretty =>
    rw [Style.lineBreak, List.forall_mem_cons]
    refine ⟨by decide, fun c hc => ?_⟩
    rw [List.eq_of_mem_replicate hc]
    decide

theorem laidOut_colon (style : Style) : LaidOut style.colon Style.compact.colon := by
  have hcolon : LaidOut [':'] [':'] := .mark (by decide)
  cases style with
  | compact => exact hcolon
  | pretty => exact hcolon.append (.blanks (by simp [Text.isBlank]))

/-- a mark and the line behind it -/
theorem laidOut_cons_lineBreak {c : Char} (h : c ≠ '"' ∧ Text.isBlank c = false) (style : Style) (depth outer : Nat) :
    LaidOut (c :: style.lineBreak depth) (c :: Style.compact.lineBreak outer) :=
  (LaidOut.mark h).append (laidOut_lineBreak style depth outer)

mutual

/-- **Any text of a value is its compact text with layout** -/
theorem laidOut_chars (style : Style) (depth outer : Nat) (v : Json) :
    LaidOut (v.chars style depth) (v.chars .compact outer) := by
  match v with
  | .null => exact .token (by simp [chars, Text.isBlank])
  | .number n => exact laidOut_number n
  | .string s => exact laidOut_quoted s
  | .array [] => exact (LaidOut.mark (c := '[') (by decide)).append (.mark (c := ']') (by decide))
  | .array (item :: items) =>
    have hitem := laidOut_chars style (depth + 1) (outer + 1) item
    have hitems := laidOut_moreItems style (depth + 1) (outer + 1) items
    simp only [chars]
    exact ((((laidOut_cons_lineBreak (by decide) style _ _).append hitem).append hitems).append
      (laidOut_lineBreak style _ _)).append (.mark (by decide))
  | .object [] => exact (LaidOut.mark (c := '{') (by decide)).append (.mark (c := '}') (by decide))
  | .object ((key, value) :: members) =>
    have hvalue := laidOut_chars style (depth + 1) (outer + 1) value
    have hmembers := laidOut_moreMembers style (depth + 1) (outer + 1) members
    simp only [chars]
    exact ((((((laidOut_cons_lineBreak (by decide) style _ _).append (laidOut_quoted key)).append
      (laidOut_colon style)).append hvalue).append hmembers).append (laidOut_lineBreak style _ _)).append
      (.mark (by decide))

theorem laidOut_moreItems (style : Style) (depth outer : Nat) (items : List Json) :
    LaidOut (moreItems style depth items) (moreItems .compact outer items) := by
  match items with
  | [] => exact .nil
  | item :: items =>
    have hitem := laidOut_chars style depth outer item
    have hitems := laidOut_moreItems style depth outer items
    simp only [moreItems]
    exact ((laidOut_cons_lineBreak (by decide) style _ _).append hitem).append hitems

theorem laidOut_moreMembers (style : Style) (depth outer : Nat) (members : List (String × Json)) :
    LaidOut (moreMembers style depth members) (moreMembers .compact outer members) := by
  match members with
  | [] => exact .nil
  | (key, value) :: members =>
    have hvalue := laidOut_chars style depth outer value
    have hmembers := laidOut_moreMembers style depth outer members
    simp only [moreMembers]
    exact ((((laidOut_cons_lineBreak (by decide) style _ _).append (laidOut_quoted key)).append
      (laidOut_colon style)).append hvalue).append hmembers

end

end ZonePlan.Json
