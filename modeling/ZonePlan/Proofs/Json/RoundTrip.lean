/-
Forms of values are read back from what they write, in both styles, at any depth, whatever blanks stand in front of a
value and whatever can follow it (`Codec.Lawful`). Every way to build a form keeps this:

- `text_lawful`, `word8_lawful`, `word16_lawful`, `word32_lawful`: the plain forms;
- `list_lawful`, `map_lawful`, `orNull_lawful`: lists, maps and values that may be missing.

What an object is read into depends on who reads it, so its members are followed through the states of the reader
(`TakesAll`, `read_members`). Items, and values that may be missing, are told from what may stand in their place by
their first character (`Codec.Lawful.exists_cons`): an item does not close its array, and a form that may be missing
must write no `null` itself (`Codec.Solid`).
-/
import ZonePlan.Json.Codec
import ZonePlan.Proofs.Json.Literals

namespace ZonePlan.Json

/-! ## Blanks and first characters -/

/-- nothing but white space between tokens -/
def Blank (ws : List Char) : Prop := ∀ c ∈ ws, isSpace c = true

theorem Blank.nil : Blank [] := by
  simp [Blank]

theorem skipSpace_cons {c : Char} (h : isSpace c = false) (cs : List Char) : skipSpace (c :: cs) = c :: cs := by
  simp [skipSpace, h]

theorem skipSpace_blank {ws : List Char} (hws : Blank ws) {c : Char} (hc : isSpace c = false) (cs : List Char) :
    skipSpace (ws ++ c :: cs) = c :: cs := by
  rw [skipSpace, List.dropWhile_append_of_pos hws]
  exact skipSpace_cons hc cs

theorem blank_lineBreak (style : Style) (depth : Nat) : Blank (style.lineBreak depth) := by
  intro c hc
  cases style with
  | compact => cases hc
  | pretty =>
    rcases List.mem_cons.1 hc with rfl | hc
    · rfl
    · rw [List.eq_of_mem_replicate hc]; rfl

/-- a colon is followed by blanks only -/
theorem colon_eq_cons (style : Style) : ∃ ws, style.colon = ':' :: ws ∧ Blank ws := by
  cases style with
  | compact => exact ⟨[], rfl, Blank.nil⟩
  | pretty => exact ⟨[' '], rfl, by simp [Blank, isSpace]⟩

/-- a value begins with a character that is no blank and closes no array; only `null` begins with `n` -/
theorem chars_eq_cons (style : Style) (depth : Nat) (v : Json) :
    ∃ c cs, v.chars style depth = c :: cs ∧ isSpace c = false ∧ c ≠ ']' ∧ (c = 'n' → v = .null) := by
  cases v with
  | null => exact ⟨'n', _, chars.eq_1 _ _, rfl, by decide, fun _ => rfl⟩
  | number n =>
    obtain ⟨c, cs, hcs, hc⟩ := toDigits_eq_cons n
    refine ⟨c, cs, by rw [chars, hcs], ?_, ?_, ?_⟩
    · by_contra hs
      simp only [isSpace, Bool.not_eq_false, Bool.or_eq_true, beq_iff_eq] at hs
      rcases hs with ((rfl | rfl) | rfl) | rfl <;> exact absurd hc (by decide)
    · rintro rfl; exact absurd hc (by decide)
    · rintro rfl; exact absurd hc (by decide)
  | string s => exact ⟨'"', _, by rw [chars, quoted]; rfl, rfl, by decide, fun h => absurd h (by decide)⟩
  | array items =>
    refine ⟨'[', ((array items).chars style depth).tail, ?_, rfl, by decide, fun h => absurd h (by decide)⟩
    cases items <;> simp [chars]
  | object members =>
    refine ⟨'{', ((object members).chars style depth).tail, ?_, rfl, by decide, fun h => absurd h (by decide)⟩
    cases members <;> simp [chars]

/-- the end of a container closes the value in front of it -/
theorem closed_end (style : Style) (depth : Nat) {c : Char} (hc : c = ']' ∨ c = '}') (rest : List Char) :
    Closed (style.lineBreak depth ++ c :: rest) := by
  cases style with
  | compact => rintro d ⟨⟩; tauto
  | pretty => rintro d ⟨⟩; tauto

theorem closed_comma (cs : List Char) : Closed (',' :: cs) := by
  rintro d ⟨⟩; exact Or.inl rfl

/-! ## Lawful forms -/

/-- what a form writes is read back, at any place in a text -/
structure Codec.Lawful {α : Type} (c : Codec α) : Prop where
  read_chars : ∀ (style : Style) (depth : Nat) (x : α) (ws rest : List Char), Blank ws → Closed rest →
    c.read (ws ++ ((c.json x).chars style depth ++ rest)) = .ok (x, rest)

/-- a form that never writes `null` -/
def Codec.Solid {α : Type} (c : Codec α) : Prop := ∀ x, c.json x ≠ .null

/-- behind blanks, a written value shows by its first character that it closes no array and whether it is `null`, and
from there it is read back -/
theorem Codec.Lawful.exists_cons {α : Type} {c : Codec α} (hc : c.Lawful) (style : Style) (depth : Nat) (x : α)
    {ws rest : List Char} (hws : Blank ws) (h : Closed rest) :
    ∃ d ds, skipSpace (ws ++ ((c.json x).chars style depth ++ rest)) = d :: ds ∧ d ≠ ']' ∧
      (d = 'n' → c.json x = .null) ∧ c.read (d :: ds) = .ok (x, rest) := by
  obtain ⟨d, ds, hds, hspace, hclose, hnull⟩ := chars_eq_cons style depth (c.json x)
  have hread := hc.read_chars style depth x [] rest Blank.nil h
  rw [List.nil_append, hds, List.cons_append] at hread
  refine ⟨d, ds ++ rest, ?_, hclose, hnull, hread⟩
  rw [hds, List.cons_append, skipSpace_blank hws hspace]

theorem text_lawful : Codec.text.Lawful := by
  refine ⟨fun style depth s ws rest hws _ => ?_⟩
  have hchars : (Codec.text.json s).chars style depth = '"' :: (quoted s).tail := by
    simp [Codec.text, chars, quoted]
  simp only [Codec.text, Reader.string] at hchars ⊢
  rw [hchars, List.cons_append, skipSpace_blank hws rfl]
  exact read_quoted true s rest

theorem text_solid : Codec.text.Solid := by
  intro s h; cases h

theorem read_natural {n limit : Nat} (hn : n ≤ limit) (hlimit : limit ≤ Numeral.greatest) (wanted : String)
    (style : Style) (depth : Nat) {ws rest : List Char} (hws : Blank ws) (h : Closed rest) :
    Reader.natural limit wanted (ws ++ ((Json.number n).chars style depth ++ rest)) = .ok (n, rest) := by
  obtain ⟨c, cs, hcs, hspace, -, -⟩ := chars_eq_cons style depth (.number n)
  obtain ⟨d, ds, hds, hdigit⟩ := toDigits_eq_cons n
  rw [chars] at hcs ⊢
  obtain ⟨rfl, -⟩ := List.cons.inj (hcs.symm.trans hds)
  have hread := read_toDigits (hn.trans hlimit) h
  rw [hcs, List.cons_append] at hread ⊢
  rw [Reader.natural, skipSpace_blank hws hspace, hread]
  simp [Reader.startsNumeral, hdigit, hn]

theorem word8_lawful : Codec.word8.Lawful := by
  refine ⟨fun style depth x ws rest hws h => ?_⟩
  have hx : x.toNat ≤ 0xFF := Nat.le_of_lt_succ x.toNat_lt
  simp [Codec.word8, read_natural hx (by decide) "u8" style depth hws h, Except.map]

theorem word16_lawful : Codec.word16.Lawful := by
  refine ⟨fun style depth x ws rest hws h => ?_⟩
  have hx : x.toNat ≤ 0xFFFF := Nat.le_of_lt_succ x.toNat_lt
  simp [Codec.word16, read_natural hx (by decide) "u16" style depth hws h, Except.map]

theorem word32_lawful : Codec.word32.Lawful := by
  refine ⟨fun style depth x ws rest hws h => ?_⟩
  have hx : x.toNat ≤ 0xFFFFFFFF := Nat.le_of_lt_succ x.toNat_lt
  simp [Codec.word32, read_natural hx (by decide) "u32" style depth hws h, Except.map]

theorem word8_solid : Codec.word8.Solid := by
  intro x h; cases h

theorem word16_solid : Codec.word16.Solid := by
  intro x h; cases h

theorem word32_solid : Codec.word32.Solid := by
  intro x h; cases h

variable {α β σ : Type}

theorem read_optional_some {c : Codec α} (hc : c.Lawful) (hsolid : c.Solid) (style : Style) (depth : Nat) (x : α)
    {ws rest : List Char} (hws : Blank ws) (h : Closed rest) :
    Reader.optional c.read (ws ++ ((c.json x).chars style depth ++ rest)) = .ok (some x, rest) := by
  obtain ⟨d, ds, hskip, -, hnull, hread⟩ := hc.exists_cons style depth x hws h
  rw [Reader.optional, hskip]
  split
  · next heq =>
    obtain ⟨rfl, -⟩ := List.cons.inj heq
    exact absurd (hnull rfl) (hsolid x)
  · rw [hread]; rfl

theorem orNull_lawful {c : Codec α} (hc : c.Lawful) (hsolid : c.Solid) : c.orNull.Lawful := by
  refine ⟨fun style depth x ws rest hws h => ?_⟩
  cases x with
  | some x => exact read_optional_some hc hsolid style depth x hws h
  | none =>
    simp only [Codec.orNull, Reader.optional, chars]
    rw [List.cons_append, skipSpace_blank hws rfl]
    rfl

/-! ## Lists -/

theorem length_moreItems (style : Style) (depth : Nat) (items : List Json) :
    items.length ≤ (moreItems style depth items).length := by
  induction items with
  | nil => exact Nat.zero_le _
  | cons item items ih =>
    simp only [moreItems, List.cons_append, List.length_cons, List.length_append]
    omega

/-- the end of an array closes its last item -/
theorem closed_moreItems (style : Style) (depth outer : Nat) (items : List Json) (rest : List Char) :
    Closed (moreItems style depth items ++ (style.lineBreak outer ++ ']' :: rest)) := by
  cases items with
  | nil => exact closed_end style outer (Or.inl rfl) rest
  | cons item items => exact closed_comma _

/-- items are read one after another; each takes its comma, so the text bounds their number -/
theorem read_moreItems {c : Codec α} (hc : c.Lawful) (style : Style) (depth outer : Nat) (xs done : List α)
    (fuel : Nat) (hfuel : xs.length < fuel) (rest : List Char) :
    Reader.moreItems c.read fuel done
      (moreItems style depth (xs.map c.json) ++ (style.lineBreak outer ++ ']' :: rest)) =
        .ok (done.reverse ++ xs, rest) := by
  induction xs generalizing done fuel with
  | nil =>
    obtain ⟨fuel, rfl⟩ := Nat.exists_eq_succ_of_ne_zero (Nat.ne_of_gt hfuel)
    rw [List.map_nil, moreItems, List.nil_append, Reader.moreItems, skipSpace_blank (blank_lineBreak _ _) rfl]
    simp
  | cons x xs ih =>
    obtain ⟨fuel, rfl⟩ := Nat.exists_eq_succ_of_ne_zero (Nat.ne_of_gt (Nat.zero_lt_of_lt hfuel))
    obtain ⟨d, ds, hskip, hclose, -, hread⟩ := hc.exists_cons style depth x (blank_lineBreak style depth)
      (closed_moreItems style depth outer (xs.map c.json) rest)
    simp only [List.map_cons, moreItems, Reader.moreItems, List.cons_append, List.append_assoc]
    rw [skipSpace_cons rfl]
    simp only [hskip]
    split
    · next heq => cases heq
    · next heq => exact absurd (List.cons.inj heq).1 hclose
    · rw [hread]
      simp only [ih (x :: done) fuel (Nat.lt_of_succ_lt_succ hfuel), List.reverse_cons, List.append_assoc,
        List.singleton_append]

theorem list_lawful {c : Codec α} (hc : c.Lawful) : c.list.Lawful := by
  refine ⟨fun style depth xs ws rest hws _ => ?_⟩
  cases xs with
  | nil =>
    simp only [Codec.list, List.map_nil, chars, Reader.list]
    rw [List.cons_append, skipSpace_blank hws rfl]
    rfl
  | cons x xs =>
    obtain ⟨d, ds, hskip, hclose, -, hread⟩ := hc.exists_cons style (depth + 1) x (blank_lineBreak style (depth + 1))
      (closed_moreItems style (depth + 1) depth (xs.map c.json) rest)
    simp only [Codec.list, List.map_cons, chars, Reader.list, List.cons_append, List.append_assoc, List.nil_append]
    rw [skipSpace_blank hws rfl]
    simp only [hskip]
    split
    · next heq => cases heq
    · next heq => exact absurd (List.cons.inj heq).1 hclose
    · have hlength := length_moreItems style (depth + 1) (xs.map c.json)
      rw [List.length_map] at hlength
      rw [hread]
      simp only
      rw [read_moreItems hc style (depth + 1) depth xs [x] _ ?_ rest]
      · rfl
      · simp only [List.length_append]
        omega

/-! ## Members of objects -/

/-- in state `s` a member is read, which leads to state `t` -/
def Takes (entry : Reader.Entry σ) (s : σ) (m : String × Json) (t : σ) : Prop :=
  ∃ read, entry s m.1 = .ok read ∧ ∀ (style : Style) (depth : Nat) (ws rest : List Char), Blank ws → Closed rest →
    read (ws ++ (m.2.chars style depth ++ rest)) = .ok (t, rest)

/-- members are read one after another -/
inductive TakesAll (entry : Reader.Entry σ) : σ → List (String × Json) → σ → Prop
  | nil (s : σ) : TakesAll entry s [] s
  | cons {s t u : σ} {m : String × Json} {ms : List (String × Json)} (first : Takes entry s m t)
      (more : TakesAll entry t ms u) : TakesAll entry s (m :: ms) u

theorem quoted_eq_cons (s : String) : quoted s = '"' :: (quoted s).tail := rfl

theorem read_member {entry : Reader.Entry σ} {s t : σ} {m : String × Json} (h : Takes entry s m t) (style : Style)
    (depth : Nat) {rest : List Char} (hrest : Closed rest) :
    Reader.member entry s ((quoted m.1).tail ++ (style.colon ++ (m.2.chars style depth ++ rest))) = .ok (t, rest) := by
  obtain ⟨read, hentry, hread⟩ := h
  obtain ⟨ws, hws, hblank⟩ := colon_eq_cons style
  rw [Reader.member, read_quoted]
  simp only [hentry]
  rw [hws, List.cons_append, afterColon, skipSpace_cons rfl]
  exact hread style depth ws rest hblank hrest

theorem length_moreMembers (style : Style) (depth : Nat) (ms : List (String × Json)) :
    ms.length ≤ (moreMembers style depth ms).length := by
  induction ms with
  | nil => exact Nat.zero_le _
  | cons m ms ih =>
    simp only [moreMembers, List.cons_append, List.length_cons, List.length_append]
    omega

/-- the end of an object closes its last member -/
theorem closed_moreMembers (style : Style) (depth outer : Nat) (ms : List (String × Json)) (rest : List Char) :
    Closed (moreMembers style depth ms ++ (style.lineBreak outer ++ '}' :: rest)) := by
  cases ms with
  | nil => exact closed_end style outer (Or.inr rfl) rest
  | cons m ms => exact closed_comma _

theorem read_moreMembers {entry : Reader.Entry σ} {s t : σ} {ms : List (String × Json)} (h : TakesAll entry s ms t)
    (style : Style) (depth outer : Nat) (fuel : Nat) (hfuel : ms.length < fuel) (rest : List Char) :
    Reader.moreMembers entry fuel s (moreMembers style depth ms ++ (style.lineBreak outer ++ '}' :: rest)) =
      .ok (t, rest) := by
  induction h generalizing fuel with
  | nil s =>
    obtain ⟨fuel, rfl⟩ := Nat.exists_eq_succ_of_ne_zero (Nat.ne_of_gt hfuel)
    rw [moreMembers, List.nil_append, Reader.moreMembers, skipSpace_blank (blank_lineBreak _ _) rfl]
    rfl
  | @cons s t u m ms first more ih =>
    obtain ⟨fuel, rfl⟩ := Nat.exists_eq_succ_of_ne_zero (Nat.ne_of_gt (Nat.zero_lt_of_lt hfuel))
    have hread := read_member first style depth (closed_moreMembers style depth outer ms rest)
    simp only [moreMembers, Reader.moreMembers, List.cons_append, List.append_assoc]
    rw [skipSpace_cons rfl]
    simp only
    rw [quoted_eq_cons, List.cons_append, skipSpace_blank (blank_lineBreak _ _) rfl]
    simp only [hread]
    exact ih fuel (Nat.lt_of_succ_lt_succ hfuel)

/-- **The members of a written object are read one after another**, from behind its opening brace -/
theorem read_members {entry : Reader.Entry σ} {s t : σ} {ms : List (String × Json)} (h : TakesAll entry s ms t)
    (style : Style) (depth : Nat) (rest : List Char) :
    Reader.members entry s (((object ms).chars style depth).tail ++ rest) = .ok (t, rest) := by
  cases h with
  | nil s => rfl
  | @cons _ t' _ m ms first more =>
    have hread := read_member first style (depth + 1) (closed_moreMembers style (depth + 1) depth ms rest)
    have hlength := length_moreMembers style (depth + 1) ms
    simp only [chars, Reader.members, List.cons_append, List.append_assoc, List.nil_append, List.tail_cons]
    rw [quoted_eq_cons, List.cons_append, skipSpace_blank (blank_lineBreak _ _) rfl]
    simp only [hread]
    refine read_moreMembers more style (depth + 1) depth _ ?_ rest
    simp only [List.length_append]
    omega

theorem object_eq_cons (style : Style) (depth : Nat) (ms : List (String × Json)) :
    (object ms).chars style depth = '{' :: ((object ms).chars style depth).tail := by
  cases ms <;> simp [chars]

/-! ## Maps -/

/-- ascending entries are put behind each other -/
theorem takesAll_entries {c : Codec α} (hc : c.Lawful) (es : List (String × α)) (m : SortedMap α)
    (h : (m.entries ++ es).Pairwise fun a b => a.1 < b.1) :
    TakesAll (fun (m : SortedMap α) key => .ok fun cs => (c.read cs).map fun (x, rest) => (m.insert key x, rest)) m
      (es.map fun (key, x) => (key, c.json x)) ⟨m.entries ++ es, h⟩ := by
  induction es generalizing m with
  | nil =>
    have hm : (⟨m.entries ++ [], h⟩ : SortedMap α) = m := SortedMap.ext (List.append_nil _)
    rw [hm]
    exact .nil m
  | cons e es ih =>
    have hlt : ∀ f ∈ m.entries, f.1 < e.1 := fun f hf => (List.pairwise_append.1 h).2.2 f hf e List.mem_cons_self
    have hinsert : (m.insert e.1 e.2).entries = m.entries ++ [e] := SortedMap.insertEntry_of_lt hlt
    have h' : ((m.insert e.1 e.2).entries ++ es).Pairwise fun a b => a.1 < b.1 := by
      rw [hinsert, List.append_assoc]
      exact h
    have hall : (⟨m.entries ++ e :: es, h⟩ : SortedMap α) = ⟨(m.insert e.1 e.2).entries ++ es, h'⟩ :=
      SortedMap.ext (by simp [hinsert])
    rw [hall, List.map_cons]
    refine .cons ⟨_, rfl, fun style depth ws rest hws hrest => ?_⟩ (ih _ h')
    simp only [hc.read_chars style depth e.2 ws rest hws hrest, Except.map]

theorem map_lawful {c : Codec α} (hc : c.Lawful) : c.map.Lawful := by
  refine ⟨fun style depth m ws rest hws _ => ?_⟩
  have hall := takesAll_entries hc m.entries .empty m.ascending
  simp only [Codec.map, Reader.map]
  rw [object_eq_cons, List.cons_append, skipSpace_blank hws rfl]
  exact read_members hall style depth rest

end ZonePlan.Json
