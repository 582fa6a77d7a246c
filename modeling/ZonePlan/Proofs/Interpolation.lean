/-
A text is a template in exactly one way, and everything that is done with its references goes by that template
(`interpolate_by_template`).

The grammar of a reference is said here without a reader (`IsName`, `Refers`), and a template reads a text if its names
have that grammar and no reference stands in the plain text between them (`Reads`). The reader of references takes exactly
what the grammar allows (`reference?_eq_some_iff`). That the template is the only one rests on the dollar sign: no name has
one, so a reference that begins in plain text cannot go on into the next reference (`written_prefix_of_append`).
-/
import ZonePlan.Proofs.Template

namespace ZonePlan.Template

/-! ## The grammar of references -/

/-- a character that opens a name, and characters that continue it -/
def IsWord (continues : Char → Bool) (cs : List Char) : Prop :=
  ∃ c rest, cs = c :: rest ∧ opensName c = true ∧ ∀ d ∈ rest, continues d = true

/-- what may stand within the braces: a word, or a word, a point and a word without hyphens -/
def IsName (cs : List Char) : Prop :=
  IsWord continuesName cs ∨
    ∃ space field, cs = space ++ '.' :: field ∧ IsWord continuesName space ∧ IsWord continuesField field

/-- a reference stands somewhere in a text -/
def Refers (cs : List Char) : Prop :=
  ∃ name : String, IsName name.toList ∧ written name <:+: cs

/-- the plain text in front of the references of a template, between them and behind them -/
def texts (t : Template) : List (List Char) := t.start :: t.rest.map Prod.snd

/-- a template has a text, has names in its references, and has no reference in its plain text -/
structure Reads (t : Template) (s : String) : Prop where
  text : t.fill written = s
  names : ∀ name ∈ t.names, IsName name.toList
  plain : ∀ text ∈ t.texts, ¬Refers text

/-! ## Names are read by their grammar -/

variable {continues : Char → Bool} {cs word rest : List Char} {name : String}

theorem isWord_of_name? (h : name? continues cs = some (word, rest)) : IsWord continues word := by
  cases cs with
  | nil => cases h
  | cons c cs =>
    simp only [name?] at h
    split_ifs at h with hopens
    cases h
    exact ⟨c, cs.takeWhile continues, rfl, hopens, fun d hd => List.mem_takeWhile_imp hd⟩

/-- a word is read up to a character that does not continue it -/
theorem name?_of_isWord (hword : IsWord continues word) (hrest : ∀ c ∈ rest.head?, continues c = false) :
    name? continues (word ++ rest) = some (word, rest) := by
  obtain ⟨c, cs, rfl, hopens, hcs⟩ := hword
  have hstop : rest.takeWhile continues = [] ∧ rest.dropWhile continues = rest := by
    cases rest with
    | nil => exact ⟨rfl, rfl⟩
    | cons d ds => simp [hrest d rfl]
  rw [List.cons_append, name?, if_pos hopens, List.takeWhile_append_of_pos hcs, List.dropWhile_append_of_pos hcs,
    hstop.1, hstop.2, List.append_nil]

theorem isName_of_inner? (h : inner? cs = some (name, rest)) : IsName name.toList := by
  unfold inner? at h
  split at h
  · next hspace =>
    split at h
    · next hfield =>
      rw [(closed?_eq_some h).1]
      exact Or.inr ⟨_, _, rfl, isWord_of_name? hspace, isWord_of_name? hfield⟩
    · cases h
  · next hword =>
    rw [(closed?_eq_some h).1]
    exact Or.inl (isWord_of_name? hword)
  · cases h

theorem inner?_of_isName (h : IsName name.toList) (rest : List Char) :
    inner? (name.toList ++ '}' :: rest) = some (name, rest) := by
  have hclosed : closed? name.toList ('}' :: rest) = some (name, rest) := by simp [closed?]
  have hbrace : ∀ c ∈ ('}' :: rest).head?, continuesName c = false ∧ continuesField c = false := by
    rintro c ⟨⟩
    decide
  rcases h with hword | ⟨space, field, hname, hspace, hfield⟩
  · rw [inner?, name?_of_isWord hword fun c hc => (hbrace c hc).1]
    exact hclosed
  · have hpoint : ∀ c ∈ ('.' :: (field ++ '}' :: rest)).head?, continuesName c = false := by
      rintro c ⟨⟩
      decide
    have hread := name?_of_isWord hspace hpoint
    rw [hname] at hclosed ⊢
    rw [List.append_assoc, List.cons_append, inner?, hread]
    simp only [name?_of_isWord hfield fun c hc => (hbrace c hc).2]
    exact hclosed

/-- **A reference is read exactly where the grammar has one** -/
theorem reference?_eq_some_iff : reference? cs = some (name, rest) ↔ IsName name.toList ∧ cs = written name ++ rest := by
  constructor
  · intro h
    refine ⟨?_, reference?_eq_some h⟩
    unfold reference? at h
    split at h
    · exact isName_of_inner? h
    · cases h
  · rintro ⟨hname, rfl⟩
    simpa [written, reference?] using inner?_of_isName hname rest

theorem reference?_eq_none (h : reference? cs = none) (hname : IsName name.toList) : ¬written name <+: cs := by
  rintro ⟨rest, rfl⟩
  rw [reference?_eq_some_iff.2 ⟨hname, rfl⟩] at h
  cases h

/-! ## References do not overlap -/

theorem continuesName_of_isWord (hcontinues : ∀ c, continues c = true → continuesName c = true)
    (h : IsWord continues word) : ∀ c ∈ word, continuesName c = true := by
  obtain ⟨c, cs, rfl, hopens, hcs⟩ := h
  refine List.forall_mem_cons.2 ⟨?_, fun d hd => hcontinues d (hcs d hd)⟩
  simp only [opensName, continuesName, Char.isAlphanum, Bool.or_eq_true] at hopens ⊢
  tauto

/-- the characters of a name are points and those that continue words -/
theorem continuesName_of_isName (h : IsName cs) : ∀ c ∈ cs, c = '.' ∨ continuesName c = true := by
  intro c hc
  rcases h with hword | ⟨space, field, rfl, hspace, hfield⟩
  · exact Or.inr (continuesName_of_isWord (fun _ => id) hword c hc)
  · rcases List.mem_append.1 hc with hc | hc
    · exact Or.inr (continuesName_of_isWord (fun _ => id) hspace c hc)
    · rcases List.mem_cons.1 hc with hc | hc
      · exact Or.inl hc
      · refine Or.inr (continuesName_of_isWord (fun d hd => ?_) hfield c hc)
        simp only [continuesField, continuesName, Bool.or_eq_true] at hd ⊢
        exact Or.inl hd

/-- within a reference, a character that does not continue words stands only for a mark -/
theorem not_mem_written_tail {c : Char} (hcontinues : continuesName c = false) (hmarks : c ∉ ['{', '.', '}'])
    (hname : IsName name.toList) : c ∉ (written name).tail := by
  simp only [List.mem_cons, List.not_mem_nil, or_false, not_or] at hmarks
  obtain ⟨hopen, hpoint, hclose⟩ := hmarks
  have hinner : c ∉ name.toList := by
    intro hmem
    rcases continuesName_of_isName hname c hmem with hc | hc
    · exact hpoint hc
    · rw [hcontinues] at hc
      cases hc
  simp [written, hopen, hclose, hinner]

/-- a reference that begins in a text ends in it, if the text is followed by nothing or by a character that the
reference cannot go on with -/
theorem written_prefix_of_append {text tail : List Char} (htext : text ≠ [])
    (htail : ∀ c ∈ tail.head?, c ∉ (written name).tail) (h : written name <+: text ++ tail) :
    written name <+: text := by
  rcases List.prefix_or_prefix_of_prefix h (List.prefix_append text tail) with hin | ⟨more, hmore⟩
  · exact hin
  rw [← hmore, List.prefix_append_right_inj] at h
  cases more with
  | nil =>
    rw [← hmore, List.append_nil]
  | cons c more =>
    obtain ⟨tail, rfl⟩ := h
    obtain ⟨d, text, rfl⟩ := List.exists_cons_of_ne_nil htext
    refine absurd ?_ (htail c rfl)
    rw [← hmore]
    simp

/-! ## The template of a text -/

theorem ofChars_of_reference (h : reference? cs = some (name, rest)) :
    ofChars cs = ⟨[], (name, (ofChars rest).start) :: (ofChars rest).rest⟩ := by
  rw [ofChars]
  split
  · next hfound =>
    rw [h] at hfound
    cases hfound
    rfl
  · next hfound =>
    rw [h] at hfound
    cases hfound

theorem ofChars_of_plain {c : Char} (h : reference? (c :: cs) = none) :
    ofChars (c :: cs) = ⟨c :: (ofChars cs).start, (ofChars cs).rest⟩ := by
  rw [ofChars]
  split
  · next hfound =>
    rw [h] at hfound
    cases hfound
  · rfl

theorem isName_of_mem_ofChars (cs : List Char) : ∀ name ∈ (ofChars cs).names, IsName name.toList := by
  fun_induction ofChars cs with
  | case1 cs name rest found t ih =>
    rw [names, List.map_cons, List.forall_mem_cons]
    exact ⟨(reference?_eq_some_iff.1 found).1, ih⟩
  | case2 => exact List.forall_mem_nil _
  | case3 c cs hnone t ih => exact ih

theorem not_refers_nil : ¬Refers [] := by
  rintro ⟨name, -, hin⟩
  simp [written] at hin

theorem not_refers_of_mem_ofChars (cs : List Char) : ∀ text ∈ (ofChars cs).texts, ¬Refers text := by
  fun_induction ofChars cs with
  | case1 cs name rest found t ih =>
    rw [texts, List.map_cons, List.forall_mem_cons]
    exact ⟨not_refers_nil, ih⟩
  | case2 =>
    intro text htext
    rw [List.mem_singleton.1 htext]
    exact not_refers_nil
  | case3 c cs hnone t ih =>
    obtain ⟨hstart, hrest⟩ := List.forall_mem_cons.1 ih
    rw [texts, List.forall_mem_cons]
    refine ⟨?_, hrest⟩
    rintro ⟨name, hname, hin⟩
    rcases List.infix_cons_iff.1 hin with hfront | hin
    · have htext : c :: t.start <+: c :: cs := by
        rw [List.prefix_cons_inj]
        conv_rhs => rw [← chars_ofChars cs]
        exact List.prefix_append _ _
      exact reference?_eq_none hnone hname (hfront.trans htext)
    · exact hstart ⟨name, hname, hin⟩

theorem reads_ofString (s : String) : (ofString s).Reads s where
  text := fill_written s
  names := isName_of_mem_ofChars s.toList
  plain := not_refers_of_mem_ofChars s.toList

/-- what follows the plain text in front of the references begins with a dollar sign -/
theorem head?_references (rest : List (String × List Char)) :
    ∀ c ∈ (rest.flatMap fun (name, text) => written name ++ text).head?, c = '$' := by
  cases rest with
  | nil => nofun
  | cons reference rest =>
    rintro c ⟨⟩
    rfl

/-- plain text in front of a reference belongs to the text in front of the first reference -/
theorem ofChars_append {start tail : List Char} (hstart : ¬Refers start) (htail : ∀ c ∈ tail.head?, c = '$') :
    ofChars (start ++ tail) = ⟨start ++ (ofChars tail).start, (ofChars tail).rest⟩ := by
  induction start with
  | nil => rfl
  | cons c start ih =>
    have hnone : reference? (c :: (start ++ tail)) = none := by
      rw [Option.eq_none_iff_forall_ne_some]
      rintro ⟨name, rest⟩ hfound
      obtain ⟨hname, htext⟩ := reference?_eq_some_iff.1 hfound
      have hfront : written name <+: c :: start ++ tail := ⟨rest, htext.symm⟩
      have hdollar : ∀ c ∈ tail.head?, c ∉ (written name).tail := by
        intro c hc
        rw [htail c hc]
        exact not_mem_written_tail (by decide) (by decide) hname
      exact hstart ⟨name, hname, (written_prefix_of_append (List.cons_ne_nil c start) hdollar hfront).isInfix⟩
    have hmore : ¬Refers start := by
      rintro ⟨name, hname, hin⟩
      exact hstart ⟨name, hname, List.infix_cons hin⟩
    rw [List.cons_append, ofChars_of_plain hnone, ih hmore]
    rfl

/-- a template is found in its own text -/
theorem ofChars_text {start : List Char} {rest : List (String × List Char)}
    (hnames : ∀ name ∈ rest.map Prod.fst, IsName name.toList) (hstart : ¬Refers start)
    (hrest : ∀ text ∈ rest.map Prod.snd, ¬Refers text) :
    ofChars (start ++ rest.flatMap fun (name, text) => written name ++ text) = ⟨start, rest⟩ := by
  rw [ofChars_append hstart (head?_references rest)]
  induction rest generalizing start with
  | nil =>
    rw [List.flatMap_nil, ofChars]
    simp [reference?]
  | cons reference rest ih =>
    obtain ⟨name, text⟩ := reference
    rw [List.map_cons, List.forall_mem_cons] at hnames hrest
    have hfound : reference? (written name ++ (text ++ rest.flatMap fun (name, text) => written name ++ text)) =
        some (name, text ++ rest.flatMap fun (name, text) => written name ++ text) :=
      reference?_eq_some_iff.2 ⟨hnames.1, rfl⟩
    have htext := ih hnames.2 hrest.1 hrest.2
    rw [List.flatMap_cons, List.append_assoc, ofChars_of_reference hfound, ofChars_append hrest.1 (head?_references rest),
      htext, List.append_nil]

theorem Reads.eq_ofString {t : Template} {s : String} (h : t.Reads s) : t = ofString s := by
  obtain ⟨hstart, hrest⟩ := List.forall_mem_cons.1 h.plain
  have htext : (t.start ++ t.rest.flatMap fun (name, text) => written name ++ text) = s.toList := by
    rw [← h.text, fill, String.toList_ofList]
  rw [ofString, ← htext, ofChars_text h.names hstart hrest]

/-! ## Expansion -/

/-- **A text is read by exactly one template, and its references are expanded by that template.** Each reference gives
way to the value of its name, as it stands, or stays as it is written where there is none; the undefined names are those
of the references without a value, in order and as often as they occur; and an expansion that insists on values fails with
the first of them or is the other one. -/
theorem interpolate_by_template (s : String) :
    (∃! t : Template, t.Reads s) ∧ ∀ t : Template, t.Reads s → ∀ v : Variables,
      let value (name : String) : List Char :=
        match v.get? name with
        | some value => value.toList
        | none => written name
      let undefinedNames := t.names.filter fun name => (v.get? name).isNone
      v.interpolate s = String.ofList (t.start ++ t.rest.flatMap fun (name, text) => value name ++ text) ∧
      v.undefinedIn s = undefinedNames ∧
      (∀ name, v.interpolate? s = .error name ↔ undefinedNames.head? = some name) ∧
      ∀ text, v.interpolate? s = .ok text ↔ undefinedNames = [] ∧ v.interpolate s = text := by
  refine ⟨⟨ofString s, reads_ofString s, fun t ht => ht.eq_ofString⟩, ?_⟩
  intro t ht v value undefinedNames
  obtain rfl := ht.eq_ofString
  have hundefined : v.undefinedIn s = undefinedNames := rfl
  refine ⟨rfl, rfl, ?_, ?_⟩
  · intro name
    rw [Variables.interpolate?, hundefined]
    cases undefinedNames with
    | nil => simp
    | cons first more => simp
  · intro text
    rw [Variables.interpolate?, hundefined]
    cases undefinedNames with
    | nil => simp
    | cons first more => simp

/-- a value that looks like a reference, a name that is none, a reference without a value, and one that is not closed -/
theorem interpolate_by_template_nested :
    let s := r"$${a}${a-b.c-d}${x.y}${${a}${b"
    let t : Template := {
      start := "$".toList
      rest := [("a", r"${a-b.c-d}".toList), ("x.y", r"${".toList), ("a", r"${b".toList)] }
    let v : Variables := { custom := .ofList [("a", r"${b}"), ("b", "?")] }
    t.Reads s ∧ v.interpolate s = r"$${b}${a-b.c-d}${x.y}${${b}${b" ∧
      v.undefinedIn s = ["x.y"] ∧ v.interpolate? s = .error "x.y" := by
  intro s t v
  have ht : ofString s = t := by decide +kernel
  have hreads : t.Reads s := ht ▸ reads_ofString s
  obtain ⟨hinterpolate, hundefined, herror, -⟩ := (interpolate_by_template s).2 t hreads v
  refine ⟨hreads, ?_, ?_, ?_⟩
  · rw [hinterpolate]
    decide +kernel
  · rw [hundefined]
    decide +kernel
  · rw [herror]
    decide +kernel

end ZonePlan.Template
