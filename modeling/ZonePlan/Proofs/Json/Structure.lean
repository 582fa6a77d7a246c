/-
The form of a structure is read back from what it writes (`codec_lawful`), if

- no two fields have the same key,
- the required fields are always written, and
- each field that is written brings its part of the structure back, and each field that is left out has the blank
  value already (`Restores`).

The three ways to make a field (`Codec.field`, `Codec.fieldIfSet`, `Codec.fieldIfFull`) restore it whenever the form
of the field is lawful.
-/
import ZonePlan.Proofs.Json.RoundTrip

namespace ZonePlan.Json

variable {α β : Type}

/-! ## Fields -/

/-- reading the fields of `x` that are written, one after another, makes `s` into `x` -/
inductive Restores (x : α) : α → List (Field α) → Prop
  | done : Restores x x []
  | written {s t : α} {f : Field α} {fs : List (Field α)} (v : Json) (hjson : f.json x = some v)
      (hread : ∀ (style : Style) (depth : Nat) (ws rest : List Char), Blank ws → Closed rest →
        f.read s (ws ++ (v.chars style depth ++ rest)) = .ok (t, rest))
      (more : Restores x t fs) : Restores x s (f :: fs)
  | omitted {s : α} {f : Field α} {fs : List (Field α)} (hjson : f.json x = none) (more : Restores x s fs) :
      Restores x s (f :: fs)

theorem Restores.field {c : Codec β} (hc : c.Lawful) {key : String} {get : α → β} {set : β → α → α} {x s : α}
    {fs : List (Field α)} (more : Restores x (set (get x) s) fs) : Restores x s (c.field key get set :: fs) := by
  refine .written (c.json (get x)) rfl (fun style depth ws rest hws h => ?_) more
  simp only [Codec.field, hc.read_chars style depth (get x) ws rest hws h, Except.map]

theorem Restores.fieldIfSet {c : Codec β} (hc : c.Lawful) (hsolid : c.Solid) {key : String} {get : α → Option β}
    {set : Option β → α → α} {x s : α} {fs : List (Field α)} (hblank : set none s = s)
    (more : Restores x (set (get x) s) fs) : Restores x s (c.fieldIfSet key get set :: fs) := by
  cases hget : get x with
  | none =>
    rw [hget, hblank] at more
    exact .omitted (by simp [Codec.fieldIfSet, hget]) more
  | some y =>
    refine .written (c.json y) (by simp [Codec.fieldIfSet, hget]) (fun style depth ws rest hws h => ?_) more
    simp only [Codec.fieldIfSet, read_optional_some hc hsolid style depth y hws h, Except.map, hget]

theorem Restores.fieldIfFull {c : Codec β} (hc : c.Lawful) {key : String} {get : α → SortedMap β}
    {set : SortedMap β → α → α} {x s : α} {fs : List (Field α)} (hblank : set .empty s = s)
    (more : Restores x (set (get x) s) fs) : Restores x s (c.fieldIfFull key get set :: fs) := by
  by_cases hempty : (get x).isEmpty = true
  · have hget : get x = .empty := SortedMap.ext (List.isEmpty_iff.1 hempty)
    rw [hget, hblank] at more
    exact .omitted (by simp [Codec.fieldIfFull, hempty]) more
  · have hjson : (c.fieldIfFull key get set).json x = some (c.map.json (get x)) := by simp [Codec.fieldIfFull, hempty]
    refine .written (c.map.json (get x)) hjson (fun style depth ws rest hws h => ?_) more
    simp only [Codec.fieldIfFull, (map_lawful hc).read_chars style depth (get x) ws rest hws h, Except.map]

/-! ## Structures -/

/-- the members that a list of fields writes -/
def Field.members (fs : List (Field α)) (x : α) : List (String × Json) :=
  fs.filterMap fun f => (f.json x).map fun value => (f.key, value)

namespace Shape

/-- a shape from which every structure can be read back -/
structure Lawful (shape : Shape α) : Prop where
  distinct : (shape.fields.map Field.key).Nodup
  required : ∀ x, ∀ f ∈ shape.fields.take shape.required, (f.json x).isSome = true
  restores : ∀ x, Restores x shape.blank shape.fields

theorem Lawful.find?_field {shape : Shape α} (h : shape.Lawful) {f : Field α} (hf : f ∈ shape.fields) :
    shape.fields.find? (fun g => g.key == f.key) = some f := by
  cases hfind : shape.fields.find? (fun g => g.key == f.key) with
  | none => exact absurd (beq_self_eq_true f.key) (by simpa using List.find?_eq_none.1 hfind f hf)
  | some g =>
    have hkey : g.key = f.key := by simpa using List.find?_some hfind
    rw [List.inj_on_of_nodup_map h.distinct (List.mem_of_find?_eq_some hfind) hf hkey]

/-- fields whose keys have not been seen are read one after another -/
theorem Lawful.takesAll {shape : Shape α} (h : shape.Lawful) {x s : α} {fs : List (Field α)} (hfs : Restores x s fs)
    (hsub : ∀ f ∈ fs, f ∈ shape.fields) (hdistinct : (fs.map Field.key).Nodup) (seen : List String)
    (hseen : ∀ f ∈ fs, f.key ∉ seen) :
    TakesAll shape.entry (s, seen) (Field.members fs x)
      (x, ((Field.members fs x).map Prod.fst).reverse ++ seen) := by
  induction hfs generalizing seen with
  | done => exact .nil _
  | @written s t f fs v hjson hread more ih =>
    have hmembers : Field.members (f :: fs) x = (f.key, v) :: Field.members fs x := by
      simp [Field.members, hjson]
    have hnot : f.key ∉ seen := hseen f List.mem_cons_self
    have hentry : shape.entry (s, seen) f.key =
        .ok fun cs => (f.read s cs).map fun done => ((done.1, f.key :: seen), done.2) := by
      simp [Shape.entry, hnot, h.find?_field (hsub f List.mem_cons_self)]
    rw [List.map_cons, List.nodup_cons] at hdistinct
    have hrest := ih (fun g hg => hsub g (List.mem_cons_of_mem f hg)) hdistinct.2 (f.key :: seen) fun g hg => by
      rw [List.mem_cons, not_or]
      exact ⟨fun hkey => hdistinct.1 (hkey ▸ List.mem_map_of_mem hg), hseen g (List.mem_cons_of_mem f hg)⟩
    rw [hmembers, List.map_cons, List.reverse_cons, List.append_assoc, List.singleton_append]
    refine .cons ⟨_, hentry, fun style depth ws rest hws hrest => ?_⟩ hrest
    simp only [hread style depth ws rest hws hrest, Except.map]
  | @omitted s f fs hjson more ih =>
    have hmembers : Field.members (f :: fs) x = Field.members fs x := by
      simp [Field.members, hjson]
    rw [hmembers]
    rw [List.map_cons, List.nodup_cons] at hdistinct
    exact ih (fun g hg => hsub g (List.mem_cons_of_mem f hg)) hdistinct.2 seen
      fun g hg => hseen g (List.mem_cons_of_mem f hg)

/-- what was written has every required key -/
theorem Lawful.missing?_eq_none {shape : Shape α} (h : shape.Lawful) (x : α) :
    shape.missing? (((Field.members shape.fields x).map Prod.fst).reverse ++ []) = none := by
  simp only [Shape.missing?, List.append_nil, List.find?_eq_none]
  intro key hkey
  obtain ⟨f, hf, rfl⟩ := List.mem_map.1 hkey
  obtain ⟨v, hv⟩ := Option.isSome_iff_exists.1 (h.required x f hf)
  have hmem : (f.key, v) ∈ Field.members shape.fields x :=
    List.mem_filterMap.2 ⟨f, List.mem_of_mem_take hf, by simp [hv]⟩
  simpa using ⟨v, hmem⟩

/-- **A structure is read back from what it writes** -/
theorem Lawful.codec_lawful {shape : Shape α} (h : shape.Lawful) : shape.codec.Lawful := by
  refine ⟨fun style depth x ws rest hws _ => ?_⟩
  have hall := h.takesAll (h.restores x) (fun _ hf => hf) h.distinct [] fun _ _ => List.not_mem_nil
  have hread := read_members hall style depth rest
  have hjson : shape.json x = .object (Field.members shape.fields x) := rfl
  simp only [Shape.codec, Shape.read, hjson]
  rw [object_eq_cons, List.cons_append, skipSpace_blank hws rfl]
  simp only [Shape.readObject, hread, h.missing?_eq_none x]

end Shape

end ZonePlan.Json
