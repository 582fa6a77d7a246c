/-
What the metadata of a record is made of: for each name but `ttl`, the last text among the properties of that name
(`record_metadata`).

A property counts with its last value everywhere else: so the time to live is read, and the kind of a declaration
(`textProperty`). Metadata is collected from all properties that are texts. The two readings agree on a name unless its
last value is no text and hides a text in front of it (`HidesText`), and there they do differ (`hidden_text_stays`).
-/
import ZonePlan.Proofs.Evaluation.Success
import ZonePlan.Proofs.SortedMap

namespace ZonePlan

/-- of lists of pairs that have the same keys place by place, the values that a key is looked up to go together -/
theorem rel_lookup {α β : Type} {R : α → β → Prop} {ps : List (String × α)} {qs : List (String × β)}
    (h : List.Forall₂ (fun p q => q.1 = p.1 ∧ R p.2 q.2) ps qs) (key : String) :
    Option.Rel R (ps.lookup key) (qs.lookup key) := by
  induction h with
  | nil => exact .none
  | @cons p q ps qs hpq _ ih =>
    obtain ⟨hkey, hvalue⟩ := hpq
    rw [SortedMap.lookup_cons, SortedMap.lookup_cons, hkey]
    split_ifs
    · exact .some hvalue
    · exact ih

namespace Setting

open Kdl (Node Value Entry)
open Evaluation

/-! ## The texts of a name -/

/-- the text of an entry that is a property of a name -/
def textOf? (name : String) (e : Entry) : Option String :=
  if e.name? = some name then e.value.string? else none

/-- the last text among the properties of a name -/
def lastText? (node : Node) (name : String) : Option String := node.entries.reverse.findSome? (textOf? name)

/-- a name whose last property is no text though one in front of it is -/
structure HidesText (node : Node) (name : String) : Prop where
  last : textProperty node name = none
  text : ∃ s, ⟨some name, .string s⟩ ∈ node.entries

theorem textOf?_eq_some {name s : String} {e : Entry} : textOf? name e = some s ↔ e = ⟨some name, .string s⟩ := by
  obtain ⟨given, value⟩ := e
  simp [textOf?, Kdl.Value.string?_eq_some]

theorem lastText?_eq_none {node : Node} {name : String} :
    lastText? node name = none ↔ ∀ s, ⟨some name, .string s⟩ ∉ node.entries := by
  rw [lastText?, List.findSome?_eq_none_iff]
  constructor
  · intro h s hs
    have hnone := h _ (List.mem_reverse.2 hs)
    rw [textOf?_eq_some.2 rfl] at hnone
    cases hnone
  · intro h e he
    rw [Option.eq_none_iff_forall_ne_some]
    intro s hs
    rw [textOf?_eq_some] at hs
    subst hs
    exact h s (List.mem_reverse.1 he)

/-- a text that is the last property of its name is the last text of the name -/
theorem lastText?_of_textProperty {node : Node} {name s : String} (h : textProperty node name = some s) :
    lastText? node name = some s := by
  rw [textProperty, Node.property?] at h
  rw [lastText?]
  generalize node.entries.reverse = es at h ⊢
  induction es with
  | nil => cases h
  | cons e es ih =>
    rw [List.find?_cons] at h
    rw [List.findSome?_cons, textOf?]
    by_cases hname : e.name? = some name
    · rw [beq_iff_eq.2 hname] at h
      have hs : e.value.string? = some s := h
      rw [if_pos hname, hs]
    · rw [beq_eq_false_iff_ne.2 hname] at h
      rw [if_neg hname]
      exact ih h

theorem lastText?_eq_textProperty_iff {node : Node} {name : String} :
    lastText? node name = textProperty node name ↔ ¬HidesText node name := by
  cases hlast : textProperty node name with
  | some s =>
    refine iff_of_true (lastText?_of_textProperty hlast) ?_
    intro hhides
    cases hlast.symm.trans hhides.last
  | none =>
    rw [lastText?_eq_none]
    constructor
    · rintro h ⟨-, s, hs⟩
      exact h s hs
    · intro h s hs
      exact h ⟨hlast, s, hs⟩

theorem metadataEntry?_eq_some {e : Entry} {name s : String} :
    metadataEntry? e = some (name, s) ↔ e = ⟨some name, .string s⟩ ∧ name ≠ "ttl" := by
  constructor
  · intro h
    unfold metadataEntry? at h
    split at h
    · next hname hvalue =>
      split_ifs at h with hkey
      cases h
      obtain ⟨given, value⟩ := e
      cases hname
      cases hvalue
      exact ⟨rfl, hkey⟩
    · cases h
  · rintro ⟨rfl, hname⟩
    exact if_neg hname

/-- what is collected for the metadata are the texts of all names but `ttl` -/
theorem lookup_metadataEntry (node : Node) (name : String) :
    (node.entries.filterMap metadataEntry?).reverse.lookup name =
      if name = "ttl" then none else lastText? node name := by
  have hcollected : ∀ e s, (if name = "ttl" then none else textOf? name e) = some s ↔
      metadataEntry? e = some (name, s) := by
    intro e s
    rw [metadataEntry?_eq_some]
    split_ifs with hname
    · simp [hname]
    · rw [textOf?_eq_some, and_iff_left hname]
  rw [← List.filterMap_reverse, SortedMap.lookup_filterMap hcollected, lastText?]
  split_ifs
  · simp
  · rfl

/-! ## Records -/

variable {setting : Setting}

/-- for a name, metadata has the expansion of a given text: no entry if no text is given, and none for `ttl` -/
structure Shows (setting : Setting) (metadata : SortedMap String) (name : String) (given : Option String) : Prop where
  present : ∀ s, given = some s → name ≠ "ttl" →
    ∃ text, (setting.expand s).result = .ok text ∧ (name, text) ∈ metadata.entries
  only : ∀ text, (name, text) ∈ metadata.entries →
    name ≠ "ttl" ∧ ∃ s, given = some s ∧ (setting.expand s).result = .ok text

/-- each text that is collected for the metadata of a record is expanded -/
theorem metadata_of_record {zone : String} {node : Node} {r : Record} (h : (setting.record zone node).result = .ok r) :
    ∃ pairs, r.metadata = .ofList pairs ∧
      List.Forall₂ (fun given pair => pair.1 = given.1 ∧ (setting.expand given.2).result = .ok pair.2)
        (node.entries.filterMap metadataEntry?) pairs := by
  obtain ⟨given, -, h⟩ := andThen_eq_ok.1 h
  cases given with
  | nil => cases h
  | cons label rest =>
    dsimp only at h
    split_ifs at h
    · cases h
    · obtain ⟨ttl, -, h⟩ := andThen_eq_ok.1 h
      obtain ⟨pairs, hpairs, h⟩ := andThen_eq_ok.1 h
      obtain rfl := return_eq_ok.1 h
      refine ⟨pairs, rfl, (forEach_eq_ok.1 hpairs).imp ?_⟩
      intro given pair hpair
      obtain ⟨text, htext, hpair⟩ := andThen_eq_ok.1 hpair
      obtain rfl := return_eq_ok.1 hpair
      exact ⟨rfl, htext⟩

/-- metadata has the last text of each name -/
theorem shows_lastText {zone : String} {node : Node} {r : Record} (h : (setting.record zone node).result = .ok r)
    (name : String) : setting.Shows r.metadata name (lastText? node name) := by
  obtain ⟨pairs, hmetadata, hpairs⟩ := metadata_of_record h
  have hentry : ∀ text, (name, text) ∈ r.metadata.entries ↔ pairs.reverse.lookup name = some text := by
    intro text
    rw [SortedMap.mem_entries_iff, hmetadata, SortedMap.get?_ofList]
  have hrel := rel_lookup (R := fun given text => (setting.expand given).result = .ok text)
    (List.forall₂_reverse_iff.2 hpairs) name
  rw [lookup_metadataEntry] at hrel
  generalize pairs.reverse.lookup name = shown at hentry hrel
  generalize lastText? node name = given at hrel ⊢
  by_cases hname : name = "ttl"
  · rw [if_pos hname] at hrel
    cases hrel
    refine ⟨fun s _ hne => absurd hname hne, ?_⟩
    intro text htext
    cases (hentry text).1 htext
  · rw [if_neg hname] at hrel
    cases hrel with
    | none =>
      refine ⟨nofun, ?_⟩
      intro text htext
      cases (hentry text).1 htext
    | @some s shown hshown =>
      constructor
      · intro _ hs _
        cases hs
        exact ⟨shown, hshown, (hentry shown).2 rfl⟩
      · intro text htext
        cases (hentry text).1 htext
        exact ⟨hname, s, rfl, hshown⟩

/-- **Metadata of a record**: no name has two entries, and each name but `ttl` has the expansion of the last text among
its properties. This is the last property itself exactly for the names that hide no text. -/
theorem record_metadata (setting : Setting) (zone : String) (node : Node) (r : Record)
    (h : (setting.record zone node).result = .ok r) :
    r.metadata.keys.Nodup ∧
      ∀ name, setting.Shows r.metadata name (lastText? node name) ∧
        (setting.Shows r.metadata name (textProperty node name) ↔ name = "ttl" ∨ ¬HidesText node name) := by
  refine ⟨r.metadata.nodup_keys, ?_⟩
  intro name
  have hlast := shows_lastText h name
  refine ⟨hlast, ?_⟩
  constructor
  · intro hshows
    by_cases hname : name = "ttl"
    · exact .inl hname
    · -- a hidden text has an entry, and the last property is no reason for one
      refine .inr fun hhides => ?_
      have hsome : lastText? node name ≠ none := fun hnone => hhides.text.elim (lastText?_eq_none.1 hnone)
      obtain ⟨s, hs⟩ := Option.ne_none_iff_exists'.1 hsome
      obtain ⟨text, -, hmem⟩ := hlast.present s hs hname
      obtain ⟨-, t, ht, -⟩ := hshows.only text hmem
      rw [hhides.last] at ht
      cases ht
  · rintro (rfl | hshown)
    · refine ⟨fun _ _ hne => absurd rfl hne, ?_⟩
      intro text htext
      exact absurd rfl (hlast.only text htext).1
    · rwa [← lastText?_eq_textProperty_iff.2 hshown]

/-- a number in front of a text does not count, and one behind it does not either -/
theorem record_metadata_mixed :
    let properties : List Entry := [⟨some "note", .integer 5⟩, ⟨some "ttl", .integer 60⟩, ⟨some "note", .string "${host}"⟩,
      ⟨some "flag", .string "on"⟩, ⟨some "flag", .boolean false⟩]
    let node : Node := ⟨"A", ⟨none, .string "www"⟩ :: ⟨none, .string "192.0.2.1"⟩ :: properties, []⟩
    let setting : Setting := ⟨{ custom := .ofList [("host", "mail")] }, false⟩
    let r : Record := {
      kind := "A", label := "www", target := "192.0.2.1", ttl := 60,
      metadata := .ofList [("note", "mail"), ("flag", "on")] }
    (setting.record "zone" node).result = .ok r ∧
      setting.Shows r.metadata "note" (textProperty node "note") ∧
      setting.Shows r.metadata "ttl" (textProperty node "ttl") ∧
      ¬setting.Shows r.metadata "flag" (textProperty node "flag") := by
  intro properties node setting r
  have hr : (setting.record "zone" node).result = .ok r := by decide +kernel
  obtain ⟨-, hmetadata⟩ := record_metadata setting "zone" node r hr
  refine ⟨hr, ?_, ?_, ?_⟩
  · apply (hmetadata "note").2.2
    right
    rintro ⟨hlast, -⟩
    revert hlast
    decide +kernel
  · exact (hmetadata "ttl").2.2 (.inl rfl)
  · intro hshows
    refine ((hmetadata "flag").2.1 hshows).elim (by decide) fun hshown => ?_
    exact hshown ⟨by decide +kernel, "on", by simp [node, properties]⟩

/-- a text stays although the last property of its name is a number -/
theorem hidden_text_stays :
    ¬∀ (setting : Setting) (zone : String) (node : Node) (r : Record), (setting.record zone node).result = .ok r →
      ∀ name, setting.Shows r.metadata name (textProperty node name) := by
  intro h
  let setting : Setting := ⟨{}, false⟩
  let node : Node := ⟨"A", [⟨none, .string "www"⟩, ⟨none, .string "192.0.2.1"⟩, ⟨some "note", .string "x"⟩,
    ⟨some "note", .integer 5⟩], []⟩
  let r : Record := {
    kind := "A", label := "www", target := "192.0.2.1", ttl := 0, metadata := .ofList [("note", "x")] }
  have hr : (setting.record "example.com" node).result = .ok r := by decide +kernel
  have hmem : ("note", "x") ∈ r.metadata.entries := by decide +kernel
  obtain ⟨-, s, hs, -⟩ := (h setting "example.com" node r hr "note").only "x" hmem
  have hnone : textProperty node "note" = none := by decide +kernel
  rw [hnone] at hs
  cases hs

end Setting

end ZonePlan
