/-
What an evaluation depends on: of the setting, only how the text values of the document are expanded in it.

`plan_congr` says so for any comparison of evaluations that goes on from parts to wholes (`Congruence`): if two settings
compare on each text value of a document, their evaluations of the document do. There is one statement for each part of
the evaluator, and none of them looks into the expansion of a text. A comparison has to hold of every evaluation that
expands nothing, with one exception: nothing but an expansion faults for an undefined variable.

Apart from the naming of a domain nothing but an expansion makes remarks. What is said about the other parts holds also
of comparisons that tell remarks from one another (`Compositional`).
-/
import Mathlib
import ZonePlan.Evaluation

namespace ZonePlan

/-! ## The text values of a document -/

namespace Kdl

mutual

/-- the text values of a node and of the nodes below it -/
def Node.texts : Node → List String
  | ⟨_, entries, children⟩ => entries.filterMap (fun e => e.value.string?) ++ Document.texts children

/-- the text values of all nodes of a document -/
def Document.texts : List Node → List String
  | [] => []
  | node :: nodes => node.texts ++ Document.texts nodes

end

theorem Value.string?_eq_some {value : Value} {s : String} : value.string? = some s ↔ value = .string s := by
  cases value <;> simp [string?]

theorem Document.mem_texts {document : List Node} {s : String} :
    s ∈ Document.texts document ↔ ∃ node ∈ document, s ∈ node.texts := by
  induction document with
  | nil => simp [Document.texts]
  | cons node nodes ih => simp [Document.texts, ih]

namespace Node

theorem mem_texts {node : Node} {s : String} :
    s ∈ node.texts ↔ (∃ e ∈ node.entries, e.value = .string s) ∨ s ∈ Document.texts node.children := by
  cases node
  simp [texts, List.mem_filterMap, Value.string?_eq_some]

theorem mem_texts_of_argument {node : Node} {s : String} (h : .string s ∈ node.arguments) : s ∈ node.texts := by
  obtain ⟨e, he, hvalue⟩ := List.mem_map.1 h
  exact mem_texts.2 (Or.inl ⟨e, (List.mem_filter.1 he).1, hvalue⟩)

theorem mem_texts_of_property {node : Node} {name s : String} (h : node.property? name = some (.string s)) :
    s ∈ node.texts := by
  obtain ⟨e, he, hvalue⟩ := Option.map_eq_some_iff.1 h
  exact mem_texts.2 (Or.inl ⟨e, List.mem_reverse.1 (List.mem_of_find?_eq_some he), hvalue⟩)

theorem mem_texts_of_child {node child : Node} {s : String} (hchild : child ∈ node.children) (h : s ∈ child.texts) :
    s ∈ node.texts :=
  mem_texts.2 (Or.inr (Document.mem_texts.2 ⟨child, hchild, h⟩))

end Node

end Kdl

/-! ## Comparisons of evaluations -/

namespace Evaluation

variable {R : (α : Type) → Evaluation α → Evaluation α → Prop} {α β : Type}

/-- a comparison of evaluations that goes on from parts to wholes, where nothing is remarked -/
structure Compositional (R : (α : Type) → Evaluation α → Evaluation α → Prop) : Prop where
  ok {α : Type} (a : α) : R α (.ok a) (.ok a)
  fail {α : Type} (fault : Fault) (h : ∀ n, fault ≠ .undefined n) : R α (.fail fault) (.fail fault)
  andThen {α β : Type} {x y : Evaluation α} {f g : α → Evaluation β} (h : R α x y) (hfg : ∀ a, R β (f a) (g a)) :
    R β (x >>= f) (y >>= g)

/-- a comparison of evaluations that goes on from parts to wholes -/
structure Congruence (R : (α : Type) → Evaluation α → Evaluation α → Prop) : Prop extends Compositional R where
  remark (r : Remark) : R Unit (.remark r) (.remark r)

namespace Compositional

variable (hR : Compositional R)

include hR

theorem require {fault : Fault} (h : ∀ n, fault ≠ .undefined n) (x : Option α) :
    R α (.require x fault) (.require x fault) := by
  cases x with
  | none => exact hR.fail fault h
  | some a => exact hR.ok a

theorem whenGiven {f g : α → Evaluation β} {x : Option α} (h : ∀ a ∈ x, R β (f a) (g a)) :
    R (Option β) (.whenGiven f x) (.whenGiven g x) := by
  cases x with
  | none => exact hR.ok none
  | some a => exact hR.andThen (h a rfl) fun b => hR.ok (some b)

theorem forEach {f g : α → Evaluation β} {xs : List α} (h : ∀ a ∈ xs, R β (f a) (g a)) :
    R (List β) (.forEach f xs) (.forEach g xs) := by
  induction xs with
  | nil => exact hR.ok []
  | cons x xs ih =>
    refine hR.andThen (h x List.mem_cons_self) fun y => ?_
    refine hR.andThen (ih fun a ha => h a (List.mem_cons_of_mem x ha)) fun ys => ?_
    exact hR.ok (y :: ys)

end Compositional

end Evaluation

/-! ## Two settings -/

namespace Setting

open Kdl (Node Value Entry)
open Evaluation

theorem mem_texts_of_metadataEntry {node : Node} {entry : String × String}
    (hentry : entry ∈ node.entries.filterMap metadataEntry?) :
    entry.2 ∈ node.texts := by
  obtain ⟨e, he, hentry⟩ := List.mem_filterMap.1 hentry
  refine Node.mem_texts.2 (Or.inl ⟨e, he, ?_⟩)
  unfold metadataEntry? at hentry
  split at hentry
  · split_ifs at hentry
    cases hentry
    assumption
  · cases hentry

variable {R : (α : Type) → Evaluation α → Evaluation α → Prop} {A B : Setting}

section Compositional

variable (hR : Compositional R)

include hR

theorem expectWord32_congr (subject : String) (value : Value) :
    R UInt32 (expectWord32 subject value) (expectWord32 subject value) :=
  hR.require (fun _ => Fault.noConfusion) _

variable {node : Node} (h : ∀ s ∈ node.texts, R String (A.expand s) (B.expand s))

include h

theorem nameArgument_congr :
    R (Option String) (.whenGiven A.expand (nameArgument node)) (.whenGiven B.expand (nameArgument node)) := by
  refine hR.whenGiven fun s hs => h s ?_
  obtain ⟨value, hvalue, hs⟩ := Option.bind_eq_some_iff.1 hs
  obtain rfl := Value.string?_eq_some.1 hs
  exact Node.mem_texts_of_argument (List.mem_of_head? hvalue)

theorem textProperty_congr (name : String) :
    R (Option String) (.whenGiven A.expand (textProperty node name))
      (.whenGiven B.expand (textProperty node name)) := by
  refine hR.whenGiven fun s hs => h s ?_
  obtain ⟨value, hvalue, hs⟩ := Option.bind_eq_some_iff.1 hs
  obtain rfl := Value.string?_eq_some.1 hs
  exact Node.mem_texts_of_property hvalue

theorem arguments_congr : R (List String) (A.arguments node) (B.arguments node) := by
  refine hR.forEach fun value hvalue => ?_
  cases value with
  | string s => exact h s (Node.mem_texts_of_argument hvalue)
  | integer n => exact hR.ok _
  | real x => exact hR.fail _ fun _ => Fault.noConfusion
  | boolean b => exact hR.fail _ fun _ => Fault.noConfusion
  | null => exact hR.fail _ fun _ => Fault.noConfusion

theorem declaration_congr (what : String) : R Declaration (A.declaration what node) (B.declaration what node) := by
  refine hR.andThen (nameArgument_congr hR h) fun given => ?_
  refine hR.andThen (hR.require (fun _ => Fault.noConfusion) given) fun name => ?_
  refine hR.andThen (textProperty_congr hR h "type") fun given => ?_
  exact hR.andThen (hR.require (fun _ => Fault.noConfusion) given) fun kind => hR.ok _

theorem provider_congr (zone : String) : R (String × Option UInt32) (A.provider zone node) (B.provider zone node) := by
  refine hR.andThen (nameArgument_congr hR h) fun given => ?_
  refine hR.andThen (hR.require (fun _ => Fault.noConfusion) given) fun name => ?_
  exact hR.andThen (hR.whenGiven fun value _ => expectWord32_congr hR _ value) fun count => hR.ok _

theorem metadatum_congr (zone : String) : R (String × String) (A.metadatum zone node) (B.metadatum zone node) := by
  refine hR.andThen (arguments_congr hR h) fun given => ?_
  split
  · exact hR.ok _
  · exact hR.fail _ fun _ => Fault.noConfusion

theorem record_congr (zone : String) : R Record (A.record zone node) (B.record zone node) := by
  refine hR.andThen (arguments_congr hR h) fun given => ?_
  cases given with
  | nil => exact hR.fail _ fun _ => Fault.noConfusion
  | cons label rest =>
    dsimp only
    split_ifs
    · exact hR.fail _ fun _ => Fault.noConfusion
    · refine hR.andThen (hR.whenGiven fun value _ => expectWord32_congr hR _ value) fun ttl => ?_
      refine hR.andThen (hR.forEach fun entry hentry => ?_) fun metadata => hR.ok _
      exact hR.andThen (h entry.2 (mem_texts_of_metadataEntry hentry)) fun text => hR.ok _

theorem part_congr (zone : String) : R Part (A.part zone node) (B.part zone node) := by
  unfold part
  split_ifs
  · exact hR.andThen (provider_congr hR h zone) fun _ => hR.ok _
  · exact hR.andThen (metadatum_congr hR h zone) fun _ => hR.ok _
  · exact hR.andThen (record_congr hR h zone) fun _ => hR.ok _

end Compositional

section Congruence

variable (hR : Congruence R)

include hR

theorem reverseZone_congr (block : String) : R String (reverseZone block) (reverseZone block) := by
  unfold reverseZone
  split
  · exact hR.fail _ fun _ => Fault.noConfusion
  · split_ifs
    · exact hR.andThen (hR.remark _) fun _ => hR.ok _
    · exact hR.ok _

variable {node : Node} (h : ∀ s ∈ node.texts, R String (A.expand s) (B.expand s))

include h in
theorem zoneName_congr : R String (A.zoneName node) (B.zoneName node) := by
  refine hR.andThen (nameArgument_congr hR.toCompositional h) fun name => ?_
  refine hR.andThen (textProperty_congr hR.toCompositional h "reverse") fun block => ?_
  rcases name with _ | name <;> rcases block with _ | block
  · exact hR.fail _ fun _ => Fault.noConfusion
  · exact reverseZone_congr hR block
  · exact hR.ok name
  · exact hR.fail _ fun _ => Fault.noConfusion

include h in
theorem domain_congr : R Domain (A.domain node) (B.domain node) := by
  refine hR.andThen (zoneName_congr hR h) fun name => ?_
  refine hR.andThen (textProperty_congr hR.toCompositional h "registrar") fun registrar => ?_
  refine hR.andThen (hR.forEach fun child hchild => ?_) fun parts => hR.ok _
  exact part_congr hR.toCompositional (fun s hs => h s (Node.mem_texts_of_child hchild hs)) name

include h in
theorem item_congr : R Item (A.item node) (B.item node) := by
  unfold item
  split_ifs
  · exact hR.andThen (declaration_congr hR.toCompositional h "registrar") fun _ => hR.ok _
  · exact hR.andThen (declaration_congr hR.toCompositional h "dns-provider") fun _ => hR.ok _
  · exact hR.andThen (domain_congr hR h) fun _ => hR.ok _
  · exact hR.ok _

/-- **An evaluation depends on the expansion of text values only** -/
theorem plan_congr {document : Kdl.Document}
    (h : ∀ s ∈ Kdl.Document.texts document, R String (A.expand s) (B.expand s)) :
    R Plan (A.plan document) (B.plan document) := by
  refine hR.andThen (hR.forEach fun node hnode => ?_) fun items => hR.ok _
  exact item_congr hR fun s hs => h s (Kdl.Document.mem_texts.2 ⟨node, hnode, hs⟩)

end Congruence

end Setting

end ZonePlan
