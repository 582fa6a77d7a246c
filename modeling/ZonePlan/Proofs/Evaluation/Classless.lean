/-
When an evaluation names a reverse zone by RFC 4183 (`usedClassless_evaluate`).

Only the naming of a domain does so, and only of one without a name of its own whose block is accepted and ends within
an octet (`NamesClassless`). It counts as soon as it is reached, whatever becomes of the domain and of the rest of the
document: a node is reached exactly if all nodes before it are evaluated without a fault (`ReachesClassless`).

Nothing else gives such a name (`Classful`). This goes from parts to wholes, so that it is known of the other parts of
the evaluator from the expansion of texts.
-/
import ZonePlan.Proofs.Evaluation.Congruence
import ZonePlan.Proofs.Evaluation.Success

namespace ZonePlan

namespace Evaluation

variable {α β : Type}

/-! ## One evaluation after another -/

theorem usedClassless_bind {x : Evaluation α} {f : α → Evaluation β} :
    (x >>= f).usedClassless = true ↔
      x.usedClassless = true ∨ ∃ a, x.result = .ok a ∧ (f a).usedClassless = true := by
  cases hx : x.result with
  | ok a => simp [andThen_of_ok hx, usedClassless]
  | error fault => simp [andThen_of_error hx, usedClassless]

/-- of the evaluations of a list, one is reached if those before it end without a fault -/
theorem usedClassless_forEach {f : α → Evaluation β} {xs : List α} :
    (forEach f xs).usedClassless = true ↔
      ∃ before x after, xs = before ++ x :: after ∧ (∀ y ∈ before, ∃ b, (f y).result = .ok b) ∧
        (f x).usedClassless = true := by
  induction xs with
  | nil => simp [forEach, ok, usedClassless]
  | cons x xs ih =>
    simp only [forEach, usedClassless_bind, ih]
    constructor
    · rintro (hx | ⟨b, hb, ⟨before, y, after, rfl, hbefore, hy⟩ | ⟨bs, -, h⟩⟩)
      · exact ⟨[], x, xs, rfl, List.forall_mem_nil _, hx⟩
      · exact ⟨x :: before, y, after, rfl, List.forall_mem_cons.2 ⟨⟨b, hb⟩, hbefore⟩, hy⟩
      · cases h
    · rintro ⟨_ | ⟨z, before⟩, y, after, hsplit, hbefore, hy⟩
      · obtain ⟨rfl, rfl⟩ := List.cons.inj hsplit
        exact Or.inl hy
      · obtain ⟨rfl, rfl⟩ := List.cons.inj hsplit
        obtain ⟨⟨b, hb⟩, hbefore⟩ := List.forall_mem_cons.1 hbefore
        exact Or.inr ⟨b, hb, Or.inl ⟨before, y, after, rfl, hbefore, hy⟩⟩

/-- no name by RFC 4183 is given on the way -/
def Classful (x : Evaluation α) : Prop := x.usedClassless = false

namespace Classful

theorem bind {x : Evaluation α} {f : α → Evaluation β} (hx : Classful x) (hf : ∀ a, Classful (f a)) :
    Classful (x >>= f) := by
  rw [Classful, ← Bool.not_eq_true, usedClassless_bind]
  rintro (h | ⟨a, -, h⟩)
  · exact Bool.false_ne_true (hx.symm.trans h)
  · exact Bool.false_ne_true ((hf a).symm.trans h)

theorem compositional : Compositional fun _ x _ => Classful x where
  ok _ := rfl
  fail _ _ := rfl
  andThen := bind

/-- behind such an evaluation it is the next one that counts -/
theorem usedClassless_bind {x : Evaluation α} {f : α → Evaluation β} (hx : Classful x) :
    (x >>= f).usedClassless = true ↔ ∃ a, x.result = .ok a ∧ (f a).usedClassless = true := by
  rw [Evaluation.usedClassless_bind, hx]
  simp

/-- such evaluations do not count behind anything -/
theorem usedClassless_bind_of_rest {x : Evaluation α} {f : α → Evaluation β} (hf : ∀ a, Classful (f a)) :
    (x >>= f).usedClassless = x.usedClassless := by
  rw [Bool.eq_iff_iff, Evaluation.usedClassless_bind]
  simp [fun a => show (f a).usedClassless = false from hf a]

end Classful

theorem usedClassless_map (x : Evaluation α) (g : α → β) :
    (do
      let a ← x
      return g a).usedClassless = x.usedClassless :=
  Classful.usedClassless_bind_of_rest fun _ => rfl

end Evaluation

namespace Setting

open Kdl (Node)
open Evaluation

variable (setting : Setting)

/-! ## What gives no name by RFC 4183 -/

theorem expand_classful (s : String) : Classful (setting.expand s) := by
  unfold expand
  split
  · rfl
  · split_ifs
    · rfl
    · rfl

theorem given_classful (given : Option String) : Classful (.whenGiven setting.expand given) :=
  Classful.compositional.whenGiven (g := setting.expand) fun s _ => setting.expand_classful s

theorem declaration_classful (what : String) (node : Node) : Classful (setting.declaration what node) :=
  declaration_congr Classful.compositional (B := setting) (fun s _ => setting.expand_classful s) what

theorem part_classful (zone : String) (node : Node) : Classful (setting.part zone node) :=
  part_congr Classful.compositional (B := setting) (fun s _ => setting.expand_classful s) zone

/-! ## The naming of a domain -/

/-- a block is named by RFC 4183 if it is accepted and ends within an octet -/
theorem usedClassless_reverseZone (block : String) :
    (reverseZone block).usedClassless = true ↔
      ∃ zone, ReverseZone.ofString block = .ok zone ∧ zone.classless = true := by
  unfold reverseZone
  cases ReverseZone.ofString block with
  | error problem => exact iff_of_false Bool.false_ne_true nofun
  | ok zone =>
    dsimp only
    split_ifs with hclassless
    · exact iff_of_true rfl ⟨zone, rfl, hclassless⟩
    · refine iff_of_false Bool.false_ne_true ?_
      rintro ⟨_, h, hzone⟩
      exact hclassless (Except.ok.inj h ▸ hzone)

/-- a domain without a name of its own whose block, with the values of its references, is named by RFC 4183 -/
def NamesClassless (node : Node) : Prop :=
  nameArgument node = none ∧ ∃ given block zone, textProperty node "reverse" = some given ∧
    (setting.expand given).result = .ok block ∧ ReverseZone.ofString block = .ok zone ∧ zone.classless = true

theorem usedClassless_zoneName (node : Node) :
    (setting.zoneName node).usedClassless = true ↔ setting.NamesClassless node := by
  unfold zoneName
  rw [(setting.given_classful _).usedClassless_bind]
  simp only [(setting.given_classful _).usedClassless_bind, whenGiven_eq_ok]
  constructor
  · rintro ⟨name, hname, block, hblock, h⟩
    -- the answers are cases of what is given, which has to be a variable for that
    generalize hargument : nameArgument node = argument at hname
    generalize hproperty : textProperty node "reverse" = property at hblock
    cases hname with
    | some _ => cases hblock <;> cases h
    | none =>
      cases hblock with
      | none => cases h
      | @some given block hgiven =>
        obtain ⟨zone, hzone, hclassless⟩ := (usedClassless_reverseZone block).1 h
        exact ⟨hargument, given, block, zone, hproperty, hgiven, hzone, hclassless⟩
  · rintro ⟨hname, given, block, zone, hgiven, hblock, hzone, hclassless⟩
    rw [hname, hgiven]
    exact ⟨none, .none, some block, .some hblock, (usedClassless_reverseZone block).2 ⟨zone, hzone, hclassless⟩⟩

/-- what else belongs to a domain does not count, and comes too late to take anything back -/
theorem usedClassless_domain (node : Node) :
    (setting.domain node).usedClassless = true ↔ setting.NamesClassless node := by
  rw [← usedClassless_zoneName, domain, Classful.usedClassless_bind_of_rest fun name => ?_]
  have hparts : Classful (.forEach (setting.part name) node.children) :=
    Classful.compositional.forEach (g := setting.part name) fun child _ => setting.part_classful name child
  exact (setting.given_classful _).bind fun registrar => hparts.bind fun parts => rfl

theorem usedClassless_item (node : Node) :
    (setting.item node).usedClassless = true ↔ node.name = "domain" ∧ setting.NamesClassless node := by
  unfold item
  split_ifs with hregistrar hprovider hdomain
  · rw [usedClassless_map, declaration_classful]
    simp [hregistrar]
  · rw [usedClassless_map, declaration_classful]
    simp [hprovider]
  · rw [usedClassless_map, usedClassless_domain]
    simp [hdomain]
  · exact iff_of_false Bool.false_ne_true fun h => hdomain h.1

/-! ## Documents -/

/-- the evaluation of a document comes to a domain that is named by RFC 4183 -/
def ReachesClassless (document : Kdl.Document) : Prop :=
  ∃ before node after, document = before ++ node :: after ∧
    (∀ earlier ∈ before, ∃ x, (setting.item earlier).result = .ok x) ∧
    node.name = "domain" ∧ setting.NamesClassless node

theorem usedClassless_plan (document : Kdl.Document) :
    (setting.plan document).usedClassless = true ↔ setting.ReachesClassless document := by
  rw [plan, usedClassless_map, usedClassless_forEach]
  simp only [usedClassless_item]
  rfl

/-- **A name by RFC 4183 is given** exactly if the text is a document whose evaluation comes to a domain that is named
so, whether or not it goes on to a plan -/
theorem usedClassless_evaluate (text : String) :
    (setting.evaluate text).usedClassless = true ↔
      ∃ document, Kdl.Document.ofString? text = some document ∧ setting.ReachesClassless document := by
  unfold evaluate
  cases Kdl.Document.ofString? text with
  | none => exact iff_of_false Bool.false_ne_true nofun
  | some document => simp [usedClassless_plan]

end Setting

end ZonePlan
