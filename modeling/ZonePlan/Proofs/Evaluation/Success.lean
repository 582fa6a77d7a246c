/-
What a successful evaluation has made of a document.

An evaluation that ends with a value has evaluated every part it needed, in order, and the value is put together from
theirs. For each part of the evaluator one statement says from what (`record_eq_ok`, `domain_eq_ok`, `plan_eq_ok`): the
parts of a value and the nodes that they come from stand in lists of one length, place by place.
-/
import ZonePlan.Proofs.Evaluation.Congruence

namespace ZonePlan

namespace Evaluation

variable {α β γ : Type}

theorem andThen_of_ok {x : Evaluation α} {a : α} (h : x.result = .ok a) (f : α → Evaluation β) :
    x >>= f = ⟨(f a).result, x.remarks ++ (f a).remarks⟩ := by
  change x.andThen f = _
  rw [andThen, h]

theorem andThen_of_error {x : Evaluation α} {fault : Fault} (h : x.result = .error fault) (f : α → Evaluation β) :
    x >>= f = ⟨.error fault, x.remarks⟩ := by
  change x.andThen f = _
  rw [andThen, h]

theorem andThen_eq_ok {x : Evaluation α} {f : α → Evaluation β} {b : β} :
    (x >>= f).result = .ok b ↔ ∃ a, x.result = .ok a ∧ (f a).result = .ok b := by
  cases hx : x.result with
  | ok a => simp [andThen_of_ok hx]
  | error fault => simp [andThen_of_error hx]

theorem return_eq_ok {a b : α} : (pure a : Evaluation α).result = .ok b ↔ a = b :=
  ⟨Except.ok.inj, congrArg Except.ok⟩

theorem require_eq_ok {x : Option α} {fault : Fault} {a : α} : (require x fault).result = .ok a ↔ x = some a := by
  cases x with
  | none => exact iff_of_false nofun nofun
  | some b => simp [require, ok]

theorem whenGiven_eq_ok {f : α → Evaluation β} {x : Option α} {y : Option β} :
    (whenGiven f x).result = .ok y ↔ Option.Rel (fun a b => (f a).result = .ok b) x y := by
  cases x with
  | none => cases y <;> simp [whenGiven, ok]
  | some a => cases y <;> simp [whenGiven, andThen_eq_ok, return_eq_ok]

/-- a list is evaluated element by element -/
theorem forEach_eq_ok {f : α → Evaluation β} {xs : List α} {ys : List β} :
    (forEach f xs).result = .ok ys ↔ List.Forall₂ (fun x y => (f x).result = .ok y) xs ys := by
  induction xs generalizing ys with
  | nil => cases ys <;> simp [forEach, ok]
  | cons x xs ih =>
    simp only [forEach, andThen_eq_ok, return_eq_ok, ih]
    constructor
    · rintro ⟨y, hy, ys, hys, rfl⟩
      exact .cons hy hys
    · rintro (_ | ⟨hy, hys⟩)
      exact ⟨_, hy, _, hys, rfl⟩

end Evaluation

/-! ## Lists that go together -/

section

variable {α β γ : Type} {R : α → β → Prop} {xs : List α} {ys : List β}

/-- of two lists that go together place by place, the elements that are kept of the first go with what is made of the
second, if the others come to nothing -/
theorem forall₂_filterMap {S : α → γ → Prop} {keep : α → Bool} {g : β → Option γ}
    (hR : ∀ x y, R x y → if keep x then ∃ z, g y = some z ∧ S x z else g y = none) (h : List.Forall₂ R xs ys) :
    List.Forall₂ S (xs.filter keep) (ys.filterMap g) := by
  rw [← List.filterMap_eq_filter]
  refine List.rel_filterMap (fun x y hxy => ?_) h
  have hhead := hR x y hxy
  unfold Option.guard
  split_ifs at hhead ⊢
  · obtain ⟨z, hz, hS⟩ := hhead
    rw [hz]
    exact .some hS
  · rw [hhead]
    exact .none

/-- what two lists show is the same, if it is the same place by place -/
theorem map_eq_map_of_forall₂ {f : α → γ} {g : β → γ} (h : List.Forall₂ (fun x y => g y = f x) xs ys) :
    ys.map g = xs.map f := by
  rw [← List.forall₂_eq_eq_eq, List.forall₂_map_left_iff, List.forall₂_map_right_iff]
  exact h.flip

/-- an element of the second of two lists that go together has one of the first that it goes with -/
theorem exists_of_forall₂ (h : List.Forall₂ R xs ys) {y : β} (hy : y ∈ ys) : ∃ x ∈ xs, R x y := by
  induction h with
  | nil => cases hy
  | @cons x y' xs ys hxy _ ih =>
    rcases List.mem_cons.1 hy with rfl | hy
    · exact ⟨x, List.mem_cons_self, hxy⟩
    · obtain ⟨x', hx', hR⟩ := ih hy
      exact ⟨x', List.mem_cons_of_mem x hx', hR⟩

/-- what two lists have to do with a third place by place, they have to do with each other -/
theorem forall₂_join {S : α → γ → Prop} {T : β → γ → Prop} {zs : List γ} (hys : List.Forall₂ R xs ys)
    (hzs : List.Forall₂ S xs zs) (hT : ∀ x y z, R x y → S x z → T y z) : List.Forall₂ T ys zs := by
  induction hys generalizing zs with
  | nil =>
    cases hzs
    exact .nil
  | cons hy _ ih =>
    cases hzs with
    | cons hz hzs => exact .cons (hT _ _ _ hy hz) (ih hzs)

end

namespace Setting

open Kdl (Node Value Entry)
open Evaluation

variable {setting : Setting}

/-! ## Records -/

/-- a number that is asked for is there, if something is -/
theorem givenWord32_eq_ok {subject : String} {given : Option Value} {n : Option UInt32}
    (h : (whenGiven (expectWord32 subject) given).result = .ok n) : n = given.bind word32? := by
  rw [whenGiven_eq_ok] at h
  cases h with
  | none => rfl
  | some hvalue => exact (require_eq_ok.1 hvalue).symm

/-- what a record is when it has just been evaluated: of the kind that its node is called by, with nothing split off
its target -/
theorem record_eq_ok {zone : String} {node : Node} {r : Record} (h : (setting.record zone node).result = .ok r) :
    ∃ label target metadata,
      metadata.map Prod.fst = (node.entries.filterMap metadataEntry?).map Prod.fst ∧
      r = {
        kind := Text.upper node.name, label, target
        ttl := ((node.property? "ttl").bind word32?).getD 0
        metadata := .ofList metadata } := by
  obtain ⟨given, -, h⟩ := andThen_eq_ok.1 h
  cases given with
  | nil => cases h
  | cons label rest =>
    dsimp only at h
    split_ifs at h
    · cases h
    · obtain ⟨ttl, httl, h⟩ := andThen_eq_ok.1 h
      obtain ⟨metadata, hmetadata, h⟩ := andThen_eq_ok.1 h
      obtain rfl := return_eq_ok.1 h
      obtain rfl := givenWord32_eq_ok httl
      have hkeys : List.Forall₂ (fun given entry : String × String => entry.1 = given.1)
          (node.entries.filterMap metadataEntry?) metadata := by
        refine (forEach_eq_ok.1 hmetadata).imp fun given entry hentry => ?_
        obtain ⟨text, -, hentry⟩ := andThen_eq_ok.1 hentry
        obtain rfl := return_eq_ok.1 hentry
        rfl
      exact ⟨label, Text.joinWith " " rest, metadata, map_eq_map_of_forall₂ hkeys, rfl⟩

/-! ## Domains -/

/-- whether a child of a domain's node stands for a record -/
def isRecordNode (node : Node) : Bool := node.name ≠ "dns-provider" ∧ node.name ≠ "meta"

/-- each part of a domain comes from a node of its own name -/
theorem part_eq_ok {zone : String} {node : Node} {x : Part} (h : (setting.part zone node).result = .ok x) :
    (node.name = "dns-provider" ∧ ∃ name count, x = .provider name count) ∨
    (node.name = "meta" ∧ ∃ key value, x = .metadatum key value) ∨
    (isRecordNode node = true ∧ ∃ r, (setting.record zone node).result = .ok r ∧ x = .record r) := by
  unfold part at h
  split_ifs at h with hprovider hmeta
  · obtain ⟨⟨name, count⟩, -, h⟩ := andThen_eq_ok.1 h
    exact Or.inl ⟨hprovider, name, count, (return_eq_ok.1 h).symm⟩
  · obtain ⟨⟨key, value⟩, -, h⟩ := andThen_eq_ok.1 h
    exact Or.inr (Or.inl ⟨hmeta, key, value, (return_eq_ok.1 h).symm⟩)
  · obtain ⟨r, hr, h⟩ := andThen_eq_ok.1 h
    exact Or.inr (Or.inr ⟨by simp [isRecordNode, hprovider, hmeta], r, hr, (return_eq_ok.1 h).symm⟩)

/-- the records of a domain come from those of its children that stand for records -/
theorem domain_eq_ok {node : Node} {d : Domain} (h : (setting.domain node).result = .ok d) :
    List.Forall₂ (fun child r => (setting.record d.name child).result = .ok r) (node.children.filter isRecordNode)
      d.records := by
  obtain ⟨name, -, h⟩ := andThen_eq_ok.1 h
  obtain ⟨registrar, -, h⟩ := andThen_eq_ok.1 h
  obtain ⟨parts, hparts, h⟩ := andThen_eq_ok.1 h
  obtain rfl := return_eq_ok.1 h
  refine forall₂_filterMap (fun child x hx => ?_) (forEach_eq_ok.1 hparts)
  rcases part_eq_ok hx with ⟨hname, name, count, rfl⟩ | ⟨hname, key, value, rfl⟩ | ⟨hrecord, r, hr, rfl⟩
  · simp [isRecordNode, hname, recordPart?]
  · simp [isRecordNode, hname, recordPart?]
  · simp [hrecord, recordPart?, hr]

/-! ## Plans -/

/-- each item of a plan comes from a node of its own name -/
theorem item_eq_ok {node : Node} {x : Item} (h : (setting.item node).result = .ok x) :
    (node.name = "registrar" ∧ ∃ d, (setting.declaration "registrar" node).result = .ok d ∧ x = .registrar d) ∨
    (node.name = "dns-provider" ∧ ∃ d, (setting.declaration "dns-provider" node).result = .ok d ∧ x = .provider d) ∨
    (node.name = "domain" ∧ ∃ d, (setting.domain node).result = .ok d ∧ x = .domain d) ∨
    (node.name ≠ "registrar" ∧ node.name ≠ "dns-provider" ∧ node.name ≠ "domain" ∧ x = .nothing) := by
  unfold item at h
  split_ifs at h with hregistrar hprovider hdomain
  · obtain ⟨d, hd, h⟩ := andThen_eq_ok.1 h
    exact Or.inl ⟨hregistrar, d, hd, (return_eq_ok.1 h).symm⟩
  · obtain ⟨d, hd, h⟩ := andThen_eq_ok.1 h
    exact Or.inr (Or.inl ⟨hprovider, d, hd, (return_eq_ok.1 h).symm⟩)
  · obtain ⟨d, hd, h⟩ := andThen_eq_ok.1 h
    exact Or.inr (Or.inr (Or.inl ⟨hdomain, d, hd, (return_eq_ok.1 h).symm⟩))
  · exact Or.inr (Or.inr (Or.inr ⟨hregistrar, hprovider, hdomain, (return_eq_ok.1 h).symm⟩))

/-- what a plan declares comes from the nodes at the top of the document that are called so -/
theorem plan_eq_ok {document : Kdl.Document} {p : Plan} (h : (setting.plan document).result = .ok p) :
    List.Forall₂ (fun node d => (setting.declaration "registrar" node).result = .ok d)
      (document.filter (·.name = "registrar")) p.registrars ∧
    List.Forall₂ (fun node d => (setting.declaration "dns-provider" node).result = .ok d)
      (document.filter (·.name = "dns-provider")) p.providers ∧
    List.Forall₂ (fun node d => (setting.domain node).result = .ok d) (document.filter (·.name = "domain"))
      p.domains := by
  obtain ⟨items, hitems, h⟩ := andThen_eq_ok.1 h
  obtain rfl := return_eq_ok.1 h
  rw [forEach_eq_ok] at hitems
  refine ⟨?_, ?_, ?_⟩
  · refine forall₂_filterMap (fun node x hx => ?_) hitems
    rcases item_eq_ok hx with ⟨hname, d, hd, rfl⟩ | ⟨hname, d, hd, rfl⟩ | ⟨hname, d, hd, rfl⟩ | ⟨hname, -, -, rfl⟩ <;>
      simp_all [registrarItem?]
  · refine forall₂_filterMap (fun node x hx => ?_) hitems
    rcases item_eq_ok hx with ⟨hname, d, hd, rfl⟩ | ⟨hname, d, hd, rfl⟩ | ⟨hname, d, hd, rfl⟩ | ⟨-, hname, -, rfl⟩ <;>
      simp_all [providerItem?]
  · refine forall₂_filterMap (fun node x hx => ?_) hitems
    rcases item_eq_ok hx with ⟨hname, d, hd, rfl⟩ | ⟨hname, d, hd, rfl⟩ | ⟨hname, d, hd, rfl⟩ | ⟨-, -, hname, rfl⟩ <;>
      simp_all [domainItem?]

end Setting

end ZonePlan
