/-
What the order of the nodes at the top of a document has to do with its evaluation (`plan_by_kinds`).

An evaluation that ends with a plan has been through all nodes, and none of them is evaluated in another way because of
others. So registrars, providers and domains may be mixed as one likes while each kind keeps its own order, and nodes of
other names may stand anywhere, whatever is in them (`SameDeclarations`). An evaluation that ends with a fault has been
through the nodes up to the first one that has a fault, and whatever follows it may be replaced
(`forEach_of_error`).
-/
import ZonePlan.Proofs.Evaluation.Classless
import ZonePlan.Proofs.Evaluation.Development

namespace ZonePlan

namespace Evaluation

variable {α β : Type} {f : α → Evaluation β}

/-! ## Lists up to the first fault -/

/-- the first fault of a list ends its evaluation, and what stands behind is not looked at -/
theorem forEach_of_error {before : List α} {x : α} {fault : Fault}
    (hbefore : ∀ y ∈ before, ∃ b, (f y).result = .ok b) (hx : (f x).result = .error fault) (after : List α) :
    forEach f (before ++ x :: after) = ⟨.error fault, (before ++ [x]).flatMap fun y => (f y).remarks⟩ := by
  induction before with
  | nil =>
    rw [List.nil_append, forEach, andThen_of_error hx]
    simp
  | cons y before ih =>
    obtain ⟨⟨b, hy⟩, hbefore⟩ := List.forall_mem_cons.1 hbefore
    rw [List.cons_append, forEach, andThen_of_ok hy, ih hbefore]
    rfl

theorem andThen_eq_error {x : Evaluation α} {g : α → Evaluation β} {fault : Fault} :
    (x >>= g).result = .error fault ↔
      x.result = .error fault ∨ ∃ a, x.result = .ok a ∧ (g a).result = .error fault := by
  cases hx : x.result with
  | ok a => simp [andThen_of_ok hx]
  | error fault => simp [andThen_of_error hx]

/-- a list is evaluated to a fault exactly if an element has it and those in front of that one have none -/
theorem forEach_eq_error {xs : List α} {fault : Fault} :
    (forEach f xs).result = .error fault ↔
      ∃ before x after, xs = before ++ x :: after ∧ (∀ y ∈ before, ∃ b, (f y).result = .ok b) ∧
        (f x).result = .error fault := by
  constructor
  · intro h
    induction xs with
    | nil => cases h
    | cons x xs ih =>
      rcases andThen_eq_error.1 h with hx | ⟨b, hb, h⟩
      · exact ⟨[], x, xs, rfl, List.forall_mem_nil _, hx⟩
      · rcases andThen_eq_error.1 h with hxs | ⟨bs, -, h⟩
        · obtain ⟨before, y, after, rfl, hbefore, hy⟩ := ih hxs
          exact ⟨x :: before, y, after, rfl, List.forall_mem_cons.2 ⟨⟨b, hb⟩, hbefore⟩, hy⟩
        · cases h
  · rintro ⟨before, x, after, rfl, hbefore, hx⟩
    rw [forEach_of_error hbefore hx]

end Evaluation

namespace Setting

open Kdl (Node Document)
open Evaluation

/-! ## Documents with the same declarations -/

/-- two documents with the same registrars, the same providers and the same domains, each in the same order; they may be
mixed in different ways, and with any nodes of other names -/
structure SameDeclarations (document other : Document) : Prop where
  registrars : other.filter (·.name = "registrar") = document.filter (·.name = "registrar")
  providers : other.filter (·.name = "dns-provider") = document.filter (·.name = "dns-provider")
  domains : other.filter (·.name = "domain") = document.filter (·.name = "domain")

namespace SameDeclarations

variable {document other : Document} (h : SameDeclarations document other)
include h

/-- a domain of one document is a domain of the other -/
theorem mem_domains {node : Node} (hname : node.name = "domain") : node ∈ other ↔ node ∈ document := by
  have hmem := congrArg (node ∈ ·) h.domains
  simpa [hname] using hmem

/-- each node of the other document is one of the first, or has another name than declarations have -/
theorem mem_or {node : Node} (hnode : node ∈ other) :
    node ∈ document ∨ node.name ≠ "registrar" ∧ node.name ≠ "dns-provider" ∧ node.name ≠ "domain" := by
  have hfiltered : ∀ kind : String, other.filter (·.name = kind) = document.filter (·.name = kind) →
      node.name = kind → node ∈ document := by
    intro kind hkind hname
    have hmem : node ∈ other.filter (·.name = kind) := List.mem_filter.2 ⟨hnode, by simpa using hname⟩
    rw [hkind] at hmem
    exact (List.mem_filter.1 hmem).1
  by_cases hregistrar : node.name = "registrar"
  · exact Or.inl (hfiltered _ h.registrars hregistrar)
  · by_cases hprovider : node.name = "dns-provider"
    · exact Or.inl (hfiltered _ h.providers hprovider)
    · by_cases hdomain : node.name = "domain"
      · exact Or.inl (hfiltered _ h.domains hdomain)
      · exact Or.inr ⟨hregistrar, hprovider, hdomain⟩

end SameDeclarations

variable (setting : Setting)

/-! ## Plans -/

/-- a plan is all that the nodes come to, if each of them comes to something -/
theorem exists_plan_iff (document : Document) :
    (∃ p, (setting.plan document).result = .ok p) ↔ ∀ node ∈ document, ∃ x, (setting.item node).result = .ok x := by
  constructor
  · rintro ⟨p, hp⟩ node hnode
    obtain ⟨items, hitems, -⟩ := andThen_eq_ok.1 hp
    obtain ⟨x, -, hx⟩ := exists_of_forall₂ (forEach_eq_ok.1 hitems).flip hnode
    exact ⟨x, hx⟩
  · intro hdocument
    cases hresult : (forEach setting.item document).result with
    | ok items => exact ⟨_, andThen_eq_ok.2 ⟨items, hresult, rfl⟩⟩
    | error fault =>
      obtain ⟨before, node, after, rfl, -, hnode⟩ := forEach_eq_error.1 hresult
      obtain ⟨x, hx⟩ := hdocument node (by simp)
      rw [hnode] at hx
      cases hx

theorem item_of_other {node : Node} (hregistrar : node.name ≠ "registrar") (hprovider : node.name ≠ "dns-provider")
    (hdomain : node.name ≠ "domain") : (setting.item node).result = .ok .nothing := by
  rw [item, if_neg hregistrar, if_neg hprovider, if_neg hdomain]
  rfl

/-- what is evaluated from the same nodes is the same -/
theorem eq_of_forall₂_ok {α : Type} {f : Node → Evaluation α} {nodes : List Node} {xs ys : List α}
    (hxs : List.Forall₂ (fun node x => (f node).result = .ok x) nodes xs)
    (hys : List.Forall₂ (fun node y => (f node).result = .ok y) nodes ys) : xs = ys := by
  rw [← List.forall₂_eq_eq_eq]
  apply forall₂_join hxs hys
  intro node x y hx hy
  exact Except.ok.inj (hx.symm.trans hy)

/-- the same declarations come to the same plan -/
theorem plan_of_sameDeclarations {document other : Document} (h : SameDeclarations document other) {p : Plan}
    (hp : (setting.plan document).result = .ok p) : (setting.plan other).result = .ok p := by
  have hnodes := (setting.exists_plan_iff document).1 ⟨p, hp⟩
  have hothers : ∀ node ∈ other, ∃ x, (setting.item node).result = .ok x := by
    intro node hnode
    rcases h.mem_or hnode with hdocument | ⟨hregistrar, hprovider, hdomain⟩
    · exact hnodes node hdocument
    · exact ⟨.nothing, setting.item_of_other hregistrar hprovider hdomain⟩
  obtain ⟨q, hq⟩ := (setting.exists_plan_iff other).2 hothers
  obtain ⟨hregistrars, hproviders, hdomains⟩ := plan_eq_ok hp
  obtain ⟨hregistrars', hproviders', hdomains'⟩ := plan_eq_ok hq
  rw [h.registrars] at hregistrars'
  rw [h.providers] at hproviders'
  rw [h.domains] at hdomains'
  have hsame : q = p := by
    cases p
    cases q
    rw [Plan.mk.injEq]
    exact ⟨eq_of_forall₂_ok hregistrars' hregistrars, eq_of_forall₂_ok hproviders' hproviders,
      eq_of_forall₂_ok hdomains' hdomains⟩
  rw [hq, hsame]

/-- once all nodes are evaluated, a name by RFC 4183 has been given if any domain is named so -/
theorem usedClassless_plan_of_ok {document : Document} {p : Plan} (hp : (setting.plan document).result = .ok p) :
    (setting.plan document).usedClassless = true ↔
      ∃ node ∈ document, node.name = "domain" ∧ setting.NamesClassless node := by
  rw [usedClassless_plan]
  constructor
  · rintro ⟨before, node, after, rfl, -, hnode⟩
    exact ⟨node, by simp, hnode⟩
  · rintro ⟨node, hmem, hnode⟩
    obtain ⟨before, after, rfl⟩ := List.append_of_mem hmem
    refine ⟨before, node, after, rfl, ?_, hnode⟩
    intro earlier hearlier
    exact (setting.exists_plan_iff _).1 ⟨p, hp⟩ earlier (List.mem_append_left _ hearlier)

theorem usedClassless_of_sameDeclarations {document other : Document} (h : SameDeclarations document other) {p : Plan}
    (hp : (setting.plan document).result = .ok p) :
    (setting.plan other).usedClassless = (setting.plan document).usedClassless := by
  rw [Bool.eq_iff_iff, setting.usedClassless_plan_of_ok hp,
    setting.usedClassless_plan_of_ok (setting.plan_of_sameDeclarations h hp)]
  apply exists_congr
  intro node
  rw [and_congr_left_iff]
  rintro ⟨hname, -⟩
  exact h.mem_domains hname

/-- the first node with a fault ends the evaluation of a document, whatever follows it -/
theorem plan_of_error {before : List Node} {node : Node} {fault : Fault}
    (hbefore : ∀ earlier ∈ before, ∃ x, (setting.item earlier).result = .ok x)
    (hnode : (setting.item node).result = .error fault) (after : List Node) :
    setting.plan (before ++ node :: after) =
      ⟨.error fault, (before ++ [node]).flatMap fun n => (setting.item n).remarks⟩ := by
  have hitems := forEach_of_error hbefore hnode after
  rw [plan, andThen_of_error (congrArg Evaluation.result hitems), hitems]

/-- **Nodes of different kinds do not depend on each other, and unknown ones do not count.** If a document is evaluated
to a plan, so is each document with the same declarations, to the same plan and with the same notice. If it is evaluated
to a fault, this is the fault of its first node that has one, and neither the fault nor the notice depends on the nodes
behind it. -/
theorem plan_by_kinds (document : Document) (notice : Notice) :
    (∀ p, (setting.plan document).result = .ok p → ∀ other, SameDeclarations document other →
      (setting.plan other).result = .ok p ∧
        (setting.plan other).noticeAfter notice = (setting.plan document).noticeAfter notice) ∧
    ∀ fault, (setting.plan document).result = .error fault →
      ∃ before node after, document = before ++ node :: after ∧
        (∀ earlier ∈ before, ∃ x, (setting.item earlier).result = .ok x) ∧
        (setting.item node).result = .error fault ∧
        ∀ later, (setting.plan (before ++ node :: later)).result = .error fault ∧
          (setting.plan (before ++ node :: later)).noticeAfter notice = (setting.plan document).noticeAfter notice := by
  constructor
  · intro p hp other hother
    refine ⟨setting.plan_of_sameDeclarations hother hp, ?_⟩
    rw [noticeAfter, noticeAfter, setting.usedClassless_of_sameDeclarations hother hp]
  · intro fault hfault
    have hitems : (forEach setting.item document).result = .error fault := by
      rcases andThen_eq_error.1 hfault with hitems | ⟨items, -, h⟩
      · exact hitems
      · cases h
    obtain ⟨before, node, after, rfl, hbefore, hnode⟩ := forEach_eq_error.1 hitems
    refine ⟨before, node, after, rfl, hbefore, hnode, ?_⟩
    intro later
    rw [setting.plan_of_error hbefore hnode later, setting.plan_of_error hbefore hnode after]
    exact ⟨rfl, rfl⟩

/-- declarations mixed in another way, with an undefined variable in a node between them, and a node behind a fault -/
theorem plan_by_kinds_mixed :
    let registrar : Node := ⟨"registrar", [⟨none, .string "none"⟩, ⟨some "type", .string "NONE"⟩], []⟩
    let nameless : Node := ⟨"dns-provider", [], []⟩
    let classless : Node := ⟨"domain", [⟨some "reverse", .string "192.0.2.0/25"⟩], []⟩
    let unknown : Node := ⟨"note", [⟨none, .string "${x}"⟩], []⟩
    let p : Plan := {
      registrars := [⟨"none", "NONE"⟩]
      domains := [{ name := "0-25.2.0.192.in-addr.arpa" }] }
    let setting : Setting := ⟨{}, false⟩
    SameDeclarations [registrar, classless] [classless, unknown, registrar, unknown] ∧
      (setting.plan [classless, unknown, registrar, unknown]).result = .ok p ∧
      (setting.plan [classless, unknown, registrar, unknown]).noticeAfter false = true ∧
      (setting.plan [registrar, nameless, classless]).result = .error (.missing "dns-provider name") ∧
      (setting.plan [registrar, nameless, classless]).noticeAfter false = false := by
  intro registrar nameless classless unknown p setting
  have hsame : SameDeclarations [registrar, classless] [classless, unknown, registrar, unknown] := by
    constructor <;> simp [registrar, classless, unknown]
  have hp : (setting.plan [registrar, classless]).result = .ok p := by decide +kernel
  have hnotice : (setting.plan [registrar, classless]).noticeAfter false = true := by decide +kernel
  obtain ⟨hplan, hsameNotice⟩ := (setting.plan_by_kinds [registrar, classless] false).1 p hp _ hsame
  have hfault : (setting.plan [registrar, nameless]).result = .error (.missing "dns-provider name") := by decide +kernel
  have hnoNotice : (setting.plan [registrar, nameless]).noticeAfter false = false := by decide +kernel
  obtain ⟨before, node, after, hsplit, -, -, hlater⟩ := (setting.plan_by_kinds [registrar, nameless] false).2 _ hfault
  have hbehind : [registrar, nameless, classless] = before ++ node :: (after ++ [classless]) := by
    rw [← List.cons_append, ← List.append_assoc, ← hsplit]
    rfl
  obtain ⟨hsameFault, hnoNotice'⟩ := hlater (after ++ [classless])
  rw [hbehind]
  exact ⟨hsame, hplan, hsameNotice.trans hnotice, hsameFault, hnoNotice'.trans hnoNotice⟩

end Setting

end ZonePlan
