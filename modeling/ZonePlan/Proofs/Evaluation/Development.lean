/-
What development mode changes: undefined variables are forgiven, and nothing else (`development_forgives`).

Whatever a document holds, both modes come to the same plan or the same fault and to the same notice, up to the first
undefined variable that is needed. That one ends the strict evaluation, and a text of the document refers to it. The
lenient evaluation never ends at one.

The two halves are two comparisons of evaluations (`SameUnlessUndefined`, `Forgiving`). Each goes on from parts to
wholes, so it is enough that it holds of the expansion of one text.
-/
import ZonePlan.Proofs.Evaluation.Success
import ZonePlan.Proofs.Template
import ZonePlan.Session

namespace ZonePlan

namespace Evaluation

variable {α β : Type}

/-- the notice of a session after an evaluation -/
def noticeAfter (x : Evaluation α) (notice : Notice) : Notice :=
  ((Session.note x.usedClassless : StateT Notice Id Unit).run notice).2

/-! ## Comparisons -/

/-- two evaluations are the same, or the first ends at an undefined variable of a kind -/
def SameUnlessUndefined (P : String → Prop) (α : Type) (x y : Evaluation α) : Prop :=
  x = y ∨ ∃ n, x.result = .error (.undefined n) ∧ P n

/-- the second of two evaluations does not end at an undefined variable -/
def Forgiving (α : Type) (_ y : Evaluation α) : Prop := ∀ n, y.result ≠ .error (.undefined n)

theorem sameUnlessUndefined_congruence (P : String → Prop) : Congruence (SameUnlessUndefined P) where
  ok a := Or.inl rfl
  fail fault _ := Or.inl rfl
  remark r := Or.inl rfl
  andThen := by
    rintro α β x y f g (rfl | ⟨n, hx, hn⟩) hfg
    · cases hx : x.result with
      | error fault =>
        rw [andThen_of_error hx, andThen_of_error hx]
        exact Or.inl rfl
      | ok a =>
        rw [andThen_of_ok hx, andThen_of_ok hx]
        rcases hfg a with hsame | ⟨n, hf, hn⟩
        · rw [hsame]
          exact Or.inl rfl
        · exact Or.inr ⟨n, hf, hn⟩
    · rw [andThen_of_error hx]
      exact Or.inr ⟨n, rfl, hn⟩

theorem forgiving_congruence : Congruence Forgiving where
  ok a _ := nofun
  fail fault h n hfault := h n (Except.error.inj hfault)
  remark r _ := nofun
  andThen := by
    intro α β x y f g hy hfg n
    cases hresult : y.result with
    | error fault =>
      rw [andThen_of_error hresult]
      intro h
      exact hy n (hresult.trans (congrArg Except.error (Except.error.inj h)))
    | ok a =>
      rw [andThen_of_ok hresult]
      exact hfg a n

end Evaluation

namespace Setting

open Evaluation

/-! ## One text -/

/-- a text is expanded in both modes the same way, unless it refers to an undefined variable -/
theorem expand_sameUnlessUndefined (scope : Variables) (s : String) :
    SameUnlessUndefined (· ∈ scope.undefinedIn s) String (expand ⟨scope, false⟩ s) (expand ⟨scope, true⟩ s) := by
  cases hundefined : scope.undefinedIn s with
  | nil =>
    have hdefined : scope.interpolate? s = .ok (scope.interpolate s) := by rw [Variables.interpolate?, hundefined]
    exact Or.inl (by simp only [expand, hdefined])
  | cons n ns =>
    have hmissing : scope.interpolate? s = .error n := by rw [Variables.interpolate?, hundefined]
    refine Or.inr ⟨n, ?_, List.mem_cons_self⟩
    simp only [expand, hmissing]
    rfl

theorem expand_forgiving (scope : Variables) (s : String) :
    Forgiving String (expand ⟨scope, false⟩ s) (expand ⟨scope, true⟩ s) := by
  intro n
  cases hresult : scope.interpolate? s with
  | ok text =>
    simp only [expand, hresult]
    nofun
  | error missing =>
    simp only [expand, hresult]
    nofun

/-! ## Documents -/

/-- **Development mode forgives undefined variables and changes nothing else**: with the same variables, the strict and
the lenient evaluation of a document have one result and leave one notice, or the strict one ends at an undefined
variable that a text of the document refers to; the lenient one never does. -/
theorem development_forgives (scope : Variables) (document : Kdl.Document) (notice : Notice) :
    let strict := plan ⟨scope, false⟩ document
    let lenient := plan ⟨scope, true⟩ document
    ((strict.result = lenient.result ∧ strict.noticeAfter notice = lenient.noticeAfter notice) ∨
      ∃ n, strict.result = .error (.undefined n) ∧ scope.get? n = none ∧
        ∃ s ∈ Kdl.Document.texts document, n ∈ (Template.ofString s).names ∧ Template.written n <:+: s.toList) ∧
    ∀ n, lenient.result ≠ .error (.undefined n) := by
  intro strict lenient
  refine ⟨?_, plan_congr forgiving_congruence fun s _ => expand_forgiving scope s⟩
  -- the undefined variables that can end the strict evaluation are those of some text of the document
  let Needed (n : String) : Prop := ∃ s ∈ Kdl.Document.texts document, n ∈ scope.undefinedIn s
  have hplan : SameUnlessUndefined Needed Plan strict lenient := by
    refine plan_congr (sameUnlessUndefined_congruence Needed) fun s hs => ?_
    rcases expand_sameUnlessUndefined scope s with hsame | ⟨n, hresult, hn⟩
    · exact Or.inl hsame
    · exact Or.inr ⟨n, hresult, s, hs, hn⟩
  rcases hplan with hsame | ⟨n, hresult, s, hs, hn⟩
  · exact Or.inl ⟨congrArg Evaluation.result hsame, congrArg (noticeAfter · notice) hsame⟩
  · obtain ⟨hname, hundefined⟩ := List.mem_filter.1 hn
    refine Or.inr ⟨n, hresult, Option.isNone_iff_eq_none.1 hundefined, s, hs, hname, ?_⟩
    exact Template.written_infix_of_mem_names hname

end Setting

end ZonePlan
