/-
What more variables change in a strict evaluation: nothing, unless it ends at a variable that it lacks
(`plan_of_extends`).

A strict expansion insists on a value for each reference before it puts in any. So a text that is expanded has no
reference left to which a further variable could give a value, and a text that is not ends the evaluation at an undefined
variable (`expand_of_extends`). From one text the comparison goes on to documents as in development mode.
-/
import ZonePlan.Proofs.Evaluation.Development
import ZonePlan.Proofs.SortedMap

namespace ZonePlan

/-- the values that count for a template are those of the names it refers to -/
theorem Template.fill_congr {t : Template} {value value' : String → List Char}
    (h : ∀ name ∈ t.names, value name = value' name) : t.fill value = t.fill value' := by
  rw [fill, fill]
  apply congrArg fun chars => String.ofList (t.start ++ chars)
  apply List.flatMap_congr
  intro reference hreference
  exact congrArg (· ++ reference.2) (h reference.1 (List.mem_map_of_mem hreference))

namespace Variables

/-! ## More variables -/

/-- each variable with a value in `v` has the same value in `w` -/
def Extends (w v : Variables) : Prop := ∀ name value, v.get? name = some value → w.get? name = some value

variable {v w : Variables}

/-- variables are extended by more variables of the user's choice and more of the environment -/
theorem extends_of_maps
    (henvironment : ∀ name value, v.environment.get? name = some value → w.environment.get? name = some value)
    (hcustom : ∀ name value, v.custom.get? name = some value → w.custom.get? name = some value) : w.Extends v := by
  intro name value hvalue
  unfold get? at hvalue ⊢
  split at hvalue
  · split_ifs at hvalue ⊢
    exact henvironment _ _ hvalue
  · exact hcustom _ _ hvalue

namespace Extends

variable {s : String} (h : w.Extends v) (hdefined : v.undefinedIn s = [])
include h hdefined

/-- the references of a text without undefined variables keep their values -/
theorem get?_eq : ∀ name ∈ (Template.ofString s).names, w.get? name = v.get? name := by
  intro name hname
  cases hvalue : v.get? name with
  | some value => exact h name value hvalue
  | none =>
    have hmem : name ∈ v.undefinedIn s := List.mem_filter.2 ⟨hname, by rw [hvalue]; rfl⟩
    rw [hdefined] at hmem
    cases hmem

theorem undefinedIn_eq_nil : w.undefinedIn s = [] := by
  rw [← hdefined]
  apply List.filter_congr
  intro name hname
  rw [h.get?_eq hdefined name hname]

theorem interpolate_eq : w.interpolate s = v.interpolate s := by
  apply Template.fill_congr
  intro name hname
  rw [h.get?_eq hdefined name hname]

end Extends

end Variables

namespace Setting

open Evaluation

variable {v w : Variables}

/-! ## Strict evaluations -/

/-- with more variables a text is expanded the same way, unless it refers to a variable that was undefined before -/
theorem expand_of_extends (h : w.Extends v) (s : String) :
    SameUnlessUndefined (v.get? · = none) String (expand ⟨v, false⟩ s) (expand ⟨w, false⟩ s) := by
  cases hundefined : v.undefinedIn s with
  | nil =>
    have hv : v.interpolate? s = .ok (v.interpolate s) := by rw [Variables.interpolate?, hundefined]
    have hw : w.interpolate? s = .ok (v.interpolate s) := by
      rw [Variables.interpolate?, h.undefinedIn_eq_nil hundefined, h.interpolate_eq hundefined]
    exact Or.inl (by simp only [expand, hv, hw])
  | cons name names =>
    have hv : v.interpolate? s = .error name := by rw [Variables.interpolate?, hundefined]
    have hname : name ∈ v.undefinedIn s := by
      rw [hundefined]
      exact List.mem_cons_self
    refine Or.inr ⟨name, ?_, Option.isNone_iff_eq_none.1 (List.mem_filter.1 hname).2⟩
    simp only [expand, hv]
    rfl

/-- **More variables never disturb a document that is evaluated without a lack of them**: unless the strict evaluation
ends at an undefined variable, it comes to the same plan or the same fault with any variables that extend the given ones,
and to the same notice. -/
theorem plan_of_extends (hextends : w.Extends v) (document : Kdl.Document) (notice : Notice)
    (hdefined : ∀ name, (plan ⟨v, false⟩ document).result ≠ .error (.undefined name)) :
    (plan ⟨w, false⟩ document).result = (plan ⟨v, false⟩ document).result ∧
      (plan ⟨w, false⟩ document).noticeAfter notice = (plan ⟨v, false⟩ document).noticeAfter notice := by
  have hplan : SameUnlessUndefined (v.get? · = none) Plan (plan ⟨v, false⟩ document) (plan ⟨w, false⟩ document) :=
    plan_congr (sameUnlessUndefined_congruence _) fun s _ => expand_of_extends hextends s
  rcases hplan with hsame | ⟨name, hresult, -⟩
  · rw [hsame]
    exact ⟨rfl, rfl⟩
  · exact absurd hresult (hdefined name)

/-- a name by RFC 4183, a fault that is no lack of variables, and a further variable in a node behind it -/
theorem plan_of_extends_unreached :
    let v : Variables := { custom := .ofList [("block", "192.0.2.0/25")] }
    let w : Variables := {
      environment := .ofList [("HOME", "/")]
      custom := .ofList [("block", "192.0.2.0/25"), ("zone", "example.com")] }
    let document : Kdl.Document := [
      ⟨"domain", [⟨some "reverse", .string "${block}"⟩], []⟩,
      ⟨"registrar", [⟨none, .string "none"⟩], []⟩,
      ⟨"domain", [⟨none, .string "${zone}"⟩], []⟩]
    w.Extends v ∧ (∀ name, (plan ⟨v, false⟩ document).result ≠ .error (.undefined name)) ∧
      (plan ⟨w, false⟩ document).result = .error (.missing "type for registrar 'none'") ∧
      (plan ⟨w, false⟩ document).noticeAfter false = true := by
  intro v w document
  have hextends : w.Extends v := by
    refine Variables.extends_of_maps ?_ ?_
    · intro name value hvalue
      cases hvalue
    · intro name value hvalue
      rw [SortedMap.get?_ofList, List.reverse_singleton, SortedMap.lookup_cons] at hvalue
      split_ifs at hvalue with hname
      · subst hname
        exact hvalue
      · cases hvalue
  have hresult : (plan ⟨v, false⟩ document).result = .error (.missing "type for registrar 'none'") := by
    decide +kernel
  have hdefined : ∀ name, (plan ⟨v, false⟩ document).result ≠ .error (.undefined name) := by
    intro name
    rw [hresult]
    nofun
  obtain ⟨hsame, hnotice⟩ := plan_of_extends hextends document false hdefined
  refine ⟨hextends, hdefined, hsame.trans hresult, ?_⟩
  rw [hnotice]
  decide +kernel

end Setting

end ZonePlan
