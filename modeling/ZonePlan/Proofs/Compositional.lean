/-
Relations between sessions at two desks that go from the parts to the whole.

What is common to two sessions is often common to any two programs that are put together in the same way from parts
which have it in common. Such a relation is compositional: it holds between the same answers, between programs in
sequence, and between telling of the same event and reading the same file at the two desks. It then holds between the
two evaluations of a source, provided that it holds between two notes (`Compositional.evaluate`), and so between the two
ways of loading it (`Compositional.load`); and from there on as long as it holds between the reports of the same issues
and between the last stages (`Compositional.finish`).

A property of sessions at one desk is a relation of which one side does not count.
-/
import Mathlib.Tactic.SplitIfs
import ZonePlan.Session

namespace ZonePlan

variable {m : Type → Type} [Monad m]

/-- what is done with the answer of an evaluation -/
def Source.settle (stages : Stages m) (desk : Desk m) (source : Source) : Except Fault Plan → m (Except Fault Plan)
  | .error fault => return .error (.executing source.path fault)
  | .ok plan => do
    match ← stages.complete plan.domains with
    | (_, some fault) => return .error fault
    | (domains, none) =>
      desk.say (.event (.loaded source.path domains.length))
      return .ok { plan with domains }

theorem Source.evaluate_eq (stages : Stages m) (desk : Desk m) (source : Source) :
    source.evaluate stages desk =
      stages.evaluate source.path source.development (Variables.ofAssignments source.assignments) >>=
        source.settle stages desk := rfl

namespace Session

/-- a relation between programs at two desks goes from the parts to the whole -/
structure Compositional (desk desk' : Desk (StateT Notice m))
    (R : ∀ {α : Type}, StateT Notice m α → StateT Notice m α → Prop) : Prop where
  pure {α : Type} (a : α) : R (pure a) (pure a)
  bind {α β : Type} {x y : StateT Notice m α} {f g : α → StateT Notice m β} :
    R x y → (∀ a, R (f a) (g a)) → R (x >>= f) (y >>= g)
  event (e : Log.Event) : R (desk.say (.event e)) (desk'.say (.event e))
  read (path : String) : R (desk.read path) (desk'.read path)

namespace Compositional

variable {desk desk' : Desk (StateT Notice m)} {R : ∀ {α : Type}, StateT Notice m α → StateT Notice m α → Prop}
  (h : Compositional desk desk' R)

include h

theorem remarks (rs : List Remark) :
    R (rs.forM fun r => desk.say (.event r.event)) (rs.forM fun r => desk'.say (.event r.event)) := by
  induction rs with
  | nil => exact h.pure ()
  | cons r rs ih => exact h.bind (h.event r.event) fun _ => ih

/-! ## Loading -/

theorem loadExchange (path : String) : R (Source.loadExchange desk path) (Source.loadExchange desk' path) := by
  refine h.bind (h.event _) fun _ => h.bind (h.read path) fun answer => ?_
  cases answer with
  | error fault => exact h.pure _
  | ok text =>
    dsimp only
    cases Exchange.read text with
    | error fault => exact h.pure _
    | ok p => exact h.pure _

variable (environment : SortedMap String)

theorem settle (source : Source) (answer : Except Fault Plan) :
    R (source.settle (stages desk environment) desk answer)
      (source.settle (stages desk' environment) desk' answer) := by
  cases answer with
  | error fault => exact h.pure _
  | ok p =>
    refine h.bind (h.pure _) fun completed => ?_
    rcases completed with ⟨domains, _ | fault⟩
    · exact h.bind (h.event _) fun _ => h.pure _
    · exact h.pure _

theorem evaluate (hnote : ∀ used, R (note used) (note used)) (path : String) (development : Bool)
    (custom : SortedMap String) :
    R (evaluate desk environment path development custom) (evaluate desk' environment path development custom) := by
  refine h.bind (h.event _) fun _ => h.bind (h.read path) fun answer => ?_
  cases answer with
  | error fault => exact h.pure _
  | ok text =>
    refine h.bind (h.remarks _) fun _ => h.bind (hnote _) fun _ => ?_
    cases (Setting.evaluate ⟨⟨environment, custom⟩, development⟩ text).result with
    | error fault => exact h.pure _
    | ok p => exact h.bind (h.event _) fun _ => h.pure _

/-- two sessions that take notes alike load a source alike -/
theorem load (hnote : ∀ used, R (note used) (note used)) (source : Source) :
    R (source.load (stages desk environment) desk) (source.load (stages desk' environment) desk') := by
  unfold Source.load
  cases source.exchange?.filter (· ≠ "") with
  | some path => exact h.loadExchange path
  | none =>
    dsimp only
    split_ifs
    · exact h.pure _
    · rw [Source.evaluate_eq, Source.evaluate_eq]
      exact h.bind (h.evaluate environment hnote _ _ _) fun answer => h.settle environment source answer

/-! ## Validating -/

theorem validate (p : Plan) : R (validate desk p) (validate desk' p) :=
  h.bind (h.event _) fun _ => h.pure _

/-- two jobs that report and serialize alike go on alike once a plan is loaded -/
theorem finish {job job' : Job} (hraw : job'.raw = job.raw)
    (hreport : ∀ issues, issues ≠ [] →
      R (desk.say (.diagnostic (Issue.report issues))) (desk'.say (.diagnostic (Issue.report issues))))
    (hserialize : ∀ p, R (job.serialize desk p) (job'.serialize desk' p)) (p : Plan) :
    R (job.finish (stages desk environment) desk p) (job'.finish (stages desk' environment) desk' p) := by
  unfold Job.finish
  rw [hraw]
  split_ifs
  · exact h.bind (h.event _) fun _ => hserialize p
  · refine h.bind (h.event _) fun _ => h.bind (h.validate p) fun validated => ?_
    obtain ⟨q, issues⟩ := validated
    dsimp only
    split_ifs with hissues
    · exact h.bind (hreport issues hissues) fun _ => h.bind (h.event _) fun _ => h.pure _
    · exact h.bind (hreport issues hissues) fun _ => hserialize q
    · exact h.bind (h.event _) fun _ => h.pure _
    · exact hserialize q

end Compositional

end Session

end ZonePlan
