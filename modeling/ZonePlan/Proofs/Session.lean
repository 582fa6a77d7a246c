/-
What a print leaves behind, and what another print makes of it.

`printed_again`: a plan that was printed into a file is printed from that file once more with the same text exactly if
none of its zone names ends with a blank; and a plan without errors is its own normal form, again without errors,
under the same condition. Without it a plan may even be refused (`normal_form_refused`): of a domain given as `a .` a
blank is left over, its second normal form is the zone `a`, and that may be there already.

For each stage of a job there is one statement of what it does at the desk over a tree of files: `run_finish` for
validation and what follows it, `run_serialize_output` and `run_serialize_file` for the two ways of putting a text
where it shall go.
-/
import ZonePlan.Proofs.Exchange
import ZonePlan.Proofs.Files
import ZonePlan.Proofs.Zone.NormalForm
import ZonePlan.Session

namespace ZonePlan.Session

open Zone

/-- the desk of a session over a tree of files -/
abbrev virtual : Desk (StateT Notice (StateM Workspace)) := Desk.virtual.withState Notice

variable (w : Workspace) (notice : Notice) (environment : SortedMap String)

/-! ## Stages -/

/-- what is said of a plan when it is validated -/
def heard (p : Plan) : List Utterance :=
  [.event (.stageStarted .validate), .event (.validated p.domains.length (findings p).length)] ++
    if findings p = [] then [] else [.diagnostic (Issue.report (Zone.validate p).2)]

theorem any_isFatal_iff (p : Plan) : (Zone.validate p).2.any Issue.isFatal = true ↔ ¬Harmless (findings p) := by
  simp [Zone.validate, Harmless]

/-- behind loading, a plan is validated, and goes on in normal form unless there is an error -/
theorem run_finish {job : Job} (hraw : job.raw = false) (p : Plan) :
    w.run notice (job.finish (stages virtual environment) virtual p) =
      if Harmless (findings p) then (w.tell (heard p)).run notice (job.serialize virtual (normalize p))
      else ((.error .validation, notice), w.tell (heard p ++ [.event (.validationFailed (findings p).length)])) := by
  have hfatal := any_isFatal_iff p
  have hlength : (Zone.validate p).2.length = (findings p).length := by simp [Zone.validate]
  have hdomains : (Zone.validate p).1.domains.length = p.domains.length := by simp [Zone.validate, Zone.normalize]
  have hnil : (Zone.validate p).2 = [] ↔ findings p = [] := by simp [Zone.validate]
  simp only [Job.finish, hraw, Bool.false_eq_true, if_false, stages, validate, Workspace.run_bind, Workspace.run_say,
    Workspace.run_pure, Workspace.tell_tell, hlength, hdomains, hfatal, heard, ne_eq, ite_not, hnil]
  by_cases hfound : findings p = []
  · have hharmless : Harmless (findings p) := hfound ▸ harmless_nil
    simp only [if_pos hfound, if_pos hharmless]
    rfl
  · by_cases hharmless : Harmless (findings p)
    · simp only [if_neg hfound, if_pos hharmless, Workspace.run_bind, Workspace.run_say, Workspace.tell_tell]
      rfl
    · simp only [if_neg hfound, if_neg hharmless, Workspace.run_bind, Workspace.run_say, Workspace.run_pure,
        Workspace.tell_tell]
      rfl

/-- a text that shall go to the output is said there -/
theorem run_serialize_output {job : Job} (hjob : job.destination = .output) (p : Plan) :
    w.run notice (job.serialize virtual p) =
      ((.ok (), notice), w.tell [.event (.stageStarted .serialize),
        .event (.writing (job.text p).utf8ByteSize job.pretty .output), .output (job.text p ++ "\n")]) := by
  simp only [Job.serialize, Job.deliver, hjob, Workspace.run_bind, Workspace.run_say, Workspace.run_pure,
    Workspace.tell_tell, List.cons_append, List.nil_append]

/-- if a text that shall go to a file can be put there, it stands in the file -/
theorem run_serialize_file {job : Job} {path : String} (hjob : job.destination = .file path) {p : Plan}
    (hok : (w.run notice (job.serialize virtual p)).1.1 = .ok ()) :
    path ≠ "" ∧ (w.run notice (job.serialize virtual p)).2.files.read path = .ok (job.text p) := by
  simp only [Job.serialize, Job.deliver, hjob, Workspace.run_bind, Workspace.run_say, Workspace.tell_tell] at hok ⊢
  cases hwrite : w.files.write path (job.text p) with
  | error fault =>
    rw [Workspace.run_write_error (w := w.tell _) hwrite] at hok
    cases hok
  | ok files =>
    rw [Workspace.run_write_ok (w := w.tell _) hwrite]
    exact ⟨Files.path_ne_empty_of_write hwrite, Files.read_write hwrite⟩

/-! ## Prints -/

/-- a job fails if its plan cannot be loaded -/
theorem run_run_error (job : Job) {loaded : Workspace} {later : Notice} {fault : Fault}
    (h : (w.tell [.event (.stageStarted .load)]).run notice (job.source.load (stages virtual environment) virtual) =
      ((.error fault, later), loaded)) :
    w.run notice (run virtual environment job) = ((.error (.load fault), later), loaded) := by
  simp only [run, Job.run, Workspace.run_bind, Workspace.run_say, h, Workspace.run_pure]

/-- a job goes on with the plan that is loaded -/
theorem run_run_ok (job : Job) {loaded : Workspace} {later : Notice} {p : Plan}
    (h : (w.tell [.event (.stageStarted .load)]).run notice (job.source.load (stages virtual environment) virtual) =
      ((.ok p, later), loaded)) :
    w.run notice (run virtual environment job) =
      loaded.run later (job.finish (stages virtual environment) virtual p) := by
  simp only [run, Job.run, Workspace.run_bind, Workspace.run_say, h]

theorem run_print_error {job : Job} {failure : Failure} {later : Notice} {done : Workspace}
    (h : w.run notice (run virtual environment job) = ((.error failure, later), done)) :
    w.run notice (perform virtual environment (.print job)) =
      ((.error failure, later), done.tell [.diagnostic (failure.message ++ "\n")]) := by
  simp only [perform, print, Workspace.run_bind, h, report, Workspace.run_say, Workspace.run_pure]

theorem run_print_ok {job : Job} {later : Notice} {done : Workspace}
    (h : w.run notice (run virtual environment job) = ((.ok (), later), done)) :
    w.run notice (perform virtual environment (.print job)) = ((.ok (), later), done) := by
  simp only [perform, print, Workspace.run_bind, h, Workspace.run_pure]

/-- a print into a file that succeeds leaves the normal form of a plan without errors there -/
theorem printed (job : Job) {path : String} (hraw : job.raw = false) (hjob : job.destination = .file path)
    (hok : (w.run notice (perform virtual environment (.print job))).1.1 = .ok ()) :
    path ≠ "" ∧ ∃ p, Harmless (findings p) ∧
      (w.run notice (perform virtual environment (.print job))).2.files.read path = .ok (job.text (normalize p)) := by
  rcases hrun : w.run notice (run virtual environment job) with ⟨⟨result, later⟩, done⟩
  cases result with
  | error failure =>
    rw [run_print_error w notice environment hrun] at hok
    cases hok
  | ok =>
    rw [run_print_ok w notice environment hrun]
    rcases hload : (w.tell [.event (.stageStarted .load)]).run notice
      (job.source.load (stages virtual environment) virtual) with ⟨⟨result, middle⟩, loaded⟩
    cases result with
    | error fault =>
      rw [run_run_error w notice environment job hload] at hrun
      cases hrun
    | ok p =>
      rw [run_run_ok w notice environment job hload, run_finish _ _ _ hraw] at hrun
      by_cases hharmless : Harmless (findings p)
      · rw [if_pos hharmless] at hrun
        have hok : ((loaded.tell (heard p)).run middle (job.serialize virtual (normalize p))).1.1 = .ok () := by
          rw [hrun]
        obtain ⟨hpath, hread⟩ := run_serialize_file (loaded.tell (heard p)) middle hjob hok
        rw [hrun] at hread
        exact ⟨hpath, p, hharmless, hread⟩
      · rw [if_neg hharmless] at hrun
        cases hrun

theorem outputs_heard (p : Plan) : Utterance.outputs (heard p) = "" := by
  rw [heard, Utterance.outputs_append]
  split_ifs <;> rfl

variable {source : Source} {path text : String} {p : Plan}

/-- a plan without errors in a file is printed in normal form -/
theorem printed_from (hsource : source.exchange? = some path) (hpath : path ≠ "")
    (hfile : w.files.read path = .ok text) (hread : Exchange.read text = .ok p) (hharmless : Harmless (findings p))
    (pretty : Bool) :
    (w.run notice (perform virtual environment (.print { source, pretty }))).1.1 = .ok () ∧
      Utterance.outputs (w.run notice (perform virtual environment (.print { source, pretty }))).2.said =
        Utterance.outputs w.said ++ (Job.text { source, pretty } (normalize p) ++ "\n") := by
  have hload := Exchange.load_of_read (w := w.tell [.event (.stageStarted .load)]) hsource hpath hfile hread
    (stages virtual environment) notice
  have hrun := run_run_ok w notice environment { source, pretty } hload
  rw [run_finish _ _ _ rfl, if_pos hharmless, run_serialize_output _ _ rfl] at hrun
  rw [run_print_ok w notice environment hrun]
  refine ⟨rfl, ?_⟩
  simp only [Workspace.tell_said, Utterance.outputs_append, outputs_heard]
  simp [Utterance.outputs]

/-- a plan with errors in a file is not printed -/
theorem refused_from (hsource : source.exchange? = some path) (hpath : path ≠ "")
    (hfile : w.files.read path = .ok text) (hread : Exchange.read text = .ok p) (hharmless : ¬Harmless (findings p))
    (pretty : Bool) :
    (w.run notice (perform virtual environment (.print { source, pretty }))).1.1 = .error .validation := by
  have hload := Exchange.load_of_read (w := w.tell [.event (.stageStarted .load)]) hsource hpath hfile hread
    (stages virtual environment) notice
  have hrun := run_run_ok w notice environment { source, pretty } hload
  rw [run_finish _ _ _ rfl, if_neg hharmless] at hrun
  rw [run_print_error w notice environment hrun]

theorem exitCode_eq_zero_iff (result : Except Failure Unit) : exitCode result = 0 ↔ result = .ok () := by
  cases result with
  | error failure => simp [exitCode]
  | ok => simp [exitCode]

/-! ## Printing twice -/

/-- a plan without errors is its own normal form, and again without errors, exactly if no zone name ends with a blank -/
theorem settled_iff (hharmless : Harmless (findings p)) :
    Harmless (findings (normalize p)) ∧ normalize (normalize p) = normalize p ↔ Settled (normalize p) := by
  have hvalid := (harmless_findings p).1 hharmless
  rw [← normalize_normalize hvalid, harmless_findings]
  constructor
  · exact fun h => h.2
  · intro h
    exact ⟨h.symm ▸ hvalid, h⟩

/-- a plan in a file is printed with the text of that file exactly if it is its own normal form and has no errors -/
theorem printed_from_iff {style : Json.Style} (hsource : source.exchange? = some path) (hpath : path ≠ "")
    (hfile : w.files.read path = .ok (Exchange.render style p)) (hsaid : w.said = []) (pretty : Bool) :
    (w.run notice (perform virtual environment (.print { source, pretty }))).1.1 = .ok () ∧
        Utterance.outputs (w.run notice (perform virtual environment (.print { source, pretty }))).2.said =
          Job.text { source, pretty } p ++ "\n" ↔
      Harmless (findings p) ∧ normalize p = p := by
  have hread := Exchange.read_render style p
  by_cases hharmless : Harmless (findings p)
  · obtain ⟨hok, houtputs⟩ := printed_from w notice environment hsource hpath hfile hread hharmless pretty
    have hempty : Utterance.outputs w.said = "" := by
      rw [hsaid]
      rfl
    rw [houtputs, hempty, String.empty_append, String.append_left_inj]
    constructor
    · rintro ⟨-, htext⟩
      exact ⟨hharmless, Exchange.render_injective htext⟩
    · rintro ⟨-, hnormal⟩
      exact ⟨hok, by rw [hnormal]⟩
  · rw [refused_from w notice environment hsource hpath hfile hread hharmless pretty]
    refine iff_of_false ?_ fun h => hharmless h.1
    rintro ⟨h, -⟩
    cases h

/-- **A plan that was printed is printed again as it is** exactly if no name of its zones ends with a blank. The first
half says so of normal forms, the second of two prints with any settings, of which the first writes the file that the
second reads. -/
theorem printed_again (source source' : Source) (path : String) (pretty : Bool) (notice' : Notice)
    (environment' : SortedMap String) (q : Plan) :
    ((∀ i ∈ (Zone.validate q).2, i.isFatal = false) →
      ((∀ i ∈ (Zone.validate (Zone.validate q).1).2, i.isFatal = false) ∧
        (Zone.validate (Zone.validate q).1).1 = (Zone.validate q).1 ↔ Settled (Zone.validate q).1)) ∧
    let first := w.run notice (perform virtual environment (.print { source, pretty, destination := .file path }))
    exitCode first.1.1 = 0 →
      ∃ text p, first.2.files.read path = .ok text ∧ Exchange.read text = .ok p ∧
        (source'.exchange? = some path →
          let second := Workspace.run { files := first.2.files } notice'
            (perform virtual environment' (.print { source := source', pretty }))
          (exitCode second.1.1 = 0 ∧ Utterance.outputs second.2.said = text ++ "\n" ↔ Settled p)) := by
  constructor
  · intro hissues
    have hissues' : ∀ p : Plan, (∀ i ∈ (Zone.validate p).2, i.isFatal = false) ↔ Harmless (findings p) :=
      fun p => List.forall_mem_map
    rw [hissues'] at hissues ⊢
    exact settled_iff hissues
  · intro first hfirst
    obtain ⟨hpath, p, hharmless, hfile⟩ := printed w notice environment { source, pretty, destination := .file path }
      rfl rfl ((exitCode_eq_zero_iff _).1 hfirst)
    refine ⟨_, normalize p, hfile, Exchange.read_render _ _, fun hsource => ?_⟩
    intro second
    rw [exitCode_eq_zero_iff, ← settled_iff hharmless]
    exact printed_from_iff { files := first.2.files } notice' environment' hsource hpath hfile rfl pretty

/-- a domain given with a blank and a point at the end of its name, and a record given by its full name -/
theorem printed_again_delegation :
    let q : Plan := {
      registrars := [⟨"r", ""⟩]
      domains := [{ name := "A. ", registrar := "r", records := [{ kind := "ns", label := "W.a.", target := "@" }] }] }
    let w : Workspace := { files := ⟨[(["plan"], .text
      "[[[\"r\",\"\"]],[],[[\"A. \",\"r\",{},[[\"ns\",\"W.a.\",\"@\"]]]]]")]⟩ }
    let first := w.run false (perform virtual {} (.print
      { source := { path := "", exchange? := some "plan" }, destination := .file "normal" }))
    let second := Workspace.run { files := first.2.files } true (perform virtual {} (.print
      { source := { path := "", exchange? := some "normal" } }))
    (∀ i ∈ (Zone.validate q).2, i.isFatal = false) ∧ (Zone.validate (Zone.validate q).1).1 = (Zone.validate q).1 ∧
      exitCode first.1.1 = 0 ∧ exitCode second.1.1 = 0 := by
  intro q w first second
  have hissues : ∀ i ∈ (Zone.validate q).2, i.isFatal = false := by decide +kernel
  have hsettled : Settled (Zone.validate q).1 := by decide +kernel
  have hfirst : exitCode first.1.1 = 0 := by decide +kernel
  have hfile : first.2.files.read "normal" = .ok (Exchange.render .compact (Zone.validate q).1) := by decide +kernel
  obtain ⟨hform, hprint⟩ := printed_again w false {} { path := "", exchange? := some "plan" }
    { path := "", exchange? := some "normal" } "normal" false true {} q
  obtain ⟨text, p, htext, hread, hsecond⟩ := hprint hfirst
  have hp : p = (Zone.validate q).1 := by
    have hsame := Except.ok.inj (htext.symm.trans hfile)
    rw [hsame, Exchange.read_render] at hread
    exact (Except.ok.inj hread).symm
  exact ⟨hissues, ((hform hissues).2 hsettled).2, hfirst, ((hsecond rfl).2 (hp ▸ hsettled)).1⟩

/-- a blank in front of the point at the end of a name is left over, and only the next time it is taken off: then two
zones have one name -/
theorem normal_form_refused :
    ¬∀ p : Plan, (∀ i ∈ (Zone.validate p).2, i.isFatal = false) →
      (∀ i ∈ (Zone.validate (Zone.validate p).1).2, i.isFatal = false) ∧
        (Zone.validate (Zone.validate p).1).1 = (Zone.validate p).1 := by
  intro h
  have hagain := (h {
    registrars := [⟨"none", "NONE"⟩]
    domains := [{ name := "a .", registrar := "none" }, { name := "a", registrar := "none" }] } (by decide +kernel)).1
  revert hagain
  decide +kernel

end ZonePlan.Session
