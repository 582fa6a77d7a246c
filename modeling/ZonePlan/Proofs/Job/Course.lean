/-
The course of a job, whatever its stages do.

The stages are arbitrary: what they answer may depend on all files and on a state of their own, which they change as
they like. They are not given the streams and cannot write files. Every question that a job puts to a stage or to the
files is noted with its answer (`Step`).

The course of a job is the course of its parts one after another. For each part there is one relation with one case for
each way in which the part can go (`Loads`, `Serializes`, `Finishes`, `Runs`), and one statement that it goes in one of
them; `takes_run` says so of the whole.
-/
import Mathlib
import ZonePlan.Job

namespace ZonePlan.Job

/-! ## Steps -/

/-- something that a job asks of its stages or of the files, with the answer -/
inductive Step where
  | evaluated (path : String) (development : Bool) (custom : SortedMap String) (answer : Except Fault Plan)
  | completed (domains : List Domain) (answer : List Domain × Option Fault)
  | validated (plan : Plan) (answer : Plan × List Issue)
  | read (path : String) (answer : Except FileFault String)
  | written (path text : String) (answer : Except FileFault Unit)

/-! ## Noting the steps -/

/-- the state of stages, and the steps of a job so far -/
structure Ledger (σ : Type) where
  own : σ
  steps : List Step := []

variable {σ α β : Type}

/-- the answer of the files as a step -/
def use (step : α → Step) (x : StateM Workspace α) : StateT (Ledger σ) (StateM Workspace) α :=
  fun ledger w =>
    let (answer, w) := x w
    ((answer, { ledger with steps := ledger.steps ++ [step answer] }), w)

/-- the desk over a tree of files, of which every answer is noted -/
def notingDesk : Desk (StateT (Ledger σ) (StateM Workspace)) where
  read path := use (.read path) (Desk.virtual.read path)
  write path text := use (.written path text) (Desk.virtual.write path text)
  say := (Desk.virtual.withState (Ledger σ)).say

variable (stages : Stages (ReaderT Files (StateM σ))) (w : Workspace) (ledger : Ledger σ)

@[simp] theorem run_read (path : String) :
    w.run ledger (notingDesk.read path) =
      ((w.files.read path, ⟨ledger.own, ledger.steps ++ [.read path (w.files.read path)]⟩), w) := rfl

@[simp] theorem run_say (u : Utterance) : w.run ledger (notingDesk.say u) = (((), ledger), w.tell [u]) := rfl

theorem run_write_ok {path text : String} {files : Files} (h : w.files.write path text = .ok files) :
    w.run ledger (notingDesk.write path text) =
      ((.ok (), ⟨ledger.own, ledger.steps ++ [.written path text (.ok ())]⟩), { w with files }) :=
  congrArg (fun done : Except FileFault Unit × Workspace =>
    ((done.1, (⟨ledger.own, ledger.steps ++ [Step.written path text done.1]⟩ : Ledger σ)), done.2))
    (Workspace.write_virtual_ok h)

theorem run_write_error {path text : String} {fault : FileFault} (h : w.files.write path text = .error fault) :
    w.run ledger (notingDesk.write path text) =
      ((.error fault, ⟨ledger.own, ledger.steps ++ [.written path text (.error fault)]⟩), w) :=
  congrArg (fun done : Except FileFault Unit × Workspace =>
    ((done.1, (⟨ledger.own, ledger.steps ++ [Step.written path text done.1]⟩ : Ledger σ)), done.2))
    (Workspace.write_virtual_error h)

/-! ## Courses -/

/-- what comes of a part of a job -/
structure Course (α : Type) where
  steps : List Step
  said : List Utterance
  files : Files
  result : α

/-- a part of a job takes a course -/
def Takes (x : StateT (Ledger σ) (StateM Workspace) α) (c : Course α) : Prop :=
  ∃ own, w.run ledger x = ((c.result, ⟨own, ledger.steps ++ c.steps⟩), ⟨c.files, w.said ++ c.said⟩)

/-- the path of the plan that is read, if one is -/
def planPath? (source : Source) : Option String :=
  source.exchange?.filter (· ≠ "")

/-- the step of evaluating a source -/
def evaluation (source : Source) (answer : Except Fault Plan) : Step :=
  .evaluated source.path source.development (Variables.ofAssignments source.assignments) answer

/-- the ways in which loading can go -/
inductive Loads (source : Source) (files : Files) : Course (Except Fault Plan) → Prop
  | nothing (hexchange : planPath? source = none) (hpath : source.path = "") :
    Loads source files ⟨[], [], files, .error .noSource⟩
  | unreadable {path : String} {fault : FileFault} (hexchange : planPath? source = some path)
    (hfile : files.read path = .error fault) :
    Loads source files ⟨[.read path (.error fault)], [.event (.loadingExchange path)], files,
      .error (.executing path (.file fault))⟩
  | garbled {path text : String} {fault : Json.Fault} (hexchange : planPath? source = some path)
    (hfile : files.read path = .ok text) (hread : Exchange.read text = .error fault) :
    Loads source files ⟨[.read path (.ok text)], [.event (.loadingExchange path)], files,
      .error (.executing path (.exchange fault))⟩
  | exchanged {path text : String} {p : Plan} (hexchange : planPath? source = some path)
    (hfile : files.read path = .ok text) (hread : Exchange.read text = .ok p) :
    Loads source files ⟨[.read path (.ok text)], [.event (.loadingExchange path)], files, .ok p⟩
  | unevaluated (fault : Fault) (hexchange : planPath? source = none) (hpath : source.path ≠ "") :
    Loads source files ⟨[evaluation source (.error fault)], [], files, .error (.executing source.path fault)⟩
  | incomplete (p : Plan) (domains : List Domain) (fault : Fault) (hexchange : planPath? source = none)
    (hpath : source.path ≠ "") :
    Loads source files ⟨[evaluation source (.ok p), .completed p.domains (domains, some fault)], [], files,
      .error fault⟩
  | completed (p : Plan) (domains : List Domain) (hexchange : planPath? source = none)
    (hpath : source.path ≠ "") :
    Loads source files ⟨[evaluation source (.ok p), .completed p.domains (domains, none)],
      [.event (.loaded source.path domains.length)], files, .ok { p with domains }⟩

/-- what is said when a text is about to be put where it shall go -/
def announced (job : Job) (p : Plan) : List Utterance :=
  [.event (.stageStarted .serialize), .event (.writing (job.text p).utf8ByteSize job.pretty job.destination)]

/-- the ways in which the last stage can go -/
inductive Serializes (job : Job) (p : Plan) (files : Files) : Course (Except Failure Unit) → Prop
  | output (h : job.destination = .output) :
    Serializes job p files ⟨[], announced job p ++ [.output (job.text p ++ "\n")], files, .ok ()⟩
  | written {path : String} {after : Files} (h : job.destination = .file path)
    (hwrite : files.write path (job.text p) = .ok after) :
    Serializes job p files ⟨[.written path (job.text p) (.ok ())], announced job p, after, .ok ()⟩
  | unwritten {path : String} {fault : FileFault} (h : job.destination = .file path)
    (hwrite : files.write path (job.text p) = .error fault) :
    Serializes job p files ⟨[.written path (job.text p) (.error fault)], announced job p, files,
      .error (.writing path fault)⟩
  | discarded (h : job.destination = .discard) : Serializes job p files ⟨[], announced job p, files, .ok ()⟩

/-- what is said of issues -/
def reported (issues : List Issue) : List Utterance :=
  if issues = [] then [] else [.diagnostic (Issue.report issues)]

/-- the ways in which a job can go once its plan is loaded -/
inductive Finishes (job : Job) (p : Plan) (files : Files) : Course (Except Failure Unit) → Prop
  | raw {c : Course (Except Failure Unit)} (hraw : job.raw = true) (h : Serializes job p files c) :
    Finishes job p files ⟨c.steps, .event .skippingValidation :: c.said, c.files, c.result⟩
  | accepted {q : Plan} {issues : List Issue} {c : Course (Except Failure Unit)} (hraw : job.raw = false)
    (hissues : issues.any Issue.isFatal = false) (h : Serializes job q files c) :
    Finishes job p files ⟨.validated p (q, issues) :: c.steps,
      .event (.stageStarted .validate) :: reported issues ++ c.said, c.files, c.result⟩
  | refused (q : Plan) {issues : List Issue} (hraw : job.raw = false) (hissues : issues.any Issue.isFatal = true) :
    Finishes job p files ⟨[.validated p (q, issues)],
      .event (.stageStarted .validate) :: reported issues ++ [.event (.validationFailed issues.length)], files,
      .error .validation⟩

end ZonePlan.Job
