/-
Sessions: jobs with the standard stages, one after another. A session remembers one thing, its notice: whether a reverse
zone has been named by RFC 4183 since it began. Nothing takes the notice back, and a check tells its reader about it.

A command is a job with its manner of speaking. `print` puts the text of a plan on the output and all else on the
diagnostics; `check` discards the text and speaks on the output only.
-/
import ZonePlan.Evaluation
import ZonePlan.Job
import ZonePlan.RecordFields
import ZonePlan.Zone.Normalization
namespace ZonePlan

/-- whether a reverse zone has been named by RFC 4183 -/
abbrev Notice := Bool

/-- what a check tells its reader about a notice -/
def Notice.advice? (notice : Notice) : Option String :=
  if notice then some ReverseZone.advisory else none

/-- the event of a remark -/
def Remark.event : Remark → Log.Event
  | .leftUnexpanded variableName => .leftUnexpanded variableName
  | .classless block zone => .namedClassless block zone

inductive Command where
  /-- a job whose text is wanted -/
  | print (job : Job)
  /-- a job whose issues are wanted -/
  | check (source : Source)
deriving DecidableEq, Repr

/-- the job of a check -/
def Job.forCheck (source : Source) : Job :=
  { source, destination := .discard }

namespace Session

variable {m : Type → Type} [Monad m]

/-- the notice after an evaluation -/
def note (used : Bool) : StateT Notice m Unit :=
  modify (· || used)

/-- the plan of a source file -/
def evaluate (desk : Desk (StateT Notice m)) (environment : SortedMap String) (path : String) (development : Bool)
    (custom : SortedMap String) : StateT Notice m (Except Fault Plan) := do
  desk.say (.event (.evaluating path development custom.size))
  match ← desk.read path with
  | .error fault => return .error (.file fault)
  | .ok text =>
    let evaluation := Setting.evaluate ⟨⟨environment, custom⟩, development⟩ text
    evaluation.remarks.forM fun r => desk.say (.event r.event)
    note evaluation.usedClassless
    match evaluation.result with
    | .error fault => return .error fault
    | .ok plan =>
      desk.say (.event (.evaluated plan.domains.length))
      return .ok plan

/-- a plan in normal form and the issues of its validation -/
def validate (desk : Desk (StateT Notice m)) (plan : Plan) : StateT Notice m (Plan × List Issue) := do
  let (plan, issues) := Zone.validate plan
  desk.say (.event (.validated plan.domains.length issues.length))
  return (plan, issues)

/-- the standard stages -/
def stages (desk : Desk (StateT Notice m)) (environment : SortedMap String) : Stages (StateT Notice m) where
  evaluate := evaluate desk environment
  complete domains := return Domain.splitAll domains
  validate := validate desk

/-- a job with the standard stages -/
def run (desk : Desk (StateT Notice m)) (environment : SortedMap String) (job : Job) :
    StateT Notice m (Except Failure Unit) :=
  job.run (stages desk environment) desk

/-- a way of speaking on the output only, where what is meant for the output is not said -/
def onOutput (desk : Desk m) : Utterance → m Unit
  | .output _ => return ()
  | .diagnostic s => desk.say (.output s)
  | .event e => desk.say (.event e)

def print (desk : Desk (StateT Notice m)) (environment : SortedMap String) (job : Job) :
    StateT Notice m (Except Failure Unit) :=
  run desk environment job

def check (desk : Desk (StateT Notice m)) (environment : SortedMap String) (source : Source) :
    StateT Notice m (Except Failure Unit) := do
  let result ← run (desk.saying (onOutput desk)) environment (.forCheck source)
  match Notice.advice? (← get) with
  | some text => desk.say (.output text)
  | none => pure ()
  match result with
  | .ok () => desk.say (.output "No errors.\n")
  | .error _ => pure ()
  return result

/-- a command's message about its failure -/
def report (desk : Desk m) (command : Command) (failure : Failure) : m Unit :=
  let line := failure.message ++ "\n"
  match command with
  | .print _ => desk.say (.diagnostic line)
  | .check _ => desk.say (.output line)

/-- a command and its message if it fails -/
def perform (desk : Desk (StateT Notice m)) (environment : SortedMap String) (command : Command) :
    StateT Notice m (Except Failure Unit) := do
  let result ← match command with
    | .print job => print desk environment job
    | .check source => check desk environment source
  match result with
  | .ok () => pure ()
  | .error failure => report desk command failure
  return result

end Session

/-- the exit code of a command -/
def exitCode : Except Failure Unit → Nat
  | .ok () => 0
  | .error _ => 1

end ZonePlan
