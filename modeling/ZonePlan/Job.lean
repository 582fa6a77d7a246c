/-
Jobs: from a source to the text of a plan. The plan is loaded, validated unless the job is raw, and put where it shall go.

The stages of a job are given from outside (`Stages`), in any world of effects. They are taken in order, each at most
once, and the first failure ends the job; nothing is written then, but what has been said of the issues remains said.
-/
import ZonePlan.Desk
import ZonePlan.Exchange
import ZonePlan.Fault
import ZonePlan.Issue
import ZonePlan.Variables
namespace ZonePlan

/-- where a plan comes from -/
structure Source where
  /-- a source to be evaluated -/
  path : String
  /-- a plan in its exchange form, which is read in the place of the source unless the path is empty -/
  exchange? : Option String := none
  development : Bool := false
  /-- assignments to the variables of the source -/
  assignments : List String := []
deriving DecidableEq, Repr

structure Job where
  source : Source
  /-- without validation -/
  raw : Bool := false
  pretty : Bool := false
  destination : Destination := .output
deriving DecidableEq, Repr

/-- why a job fails -/
inductive Failure where
  | load (fault : Fault)
  | validation
  | writing (path : String) (fault : FileFault)
deriving DecidableEq, Repr

def Failure.message : Failure → String
  | .load fault => fault.message
  | .validation => "exiting due to validation errors"
  | .writing path fault => s!"writing {path}: {fault.message}"

/-- the stages that a job goes through -/
structure Stages (m : Type → Type) where
  /-- the plan of a source, by its path, mode and variables -/
  evaluate : String → Bool → SortedMap String → m (Except Fault Plan)
  /-- the domains of an evaluated plan with all their fields, as far as they can be had -/
  complete : List Domain → m (List Domain × Option Fault)
  /-- a plan in normal form and the issues of its validation -/
  validate : Plan → m (Plan × List Issue)

variable {m : Type → Type} [Monad m]

/-! ## Loading -/

namespace Source

/-- the plan of a file in exchange form -/
def loadExchange (desk : Desk m) (path : String) : m (Except Fault Plan) := do
  desk.say (.event (.loadingExchange path))
  match ← desk.read path with
  | .error fault => return .error (.executing path (.file fault))
  | .ok text =>
    match Exchange.read text with
    | .error fault => return .error (.executing path (.exchange fault))
    | .ok plan => return .ok plan

/-- the completed plan of an evaluated source -/
def evaluate (stages : Stages m) (desk : Desk m) (source : Source) : m (Except Fault Plan) := do
  match ← stages.evaluate source.path source.development (Variables.ofAssignments source.assignments) with
  | .error fault => return .error (.executing source.path fault)
  | .ok plan =>
    match ← stages.complete plan.domains with
    | (_, some fault) => return .error fault
    | (domains, none) =>
      desk.say (.event (.loaded source.path domains.length))
      return .ok { plan with domains }

/-- the plan of whatever there is to load from -/
def load (stages : Stages m) (desk : Desk m) (source : Source) : m (Except Fault Plan) :=
  match source.exchange?.filter (· ≠ "") with
  | some path => loadExchange desk path
  | none => if source.path = "" then return .error .noSource else source.evaluate stages desk

end Source

/-! ## Running -/

namespace Job

/-- the text that a job makes of a plan -/
def text (job : Job) (plan : Plan) : String :=
  Exchange.render (if job.pretty then .pretty else .compact) plan

/-- a text, put where it shall go -/
def deliver (desk : Desk m) (job : Job) (text : String) : m (Except Failure Unit) :=
  match job.destination with
  | .output => do
    desk.say (.output (text ++ "\n"))
    return .ok ()
  | .file path => do
    match ← desk.write path text with
    | .ok () => return .ok ()
    | .error fault => return .error (.writing path fault)
  | .discard => return .ok ()

/-- the last stage of a job -/
def serialize (desk : Desk m) (job : Job) (plan : Plan) : m (Except Failure Unit) := do
  desk.say (.event (.stageStarted .serialize))
  let text := job.text plan
  desk.say (.event (.writing text.utf8ByteSize job.pretty job.destination))
  job.deliver desk text

/-- the stages of a job behind loading -/
def finish (stages : Stages m) (desk : Desk m) (job : Job) (plan : Plan) : m (Except Failure Unit) := do
  if job.raw then
    desk.say (.event .skippingValidation)
    job.serialize desk plan
  else
    desk.say (.event (.stageStarted .validate))
    let (plan, issues) ← stages.validate plan
    if issues ≠ [] then desk.say (.diagnostic (Issue.report issues))
    if issues.any Issue.isFatal then
      desk.say (.event (.validationFailed issues.length))
      return .error .validation
    else job.serialize desk plan

/-- all stages of a job -/
def run (stages : Stages m) (desk : Desk m) (job : Job) : m (Except Failure Unit) := do
  desk.say (.event (.stageStarted .load))
  match ← job.source.load stages desk with
  | .error fault => return .error (.load fault)
  | .ok plan => job.finish stages desk plan

end Job

end ZonePlan
