/-
The log: what happens in a run, step by step, and which of it is written.

An event has a level and a target, the name of the part of the program that reports it. A filter is a list of directives;
for an event the directive with the longest target that begins the event's target decides how severe it must be. A
directive without a target is for all events, and of two directives with one target the later counts. Without a matching
directive nothing is written. What is no directive counts for nothing; blanks belong to no directive.
-/
import ZonePlan.Text.Cut
import ZonePlan.Text.Numeral
import ZonePlan.Text.Quoted
namespace ZonePlan

/-- where the text of a plan goes -/
inductive Destination where
  /-- standard output, with a line end behind the text -/
  | output
  | file (path : String)
  /-- nowhere -/
  | discard
deriving DecidableEq, Repr

/-- a file if there is a path and it is not empty, the output otherwise -/
def Destination.ofPath : Option String → Destination
  | some path => if path = "" then .output else .file path
  | none => .output

/-- a destination as the log shows it -/
def Destination.shown : Destination → String
  | .output => "Stdout"
  | .file path => s!"File({Text.quoted path})"
  | .discard => "Discard"

namespace Log

/-- the steps of a run -/
inductive Stage where
  | load
  | validate
  | serialize
deriving DecidableEq, Repr

def Stage.name : Stage → String
  | .load => "load"
  | .validate => "validate"
  | .serialize => "serialize"

inductive Event where
  | stageStarted (stage : Stage)
  | loadingExchange (path : String)
  | evaluating (path : String) (development : Bool) (variableCount : Nat)
  | leftUnexpanded (variableName : String)
  | namedClassless (block zone : String)
  | evaluated (domains : Nat)
  | loaded (source : String) (domains : Nat)
  | skippingValidation
  | validated (domains issues : Nat)
  | validationFailed (issues : Nat)
  | writing (bytes : Nat) (pretty : Bool) (destination : Destination)
deriving DecidableEq, Repr

/-- levels by their severity, the least severe last; `off` is above them all -/
inductive Level where
  | off
  | error
  | warn
  | info
  | debug
  | trace
deriving DecidableEq, Repr

def Level.name : Level → String
  | .off => "OFF"
  | .error => "ERROR"
  | .warn => "WARN"
  | .info => "INFO"
  | .debug => "DEBUG"
  | .trace => "TRACE"

/-- how many levels are more severe -/
def Level.rank : Level → Nat
  | .off => 0
  | .error => 1
  | .warn => 2
  | .info => 3
  | .debug => 4
  | .trace => 5

/-- the levels by their rank -/
def Level.all : List Level := [.off, .error, .warn, .info, .debug, .trace]

/-- a level by its rank, or by its name in any case -/
def Level.ofChars? (cs : List Char) : Option Level :=
  match Text.unsigned? (Nat.pow 2 64 - 1) cs with
  | some rank => Level.all[rank]?
  | none => Level.all.find? fun level => level.name.toList == cs.map Char.toUpper

def Event.level : Event → Level
  | .leftUnexpanded _ => .warn
  | .loaded .. => .info
  | _ => .debug

def Event.target : Event → String
  | .stageStarted _ | .skippingValidation | .validationFailed _ => "dnsir_cli::pipeline"
  | .loadingExchange _ | .loaded .. => "dnsir_config::loader"
  | .evaluating .. | .evaluated _ => "dnsir_config::evaluator"
  | .leftUnexpanded _ => "dnsir_config::dnsconfig"
  | .namedClassless .. => "dnsir_config::reverse"
  | .validated .. => "dnsir_config::normalize"
  | .writing .. => "dnsir_cli::ir"

/-- the message of an event and its fields -/
def Event.text : Event → String
  | .stageStarted stage => s!"Pipeline stage started stage=\"{stage.name}\""
  | .loadingExchange path => s!"Loading IR path={path}"
  | .evaluating path development variableCount =>
    s!"Evaluating configuration path={path} dev_mode={development} variables={variableCount}"
  | .leftUnexpanded variableName => s!"Undefined variable left unexpanded (dev mode) variable={variableName}"
  | .namedClassless block zone => s!"Using RFC 4183 reverse zone name cidr={block} zone={zone}"
  | .evaluated domains => s!"Configuration evaluated domains={domains}"
  | .loaded source domains => s!"Configuration loaded source={source} domains={domains}"
  | .skippingValidation => "Skipping validation (raw mode)"
  | .validated domains issues => s!"Validation complete domains={domains} issues={issues}"
  | .validationFailed issues => s!"Validation failed issues={issues}"
  | .writing bytes pretty destination =>
    s!"Writing IR bytes={bytes} pretty={pretty} destination={destination.shown}"

/-- an event as a line of the log -/
def Event.line (event : Event) : String :=
  s!"{event.level.name} {event.target}: {event.text}"

/-- how severe the events of a target must be to be written -/
structure Directive where
  target : String
  level : Level
deriving DecidableEq, Repr

/-- whether a text can be the target of a directive -/
def isTarget (cs : List Char) : Bool :=
  !cs.isEmpty && cs.all fun c => c.isAlphanum || c == '_' || c == ':' || c == '-'

/-- a directive of a filter: a level, a target, or both with `=` between them; a target alone lets everything through -/
def Directive.ofChars? (cs : List Char) : Option Directive :=
  match Text.cutFirst? '=' cs with
  | some (target, level) =>
    if !isTarget target then none
    else if level = [] then some ⟨String.ofList target, .trace⟩
    else (Level.ofChars? level).map (Directive.mk (String.ofList target))
  | none =>
    if !isTarget cs then none
    else
      match Level.ofChars? cs with
      | some level => some ⟨"", level⟩
      | none => some ⟨String.ofList cs, .trace⟩

/-- whether all parts of a filter are directives, except for empty ones -/
def isFilter (filter : String) : Bool :=
  (Text.cutAll ',' filter.toList).all fun part => part.isEmpty || (Directive.ofChars? part).isSome

/-- the directives of a filter -/
def directives (filter : String) : List Directive :=
  (Text.cutAll ',' filter.toList).filterMap Directive.ofChars?

/-- the directive that decides about a target -/
def deciding? (ds : List Directive) (target : String) : Option Directive :=
  (ds.filter fun d => d.target.toList.isPrefixOf target.toList).foldl
    (fun best d =>
      match best with
      | some b => if b.target.length ≤ d.target.length then some d else some b
      | none => some d)
    none

/-- whether an event is written -/
def passes (ds : List Directive) (event : Event) : Bool :=
  match deciding? ds event.target with
  | some d => event.level.rank ≤ d.level.rank
  | none => false

/-- the lines of the events that a filter lets through -/
def lines (filter : String) (events : List Event) : List String :=
  (events.filter (passes (directives filter))).map Event.line

end Log

end ZonePlan
