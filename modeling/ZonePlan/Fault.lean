/-
Why a plan cannot be loaded, and the words for it.
-/
import ZonePlan.Files
import ZonePlan.Json.Fault
namespace ZonePlan

inductive Fault where
  /-- there is nothing to load from -/
  | noSource
  /-- something that must be there is missing -/
  | missing (what : String)
  /-- a value cannot stand where it does -/
  | invalid (subject reason : String)
  /-- a variable without a value -/
  | undefined (variableName : String)
  /-- a source that is no KDL document -/
  | document
  /-- a text that is not the exchange form of a plan -/
  | exchange (fault : Json.Fault)
  | file (fault : FileFault)
  /-- a fault while a file was evaluated or read -/
  | executing (path : String) (cause : Fault)
deriving DecidableEq, Repr

namespace Fault

/-- what is wrong with a text that is not the exchange form of a plan -/
def exchangeMessage : Json.Fault → String
  | .malformed => "IR parse error (syntax)"
  | .truncated => "IR parse error (eof)"
  | .mismatch what => s!"IR parse error (data): {what.message}"

def message : Fault → String
  | .noSource => "no config specified"
  | .missing what => s!"missing required field: {what}"
  | .invalid subject reason => s!"invalid value for {subject}: {reason}"
  | .undefined variableName => s!"undefined variable: {variableName}"
  | .document => "KDL parse error: Failed to parse KDL document"
  | .exchange fault => exchangeMessage fault
  | .file fault => s!"IO error: {fault.message}"
  | .executing path cause => s!"executing {path}: {cause.message}"

end Fault

end ZonePlan
