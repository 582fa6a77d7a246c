/-
What a validation has to say: warnings, which change nothing, and errors, each of which makes the validation fail. A
report begins with the number of issues and has one entry for each, in order; without issues there is no report at all.
-/
namespace ZonePlan

inductive Issue where
  | warning (message : String)
  | error (message : String)
deriving DecidableEq, Repr

namespace Issue

/-- whether an issue makes the validation fail -/
def isFatal : Issue → Bool
  | .warning _ => false
  | .error _ => true

/-- an issue as an entry of a report -/
def line : Issue → String
  | .warning message => s!"WARNING: {message}\n"
  | .error message => s!"ERROR: {message}\n"

/-- the report of a validation -/
def report (issues : List Issue) : String :=
  if issues.isEmpty then ""
  else s!"{issues.length} Validation errors:\n" ++ String.join (issues.map line)

end Issue

end ZonePlan
