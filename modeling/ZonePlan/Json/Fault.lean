/-
What can be wrong with a JSON text from which a value of a known form is read: it ends too early, it is not JSON, or it is
JSON of another form. Of several faults the first from the left counts.
-/
import ZonePlan.Number.Layout
import ZonePlan.Text.Quoted
namespace ZonePlan.Json

open ZonePlan.Number

/-- a value in the place of another -/
inductive Found where
  | null
  | boolean (b : Bool)
  | integer (n : Int)
  | real (x : Binary64)
  | text (s : String)
  | sequence
  | map
deriving DecidableEq, Repr

/-- a form other than the one that is read; what is wanted is given as messages name it -/
inductive Mismatch where
  | missing (key : String)
  | repeated (key : String)
  | wrongType (found : Found) (wanted : String)
  | outOfRange (n : Int) (wanted : String)
  | tooShort (length : Nat) (wanted : String) (fields : Nat)
deriving DecidableEq, Repr

inductive Fault where
  | truncated
  | malformed
  | mismatch (what : Mismatch)
deriving DecidableEq, Repr

/-- a point alone from 0.00001 up to 10^16, exponents with their sign, the even one of two equally near decimals -/
def realLayout : Layout where
  leastPlain := -5
  greatestPlain := 15
  exponentPlus := "+"
  tie := .even
  infinity := "inf"
  negativeInfinity := "-inf"
  notNumber := "NaN"

def Found.shown : Found → String
  | .null => "null"
  | .boolean b => s!"boolean `{b}`"
  | .integer n => s!"integer `{n}`"
  | .real x => s!"floating point `{realLayout.text x}`"
  | .text s => "string " ++ Text.quoted s
  | .sequence => "sequence"
  | .map => "map"

def Mismatch.message : Mismatch → String
  | .missing key => s!"missing field `{key}`"
  | .repeated key => s!"duplicate field `{key}`"
  | .wrongType found wanted => s!"invalid type: {found.shown}, expected {wanted}"
  | .outOfRange n wanted => s!"invalid value: integer `{n}`, expected {wanted}"
  | .tooShort length wanted fields => s!"invalid length {length}, expected {wanted} with {fields} elements"

end ZonePlan.Json
