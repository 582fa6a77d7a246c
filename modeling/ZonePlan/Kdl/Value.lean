/-
The values of a KDL document and the text of a value in messages: a number in decimal, a keyword behind `#`, a string
bare if it could be read back bare and quoted otherwise.
-/
import ZonePlan.Kdl.Chars
import ZonePlan.Number.Layout
namespace ZonePlan.Kdl

open ZonePlan.Number

inductive Value where
  | string (s : String)
  | integer (n : Int)
  | real (x : Binary64)
  | boolean (b : Bool)
  | null
deriving DecidableEq, Repr

namespace Value

/-- a point alone from 0.0001 up to 10^16, exponents without a plus sign, the greater of two equally near decimals -/
def realLayout : Layout where
  leastPlain := -4
  greatestPlain := 15
  exponentPlus := ""
  tie := .up
  infinity := "#inf"
  negativeInfinity := "#-inf"
  notNumber := "#nan"

/-- how a character stands between quotes -/
def quotedChar (c : Char) : List Char :=
  match c with
  | '\\' => ['\\', '\\']
  | '"' => ['\\', '"']
  | '\n' => ['\\', 'n']
  | '\r' => ['\\', 'r']
  | '\t' => ['\\', 't']
  | '\x08' => ['\\', 'b']
  | '\x0c' => ['\\', 'f']
  | c => [c]

/-- whether a text begins as a number does -/
def startsNumerically : List Char → Bool
  | c :: d :: _ => c.isDigit || ((c == '.' || c == '-' || c == '+') && d.isDigit)
  | [c] => c.isDigit
  | [] => false

/-- whether a text is written without quotes -/
def isPlainWord (s : String) : Bool :=
  !s.isEmpty && s.toList.all isWordChar && !startsNumerically s.toList && !(s == "-inf" || reservedWords.contains s)

/-- the text of a value in messages -/
def text : Value → String
  | .string s => if isPlainWord s then s else String.ofList ('"' :: s.toList.flatMap quotedChar ++ ['"'])
  | .integer n => toString n
  | .real x => realLayout.text x
  | .boolean b => if b then "#true" else "#false"
  | .null => "#null"

/-- the text of a string value -/
def string? : Value → Option String
  | .string s => some s
  | _ => none

/-- the number of an integer value -/
def integer? : Value → Option Int
  | .integer n => some n
  | _ => none

end Value

end ZonePlan.Kdl
