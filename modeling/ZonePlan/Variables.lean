/-
Variables, and texts that refer to them.

A reference is written `$` and, in braces, a name: a letter or `_`, then letters, digits, `_` and `-`; it may go on with
a point and a second name without `-`. Whatever else looks similar is plain text. A text is therefore a template, plain
text with references in it, and it is one in exactly one way: from left to right, the first place at which a reference
can be read holds one. The value of a reference is put in as it stands, also where it looks like a reference itself.
-/
import ZonePlan.SortedMap
import ZonePlan.Text.Cut
namespace ZonePlan

/-- the variables of the user's choice and those of the environment, which are read as `env.NAME` -/
structure Variables where
  environment : SortedMap String := .empty
  custom : SortedMap String := .empty

/-- plain text, then references with the plain text behind each -/
structure Template where
  start : List Char
  rest : List (String × List Char)
deriving DecidableEq, Repr

namespace Template

/-- the characters that open a name -/
def opensName (c : Char) : Bool := c.isAlpha || c == '_'

/-- the characters of a name behind the first one -/
def continuesName (c : Char) : Bool := c.isAlphanum || c == '_' || c == '-'

/-- the characters of the name behind a point -/
def continuesField (c : Char) : Bool := c.isAlphanum || c == '_'

/-- the longest name at the beginning of a text, and what follows it -/
def name? (continues : Char → Bool) : List Char → Option (List Char × List Char)
  | c :: cs => if opensName c then some (c :: cs.takeWhile continues, cs.dropWhile continues) else none
  | [] => none

/-- the name that a closing brace ends, and what follows the brace -/
def closed? (name : List Char) : List Char → Option (String × List Char)
  | '}' :: rest => some (String.ofList name, rest)
  | _ => none

/-- the name within a reference, and what follows the reference -/
def inner? (cs : List Char) : Option (String × List Char) :=
  match name? continuesName cs with
  | some (name, '.' :: rest) =>
    match name? continuesField rest with
    | some (field, rest) => closed? (name ++ '.' :: field) rest
    | none => none
  | some (name, rest) => closed? name rest
  | none => none

/-- the name of a reference at the beginning of a text, and what follows the reference -/
def reference? : List Char → Option (String × List Char)
  | '$' :: '{' :: cs => inner? cs
  | _ => none

theorem name?_shorter {continues : Char → Bool} {cs name rest : List Char}
    (h : name? continues cs = some (name, rest)) : rest.length < cs.length := by
  cases cs with
  | nil => simp [name?] at h
  | cons c cs =>
    simp only [name?] at h
    split at h
    · cases h
      exact Nat.lt_succ_of_le (List.dropWhile_sublist _).length_le
    · cases h

theorem closed?_shorter {name cs rest : List Char} {s : String} (h : closed? name cs = some (s, rest)) :
    rest.length < cs.length := by
  unfold closed? at h
  split at h
  · cases h
    exact Nat.lt_succ_self _
  · cases h

theorem inner?_shorter {cs rest : List Char} {s : String} (h : inner? cs = some (s, rest)) :
    rest.length < cs.length := by
  unfold inner? at h
  split at h
  · next hn =>
    split at h
    · next hf =>
      have h₁ := name?_shorter hn
      have h₂ := name?_shorter hf
      have h₃ := closed?_shorter h
      simp only [List.length_cons] at h₁
      omega
    · cases h
  · next hn =>
    exact Nat.lt_trans (closed?_shorter h) (name?_shorter hn)
  · cases h

theorem reference?_shorter {cs rest : List Char} {s : String} (h : reference? cs = some (s, rest)) :
    rest.length < cs.length := by
  unfold reference? at h
  split at h
  · have := inner?_shorter h
    simp only [List.length_cons]
    omega
  · cases h

/-- a text as a template -/
def ofChars (cs : List Char) : Template :=
  match _found : reference? cs with
  | some (name, rest) =>
    let t := ofChars rest
    ⟨[], (name, t.start) :: t.rest⟩
  | none =>
    match cs with
    | [] => ⟨[], []⟩
    | c :: cs =>
      let t := ofChars cs
      ⟨c :: t.start, t.rest⟩
termination_by cs.length
decreasing_by
  · exact reference?_shorter ‹_›
  · exact Nat.lt_succ_self _

/-- the template of a text -/
def ofString (s : String) : Template := ofChars s.toList

/-- the names that a template refers to, in order -/
def names (t : Template) : List String := t.rest.map Prod.fst

/-- how a reference is written -/
def written (name : String) : List Char := '$' :: '{' :: name.toList ++ ['}']

/-- the text of a template with something in the place of each reference -/
def fill (value : String → List Char) (t : Template) : String :=
  String.ofList (t.start ++ t.rest.flatMap fun (name, text) => value name ++ text)

end Template

namespace Variables

/-- the value of a variable; in a name with a point, what stands before the point must be `env` -/
def get? (v : Variables) (name : String) : Option String :=
  match Text.cutFirst? '.' name.toList with
  | some (space, field) => if String.ofList space = "env" then v.environment.get? (String.ofList field) else none
  | none => v.custom.get? name

/-- a text with the values of its references; a reference without a value stays -/
def interpolate (v : Variables) (s : String) : String :=
  (Template.ofString s).fill fun name =>
    match v.get? name with
    | some value => value.toList
    | none => Template.written name

/-- the names without a value that a text refers to, in order and as often as it does -/
def undefinedIn (v : Variables) (s : String) : List String :=
  (Template.ofString s).names.filter fun name => (v.get? name).isNone

/-- a text with the values of its references, or the first name without one -/
def interpolate? (v : Variables) (s : String) : Except String String :=
  match v.undefinedIn s with
  | name :: _ => .error name
  | [] => .ok (v.interpolate s)

/-- name and value of an assignment, which the first `=` separates -/
def assignment? (s : String) : Option (String × String) :=
  (Text.cutFirst? '=' s.toList).map fun (name, value) => (String.ofList name, String.ofList value)

/-- the variables of a list of assignments; what has no `=` counts for nothing, and of two values the later stays -/
def ofAssignments (assignments : List String) : SortedMap String :=
  .ofList (assignments.filterMap assignment?)

end Variables

end ZonePlan
