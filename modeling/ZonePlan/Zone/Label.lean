/-
Labels of records, relative to a zone.

A valid label is made of parts with points between them. A part consists of small ASCII letters, digits, `_` and `-`, is
not empty and neither begins nor ends with `-`; the first part may be a lone `*` instead. Besides, `@` stands for the zone
itself.

A label may be given in several ways: relative to the zone, as the full name with a point at its end, or as nothing or `@`
for the zone itself (`place`). A relative label that ends with the name of the zone is probably meant as a full name; it is
still taken as relative.
-/
import ZonePlan.Text.AsciiCase
import ZonePlan.Text.Blank
import ZonePlan.Text.Cut
namespace ZonePlan.Zone

/-- the characters that may open and close a part of a label -/
def isLabelEdge (c : Char) : Bool := ('a' ≤ c && c ≤ 'z') || c.isDigit || c == '_'

/-- where the recognition of a label stands -/
inductive LabelState where
  /-- before the first character -/
  | start
  /-- behind a point -/
  | part
  /-- behind a character that may close a part -/
  | edge
  | hyphen
  | star
deriving DecidableEq, Repr

/-- the state behind one more character, none if no label goes on with it -/
def LabelState.next? (state : LabelState) (c : Char) : Option LabelState :=
  match state with
  | .start => if c = '*' then some .star else if isLabelEdge c then some .edge else none
  | .part => if isLabelEdge c then some .edge else none
  | .edge | .hyphen =>
    if isLabelEdge c then some .edge
    else if c = '-' then some .hyphen
    else if c = '.' ∧ state = .edge then some .part
    else none
  | .star => if c = '.' then some .part else none

/-- whether a label may end -/
def LabelState.isFinal : LabelState → Bool
  | .edge | .star => true
  | .start | .part | .hyphen => false

/-- whether the rest of a label is recognised -/
def LabelState.accepts (state : LabelState) : List Char → Bool
  | [] => state.isFinal
  | c :: cs =>
    match state.next? c with
    | some next => next.accepts cs
    | none => false

/-- whether a text is a valid label other than `@` -/
def isLabel (s : String) : Bool := LabelState.start.accepts s.toList

/-- the name of a zone, however it is given: in small letters, without blanks around it and points at its end -/
def name (given : String) : String :=
  Text.lower (String.ofList (Text.dropTrailing (· == '.') (Text.trimChars given.toList)))

/-- a label or target in small letters without blanks around it -/
def clean (given : String) : String := Text.lower (Text.trim given)

/-- where a label stands -/
inductive Placement where
  /-- the zone itself -/
  | apex
  /-- a full name within the zone, of which this is left -/
  | within (rest : String)
  /-- a label relative to the zone -/
  | relative (label : String)
  /-- a label relative to the zone that ends with the zone's name -/
  | doubled (label : String)
  /-- a full name that is not in the zone -/
  | outside (label : String)
deriving DecidableEq, Repr

/-- where a clean label stands in a zone -/
def place (zone label : String) : Placement :=
  let suffix := '.' :: zone.toList
  if label = "" ∨ label = "@" then .apex
  else
    match Text.dropSuffix? ['.'] label.toList with
    | some full =>
      if full = zone.toList then .apex
      else
        match Text.dropSuffix? suffix full with
        | some rest => .within (String.ofList rest)
        | none => .outside label
    | none => if label = zone ∨ suffix.isSuffixOf label.toList then .doubled label else .relative label

/-- the label in its final form; a full name outside the zone stays as it is -/
def Placement.label : Placement → String
  | .apex => "@"
  | .within rest => rest
  | .relative label | .doubled label | .outside label => label

/-- the full name of a target with a point at its end; `@` is the zone itself -/
def absolute (zone target : String) : String :=
  if target = "@" then zone ++ "."
  else if target.toList.getLast? = some '.' then target
  else target ++ "." ++ zone ++ "."

end ZonePlan.Zone
