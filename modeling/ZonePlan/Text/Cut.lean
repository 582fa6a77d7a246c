/-
Cutting a text at a character: at its first occurrence (`cutFirst?`), at every occurrence (`cutAll`), and putting pieces
together again (`joinWith`). Nothing is trimmed and empty pieces count, so `cutAll c` of a text with n occurrences of c
has n + 1 pieces.
-/
namespace ZonePlan.Text

/-- what stands before and after the first `c` -/
def cutFirst? (c : Char) : List Char → Option (List Char × List Char)
  | [] => none
  | d :: ds =>
    if d = c then some ([], ds)
    else (cutFirst? c ds).map fun (before, after) => (d :: before, after)

/-- the pieces between the occurrences of `c` -/
def cutAll (c : Char) : List Char → List (List Char)
  | [] => [[]]
  | d :: ds =>
    if d = c then [] :: cutAll c ds
    else
      match cutAll c ds with
      | [] => [[d]]
      | piece :: pieces => (d :: piece) :: pieces

/-- the pieces one after another with `separator` between neighbours -/
def joinWith (separator : String) : List String → String
  | [] => ""
  | [s] => s
  | s :: t :: rest => s ++ separator ++ joinWith separator (t :: rest)

/-- what stands before `suffix` at the end of a text -/
def dropSuffix? (suffix cs : List Char) : Option (List Char) :=
  if suffix.isSuffixOf cs then some (cs.take (cs.length - suffix.length)) else none

end ZonePlan.Text
