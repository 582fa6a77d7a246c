/-
JSON values and their two written forms. The compact form has no white space between its tokens. The pretty form has each
item on a line of its own, indented by two spaces a level, and a space behind each colon; empty arrays and objects stay on
their line. The tokens of both are the same.
-/
namespace ZonePlan

inductive Json where
  | null
  | number (n : Nat)
  | string (s : String)
  | array (items : List Json)
  | object (members : List (String × Json))

namespace Json

inductive Style where
  | compact
  | pretty
deriving DecidableEq, Repr

/-- what stands in front of an item that is `depth` levels deep, and in front of the end of its container -/
def Style.lineBreak (style : Style) (depth : Nat) : List Char :=
  match style with
  | .compact => []
  | .pretty => '\n' :: List.replicate (2 * depth) ' '

/-- what stands between key and value -/
def Style.colon : Style → List Char
  | .compact => [':']
  | .pretty => [':', ' ']

/-- how a character stands in a string: control characters by a letter or by their number -/
def escapedChar (c : Char) : List Char :=
  match c with
  | '"' => ['\\', '"']
  | '\\' => ['\\', '\\']
  | '\x08' => ['\\', 'b']
  | '\x0c' => ['\\', 'f']
  | '\n' => ['\\', 'n']
  | '\r' => ['\\', 'r']
  | '\t' => ['\\', 't']
  | c =>
    if c.toNat < 0x20 then ['\\', 'u', '0', '0', Nat.digitChar (c.toNat / 16), Nat.digitChar (c.toNat % 16)] else [c]

/-- a string with its quotes -/
def quoted (s : String) : List Char :=
  '"' :: s.toList.flatMap escapedChar ++ ['"']

mutual

/-- a value that is `depth` levels deep -/
def chars (style : Style) (depth : Nat) : Json → List Char
  | .null => ['n', 'u', 'l', 'l']
  | .number n => Nat.toDigits 10 n
  | .string s => quoted s
  | .array [] => ['[', ']']
  | .array (item :: items) =>
    '[' :: style.lineBreak (depth + 1) ++ chars style (depth + 1) item ++ moreItems style (depth + 1) items ++
      style.lineBreak depth ++ [']']
  | .object [] => ['{', '}']
  | .object ((key, value) :: members) =>
    '{' :: style.lineBreak (depth + 1) ++ quoted key ++ style.colon ++ chars style (depth + 1) value ++
      moreMembers style (depth + 1) members ++ style.lineBreak depth ++ ['}']

/-- the items of an array behind the first one -/
def moreItems (style : Style) (depth : Nat) : List Json → List Char
  | [] => []
  | item :: items => ',' :: style.lineBreak depth ++ chars style depth item ++ moreItems style depth items

/-- the members of an object behind the first one -/
def moreMembers (style : Style) (depth : Nat) : List (String × Json) → List Char
  | [] => []
  | (key, value) :: members =>
    ',' :: style.lineBreak depth ++ quoted key ++ style.colon ++ chars style depth value ++
      moreMembers style depth members

end

/-- the text of a value -/
def render (style : Style) (value : Json) : String :=
  String.ofList (value.chars style 0)

end Json

end ZonePlan
