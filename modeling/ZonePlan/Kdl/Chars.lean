/-
The character classes of a KDL document: spaces, newlines, characters that may stand nowhere, and the characters of a
bare word. The classes do not overlap, except that a forbidden character is also no part of a word.
-/
namespace ZonePlan.Kdl

/-- the characters that separate words within a line -/
def isSpace (c : Char) : Bool :=
  let n := c.toNat
  n == 9 || n == 0x20 || n == 0xA0 || n == 0x1680 || (0x2000 ≤ n && n ≤ 0x200A) || n == 0x202F || n == 0x205F ||
    n == 0x3000

/-- the characters that end a line; a carriage return with a line feed behind it ends one line, not two -/
def isNewline (c : Char) : Bool :=
  let n := c.toNat
  (0xA ≤ n && n ≤ 0xD) || n == 0x85 || n == 0x2028 || n == 0x2029

/-- the byte order mark, which may only open a document -/
def byteOrderMark : Char := Char.ofNat 0xFEFF

/-- the characters that may stand nowhere in a document -/
def isForbidden (c : Char) : Bool :=
  let n := c.toNat
  n ≤ 8 || (0xE ≤ n && n ≤ 0x1F) || n == 0x200E || n == 0x200F || (0x202A ≤ n && n ≤ 0x202E) ||
    (0x2066 ≤ n && n ≤ 0x2069) || n == 0xFEFF

/-- the characters with a meaning of their own, which end a bare word -/
def isMark (c : Char) : Bool :=
  ['\\', '/', '(', ')', '{', '}', '[', ']', ';', '"', '#', '='].contains c

/-- the characters of a bare word -/
def isWordChar (c : Char) : Bool :=
  !isSpace c && !isNewline c && !isForbidden c && !isMark c

/-- the words that stand for no text without quotes -/
def reservedWords : List String :=
  ["true", "false", "null", "inf", "nan"]

/-- a text with one line feed for every newline -/
def unifyNewlines : List Char → List Char
  | [] => []
  | '\r' :: '\n' :: cs => '\n' :: unifyNewlines cs
  | c :: cs => (if isNewline c then '\n' else c) :: unifyNewlines cs

end ZonePlan.Kdl
