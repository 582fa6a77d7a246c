/-
Blank characters, and the two readings of a text that depend on them: the text without its blank ends (`trim`) and its
words (`words`).

A character is blank iff it has the Unicode property White_Space. A word is a longest run of characters that are not
blank, so no word is empty and `words` of a blank text is empty.
-/
namespace ZonePlan.Text

/-- the characters with the property White_Space -/
def isBlank (c : Char) : Bool :=
  let n := c.toNat
  (9 ≤ n && n ≤ 13) || n == 0x20 || n == 0x85 || n == 0xA0 || n == 0x1680 ||
    (0x2000 ≤ n && n ≤ 0x200A) || n == 0x2028 || n == 0x2029 || n == 0x202F || n == 0x205F || n == 0x3000

/-- a list without its longest tail of elements that satisfy `p` -/
def dropTrailing {α : Type} (p : α → Bool) (xs : List α) : List α :=
  (xs.reverse.dropWhile p).reverse

/-- a text without its blank ends -/
def trimChars (cs : List Char) : List Char :=
  dropTrailing isBlank (cs.dropWhile isBlank)

@[inherit_doc trimChars]
def trim (s : String) : String :=
  String.ofList (trimChars s.toList)

/-- the words of a text that continues `word`, the characters of an unfinished word in reverse -/
def wordsFrom (word : List Char) : List Char → List (List Char)
  | [] => if word.isEmpty then [] else [word.reverse]
  | c :: cs =>
    if isBlank c then
      if word.isEmpty then wordsFrom [] cs else word.reverse :: wordsFrom [] cs
    else wordsFrom (c :: word) cs

/-- the words of a text, in order -/
def words (s : String) : List String :=
  (wordsFrom [] s.toList).map String.ofList

end ZonePlan.Text
