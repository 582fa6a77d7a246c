/-
The tokens of a KDL document. Comments and continued lines are no tokens of their own: a comment within a line is a gap,
a comment at the end of a line is the end of the line, and a backslash with the line end behind it is a gap. Any characters
may stand in a comment.

A text or a number must be followed by something that cannot be taken for a part of it: a gap, a line end, or one of
`;`, `=`, `)` and the braces. A keyword is complete with its last letter, whatever follows.
-/
import ZonePlan.Kdl.NumberLiteral
import ZonePlan.Kdl.StringLiteral
namespace ZonePlan.Kdl

inductive Token where
  | gap
  | lineEnd
  | backslash
  | drop
  | openBrace
  | closeBrace
  | openParen
  | closeParen
  | semicolon
  | equals
  | text (s : String)
  | number (v : Value)
  | keyword (v : Value)
deriving DecidableEq, Repr

namespace Token

/-- what follows a comment that is `depth` levels deep -/
def afterComment? (depth : Nat) : List Char → Option (List Char)
  | [] => none
  | '*' :: '/' :: cs => if depth = 0 then some cs else afterComment? (depth - 1) cs
  | '/' :: '*' :: cs => afterComment? (depth + 1) cs
  | _ :: cs => afterComment? depth cs

/-- what follows the line end at the end of the present line -/
def afterLine (cs : List Char) : List Char :=
  let rest := cs.dropWhile fun c => !isNewline c
  (StringLiteral.afterNewline? rest).getD rest

/-- the keywords behind a hash and their values -/
def keywords : List (String × Value) :=
  [("true", .boolean true), ("false", .boolean false), ("null", .null), ("inf", .real (.infinite false)),
    ("-inf", .real (.infinite true)), ("nan", .real .nan)]

/-- a keyword at the beginning of a text, and what follows it -/
def keyword? (cs : List Char) : Option (Token × List Char) :=
  (keywords.find? fun (name, _) => name.toList.isPrefixOf cs).map fun (name, v) => (.keyword v, cs.drop name.length)

/-- what a hash begins: a string without escapes or a keyword -/
def hashed? (cs : List Char) : Option (Token × List Char) :=
  let hashes := (cs.takeWhile (· == '#')).length
  let rest := cs.dropWhile (· == '#')
  match rest with
  | '"' :: _ => (StringLiteral.raw? hashes rest).map fun (s, rest) => (.text s, rest)
  | _ => if hashes = 1 then keyword? rest else none

/-- whether a word could be taken for the fraction of a number -/
def startsWithFraction (cs : List Char) : Bool :=
  match (Text.cutSign cs).2 with
  | '.' :: c :: _ => c.isDigit
  | _ => false

/-- a bare word at the beginning of a text, and what follows it -/
def word? (cs : List Char) : Option (Token × List Char) :=
  let word := String.ofList (cs.takeWhile isWordChar)
  if word.isEmpty || reservedWords.contains word || startsWithFraction cs then none
  else some (.text word, cs.dropWhile isWordChar)

/-- the token at the beginning of a text, and what follows it -/
def first? : List Char → Option (Token × List Char)
  | [] => none
  | '/' :: '/' :: cs => some (.lineEnd, afterLine cs)
  | '/' :: '*' :: cs => (afterComment? 0 cs).map fun rest => (.gap, rest)
  | '/' :: '-' :: cs => some (.drop, cs)
  | '\\' :: cs => some (.backslash, cs)
  | '{' :: cs => some (.openBrace, cs)
  | '}' :: cs => some (.closeBrace, cs)
  | '(' :: cs => some (.openParen, cs)
  | ')' :: cs => some (.closeParen, cs)
  | ';' :: cs => some (.semicolon, cs)
  | '=' :: cs => some (.equals, cs)
  | '#' :: cs => hashed? ('#' :: cs)
  | '"' :: cs => (StringLiteral.quoted? ('"' :: cs)).map fun (s, rest) => (.text s, rest)
  | c :: cs =>
    if isSpace c then some (.gap, cs.dropWhile isSpace)
    else
      match StringLiteral.afterNewline? (c :: cs) with
      | some rest => some (.lineEnd, rest)
      | none =>
        if NumberLiteral.starts (c :: cs) then
          (NumberLiteral.number? (c :: cs)).map fun (v, rest) => (.number v, rest)
        else word? (c :: cs)

/-- the tokens of a text of at most `fuel` characters -/
def scan : Nat → List Token → List Char → Option (List Token)
  | _, done, [] => some done.reverse
  | 0, _, _ => none
  | fuel + 1, done, cs =>
    match first? cs with
    | some (token, rest) => scan fuel (token :: done) rest
    | none => none

/-- tokens with every continued line made one line; `continued` says that a backslash still waits for its line end -/
def joinLines (continued : Bool) (done : List Token) : List Token → Option (List Token)
  | [] => some (if continued then .gap :: done else done).reverse
  | token :: tokens =>
    match continued, token with
    | true, .gap => joinLines true done tokens
    | true, .lineEnd => joinLines false (.gap :: done) tokens
    | true, _ => none
    | false, .backslash => joinLines true done tokens
    | false, token => joinLines false (token :: done) tokens

/-- whether a token can be followed by another one only if that sets it off -/
def needsEnd : Token → Bool
  | .text _ | .number _ => true
  | _ => false

/-- whether a token sets off the text or number before it -/
def setsOff : Token → Bool
  | .gap | .lineEnd | .openBrace | .closeBrace | .closeParen | .semicolon | .equals => true
  | _ => false

/-- whether every text and number is set off from what follows it -/
def wellSpaced : List Token → Bool
  | t :: u :: ts => (!t.needsEnd || u.setsOff) && wellSpaced (u :: ts)
  | _ => true

/-- the tokens of a text -/
def ofChars? (cs : List Char) : Option (List Token) :=
  ((scan cs.length [] cs).bind (joinLines false [])).filter wellSpaced

/-- whether a token only separates others within a line -/
def isGap : Token → Bool
  | .gap => true
  | _ => false

/-- whether a token only separates others -/
def isSeparator : Token → Bool
  | .gap | .lineEnd => true
  | _ => false

end Token

end ZonePlan.Kdl
