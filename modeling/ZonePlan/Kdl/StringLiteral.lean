/-
String literals: `"..."` on one line, `"""` over several lines, and both without escapes between hashes.

The text between the quotes is found first (`untilQuote`, `untilQuotes`, `untilDelimiter`) and then read as pieces: a
character that stands for itself, or one that an escape stands for. A backslash before blanks stands for nothing, with the
blanks. In a literal over several lines, the spaces of which the last line consists are the indentation; it is taken off
all other lines (`dedent`). Only characters that stand for themselves can end a line or be indentation, so an escaped space
is never indentation.
-/
import ZonePlan.Kdl.Chars
import ZonePlan.Text.Numeral
namespace ZonePlan.Kdl.StringLiteral

/-- the text up to a quote that no backslash precedes, and what follows the quote -/
def untilQuote (done : List Char) : List Char → Option (List Char × List Char)
  | [] => none
  | '"' :: cs => some (done.reverse, cs)
  | '\\' :: c :: cs => untilQuote (c :: '\\' :: done) cs
  | c :: cs => untilQuote (c :: done) cs

/-- the text up to three quotes that no backslash precedes, and what follows them -/
def untilQuotes (done : List Char) : List Char → Option (List Char × List Char)
  | [] => none
  | '"' :: '"' :: '"' :: cs => some (done.reverse, cs)
  | '\\' :: c :: cs => untilQuotes (c :: '\\' :: done) cs
  | c :: cs => untilQuotes (c :: done) cs

/-- the text up to the first occurrence of a delimiter, and what follows the delimiter -/
def untilDelimiter (delimiter done : List Char) : List Char → Option (List Char × List Char)
  | [] => none
  | c :: cs =>
    if delimiter.isPrefixOf (c :: cs) then some (done.reverse, (c :: cs).drop delimiter.length)
    else untilDelimiter delimiter (c :: done) cs

/-- the character that a letter behind a backslash stands for -/
def namedEscape? : Char → Option Char
  | 'n' => some '\n'
  | 'r' => some '\r'
  | 't' => some '\t'
  | 'b' => some '\x08'
  | 'f' => some '\x0c'
  | 's' => some ' '
  | '\\' => some '\\'
  | '"' => some '"'
  | _ => none

/-- the character of a code point, if it is one -/
def scalar? (n : Nat) : Option Char :=
  if n.isValidChar then some (Char.ofNat n) else none

/-- a character of the text of a literal -/
inductive Piece where
  /-- it stands for itself -/
  | plain (c : Char)
  /-- an escape stands for it -/
  | escaped (c : Char)
deriving DecidableEq, Repr

namespace Piece

/-- the character itself -/
def char : Piece → Char
  | .plain c | .escaped c => c

/-- whether it can be indentation -/
def isIndent : Piece → Bool
  | .plain c => isSpace c
  | .escaped _ => false

/-- whether it ends a line -/
def isLineEnd : Piece → Bool
  | .plain c => isNewline c
  | .escaped _ => false

end Piece

/-- where the reading of escapes stands: behind a backslash, in escaped blanks, or in an escape by number, of which the
digits read so far and their value are known -/
inductive Escape where
  | outside
  | backslash
  | blanks
  | numbered
  | digits (count value : Nat)

/-- the pieces of a text; none if one of its escapes means nothing -/
def pieces? (state : Escape) (done : List Piece) : List Char → Option (List Piece)
  | [] =>
    match state with
    | .outside | .blanks => some done.reverse
    | _ => none
  | c :: cs =>
    match state with
    | .outside => if c = '\\' then pieces? .backslash done cs else pieces? .outside (.plain c :: done) cs
    | .blanks =>
      if isSpace c || isNewline c then pieces? .blanks done cs
      else if c = '\\' then pieces? .backslash done cs
      else pieces? .outside (.plain c :: done) cs
    | .backslash =>
      if isSpace c || isNewline c then pieces? .blanks done cs
      else if c = 'u' then pieces? .numbered done cs
      else
        match namedEscape? c with
        | some d => pieces? .outside (.escaped d :: done) cs
        | none => none
    | .numbered => if c = '{' then pieces? (.digits 0 0) done cs else none
    | .digits count value =>
      if c = '}' ∧ count ≠ 0 then
        match scalar? value with
        | some d => pieces? .outside (.escaped d :: done) cs
        | none => none
      else
        match Text.digitValue? c with
        | some d => if count < 6 then pieces? (.digits (count + 1) (value * 16 + d)) done cs else none
        | none => none

/-- the text of pieces -/
def textOf (ps : List Piece) : String := String.ofList (ps.map Piece.char)

/-- the lines of a text whose newlines are line feeds -/
def lines : List Piece → List (List Piece)
  | [] => [[]]
  | p :: ps =>
    if p.isLineEnd then [] :: lines ps
    else
      match lines ps with
      | [] => [[p]]
      | line :: rest => (p :: line) :: rest

/-- a line without its indentation; a line of spaces is empty, whatever its spaces -/
def dedentLine (indent line : List Piece) : Option (List Piece) :=
  if line.all Piece.isIndent then some []
  else if indent.isPrefixOf line then some (line.drop indent.length)
  else none

/-- the lines before the last one without the spaces of which the last one consists -/
def dedent (body : List Piece) : Option (List Piece) :=
  let all := lines body
  let indent := all.getLastD []
  if indent.all Piece.isIndent then
    (all.dropLast.mapM (dedentLine indent)).map fun kept => List.intercalate [.plain '\n'] kept
  else none

/-- what follows a newline at the beginning of a text -/
def afterNewline? : List Char → Option (List Char)
  | '\r' :: '\n' :: cs => some cs
  | c :: cs => if isNewline c then some cs else none
  | [] => none

/-- what follows three quotes and a newline -/
def afterOpening? : List Char → Option (List Char)
  | '"' :: '"' :: '"' :: cs => afterNewline? cs
  | _ => none

/-- a literal with escapes at the beginning of a text, and what follows it -/
def quoted? (cs : List Char) : Option (String × List Char) :=
  match afterOpening? cs with
  | some inner => do
    let (body, rest) ← untilQuotes [] inner
    if body.any isForbidden then none
    else
      let ps ← pieces? .outside [] (unifyNewlines body)
      let kept ← dedent ps
      return (textOf kept, rest)
  | none =>
    match cs with
    | '"' :: inner => do
      let (body, rest) ← untilQuote [] inner
      if body.any isForbidden then none
      else
        let ps ← pieces? .outside [] body
        if ps.any Piece.isLineEnd then none else return (textOf ps, rest)
    | _ => none

/-- a literal without escapes, behind `hashes` hashes at the beginning of a text, and what follows it; a lone double quote
is not written in this way -/
def raw? (hashes : Nat) (cs : List Char) : Option (String × List Char) :=
  let fence := List.replicate hashes '#'
  match afterOpening? cs with
  | some inner => do
    let (body, rest) ← untilDelimiter ('"' :: '"' :: '"' :: fence) [] inner
    let kept ← dedent ((unifyNewlines body).map .plain)
    if body.any isForbidden || textOf kept == "\"" then none else return (textOf kept, rest)
  | none =>
    match cs with
    | '"' :: inner => do
      let (body, rest) ← untilDelimiter ('"' :: fence) [] inner
      if body.any (fun c => isNewline c || isForbidden c) || body == ['"'] then none
      else return (String.ofList body, rest)
    | _ => none

end ZonePlan.Kdl.StringLiteral
