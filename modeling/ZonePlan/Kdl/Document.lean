/-
KDL documents: nodes with a name, entries and child nodes, and the grammar that reads them from tokens.

A node is a name, then entries and at most one block of child nodes, with a gap before each entry. It ends at a line end or
a semicolon; the last node of a block or document needs no end. Type annotations are read and forgotten everywhere.

Behind a drop mark, an entry, a block or a node is read and forgotten:
- an entry where entries stand, and with it the entries that are dropped directly before it;
- a block where blocks stand, before or behind the block of the node, with gaps between several of them. Entries do not
  follow a block, not even a dropped one;
- a node where nodes stand. It takes no end with it, so a semicolon cannot follow it, and another node may follow it on the
  same line. Behind a node without an end there may be nothing but dropped nodes.
-/
import ZonePlan.Kdl.Token
namespace ZonePlan.Kdl

/-- an argument, or a property if it has a name -/
structure Entry where
  name? : Option String
  value : Value
deriving DecidableEq, Repr

structure Node where
  name : String
  entries : List Entry
  children : List Node
deriving Repr

/-- a document is its nodes in order -/
abbrev Document := List Node

namespace Node

/-- the arguments in order -/
def arguments (node : Node) : List Value :=
  (node.entries.filter fun e => e.name?.isNone).map Entry.value

/-- the property of a name; of several the last -/
def property? (node : Node) (name : String) : Option Value :=
  (node.entries.reverse.find? fun e => e.name? == some name).map Entry.value

end Node

namespace Grammar

def skipGaps (ts : List Token) : List Token := ts.dropWhile Token.isGap

def skipSeparators (ts : List Token) : List Token := ts.dropWhile Token.isSeparator

/-- what follows a type annotation, if there is one -/
def afterType? : List Token → Option (List Token)
  | .openParen :: ts =>
    match skipGaps ts with
    | .text _ :: ts =>
      match skipGaps ts with
      | .closeParen :: ts => some (skipGaps ts)
      | _ => none
    | _ => none
  | ts => some ts

def value? (ts : List Token) : Option (Value × List Token) :=
  (afterType? ts).bind fun
    | .text s :: rest => some (.string s, rest)
    | .number v :: rest | .keyword v :: rest => some (v, rest)
    | _ => none

/-- an entry that is not dropped -/
def entry? (ts : List Token) : Option (Entry × List Token) :=
  match ts with
  | .text s :: rest =>
    match skipGaps rest with
    | .equals :: rest => (value? (skipGaps rest)).map fun (v, rest) => (⟨some s, v⟩, rest)
    | _ => some (⟨none, .string s⟩, rest)
  | _ => (value? ts).map fun (v, rest) => (⟨none, v⟩, rest)

def name? (ts : List Token) : Option (String × List Token) :=
  (afterType? ts).bind fun
    | .text s :: rest => some (s, rest)
    | _ => none

/-- what follows the gap at the beginning of tokens -/
def afterGap? : List Token → Option (List Token)
  | .gap :: ts => some (skipGaps ts)
  | _ => none

mutual

/-- what follows one or more dropped entries, which gaps separate -/
def afterDroppedEntries? : Nat → List Token → Option (List Token)
  | fuel + 1, .drop :: ts =>
    match entryBehindDropped? fuel (skipSeparators ts) with
    | some (_, rest) => some (((afterGap? rest).bind (afterDroppedEntries? fuel)).getD rest)
    | none => none
  | _, _ => none

/-- an entry, which dropped ones may precede -/
def entryBehindDropped? : Nat → List Token → Option (Entry × List Token)
  | fuel + 1, .drop :: ts => do
    let rest ← afterDroppedEntries? fuel (.drop :: ts)
    let rest ← afterGap? rest
    entry? rest
  | _, ts => entry? ts

end

/-- the entries of a node with a gap before each, and what follows them -/
def entries : Nat → List Token → List Entry × List Token
  | 0, ts => ([], ts)
  | fuel + 1, ts =>
    match (afterGap? ts).bind (entryBehindDropped? fuel) with
    | some (entry, rest) =>
      let (more, rest) := entries fuel rest
      (entry :: more, rest)
    | none => ([], ts)

mutual

/-- the nodes up to a closing brace or the end, and what follows them -/
def nodes? : Nat → List Token → Option (List Node × List Token)
  | 0, _ => none
  | fuel + 1, ts =>
    match skipSeparators ts with
    | [] => some ([], [])
    | .closeBrace :: rest => some ([], .closeBrace :: rest)
    | .drop :: rest => do
      let (_, rest) ← node? fuel (skipSeparators rest)
      nodes? fuel rest
    | rest => do
      let (node, rest) ← node? fuel rest
      match rest with
      | .lineEnd :: rest | .semicolon :: rest => do
        let (nodes, rest) ← nodes? fuel rest
        return (node :: nodes, rest)
      | rest => do
        let rest ← afterDroppedNodes? fuel rest
        return ([node], rest)

/-- what follows dropped nodes, if there are any -/
def afterDroppedNodes? : Nat → List Token → Option (List Token)
  | 0, _ => none
  | fuel + 1, ts =>
    match skipSeparators ts with
    | .drop :: rest => do
      let (_, rest) ← node? fuel (skipSeparators rest)
      afterDroppedNodes? fuel rest
    | rest => some rest

/-- a node without its end, and what follows the node and the gaps behind it -/
def node? : Nat → List Token → Option (Node × List Token)
  | 0, _ => none
  | fuel + 1, ts => do
    let (name, rest) ← name? ts
    let (entries, rest) := entries fuel rest
    let rest := ((afterGap? rest).bind (afterDroppedEntries? fuel)).getD rest
    let rest := ((afterGap? rest).bind (afterDroppedBlocks? fuel)).getD rest
    match skipGaps rest with
    | .openBrace :: rest => do
      let (children, rest) ← block? fuel rest
      let rest := (afterDroppedBlocks? fuel (skipGaps rest)).getD rest
      return (⟨name, entries, children⟩, skipGaps rest)
    | rest => return (⟨name, entries, []⟩, rest)

/-- what follows one or more dropped blocks, which gaps separate -/
def afterDroppedBlocks? : Nat → List Token → Option (List Token)
  | fuel + 1, .drop :: ts =>
    match skipSeparators ts with
    | .openBrace :: rest => do
      let (_, rest) ← block? fuel rest
      return ((afterGap? rest).bind (afterDroppedBlocks? fuel)).getD rest
    | _ => none
  | _, _ => none

/-- the nodes of a block behind its opening brace, and what follows its closing brace -/
def block? : Nat → List Token → Option (List Node × List Token)
  | 0, _ => none
  | fuel + 1, ts =>
    match nodes? fuel ts with
    | some (nodes, .closeBrace :: rest) => some (nodes, rest)
    | _ => none

end

end Grammar

/-- a text without the byte order mark that may open it -/
def dropByteOrderMark : List Char → List Char
  | c :: cs => if c = byteOrderMark then cs else c :: cs
  | [] => []

/-- the document of a text -/
def Document.ofString? (s : String) : Option Document :=
  let cs := dropByteOrderMark s.toList
  match Token.ofChars? cs with
  | none => none
  | some ts =>
    match Grammar.nodes? (3 * ts.length + 3) ts with
    | some (nodes, []) => some nodes
    | _ => none

end ZonePlan.Kdl
