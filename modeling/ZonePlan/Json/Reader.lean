/-
Reading values of a known form from a JSON text.

A reader takes what is left of the text and gives a value and what is left then, or the first fault from the left. It
looks no further ahead than it must: a fault behind a value of the wrong form does not count. Values of fields that no one
asks for are skipped; they may be nested to any depth.
-/
import ZonePlan.Json.Numeral
import ZonePlan.Json.StringLiteral
import ZonePlan.SortedMap
namespace ZonePlan.Json

/-- a way to read a value at the beginning of a text -/
abbrev Reader (α : Type) := List Char → Except Fault (α × List Char)

/-- white space between tokens -/
def isSpace (c : Char) : Bool := c == ' ' || c == '\t' || c == '\n' || c == '\r'

def skipSpace (cs : List Char) : List Char := cs.dropWhile isSpace

/-- what follows the rest of a word -/
def afterWord : List Char → List Char → Except Fault (List Char)
  | [], cs => .ok cs
  | _ :: _, [] => .error .truncated
  | w :: ws, c :: cs => if c = w then afterWord ws cs else .error .malformed

/-- what follows a colon -/
def afterColon (cs : List Char) : Except Fault (List Char) :=
  match skipSpace cs with
  | [] => .error .truncated
  | ':' :: rest => .ok rest
  | _ => .error .malformed

/-! ## Skipping -/

inductive Frame where
  | array
  | object
deriving DecidableEq, Repr

def Frame.closing : Frame → Char
  | .array => ']'
  | .object => '}'

/-- what follows a key and its colon -/
def skipKey (cs : List Char) : Except Fault (List Char) :=
  match cs with
  | [] => .error .truncated
  | '"' :: rest =>
    match StringLiteral.read false [] rest with
    | .error fault => .error fault
    | .ok (_, rest) => afterColon rest
  | _ => .error .malformed

/-- what follows the key that a new item of an object has; an item of an array has none -/
def enter (frame : Frame) (cs : List Char) : Except Fault (List Char) :=
  match frame with
  | .array => .ok cs
  | .object => skipKey cs

mutual

/-- what follows a value and all that is left of the containers around it, the innermost first -/
def skipValue : Nat → List Frame → List Char → Except Fault (List Char)
  | 0, _, _ => .error .malformed
  | fuel + 1, frames, cs =>
    match skipSpace cs with
    | [] => .error .truncated
    | c :: rest =>
      match c with
      | 'n' => (afterWord ['u', 'l', 'l'] rest).bind (skipRest fuel frames)
      | 't' => (afterWord ['r', 'u', 'e'] rest).bind (skipRest fuel frames)
      | 'f' => (afterWord ['a', 'l', 's', 'e'] rest).bind (skipRest fuel frames)
      | '"' => (StringLiteral.read false [] rest).bind fun (_, rest) => skipRest fuel frames rest
      | '[' => skipFirst fuel .array frames (skipSpace rest)
      | '{' => skipFirst fuel .object frames (skipSpace rest)
      | c =>
        if c = '-' ∨ c.isDigit then (Numeral.skip (c :: rest)).bind (skipRest fuel frames) else .error .malformed

/-- the same from the opening of a container on -/
def skipFirst : Nat → Frame → List Frame → List Char → Except Fault (List Char)
  | 0, _, _, _ => .error .malformed
  | fuel + 1, frame, frames, cs =>
    match cs with
    | [] => .error .truncated
    | c :: rest =>
      if c = frame.closing then skipRest fuel frames rest
      else (enter frame (c :: rest)).bind (skipValue fuel (frame :: frames))

/-- the same from the end of a value on -/
def skipRest : Nat → List Frame → List Char → Except Fault (List Char)
  | _, [], cs => .ok cs
  | 0, _, _ => .error .malformed
  | fuel + 1, frame :: frames, cs =>
    match skipSpace cs with
    | [] => .error .truncated
    | c :: rest =>
      if c = ',' then (enter frame (skipSpace rest)).bind (skipValue fuel (frame :: frames))
      else if c = frame.closing then skipRest fuel frames rest
      else .error .malformed

end

/-- what follows a value of any form -/
def skip (cs : List Char) : Except Fault (List Char) :=
  skipValue (2 * cs.length + 2) [] cs

/-! ## Values -/

/-- a word that stands for a value of the wrong form -/
def wrongWord (found : Found) (wanted : String) (word cs : List Char) : Fault :=
  match afterWord word cs with
  | .ok _ => .mismatch (.wrongType found wanted)
  | .error fault => fault

/-- what is wrong with a text that does not begin with what is wanted -/
def wrongType (wanted : String) : List Char → Fault
  | [] => .truncated
  | 'n' :: cs => wrongWord .null wanted ['u', 'l', 'l'] cs
  | 't' :: cs => wrongWord (.boolean true) wanted ['r', 'u', 'e'] cs
  | 'f' :: cs => wrongWord (.boolean false) wanted ['a', 'l', 's', 'e'] cs
  | '"' :: cs =>
    match StringLiteral.read true [] cs with
    | .ok (s, _) => .mismatch (.wrongType (.text s) wanted)
    | .error fault => fault
  | '[' :: _ => .mismatch (.wrongType .sequence wanted)
  | '{' :: _ => .mismatch (.wrongType .map wanted)
  | c :: cs =>
    if c = '-' ∨ c.isDigit then
      match Numeral.read (c :: cs) with
      | .ok (n, _) => .mismatch (.wrongType n.found wanted)
      | .error fault => fault
    else .malformed

namespace Reader

variable {α σ : Type}

/-- a string -/
def string : Reader String := fun cs =>
  match skipSpace cs with
  | '"' :: rest => StringLiteral.read true [] rest
  | rest => .error (wrongType "a string" rest)

/-- whether a text begins as a number does -/
def startsNumeral : List Char → Bool
  | c :: _ => c == '-' || c.isDigit
  | [] => false

/-- a natural number that is at most `limit` -/
def natural (limit : Nat) (wanted : String) : Reader Nat := fun cs =>
  let cs := skipSpace cs
  if startsNumeral cs then
    match Numeral.read cs with
    | .error fault => .error fault
    | .ok (.natural n, rest) => if n ≤ limit then .ok (n, rest) else .error (.mismatch (.outOfRange n wanted))
    | .ok (.negative n, _) => .error (.mismatch (.outOfRange (-n) wanted))
    | .ok (.real x, _) => .error (.mismatch (.wrongType (.real x) wanted))
  else .error (wrongType wanted cs)

/-- a value or `null` -/
def optional (read : Reader α) : Reader (Option α) := fun cs =>
  match skipSpace cs with
  | 'n' :: rest => (afterWord ['u', 'l', 'l'] rest).map fun rest => (none, rest)
  | rest => (read rest).map fun (x, rest) => (some x, rest)

/-- the items of an array behind the first ones, which are known (in reverse) -/
def moreItems (read : Reader α) : Nat → List α → Reader (List α)
  | 0, _, _ => .error .malformed
  | fuel + 1, done, cs =>
    match skipSpace cs with
    | [] => .error .truncated
    | ']' :: rest => .ok (done.reverse, rest)
    | ',' :: rest =>
      match skipSpace rest with
      | [] => .error .truncated
      | ']' :: _ => .error .malformed
      | rest =>
        match read rest with
        | .error fault => .error fault
        | .ok (x, rest) => moreItems read fuel (x :: done) rest
    | _ => .error .malformed

/-- an array of items of one form -/
def list (read : Reader α) : Reader (List α) := fun cs =>
  match skipSpace cs with
  | '[' :: rest =>
    match skipSpace rest with
    | [] => .error .truncated
    | ']' :: rest => .ok ([], rest)
    | rest =>
      match read rest with
      | .error fault => .error fault
      | .ok (x, rest) => moreItems read (rest.length + 1) [x] rest
  | rest => .error (wrongType "a sequence" rest)

/-- what a key makes of the values read so far: a fault, or a reader of what they are with the value of the key -/
abbrev Entry (σ : Type) := σ → String → Except Fault (Reader σ)

/-- a member of an object behind the opening quote of its key -/
def member (entry : Entry σ) (s : σ) : Reader σ := fun cs =>
  match StringLiteral.read true [] cs with
  | .error fault => .error fault
  | .ok (key, rest) =>
    match entry s key with
    | .error fault => .error fault
    | .ok read => (afterColon rest).bind read

/-- the members of an object behind the first ones -/
def moreMembers (entry : Entry σ) : Nat → σ → Reader σ
  | 0, _, _ => .error .malformed
  | fuel + 1, s, cs =>
    match skipSpace cs with
    | [] => .error .truncated
    | '}' :: rest => .ok (s, rest)
    | ',' :: rest =>
      match skipSpace rest with
      | [] => .error .truncated
      | '"' :: rest =>
        match member entry s rest with
        | .error fault => .error fault
        | .ok (s, rest) => moreMembers entry fuel s rest
      | _ => .error .malformed
    | _ => .error .malformed

/-- the members of an object behind its opening brace -/
def members (entry : Entry σ) (s : σ) : Reader σ := fun cs =>
  match skipSpace cs with
  | [] => .error .truncated
  | '}' :: rest => .ok (s, rest)
  | '"' :: rest =>
    match member entry s rest with
    | .error fault => .error fault
    | .ok (s, rest) => moreMembers entry (rest.length + 1) s rest
  | _ => .error .malformed

/-- a map of values of one form; of two values under one key the later stays -/
def map (read : Reader α) : Reader (SortedMap α) := fun cs =>
  match skipSpace cs with
  | '{' :: rest =>
    members (fun m key => .ok fun cs => (read cs).map fun (x, rest) => (m.insert key x, rest)) .empty rest
  | rest => .error (wrongType "a map" rest)

/-- a value that fills its text but for white space -/
def document (read : Reader α) (cs : List Char) : Except Fault α :=
  match read cs with
  | .error fault => .error fault
  | .ok (x, rest) => if skipSpace rest = [] then .ok x else .error .malformed

end Reader

end ZonePlan.Json
