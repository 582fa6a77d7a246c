/-
Forms of values that are both written and read. The form of a structure (`Shape`) lists its fields in order, each with the
way it is read into a structure and written from one; the text of a structure is an object of the fields that have
something to show, and what is read is either such an object or an array of the fields in order.

Reading starts with a blank structure, so a field that is absent keeps its blank value; the first `required` fields may
not be absent.
-/
import ZonePlan.Json
import ZonePlan.Json.Reader
namespace ZonePlan.Json

/-- a form of values -/
structure Codec (α : Type) where
  read : Reader α
  json : α → Json

/-- a field of a structure -/
structure Field (α : Type) where
  key : String
  read : α → Reader α
  /-- nothing if the field is left out -/
  json : α → Option Json

/-- the form of a structure -/
structure Shape (α : Type) where
  /-- as messages name it -/
  title : String
  blank : α
  fields : List (Field α)
  required : Nat

namespace Codec

variable {α β : Type}

def text : Codec String := ⟨.string, .string⟩

def word8 : Codec UInt8 :=
  ⟨fun cs => (Reader.natural 0xFF "u8" cs).map fun (n, rest) => (.ofNat n, rest), fun x => .number x.toNat⟩

def word16 : Codec UInt16 :=
  ⟨fun cs => (Reader.natural 0xFFFF "u16" cs).map fun (n, rest) => (.ofNat n, rest), fun x => .number x.toNat⟩

def word32 : Codec UInt32 :=
  ⟨fun cs => (Reader.natural 0xFFFFFFFF "u32" cs).map fun (n, rest) => (.ofNat n, rest), fun x => .number x.toNat⟩

/-- a value, or `null` for none -/
def orNull (c : Codec α) : Codec (Option α) :=
  ⟨.optional c.read, fun
    | some x => c.json x
    | none => .null⟩

def list (c : Codec α) : Codec (List α) :=
  ⟨.list c.read, fun xs => .array (xs.map c.json)⟩

def map (c : Codec α) : Codec (SortedMap α) :=
  ⟨.map c.read, fun m => .object (m.entries.map fun (key, x) => (key, c.json x))⟩

/-- a field that is always written -/
def field (c : Codec β) (key : String) (get : α → β) (set : β → α → α) : Field α :=
  ⟨key, fun s cs => (c.read cs).map fun (x, rest) => (set x s, rest), fun s => some (c.json (get s))⟩

/-- a field that is left out if it has no value -/
def fieldIfSet (c : Codec β) (key : String) (get : α → Option β) (set : Option β → α → α) : Field α :=
  ⟨key, fun s cs => (Reader.optional c.read cs).map fun (x, rest) => (set x s, rest), fun s => (get s).map c.json⟩

/-- a field that is left out if it is an empty map -/
def fieldIfFull (c : Codec β) (key : String) (get : α → SortedMap β) (set : SortedMap β → α → α) : Field α :=
  ⟨key, fun s cs => (c.map.read cs).map fun (x, rest) => (set x s, rest), fun s =>
    if (get s).isEmpty then none else some (c.map.json (get s))⟩

end Codec

namespace Shape

variable {α : Type}

/-- what a structure is called in messages -/
def wanted (shape : Shape α) : String := s!"struct {shape.title}"

/-- a key among those that were seen is a fault, a field's key is read into the structure, another value is skipped -/
def entry (shape : Shape α) : Reader.Entry (α × List String) := fun (s, seen) key =>
  if seen.contains key then .error (.mismatch (.repeated key))
  else
    match shape.fields.find? fun f => f.key == key with
    | some f => .ok fun cs => (f.read s cs).map fun (s, rest) => ((s, key :: seen), rest)
    | none => .ok fun cs => (skip cs).map fun rest => ((s, seen), rest)

/-- the first required key that was not seen -/
def missing? (shape : Shape α) (seen : List String) : Option String :=
  ((shape.fields.take shape.required).map Field.key).find? fun key => !seen.contains key

/-- a structure written as an object, behind the opening brace -/
def readObject (shape : Shape α) : Reader α := fun cs =>
  match Reader.members shape.entry (shape.blank, []) cs with
  | .error fault => .error fault
  | .ok ((s, seen), rest) =>
    match shape.missing? seen with
    | some key => .error (.mismatch (.missing key))
    | none => .ok (s, rest)

/-- the fields of a structure written as an array, behind the first `index` items -/
def readItems (shape : Shape α) (index : Nat) (s : α) : List (Field α) → Reader α
  | [], cs =>
    match skipSpace cs with
    | [] => .error .truncated
    | ']' :: rest => .ok (s, rest)
    | _ => .error .malformed
  | field :: fields, cs =>
    let item (cs : List Char) : Except Fault (α × List Char) :=
      match field.read s cs with
      | .error fault => .error fault
      | .ok (s, rest) => readItems shape (index + 1) s fields rest
    match skipSpace cs with
    | [] => .error .truncated
    | ']' :: rest =>
      if index < shape.required then .error (.mismatch (.tooShort index shape.wanted shape.fields.length))
      else .ok (s, rest)
    | ',' :: rest =>
      if index = 0 then .error .malformed
      else
        match skipSpace rest with
        | [] => .error .truncated
        | ']' :: _ => .error .malformed
        | rest => item rest
    | rest => if index = 0 then item rest else .error .malformed

def read (shape : Shape α) : Reader α := fun cs =>
  match skipSpace cs with
  | '{' :: rest => shape.readObject rest
  | '[' :: rest => shape.readItems 0 shape.blank shape.fields rest
  | rest => .error (wrongType shape.wanted rest)

def json (shape : Shape α) (s : α) : Json :=
  .object (shape.fields.filterMap fun f => (f.json s).map fun value => (f.key, value))

/-- the form of a structure as a form of values -/
def codec (shape : Shape α) : Codec α := ⟨shape.read, shape.json⟩

end Shape

end ZonePlan.Json
