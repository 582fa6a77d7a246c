/-
Evaluating a KDL document: the plan that its nodes declare.

The document is evaluated in the order of its nodes, and within a node in the order in which its parts are needed; the
first fault ends the evaluation. What happens on the way and is of interest also after a fault is remarked: references
that stay unexpanded (in development mode, where an undefined variable is no fault) and reverse zones whose names follow
RFC 4183. Top-level nodes of other names than `registrar`, `dns-provider` and `domain` are not looked at.

Only text values refer to variables. Numbers, the names of nodes and properties, and the structure of the document are
what they are, whatever the values of variables look like.
-/
import ZonePlan.Fault
import ZonePlan.Kdl.Document
import ZonePlan.Plan
import ZonePlan.ReverseZone
import ZonePlan.Text.AsciiCase
import ZonePlan.Variables
namespace ZonePlan

/-- something of interest on the way to a plan or a fault -/
inductive Remark where
  /-- a reference without a value stays as it is -/
  | leftUnexpanded (variableName : String)
  /-- the reverse zone of a block is named by RFC 4183 -/
  | classless (block zone : String)
deriving DecidableEq, Repr

/-- whether a remark is about a name by RFC 4183 -/
def Remark.isClassless : Remark → Bool
  | .leftUnexpanded _ => false
  | .classless .. => true

/-- a value or a fault, with the remarks made before -/
structure Evaluation (α : Type) where
  result : Except Fault α
  remarks : List Remark

namespace Evaluation

variable {α β : Type}

def ok (x : α) : Evaluation α := ⟨.ok x, []⟩

def fail (fault : Fault) : Evaluation α := ⟨.error fault, []⟩

/-- one evaluation after another; a fault ends both -/
def andThen (x : Evaluation α) (f : α → Evaluation β) : Evaluation β :=
  match x.result with
  | .ok a => ⟨(f a).result, x.remarks ++ (f a).remarks⟩
  | .error fault => ⟨.error fault, x.remarks⟩

instance : Monad Evaluation where
  pure := ok
  bind := andThen

def remark (r : Remark) : Evaluation Unit := ⟨.ok (), [r]⟩

/-- the value of an option, or a fault -/
def require (x : Option α) (fault : Fault) : Evaluation α :=
  match x with
  | some x => ok x
  | none => fail fault

/-- evaluations in the order of a list -/
def forEach (f : α → Evaluation β) : List α → Evaluation (List β)
  | [] => ok []
  | x :: xs => do
    let y ← f x
    let ys ← forEach f xs
    return y :: ys

/-- the evaluation of a value that may be absent -/
def whenGiven (f : α → Evaluation β) : Option α → Evaluation (Option β)
  | none => ok none
  | some x => do
    let y ← f x
    return some y

/-- whether a name by RFC 4183 was given on the way -/
def usedClassless (x : Evaluation α) : Bool := x.remarks.any Remark.isClassless

end Evaluation

/-- how documents are evaluated -/
structure Setting where
  scope : Variables
  /-- an undefined variable is no fault -/
  development : Bool := false

namespace Setting

open Kdl (Node Value Entry)

/-- a text with the values of its references -/
def expand (setting : Setting) (s : String) : Evaluation String :=
  match setting.scope.interpolate? s with
  | .ok text => .ok text
  | .error name =>
    if setting.development then do
      Evaluation.remark (.leftUnexpanded name)
      return setting.scope.interpolate s
    else .fail (.undefined name)

/-- the first argument of a node, if it is a text -/
def nameArgument (node : Node) : Option String := node.arguments.head?.bind Value.string?

/-- the text of a property -/
def textProperty (node : Node) (name : String) : Option String := (node.property? name).bind Value.string?

/-- the value of a number that fits into 32 bits -/
def word32? (value : Value) : Option UInt32 :=
  value.integer?.bind fun n => if 0 ≤ n ∧ n < Nat.pow 2 32 then some (.ofNat n.toNat) else none

def expectWord32 (subject : String) (value : Value) : Evaluation UInt32 :=
  .require (word32? value) (.invalid subject s!"expected a non-negative integer, got {value.text}")

/-- a registrar or DNS provider at the top of a document -/
def declaration (setting : Setting) (what : String) (node : Node) : Evaluation Declaration := do
  let given ← .whenGiven setting.expand (nameArgument node)
  let name ← .require given (.missing s!"{what} name")
  let given ← .whenGiven setting.expand (textProperty node "type")
  let kind ← .require given (.missing s!"type for {what} '{name}'")
  return ⟨name, kind⟩

/-- an argument as text; integers stand for their decimal digits -/
def argument (setting : Setting) (node : Node) (value : Value) : Evaluation String :=
  match value with
  | .string s => setting.expand s
  | .integer n => .ok (toString n)
  | value => .fail (.invalid s!"argument of '{node.name}'" s!"expected a string or integer, got {value.text}")

def arguments (setting : Setting) (node : Node) : Evaluation (List String) :=
  .forEach (setting.argument node) node.arguments

/-- a provider of a domain and the number of its name servers -/
def provider (setting : Setting) (zone : String) (node : Node) : Evaluation (String × Option UInt32) := do
  let given ← .whenGiven setting.expand (nameArgument node)
  let name ← .require given (.missing s!"dns-provider name in domain '{zone}'")
  let count ← .whenGiven (expectWord32 s!"nameservers of '{name}' in domain '{zone}'") (node.property? "nameservers")
  return (name, count)

/-- key and value of an entry of a domain's metadata -/
def metadatum (setting : Setting) (zone : String) (node : Node) : Evaluation (String × String) := do
  let given ← setting.arguments node
  match given with
  | [key, value] => return (key, value)
  | _ => .fail (.invalid s!"meta in domain '{zone}'" "expected meta \"<key>\" \"<value>\"")

/-- whether an entry of a record's node belongs to the metadata of the record, and its key and text then -/
def metadataEntry? (entry : Entry) : Option (String × String) :=
  match entry.name?, entry.value with
  | some key, .string s => if key = "ttl" then none else some (key, s)
  | _, _ => none

/-- a record; the node is called by its kind -/
def record (setting : Setting) (zone : String) (node : Node) : Evaluation Record := do
  let kind := Text.upper node.name
  let given ← setting.arguments node
  match given with
  | [] => .fail (.missing s!"label for {kind} record in domain '{zone}'")
  | label :: rest =>
    let target := Text.joinWith " " rest
    if target.isEmpty then .fail (.missing s!"target for {kind} record '{label}' in domain '{zone}'")
    else do
      let ttl ← .whenGiven (expectWord32 s!"ttl of {kind} record '{label}' in domain '{zone}'") (node.property? "ttl")
      let metadata ← .forEach
        (fun (key, s) => do
          let text ← setting.expand s
          return (key, text))
        (node.entries.filterMap metadataEntry?)
      return { kind, label, target, ttl := ttl.getD 0, metadata := .ofList metadata }

/-- a part of a domain -/
inductive Part where
  | provider (name : String) (count : Option UInt32)
  | metadatum (key value : String)
  | record (r : Record)

def part (setting : Setting) (zone : String) (node : Node) : Evaluation Part :=
  if node.name = "dns-provider" then do
    let (name, count) ← setting.provider zone node
    return .provider name count
  else if node.name = "meta" then do
    let (key, value) ← setting.metadatum zone node
    return .metadatum key value
  else do
    let r ← setting.record zone node
    return .record r

def providerPart? : Part → Option (String × Option UInt32)
  | .provider name count => some (name, count)
  | _ => none

def metadatumPart? : Part → Option (String × String)
  | .metadatum key value => some (key, value)
  | _ => none

def recordPart? : Part → Option Record
  | .record r => some r
  | _ => none

/-- the name of the reverse zone of a block -/
def reverseZone (block : String) : Evaluation String :=
  match ReverseZone.ofString block with
  | .error problem => .fail (.invalid "reverse" s!"{block}: {problem.message}")
  | .ok zone =>
    if zone.classless then do
      Evaluation.remark (.classless block zone.name)
      return zone.name
    else return zone.name

/-- the name of a domain: its first argument, or the reverse zone of its block -/
def zoneName (setting : Setting) (node : Node) : Evaluation String := do
  let name ← .whenGiven setting.expand (nameArgument node)
  let block ← .whenGiven setting.expand (textProperty node "reverse")
  match name, block with
  | some name, none => return name
  | none, some block => reverseZone block
  | some name, some _ => .fail (.invalid "domain" s!"'{name}' cannot have both a name and reverse=")
  | none, none => .fail (.missing "domain name")

def domain (setting : Setting) (node : Node) : Evaluation Domain := do
  let name ← setting.zoneName node
  let registrar ← .whenGiven setting.expand (textProperty node "registrar")
  let parts ← .forEach (setting.part name) node.children
  return {
    name
    registrar := registrar.getD ""
    providers := .ofList (parts.filterMap providerPart?)
    records := parts.filterMap recordPart?
    metadata := .ofList (parts.filterMap metadatumPart?) }

/-- what a top-level node contributes to a plan -/
inductive Item where
  | registrar (d : Declaration)
  | provider (d : Declaration)
  | domain (d : Domain)
  | nothing

def item (setting : Setting) (node : Node) : Evaluation Item :=
  if node.name = "registrar" then do
    let d ← setting.declaration "registrar" node
    return .registrar d
  else if node.name = "dns-provider" then do
    let d ← setting.declaration "dns-provider" node
    return .provider d
  else if node.name = "domain" then do
    let d ← setting.domain node
    return .domain d
  else return .nothing

def registrarItem? : Item → Option Declaration
  | .registrar d => some d
  | _ => none

def providerItem? : Item → Option Declaration
  | .provider d => some d
  | _ => none

def domainItem? : Item → Option Domain
  | .domain d => some d
  | _ => none

/-- the plan of a document -/
def plan (setting : Setting) (document : Kdl.Document) : Evaluation Plan := do
  let items ← .forEach setting.item document
  return {
    registrars := items.filterMap registrarItem?
    providers := items.filterMap providerItem?
    domains := items.filterMap domainItem? }

/-- the plan of a source -/
def evaluate (setting : Setting) (source : String) : Evaluation Plan :=
  match Kdl.Document.ofString? source with
  | some document => setting.plan document
  | none => .fail .document

end Setting

end ZonePlan
