/-
The command line: a command, then options in any order.

An option that takes a value has it behind `=` or as the next word, which must not look like an option itself; the short
form of `--variable` may also have it without anything between. Every option but `--variable` is given once at most, and
values of `--variable` are assignments with commas between them. A path must not be empty where there is no default for it.
-/
import ZonePlan.Session
namespace ZonePlan.CommandLine

/-- what a command line asks for -/
inductive Request where
  | help
  | command (c : Command)
deriving DecidableEq, Repr

inductive Verb where
  | print
  | check
deriving DecidableEq, Repr

/-- the options that have been given -/
structure Options where
  config? : Option String := none
  exchange? : Option String := none
  out? : Option String := none
  development : Bool := false
  pretty : Bool := false
  raw : Bool := false
  assignments : List String := []
deriving DecidableEq, Repr

namespace Options

/-- the source that is evaluated by default -/
def defaultConfig : String := "dnsconfig.kdl"

/-- the options with one more that takes a value -/
def withValue? (verb : Verb) (o : Options) (name value : String) : Option Options :=
  if name = "config" then
    if o.config?.isSome then none else some { o with config? := some value }
  else if name = "ir" then
    if o.exchange?.isSome ∨ value = "" then none else some { o with exchange? := some value }
  else if name = "variable" then
    some { o with assignments := o.assignments ++ (Text.cutAll ',' value.toList).map String.ofList }
  else if name = "out" ∧ verb = .print then
    if o.out?.isSome ∨ value = "" then none else some { o with out? := some value }
  else none

/-- the options with one more that takes no value -/
def withFlag? (verb : Verb) (o : Options) (name : String) : Option Options :=
  if name = "dev" then if o.development then none else some { o with development := true }
  else if name = "pretty" ∧ verb = .print then if o.pretty then none else some { o with pretty := true }
  else if name = "raw" ∧ verb = .print then if o.raw then none else some { o with raw := true }
  else none

def source (o : Options) : Source where
  path := o.config?.getD defaultConfig
  exchange? := o.exchange?
  development := o.development
  assignments := o.assignments

/-- the command that a verb makes of its options -/
def command (o : Options) : Verb → Command
  | .print => .print {
      source := o.source
      raw := o.raw
      pretty := o.pretty
      destination := .ofPath o.out? }
  | .check => .check o.source

end Options

/-- the options that take a value -/
def takesValue (name : String) : Bool := ["config", "ir", "variable", "out"].contains name

/-- a word of a command line -/
inductive Word where
  /-- the end of the options -/
  | stop
  | help
  /-- an option that takes no value, or has its value in the next word -/
  | option (name : String)
  | optionWith (name value : String)
  | plain
deriving DecidableEq, Repr

/-- a word without a `=` at its beginning -/
def dropEquals : List Char → List Char
  | '=' :: cs => cs
  | cs => cs

def Word.ofChars : List Char → Word
  | '-' :: '-' :: cs =>
    if cs = [] then .stop
    else
      match Text.cutFirst? '=' cs with
      | some (name, value) => .optionWith (String.ofList name) (String.ofList value)
      | none => if cs = "help".toList then .help else .option (String.ofList cs)
  | '-' :: 'v' :: cs => if cs = [] then .option "variable" else .optionWith "variable" (String.ofList (dropEquals cs))
  | '-' :: 'h' :: _ => .help
  | '-' :: c :: cs => .option (String.ofList ('-' :: c :: cs))
  | _ => .plain

/-- whether a word can be the value of the option before it -/
def isValue (word : String) : Bool := Word.ofChars word.toList == .plain

/-- the request of the words behind a verb -/
def readOptions (verb : Verb) (o : Options) : List String → Option Request
  | [] => some (.command (o.command verb))
  | word :: rest =>
    match Word.ofChars word.toList with
    | .stop => if rest = [] then some (.command (o.command verb)) else none
    | .help => some .help
    | .plain => none
    | .optionWith name value => (o.withValue? verb name value).bind fun o => readOptions verb o rest
    | .option name =>
      if takesValue name then
        match rest with
        | value :: rest =>
          if isValue value then (o.withValue? verb name value).bind fun o => readOptions verb o rest else none
        | [] => none
      else (o.withFlag? verb name).bind fun o => readOptions verb o rest

/-- the request of the words behind `help`, which may be one command -/
def readTopic : List String → Option Request
  | [] => some .help
  | [topic] => if ["print-ir", "check", "help"].contains topic then some .help else none
  | _ => none

/-- the request of a command line, none if it is not one -/
def read : List String → Option Request
  | [] => none
  | word :: rest =>
    if word = "print-ir" then readOptions .print {} rest
    else if word = "check" then readOptions .check {} rest
    else if word = "help" then readTopic rest
    else if Word.ofChars word.toList = .help then some .help
    else none

/-- how the program is called -/
def usage : String :=
  "Usage: dnsir <print-ir|check> [--config <FILE>] [--ir <FILE>] [--dev] [-v <KEY=VALUE>]...\n" ++
    "       print-ir also takes [--pretty] [--out <FILE>] [--raw]\n"

end ZonePlan.CommandLine
