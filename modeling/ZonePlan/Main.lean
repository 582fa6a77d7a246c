/-
The program: the command line, files and streams of the system. Everything it decides is decided elsewhere.
-/
import ZonePlan.CommandLine
namespace ZonePlan.Main

/-- what the system says about a file -/
def fileFault (error : IO.Error) : FileFault :=
  match error with
  | .noFileOrDirectory .. => .notFound
  | .inappropriateType _ code _ =>
    if code = 20 then .notDirectory else if code = 21 then .isDirectory else .other (toString error)
  | error => .other (toString error)

/-- the files and streams of the system; events go to `log` if the directives let them pass -/
def desk (directives : List Log.Directive) (log : IO.FS.Stream) : Desk IO where
  read path := do
    try
      let bytes ← IO.FS.readBinFile path
      match String.fromUTF8? bytes with
      | some text => return .ok text
      | none => return .error .notText
    catch error => return .error (fileFault error)
  write path text := do
    try
      IO.FS.writeFile path text
      return .ok ()
    catch error => return .error (fileFault error)
  say
    | .output s => do (← IO.getStdout).putStr s
    | .diagnostic s => do (← IO.getStderr).putStr s
    | .event e => if Log.passes directives e then log.putStrLn e.line else return ()

/-- the variables of the environment -/
def environment : IO (SortedMap String) := do
  try
    let bytes ← IO.FS.readBinFile "/proc/self/environ"
    match String.fromUTF8? bytes with
    | some text => return Variables.ofAssignments ((Text.cutAll '\x00' text.toList).map String.ofList)
    | none => return .empty
  catch _ => return .empty

/-- the filter of the log where none is given, or what is given is no filter -/
def defaultFilter : String := "warn"

end ZonePlan.Main

open ZonePlan in
def main (args : List String) : IO UInt32 := do
  match CommandLine.read args with
  | none =>
    (← IO.getStderr).putStr CommandLine.usage
    return 2
  | some .help =>
    (← IO.getStdout).putStr CommandLine.usage
    return 0
  | some (.command command) =>
    let filter := ((← IO.getEnv "RUST_LOG").filter Log.isFilter).getD Main.defaultFilter
    let log ← match command with
      | .print _ => IO.getStderr
      | .check _ => IO.getStdout
    let desk := (Main.desk (Log.directives filter) log).withState Notice
    let (result, _) ← (Session.perform desk (← Main.environment) command).run false
    return (exitCode result).toUInt32
