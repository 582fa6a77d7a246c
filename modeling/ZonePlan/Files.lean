/-
Files by path: what can go wrong with one, and a tree of files and directories on which reading and writing are plain
functions.

A path is followed from the working directory one name after another. An empty name and `.` stay where they are, `..`
goes up, and every name but the last must belong to a directory. Writing makes the last name a file unless it is a
directory or the path shows that it should be one.
-/
import ZonePlan.Text.Blank
import ZonePlan.Text.Cut
namespace ZonePlan

/-- why a file cannot be read or written -/
inductive FileFault where
  | notFound
  | notDirectory
  | isDirectory
  | notText
  /-- anything else, as the system describes it -/
  | other (description : String)
deriving DecidableEq, Repr

def FileFault.message : FileFault → String
  | .notFound => "No such file or directory (os error 2)"
  | .notDirectory => "Not a directory (os error 20)"
  | .isDirectory => "Is a directory (os error 21)"
  | .notText => "stream did not contain valid UTF-8"
  | .other description => description

/-- what a path leads to; the bytes of a file may be no text -/
inductive FileEntry where
  | text (s : String)
  | bytes
  | directory
deriving DecidableEq, Repr

/-- files and directories by the names on the way to them; of several entries for one place the first counts -/
structure Files where
  entries : List (List String × FileEntry) := []
deriving DecidableEq, Repr

namespace Files

/-- the names of a path -/
def names (path : String) : List String :=
  (Text.cutAll '/' path.toList).map String.ofList

/-- what stands at a place; the empty place is the working directory -/
def entryAt (files : Files) (place : List String) : Option FileEntry :=
  if place = [] then some .directory else files.entries.lookup place

/-- the place to which names lead from another place -/
def walk (files : Files) (place : List String) : List String → Except FileFault (List String)
  | [] => .ok place
  | name :: names =>
    match files.entryAt place with
    | none => .error .notFound
    | some .directory =>
      if name = "" ∨ name = "." then walk files place names
      else if name = ".." then walk files place.dropLast names
      else walk files (place ++ [name]) names
    | some _ => .error .notDirectory

/-- the text of a file -/
def read (files : Files) (path : String) : Except FileFault String :=
  if path = "" then .error .notFound
  else
    match files.walk [] (names path) with
    | .error fault => .error fault
    | .ok place =>
      match files.entryAt place with
      | none => .error .notFound
      | some .directory => .error .isDirectory
      | some .bytes => .error .notText
      | some (.text s) => .ok s

/-- the place for a file to be written -/
def target (files : Files) (path : String) : Except FileFault (List String) :=
  if path = "" then .error .notFound
  else
    let all := Text.dropTrailing (· == "") (names path)
    match files.walk [] all.dropLast with
    | .error fault => .error fault
    | .ok parent =>
      match files.entryAt parent with
      | none => .error .notFound
      | some .directory =>
        let name := all.getLastD ""
        if name = "" ∨ name = "." ∨ name = ".." ∨ (names path).getLastD "" = "" then .error .isDirectory
        else
          match files.entryAt (parent ++ [name]) with
          | some .directory => .error .isDirectory
          | _ => .ok (parent ++ [name])
      | some _ => .error .notDirectory

/-- the files with another entry at a place -/
def put (files : Files) (place : List String) (entry : FileEntry) : Files :=
  ⟨(place, entry) :: files.entries.filter fun e => e.1 != place⟩

/-- the files with a text under a path -/
def write (files : Files) (path text : String) : Except FileFault Files :=
  (files.target path).map fun place => files.put place (.text text)

/-- the files with an entry at a place and directories on the way to it -/
def add (files : Files) (place : List String) (entry : FileEntry) : Files :=
  let parents := (List.range place.length).map fun n => place.take n
  (parents.foldl (fun files parent => if (files.entryAt parent).isSome then files else files.put parent .directory)
    files).put place entry

end Files

end ZonePlan
