/-
What a run has at hand: it can read and write files and say something. What it says goes to the output, to the
diagnostics or to the log, in one order.

`Desk.virtual` is a desk over a tree of files, which keeps all that is said.
-/
import ZonePlan.Files
import ZonePlan.Log
namespace ZonePlan

/-- something that a run says -/
inductive Utterance where
  | output (s : String)
  | diagnostic (s : String)
  | event (e : Log.Event)
deriving DecidableEq, Repr

/-- files and a place to speak, in a world of effects -/
structure Desk (m : Type → Type) where
  read : String → m (Except FileFault String)
  /-- a file with this text, in the place of what was there -/
  write : String → String → m (Except FileFault Unit)
  say : Utterance → m Unit

namespace Desk

variable {m : Type → Type}

/-- a desk in a world with one more state, which it does not touch -/
def withState [Monad m] (σ : Type) (desk : Desk m) : Desk (StateT σ m) where
  read path := StateT.lift (desk.read path)
  write path text := StateT.lift (desk.write path text)
  say u := StateT.lift (desk.say u)

/-- a desk where everything is said in another way -/
def saying (desk : Desk m) (say : Utterance → m Unit) : Desk m :=
  { desk with say }

end Desk

/-- files, and all that has been said -/
structure Workspace where
  files : Files := {}
  said : List Utterance := []
deriving DecidableEq, Repr

/-- the desk over a tree of files -/
def Desk.virtual : Desk (StateM Workspace) where
  read path := fun w => (w.files.read path, w)
  write path text := fun w =>
    match w.files.write path text with
    | .ok files => (.ok (), { w with files })
    | .error fault => (.error fault, w)
  say u := fun w => ((), { w with said := w.said ++ [u] })

namespace Workspace

/-- the workspace after something more has been said -/
def tell (w : Workspace) (us : List Utterance) : Workspace :=
  { w with said := w.said ++ us }

@[simp] theorem tell_files (w : Workspace) (us : List Utterance) : (w.tell us).files = w.files := rfl

@[simp] theorem tell_said (w : Workspace) (us : List Utterance) : (w.tell us).said = w.said ++ us := rfl

@[simp] theorem tell_tell (w : Workspace) (us vs : List Utterance) : (w.tell us).tell vs = w.tell (us ++ vs) := by
  simp [tell]

theorem write_virtual_ok {w : Workspace} {path text : String} {files : Files}
    (h : w.files.write path text = .ok files) : Desk.virtual.write path text w = (.ok (), { w with files }) := by
  simp only [Desk.virtual, h]

theorem write_virtual_error {w : Workspace} {path text : String} {fault : FileFault}
    (h : w.files.write path text = .error fault) : Desk.virtual.write path text w = (.error fault, w) := by
  simp only [Desk.virtual, h]

variable {σ α β : Type}

/-- what becomes of a state and a workspace at whose desk something is done -/
def run (w : Workspace) (s : σ) (x : StateT σ (StateM Workspace) α) : (α × σ) × Workspace :=
  (x.run s).run w

@[simp] theorem run_pure (w : Workspace) (s : σ) (a : α) : w.run s (pure a) = ((a, s), w) := rfl

@[simp] theorem run_bind (w : Workspace) (s : σ) (x : StateT σ (StateM Workspace) α)
    (f : α → StateT σ (StateM Workspace) β) :
    w.run s (x >>= f) = (w.run s x).2.run (w.run s x).1.2 (f (w.run s x).1.1) := rfl

@[simp] theorem run_map (w : Workspace) (s : σ) (f : α → β) (x : StateT σ (StateM Workspace) α) :
    w.run s (f <$> x) = ((f (w.run s x).1.1, (w.run s x).1.2), (w.run s x).2) := rfl

@[simp] theorem run_get (w : Workspace) (s : σ) : w.run s get = ((s, s), w) := rfl

@[simp] theorem run_read (w : Workspace) (s : σ) (path : String) :
    w.run s ((Desk.virtual.withState σ).read path) = ((w.files.read path, s), w) := rfl

@[simp] theorem run_say (w : Workspace) (s : σ) (u : Utterance) :
    w.run s ((Desk.virtual.withState σ).say u) = (((), s), w.tell [u]) := rfl

theorem run_write_ok {w : Workspace} {path text : String} {files : Files} (h : w.files.write path text = .ok files)
    (s : σ) : w.run s ((Desk.virtual.withState σ).write path text) = ((.ok (), s), { w with files }) :=
  congrArg (fun done : Except FileFault Unit × Workspace => ((done.1, s), done.2)) (write_virtual_ok h)

theorem run_write_error {w : Workspace} {path text : String} {fault : FileFault}
    (h : w.files.write path text = .error fault) (s : σ) :
    w.run s ((Desk.virtual.withState σ).write path text) = ((.error fault, s), w) :=
  congrArg (fun done : Except FileFault Unit × Workspace => ((done.1, s), done.2)) (write_virtual_error h)

end Workspace

namespace Utterance

/-- what goes to the output -/
def outputs (us : List Utterance) : String :=
  String.join (us.filterMap fun
    | .output s => some s
    | _ => none)

theorem outputs_append (us vs : List Utterance) : outputs (us ++ vs) = outputs us ++ outputs vs := by
  simp only [outputs, List.filterMap_append, String.join_append]

/-- what goes to the diagnostics -/
def diagnostics (us : List Utterance) : String :=
  String.join (us.filterMap fun
    | .diagnostic s => some s
    | _ => none)

theorem diagnostics_append (us vs : List Utterance) : diagnostics (us ++ vs) = diagnostics us ++ diagnostics vs := by
  simp only [diagnostics, List.filterMap_append, String.join_append]

/-- what goes to the log -/
def events (us : List Utterance) : List Log.Event :=
  us.filterMap fun
    | .event e => some e
    | _ => none

end Utterance

end ZonePlan
