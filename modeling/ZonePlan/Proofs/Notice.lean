/-
The notice over a session: prints and checks of any sources, one after another, whether or not they succeed, with files
that may change in between.

A command sets the notice exactly if it evaluates a source and comes to a domain named by RFC 4183 (`notice_perform`);
nothing takes it back, so that after any turns of a session there is a notice exactly if some command among them has
come to such a domain (`notice_afterAll`). A check tells its reader of it once, between the report of its issues and how
it went (`check_advises`).

For one command, loading is followed up to the evaluation; what a job does behind that leaves the notice alone
(`KeepsNotice`, which is compositional). A check has the notice of a print of its source, of which it is an echo.
-/
import ZonePlan.Proofs.Check
import ZonePlan.Proofs.Evaluation.Classless

namespace ZonePlan

/-- the source that a command is about -/
def Command.source : Command → Source
  | .print job => job.source
  | .check source => source

/-- a source is evaluated, and its evaluation comes to a domain that is named by RFC 4183 -/
def Source.ReachesClassless (source : Source) (environment : SortedMap String) (files : Files) : Prop :=
  source.exchange?.filter (· ≠ "") = none ∧ source.path ≠ "" ∧
    ∃ text document, files.read source.path = .ok text ∧ Kdl.Document.ofString? text = some document ∧
      Setting.ReachesClassless ⟨⟨environment, Variables.ofAssignments source.assignments⟩, source.development⟩ document

/-- a text for the output -/
def Utterance.output? : Utterance → Option String
  | .output s => some s
  | _ => none

namespace Session

variable {α β : Type} (w : Workspace) (notice : Notice) (environment : SortedMap String)

/-! ## What leaves the notice alone -/

/-- whatever the files and the notice are, the notice is the same afterwards -/
def KeepsNotice (x : StateT Notice (StateM Workspace) α) : Prop :=
  ∀ (w : Workspace) (notice : Notice), (w.run notice x).1.2 = notice

namespace KeepsNotice

theorem pure (a : α) : KeepsNotice (pure a) := fun _ _ => rfl

theorem say (u : Utterance) : KeepsNotice (virtual.say u) := fun _ _ => rfl

theorem read (path : String) : KeepsNotice (virtual.read path) := fun _ _ => rfl

theorem write (path text : String) : KeepsNotice (virtual.write path text) := by
  intro w notice
  cases hwrite : w.files.write path text with
  | ok files => rw [Workspace.run_write_ok hwrite]
  | error fault => rw [Workspace.run_write_error hwrite]

variable {x : StateT Notice (StateM Workspace) α} {f : α → StateT Notice (StateM Workspace) β}

/-- what comes behind does not matter if it leaves the notice alone -/
theorem run_bind (hf : ∀ a, KeepsNotice (f a)) (w : Workspace) (notice : Notice) :
    (w.run notice (x >>= f)).1.2 = (w.run notice x).1.2 := by
  rw [Workspace.run_bind, hf]

theorem bind (hx : KeepsNotice x) (hf : ∀ a, KeepsNotice (f a)) : KeepsNotice (x >>= f) := by
  intro w notice
  rw [run_bind hf, hx]

theorem compositional : Compositional virtual virtual fun x _ => KeepsNotice x where
  pure := pure
  bind := bind
  event e := say (.event e)
  read := read

theorem serialize (job : Job) (p : Plan) : KeepsNotice (job.serialize virtual p) := by
  refine (say _).bind fun _ => (say _).bind fun _ => ?_
  unfold Job.deliver
  cases job.destination with
  | output => exact (say _).bind fun _ => pure _
  | file path =>
    refine (write path _).bind fun answer => ?_
    cases answer with
    | ok => exact pure _
    | error fault => exact pure _
  | discard => exact pure _

theorem finish (job : Job) (p : Plan) : KeepsNotice (job.finish (stages virtual environment) virtual p) :=
  compositional.finish environment rfl (fun _ _ => say _) (serialize job) p

end KeepsNotice

/-! ## One command -/

theorem notice_note (used : Bool) : (w.run notice (note used)).1.2 = (notice || used) := rfl

/-- the evaluation of a file sets the notice if a name by RFC 4183 is given on the way, also if it ends with a fault -/
theorem notice_evaluate (path : String) (development : Bool) (custom : SortedMap String) :
    (w.run notice (evaluate virtual environment path development custom)).1.2 = true ↔
      notice = true ∨ ∃ text, w.files.read path = .ok text ∧
        (Setting.evaluate ⟨⟨environment, custom⟩, development⟩ text).usedClassless = true := by
  simp only [evaluate, Workspace.run_bind, Workspace.run_say, Workspace.run_read, Workspace.tell_files]
  cases w.files.read path with
  | error fault => simp
  | ok text =>
    simp only [Workspace.run_bind]
    cases (Setting.evaluate ⟨⟨environment, custom⟩, development⟩ text).result with
    | error fault =>
      rw [Workspace.run_pure, notice_note, KeepsNotice.compositional.remarks]
      simp
    | ok p =>
      rw [Workspace.run_bind, Workspace.run_say, Workspace.run_pure, notice_note, KeepsNotice.compositional.remarks]
      simp

/-- what is done with the answer of an evaluation does not matter -/
theorem notice_source_evaluate (source : Source) :
    (w.run notice (source.evaluate (stages virtual environment) virtual)).1.2 =
      (w.run notice (evaluate virtual environment source.path source.development
        (Variables.ofAssignments source.assignments))).1.2 := by
  rw [Source.evaluate_eq]
  exact KeepsNotice.run_bind (KeepsNotice.compositional.settle environment source) w notice

theorem notice_load (source : Source) :
    (w.run notice (source.load (stages virtual environment) virtual)).1.2 = true ↔
      notice = true ∨ source.ReachesClassless environment w.files := by
  unfold Source.load Source.ReachesClassless
  cases source.exchange?.filter (· ≠ "") with
  | some path =>
    dsimp only
    rw [KeepsNotice.compositional.loadExchange]
    simp
  | none =>
    dsimp only
    split_ifs with hpath
    · simp [hpath]
    · rw [notice_source_evaluate, notice_evaluate]
      simp [hpath, Setting.usedClassless_evaluate]

/-- a job sets the notice when it is loaded, or not at all -/
theorem notice_run (job : Job) :
    (w.run notice (run virtual environment job)).1.2 = true ↔
      notice = true ∨ job.source.ReachesClassless environment w.files := by
  rw [run, Job.run, Workspace.run_bind, Workspace.run_say, KeepsNotice.run_bind, notice_load, Workspace.tell_files]
  intro answer
  cases answer with
  | error fault => exact .pure _
  | ok p => exact .finish environment job p

/-- what a check says: what is to be reported of its job, then the advice if there is a notice, then how it went; and
it has the notice of any job of its source -/
theorem said_by_check (source : Source) :
    let checked := w.run notice (perform virtual environment (.check source))
    checked.1.2 = (w.run notice (run virtual environment { source })).1.2 ∧
      ∃ us reports, checked.2 = w.tell us ∧
        us.filterMap Utterance.output? = reports ++ checked.1.2.advice?.toList ++ [ending checked.1.1] ∧
        ∀ s ∈ reports, ∃ issues, issues ≠ [] ∧ s = Issue.report issues := by
  intro checked
  obtain ⟨⟨result, later⟩, us, vs, hjob, hcheck, hecho⟩ := run_echoes environment source false w w notice rfl
  have hchecked : checked = ((result, later), (w.tell vs).tell (closing later result)) :=
    run_check w notice environment source hcheck
  rw [hchecked, hjob]
  refine ⟨rfl, vs ++ closing later result, vs.filterMap Utterance.output?, Workspace.tell_tell w vs _, ?_, ?_⟩
  · have hadvice : ∀ texts : List String, (texts.map Utterance.output).filterMap Utterance.output? = texts := by
      intro texts
      simp [List.filterMap_map, Function.comp_def, Utterance.output?]
    rw [List.filterMap_append, closing, List.filterMap_append, hadvice, List.append_assoc]
    rfl
  · intro s hs
    obtain ⟨u, hu, hs⟩ := List.mem_filterMap.1 hs
    cases u with
    | output t =>
      obtain rfl : t = s := Option.some.inj hs
      exact hecho.reports t hu
    | diagnostic t => cases hs
    | event e => cases hs

/-- a command sets the notice exactly if its source comes to a domain named by RFC 4183 -/
theorem notice_perform (command : Command) :
    (w.run notice (perform virtual environment command)).1.2 = true ↔
      notice = true ∨ command.source.ReachesClassless environment w.files := by
  cases command with
  | print job =>
    rw [Command.source, ← notice_run w notice environment job]
    rcases hrun : w.run notice (run virtual environment job) with ⟨⟨result, later⟩, done⟩
    obtain ⟨us, hprint, -⟩ := run_print w notice environment job hrun
    rw [hprint]
  | check source =>
    rw [(said_by_check w notice environment source).1, notice_run]
    rfl

/-! ## Turns -/

/-- what can happen in a session -/
inductive Turn where
  | command (environment : SortedMap String) (command : Command)
  /-- the files are changed from outside -/
  | change (files : Files)

/-- the notice and the workspace after a turn -/
def after (s : Notice × Workspace) : Turn → Notice × Workspace
  | .command environment command =>
    let done := s.2.run s.1 (perform virtual environment command)
    (done.1.2, done.2)
  | .change files => (s.1, { s.2 with files })

/-- the notice and the workspace after turns one after another -/
def afterAll (s : Notice × Workspace) (turns : List Turn) : Notice × Workspace := turns.foldl after s

/-- a command among the turns comes to a domain named by RFC 4183, in the files that it finds -/
def TurnsReachClassless (s : Notice × Workspace) (turns : List Turn) : Prop :=
  ∃ before environment command rest, turns = before ++ .command environment command :: rest ∧
    command.source.ReachesClassless environment (afterAll s before).2.files

/-- the first turn comes to such a domain, or a later one does -/
theorem turnsReachClassless_cons (s : Notice × Workspace) (turn : Turn) (turns : List Turn) :
    TurnsReachClassless s (turn :: turns) ↔
      (∃ environment command, turn = .command environment command ∧
        command.source.ReachesClassless environment s.2.files) ∨ TurnsReachClassless (after s turn) turns := by
  constructor
  · rintro ⟨_ | ⟨first, before⟩, environment, command, rest, hsplit, hreaches⟩
    · exact Or.inl ⟨environment, command, (List.cons.inj hsplit).1, hreaches⟩
    · obtain ⟨rfl, hturns⟩ := List.cons.inj hsplit
      exact Or.inr ⟨before, environment, command, rest, hturns, hreaches⟩
  · rintro (⟨environment, command, rfl, hreaches⟩ | ⟨before, environment, command, rest, rfl, hreaches⟩)
    · exact ⟨[], environment, command, turns, rfl, hreaches⟩
    · exact ⟨turn :: before, environment, command, rest, rfl, hreaches⟩

theorem notice_after (s : Notice × Workspace) (turn : Turn) :
    (after s turn).1 = true ↔ s.1 = true ∨ ∃ environment command, turn = .command environment command ∧
      command.source.ReachesClassless environment s.2.files := by
  cases turn with
  | command environment command => simp [after, notice_perform]
  | change files => simp [after]

/-- after any turns there is a notice exactly if there was one before, or a command among them has given it -/
theorem notice_afterAll (s : Notice × Workspace) (turns : List Turn) :
    (afterAll s turns).1 = true ↔ s.1 = true ∨ TurnsReachClassless s turns := by
  induction turns generalizing s with
  | nil =>
    refine (or_iff_left ?_).symm
    rintro ⟨before, environment, command, rest, hsplit, -⟩
    simp at hsplit
  | cons turn turns ih =>
    calc (afterAll s (turn :: turns)).1 = true
      _ ↔ (after s turn).1 = true ∨ TurnsReachClassless (after s turn) turns := ih (after s turn)
      _ ↔ s.1 = true ∨ TurnsReachClassless s (turn :: turns) := by
        rw [notice_after, turnsReachClassless_cons, or_assoc]

/-! ## The advice -/

theorem head?_advisory : ReverseZone.advisory.toList.head? = some 'W' := head?_append rfl _

theorem report_ne_advisory {issues : List Issue} (h : issues ≠ []) : Issue.report issues ≠ ReverseZone.advisory := by
  intro hsame
  obtain ⟨c, hc, hhead⟩ := head?_report h
  rw [hsame, head?_advisory] at hhead
  obtain rfl : 'W' = c := Option.some.inj hhead
  exact absurd hc (by decide)

theorem ending_ne_advisory (result : Except Failure Unit) : ending result ≠ ReverseZone.advisory := by
  intro hsame
  cases result with
  | ok =>
    have hhead : (ending (.ok ())).toList.head? = some 'N' := rfl
    rw [hsame, head?_advisory] at hhead
    exact absurd hhead (by decide)
  | error failure =>
    obtain ⟨c, hc, hhead⟩ := head?_failure failure
    have hending : (ending (.error failure)).toList.head? = some c := head?_append hhead "\n"
    rw [hsame, head?_advisory] at hending
    obtain rfl : 'W' = c := Option.some.inj hending
    exact absurd hc (by decide)

/-- **A check advises its reader once** exactly if in the session so far, the check included, a command has come to
a domain named by RFC 4183: the advice stands behind the report of the issues and before the words about the result,
and nothing else that the check says is that advice. No turn takes the notice back; a plan in exchange form, a domain
with a name of its own and a block that is not accepted never give it. -/
theorem check_advises (w : Workspace) (earlier : List Turn) (environment : SortedMap String) (source : Source) :
    let found := afterAll (false, w) earlier
    let checked := found.2.run found.1 (perform virtual environment (.check source))
    let Reached := TurnsReachClassless (false, w) (earlier ++ [.command environment (.check source)])
    (∃ us reports, checked.2 = found.2.tell us ∧
      (Reached → us.filterMap Utterance.output? = reports ++ [ReverseZone.advisory, ending checked.1.1]) ∧
      (¬Reached → us.filterMap Utterance.output? = reports ++ [ending checked.1.1]) ∧
      (∀ s ∈ reports, s ≠ ReverseZone.advisory ∧ ∃ issues, issues ≠ [] ∧ s = Issue.report issues) ∧
      ending checked.1.1 ≠ ReverseZone.advisory) ∧
    (∀ s turn, s.1 = true → (after s turn).1 = true) ∧
    (∀ s environment command, command.source.exchange?.filter (· ≠ "") ≠ none →
      (after s (.command environment command)).1 = s.1) ∧
    (∀ setting node, Setting.nameArgument node ≠ none → (Setting.item setting node).usedClassless = false) ∧
    ∀ block problem, ReverseZone.ofString block = .error problem →
      (Setting.reverseZone block).usedClassless = false := by
  intro found checked Reached
  have hnotice : checked.1.2 = true ↔ Reached := by
    have hsession := notice_afterAll (false, w) (earlier ++ [.command environment (.check source)])
    rw [afterAll, List.foldl_append] at hsession
    exact hsession.trans (or_iff_right Bool.false_ne_true)
  refine ⟨?_, ?_, ?_, ?_, ?_⟩
  · obtain ⟨-, us, reports, hsaid, htexts, hreports⟩ := said_by_check found.2 found.1 environment source
    refine ⟨us, reports, hsaid, ?_, ?_, ?_, ending_ne_advisory _⟩
    · intro hreached
      rw [htexts, hnotice.2 hreached, List.append_assoc]
      rfl
    · intro hreached
      rw [htexts, Bool.eq_false_iff.2 (mt hnotice.1 hreached), List.append_assoc]
      rfl
    · intro s hs
      obtain ⟨issues, hissues, rfl⟩ := hreports s hs
      exact ⟨report_ne_advisory hissues, issues, hissues, rfl⟩
  · intro s turn hs
    exact (notice_after s turn).2 (Or.inl hs)
  · intro s environment command hexchange
    rw [Bool.eq_iff_iff, notice_after]
    refine or_iff_left ?_
    rintro ⟨_, _, hturn, hreaches⟩
    cases hturn
    exact hexchange hreaches.1
  · intro setting node hname
    rw [← Bool.not_eq_true, Setting.usedClassless_item]
    rintro ⟨-, hnone, -⟩
    exact hname hnone
  · intro block problem hproblem
    rw [← Bool.not_eq_true, Setting.usedClassless_reverseZone, hproblem]
    rintro ⟨zone, hzone, -⟩
    cases hzone

/-- a print that fails behind a domain named by RFC 4183, then a check of a plan in exchange form -/
example :
    let w : Workspace := { files := ⟨[
      (["a"], .text "domain reverse=\"192.0.2.64/26\"\nregistrar"),
      (["plan"], .text "[]")]⟩ }
    let found := afterAll (false, w) [.command {} (.print { source := { path := "a" } })]
    let checked := found.2.run found.1 (perform virtual {} (.check { path := "", exchange? := some "plan" }))
    found.2.said.filterMap Utterance.output? = [] ∧
      checked.2.said.filterMap Utterance.output? = [ReverseZone.advisory, "No errors.\n"] := by
  decide +kernel

end Session

end ZonePlan
