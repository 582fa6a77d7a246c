/-
A check and a print of the same source agree (`check_agrees`).

The two speak in different ways and have different jobs, but until there is a text to be put somewhere they go the same
way, and what the print says on the diagnostics the check says on the output (`Echoes`). Without a text in a file
nothing of theirs changes the files, so that the one can be followed by looking at the other: to be an echo is
compositional, and what is left to be looked at are the reports and the last stage.
-/
import ZonePlan.Proofs.Compositional
import ZonePlan.Proofs.Session

namespace ZonePlan.Session

/-- the desk of a check -/
abbrev checking : Desk (StateT Notice (StateM Workspace)) := virtual.saying (onOutput virtual)

/-! ## Echoes -/

/-- what is on the diagnostics here is on the output there, and nothing but reports is -/
structure Echo (us vs : List Utterance) : Prop where
  same : Utterance.outputs vs = Utterance.diagnostics us
  reports : ∀ s, .output s ∈ vs → ∃ issues, issues ≠ [] ∧ s = Issue.report issues

namespace Echo

theorem nil : Echo [] [] where
  same := rfl
  reports := by
    intro s h
    cases h

theorem event (e e' : Log.Event) : Echo [.event e] [.event e'] where
  same := rfl
  reports := by
    intro s h
    cases List.mem_singleton.1 h

theorem report {issues : List Issue} (h : issues ≠ []) :
    Echo [.diagnostic (Issue.report issues)] [.output (Issue.report issues)] where
  same := rfl
  reports := by
    intro s hs
    exact ⟨issues, h, Utterance.output.inj (List.mem_singleton.1 hs)⟩

/-- what is put on the output here is not heard there -/
theorem output (s : String) : Echo [.output s] [] where
  same := rfl
  reports := by
    intro t h
    cases h

theorem append {us vs us' vs' : List Utterance} (h : Echo us vs) (h' : Echo us' vs') :
    Echo (us ++ us') (vs ++ vs') where
  same := by rw [Utterance.outputs_append, Utterance.diagnostics_append, h.same, h'.same]
  reports := by
    intro s hs
    rcases List.mem_append.1 hs with hs | hs
    · exact h.reports s hs
    · exact h'.reports s hs

end Echo

variable {α β : Type}

/-- from the same files and the same notice, the one does what the other does and says it as an echo; both leave the
files alone -/
def Echoes (x y : StateT Notice (StateM Workspace) α) : Prop :=
  ∀ (w v : Workspace) (notice : Notice), w.files = v.files →
    ∃ done us vs, w.run notice x = (done, w.tell us) ∧ v.run notice y = (done, v.tell vs) ∧ Echo us vs

namespace Echoes

theorem pure (a : α) : Echoes (pure a) (pure a) := by
  intro w v notice hfiles
  refine ⟨(a, notice), [], [], ?_, ?_, .nil⟩
  · simp [Workspace.tell]
  · simp [Workspace.tell]

theorem bind {x y : StateT Notice (StateM Workspace) α} {f g : α → StateT Notice (StateM Workspace) β}
    (h : Echoes x y) (hf : ∀ a, Echoes (f a) (g a)) : Echoes (x >>= f) (y >>= g) := by
  intro w v notice hfiles
  obtain ⟨⟨a, later⟩, us, vs, hx, hy, hecho⟩ := h w v notice hfiles
  obtain ⟨done, us', vs', hx', hy', hecho'⟩ := hf a (w.tell us) (v.tell vs) later hfiles
  refine ⟨done, us ++ us', vs ++ vs', ?_, ?_, hecho.append hecho'⟩
  · rw [Workspace.run_bind, hx, hx', Workspace.tell_tell]
  · rw [Workspace.run_bind, hy, hy', Workspace.tell_tell]

theorem say {u u' : Utterance} (h : Echo [u] [u']) : Echoes (virtual.say u) (virtual.say u') := by
  intro w v notice hfiles
  exact ⟨((), notice), [u], [u'], rfl, rfl, h⟩

theorem event (e e' : Log.Event) : Echoes (virtual.say (.event e)) (checking.say (.event e')) :=
  say (.event e e')

theorem report {issues : List Issue} (h : issues ≠ []) :
    Echoes (virtual.say (.diagnostic (Issue.report issues))) (checking.say (.diagnostic (Issue.report issues))) :=
  say (.report h)

theorem read (path : String) : Echoes (virtual.read path) (checking.read path) := by
  intro w v notice hfiles
  refine ⟨(w.files.read path, notice), [], [], ?_, ?_, .nil⟩
  · simp [Workspace.tell]
  · rw [hfiles]
    simp [Workspace.tell, Desk.saying]

theorem note (used : Bool) : Echoes (note used) (note used) := by
  intro w v notice hfiles
  refine ⟨((), notice || used), [], [], ?_, ?_, .nil⟩
  · simp [Workspace.tell]
    rfl
  · simp [Workspace.tell]
    rfl

theorem compositional : Compositional virtual checking Echoes where
  pure := pure
  bind := bind
  event e := event e e
  read := read

end Echoes

/-! ## The last stage, and the whole -/

/-- a text that the print puts on the output is heard nowhere at the check -/
theorem serialize_echoes (source : Source) (pretty : Bool) (p : Plan) :
    Echoes (Job.serialize virtual { source, pretty } p) (Job.serialize checking (.forCheck source) p) := by
  refine (Echoes.event _ _).bind fun _ => (Echoes.event _ _).bind fun _ => ?_
  intro w v notice hfiles
  refine ⟨(.ok (), notice), [.output (Job.text { source, pretty } p ++ "\n")], [], rfl, ?_, .output _⟩
  simp [Job.deliver, Job.forCheck, Workspace.tell]

/-- behind loading, the two differ in their reports and in the last stage only -/
theorem finish_echoes (environment : SortedMap String) (source : Source) (pretty : Bool) (p : Plan) :
    Echoes (Job.finish (stages virtual environment) virtual { source, pretty } p)
      (Job.finish (stages checking environment) checking (.forCheck source) p) := by
  have hraw : (Job.forCheck source).raw = Job.raw { source, pretty } := rfl
  exact Echoes.compositional.finish environment hraw (fun _ => Echoes.report) (serialize_echoes source pretty) p

/-- up to its end, a check is an echo of a print -/
theorem run_echoes (environment : SortedMap String) (source : Source) (pretty : Bool) :
    Echoes (run virtual environment { source, pretty }) (run checking environment (.forCheck source)) := by
  refine (Echoes.event _ _).bind fun _ => (Echoes.compositional.load environment .note source).bind fun answer => ?_
  cases answer with
  | error fault => exact .pure _
  | ok p => exact finish_echoes environment source pretty p

/-! ## The words of success -/

theorem head?_append {s : String} {c : Char} (h : s.toList.head? = some c) (t : String) :
    (s ++ t).toList.head? = some c := by
  rw [String.toList_append, List.head?_append, h]
  rfl

/-- texts that do not begin as the words of success do -/
def Unlike (s : String) : Prop :=
  ∃ c, c ≠ 'N' ∧ s.toList.head? = some c

theorem Unlike.append {s : String} (h : Unlike s) (t : String) : Unlike (s ++ t) := by
  obtain ⟨c, hc, hs⟩ := h
  exact ⟨c, hc, head?_append hs t⟩

theorem Unlike.ne {s : String} (h : Unlike s) : s ≠ "No errors.\n" := by
  rintro rfl
  obtain ⟨c, hc, hs⟩ := h
  exact hc (Option.some.inj hs).symm

/-- the letters that messages begin with -/
def initials : List Char := ['n', 'm', 'i', 'u', 'K', 'I', 'e', 'w']

theorem head?_fault (fault : Fault) : ∃ c ∈ initials, fault.message.toList.head? = some c := by
  cases fault with
  | noSource => exact ⟨'n', by decide, rfl⟩
  | missing what => exact ⟨'m', by decide, head?_append rfl _⟩
  | invalid subject reason => exact ⟨'i', by decide, head?_append (head?_append (head?_append rfl _) _) _⟩
  | undefined variableName => exact ⟨'u', by decide, head?_append rfl _⟩
  | document => exact ⟨'K', by decide, rfl⟩
  | exchange fault =>
    cases fault with
    | malformed => exact ⟨'I', by decide, rfl⟩
    | truncated => exact ⟨'I', by decide, rfl⟩
    | mismatch what => exact ⟨'I', by decide, head?_append rfl _⟩
  | file fault => exact ⟨'I', by decide, head?_append rfl _⟩
  | executing path cause => exact ⟨'e', by decide, head?_append (head?_append (head?_append rfl _) _) _⟩

theorem head?_failure (failure : Failure) : ∃ c ∈ initials, failure.message.toList.head? = some c := by
  cases failure with
  | load fault => exact head?_fault fault
  | validation => exact ⟨'e', by decide, rfl⟩
  | writing path fault => exact ⟨'w', by decide, head?_append (head?_append (head?_append rfl _) _) _⟩

theorem unlike_failure (failure : Failure) : Unlike failure.message := by
  obtain ⟨c, hc, hhead⟩ := head?_failure failure
  refine ⟨c, ?_, hhead⟩
  rintro rfl
  exact absurd hc (by decide)

theorem unlike_advice {notice : Notice} {text : String} (h : text ∈ notice.advice?) : Unlike text := by
  cases notice with
  | false => cases h
  | true =>
    obtain rfl : ReverseZone.advisory = text := Option.some.inj h
    exact .append ⟨'W', by decide, rfl⟩ _

/-- a report begins with the number of its issues -/
theorem head?_report {issues : List Issue} (h : issues ≠ []) :
    ∃ c, c.isDigit = true ∧ (Issue.report issues).toList.head? = some c := by
  obtain ⟨c, cs, hdigits, hc⟩ := Json.toDigits_eq_cons issues.length
  have hcount : (toString issues.length).toList.head? = some c := by simp [hdigits]
  rw [Issue.report, if_neg (by simpa using h)]
  exact ⟨c, hc, head?_append (head?_append hcount _) _⟩

theorem unlike_report {issues : List Issue} (h : issues ≠ []) : Unlike (Issue.report issues) := by
  obtain ⟨c, hc, hhead⟩ := head?_report h
  refine ⟨c, ?_, hhead⟩
  rintro rfl
  exact absurd hc (by decide)

/-! ## Prints and checks -/

/-- how a check tells of its result -/
def ending : Except Failure Unit → String
  | .ok () => "No errors.\n"
  | .error failure => failure.message ++ "\n"

/-- how a print tells of its result -/
def complaint : Except Failure Unit → String
  | .ok () => ""
  | .error failure => failure.message ++ "\n"

/-- what a check says by itself when its job is done: the advice, if there is a notice, and how the job went -/
def closing (notice : Notice) (result : Except Failure Unit) : List Utterance :=
  notice.advice?.toList.map .output ++ [.output (ending result)]

theorem run_check (w : Workspace) (notice : Notice) (environment : SortedMap String) (source : Source)
    {result : Except Failure Unit} {later : Notice} {done : Workspace}
    (h : w.run notice (run checking environment (.forCheck source)) = ((result, later), done)) :
    w.run notice (perform virtual environment (.check source)) =
      ((result, later), done.tell (closing later result)) := by
  simp only [perform, check, Workspace.run_bind, Workspace.run_get, h, closing, ending]
  cases hadvice : later.advice? with
  | none =>
    cases result with
    | ok => simp
    | error failure => simp [report]
  | some text =>
    cases result with
    | ok => simp
    | error failure => simp [report]

/-- a print says what its job says, and how it failed if it did -/
theorem run_print (w : Workspace) (notice : Notice) (environment : SortedMap String) (job : Job)
    {result : Except Failure Unit} {later : Notice} {done : Workspace}
    (h : w.run notice (run virtual environment job) = ((result, later), done)) :
    ∃ us, w.run notice (perform virtual environment (.print job)) = ((result, later), done.tell us) ∧
      Utterance.diagnostics us = complaint result := by
  cases result with
  | ok =>
    refine ⟨[], ?_, rfl⟩
    rw [run_print_ok w notice environment h, Workspace.tell, List.append_nil]
  | error failure =>
    refine ⟨[.diagnostic (failure.message ++ "\n")], run_print_error w notice environment h, ?_⟩
    simp [Utterance.diagnostics, complaint]

theorem outputs_closing (notice : Notice) (result : Except Failure Unit) :
    Utterance.outputs (closing notice result) = (if notice then ReverseZone.advisory else "") ++ ending result := by
  cases notice with
  | false => simp [closing, Notice.advice?, Utterance.outputs]
  | true => simp [closing, Notice.advice?, Utterance.outputs]

/-- a check ends with the words of success exactly if it is successful -/
theorem success_mem_closing (notice : Notice) (result : Except Failure Unit) :
    .output "No errors.\n" ∈ closing notice result ↔ result = .ok () := by
  cases result with
  | ok => simp [closing, ending]
  | error failure =>
    refine iff_of_false ?_ nofun
    intro hmem
    rcases List.mem_append.1 hmem with hmem | hmem
    · obtain ⟨text, htext, hsame⟩ := List.mem_map.1 hmem
      exact (unlike_advice (Option.mem_toList.1 htext)).ne (Utterance.output.inj hsame)
    · exact ((unlike_failure failure).append "\n").ne (Utterance.output.inj (List.mem_singleton.1 hmem)).symm

/-- **A check and a print of the same source agree**: they have one result, and the output of the check is what the job
of the print says on the diagnostics, then the advice if there is a notice, then how it went. -/
theorem check_agrees (files : Files) (notice : Notice) (environment : SortedMap String) (source : Source)
    (pretty : Bool) :
    let w : Workspace := { files }
    let job := w.run notice (print virtual environment { source, pretty })
    let printed := w.run notice (perform virtual environment (.print { source, pretty }))
    let checked := w.run notice (perform virtual environment (.check source))
    checked.1 = printed.1 ∧ printed.1 = job.1 ∧ exitCode checked.1.1 = exitCode printed.1.1 ∧
      Utterance.diagnostics printed.2.said = Utterance.diagnostics job.2.said ++ complaint printed.1.1 ∧
      Utterance.outputs checked.2.said = Utterance.diagnostics job.2.said ++
        ((if checked.1.2 then ReverseZone.advisory else "") ++ ending checked.1.1) ∧
      (.output "No errors.\n" ∈ checked.2.said ↔ exitCode printed.1.1 = 0) := by
  intro w job printed checked
  obtain ⟨⟨result, later⟩, us, vs, hjob, hcheck, hecho⟩ := run_echoes environment source pretty w w notice rfl
  obtain ⟨rest, hprint, hrest⟩ := run_print w notice environment _ hjob
  have hjob : job = ((result, later), w.tell us) := hjob
  have hprinted : printed = ((result, later), (w.tell us).tell rest) := hprint
  have hchecked : checked = ((result, later), (w.tell vs).tell (closing later result)) :=
    run_check w notice environment source hcheck
  rw [hjob, hprinted, hchecked]
  refine ⟨rfl, rfl, rfl, ?_, ?_, ?_⟩
  · simp only [Workspace.tell_said, Utterance.diagnostics_append, hrest]
  · have hempty : Utterance.outputs w.said = Utterance.diagnostics w.said := rfl
    simp only [Workspace.tell_said, Utterance.outputs_append, Utterance.diagnostics_append, outputs_closing, hecho.same,
      hempty]
  · have hquiet : .output "No errors.\n" ∉ vs := by
      intro hmem
      obtain ⟨issues, hissues, hreport⟩ := hecho.reports _ hmem
      exact (unlike_report hissues).ne hreport.symm
    rw [exitCode_eq_zero_iff, ← success_mem_closing later]
    simp [w, hquiet]

end ZonePlan.Session
