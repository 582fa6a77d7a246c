/-
The lines of a report (`report_lines`).

A report is a heading and one row for each issue, with a line feed behind each. The rows are its lines exactly if no
message has a line feed in it (`Text.lines_eq_iff`), and then nothing in a plan can look like an issue that is none. The
words of a message have no line feed of their own, so that one can only be in what a finding quotes (`unbroken_message`).

All that is quoted stands in the normal form of the plan: names of declarations, of domains and of what these refer to,
and kinds, labels and targets of records (`legible_findings`). The validation does not look for line feeds there, and a
target with one in it adds a line to the report (`target_adds_line`).
-/
import ZonePlan.Proofs.Text
import ZonePlan.Proofs.Zone.Occasions

namespace ZonePlan

/-! ## Lines of a text -/

namespace Text

/-- no line feed is in a text -/
def Unbroken (s : String) : Prop := '\n' ∉ s.toList

instance (s : String) : Decidable (Unbroken s) := inferInstanceAs (Decidable ('\n' ∉ s.toList))

/-- the lines of a text: what stands in front of each line feed, from the one before it on -/
def lines (s : String) : List String := (s.toList.splitOn '\n').dropLast.map String.ofList

/-- rows of text with a line feed behind each -/
def ofRows (rows : List String) : String := String.join (rows.map (· ++ "\n"))

theorem unbroken_append {s t : String} : Unbroken (s ++ t) ↔ Unbroken s ∧ Unbroken t := by
  rw [Unbroken, String.toList_append, List.mem_append, not_or]
  rfl

theorem unbroken_repr (n : Nat) : Unbroken n.repr := by
  intro hmem
  rw [← Nat.toString_eq_repr, Nat.toString_eq_ofList_toDigits, String.toList_ofList] at hmem
  exact absurd ((isWord_toDigits n).2 _ hmem) (by decide)

theorem not_mem_of_mem_splitOn {c : Char} {cs piece : List Char} (h : piece ∈ cs.splitOn c) : c ∉ piece := by
  induction cs generalizing piece with
  | nil =>
    rw [List.splitOn_nil, List.mem_singleton] at h
    subst h
    exact List.not_mem_nil
  | cons d ds ih =>
    obtain ⟨first, rest, hsplit⟩ := List.exists_cons_of_ne_nil (List.splitOn_ne_nil c ds)
    rw [List.splitOn_cons_eq_if_modifyHead] at h
    rw [hsplit] at h ih
    split_ifs at h with hd
    · rcases List.mem_cons.1 h with rfl | h
      · exact List.not_mem_nil
      · exact ih h
    · rcases List.mem_cons.1 h with rfl | h
      · intro hmem
        rcases List.mem_cons.1 hmem with rfl | hmem
        · exact hd (beq_self_eq_true c)
        · exact ih List.mem_cons_self hmem
      · exact ih (List.mem_cons_of_mem _ h)

theorem unbroken_of_mem_lines {s line : String} (h : line ∈ lines s) : Unbroken line := by
  obtain ⟨piece, hpiece, rfl⟩ := List.mem_map.1 h
  rw [Unbroken, String.toList_ofList]
  exact not_mem_of_mem_splitOn (List.mem_of_mem_dropLast hpiece)

/-- rows are the lines of their text exactly if no line feed is in them -/
theorem lines_eq_iff (rows : List String) : lines (ofRows rows) = rows ↔ ∀ row ∈ rows, Unbroken row := by
  constructor
  · intro h row hrow
    rw [← h] at hrow
    exact unbroken_of_mem_lines hrow
  · intro h
    induction rows with
    | nil => rfl
    | cons row rows ih =>
      obtain ⟨hrow, hrows⟩ := List.forall_mem_cons.1 h
      have htext : (ofRows (row :: rows)).toList = row.toList ++ '\n' :: (ofRows rows).toList := by
        simp [ofRows]
      rw [lines, htext, List.splitOn_append_cons_self, List.splitOn_eq_singleton hrow, List.singleton_append,
        List.dropLast_cons_of_ne_nil (List.splitOn_ne_nil _ _), List.map_cons, String.ofList_toList]
      exact congrArg (row :: ·) (ih hrows)

end Text

/-! ## Rows of a report -/

namespace Issue

/-- what an issue says -/
def message : Issue → String
  | .warning message | .error message => message

/-- the row of an issue in a report -/
def row : Issue → String
  | .warning message => "WARNING: " ++ message
  | .error message => "ERROR: " ++ message

/-- the rows of a report: how many issues there are, and each of them -/
def rows (issues : List Issue) : List String := s!"{issues.length} Validation errors:" :: issues.map row

theorem line_eq (i : Issue) : i.line = i.row ++ "\n" := by
  cases i <;> rfl

theorem report_eq {issues : List Issue} (h : issues ≠ []) : report issues = Text.ofRows (rows issues) := by
  have hheading : s!"{issues.length} Validation errors:\n" = s!"{issues.length} Validation errors:" ++ "\n" := by
    rw [String.append_assoc]
    rfl
  have hlines : issues.map line = (issues.map row).map (· ++ "\n") := by
    rw [List.map_map]
    exact List.map_congr_left fun i _ => i.line_eq
  rw [report, if_neg (by simpa using h), Text.ofRows, rows, List.map_cons, String.join_cons, hheading, hlines]

theorem unbroken_row (i : Issue) : Text.Unbroken i.row ↔ Text.Unbroken i.message := by
  cases i with
  | warning message => exact Text.unbroken_append.trans (and_iff_right (by decide))
  | error message => exact Text.unbroken_append.trans (and_iff_right (by decide))

theorem unbroken_rows (issues : List Issue) :
    (∀ row ∈ rows issues, Text.Unbroken row) ↔ ∀ i ∈ issues, Text.Unbroken i.message := by
  have hheading : Text.Unbroken s!"{issues.length} Validation errors:" :=
    Text.unbroken_append.2 ⟨Text.unbroken_repr _, by decide⟩
  rw [rows, List.forall_mem_cons, and_iff_right hheading, List.forall_mem_map]
  simp only [unbroken_row]

theorem any_isFatal (issues : List Issue) : issues.any isFatal = true ↔ ∃ message, .error message ∈ issues := by
  rw [List.any_eq_true]
  constructor
  · rintro ⟨i, hi, hfatal⟩
    cases i with
    | warning message => cases hfatal
    | error message => exact ⟨message, hi⟩
  · rintro ⟨message, hmessage⟩
    exact ⟨_, hmessage, rfl⟩

end Issue

/-! ## Quoted texts -/

namespace Zone

/-- the texts that a finding quotes from a plan, in the order of its words -/
def Finding.quoted : Finding → List String
  | .repeatedRegistrar name | .repeatedProvider name => [name]
  | .repeatedDomain zone | .noRegistrar zone | .noProviders zone | .aliasAtApex zone => [zone]
  | .undefinedRegistrar zone name | .undefinedProvider zone name => [zone, name]
  | .unknownKind zone kind label => [kind, label, zone]
  | .doubledZone zone label | .outsideZone zone label | .invalidLabel zone label | .longText zone label _
  | .noPreference zone label | .noService zone label | .sharedAlias zone label => [label, zone]
  | .notV4 zone label target | .notV6 zone label target => [label, zone, target]
  | .repeatedRecord zone record => [record, zone]

/-- no line feed is in what a finding quotes -/
def Finding.Unbroken (f : Finding) : Prop := ∀ s ∈ f.quoted, Text.Unbroken s

attribute [local simp] Finding.issue Issue.message Finding.Unbroken Finding.quoted Text.unbroken_append toString

/-- the words of a finding have no line feed of their own -/
theorem unbroken_message (f : Finding) : Text.Unbroken f.issue.message ↔ f.Unbroken := by
  cases f with
  | doubledZone zone label => simp +decide +contextual [iff_def]
  | longText zone label size => simp +decide [Text.unbroken_repr]
  | _ => simp +decide [and_assoc]

/-! ## Plans without line feeds -/

/-- no line feed is in what a report can quote from a record -/
structure UnbrokenRecord (r : Record) : Prop where
  kind : Text.Unbroken r.kind
  label : Text.Unbroken r.label
  target : Text.Unbroken r.target

structure UnbrokenDomain (d : Domain) : Prop where
  name : Text.Unbroken d.name
  registrar : Text.Unbroken d.registrar
  providers : ∀ key ∈ d.providers.keys, Text.Unbroken key
  records : ∀ r ∈ d.records, UnbrokenRecord r

structure UnbrokenPlan (p : Plan) : Prop where
  registrars : ∀ d ∈ p.registrars, Text.Unbroken d.name
  providers : ∀ d ∈ p.providers, Text.Unbroken d.name
  domains : ∀ d ∈ p.domains, UnbrokenDomain d

/-- no finding quotes a line feed -/
def Legible (fs : List Finding) : Prop := ∀ f ∈ fs, f.Unbroken

@[simp] theorem legible_nil : Legible [] := nofun

@[simp] theorem legible_cons (f : Finding) (fs : List Finding) : Legible (f :: fs) ↔ f.Unbroken ∧ Legible fs :=
  List.forall_mem_cons

@[simp] theorem legible_append (fs gs : List Finding) : Legible (fs ++ gs) ↔ Legible fs ∧ Legible gs :=
  List.forall_mem_append

/-- the findings at a label quote it in its final form -/
theorem legible_labelFindings {zone : String} {placement : Placement} (hzone : Text.Unbroken zone)
    (hlabel : Text.Unbroken placement.label) : Legible (labelFindings zone placement) := by
  have hinvalid : ∀ label, Text.Unbroken label → Legible (invalidLabels zone label) := by
    intro label hlabel
    unfold invalidLabels
    split_ifs <;> simp [hzone, hlabel]
  cases placement with
  | doubled label =>
    rw [labelFindings, legible_cons]
    exact ⟨by simpa [hzone, Placement.label] using hlabel, hinvalid label hlabel⟩
  | outside label => simpa [labelFindings, hzone, Placement.label] using hlabel
  | _ => exact hinvalid _ hlabel

/-- the findings at a target quote it as it is given, but only if it is no name of a host -/
theorem legible_targetFindings {zone kind label target : String} (hzone : Text.Unbroken zone)
    (hlabel : Text.Unbroken label) (htarget : kind ∉ hostKinds → Text.Unbroken target) :
    Legible (targetFindings zone kind label target) := by
  unfold targetFindings
  split_ifs with hv4 hv6 htxt
  · have htarget := htarget (hv4.1 ▸ by decide)
    simp [hzone, hlabel, htarget]
  · have htarget := htarget (hv6.1 ▸ by decide)
    simp [hzone, hlabel, htarget]
  · simp [hzone, hlabel]
  · exact legible_nil

theorem legible_fieldFindings {zone : String} {r : Record} (hzone : Text.Unbroken zone)
    (hlabel : Text.Unbroken r.label) : Legible (fieldFindings zone r) := by
  unfold fieldFindings
  split_ifs <;> simp [hzone, hlabel]

theorem legible_recordFindings {zone : String} {r : Record} (hzone : Text.Unbroken zone)
    (h : UnbrokenRecord (normalizeRecord zone r)) : Legible (recordFindings zone r) := by
  obtain ⟨hkind, hlabel, htarget⟩ := h
  by_cases hknown : Text.upper r.kind ∈ knownKinds
  · have hplace : (normalizeRecord zone r).label = (place zone (clean r.label)).label := by
      rw [normalizeRecord_of_known zone hknown]
    have hgiven : Text.upper r.kind ∉ hostKinds → Text.Unbroken r.target := by
      intro hhost
      rwa [normalizeRecord_target zone hhost] at htarget
    rw [recordFindings_of_known zone hknown, legible_append, legible_append]
    exact ⟨⟨legible_labelFindings hzone (hplace ▸ hlabel), legible_targetFindings hzone hlabel hgiven⟩,
      legible_fieldFindings hzone hlabel⟩
  · have hgiven : (normalizeRecord zone r).label = r.label := by rw [normalizeRecord_of_unknown zone hknown]
    rw [normalizeRecord_kind] at hkind
    rw [hgiven] at hlabel
    rw [recordFindings_of_unknown zone hknown]
    simp [hkind, hlabel, hzone]

theorem unbroken_text {r : Record} (h : UnbrokenRecord r) : Text.Unbroken r.text := by
  simp +decide [Record.text, h.kind, h.label, h.target]

/-- what is found in a plan quotes no line feed if there is none in the normal form -/
theorem legible_findings {p : Plan} (h : UnbrokenPlan (normalize p)) : Legible (findings p) := by
  intro f hf
  cases occasion_of_mem_findings hf with
  | registrar hn =>
    obtain ⟨registrar, hregistrar, rfl⟩ := List.mem_map.1 hn
    simp [h.registrars registrar hregistrar]
  | provider hn =>
    obtain ⟨provider, hprovider, rfl⟩ := List.mem_map.1 hn
    simp [h.providers provider hprovider]
  | domain hd | noRegistrar hd | noProviders hd => simp [(h.domains _ hd).name]
  | registrarOf hd => simp [(h.domains _ hd).name, (h.domains _ hd).registrar]
  | providerOf hd hkey => simp [(h.domains _ hd).name, (h.domains _ hd).providers _ hkey]
  | record hd hr hf =>
    have hdomain := h.domains _ (List.mem_map_of_mem hd)
    exact legible_recordFindings hdomain.name (hdomain.records _ (List.mem_map_of_mem hr)) f hf
  | sharedAlias hd hr => simp [(h.domains _ hd).name, ((h.domains _ hd).records _ hr).label]
  | repeatedRecord hd hr => simp [(h.domains _ hd).name, unbroken_text ((h.domains _ hd).records _ hr)]

/-- **The lines of a report**: nothing if there are no issues, and else the heading and the rows of the issues in order,
each with a line feed behind it. These are its lines exactly if no finding quotes a line feed, so at any rate if there is
none in a name, kind, label or target of the normal form. The validation fails exactly if one of the issues is an error. -/
theorem report_lines (p : Plan) :
    let issues := (validate p).2
    (issues = [] → Issue.report issues = "") ∧
      (issues ≠ [] →
        Issue.report issues = Text.ofRows (Issue.rows issues) ∧
          (Text.lines (Issue.report issues) = Issue.rows issues ↔ ∀ f ∈ findings p, f.Unbroken)) ∧
      (UnbrokenPlan (validate p).1 → ∀ f ∈ findings p, f.Unbroken) ∧
      (issues.any Issue.isFatal = true ↔ ∃ message, .error message ∈ issues) := by
  intro issues
  have hmessages : (∀ i ∈ issues, Text.Unbroken i.message) ↔ ∀ f ∈ findings p, f.Unbroken := by
    apply List.forall_mem_map.trans
    simp only [unbroken_message]
  refine ⟨fun hnone => by rw [hnone]; rfl, ?_, legible_findings, Issue.any_isFatal issues⟩
  intro hissues
  rw [Issue.report_eq hissues]
  exact ⟨rfl, (Text.lines_eq_iff _).trans ((Issue.unbroken_rows issues).trans hmessages)⟩

/-- a record that is wrong twice in a domain without providers -/
theorem report_lines_mail :
    let p : Plan := {
      registrars := [⟨"none", "NONE"⟩],
      domains := [{ name := "a", registrar := "none", records := [{ kind := "MX", label := "-", target := "b" }] }] }
    Text.lines (Issue.report (validate p).2) =
      ["3 Validation errors:", "WARNING: domain a has no DNS providers; its records will not be published",
        "ERROR: invalid label - in a", "ERROR: MX record - in a has no preference"] := by
  intro p
  obtain ⟨-, hlines, hlegible, -⟩ := report_lines p
  have hissues : (validate p).2 ≠ [] := by decide +kernel
  have hnormal : UnbrokenPlan (validate p).1 := by
    refine ⟨by decide +kernel, nofun, ?_⟩
    intro d hd
    obtain rfl := List.mem_singleton.1 hd
    refine ⟨by decide +kernel, by decide +kernel, nofun, ?_⟩
    intro r hr
    obtain rfl := List.mem_singleton.1 hr
    exact ⟨by decide +kernel, by decide +kernel, by decide +kernel⟩
  rw [(hlines hissues).2.2 (hlegible hnormal)]
  decide +kernel

/-- a line feed in a target adds a line that looks like an issue -/
theorem target_adds_line :
    ¬∀ p : Plan, (validate p).2 ≠ [] →
      Text.lines (Issue.report (validate p).2) = Issue.rows (validate p).2 := by
  intro h
  let p : Plan := {
    registrars := [⟨"none", "NONE"⟩], providers := [⟨"bind", "BIND"⟩],
    domains := [{
      name := "example.com", registrar := "none", providers := .ofList [("bind", none)],
      records := [{ kind := "A", label := "www", target := "x\nERROR: domain evil.example has no registrar" }] }] }
  have hlines := h p (by decide +kernel)
  have hadded : Text.lines (Issue.report (validate p).2) =
      ["1 Validation errors:", "ERROR: A record www in example.com has invalid IPv4 address x",
        "ERROR: domain evil.example has no registrar"] := by decide +kernel
  have hcount : (Issue.rows (validate p).2).length = 2 := by decide +kernel
  rw [← hlines, hadded] at hcount
  cases hcount

end Zone

end ZonePlan
