/-
What is left of domains once their records have been split, all of them or up to the first that cannot be split.

The records of all domains stand in one line (`Domain.entries`) and are split from front to back. If one of them stops
the run, the records in front of it are split and those behind it are as they were; of the record itself, two numbers
are set at most, and only of a service (`splitAll_stops`). Nothing else of a record or a domain is touched.

What is left is in its final form. A record that is split is settled. A record that stopped the run stops the next one
at the same word, because the numbers that have been set are not among what is read (`StopsWith.again`). So a second run
ends like the first one, and changes nothing (`splitAll_splitAll`).
-/
import ZonePlan.Proofs.RecordGrammar

namespace ZonePlan

/-! ## One record -/

namespace Record

variable {zone : String} {r s : Record} {fault : Fault}

/-- the parts of a record that splitting leaves as they are -/
structure Keeps (r s : Record) : Prop where
  kind : s.kind = r.kind
  label : s.label = r.label
  ttl : s.ttl = r.ttl
  metadata : s.metadata = r.metadata

theorem Keeps.refl (r : Record) : r.Keeps r := ⟨rfl, rfl, rfl, rfl⟩

theorem SplitsTo.keeps (h : r.SplitsTo s) : r.Keeps s := by
  cases h <;> exact ⟨rfl, rfl, rfl, rfl⟩

theorem StopsWith.keeps (h : r.StopsWith zone s fault) : r.Keeps s := by
  cases h <;> exact ⟨rfl, rfl, rfl, rfl⟩

/-- what is set in a record that cannot be split is its priority and weight at most -/
theorem StopsWith.eq_with (h : r.StopsWith zone s fault) :
    s = { r with priority? := s.priority?, weight? := s.weight? } := by
  cases h <;> rfl

/-- what is set in a record that cannot be split is set in a service -/
theorem StopsWith.kind_of_ne (h : r.StopsWith zone s fault) (hne : s ≠ r) : Text.upper r.kind = "SRV" := by
  cases h with
  | weight hkind | port hkind => exact hkind
  | mx | preference | srv | priority | caa | flag => exact absurd rfl hne

/-- a split record is settled -/
theorem SplitsTo.again (h : r.SplitsTo s) : s.SplitsTo s := by
  cases h with
  | mx hkind => exact .settled (fun _ => rfl) (by simp [hkind]) (by simp [hkind])
  | srv hkind => exact .settled (by simp [hkind]) (fun _ => rfl) (by simp [hkind])
  | caa hkind => exact .settled (by simp [hkind]) (by simp [hkind]) (fun _ => rfl)
  | settled hmx hsrv hcaa => exact .settled hmx hsrv hcaa

/-- a record that could not be split stops again at the same word -/
theorem StopsWith.again (h : r.StopsWith zone s fault) : s.StopsWith zone s fault := by
  cases h with
  | mx hkind hunset htokens => exact .mx hkind hunset htokens
  | preference hkind hunset htokens hraw => exact .preference hkind hunset htokens hraw
  | srv hkind hunset htokens => exact .srv hkind hunset htokens
  | priority hkind hunset htokens hraw => exact .priority hkind hunset htokens hraw
  | @weight _ _ _ _ p hkind hunset htokens hp hraw =>
    exact .weight (r := { r with priority? := some p }) hkind hunset htokens hp hraw
  | @port _ _ _ _ p w hkind hunset htokens hp hw hraw =>
    exact .port (r := { r with priority? := some p, weight? := some w }) hkind hunset htokens hp hw hraw
  | caa hkind hunset htokens => exact .caa hkind hunset htokens
  | flag hkind hunset htokens hraw => exact .flag hkind hunset htokens hraw

/-- splitting once more changes nothing, whether the record could be split or not -/
theorem split_split (zone : String) (r : Record) : (r.split zone).1.split zone = r.split zone := by
  rcases h : r.split zone with ⟨s, _ | fault⟩
  · exact split_of_splitsTo (splitsTo_of_split h).again
  · exact split_of_stopsWith (stopsWith_of_split h).again

theorem keeps_split (zone : String) (r : Record) : r.Keeps (r.split zone).1 := by
  rcases h : r.split zone with ⟨s, _ | fault⟩
  · exact (splitsTo_of_split h).keeps
  · exact (stopsWith_of_split h).keeps

end Record

/-! ## Runs -/

/-- an entry whose record has been split -/
def EntrySplitsTo (x y : String × Record) : Prop :=
  y.1 = x.1 ∧ x.2.SplitsTo y.2

/-- what a run makes of records in a line: without a fault all of them are split, with a fault those in front of one that
stops the run -/
def Run (xs ys : List (String × Record)) : Option Fault → Prop
  | none => List.Forall₂ EntrySplitsTo xs ys
  | some fault => ∃ before before' zone r s after,
    xs = before ++ (zone, r) :: after ∧ ys = before' ++ (zone, s) :: after ∧
      List.Forall₂ EntrySplitsTo before before' ∧ r.StopsWith zone s fault

namespace Run

variable {xs ys front front' : List (String × Record)} {fault : Fault} {fault? : Option Fault}

/-- a run goes on behind records that are split -/
theorem behind (hfront : Run front front' none) (h : Run xs ys fault?) : Run (front ++ xs) (front' ++ ys) fault? := by
  cases fault? with
  | none => exact List.rel_append hfront h
  | some fault =>
    obtain ⟨before, before', zone, r, s, after, rfl, rfl, hbefore, hstops⟩ := h
    refine ⟨front ++ before, front' ++ before', zone, r, s, after, ?_, ?_, List.rel_append hfront hbefore, hstops⟩
    · rw [List.append_assoc]
    · rw [List.append_assoc]

/-- a run that is stopped does not reach what is behind -/
theorem in_front (h : Run xs ys (some fault)) (rest : List (String × Record)) :
    Run (xs ++ rest) (ys ++ rest) (some fault) := by
  obtain ⟨before, before', zone, r, s, after, rfl, rfl, hbefore, hstops⟩ := h
  refine ⟨before, before', zone, r, s, after ++ rest, ?_, ?_, hbefore, hstops⟩
  · rw [List.append_assoc, List.cons_append]
  · rw [List.append_assoc, List.cons_append]

end Run

/-! ## Step by step up to the first fault -/

section

variable {α : Type} {step : α → α × Option Fault}

/-- elements that are steps of a run themselves make a run -/
theorem run_untilFault {entries : α → List (String × Record)}
    (hstep : ∀ x, Run (entries x) (entries (step x).1) (step x).2) (xs : List α) :
    Run (xs.flatMap entries) ((untilFault step xs).1.flatMap entries) (untilFault step xs).2 := by
  induction xs with
  | nil => exact .nil
  | cons x xs ih =>
    have hx := hstep x
    rw [untilFault]
    rcases h : step x with ⟨y, _ | fault⟩
    · rw [h] at hx
      exact hx.behind ih
    · rw [h] at hx
      exact hx.in_front (xs.flatMap entries)

/-- what is true of each element and what becomes of it is true along the list -/
theorem forall₂_untilFault {R : α → α → Prop} (hrefl : ∀ x, R x x) (hstep : ∀ x, R x (step x).1) (xs : List α) :
    List.Forall₂ R xs (untilFault step xs).1 := by
  induction xs with
  | nil => exact .nil
  | cons x xs ih =>
    have hx := hstep x
    rw [untilFault]
    rcases h : step x with ⟨y, _ | fault⟩
    · rw [h] at hx
      exact .cons hx ih
    · rw [h] at hx
      exact .cons hx (List.forall₂_same.2 fun x _ => hrefl x)

/-- if a second step changes nothing, neither does a second time along the list -/
theorem untilFault_untilFault (hstep : ∀ x, step (step x).1 = step x) (xs : List α) :
    untilFault step (untilFault step xs).1 = untilFault step xs := by
  induction xs with
  | nil => rfl
  | cons x xs ih =>
    have hx := hstep x
    conv_rhs => rw [untilFault]
    rw [untilFault]
    rcases h : step x with ⟨y, _ | fault⟩
    · rw [h] at hx
      simp only [untilFault, hx, ih]
    · rw [h] at hx
      simp only [untilFault, hx]

end

/-! ## The records of one domain -/

namespace Record

theorem run_splitAll (zone : String) (rs : List Record) :
    Run (rs.map (zone, ·)) ((splitAll zone rs).1.map (zone, ·)) (splitAll zone rs).2 := by
  have hstep : ∀ r : Record, Run [(zone, r)] [(zone, (r.split zone).1)] (r.split zone).2 := by
    intro r
    rcases h : r.split zone with ⟨s, _ | fault⟩
    · exact .cons ⟨rfl, splitsTo_of_split h⟩ .nil
    · exact ⟨[], [], zone, r, s, [], rfl, rfl, .nil, stopsWith_of_split h⟩
  rw [splitAll_eq, List.map_eq_flatMap, List.map_eq_flatMap]
  exact run_untilFault hstep rs

theorem keeps_splitAll (zone : String) (rs : List Record) : List.Forall₂ Keeps rs (splitAll zone rs).1 := by
  rw [splitAll_eq]
  exact forall₂_untilFault Keeps.refl (keeps_split zone) rs

theorem splitAll_again (zone : String) (rs : List Record) :
    splitAll zone (splitAll zone rs).1 = splitAll zone rs := by
  simp only [splitAll_eq]
  exact untilFault_untilFault (split_split zone) rs

end Record

/-! ## Domains -/

namespace Domain

/-- the records of domains in order, each with the name of its domain -/
def entries (ds : List Domain) : List (String × Record) :=
  ds.flatMap fun d => d.records.map (d.name, ·)

/-- what splitting leaves as it is in a domain: all but its records, their number and order, and what is no field of
them -/
def Keeps (d e : Domain) : Prop :=
  e = { d with records := e.records } ∧ List.Forall₂ Record.Keeps d.records e.records

theorem Keeps.refl (d : Domain) : d.Keeps d :=
  ⟨rfl, List.forall₂_same.2 fun r _ => .refl r⟩

theorem run_splitAll (ds : List Domain) : Run (entries ds) (entries (splitAll ds).1) (splitAll ds).2 := by
  rw [splitAll_eq]
  exact run_untilFault (fun d => Record.run_splitAll d.name d.records) ds

theorem keeps_splitAll (ds : List Domain) : List.Forall₂ Keeps ds (splitAll ds).1 := by
  rw [splitAll_eq]
  exact forall₂_untilFault Keeps.refl (fun d => ⟨rfl, Record.keeps_splitAll d.name d.records⟩) ds

/-- **Splitting stops at one record.** Of every domain only the records are touched; none of them is added, dropped or put
elsewhere, and kind, label, time to live and metadata of each stay. Without a fault every record is split. With a fault,
the records up to one are split, that one stops the run and has its priority and weight set at most, if it is a service,
and the records behind it are as they were. -/
theorem splitAll_stops (ds : List Domain) :
    let es := (splitAll ds).1
    List.Forall₂ Keeps ds es ∧
      match (splitAll ds).2 with
      | none => List.Forall₂ EntrySplitsTo (entries ds) (entries es)
      | some fault => ∃ before before' zone r s after,
          entries ds = before ++ (zone, r) :: after ∧ entries es = before' ++ (zone, s) :: after ∧
          List.Forall₂ EntrySplitsTo before before' ∧ r.StopsWith zone s fault ∧
          s = { r with priority? := s.priority?, weight? := s.weight? } ∧
          (s ≠ r → Text.upper r.kind = "SRV") := by
  intro es
  refine ⟨keeps_splitAll ds, ?_⟩
  have hrun : Run (entries ds) (entries es) (splitAll ds).2 := run_splitAll ds
  rcases hfault : (splitAll ds).2 with _ | fault
  · rwa [hfault] at hrun
  · rw [hfault] at hrun
    obtain ⟨before, before', zone, r, s, after, hxs, hys, hbefore, hstops⟩ := hrun
    exact ⟨before, before', zone, r, s, after, hxs, hys, hbefore, hstops, hstops.eq_with, hstops.kind_of_ne⟩

/-- the port of a service is bad, behind a record that is split and in front of others -/
example :
    let mail : Record := { kind := "MX", label := "@", target := "10 m" }
    let service : Record := { kind := "SRV", label := "_s", target := "1 2 x h" }
    splitAll [{ name := "a", records := [mail, service, mail] }, { name := "b", records := [mail] }] =
      ([{ name := "a", records := [
            { mail with target := "m", preference? := some 10 },
            { service with priority? := some 1, weight? := some 2 }, mail] },
          { name := "b", records := [mail] }],
        some (.invalid "port of SRV record '_s' in domain 'a'" "'x' is not a valid number")) := by
  decide +kernel

/-- **A second run of splitting changes nothing** and ends like the first one, with the same fault if it had one. -/
theorem splitAll_splitAll (ds : List Domain) : splitAll (splitAll ds).1 = splitAll ds := by
  have hstep : ∀ d : Domain, splitRecords (splitRecords d).1 = splitRecords d := by
    intro d
    simp only [splitRecords, Record.splitAll_again]
  simp only [splitAll_eq]
  exact untilFault_untilFault hstep ds

end Domain

end ZonePlan
