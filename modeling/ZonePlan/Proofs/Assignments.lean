/-
Variables by their assignments.

A text assigns what stands behind its first `=` to the name in front of it (`Assigns`). A list of texts gives a name
values, one after another, and the last of them stays (`get?_ofAssignments`). What the list makes of a name is therefore
settled by the values that the name is given, in their order (`ofAssignments_congr`): other texts between them, and the
order in which different names take turns (`Rearranged`), count for nothing. `last_assignment_counts` says all of it by
the texts alone.
-/
import ZonePlan.Proofs.SortedMap
import ZonePlan.Proofs.Text
import ZonePlan.Variables

namespace ZonePlan.Variables

/-! ## One assignment -/

/-- a text with a name in front of its first `=` and a value behind it -/
def Assigns (name value s : String) : Prop := s = name ++ "=" ++ value ∧ '=' ∉ name.toList

theorem Assigns.mem {name value s : String} (h : Assigns name value s) : '=' ∈ s.toList := by
  rw [h.1]
  simp

theorem assignment?_eq_some_iff {name value s : String} :
    assignment? s = some (name, value) ↔ Assigns name value s := by
  rw [assignment?, Option.map_eq_some_iff]
  constructor
  · rintro ⟨⟨before, after⟩, hcut, hpair⟩
    cases hpair
    obtain ⟨hs, hname⟩ := Text.cutFirst?_eq_some_iff.1 hcut
    refine ⟨?_, by rwa [String.toList_ofList]⟩
    rw [← String.toList_inj, hs]
    simp
  · rintro ⟨rfl, hname⟩
    refine ⟨(name.toList, value.toList), Text.cutFirst?_eq_some_iff.2 ⟨by simp, hname⟩, ?_⟩
    simp only [String.ofList_toList]

/-- a text assigns to one name, and one value -/
theorem Assigns.unique {name other value value' s : String} (h : Assigns name value s) (h' : Assigns other value' s) :
    name = other ∧ value = value' := by
  have hpair := (assignment?_eq_some_iff.2 h).symm.trans (assignment?_eq_some_iff.2 h')
  exact Prod.mk.inj (Option.some.inj hpair)

/-- the value that a text assigns to a name -/
def assigned? (name s : String) : Option String :=
  (assignment? s).bind (SortedMap.valueFor name)

theorem assigned?_eq_some_iff {name value s : String} : assigned? name s = some value ↔ Assigns name value s :=
  SortedMap.bind_valueFor_eq_some_iff.trans assignment?_eq_some_iff

theorem assigned?_eq_none_iff {name s : String} : assigned? name s = none ↔ ∀ value, ¬Assigns name value s := by
  simp only [Option.eq_none_iff_forall_ne_some, ne_eq, assigned?_eq_some_iff]

/-! ## Lists of assignments -/

/-- the values that a list of texts assigns to a name, in order -/
def assignedIn (name : String) (ss : List String) : List String := ss.filterMap (assigned? name)

theorem assignedIn_append (name : String) (xs ys : List String) :
    assignedIn name (xs ++ ys) = assignedIn name xs ++ assignedIn name ys :=
  List.filterMap_append

theorem assignedIn_eq_nil_iff {name : String} {ss : List String} :
    assignedIn name ss = [] ↔ ∀ s ∈ ss, ∀ value, ¬Assigns name value s := by
  simp only [assignedIn, List.filterMap_eq_nil_iff, assigned?_eq_none_iff]

/-- of the values of a name the last one stays -/
theorem get?_ofAssignments (ss : List String) (name : String) :
    (ofAssignments ss).get? name = (assignedIn name ss).getLast? := by
  have hassigned : ∀ s value, assigned? name s = some value ↔ assignment? s = some (name, value) := fun _ _ =>
    SortedMap.bind_valueFor_eq_some_iff
  rw [ofAssignments, SortedMap.get?_ofList, ← List.filterMap_reverse, SortedMap.lookup_filterMap hassigned, assignedIn,
    List.getLast?_filterMap]

/-- lists that assign the same values to each name in the same order make the same variables -/
theorem ofAssignments_congr {xs ys : List String} (h : ∀ name, assignedIn name xs = assignedIn name ys) :
    ofAssignments xs = ofAssignments ys :=
  SortedMap.ext_get? fun name => by rw [get?_ofAssignments, get?_ofAssignments, h name]

/-- the value of a name is that of an assignment behind which there is no other one to the name -/
theorem getLast?_assignedIn {name value : String} {ss : List String} :
    (assignedIn name ss).getLast? = some value ↔
      ∃ before s after, ss = before ++ s :: after ∧ Assigns name value s ∧
        ∀ t ∈ after, ∀ other, ¬Assigns name other t := by
  rw [assignedIn, List.getLast?_filterMap, List.findSome?_eq_some_iff]
  simp only [assigned?_eq_some_iff, assigned?_eq_none_iff]
  constructor
  · rintro ⟨after, s, before, hss, hs, hafter⟩
    refine ⟨before.reverse, s, after.reverse, ?_, hs, fun t ht => hafter t (List.mem_reverse.1 ht)⟩
    simpa using List.reverse_eq_append_iff.1 hss
  · rintro ⟨before, s, after, rfl, hs, hafter⟩
    refine ⟨after.reverse, s, before.reverse, ?_, hs, fun t ht => hafter t (List.mem_reverse.1 ht)⟩
    simp

/-! ## Lists in another order -/

/-- a list with neighbours exchanged, as often as one likes, that do not both assign to one name -/
inductive Rearranged : List String → List String → Prop where
  | refl (ss : List String) : Rearranged ss ss
  | swap (before after : List String) {s t : String}
      (apart : ∀ name value other, Assigns name value s → ¬Assigns name other t) :
      Rearranged (before ++ s :: t :: after) (before ++ t :: s :: after)
  | trans {xs ys zs : List String} : Rearranged xs ys → Rearranged ys zs → Rearranged xs zs

/-- of two neighbours that do not both assign to a name, at most one gives it a value -/
theorem assignedIn_swap {s t : String} (apart : ∀ name value other, Assigns name value s → ¬Assigns name other t)
    (name : String) (after : List String) : assignedIn name (s :: t :: after) = assignedIn name (t :: s :: after) := by
  simp only [assignedIn, List.filterMap_cons]
  cases hs : assigned? name s with
  | none => rfl
  | some value =>
    have ht : assigned? name t = none :=
      assigned?_eq_none_iff.2 fun other => apart name value other (assigned?_eq_some_iff.1 hs)
    rw [ht]

theorem Rearranged.assignedIn_eq {xs ys : List String} (h : Rearranged xs ys) (name : String) :
    assignedIn name xs = assignedIn name ys := by
  induction h with
  | refl ss => rfl
  | swap before after apart => rw [assignedIn_append, assignedIn_append, assignedIn_swap apart]
  | trans _ _ ihxy ihyz => exact ihxy.trans ihyz

/-- **The last assignment to a name counts**: a name has the value of the last text that assigns to it, and none if no
text does. So a list behind another one overrides it, texts without `=` make no difference, and assignments to different
names can stand in any order: it is enough that each name is given the same values in the same order. -/
theorem last_assignment_counts :
    (∀ ss name value, (ofAssignments ss).get? name = some value ↔
      ∃ before s after, ss = before ++ s :: after ∧ Assigns name value s ∧
        ∀ t ∈ after, ∀ other, ¬Assigns name other t) ∧
    (∀ ss name, (ofAssignments ss).get? name = none ↔ ∀ s ∈ ss, ∀ value, ¬Assigns name value s) ∧
    (∀ xs ys name, (ofAssignments (xs ++ ys)).get? name =
      ((ofAssignments ys).get? name).or ((ofAssignments xs).get? name)) ∧
    (∀ xs others ys, (∀ s ∈ others, '=' ∉ s.toList) → ofAssignments (xs ++ others ++ ys) = ofAssignments (xs ++ ys)) ∧
    (∀ xs ys, Rearranged xs ys → ofAssignments xs = ofAssignments ys) ∧
    ∀ xs ys, (∀ name, assignedIn name xs = assignedIn name ys) → ofAssignments xs = ofAssignments ys := by
  refine ⟨fun ss name value => ?_, fun ss name => ?_, fun xs ys name => ?_, fun xs others ys hothers => ?_,
    fun xs ys h => ofAssignments_congr h.assignedIn_eq, fun xs ys => ofAssignments_congr⟩
  · rw [get?_ofAssignments, getLast?_assignedIn]
  · rw [get?_ofAssignments, List.getLast?_eq_none_iff, assignedIn_eq_nil_iff]
  · rw [get?_ofAssignments, get?_ofAssignments, get?_ofAssignments, assignedIn_append, List.getLast?_append]
  · refine ofAssignments_congr fun name => ?_
    have hnone : assignedIn name others = [] :=
      assignedIn_eq_nil_iff.2 fun s hs _ hassigns => hothers s hs hassigns.mem
    rw [assignedIn_append, assignedIn_append, assignedIn_append, hnone, List.append_nil]

/-- two values for one name, and between them a text without `=` and a value with one in it -/
theorem last_assignment_counts_token :
    let ss := ["ip=192.0.2.1", "novalue", "token=a=b", "ip=192.0.2.2"]
    (ofAssignments ss).get? "ip" = some "192.0.2.2" ∧ (ofAssignments ss).get? "token" = some "a=b" ∧
      ofAssignments ss = ofAssignments ["token=a=b", "ip=192.0.2.1", "ip=192.0.2.2"] := by
  intro ss
  obtain ⟨hlast, -, -, hothers, hrearranged, -⟩ := last_assignment_counts
  have hfirst : Assigns "ip" "192.0.2.1" "ip=192.0.2.1" := ⟨by decide, by decide⟩
  have hsecond : Assigns "ip" "192.0.2.2" "ip=192.0.2.2" := ⟨by decide, by decide⟩
  have htoken : Assigns "token" "a=b" "token=a=b" := ⟨by decide, by decide⟩
  refine ⟨?_, ?_, ?_⟩
  · refine (hlast ss "ip" "192.0.2.2").2 ⟨["ip=192.0.2.1", "novalue", "token=a=b"], _, [], rfl, hsecond, ?_⟩
    exact List.forall_mem_nil _
  · refine (hlast ss "token" "a=b").2 ⟨["ip=192.0.2.1", "novalue"], _, ["ip=192.0.2.2"], rfl, htoken, ?_⟩
    intro t ht other hother
    rw [List.mem_singleton.1 ht] at hother
    exact absurd (hother.unique hsecond).1 (by decide)
  · refine (hothers ["ip=192.0.2.1"] ["novalue"] ["token=a=b", "ip=192.0.2.2"] (by decide)).trans ?_
    refine hrearranged _ _ (.swap [] ["ip=192.0.2.2"] fun name value other hs ht => ?_)
    exact absurd ((hfirst.unique hs).1.trans (ht.unique htoken).1) (by decide)

end ZonePlan.Variables
