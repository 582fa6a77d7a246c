/-
The arguments behind the label of a record may be combined into one text (`record_combined`).

On one side each argument is expanded and the results are joined, on the other the raw texts are joined and the whole is
expanded. It comes to the same because a reference cannot hold a blank: none begins in one text and ends in the next
(`reference?_append`), so the template of two texts with a blank between them is made of their templates, with the same
undefined names in the same order. An integer has no dollar sign in its digits and stays what it is in a text.

The comparison is one of results. What is remarked on the way may differ: of several references without a value, a text
of its own remarks the first one.
-/
import ZonePlan.Proofs.Evaluation.Success
import ZonePlan.Proofs.Interpolation

namespace ZonePlan

/-! ## Templates of joined texts -/

namespace Template

variable {cs ds : List Char}

/-- no reference goes on over a blank -/
theorem reference?_append (cs ds : List Char) :
    reference? (cs ++ ' ' :: ds) = (reference? cs).map fun (name, rest) => (name, rest ++ ' ' :: ds) := by
  cases hfound : reference? cs with
  | some reference =>
    obtain ⟨name, rest⟩ := reference
    obtain ⟨hname, rfl⟩ := reference?_eq_some_iff.1 hfound
    exact reference?_eq_some_iff.2 ⟨hname, by simp⟩
  | none =>
    cases cs with
    | nil => rfl
    | cons c cs =>
      rw [Option.map_none, Option.eq_none_iff_forall_ne_some]
      rintro ⟨name, rest⟩ hmore
      obtain ⟨hname, htext⟩ := reference?_eq_some_iff.1 hmore
      have hblank : ∀ d ∈ (' ' :: ds).head?, d ∉ (written name).tail := by
        rintro d ⟨⟩
        exact not_mem_written_tail (by decide) (by decide) hname
      refine reference?_eq_none hfound hname ?_
      exact written_prefix_of_append (List.cons_ne_nil c cs) hblank ⟨rest, htext.symm⟩

theorem ofChars_blank (ds : List Char) : ofChars (' ' :: ds) = ⟨' ' :: (ofChars ds).start, (ofChars ds).rest⟩ :=
  ofChars_of_plain rfl

/-- a reference at the beginning of the first text is one of both texts -/
theorem ofChars_append_of_reference {name : String} {rest : List Char} (h : reference? cs = some (name, rest))
    (ds : List Char) :
    ofChars (cs ++ ' ' :: ds) =
      ⟨[], (name, (ofChars (rest ++ ' ' :: ds)).start) :: (ofChars (rest ++ ' ' :: ds)).rest⟩ := by
  have hmore : reference? (cs ++ ' ' :: ds) = some (name, rest ++ ' ' :: ds) := by
    rw [reference?_append, h]
    rfl
  exact ofChars_of_reference hmore

theorem ofChars_append_of_plain {c : Char} (h : reference? (c :: cs) = none) (ds : List Char) :
    ofChars (c :: cs ++ ' ' :: ds) = ⟨c :: (ofChars (cs ++ ' ' :: ds)).start, (ofChars (cs ++ ' ' :: ds)).rest⟩ := by
  have hmore : reference? (c :: (cs ++ ' ' :: ds)) = none := by
    rw [← List.cons_append, reference?_append, h]
    rfl
  exact ofChars_of_plain hmore

/-- the references of two texts are the references of the one text -/
theorem names_append (cs ds : List Char) :
    (ofChars (cs ++ ' ' :: ds)).names = (ofChars cs).names ++ (ofChars ds).names := by
  fun_induction ofChars cs with
  | case1 cs name rest found t ih =>
    rw [ofChars_append_of_reference found]
    simpa [names] using ih
  | case2 =>
    rw [List.nil_append, ofChars_blank]
    rfl
  | case3 c cs hnone t ih =>
    rw [ofChars_append_of_plain hnone]
    exact ih

/-- two texts are filled in one by one -/
theorem fill_append (value : String → List Char) (cs ds : List Char) :
    (ofChars (cs ++ ' ' :: ds)).fill value = (ofChars cs).fill value ++ " " ++ (ofChars ds).fill value := by
  rw [← String.toList_inj]
  simp only [fill, String.toList_append, String.toList_ofList]
  fun_induction ofChars cs with
  | case1 cs name rest found t ih =>
    rw [ofChars_append_of_reference found]
    simpa using ih
  | case2 =>
    rw [List.nil_append, ofChars_blank]
    rfl
  | case3 c cs hnone t ih =>
    rw [ofChars_append_of_plain hnone]
    simpa using ih

/-- a text without a dollar sign is plain -/
theorem ofString_of_plain {s : String} (h : '$' ∉ s.toList) : ofString s = ⟨s.toList, []⟩ := by
  refine Eq.symm (Reads.eq_ofString ⟨?_, List.forall_mem_nil _, ?_⟩)
  · rw [fill, List.flatMap_nil, List.append_nil, String.ofList_toList]
  · intro text htext
    obtain rfl := List.mem_singleton.1 htext
    rintro ⟨name, -, hin⟩
    exact h (hin.subset List.mem_cons_self)

end Template

/-! ## Expansion of joined texts -/

namespace Variables

variable (v : Variables)

theorem interpolate_append (s t : String) :
    v.interpolate (s ++ " " ++ t) = v.interpolate s ++ " " ++ v.interpolate t := by
  have htext : (s ++ " " ++ t).toList = s.toList ++ ' ' :: t.toList := by simp
  rw [interpolate, Template.ofString, htext, Template.fill_append]
  rfl

theorem undefinedIn_append (s t : String) : v.undefinedIn (s ++ " " ++ t) = v.undefinedIn s ++ v.undefinedIn t := by
  have htext : (s ++ " " ++ t).toList = s.toList ++ ' ' :: t.toList := by simp
  rw [undefinedIn, Template.ofString, htext, Template.names_append, List.filter_append]
  rfl

end Variables

namespace Evaluation

variable {α β γ : Type}

/-- the results of two evaluations go together as the evaluations do -/
theorem result_bind (x : Evaluation α) (f : α → Evaluation β) :
    (x >>= f).result = x.result >>= fun a => (f a).result := by
  cases hx : x.result with
  | ok a =>
    rw [andThen_of_ok hx]
    rfl
  | error fault =>
    rw [andThen_of_error hx]
    rfl

/-- evaluations with the same results place by place have the same results -/
theorem forEach_result_congr {f : α → Evaluation γ} {g : β → Evaluation γ} {xs : List α} {ys : List β}
    (h : List.Forall₂ (fun x y => (f x).result = (g y).result) xs ys) :
    (forEach f xs).result = (forEach g ys).result := by
  induction h with
  | nil => rfl
  | cons hhead _ ih => simp only [forEach, result_bind, hhead, ih]

end Evaluation

namespace Setting

open Kdl (Node Value Entry)
open Evaluation

variable (setting : Setting)

/-- the names for which a text is not expanded; in development mode there are none -/
def missing (s : String) : List String :=
  if setting.development then [] else setting.scope.undefinedIn s

theorem missing_append (s t : String) :
    setting.missing (s ++ " " ++ t) = setting.missing s ++ setting.missing t := by
  unfold missing
  split_ifs
  · rfl
  · exact setting.scope.undefinedIn_append s t

/-- the first name that is missing ends the expansion of a text -/
theorem result_expand (s : String) :
    (setting.expand s).result =
      match setting.missing s with
      | [] => .ok (setting.scope.interpolate s)
      | name :: _ => .error (.undefined name) := by
  unfold expand missing Variables.interpolate?
  cases setting.scope.undefinedIn s with
  | nil => split_ifs <;> rfl
  | cons name names => split_ifs <;> rfl

/-- texts with a blank between them are expanded one after the other -/
theorem result_expand_append (s t : String) :
    (setting.expand (s ++ " " ++ t)).result = do
      let a ← (setting.expand s).result
      let b ← (setting.expand t).result
      return a ++ " " ++ b := by
  rw [result_expand, result_expand, result_expand, missing_append, Variables.interpolate_append]
  cases setting.missing s with
  | nil => cases setting.missing t <;> rfl
  | cons name names => rfl

theorem result_expand_of_plain {s : String} (h : '$' ∉ s.toList) : (setting.expand s).result = .ok s := by
  have hnames : setting.scope.undefinedIn s = [] := by
    rw [Variables.undefinedIn, Template.ofString_of_plain h]
    rfl
  have htext : setting.scope.interpolate s = s := by
    rw [Variables.interpolate, Template.ofString_of_plain h]
    simp [Template.fill]
  have hmissing : setting.missing s = [] := by
    unfold missing
    rw [hnames, ite_self]
  rw [result_expand, hmissing, htext]

/-- texts are expanded one after the other in the text that blanks join them to -/
theorem result_expand_joinWith (ss : List String) :
    (setting.expand (Text.joinWith " " ss)).result = Text.joinWith " " <$> (forEach setting.expand ss).result := by
  fun_induction Text.joinWith " " ss with
  | case1 => exact setting.result_expand_of_plain (List.not_mem_nil)
  | case2 s =>
    simp only [forEach, result_bind]
    cases (setting.expand s).result <;> rfl
  | case3 s t rest ih =>
    rw [result_expand_append, ih]
    simp only [forEach, result_bind]
    cases (setting.expand s).result with
    | error fault => rfl
    | ok a =>
      cases (setting.expand t).result with
      | error fault => rfl
      | ok b => cases (forEach setting.expand rest).result <;> rfl

/-! ## Arguments -/

/-- the raw text of an argument: of an integer its decimal digits -/
def rawText? : Value → Option String
  | .string s => some s
  | .integer n => some (toString n)
  | _ => none

/-- no integer is written with a dollar sign -/
theorem dollar_not_mem_toString (n : Int) : '$' ∉ (toString n).toList := by
  have hnat : ∀ k : Nat, '$' ∉ (toString k).toList := by
    intro k hmem
    rw [Nat.toString_eq_ofList_toDigits, String.toList_ofList] at hmem
    exact absurd (Nat.isDigit_of_mem_toDigits (by decide) le_rfl hmem) (by decide)
  cases n with
  | ofNat k => exact hnat k
  | negSucc k =>
    have htext : toString (Int.negSucc k) = "-" ++ toString (k + 1) := rfl
    rw [htext, String.toList_append, List.mem_append, not_or]
    exact ⟨by decide, hnat (k + 1)⟩

/-- an argument stands for its raw text -/
theorem result_argument {node : Node} {value : Value} {s : String} (h : rawText? value = some s) :
    (setting.argument node value).result = (setting.expand s).result := by
  cases value with
  | string t =>
    cases h
    rfl
  | integer n =>
    cases h
    exact (setting.result_expand_of_plain (dollar_not_mem_toString n)).symm
  | real x => cases h
  | boolean b => cases h
  | null => cases h

/-! ## Records -/

/-- a node with the arguments behind its label combined into one text of their raw texts with blanks between them,
wherever this stands among the properties -/
structure Combines (node combined : Node) : Prop where
  name : combined.name = node.name
  properties : combined.entries.filter (·.name?.isSome) = node.entries.filter (·.name?.isSome)
  arguments : ∃ label values texts, node.arguments = label :: values ∧
    List.Forall₂ (fun value text => rawText? value = some text) values texts ∧
    combined.arguments = [label, .string (Text.joinWith " " texts)]

/-- the arguments may be combined in the place of the first of them -/
theorem combines_inPlace {name : String} {front back : List Entry} {children : List Node} {label value : Value}
    {texts : List String} (hlabel : (front.filter (·.name?.isNone)).map Entry.value = [label])
    (htexts : List.Forall₂ (fun value text => rawText? value = some text)
      (value :: (back.filter (·.name?.isNone)).map Entry.value) texts) :
    Combines ⟨name, front ++ ⟨none, value⟩ :: back, children⟩
      ⟨name, front ++ ⟨none, .string (Text.joinWith " " texts)⟩ :: back.filter (·.name?.isSome), children⟩ where
  name := rfl
  properties := by simp
  arguments := by
    have hnone : (back.filter (·.name?.isSome)).filter (·.name?.isNone) = [] := by
      simp [List.filter_filter]
    refine ⟨label, _, texts, ?_, htexts, ?_⟩
    · simp [Node.arguments, hlabel]
    · simp [Node.arguments, hlabel, hnone]

theorem argument_congr {node combined : Node} (h : combined.name = node.name) (value : Value) :
    setting.argument combined value = setting.argument node value := by
  cases value <;> simp only [argument, h]

namespace Combines

variable {node combined : Node} (h : Combines node combined)
include h

/-- properties are looked up as before -/
theorem property?_eq (name : String) : combined.property? name = node.property? name := by
  have hproperties : ∀ n : Node, n.property? name =
      ((n.entries.filter (·.name?.isSome)).reverse.find? (·.name? == some name)).map Entry.value := by
    intro n
    rw [Node.property?, ← List.filter_reverse, List.find?_filter]
    congr 2
    funext e
    rw [Bool.eq_iff_iff]
    cases e.name? <;> simp
  rw [hproperties, hproperties, h.properties]

theorem metadata_eq : combined.entries.filterMap metadataEntry? = node.entries.filterMap metadataEntry? := by
  have hproperties : ∀ n : Node, n.entries.filterMap metadataEntry? =
      (n.entries.filter (·.name?.isSome)).filterMap metadataEntry? := by
    intro n
    rw [List.filterMap_filter]
    congr 1
    funext e
    cases hname : e.name? <;> simp [hname, metadataEntry?]
  rw [hproperties, hproperties, h.properties]

/-- the arguments come to the same label and the same target, or to the same fault -/
theorem result_arguments :
    ((setting.arguments node).result = (setting.arguments combined).result ∧
        ∃ fault, (setting.arguments node).result = .error fault) ∨
      ∃ label rest, (setting.arguments node).result = .ok (label :: rest) ∧
        (setting.arguments combined).result = .ok [label, Text.joinWith " " rest] := by
  obtain ⟨label, values, texts, hnode, htexts, hcombined⟩ := h.arguments
  have hvalues : (forEach (setting.argument node) values).result = (forEach setting.expand texts).result :=
    forEach_result_congr (htexts.imp fun value text => setting.result_argument)
  have htarget : (setting.argument node (.string (Text.joinWith " " texts))).result =
      Text.joinWith " " <$> (forEach setting.expand texts).result := setting.result_expand_joinWith texts
  simp only [Setting.arguments, hnode, hcombined, forEach, result_bind, hvalues, htarget, setting.argument_congr h.name]
  cases (setting.argument node label).result with
  | error fault => exact Or.inl ⟨rfl, fault, rfl⟩
  | ok l =>
    cases (forEach setting.expand texts).result with
    | error fault => exact Or.inl ⟨rfl, fault, rfl⟩
    | ok rest => exact Or.inr ⟨l, rest, rfl, rfl⟩

end Combines

/-- **Arguments may be combined**: in any setting and zone, a record whose arguments behind the label are texts and
integers is the same record, or fails with the same fault, as the one with a single text of all of them, with blanks
between them and the properties as they are. -/
theorem record_combined (zone : String) {node combined : Node} (h : Combines node combined) :
    (setting.record zone combined).result = (setting.record zone node).result := by
  unfold record
  rw [result_bind, result_bind, h.name]
  rcases h.result_arguments setting with ⟨hsame, fault, hfault⟩ | ⟨label, rest, hnode, hcombined⟩
  · rw [← hsame, hfault]
    rfl
  · rw [hnode, hcombined, h.metadata_eq, h.property?_eq]
    rfl

/-- properties between the arguments, and a reference with a value and without one -/
theorem record_combined_mail :
    let host : Entry := ⟨none, .string "${host}"⟩
    let front : List Entry := [⟨none, .string "@"⟩, ⟨some "by", .string "${host}"⟩]
    let node : Node := ⟨"mx", front ++ ⟨none, .integer 10⟩ :: [⟨some "ttl", .integer 5⟩, host], []⟩
    let combined : Node := ⟨"mx", front ++ ⟨none, .string "10 ${host}"⟩ :: [⟨some "ttl", .integer 5⟩], []⟩
    let A : Setting := ⟨{ custom := .ofList [("host", "mail")] }, false⟩
    let B : Setting := ⟨{}, false⟩
    let r : Record := {
      kind := "MX", label := "@", target := "10 mail", ttl := 5, metadata := .ofList [("by", "mail")] }
    Combines node combined ∧
      (A.record "zone" node).result = .ok r ∧ (A.record "zone" combined).result = .ok r ∧
      (B.record "zone" node).result = .error (.undefined "host") ∧
      (B.record "zone" combined).result = .error (.undefined "host") := by
  intro host front node combined A B r
  have hlabel : (front.filter (·.name?.isNone)).map Entry.value = [.string "@"] := by decide +kernel
  have htexts : List.Forall₂ (fun value text => rawText? value = some text)
      [.integer 10, .string "${host}"] ["10", "${host}"] := .cons (by decide +kernel) (.cons rfl .nil)
  have hjoined : Text.joinWith " " ["10", "${host}"] = "10 ${host}" := by decide +kernel
  have hcombines : Combines node combined := by
    have hplace : Combines node ⟨"mx", front ++ ⟨none, .string (Text.joinWith " " ["10", "${host}"])⟩ ::
        [⟨some "ttl", .integer 5⟩, host].filter (·.name?.isSome), []⟩ := combines_inPlace hlabel htexts
    rw [hjoined] at hplace
    exact hplace
  have hA : (A.record "zone" node).result = .ok r := by decide +kernel
  have hB : (B.record "zone" node).result = .error (.undefined "host") := by decide +kernel
  refine ⟨hcombines, hA, ?_, hB, ?_⟩
  · rw [record_combined A "zone" hcombines, hA]
  · rw [record_combined B "zone" hcombines, hB]

end Setting

end ZonePlan
