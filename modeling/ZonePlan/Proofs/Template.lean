/-
What a template says about its text: with its references as they are written it is the text again (`fill_written`). So
every name that a template refers to stands in the text within `$` and braces (`written_infix_of_mem_names`).

Each reader of a part of a reference takes off the text exactly what it answers with; the statements go from the name
within the braces to the whole reference.
-/
import Mathlib
import ZonePlan.Variables

namespace ZonePlan.Template

/-! ## References -/

theorem name?_eq_some {continues : Char → Bool} {cs name rest : List Char}
    (h : name? continues cs = some (name, rest)) : cs = name ++ rest := by
  cases cs with
  | nil => cases h
  | cons c cs =>
    simp only [name?] at h
    split_ifs at h
    cases h
    rw [List.cons_append, List.takeWhile_append_dropWhile]

theorem closed?_eq_some {name cs rest : List Char} {s : String} (h : closed? name cs = some (s, rest)) :
    s.toList = name ∧ cs = '}' :: rest := by
  unfold closed? at h
  split at h
  · cases h
    exact ⟨String.toList_ofList, rfl⟩
  · cases h

theorem inner?_eq_some {cs rest : List Char} {s : String} (h : inner? cs = some (s, rest)) :
    cs = s.toList ++ '}' :: rest := by
  unfold inner? at h
  split at h
  · next hname =>
    split at h
    · next hfield =>
      obtain ⟨hs, hrest⟩ := closed?_eq_some h
      rw [name?_eq_some hname, name?_eq_some hfield, hs, hrest]
      simp
    · cases h
  · next hname =>
    obtain ⟨hs, hrest⟩ := closed?_eq_some h
    rw [name?_eq_some hname, hs, hrest]
  · cases h

/-- a reference stands in the text as it is written -/
theorem reference?_eq_some {cs rest : List Char} {name : String} (h : reference? cs = some (name, rest)) :
    cs = written name ++ rest := by
  unfold reference? at h
  split at h
  · rw [inner?_eq_some h]
    simp [written]
  · cases h

/-! ## Templates -/

theorem chars_ofChars (cs : List Char) :
    (ofChars cs).start ++ ((ofChars cs).rest.flatMap fun (name, text) => written name ++ text) = cs := by
  fun_induction ofChars cs with
  | case1 cs name rest found t ih =>
    rw [reference?_eq_some found]
    simpa using ih
  | case2 => rfl
  | case3 c cs hnone t ih => simpa using ih

/-- a template is its text, once its references are put in as they are written -/
theorem fill_written (s : String) : (ofString s).fill written = s := by
  rw [fill, ofString, chars_ofChars, String.ofList_toList]

theorem written_infix_of_mem_names {s name : String} (h : name ∈ (ofString s).names) : written name <:+: s.toList := by
  obtain ⟨⟨_, text⟩, hmem, rfl⟩ := List.mem_map.1 h
  obtain ⟨before, after, hsplit⟩ := List.append_of_mem hmem
  have htext : s.toList = ((ofString s).fill written).toList := by rw [fill_written]
  rw [htext, fill, hsplit, String.toList_ofList, List.flatMap_append, List.flatMap_cons]
  refine ⟨(ofString s).start ++ before.flatMap fun (name, text) => written name ++ text,
    text ++ after.flatMap fun (name, text) => written name ++ text, ?_⟩
  simp

end ZonePlan.Template
