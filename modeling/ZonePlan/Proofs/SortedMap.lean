/-
Look-ups in maps, and the entries that answer them.

An entry is in a map exactly if its key stands for its value (`mem_entries_iff`), and no key has two entries
(`nodup_keys`); so a map is known by its look-ups (`ext_get?`). One more pair changes what its own key stands for and
nothing else (`get?_insert`). So in the map of a list of pairs each key stands for the value of the last pair that has
it (`get?_ofList`).
-/
import Mathlib
import ZonePlan.SortedMap

namespace ZonePlan.SortedMap

variable {α : Type}

/-! ## Entries -/

theorem lookup_cons (entry : String × α) (entries : List (String × α)) (key : String) :
    (entry :: entries).lookup key = if key = entry.1 then some entry.2 else entries.lookup key := by
  rw [List.lookup_cons]
  by_cases hkey : key = entry.1
  · rw [if_pos hkey, hkey, beq_self_eq_true]
  · rw [if_neg hkey, beq_eq_false_iff_ne.2 hkey]

theorem lookup_eq_some_iff {entries : List (String × α)} (h : (entries.map Prod.fst).Nodup) {key : String} {value : α} :
    entries.lookup key = some value ↔ (key, value) ∈ entries := by
  induction entries with
  | nil => simp
  | cons entry entries ih =>
    obtain ⟨hnew, hrest⟩ := List.nodup_cons.1 h
    rw [lookup_cons, List.mem_cons]
    split_ifs with hkey
    · have hnone : (key, value) ∉ entries := by
        intro hmem
        apply hnew
        rw [← hkey]
        exact List.mem_map_of_mem hmem
      rw [or_iff_left hnone, Option.some.injEq, Prod.ext_iff]
      exact ⟨fun hvalue => ⟨hkey, hvalue.symm⟩, fun hentry => hentry.2.symm⟩
    · rw [ih hrest, or_iff_right]
      intro hentry
      exact hkey (congrArg Prod.fst hentry)

theorem nodup_keys (m : SortedMap α) : m.keys.Nodup := by
  have hascending : m.keys.Pairwise (· < ·) := List.pairwise_map.2 m.ascending
  apply hascending.imp
  rintro key other hlt rfl
  exact String.lt_irrefl key hlt

theorem mem_entries_iff {m : SortedMap α} {key : String} {value : α} :
    (key, value) ∈ m.entries ↔ m.get? key = some value :=
  (lookup_eq_some_iff m.nodup_keys).symm

/-- the look-ups are the whole map -/
theorem ext_get? {m n : SortedMap α} (h : ∀ key, m.get? key = n.get? key) : m = n := by
  have hkeys : ∀ l : SortedMap α, l.entries.Nodup := fun l => List.Nodup.of_map Prod.fst l.nodup_keys
  have hmem : ∀ entry, entry ∈ m.entries ↔ entry ∈ n.entries := by
    rintro ⟨key, value⟩
    rw [mem_entries_iff, mem_entries_iff, h key]
  have hperm := (List.perm_ext_iff_of_nodup (hkeys m) (hkeys n)).2 hmem
  refine ext (hperm.eq_of_pairwise ?_ m.ascending n.ascending)
  intro a b _ _ hlt hgt
  exact absurd hgt (String.lt_asymm hlt)

/-! ## Pairs -/

/-- the value of a pair, if the key is that of the pair -/
def valueFor (key : String) (pair : String × α) : Option α :=
  if key = pair.1 then some pair.2 else none

theorem bind_valueFor_eq_some_iff {pair? : Option (String × α)} {key : String} {value : α} :
    pair?.bind (valueFor key) = some value ↔ pair? = some (key, value) := by
  rw [Option.bind_eq_some_iff]
  constructor
  · rintro ⟨⟨given, other⟩, hpair, hvalue⟩
    unfold valueFor at hvalue
    split_ifs at hvalue with hkey
    obtain rfl : key = given := hkey
    obtain rfl : other = value := Option.some.inj hvalue
    exact hpair
  · intro hpair
    exact ⟨(key, value), hpair, if_pos rfl⟩

/-- a key, looked up among the pairs that the members of a list make -/
theorem lookup_filterMap {β : Type} {pair? : β → Option (String × α)} {value? : β → Option α} {key : String}
    (h : ∀ x value, value? x = some value ↔ pair? x = some (key, value)) (xs : List β) :
    (xs.filterMap pair?).lookup key = xs.findSome? value? := by
  have hvalue : value? = fun x => (pair? x).bind (valueFor key) := by
    funext x
    ext value
    rw [h, bind_valueFor_eq_some_iff]
  rw [List.lookup_eq_findSome?, ← List.head?_filterMap, List.filterMap_filterMap, List.head?_filterMap, hvalue]
  simp only [beq_iff_eq]
  rfl

theorem lookup_insertEntry (key other : String) (value : α) (entries : List (String × α)) :
    (insertEntry key value entries).lookup other = if other = key then some value else entries.lookup other := by
  induction entries with
  | nil => exact lookup_cons (key, value) [] other
  | cons entry entries ih =>
    by_cases hlt : key < entry.1
    · rw [insertEntry, if_pos hlt, lookup_cons]
    · by_cases heq : key = entry.1
      · rw [insertEntry, if_neg hlt, if_pos heq, lookup_cons, lookup_cons, ← heq]
        split_ifs <;> rfl
      · rw [insertEntry, if_neg hlt, if_neg heq, lookup_cons, ih, lookup_cons]
        by_cases hother : other = key
        · rw [if_pos hother, if_pos hother, if_neg (hother ▸ heq)]
        · rw [if_neg hother, if_neg hother]

theorem get?_insert (m : SortedMap α) (key other : String) (value : α) :
    (m.insert key value).get? other = if other = key then some value else m.get? other :=
  lookup_insertEntry key other value m.entries

theorem ofList_concat (pairs : List (String × α)) (key : String) (value : α) :
    ofList (pairs ++ [(key, value)]) = (ofList pairs).insert key value := by
  rw [ofList, List.foldl_append]
  rfl

/-- of the pairs with one key the last one counts -/
theorem get?_ofList (pairs : List (String × α)) (key : String) : (ofList pairs).get? key = pairs.reverse.lookup key := by
  induction pairs using List.reverseRecOn with
  | nil => rfl
  | append_singleton pairs pair ih =>
    rw [ofList_concat, get?_insert, ih, List.reverse_append, List.reverse_singleton, List.singleton_append, lookup_cons]

end ZonePlan.SortedMap
