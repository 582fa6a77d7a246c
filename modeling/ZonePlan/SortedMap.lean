/-
Maps with text keys, kept in the order of their keys. The entries are the whole value: two maps with the same look-ups
are equal, which is what makes a printed map readable back to the same value.
-/
namespace ZonePlan

/-- entries with strictly ascending keys -/
structure SortedMap (α : Type) where
  entries : List (String × α)
  ascending : entries.Pairwise fun a b => a.1 < b.1
deriving DecidableEq

namespace SortedMap

variable {α : Type}

/-- the map without entries -/
def empty : SortedMap α := ⟨[], .nil⟩

instance : EmptyCollection (SortedMap α) := ⟨empty⟩

instance : Inhabited (SortedMap α) := ⟨empty⟩

/-- ascending entries with one more; an entry of the same key gives way -/
def insertEntry (key : String) (value : α) : List (String × α) → List (String × α)
  | [] => [(key, value)]
  | entry :: rest =>
    if key < entry.1 then (key, value) :: entry :: rest
    else if key = entry.1 then (key, value) :: rest
    else entry :: insertEntry key value rest

theorem mem_insertEntry {key : String} {value : α} {e : String × α} :
    ∀ {es : List (String × α)}, e ∈ insertEntry key value es → e = (key, value) ∨ e ∈ es
  | [], h => by simpa [insertEntry] using h
  | f :: es, h => by
    unfold insertEntry at h
    split at h
    · simpa using h
    · split at h
      · rcases List.mem_cons.1 h with h | h
        · exact .inl h
        · exact .inr (List.mem_cons_of_mem _ h)
      · rcases List.mem_cons.1 h with h | h
        · exact .inr (h ▸ List.mem_cons_self)
        · exact (mem_insertEntry h).imp_right (List.mem_cons_of_mem _)

theorem ascending_insertEntry (key : String) (value : α) :
    ∀ es : List (String × α), (es.Pairwise fun a b => a.1 < b.1) →
      (insertEntry key value es).Pairwise fun a b => a.1 < b.1
  | [], _ => by simp [insertEntry]
  | f :: es, h => by
    have hf : ∀ {e}, e ∈ es → f.1 < e.1 := List.rel_of_pairwise_cons h
    have hes := h.of_cons
    unfold insertEntry
    split
    · next hlt =>
      refine List.pairwise_cons.2 ⟨fun e he => ?_, h⟩
      rcases List.mem_cons.1 he with rfl | he
      · exact hlt
      · exact String.lt_trans hlt (hf he)
    · next hlt =>
      split
      · next heq =>
        exact List.pairwise_cons.2 ⟨fun e he => by simpa [heq] using hf he, hes⟩
      · next hne =>
        refine List.pairwise_cons.2 ⟨fun e he => ?_, ascending_insertEntry key value es hes⟩
        rcases mem_insertEntry he with rfl | he
        · exact String.not_le.1 fun hle => hne (String.le_antisymm hle (String.not_lt.1 hlt))
        · exact hf he

/-- an entry whose key is behind all others goes to the end -/
theorem insertEntry_of_lt {key : String} {value : α} :
    ∀ {es : List (String × α)}, (∀ e ∈ es, e.1 < key) → insertEntry key value es = es ++ [(key, value)]
  | [], _ => rfl
  | f :: es, h => by
    have hf : f.1 < key := h f List.mem_cons_self
    have hlt : ¬key < f.1 := String.lt_asymm hf
    have hne : key ≠ f.1 := fun he => String.lt_irrefl key (he ▸ hf)
    rw [insertEntry, if_neg hlt, if_neg hne, insertEntry_of_lt fun e he => h e (List.mem_cons_of_mem _ he)]
    rfl

/-- the entries are the whole map -/
theorem ext {m n : SortedMap α} (h : m.entries = n.entries) : m = n := by
  cases m
  cases n
  cases h
  rfl

/-- the map in which `key` stands for `value` -/
def insert (m : SortedMap α) (key : String) (value : α) : SortedMap α :=
  ⟨insertEntry key value m.entries, ascending_insertEntry key value _ m.ascending⟩

/-- what a key stands for -/
def get? (m : SortedMap α) (key : String) : Option α :=
  m.entries.lookup key

/-- the map of a list of pairs; of two pairs with one key the later counts -/
def ofList (pairs : List (String × α)) : SortedMap α :=
  pairs.foldl (fun m pair => m.insert pair.1 pair.2) empty

/-- the keys in ascending order -/
def keys (m : SortedMap α) : List String :=
  m.entries.map Prod.fst

/-- the number of entries -/
def size (m : SortedMap α) : Nat :=
  m.entries.length

/-- whether there is no entry -/
def isEmpty (m : SortedMap α) : Bool :=
  m.entries.isEmpty

end SortedMap

end ZonePlan
