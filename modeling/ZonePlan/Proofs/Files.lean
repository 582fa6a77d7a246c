/-
What is written can be read: a path under which a text has been put leads to that text (`read_write`).

The way to a file goes through directories only. The place where a text is put was no directory before, so the way
does not lead through it and stays as it was (`walk_put`); other places keep what stands at them
(`entryAt_put_of_ne`).
-/
import ZonePlan.Files
import ZonePlan.Proofs.Text

namespace ZonePlan.Files

/-! ## Places -/

theorem lookup_filter_ne {place other : List String} (h : other ≠ place) (entries : List (List String × FileEntry)) :
    (entries.filter fun e => e.1 != place).lookup other = entries.lookup other := by
  induction entries with
  | nil => rfl
  | cons e entries ih =>
    by_cases he : e.1 = place
    · have hother : (other == e.1) = false := by simpa [he] using h
      rw [List.filter_cons_of_neg (by simp [he]), List.lookup_cons, hother, ih]
    · rw [List.filter_cons_of_pos (by simpa using he), List.lookup_cons, List.lookup_cons, ih]

theorem entryAt_put_of_ne (files : Files) {place other : List String} (h : other ≠ place) (entry : FileEntry) :
    (files.put place entry).entryAt other = files.entryAt other := by
  have hother : (other == place) = false := by simpa using h
  rw [entryAt, entryAt, put, List.lookup_cons, hother, lookup_filter_ne h]

theorem entryAt_put (files : Files) {place : List String} (h : place ≠ []) (entry : FileEntry) :
    (files.put place entry).entryAt place = some entry := by
  simp [entryAt, put, h]

/-! ## Ways -/

/-- the next name is followed from a directory -/
theorem walk_cons {files : Files} {place : List String} (h : files.entryAt place = some .directory)
    (name : String) (rest : List String) :
    files.walk place (name :: rest) =
      if name = "" ∨ name = "." then files.walk place rest
      else if name = ".." then files.walk place.dropLast rest
      else files.walk (place ++ [name]) rest := by
  rw [walk, h]

theorem directory_of_walk_cons {files : Files} {place dest rest : List String} {name : String}
    (h : files.walk place (name :: rest) = .ok dest) : files.entryAt place = some .directory := by
  rw [walk] at h
  split at h
  · cases h
  · assumption
  · cases h

/-- what is put in the place of no directory is on no way -/
theorem walk_put {files : Files} {place : List String} (h : files.entryAt place ≠ some .directory) (entry : FileEntry)
    {start dest rest : List String} (hway : files.walk start rest = .ok dest) :
    (files.put place entry).walk start rest = .ok dest := by
  induction rest generalizing start with
  | nil => exact hway
  | cons name rest ih =>
    have hstart := directory_of_walk_cons hway
    have hne : start ≠ place := by
      rintro rfl
      exact h hstart
    have hstart' : (files.put place entry).entryAt start = some .directory := by
      rw [entryAt_put_of_ne files hne, hstart]
    rw [walk_cons hstart] at hway
    rw [walk_cons hstart']
    split_ifs at hway ⊢ <;> exact ih hway

theorem walk_append {files : Files} {place middle front : List String} (hfront : files.walk place front = .ok middle)
    (rest : List String) : files.walk place (front ++ rest) = files.walk middle rest := by
  induction front generalizing place with
  | nil =>
    cases hfront
    rfl
  | cons name front ih =>
    have hplace := directory_of_walk_cons hfront
    rw [walk_cons hplace] at hfront
    rw [List.cons_append, walk_cons hplace]
    split_ifs at hfront ⊢ <;> exact ih hfront

/-! ## Writing and reading -/

/-- a file is written at a plain name in a directory -/
theorem target_eq_ok {files : Files} {path : String} {place : List String} (h : files.target path = .ok place) :
    path ≠ "" ∧ ∃ front name parent, names path = front ++ [name] ∧ name ≠ "" ∧ name ≠ "." ∧ name ≠ ".." ∧
      files.walk [] front = .ok parent ∧ files.entryAt parent = some .directory ∧ place = parent ++ [name] ∧
      files.entryAt place ≠ some .directory := by
  unfold target at h
  split_ifs at h with hpath
  refine ⟨hpath, ?_⟩
  dsimp only at h
  split at h
  · cases h
  next parent hway =>
    split at h
    · cases h
    · next hparent =>
      split_ifs at h with hname
      simp only [not_or] at hname
      obtain ⟨hempty, hdot, hdots, hlast⟩ := hname
      have hne : names path ≠ [] := by
        intro hnil
        rw [hnil] at hlast
        exact hlast rfl
      have hlast' : (names path).getLast hne ≠ "" := by
        rwa [List.getLastD_eq_getLast?, List.getLast?_eq_some_getLast hne] at hlast
      have hall : Text.dropTrailing (· == "") (names path) = names path := by
        refine Text.dropTrailing_eq_self fun n hn => ?_
        rw [List.getLast?_eq_some_getLast hne, Option.mem_some_iff] at hn
        exact beq_false_of_ne (hn ▸ hlast')
      rw [hall] at h hempty hdot hdots hway
      refine ⟨_, _, parent, ?_, hempty, hdot, hdots, hway, hparent, ?_⟩
      · rw [List.getLastD_eq_getLast?, List.getLast?_eq_some_getLast hne]
        exact (List.dropLast_append_getLast hne).symm
      · split at h
        · cases h
        · next hplace =>
          cases h
          exact ⟨rfl, hplace⟩
    · cases h

/-- **What is written can be read** under the same path -/
theorem read_write {files files' : Files} {path text : String} (h : files.write path text = .ok files') :
    files'.read path = .ok text := by
  unfold write at h
  cases htarget : files.target path with
  | error fault =>
    rw [htarget] at h
    cases h
  | ok place =>
    rw [htarget] at h
    cases h
    obtain ⟨hpath, front, name, parent, hnames, hempty, hdot, hdots, hway, hparent, rfl, hplace⟩ := target_eq_ok htarget
    have hne : parent ≠ parent ++ [name] := by simp
    have hparent' : (files.put (parent ++ [name]) (.text text)).entryAt parent = some .directory := by
      rw [entryAt_put_of_ne files hne, hparent]
    have hway' : (files.put (parent ++ [name]) (.text text)).walk [] (names path) = .ok (parent ++ [name]) := by
      rw [hnames, walk_append (walk_put hplace _ hway), walk_cons hparent', if_neg (by simp [hempty, hdot]),
        if_neg hdots]
      rfl
    rw [read, if_neg hpath, hway']
    simp [entryAt_put]

theorem path_ne_empty_of_write {files files' : Files} {path text : String} (h : files.write path text = .ok files') :
    path ≠ "" := by
  rintro rfl
  cases h

end ZonePlan.Files
