import Mathlib

/-!
# Reading everything once

A reader that gets the same records again and again keeps the keys it has seen, and
works on a record when its key is new. What it has worked on are the first occurrences,
one for each key; where a key identifies its record these are all records, whatever the
order and the repetitions.
-/

namespace SeenSet

variable {α κ : Type*} [DecidableEq κ]

def note (key : α → κ) (done : List α) (x : α) : List α :=
  if key x ∈ done.map key then done else done ++ [x]

/-- The first occurrences in what was read, one for each key. -/
def firsts (key : α → κ) (read : List α) : List α := read.foldl (note key) []

variable {key : α → κ} {read : List α} {x y : α} {k : κ}

@[simp] theorem firsts_nil (key : α → κ) : firsts key [] = [] := rfl

theorem firsts_snoc (key : α → κ) (read : List α) (x : α) :
    firsts key (read ++ [x]) = note key (firsts key read) x := by
  rw [firsts, List.foldl_append]
  rfl

/-- No key is lost. -/
theorem mem_map_firsts : k ∈ (firsts key read).map key ↔ k ∈ read.map key := by
  induction read using List.reverseRecOn with
  | nil => exact Iff.rfl
  | append_singleton read x ih =>
      rw [firsts_snoc, note, List.map_append, List.mem_append, List.map_singleton,
        List.mem_singleton, ← ih]
      split
      · rename_i hseen
        constructor
        · exact Or.inl
        · rintro (hk | rfl)
          · exact hk
          · exact hseen
      · rw [List.map_append, List.mem_append, List.map_singleton, List.mem_singleton]

theorem firsts_snoc_of_mem (h : key x ∈ read.map key) :
    firsts key (read ++ [x]) = firsts key read := by
  rw [firsts_snoc, note, if_pos (mem_map_firsts.mpr h)]

theorem firsts_snoc_of_notMem (h : key x ∉ read.map key) :
    firsts key (read ++ [x]) = firsts key read ++ [x] := by
  rw [firsts_snoc, note, if_neg (mt mem_map_firsts.mp h)]

/-- The seen set holds the keys of what was read. -/
def Marks (key : α → κ) (read : List α) (seen : Finset κ) : Prop :=
  ∀ k, k ∈ seen ↔ k ∈ read.map key

omit [DecidableEq κ] in
theorem marks_nil (key : α → κ) : Marks key [] ∅ := by
  intro k
  simp

/-- A record whose key was seen is skipped. -/
theorem Marks.skip {seen : Finset κ} (h : Marks key read seen) (hold : key x ∈ seen) :
    Marks key (read ++ [x]) seen ∧ firsts key (read ++ [x]) = firsts key read := by
  have hread := (h _).mp hold
  refine ⟨?_, firsts_snoc_of_mem hread⟩
  intro k
  rw [h, List.map_append, List.mem_append, List.map_singleton, List.mem_singleton]
  constructor
  · exact Or.inl
  · rintro (hk | rfl)
    · exact hk
    · exact hread

/-- A record whose key is new is marked, and worked on. -/
theorem Marks.mark {seen : Finset κ} (h : Marks key read seen) (hnew : key x ∉ seen) :
    Marks key (read ++ [x]) (insert (key x) seen) ∧
      firsts key (read ++ [x]) = firsts key read ++ [x] := by
  refine ⟨?_, firsts_snoc_of_notMem (mt (h _).mpr hnew)⟩
  intro k
  rw [Finset.mem_insert, h, List.map_append, List.mem_append, List.map_singleton,
    List.mem_singleton]
  exact or_comm

theorem mem_of_mem_firsts (h : x ∈ firsts key read) : x ∈ read := by
  induction read using List.reverseRecOn with
  | nil => exact h
  | append_singleton read y ih =>
      rw [firsts_snoc, note] at h
      split at h
      · exact List.mem_append_left _ (ih h)
      · rcases List.mem_append.mp h with hold | hnew
        · exact List.mem_append_left _ (ih hold)
        · exact List.mem_append_right _ hnew

/-- **Where keys identify records, every record is worked on.** -/
theorem mem_firsts (hkey : Set.InjOn key {x | x ∈ read}) : x ∈ firsts key read ↔ x ∈ read := by
  refine ⟨mem_of_mem_firsts, fun hx => ?_⟩
  have hseen : key x ∈ (firsts key read).map key := mem_map_firsts.mpr (List.mem_map_of_mem hx)
  obtain ⟨y, hy, hxy⟩ := List.mem_map.mp hseen
  rw [← hkey (mem_of_mem_firsts hy) hx hxy]
  exact hy

/-- **No record is worked on twice.** -/
theorem nodup_map_firsts (key : α → κ) (read : List α) : ((firsts key read).map key).Nodup := by
  induction read using List.reverseRecOn with
  | nil => exact List.nodup_nil
  | append_singleton read x ih =>
      rw [firsts_snoc, note]
      split
      · exact ih
      · rename_i hnew
        rw [List.map_append, List.map_singleton, List.nodup_append]
        refine ⟨ih, List.nodup_singleton _, ?_⟩
        rintro k hk _ hx rfl
        rw [List.mem_singleton] at hx
        exact hnew (hx ▸ hk)

end SeenSet
