import Mathlib

/-!
# Logs with one record a line

A file to which every record is written as one line, and a reader that goes through it
line by line and passes over the lines it cannot read. Where the reader reads every line
as its record and no line cut short, a file that was cut anywhere gives the records that
were written whole, in their order, and nothing else.
-/

namespace LineLog

variable {τ α β : Type*}

/-- The file of the records: their lines, each with its end. -/
def file (newline : τ) (line : α → List τ) (records : List α) : List τ :=
  records.flatMap fun a => line a ++ [newline]

theorem file_cons (newline : τ) (line : α → List τ) (a : α) (rest : List α) :
    file newline line (a :: rest) = line a ++ newline :: file newline line rest := by
  simp [file]

/-- A beginning of a file is one of its first line, or the first line and a beginning of
the others. -/
theorem prefix_file_cons {newline : τ} {line : α → List τ} {a : α} {rest : List α}
    {cut : List τ} (hcut : cut <+: file newline line (a :: rest)) :
    cut <+: line a ∨ ∃ tail, cut = line a ++ newline :: tail ∧ tail <+: file newline line rest := by
  rw [file_cons] at hcut
  rcases Nat.lt_or_ge (line a).length cut.length with hlong | hshort
  · right
    have hline : line a <+: cut :=
      List.prefix_of_prefix_length_le (List.prefix_append _ _) hcut (Nat.le_of_lt hlong)
    obtain ⟨more, rfl⟩ := hline
    rw [List.prefix_append_right_inj] at hcut
    cases more with
    | nil => simp at hlong
    | cons c tail =>
        obtain ⟨rfl, htail⟩ := List.cons_prefix_cons.mp hcut
        exact ⟨tail, rfl, htail⟩
  · exact Or.inl (List.prefix_of_prefix_length_le hcut (List.prefix_append _ _) hshort)

/-- The first `k` records are those whose text is there, or lacks nothing but its end. -/
structure Whole (newline : τ) (line : α → List τ) (records : List α) (cut : List τ)
    (k : ℕ) : Prop where
  le_length : k ≤ records.length
  prefix_iff (j : ℕ) : j ≤ records.length →
    (file newline line (records.take j) <+: cut ++ [newline] ↔ j ≤ k)

/-- Where the first line was cut, no record is there whole but it. -/
theorem prefix_cut_iff {newline : τ} {line : α → List τ} {a : α} {rest : List α} {cut : List τ}
    (hpart : cut <+: line a) {j : ℕ} (hj : j ≤ rest.length) :
    file newline line ((a :: rest).take (j + 1)) <+: cut ++ [newline] ↔ cut = line a ∧ j = 0 := by
  rw [List.take_succ_cons, file_cons]
  constructor
  · intro hbegins
    obtain ⟨missing, hline⟩ := hpart
    rw [← hline, List.append_assoc, List.prefix_append_right_inj] at hbegins
    have hlength := hbegins.length_le
    simp only [List.length_append, List.length_cons, List.length_nil] at hlength
    have hmissing : missing = [] := List.length_eq_zero_iff.mp (by omega)
    have hrest : (file newline line (rest.take j)).length = 0 := by omega
    refine ⟨by rw [← hline, hmissing, List.append_nil], ?_⟩
    cases j with
    | zero => rfl
    | succ j =>
        cases rest with
        | nil => cases hj
        | cons b more =>
            rw [List.take_succ_cons, file_cons, List.length_append, List.length_cons] at hrest
            omega
  · rintro ⟨rfl, rfl⟩
    exact List.prefix_rfl

variable [DecidableEq τ]

/-- What the reader takes from a text. -/
def load (newline : τ) (read : List τ → Option β) (text : List τ) : List β :=
  (text.splitOn newline).filterMap read

/-- The reader passes over what is not a whole line of a record. -/
structure Tolerant (newline : τ) (line : α → List τ) (read : List τ → Option β)
    (value : α → β) : Prop where
  newline_notMem (a : α) : newline ∉ line a
  blank : read [] = none
  whole (a : α) : read (line a) = some (value a)
  cut (a : α) {part : List τ} : part <+: line a → part ≠ line a → read part = none

variable {newline : τ} {line : α → List τ} {read : List τ → Option β} {value : α → β}

/-- A line that has ended is read, and what follows it is read on its own. -/
theorem load_line (h : Tolerant newline line read value) (a : α) (text : List τ) :
    load newline read (line a ++ newline :: text) = value a :: load newline read text := by
  have hsplit : (line a ++ newline :: text).splitOn newline =
      line a :: text.splitOn newline := by
    rw [List.splitOn_append_cons_self, List.splitOn_eq_singleton (h.newline_notMem a)]
    rfl
  rw [load, hsplit, List.filterMap_cons, h.whole a]
  rfl

theorem load_nil (h : Tolerant newline line read value) : load newline read [] = [] := by
  rw [load, List.splitOn_nil, List.filterMap_cons, h.blank]
  rfl

/-- **A file cut anywhere** gives the records that are there whole, and no part of any
other. -/
theorem load_cut (h : Tolerant newline line read value) {records : List α} {cut : List τ}
    (hcut : cut <+: file newline line records) :
    ∃ k, Whole newline line records cut k ∧
      load newline read cut = (records.take k).map value := by
  induction records generalizing cut with
  | nil =>
      obtain rfl := List.prefix_nil.mp hcut
      refine ⟨0, ⟨le_refl 0, ?_⟩, load_nil h⟩
      intro j hj
      rw [List.take_nil]
      exact ⟨fun _ => hj, fun _ => List.nil_prefix⟩
  | cons a rest ih =>
      rcases prefix_file_cons hcut with hpart | ⟨tail, rfl, htail⟩
      · have hnone : newline ∉ cut := fun hmem => h.newline_notMem a (hpart.subset hmem)
        have hload : load newline read cut = [cut].filterMap read := by
          rw [load, List.splitOn_eq_singleton hnone]
        -- a last line without its end counts when it is there whole
        by_cases hwhole : cut = line a
        · refine ⟨1, ⟨Nat.succ_le_succ (Nat.zero_le _), ?_⟩, ?_⟩
          · rintro (- | j) hj
            · exact ⟨fun _ => Nat.zero_le 1, fun _ => List.nil_prefix⟩
            · rw [prefix_cut_iff hpart (Nat.le_of_succ_le_succ hj)]
              constructor
              · rintro ⟨-, rfl⟩
                exact le_refl 1
              · intro hle
                exact ⟨hwhole, Nat.le_zero.mp (Nat.le_of_succ_le_succ hle)⟩
          · rw [hload, hwhole, List.filterMap_cons, h.whole a]
            rfl
        · refine ⟨0, ⟨Nat.zero_le _, ?_⟩, ?_⟩
          · rintro (- | j) hj
            · exact ⟨fun _ => le_refl 0, fun _ => List.nil_prefix⟩
            · rw [prefix_cut_iff hpart (Nat.le_of_succ_le_succ hj)]
              constructor
              · rintro ⟨hline, -⟩
                exact absurd hline hwhole
              · intro hle
                cases hle
          · rw [hload, List.filterMap_cons, h.cut a hpart hwhole]
            rfl
      · obtain ⟨k, hk, hload⟩ := ih htail
        refine ⟨k + 1, ⟨Nat.succ_le_succ hk.le_length, ?_⟩, ?_⟩
        · rintro (- | j) hj
          · exact ⟨fun _ => Nat.zero_le _, fun _ => List.nil_prefix⟩
          · rw [List.take_succ_cons, file_cons, List.append_assoc, List.cons_append,
              List.prefix_append_right_inj, List.cons_prefix_cons, Nat.succ_le_succ_iff,
              ← hk.prefix_iff j (Nat.le_of_succ_le_succ hj)]
            exact ⟨fun hbegins => hbegins.2, fun hbegins => ⟨rfl, hbegins⟩⟩
        · rw [load_line h, hload]
          rfl

end LineLog
