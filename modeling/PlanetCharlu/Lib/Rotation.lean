import Mathlib

/-!
# Serving whoever waited longest

A server keeps, for each client, the stamp of its last turn, and stamps only grow. If it
serves one client while another one waits that was not served more recently, then the
other one got its turn since the first one's last. From this, as many turns as there are
waiting clients go to different ones.
-/

namespace Rotation

variable {κ : Type*} [DecidableEq κ]

/-- The stamp of the last turn of `x` in a history of turns. -/
def lastStamp (history : List (κ × ℕ)) (x : κ) : Option ℕ :=
  (history.reverse.find? fun turn => decide (turn.1 = x)).map Prod.snd

/-- Stamps grow along the history. -/
def Increasing (history : List (κ × ℕ)) : Prop := history.Pairwise fun a b => a.2 < b.2

/-- The last turn of `a`, if it had one, is not more recent than the last turn of `b`. -/
def NoLater (history : List (κ × ℕ)) (a b : κ) : Prop :=
  ∀ s, lastStamp history a = some s → ∃ t, lastStamp history b = some t ∧ s ≤ t

variable {history before after : List (κ × ℕ)} {a b x : κ} {s t : ℕ}

@[simp] theorem lastStamp_nil (x : κ) : lastStamp [] x = none := rfl

theorem lastStamp_snoc (history : List (κ × ℕ)) (a x : κ) (t : ℕ) :
    lastStamp (history ++ [(a, t)]) x = if x = a then some t else lastStamp history x := by
  unfold lastStamp
  rw [List.reverse_append, List.reverse_singleton, List.singleton_append, List.find?_cons]
  by_cases hx : x = a
  · subst hx
    simp
  · rw [if_neg hx, decide_eq_false (Ne.symm hx)]

/-- A client that is not served keeps its stamp. -/
theorem lastStamp_append_of_notMem (h : x ∉ after.map Prod.fst) :
    lastStamp (before ++ after) x = lastStamp before x := by
  induction after using List.reverseRecOn with
  | nil => rw [List.append_nil]
  | append_singleton after turn ih =>
      rw [List.map_append, List.mem_append, not_or] at h
      obtain ⟨hafter, hturn⟩ := h
      rw [← List.append_assoc, lastStamp_snoc, ih hafter, if_neg]
      intro hx
      exact hturn (by simp [hx])

theorem mem_of_lastStamp (h : lastStamp history x = some t) : (x, t) ∈ history := by
  induction history using List.reverseRecOn with
  | nil => cases h
  | append_singleton history turn ih =>
      rw [lastStamp_snoc] at h
      split at h
      · rename_i hx
        cases h
        simp [hx]
      · exact List.mem_append_left _ (ih h)

/-- A client that had a turn has a stamp, at least that of the turn. -/
theorem exists_lastStamp (hincreasing : Increasing history) (h : (x, t) ∈ history) :
    ∃ s, lastStamp history x = some s ∧ t ≤ s := by
  induction history using List.reverseRecOn with
  | nil => cases h
  | append_singleton history turn ih =>
      obtain ⟨hfront, -, hlast⟩ := List.pairwise_append.mp hincreasing
      rw [lastStamp_snoc]
      rcases List.mem_append.mp h with hmem | hmem
      · split
        · exact ⟨turn.2, rfl, (hlast (x, t) hmem turn (List.mem_singleton_self turn)).le⟩
        · exact ih hfront hmem
      · have hturn := List.mem_singleton.mp hmem
        rw [if_pos (congrArg Prod.fst hturn)]
        exact ⟨turn.2, rfl, (congrArg Prod.snd hturn).le⟩

/-- **Whoever waited was served since**: when `a` is served again although its last turn
is not older than that of `b`, then `b` had a turn after each earlier turn of `a`. -/
theorem served_since (hincreasing : Increasing (before ++ (a, t) :: after)) (hne : b ≠ a)
    (h : NoLater (before ++ (a, t) :: after) a b) : b ∈ after.map Prod.fst := by
  obtain ⟨s, hs, hts⟩ := exists_lastStamp hincreasing (by simp : (a, t) ∈ _)
  obtain ⟨u, hu, hsu⟩ := h s hs
  by_contra hwaiting
  -- Without a turn since, the stamp of `b` is from before the turn of `a`.
  have hrest : b ∉ ((a, t) :: after).map Prod.fst := by
    rw [List.map_cons, List.mem_cons, not_or]
    exact ⟨hne, hwaiting⟩
  rw [lastStamp_append_of_notMem hrest] at hu
  have hold := (List.pairwise_append.mp hincreasing).2.2 (b, u) (mem_of_lastStamp hu) (a, t)
    List.mem_cons_self
  exact absurd (hts.trans hsu) (not_le.mpr hold)

/-- **As many turns as there are waiting clients go to different clients**, if at each turn
all of `waiting` were waiting. -/
theorem nodup_of_fair {waiting : Finset κ} {turns : List (κ × ℕ)}
    (hincreasing : Increasing (before ++ turns)) (hcard : turns.length ≤ waiting.card)
    (hfair : ∀ done a t rest, turns = done ++ (a, t) :: rest →
      ∀ b ∈ waiting, NoLater (before ++ done) a b) : (turns.map Prod.fst).Nodup := by
  induction turns using List.reverseRecOn with
  | nil => exact List.nodup_nil
  | append_singleton turns turn ih =>
      rw [← List.append_assoc] at hincreasing
      have hfront := (List.pairwise_append.mp hincreasing).1
      rw [List.length_append, List.length_singleton] at hcard
      have hnodup := ih hfront (by omega) fun done a t rest hsplit =>
        hfair done a t (rest ++ [turn]) (by simp [hsplit])
      rw [List.map_append, List.map_singleton, List.nodup_append]
      refine ⟨hnodup, List.nodup_singleton _, ?_⟩
      intro x hx y hy hxy
      rw [List.mem_singleton] at hy
      subst hy
      subst hxy
      -- The last turn repeats a client: everybody else was served in between, and there
      -- were not that many turns.
      obtain ⟨first, hmem, hfirst⟩ := List.mem_map.mp hx
      obtain ⟨done, rest, rfl⟩ := List.append_of_mem hmem
      have hothers : waiting.erase turn.1 ⊆ (rest.map Prod.fst).toFinset := by
        intro b hb
        obtain ⟨hne, hwaiting⟩ := Finset.mem_erase.mp hb
        rw [List.mem_toFinset]
        have hlater := hfair (done ++ first :: rest) turn.1 turn.2 [] (by simp) b hwaiting
        rw [← List.append_assoc] at hlater hfront
        rw [← hfirst] at hne hlater
        exact served_since hfront hne hlater
      have hcount := (Finset.card_le_card hothers).trans (List.toFinset_card_le _)
      have herase := Finset.pred_card_le_card_erase (s := waiting) (a := turn.1)
      rw [List.length_map] at hcount
      rw [List.length_append, List.length_cons] at hcard
      omega

end Rotation
