import Mathlib

/-!
# Spans of marked points

Points on the line of the integers come in ascending order, some of them marked. A loop
joins marked points that are neighbours into spans and carries along what is known about
them. What comes out are the maximal intervals of marked points, each once, in order.
-/

namespace Spans

variable {δ : Type*}

structure Span (δ : Type*) where
  start : Int
  stop : Int
  data : δ
deriving DecidableEq

def Span.Contains (s : Span δ) (t : Int) : Prop := s.start ≤ t ∧ t ≤ s.stop

/-- The spans that are closed, and the one that may go on. -/
structure Scan (δ : Type*) where
  closed : List (Span δ) := []
  current : Option (Span δ) := none

def Scan.spans (scan : Scan δ) : List (Span δ) := scan.closed ++ scan.current.toList

/-- One iteration: a marked point goes on with the current span or opens another, an
unmarked one closes it. -/
def Scan.step (join : δ → δ → δ) (scan : Scan δ) (point : Int × Option δ) : Scan δ :=
  match point.2, scan.current with
  | some d, some current =>
      if point.1 = current.stop + 1 then
        { scan with current := some ⟨current.start, point.1, join current.data d⟩ }
      else ⟨scan.closed ++ [current], some ⟨point.1, point.1, d⟩⟩
  | some d, none => { scan with current := some ⟨point.1, point.1, d⟩ }
  | none, some current => ⟨scan.closed ++ [current], none⟩
  | none, none => scan

def spans (join : δ → δ → δ) (points : List (Int × Option δ)) : List (Span δ) :=
  (points.foldl (Scan.step join) {}).spans

/-- A point that was marked. -/
def Marked (points : List (Int × Option δ)) (t : Int) : Prop := ∃ d, (t, some d) ∈ points

/-- The spans are the maximal intervals of marked points, and `P` holds of the data of one
exactly where it holds of a mark in it. -/
structure Maximal (points : List (Int × Option δ)) (spans : List (Span δ)) : Prop where
  covers : ∀ t, Marked points t ↔ ∃ s ∈ spans, s.Contains t
  nonempty : ∀ s ∈ spans, s.start ≤ s.stop
  apart : spans.Pairwise fun s s' => s.stop + 1 < s'.start

section Maximal

variable {points : List (Int × Option δ)} {spans : List (Span δ)} {s s' : Span δ} {t : Int}

/-- A point in a span or next to it is in no other span. -/
theorem Maximal.eq_of_contains (h : Maximal points spans) (hs : s ∈ spans) (hs' : s' ∈ spans)
    (ht : s.start - 1 ≤ t ∧ t ≤ s.stop + 1) (ht' : s'.Contains t) : s = s' := by
  by_contra hne
  have hpair : spans.Pairwise fun a b : Span δ => a.stop + 1 < b.start ∨ b.stop + 1 < a.start :=
    h.apart.imp Or.inl
  have hsymm : Std.Symm fun a b : Span δ => a.stop + 1 < b.start ∨ b.stop + 1 < a.start :=
    ⟨fun _ _ hab => hab.symm⟩
  have happart := hpair.forall hs hs' hne
  obtain ⟨hlow, hhigh⟩ := ht'
  omega

/-- **A span cannot be made longer**: the points on both sides of it are not marked. -/
theorem Maximal.not_marked (h : Maximal points spans) (hs : s ∈ spans) :
    ¬Marked points (s.start - 1) ∧ ¬Marked points (s.stop + 1) := by
  have hnonempty := h.nonempty s hs
  constructor
  · intro hmarked
    obtain ⟨s', hs', hcontains⟩ := (h.covers _).mp hmarked
    obtain rfl := h.eq_of_contains hs hs' ⟨le_refl _, by omega⟩ hcontains
    obtain ⟨hlow, -⟩ := hcontains
    omega
  · intro hmarked
    obtain ⟨s', hs', hcontains⟩ := (h.covers _).mp hmarked
    obtain rfl := h.eq_of_contains hs hs' ⟨by omega, le_refl _⟩ hcontains
    obtain ⟨-, hhigh⟩ := hcontains
    omega

end Maximal

/-! ### The loop -/

section Loop

variable {join : δ → δ → δ} {P : δ → Prop} {points : List (Int × Option δ)}

/-- What holds after the points that were read: the spans are maximal for them, the data
tells of them, and only the current span can reach the last of them. -/
structure Good (P : δ → Prop) (points : List (Int × Option δ)) (scan : Scan δ) : Prop where
  maximal : Maximal points scan.spans
  data : ∀ s ∈ scan.spans, P s.data ↔ ∃ t d, (t, some d) ∈ points ∧ s.Contains t ∧ P d
  behind : ∀ s ∈ scan.closed, ∀ t, (∀ x ∈ points, x.1 < t) → s.stop + 1 < t
  current : ∀ s ∈ scan.current, ∀ t, (∀ x ∈ points, x.1 < t) → s.stop < t

theorem marked_snoc {point : Int × Option δ} {t : Int} :
    Marked (points ++ [point]) t ↔ Marked points t ∨ ∃ d, point = (t, some d) := by
  constructor
  · rintro ⟨d, hd⟩
    rcases List.mem_append.mp hd with hd | hd
    · exact Or.inl ⟨d, hd⟩
    · exact Or.inr ⟨d, (List.mem_singleton.mp hd).symm⟩
  · rintro (⟨d, hd⟩ | ⟨d, rfl⟩)
    · exact ⟨d, List.mem_append_left _ hd⟩
    · exact ⟨d, by simp⟩

/-- A point outside a span, or without a mark, adds no mark to the span. -/
theorem exists_mark_snoc {s : Span δ} {point : Int × Option δ}
    (hout : ∀ d, point.2 = some d → ¬s.Contains point.1) :
    (∃ t d, (t, some d) ∈ points ++ [point] ∧ s.Contains t ∧ P d) ↔
      ∃ t d, (t, some d) ∈ points ∧ s.Contains t ∧ P d := by
  constructor
  · rintro ⟨t, d, hd, ht, hP⟩
    rcases List.mem_append.mp hd with hd | hd
    · exact ⟨t, d, hd, ht, hP⟩
    · obtain rfl := List.mem_singleton.mp hd
      exact absurd ht (hout d rfl)
  · rintro ⟨t, d, hd, ht, hP⟩
    exact ⟨t, d, List.mem_append_left _ hd, ht, hP⟩

/-- A span that is one longer. -/
theorem contains_longer {current : Span δ} (h : current.start ≤ current.stop) (d : δ) (t : Int) :
    Span.Contains ⟨current.start, current.stop + 1, d⟩ t ↔
      current.Contains t ∨ t = current.stop + 1 := by
  unfold Span.Contains
  dsimp only
  omega

/-- An unmarked point changes no span. -/
theorem Good.unmarked {scan scan' : Scan δ} (h : Good P points scan) {t : Int}
    (ht : ∀ x ∈ points, x.1 < t) (hspans : scan'.spans = scan.spans)
    (hcurrent : scan'.current = none) : Good P (points ++ [(t, none)]) scan' := by
  have hmarked : ∀ u, Marked (points ++ [(t, none)]) u ↔ Marked points u := by
    intro u
    rw [marked_snoc]
    constructor
    · rintro (hu | ⟨d, hd⟩)
      · exact hu
      · cases hd
    · exact Or.inl
  have hstop : ∀ s ∈ scan.spans, s.stop < t := by
    intro s hs
    rcases List.mem_append.mp hs with hs | hs
    · have hlt := h.behind s hs t ht
      omega
    · exact h.current s (by simpa using hs) t ht
  refine ⟨⟨?_, ?_, ?_⟩, ?_, ?_, ?_⟩
  · intro u
    rw [hmarked, hspans]
    exact h.maximal.covers u
  · rw [hspans]
    exact h.maximal.nonempty
  · rw [hspans]
    exact h.maximal.apart
  · intro s hs
    rw [hspans] at hs
    rw [h.data s hs, exists_mark_snoc]
    intro d hd
    cases hd
  · intro s hs u hu
    have hlt := hstop s (by
      rw [← hspans]
      exact List.mem_append_left _ hs)
    have htu : t < u := hu (t, none) (by simp)
    omega
  · intro s hs
    rw [hcurrent] at hs
    cases hs

/-- A marked point with a span of its own. -/
theorem Good.opens {scan : Scan δ} (h : Good P points scan) {t : Int} {d : δ}
    (ht : ∀ x ∈ points, x.1 < t) (hgap : ∀ s ∈ scan.spans, s.stop + 1 < t) :
    Good P (points ++ [(t, some d)]) ⟨scan.spans, some ⟨t, t, d⟩⟩ := by
  have hspans : (⟨scan.spans, some ⟨t, t, d⟩⟩ : Scan δ).spans = scan.spans ++ [⟨t, t, d⟩] := rfl
  have hold : ∀ s ∈ scan.spans, ¬s.Contains t := by
    intro s hs hcontains
    have hlt := hgap s hs
    obtain ⟨-, hhigh⟩ := hcontains
    omega
  refine ⟨⟨?_, ?_, ?_⟩, ?_, ?_, ?_⟩
  · intro u
    rw [marked_snoc, hspans, h.maximal.covers]
    constructor
    · rintro (⟨s, hs, hu⟩ | ⟨d', heq⟩)
      · exact ⟨s, List.mem_append_left _ hs, hu⟩
      · obtain ⟨rfl, -⟩ := Prod.mk.inj heq
        exact ⟨⟨t, t, d⟩, by simp, le_refl _, le_refl _⟩
    · rintro ⟨s, hs, hu⟩
      rcases List.mem_append.mp hs with hs | hs
      · exact Or.inl ⟨s, hs, hu⟩
      · rw [List.mem_singleton.mp hs] at hu
        have heq : t = u := le_antisymm hu.1 hu.2
        exact Or.inr ⟨d, by rw [heq]⟩
  · intro s hs
    rw [hspans] at hs
    rcases List.mem_append.mp hs with hs | hs
    · exact h.maximal.nonempty s hs
    · rw [List.mem_singleton.mp hs]
  · rw [hspans, List.pairwise_append]
    refine ⟨h.maximal.apart, List.pairwise_singleton _ _, ?_⟩
    intro s hs s' hs'
    rw [List.mem_singleton.mp hs']
    exact hgap s hs
  · intro s hs
    rw [hspans] at hs
    rcases List.mem_append.mp hs with hbefore | hs
    · rw [h.data s hbefore, exists_mark_snoc fun _ _ => hold s hbefore]
    · rw [List.mem_singleton.mp hs]
      constructor
      · intro hP
        exact ⟨t, d, by simp, ⟨le_refl _, le_refl _⟩, hP⟩
      · rintro ⟨u, d', hd, hu, hP⟩
        have heq : t = u := le_antisymm hu.1 hu.2
        rcases List.mem_append.mp hd with hd | hd
        · have hlt := ht _ hd
          dsimp only at hlt
          omega
        · obtain ⟨-, hd'⟩ := Prod.mk.inj (List.mem_singleton.mp hd)
          rw [← Option.some_injective _ hd']
          exact hP
  · intro s hs u hu
    have hlt := hgap s hs
    have htu : t < u := hu (t, some d) (by simp)
    omega
  · intro s hs u hu
    obtain rfl := Option.some_injective _ hs
    exact hu (t, some d) (by simp)

/-- A marked point next to the current span. -/
theorem Good.goesOn {scan : Scan δ} (h : Good P points scan)
    (hjoin : ∀ a b, P (join a b) ↔ P a ∨ P b) {current : Span δ}
    (hcurrent : scan.current = some current) {d : δ}
    (ht : ∀ x ∈ points, x.1 < current.stop + 1) :
    Good P (points ++ [(current.stop + 1, some d)])
      { scan with current := some ⟨current.start, current.stop + 1, join current.data d⟩ } := by
  have hspans : scan.spans = scan.closed ++ [current] := by
    rw [Scan.spans, hcurrent]
    rfl
  have hmem : current ∈ scan.spans := by simp [hspans]
  have hnonempty := h.maximal.nonempty current hmem
  have hclosed : ∀ s ∈ scan.closed, s.stop + 1 < current.start := by
    have happart := h.maximal.apart
    rw [hspans, List.pairwise_append] at happart
    exact fun s hs => happart.2.2 s hs current (List.mem_singleton_self current)
  have hsub : ∀ s ∈ scan.closed, s ∈ scan.spans := fun s hs => List.mem_append_left _ hs
  refine ⟨⟨?_, ?_, ?_⟩, ?_, ?_, ?_⟩
  · intro u
    rw [marked_snoc, h.maximal.covers, hspans]
    constructor
    · rintro (⟨s, hs, hu⟩ | ⟨d', heq⟩)
      · rcases List.mem_append.mp hs with hs | hs
        · exact ⟨s, List.mem_append_left _ hs, hu⟩
        · rw [List.mem_singleton.mp hs] at hu
          exact ⟨_, List.mem_append_right _ (List.mem_singleton_self _),
            (contains_longer hnonempty _ u).mpr (Or.inl hu)⟩
      · obtain ⟨rfl, -⟩ := Prod.mk.inj heq
        exact ⟨_, List.mem_append_right _ (List.mem_singleton_self _),
          (contains_longer hnonempty _ _).mpr (Or.inr rfl)⟩
    · rintro ⟨s, hs, hu⟩
      rcases List.mem_append.mp hs with hs | hs
      · exact Or.inl ⟨s, List.mem_append_left _ hs, hu⟩
      · rw [List.mem_singleton.mp hs, contains_longer hnonempty] at hu
        rcases hu with hu | rfl
        · exact Or.inl ⟨current, by simp, hu⟩
        · exact Or.inr ⟨d, rfl⟩
  · intro s hs
    rcases List.mem_append.mp hs with hs | hs
    · exact h.maximal.nonempty s (hsub s hs)
    · rw [List.mem_singleton.mp hs]
      dsimp only
      omega
  · have happart := h.maximal.apart
    rw [hspans, List.pairwise_append] at happart
    change (scan.closed ++ [_]).Pairwise _
    rw [List.pairwise_append]
    refine ⟨happart.1, List.pairwise_singleton _ _, ?_⟩
    intro s hs s' hs'
    rw [List.mem_singleton.mp hs']
    exact hclosed s hs
  · intro s hs
    rcases List.mem_append.mp hs with hs | hs
    · rw [h.data s (hsub s hs), exists_mark_snoc]
      intro _ _ hcontains
      have hlt := hclosed s hs
      obtain ⟨-, hhigh⟩ := hcontains
      dsimp only at hhigh
      omega
    · rw [List.mem_singleton.mp hs, hjoin, h.data current hmem]
      constructor
      · rintro (⟨u, d', hd, hu, hP⟩ | hP)
        · exact ⟨u, d', List.mem_append_left _ hd,
            (contains_longer hnonempty _ u).mpr (Or.inl hu), hP⟩
        · exact ⟨current.stop + 1, d, by simp,
            (contains_longer hnonempty _ _).mpr (Or.inr rfl), hP⟩
      · rintro ⟨u, d', hd, hu, hP⟩
        rcases List.mem_append.mp hd with hd | hd
        · -- the points so far come before the new one, so the mark was in the span before
          have hlt := ht _ hd
          rcases (contains_longer hnonempty _ u).mp hu with hu | rfl
          · exact Or.inl ⟨u, d', hd, hu, hP⟩
          · exact absurd hlt (lt_irrefl _)
        · obtain ⟨-, hd'⟩ := Prod.mk.inj (List.mem_singleton.mp hd)
          rw [← Option.some_injective _ hd']
          exact Or.inr hP
  · intro s hs u hu
    have hlt := hclosed s hs
    have htu : current.stop + 1 < u := hu (current.stop + 1, some d) (by simp)
    omega
  · intro s hs u hu
    obtain rfl := Option.some_injective _ hs
    exact hu (current.stop + 1, some d) (by simp)

/-- **One iteration of the loop.** -/
theorem Good.step {scan : Scan δ} (h : Good P points scan)
    (hjoin : ∀ a b, P (join a b) ↔ P a ∨ P b) {point : Int × Option δ}
    (ht : ∀ x ∈ points, x.1 < point.1) :
    Good P (points ++ [point]) (scan.step join point) := by
  obtain ⟨t, mark⟩ := point
  cases hcurrent : scan.current with
  | none =>
      have hspans : scan.spans = scan.closed := by
        rw [Scan.spans, hcurrent]
        exact List.append_nil _
      cases mark with
      | none =>
          have hstep : scan.step join (t, none) = scan := by
            rw [Scan.step, hcurrent]
          rw [hstep]
          exact h.unmarked ht rfl hcurrent
      | some d =>
          have hstep : scan.step join (t, some d) = ⟨scan.spans, some ⟨t, t, d⟩⟩ := by
            rw [Scan.step, hcurrent, hspans]
          rw [hstep]
          refine h.opens ht ?_
          intro s hs
          rw [hspans] at hs
          exact h.behind s hs t ht
  | some current =>
      have hspans : scan.spans = scan.closed ++ [current] := by
        rw [Scan.spans, hcurrent]
        rfl
      have hstop : current.stop < t := h.current current hcurrent t ht
      cases mark with
      | none =>
          have hstep : scan.step join (t, none) = ⟨scan.closed ++ [current], none⟩ := by
            rw [Scan.step, hcurrent]
          rw [hstep]
          refine h.unmarked ht ?_ rfl
          rw [hspans]
          exact List.append_nil _
      | some d =>
          by_cases hnext : t = current.stop + 1
          · subst hnext
            have hstep : scan.step join (current.stop + 1, some d) = { scan with
                current := some ⟨current.start, current.stop + 1, join current.data d⟩ } := by
              rw [Scan.step, hcurrent]
              exact if_pos rfl
            rw [hstep]
            exact h.goesOn hjoin hcurrent ht
          · have hstep : scan.step join (t, some d) = ⟨scan.spans, some ⟨t, t, d⟩⟩ := by
              rw [Scan.step, hcurrent, hspans]
              exact if_neg hnext
            rw [hstep]
            refine h.opens ht ?_
            intro s hs
            rw [hspans] at hs
            rcases List.mem_append.mp hs with hs | hs
            · exact h.behind s hs t ht
            · rw [List.mem_singleton.mp hs]
              omega

theorem good_foldl (hjoin : ∀ a b, P (join a b) ↔ P a ∨ P b)
    (hsorted : points.Pairwise fun x y => x.1 < y.1) :
    Good P points (points.foldl (Scan.step join) {}) := by
  induction points using List.reverseRecOn with
  | nil =>
      refine ⟨⟨?_, ?_, List.Pairwise.nil⟩, ?_, ?_, ?_⟩
      · intro t
        constructor
        · rintro ⟨d, hd⟩
          cases hd
        · rintro ⟨s, hs, -⟩
          cases hs
      · intro s hs
        cases hs
      · intro s hs
        cases hs
      · intro s hs
        cases hs
      · intro s hs
        cases hs
  | append_singleton points point ih =>
      rw [List.pairwise_append] at hsorted
      rw [List.foldl_append]
      refine (ih hsorted.1).step hjoin ?_
      intro x hx
      exact hsorted.2.2 x hx point (List.mem_singleton_self point)

end Loop

/-- **The loop finds the maximal spans.** -/
theorem maximal_spans {join : δ → δ → δ} {points : List (Int × Option δ)}
    (hsorted : points.Pairwise fun x y => x.1 < y.1) : Maximal points (spans join points) :=
  (@good_foldl δ join (fun _ => True) points (fun _ _ => by simp) hsorted).maximal

/-- **A span tells of the marks in it**, whatever joining keeps. -/
theorem data_spans {join : δ → δ → δ} {P : δ → Prop} {points : List (Int × Option δ)}
    (hjoin : ∀ a b, P (join a b) ↔ P a ∨ P b) (hsorted : points.Pairwise fun x y => x.1 < y.1)
    {s : Span δ} (hs : s ∈ spans join points) :
    P s.data ↔ ∃ t d, (t, some d) ∈ points ∧ s.Contains t ∧ P d :=
  (good_foldl hjoin hsorted).data s hs

end Spans
