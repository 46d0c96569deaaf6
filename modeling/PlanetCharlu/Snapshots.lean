import PlanetCharlu.Session

/-!
# Snapshot tracking of the pump

The world of a session is the snapshot with the greatest sequence number among the
initial one and everything the pump could still read, the first of them if two have
that number. The pump replaces snapshots one by one and never looks back; that it
holds the maximum is an induction over the messages. It stops for good at the first
message it cannot accept, and keeps the world it had.
-/

namespace PlanetCharlu

/-- What the message stream gives the pump: a message, or its end (`none`) or an
exception. -/
inductive Delivery where
  | message (message : ServerMessage)
  | stop (cause : Option SessionError)
deriving DecidableEq, Repr

namespace Delivery

/-- The snapshot a delivery carries, if it carries a readable one. -/
def snapshot? : Delivery → Option WorldView
  | .message (.state state) => (WorldView.fromState state).toOption
  | _ => none

def snapshots (ds : List Delivery) : List WorldView := ds.filterMap snapshot?

/-- `d` is a delivery the pump does not survive, after `before` and from the world
`w₀`: another run, a newer snapshot that cannot be converted, an error of the
session, or the end of the stream. An old snapshot is skipped unread. -/
def Stops (w₀ : WorldView) (before : List Delivery) : Delivery → Prop
  | .stop _ => True
  | .message (.state state) =>
      state.runId ≠ w₀.runId ∨
        (∀ w ∈ w₀ :: snapshots before, w.snapshotSequence < state.snapshotSequence) ∧
          ∃ e, WorldView.fromState state = .error e
  | .message (.protocolError error) => error.closeSession = true ∨ error.requestId.null = true
  | .message _ => False

/-- `live` is the part of `ds` before the first delivery that stops the pump. -/
structure LivePrefix (w₀ : WorldView) (ds live : List Delivery) : Prop where
  isPrefix : live <+: ds
  survived : ∀ before d, before ++ [d] <+: live → ¬ Stops w₀ before d
  maximal : live = ds ∨ ∃ d, live ++ [d] <+: ds ∧ Stops w₀ live d

end Delivery

namespace Session

open Delivery

/-- The pump takes one delivery. A pump that has ended takes nothing. -/
def consume (s : Session) (d : Delivery) : Session :=
  if s.pumpError = none then
    match d with
    | .message m => s.receive m
    | .stop cause => s.endPump (cause.getD (.connectionError "server connection closed"))
  else s

def consumeAll (s : Session) (ds : List Delivery) : Session := ds.foldl consume s

theorem consumeAll_snoc (s : Session) (ds : List Delivery) (d : Delivery) :
    s.consumeAll (ds ++ [d]) = (s.consumeAll ds).consume d := by
  simp [consumeAll]

theorem consume_of_ended {s : Session} {e : SessionError} (h : s.pumpError = some e)
    (d : Delivery) : s.consume d = s := by
  simp [consume, h]

/-! ### One delivery -/

section One

variable {s : Session} {w₀ : WorldView} {ds : List Delivery} {d : Delivery}

/-- What a running pump makes of a delivery: it keeps its world and ends, keeps its
world and runs on, or replaces the world by a newer snapshot. -/
inductive Consumed (s : Session) (d : Delivery) (s' : Session) : Prop where
  | ended {e : SessionError} (herror : s'.pumpError = some e) (hworld : s'.world = s.world)
      (hfailed : ∀ id, s'.pending id = none)
  | kept (herror : s'.pumpError = none) (hworld : s'.world = s.world)
  | replaced {state : Wire.State} (hd : d = .message (.state state))
      (herror : s'.pumpError = none) (hstate : WorldView.fromState state = .ok s'.world)
      (hnewer : s.world.snapshotSequence < s'.world.snapshotSequence)
      (hrun : s'.world.runId = s.world.runId)

theorem consume_state_cases (hrunning : s.pumpError = none) (state : Wire.State) :
    (state.runId ≠ s.world.runId ∧ ∃ e, s.consume (.message (.state state)) = s.endPump e) ∨
    (state.runId = s.world.runId ∧ state.snapshotSequence ≤ s.world.snapshotSequence ∧
      s.consume (.message (.state state)) = s) ∨
    (state.runId = s.world.runId ∧ s.world.snapshotSequence < state.snapshotSequence ∧
      (∃ e, WorldView.fromState state = .error e) ∧
      ∃ e, s.consume (.message (.state state)) = s.endPump e) ∨
    (state.runId = s.world.runId ∧ s.world.snapshotSequence < state.snapshotSequence ∧
      ∃ w, WorldView.fromState state = .ok w ∧
        s.consume (.message (.state state)) = { s with world := w }) := by
  by_cases hrun : state.runId = s.world.runId
  · by_cases hold : state.snapshotSequence ≤ s.world.snapshotSequence
    · exact Or.inr (Or.inl ⟨hrun, hold, by simp [consume, hrunning, receive, hrun, hold]⟩)
    · have hnew : s.world.snapshotSequence < state.snapshotSequence := not_le.mp hold
      rcases hstate : WorldView.fromState state with e | w
      · exact Or.inr (Or.inr (Or.inl ⟨hrun, hnew, ⟨e, rfl⟩, .conversion e,
          by simp [consume, hrunning, receive, hrun, hold, hstate]⟩))
      · exact Or.inr (Or.inr (Or.inr ⟨hrun, hnew, w, rfl,
          by simp [consume, hrunning, receive, hrun, hold, hstate]⟩))
  · refine Or.inl ⟨hrun,
      .connectionError "server changed run; restart the client for the new run", ?_⟩
    simp [consume, hrunning, receive, hrun]

theorem consume_protocolError (hrunning : s.pumpError = none) (error : Wire.ProtocolError) :
    (s.consume (.message (.protocolError error))).world = s.world ∧
      ((error.closeSession = true ∨ error.requestId.null = true) ∧
          (∃ e, (s.consume (.message (.protocolError error))).pumpError = some e) ∧
          (∀ id, (s.consume (.message (.protocolError error))).pending id = none) ∨
        ¬ (error.closeSession = true ∨ error.requestId.null = true) ∧
          (s.consume (.message (.protocolError error))).pumpError = none) := by
  rcases hclose : error.closeSession with _ | _
  · rcases hnull : error.requestId.null with _ | _
    · simp [consume, hrunning, receive, hclose, hnull, reject]
    · simp [consume, hrunning, receive, hclose, hnull]
  · rcases hnull : error.requestId.null with _ | _
    · simp [consume, hrunning, receive, hclose, hnull, reject]
    · simp [consume, hrunning, receive, hclose, hnull]

theorem consume_cases (hrunning : s.pumpError = none) (d : Delivery) :
    Consumed s d (s.consume d) := by
  rcases d with m | cause
  · rcases m with state | result | error | _ | _
    · rcases consume_state_cases hrunning state with ⟨-, e, h⟩ | ⟨-, -, h⟩ | ⟨-, -, -, e, h⟩ |
        ⟨hrun, hnew, w, hw, h⟩
      · rw [h]
        exact .ended rfl rfl fun _ => rfl
      · rw [h]
        exact .kept hrunning rfl
      · rw [h]
        exact .ended rfl rfl fun _ => rfl
      · obtain ⟨hid, hsequence⟩ := WorldView.fromState_eq_ok hw
        rw [h]
        refine .replaced rfl hrunning hw ?_ ?_
        · rw [hsequence]
          exact hnew
        · rw [hid]
          exact hrun
    · refine .kept ?_ ?_
      · simp [consume, hrunning, receive, resolve]
      · simp [consume, hrunning, receive, resolve]
    · obtain ⟨hworld, ⟨-, ⟨e, herror⟩, hfailed⟩ | ⟨-, herror⟩⟩ := consume_protocolError hrunning error
      · exact .ended herror hworld hfailed
      · exact .kept herror hworld
    · exact .kept (by simp [consume, hrunning, receive]) (by simp [consume, hrunning, receive])
    · exact .kept (by simp [consume, hrunning, receive]) (by simp [consume, hrunning, receive])
  · refine .ended (e := cause.getD (.connectionError "server connection closed")) ?_ ?_ ?_
    · simp [consume, hrunning]
    · simp [consume, hrunning]
    · intro id
      simp [consume, hrunning]

/-- The pump ends at exactly the deliveries that stop it. -/
theorem ends_iff_stops (hrunning : s.pumpError = none) (hrun : s.world.runId = w₀.runId)
    (hlatest : (w₀ :: snapshots ds).argmax WorldView.snapshotSequence = some s.world) :
    (s.consume d).pumpError ≠ none ↔ Stops w₀ ds d := by
  have hnewer : ∀ n, (∀ w ∈ w₀ :: snapshots ds, w.snapshotSequence < n) ↔
      s.world.snapshotSequence < n := by
    intro n
    constructor
    · intro h
      exact h s.world (List.argmax_mem hlatest)
    · intro h w hw
      exact lt_of_le_of_lt (List.le_of_mem_argmax hw hlatest) h
  rcases d with m | cause
  · rcases m with state | result | error | _ | _
    · simp only [Stops, hnewer, ← hrun]
      rcases consume_state_cases hrunning state with ⟨hid, e, h⟩ | ⟨hid, hold, h⟩ |
        ⟨hid, hnew, hbad, e, h⟩ | ⟨hid, hnew, w, hw, h⟩
      · simp [h, hid]
      · simp [h, hid, hrunning, not_lt.mpr hold]
      · simp [h, hid, hnew, hbad]
      · simp [h, hid, hw, hrunning]
    · simp [Stops, consume, hrunning, receive, resolve]
    · obtain ⟨-, ⟨hfatal, ⟨e, herror⟩, -⟩ | ⟨hfatal, herror⟩⟩ := consume_protocolError hrunning error
      · simp [Stops, hfatal, herror]
      · simp only [Stops, herror, ne_eq, not_true_eq_false, false_iff]
        exact hfatal
    · simp [Stops, consume, hrunning, receive]
    · simp [Stops, consume, hrunning, receive]
  · simp [Stops, consume, hrunning]

/-- A surviving delivery keeps the first greatest snapshot. -/
theorem argmax_consume (hrunning : s.pumpError = none)
    (hlatest : (w₀ :: snapshots ds).argmax WorldView.snapshotSequence = some s.world)
    (hsurvives : (s.consume d).pumpError = none) :
    (w₀ :: snapshots (ds ++ [d])).argmax WorldView.snapshotSequence =
      some (s.consume d).world := by
  have hsplit : w₀ :: snapshots (ds ++ [d]) = (w₀ :: snapshots ds) ++ snapshots [d] := by
    simp [snapshots]
  rcases hd : d.snapshot? with _ | w
  · -- Nothing readable: the world stays.
    have hworld : (s.consume d).world = s.world := by
      rcases consume_cases hrunning d with ⟨-, hworld, -⟩ | ⟨-, hworld⟩ | ⟨rfl, -, hstate, -, -⟩
      · exact hworld
      · exact hworld
      · simp [snapshot?, hstate, Except.toOption] at hd
    rw [hsplit, hworld]
    simpa [snapshots, hd] using hlatest
  · -- A readable snapshot replaces the world exactly when it is newer.
    obtain ⟨state, rfl, hstate⟩ : ∃ state, d = .message (.state state) ∧
        WorldView.fromState state = .ok w := by
      rcases d with m | cause
      · rcases m with state | result | error | _ | _
        · rcases hstate : WorldView.fromState state with e | w'
          · simp [snapshot?, hstate, Except.toOption] at hd
          · simp only [snapshot?, hstate, Except.toOption, Option.some.injEq] at hd
            exact ⟨state, rfl, by rw [hstate, hd]⟩
        all_goals simp [snapshot?] at hd
      · simp [snapshot?] at hd
    have hone : snapshots [.message (.state state)] = [w] := by
      simp [snapshots, hd]
    have hsequence := (WorldView.fromState_eq_ok hstate).2
    rw [hsplit, hone, List.argmax_concat, hlatest]
    dsimp only
    rcases consume_state_cases hrunning state with ⟨-, e, h⟩ | ⟨-, hold, h⟩ | ⟨-, -, -, e, h⟩ |
      ⟨-, hnew, w', hw', h⟩
    · rw [h] at hsurvives
      simp at hsurvives
    · rw [h, if_neg]
      rw [hsequence]
      exact not_lt.mpr hold
    · rw [h] at hsurvives
      simp at hsurvives
    · rw [hstate] at hw'
      cases hw'
      rw [h, if_pos]
      rw [hsequence]
      exact hnew

end One

/-! ### All deliveries -/

/-- The invariant of the pump after `ds`. -/
structure Tracked (w₀ : WorldView) (ds live : List Delivery) (s : Session) : Prop where
  livePrefix : LivePrefix w₀ ds live
  latest : (w₀ :: snapshots live).argmax WorldView.snapshotSequence = some s.world
  sameRun : s.world.runId = w₀.runId
  running : s.pumpError = none → live = ds
  ended : s.pumpError ≠ none → ∃ d, live ++ [d] <+: ds ∧ Stops w₀ live d
  failed : s.pumpError ≠ none → ∀ id, s.pending id = none

theorem tracked_consume {w₀ : WorldView} {ds live : List Delivery} {s : Session}
    (h : Tracked w₀ ds live s) (d : Delivery) :
    ∃ live', Tracked w₀ (ds ++ [d]) live' (s.consume d) := by
  rcases hpump : s.pumpError with _ | e
  · obtain rfl := h.running hpump
    have hiff := ends_iff_stops (d := d) hpump h.sameRun h.latest
    rcases hafter : (s.consume d).pumpError with _ | e
    · -- The pump survives, and `d` joins the live part.
      have hsurvives : ¬ Stops w₀ live d := by
        rw [← hiff, hafter]
        exact fun hne => hne rfl
      refine ⟨live ++ [d], ⟨List.prefix_refl _, ?_, Or.inl rfl⟩,
        argmax_consume hpump h.latest hafter, ?_, fun _ => rfl, ?_, ?_⟩
      · intro before d' hprefix
        rcases List.prefix_concat_iff.mp hprefix with heq | hshort
        · obtain ⟨rfl, hlast⟩ := List.append_inj' heq rfl
          cases hlast
          exact hsurvives
        · exact h.livePrefix.survived before d' hshort
      · rcases consume_cases hpump d with ⟨-, hworld, -⟩ | ⟨-, hworld⟩ | ⟨-, -, -, -, hrun⟩
        · rw [hworld]
          exact h.sameRun
        · rw [hworld]
          exact h.sameRun
        · rw [hrun]
          exact h.sameRun
      · intro hne
        exact absurd hafter hne
      · intro hne
        exact absurd hafter hne
    · have hstops : Stops w₀ live d := by
        rw [← hiff, hafter]
        exact Option.some_ne_none e
      have hkept : (s.consume d).world = s.world ∧ ∀ id, (s.consume d).pending id = none := by
        rcases consume_cases hpump d with ⟨-, hworld, hfailed⟩ | ⟨hnone, -⟩ | ⟨-, hnone, -, -, -⟩
        · exact ⟨hworld, hfailed⟩
        · rw [hnone] at hafter
          cases hafter
        · rw [hnone] at hafter
          cases hafter
      refine ⟨live, ⟨List.prefix_append _ _, h.livePrefix.survived, Or.inr ⟨d, List.prefix_refl _, hstops⟩⟩,
        ?_, ?_, ?_, fun _ => ⟨d, List.prefix_refl _, hstops⟩, fun _ => hkept.2⟩
      · rw [hkept.1]
        exact h.latest
      · rw [hkept.1]
        exact h.sameRun
      · intro hnone
        rw [hafter] at hnone
        cases hnone
  · have hended : s.pumpError ≠ none := by simp [hpump]
    obtain ⟨d', hprefix, hstops⟩ := h.ended hended
    have hlonger : live ++ [d'] <+: ds ++ [d] := hprefix.trans (List.prefix_append _ _)
    rw [consume_of_ended hpump]
    refine ⟨live, ⟨h.livePrefix.isPrefix.trans (List.prefix_append _ _), h.livePrefix.survived,
      Or.inr ⟨d', hlonger, hstops⟩⟩, h.latest, h.sameRun, ?_, fun _ => ⟨d', hlonger, hstops⟩,
      h.failed⟩
    intro hnone
    rw [hpump] at hnone
    cases hnone

theorem tracked_consumeAll {s₀ : Session} (hrunning : s₀.pumpError = none) (ds : List Delivery) :
    ∃ live, Tracked s₀.world ds live (s₀.consumeAll ds) := by
  induction ds using List.reverseRecOn with
  | nil =>
      refine ⟨[], ⟨List.prefix_refl _, ?_, Or.inl rfl⟩, rfl, rfl, fun _ => rfl, ?_, ?_⟩
      · intro before d hprefix
        have hlength := hprefix.length_le
        simp at hlength
      · intro hne
        exact absurd hrunning hne
      · intro hne
        exact absurd hrunning hne
  | append_singleton ds d ih =>
      obtain ⟨live, htracked⟩ := ih
      rw [consumeAll_snoc]
      exact tracked_consume htracked d

/-- **The pump tracks the latest snapshot.** After any deliveries, the world is the
first snapshot with the greatest sequence number among the initial one and the
readable ones before the delivery that stopped the pump. So the run never changes;
a delivery changes the world only to a newer snapshot it carries; an old snapshot,
a delivery that ends the pump, and everything but a snapshot leave the world as it
was; and a pump that ended left no request pending. -/
theorem pump_tracks_latest_snapshot {s₀ : Session} (hrunning : s₀.pumpError = none)
    (ds : List Delivery) :
    (∃ live, LivePrefix s₀.world ds live ∧
      (s₀.world :: snapshots live).argmax WorldView.snapshotSequence =
        some (s₀.consumeAll ds).world) ∧
    (s₀.consumeAll ds).world.runId = s₀.world.runId ∧
    ((s₀.consumeAll ds).pumpError ≠ none → ∀ id, (s₀.consumeAll ds).pending id = none) ∧
    ∀ d,
      ((s₀.consumeAll (ds ++ [d])).world = (s₀.consumeAll ds).world ∨
        (s₀.consumeAll ds).world.snapshotSequence <
            (s₀.consumeAll (ds ++ [d])).world.snapshotSequence ∧
          ∃ state, d = .message (.state state) ∧
            WorldView.fromState state = .ok (s₀.consumeAll (ds ++ [d])).world) ∧
      (∀ state, d = .message (.state state) →
        state.snapshotSequence ≤ (s₀.consumeAll ds).world.snapshotSequence →
        (s₀.consumeAll (ds ++ [d])).world = (s₀.consumeAll ds).world) ∧
      ((s₀.consumeAll (ds ++ [d])).pumpError ≠ none →
        (s₀.consumeAll (ds ++ [d])).world = (s₀.consumeAll ds).world) := by
  obtain ⟨live, htracked⟩ := tracked_consumeAll hrunning ds
  refine ⟨⟨live, htracked.livePrefix, htracked.latest⟩, htracked.sameRun, htracked.failed, ?_⟩
  intro d
  rw [consumeAll_snoc]
  rcases hpump : (s₀.consumeAll ds).pumpError with _ | e
  · rcases consume_cases hpump d with ⟨-, hworld, -⟩ | ⟨-, hworld⟩ |
      ⟨rfl, hnone, hstate, hnewer, -⟩
    · exact ⟨Or.inl hworld, fun _ _ _ => hworld, fun _ => hworld⟩
    · exact ⟨Or.inl hworld, fun _ _ _ => hworld, fun _ => hworld⟩
    · refine ⟨Or.inr ⟨hnewer, _, rfl, hstate⟩, ?_, ?_⟩
      · intro state hd hold
        cases hd
        rw [(WorldView.fromState_eq_ok hstate).2] at hnewer
        exact absurd hold (not_le.mpr hnewer)
      · intro hne
        exact absurd hnone hne
  · rw [consume_of_ended hpump]
    exact ⟨Or.inl rfl, fun _ _ _ => rfl, fun _ => rfl⟩

/-- Two pushes, a late one, and one that cannot be read. -/
def sampleDeliveries : List Delivery :=
  [.message (.state (Wire.State.sample 3)), .message .readiness,
    .message (.state (Wire.State.sample 2)),
    .message (.state { Wire.State.sample 4 with self := { Wire.State.sample 4 |>.self with
                                                         specialty := 9 } }),
    .message (.state (Wire.State.sample 5))]

theorem pump_tracks_latest_snapshot_sample :
    ((start .sample).consumeAll sampleDeliveries).world.snapshotSequence = 3 ∧
      ∃ live, LivePrefix .sample sampleDeliveries live ∧
        (WorldView.sample :: snapshots live).argmax WorldView.snapshotSequence =
          some ((start .sample).consumeAll sampleDeliveries).world := by
  have hrunning : (start .sample).pumpError = none := rfl
  obtain ⟨htracked, -⟩ := pump_tracks_latest_snapshot hrunning sampleDeliveries
  exact ⟨by decide, htracked⟩

end Session

end PlanetCharlu
