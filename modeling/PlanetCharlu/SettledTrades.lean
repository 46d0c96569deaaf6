import PlanetCharlu.LoggedRunner

/-!
# Settled trades in the run log

The loop logs settled transactions only when the tick changes, and once more nothing
when it returns. So a transaction that settles after the loop has looked at the last tick
is counted by `run_ended` and has no record of its own. The log has every trade exactly
when all of them are already in the snapshot with which the loop entered its last tick.
-/

namespace PlanetCharlu

open Runs SeenSet

/-! ### The snapshots that are logged -/

/-- What the server guarantees for the snapshots of one station: settled transactions
accumulate, and a snapshot has one transaction for an id. -/
structure Accumulates (S : List WorldView) : Prop where
  station : ∀ a ∈ S, ∀ b ∈ S, a.selfStationId = b.selfStationId
  transactions : ∀ a ∈ S, ∀ b ∈ S, a.snapshotSequence < b.snapshotSequence →
    a.transactions ⊆ b.transactions
  ids : ∀ a ∈ S, (a.transactions.map Transaction.transactionId).Nodup

/-- The session replaces a snapshot only by a newer one. -/
def WorldView.NotNewer (a b : WorldView) : Prop :=
  a = b ∨ a.snapshotSequence < b.snapshotSequence

theorem WorldView.NotNewer.trans {a b c : WorldView} (hab : a.NotNewer b) (hbc : b.NotNewer c) :
    a.NotNewer c := by
  rcases hab with rfl | hab
  · exact hbc
  · rcases hbc with rfl | hbc
    · exact Or.inr hab
    · exact Or.inr (hab.trans hbc)

theorem Accumulates.subset {S : List WorldView} {a b : WorldView} (h : Accumulates S) (ha : a ∈ S)
    (hb : b ∈ S) (hnewer : a.NotNewer b) : a.transactions ⊆ b.transactions := by
  rcases hnewer with rfl | hnewer
  · exact List.Subset.refl _
  · exact h.transactions a ha b hb hnewer

namespace LoggedRunner

def enterTick (entered : List WorldView) (w : WorldView) : List WorldView :=
  if some w.tick = entered.getLast?.map WorldView.tick then entered else entered ++ [w]

/-- Of the snapshots the loop looked at, those with which it entered a tick. -/
def tickHeads (heads : List WorldView) : List WorldView := heads.foldl enterTick []

section TickHeads

variable {heads : List WorldView} {w : WorldView}

theorem tickHeads_snoc (heads : List WorldView) (w : WorldView) :
    tickHeads (heads ++ [w]) = enterTick (tickHeads heads) w := by
  rw [tickHeads, List.foldl_append]
  rfl

theorem tickHeads_sublist (heads : List WorldView) : (tickHeads heads).Sublist heads := by
  induction heads using List.reverseRecOn with
  | nil => exact List.Sublist.refl _
  | append_singleton heads w ih =>
      rw [tickHeads_snoc, enterTick]
      split
      · exact ih.trans (List.sublist_append_left _ _)
      · exact ih.append (List.Sublist.refl _)

/-- Once the loop has looked at a snapshot, it is in some tick. -/
theorem exists_entered (h : heads ≠ []) : ∃ entered, (tickHeads heads).getLast? = some entered := by
  induction heads using List.reverseRecOn with
  | nil => exact absurd rfl h
  | append_singleton heads w _ =>
      rw [tickHeads_snoc, enterTick]
      split
      · rename_i htick
        obtain ⟨entered, hentered, -⟩ := Option.map_eq_some_iff.mp htick.symm
        exact ⟨entered, hentered⟩
      · exact ⟨w, List.getLast?_concat⟩

end TickHeads

/-! ### What the log has at every place of the loop -/

/-- The log has settled what was in the snapshots that entered a tick. -/
structure Watches (S : List WorldView) (us : String) (l : LoggedRunner) : Prop where
  seen : ∀ w ∈ l.heads ++ [l.runner.session.world], w ∈ S
  order : (l.heads ++ [l.runner.session.world]).Pairwise WorldView.NotNewer
  tick : l.loggedTick = (tickHeads l.heads).getLast?.map WorldView.tick
  settles : l.log.Settles us ((tickHeads l.heads).flatMap WorldView.transactions)
  returned : ∀ w, l.runner.pc = .returned w → l.heads.getLast? = some w ∧
    ∃ earlier : RunLog, ∃ reason, l.log = earlier.runEnded w reason

namespace Watches

variable {S : List WorldView} {us : String} {e : RunnerEvent} {l t : LoggedRunner}

/-- Other steps change neither what was looked at nor what was settled. -/
theorem move (h : Watches S us l) (hheads : t.heads = l.heads)
    (hworld : t.runner.session.world = l.runner.session.world)
    (htick : t.loggedTick = l.loggedTick)
    (hlog : t.log.Settles us ((tickHeads l.heads).flatMap WorldView.transactions))
    (hreturned : ∀ w, t.runner.pc = .returned w → l.heads.getLast? = some w ∧
      ∃ earlier : RunLog, ∃ reason, t.log = earlier.runEnded w reason) : Watches S us t := by
  refine ⟨?_, ?_, ?_, ?_, ?_⟩
  · rw [hheads, hworld]
    exact h.seen
  · rw [hheads, hworld]
    exact h.order
  · rw [hheads, htick]
    exact h.tick
  · rw [hheads]
    exact hlog
  · rw [hheads]
    exact hreturned

theorem session (h : Watches S us l) {s : Session}
    (hworld : s.world = l.runner.session.world ∨
      s.world ∈ S ∧ l.runner.session.world.snapshotSequence < s.world.snapshotSequence) :
    Watches S us { l with runner := { l.runner with session := s } } := by
  rcases hworld with hworld | ⟨hs, hnewer⟩
  · exact h.move rfl hworld rfl h.settles h.returned
  · obtain ⟨hpairwise, -, hlast⟩ := List.pairwise_append.mp h.order
    refine ⟨?_, ?_, h.tick, h.settles, h.returned⟩
    · intro w hw
      rcases List.mem_append.mp hw with hw | hw
      · exact h.seen w (List.mem_append_left _ hw)
      · rw [List.mem_singleton.mp hw]
        exact hs
    · refine List.pairwise_append.mpr ⟨hpairwise, List.pairwise_singleton _ _, ?_⟩
      intro a ha b hb
      rw [List.mem_singleton.mp hb]
      exact (hlast a ha _ (List.mem_singleton_self _)).trans (Or.inr hnewer)

theorem look (hstation : ∀ w ∈ S, w.selfStationId = us) (h : Watches S us l)
    (hpc : l.runner.pc = .ready) : Watches S us l.look := by
  have hworld : l.runner.session.world ∈ S := h.seen _ (by simp)
  have hseen : ∀ w ∈ l.heads ++ [l.runner.session.world] ++ [l.runner.session.world], w ∈ S := by
    intro w hw
    rcases List.mem_append.mp hw with hw | hw
    · exact h.seen w hw
    · rw [List.mem_singleton.mp hw]
      exact hworld
  have horder : (l.heads ++ [l.runner.session.world] ++ [l.runner.session.world]).Pairwise
      WorldView.NotNewer := by
    refine List.pairwise_append.mpr ⟨h.order, List.pairwise_singleton _ _, ?_⟩
    intro a ha b hb
    rw [List.mem_singleton.mp hb]
    rcases List.mem_append.mp ha with ha | ha
    · exact (List.pairwise_append.mp h.order).2.2 a ha _ (List.mem_singleton_self _)
    · exact Or.inl (List.mem_singleton.mp ha)
  unfold LoggedRunner.look
  dsimp only
  by_cases htick : some l.runner.session.world.tick = l.loggedTick
  · have hheads : tickHeads (l.heads ++ [l.runner.session.world]) = tickHeads l.heads := by
      rw [tickHeads_snoc, enterTick, ← h.tick, if_pos htick]
    rw [if_neg (not_not.mpr htick)]
    refine ⟨hseen, horder, ?_, ?_, ?_⟩
    · rw [hheads]
      exact h.tick
    · rw [hheads]
      exact h.settles
    · intro w hreturned
      rw [hpc] at hreturned
      cases hreturned
  · have hheads : tickHeads (l.heads ++ [l.runner.session.world]) =
        tickHeads l.heads ++ [l.runner.session.world] := by
      rw [tickHeads_snoc, enterTick, ← h.tick, if_neg htick]
    rw [if_pos htick]
    refine ⟨hseen, horder, ?_, ?_, ?_⟩
    · rw [hheads, List.getLast?_concat]
      rfl
    · have hus := hstation _ hworld
      subst hus
      have hsettled := (h.settles.notes (RunLog.notes_tickSnapshot l.runner.session.world l.log
        l.runner.strategy.sentTotal)).transactionsSettled
      rw [hheads, List.flatMap_append, List.flatMap_singleton]
      exact hsettled.notes (RunLog.notes_offersSnapshot _ _)
    · intro w hreturned
      rw [hpc] at hreturned
      cases hreturned

theorem effect (hstation : ∀ w ∈ S, w.selfStationId = us) (h : Watches S us l)
    (hdelivered : ∀ w, e.snapshot? = some w → w ∈ S) (heff : Effect e l t) : Watches S us t := by
  cases heff with
  | session hworld =>
      apply h.session
      rcases hworld with hworld | ⟨hsnapshot, hnewer⟩
      · exact Or.inl hworld
      · exact Or.inr ⟨hdelivered _ hsnapshot, hnewer⟩
  | look hpc => exact h.look hstation hpc
  | move hfrom hto hworld hnotes =>
      refine h.move rfl hworld rfl (h.settles.notes hnotes) ?_
      intro w hreturned
      rw [hreturned] at hto
      cases hto
  | fail hfrom hto hworld hnotes =>
      refine h.move rfl hworld rfl (h.settles.notes hnotes) ?_
      intro w hreturned
      rw [hreturned] at hto
      cases hto
  | finish hpc hlooked =>
      refine h.move rfl rfl rfl (h.settles.runEnded _ _) ?_
      intro w hreturned
      cases hreturned
      exact ⟨hlooked, l.log, _, rfl⟩
  | timeout hfrom =>
      refine h.move rfl rfl rfl (h.settles.runEnded _ _) ?_
      intro w hreturned
      cases hreturned

end Watches

theorem run_watches {policy : Strategy} {w₀ : WorldView} {trace : List RunnerEvent}
    {l : LoggedRunner} (hrun : Run (Step policy) (start w₀) trace l)
    (hstation : ∀ w ∈ w₀ :: Runner.snapshots trace, w.selfStationId = w₀.selfStationId) :
    Watches (w₀ :: Runner.snapshots trace) w₀.selfStationId l := by
  apply run_invariant hrun
  · refine ⟨?_, List.pairwise_singleton _ _, rfl, ?_, ?_⟩
    · intro w hw
      rw [List.mem_singleton.mp hw]
      exact List.mem_cons_self
    · exact (RunLog.settles_nil _).notes (RunLog.notes_write _ _ rfl rfl)
    · intro w hreturned
      cases hreturned
  · intro e l t he h heff
    exact h.effect hstation (fun w hw => List.mem_cons_of_mem w₀ (Runner.mem_snapshots he hw)) heff

end LoggedRunner

/-! ### The law -/

def LogRecord.transactionCount? (x : LogRecord) : Option Nat :=
  match x.event with
  | .runEnded _ _ _ _ _ transactionCount => some transactionCount
  | _ => none

/-- The log ends with the end of the run, and has one record for each transaction of the
snapshot that involves us, from our side: as many as the last record counts. -/
def RunLog.LogsEveryTrade (log : RunLog) (w : WorldView) : Prop :=
  ∃ front last, log.records = front ++ [last] ∧
    last.transactionCount? = some (front.filter LogRecord.isSettled).length ∧
    (front.filter LogRecord.isSettled).Perm
      ((RunLog.involving w).map (RunLog.settledRecord w.selfStationId))

namespace LoggedRunner

/-- Every transaction of `w` that involves us is in the snapshot with which the loop
entered the last tick it looked at. -/
def SettledBeforeLastTick (heads : List WorldView) (w : WorldView) : Prop :=
  ∃ entered, (tickHeads heads).getLast? = some entered ∧
    ∀ tx ∈ w.transactions, tx.involves w.selfStationId = true → tx ∈ entered.transactions

section Law

variable {S : List WorldView} {us : String} {policy : Strategy} {w₀ w entered : WorldView}
  {trace : List RunnerEvent} {l : LoggedRunner} {tx : Transaction}

theorem settledRecord_transactionId {tx tx' : Transaction}
    (h : RunLog.settledRecord us tx = RunLog.settledRecord us tx') :
    tx.transactionId = tx'.transactionId := by
  unfold RunLog.settledRecord at h
  injection h with _ hevent
  injection hevent

theorem notNewer_of_mem_getLast {heads : List WorldView} {a : WorldView}
    (horder : heads.Pairwise WorldView.NotNewer) (hlast : heads.getLast? = some w)
    (ha : a ∈ heads) : a.NotNewer w := by
  obtain ⟨front, rfl⟩ := List.getLast?_eq_some_iff.mp hlast
  rcases List.mem_append.mp ha with ha | ha
  · exact (List.pairwise_append.mp horder).2.2 a ha w (List.mem_singleton_self w)
  · exact Or.inl (List.mem_singleton.mp ha)

/-- What was read is what was there when the last tick was entered. -/
theorem mem_read (h : Watches S us l) (haccumulates : Accumulates S)
    (hentered : (tickHeads l.heads).getLast? = some entered) :
    tx ∈ (tickHeads l.heads).flatMap WorldView.transactions ↔ tx ∈ entered.transactions := by
  have hsublist := tickHeads_sublist l.heads
  have horder := (List.pairwise_append.mp h.order).1.sublist hsublist
  have hseen : ∀ a ∈ tickHeads l.heads, a ∈ S := fun a ha =>
    h.seen a (List.mem_append_left _ (hsublist.subset ha))
  have hmem := List.mem_of_getLast? hentered
  rw [List.mem_flatMap]
  constructor
  · rintro ⟨a, ha, htx⟩
    exact haccumulates.subset (hseen a ha) (hseen entered hmem)
      (notNewer_of_mem_getLast horder hentered ha) htx
  · exact fun htx => ⟨entered, hmem, htx⟩

/-- The snapshot that entered the last tick has nothing that the returned one lacks. -/
theorem entered_subset (h : Watches S us l) (haccumulates : Accumulates S)
    (hlooked : l.heads.getLast? = some w)
    (hentered : (tickHeads l.heads).getLast? = some entered) :
    entered.transactions ⊆ w.transactions := by
  have hmem := (tickHeads_sublist l.heads).subset (List.mem_of_getLast? hentered)
  have horder := (List.pairwise_append.mp h.order).1
  exact haccumulates.subset (h.seen entered (List.mem_append_left _ hmem))
    (h.seen w (List.mem_append_left _ (List.mem_of_getLast? hlooked)))
    (notNewer_of_mem_getLast horder hlooked hmem)

/-- The transactions that have a record: those that involve us and were there when the
last tick was entered. -/
theorem mem_logged (h : Watches S us l) (haccumulates : Accumulates S)
    (hlooked : l.heads.getLast? = some w)
    (hentered : (tickHeads l.heads).getLast? = some entered) :
    tx ∈ firsts Transaction.transactionId
        (((tickHeads l.heads).flatMap WorldView.transactions).filter fun tx => tx.involves us) ↔
      tx ∈ entered.transactions ∧ tx.involves us = true := by
  have hw : w ∈ S := h.seen w (List.mem_append_left _ (List.mem_of_getLast? hlooked))
  have hids : Set.InjOn Transaction.transactionId {tx |
      tx ∈ ((tickHeads l.heads).flatMap WorldView.transactions).filter
        fun tx => tx.involves us} := by
    have hin : ∀ tx ∈ ((tickHeads l.heads).flatMap WorldView.transactions).filter
        fun tx => tx.involves us, tx ∈ w.transactions := by
      intro tx htx
      have hread := (mem_read h haccumulates hentered).mp (List.mem_filter.mp htx).1
      exact entered_subset h haccumulates hlooked hentered hread
    intro tx htx tx' htx' hid
    exact List.inj_on_of_nodup_map (haccumulates.ids w hw) (hin tx htx) (hin tx' htx') hid
  rw [mem_firsts hids, List.mem_filter, mem_read h haccumulates hentered]

theorem logsEveryTrade_runEnded (earlier : RunLog) (w : WorldView) (reason : String) :
    (earlier.runEnded w reason).LogsEveryTrade w ↔
      (earlier.records.filter LogRecord.isSettled).Perm
        ((RunLog.involving w).map (RunLog.settledRecord w.selfStationId)) := by
  constructor
  · rintro ⟨front, last, hrecords, -, hperm⟩
    obtain ⟨rfl, -⟩ := List.append_inj' hrecords rfl
    exact hperm
  · intro hperm
    refine ⟨earlier.records, _, rfl, ?_, hperm⟩
    rw [hperm.length_eq, List.length_map]
    rfl

/-- Records tell transactions apart, so it is enough that none is missing. -/
theorem perm_settledRecord_iff {logged involving : List Transaction} (hlogged : logged.Nodup)
    (hids : (involving.map Transaction.transactionId).Nodup) (hsubset : logged ⊆ involving) :
    (logged.map (RunLog.settledRecord us)).Perm (involving.map (RunLog.settledRecord us)) ↔
      involving ⊆ logged := by
  constructor
  · intro hperm tx htx
    have hrecord := hperm.mem_iff.mpr (List.mem_map_of_mem htx)
    obtain ⟨tx', htx', heq⟩ := List.mem_map.mp hrecord
    rw [← List.inj_on_of_nodup_map hids (hsubset htx') htx (settledRecord_transactionId heq)]
    exact htx'
  · intro hall
    apply List.Perm.map
    rw [List.perm_ext_iff_of_nodup hlogged (List.Nodup.of_map _ hids)]
    exact fun tx => ⟨fun htx => hsubset htx, fun htx => hall htx⟩

/-- **The log of a run that returns has every trade exactly when all were settled before
the last tick**, in the snapshots the loop looked at. -/
theorem logs_every_trade_iff (hrun : Run (Step policy) (start w₀) trace l)
    (haccumulates : Accumulates (w₀ :: Runner.snapshots trace))
    (hreturned : l.runner.pc = .returned w) :
    l.log.LogsEveryTrade w ↔ SettledBeforeLastTick l.heads w := by
  have hwatches := run_watches hrun fun w hw => haccumulates.station w hw w₀ List.mem_cons_self
  obtain ⟨hlooked, earlier, reason, hlog⟩ := hwatches.returned w hreturned
  have hw : w ∈ w₀ :: Runner.snapshots trace :=
    hwatches.seen w (List.mem_append_left _ (List.mem_of_getLast? hlooked))
  have hus : w.selfStationId = w₀.selfStationId :=
    haccumulates.station w hw w₀ List.mem_cons_self
  have hheads : l.heads ≠ [] := by
    intro hnil
    rw [hnil] at hlooked
    cases hlooked
  obtain ⟨entered, hentered⟩ := exists_entered hheads
  have hinvolving : ∀ tx, tx ∈ RunLog.involving w ↔
      tx ∈ w.transactions ∧ tx.involves w₀.selfStationId = true := by
    intro tx
    rw [RunLog.involving, List.mem_filter, hus]
  have hsettled : earlier.records.filter LogRecord.isSettled =
      (firsts Transaction.transactionId
        (((tickHeads l.heads).flatMap WorldView.transactions).filter
          fun tx => tx.involves w₀.selfStationId)).map
            (RunLog.settledRecord w₀.selfStationId) := by
    rw [← hwatches.settles.records, hlog, RunLog.runEnded, RunLog.write, List.filter_append]
    exact (List.append_nil _).symm
  rw [hlog, logsEveryTrade_runEnded, hsettled, hus, perm_settledRecord_iff]
  · constructor
    · intro hall
      refine ⟨entered, hentered, ?_⟩
      intro tx htx hinvolved
      rw [hus] at hinvolved
      have hmem := hall ((hinvolving tx).mpr ⟨htx, hinvolved⟩)
      exact ((mem_logged hwatches haccumulates hlooked hentered).mp hmem).1
    · rintro ⟨entered', hentered', hall⟩ tx htx
      rw [hentered] at hentered'
      cases hentered'
      obtain ⟨hmem, hinvolved⟩ := (hinvolving tx).mp htx
      rw [mem_logged hwatches haccumulates hlooked hentered]
      exact ⟨hall tx hmem (by rw [hus]; exact hinvolved), hinvolved⟩
  · exact List.Nodup.of_map _ (nodup_map_firsts _ _)
  · exact (haccumulates.ids w hw).sublist (List.filter_sublist.map _)
  · intro tx htx
    obtain ⟨hmem, hinvolved⟩ := (mem_logged hwatches haccumulates hlooked hentered).mp htx
    exact (hinvolving tx).mpr
      ⟨entered_subset hwatches haccumulates hlooked hentered hmem, hinvolved⟩

end Law

/-- A trade of ours settles, and the run is over. -/
def lateTrade : Transaction :=
  ⟨"trade-1", "offer-1", "P01", "P02", { water := 4 }, { food := 4 }, 100⟩

def overState : Wire.State :=
  { Wire.State.sample 2 with
    worldVersion := 2, tick := 100, phase := .FINISHED, transactions := [lateTrade] }

def overWorld : WorldView :=
  { WorldView.sample with
    worldVersion := 2, snapshotSequence := 2, tick := 100, phase := .FINISHED
    transactions := [lateTrade] }

/-- A run that is over when it starts logs the trade, since it enters the tick. -/
theorem logs_every_trade_iff_sample :
    ∃ l, Run (Step .base) (start overWorld) [.runs Runner.sampleReads] l ∧
      l.runner.pc = .returned overWorld ∧ l.log.LogsEveryTrade overWorld := by
  have hreplay : (replay (step .base) (start overWorld) [.runs Runner.sampleReads]).map
      (fun l => (l.runner.pc, l.heads)) = some (.returned overWorld, [overWorld]) := by
    decide +kernel
  obtain ⟨l, hl, hplace⟩ := Option.map_eq_some_iff.mp hreplay
  obtain ⟨hpc, hheads⟩ := Prod.mk.inj hplace
  have hrun : Run (Step .base) (start overWorld) [.runs Runner.sampleReads] l :=
    run_of_replay (fun _ _ _ h => h) hl
  have haccumulates : Accumulates (overWorld :: Runner.snapshots [.runs Runner.sampleReads]) :=
    ⟨by decide, by decide, by decide⟩
  refine ⟨l, hrun, hpc, (logs_every_trade_iff hrun haccumulates hpc).mpr ?_⟩
  rw [hheads]
  exact ⟨overWorld, rfl, fun _ htx _ => htx⟩

/-- The trade settles in the tick that the loop has logged, and the run is over. -/
def settledLate : List RunnerEvent :=
  [.runs Runner.sampleReads, .session (.arrives (.state overState)), .runs Runner.sampleReads]

theorem late_trade_unlogged :
    ∃ l, Run (Step .base) (start lastTick) settledLate l ∧
      Accumulates (lastTick :: Runner.snapshots settledLate) ∧
      l.runner.pc = .returned overWorld ∧ RunLog.involving overWorld = [lateTrade] ∧
      ¬l.log.LogsEveryTrade overWorld := by
  have hreplay : (replay (step .base) (start lastTick) settledLate).map
      (fun l => (l.runner.pc, l.log.records.filter LogRecord.isSettled)) =
        some (.returned overWorld, []) := by decide +kernel
  obtain ⟨l, hl, hplace⟩ := Option.map_eq_some_iff.mp hreplay
  obtain ⟨hpc, hnone⟩ := Prod.mk.inj hplace
  refine ⟨l, run_of_replay (fun _ _ _ h => h) hl, ⟨by decide, by decide, by decide⟩, hpc,
    by decide, ?_⟩
  rintro ⟨front, last, hrecords, -, hperm⟩
  rw [hrecords, List.filter_append] at hnone
  rw [(List.append_eq_nil_iff.mp hnone).1] at hperm
  have hlength := hperm.length_eq
  revert hlength
  decide

end LoggedRunner

end PlanetCharlu
