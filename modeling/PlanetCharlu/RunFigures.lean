import PlanetCharlu.LoggedHistory

/-!
# The figures of the page, for a run

Whatever of its log a run leaves behind, the page made from it says what happened in the
run: which decisions got which outcome, what was traded, when the station was short of
something, and whether the run is over.
-/

namespace PlanetCharlu

open Runs SeenSet Spans Tally

section Cut

variable {F : Type} {floats : Json.Floats F} {seconds : ℚ → F}

/-- The page of a cut file is that of the records that are there whole. -/
theorem ofEvents_cut {entries : List (Entry F)} {cut : List Char}
    (hcut : cut <+: fileText floats seconds entries) :
    ∃ k, Whole floats seconds entries cut k ∧
      RunSummary.ofEvents (loadEvents floats cut) = .ok (summaryOf seconds (entries.take k)) := by
  obtain ⟨k, hk, hload⟩ := loadEvents_cut entries hcut
  refine ⟨k, hk, ?_⟩
  rw [hload, ofEvents_loaded]

variable {entries : List (Entry F)} {records : List LogRecord}

theorem record_take (h : entries.map Entry.record = records) (k : ℕ) :
    (entries.take k).map Entry.record = records.take k := by
  rw [List.map_take, h]

theorem length_record (h : entries.map Entry.record = records) :
    entries.length = records.length := by
  rw [← h, List.length_map]

end Cut

/-! ### Decisions and their outcomes -/

def CommandRecord.asked? : CommandRecord → Option DecisionRecord
  | .asked d => some d
  | .answered _ => none

def CommandRecord.answered? : CommandRecord → Option ResultRecord
  | .asked _ => none
  | .answered a => some a

/-- Outcomes follow their decisions; the last decision may be without one. -/
inductive Paired : List CommandRecord → Option DecisionRecord → Prop where
  | nil : Paired [] none
  | asks {xs : List CommandRecord} (h : Paired xs none) (d : DecisionRecord) :
      Paired (xs ++ [.asked d]) (some d)
  | answers {xs : List CommandRecord} {d : DecisionRecord} (h : Paired xs (some d)) {a : ResultRecord}
      (hid : a.requestId = d.requestId) : Paired (xs ++ [.answered a]) none

/-- A beginning of the exchanges is as orderly. -/
theorem Paired.of_begins {xs ys : List CommandRecord} {pending : Option DecisionRecord}
    (h : Paired xs pending) (hys : ys <+: xs) : ∃ pending', Paired ys pending' := by
  induction h with
  | nil =>
      obtain rfl := List.prefix_nil.mp hys
      exact ⟨none, .nil⟩
  | asks h d ih =>
      rcases List.prefix_concat_iff.mp hys with rfl | hshort
      · exact ⟨some d, .asks h d⟩
      · exact ih hshort
  | answers h hid ih =>
      rcases List.prefix_concat_iff.mp hys with rfl | hshort
      · exact ⟨none, .answers h hid⟩
      · exact ih hshort

/-- Every decision but the pending one has its outcome. -/
theorem Paired.pairs {xs : List CommandRecord} {pending : Option DecisionRecord}
    (h : Paired xs pending) :
    ∃ pairs : List (DecisionRecord × ResultRecord),
      xs.filterMap CommandRecord.asked? = pairs.map Prod.fst ++ pending.toList ∧
      xs.filterMap CommandRecord.answered? = pairs.map Prod.snd ∧
      ∀ p ∈ pairs, p.2.requestId = p.1.requestId := by
  induction h with
  | nil => exact ⟨[], rfl, rfl, by simp⟩
  | asks h d ih =>
      obtain ⟨pairs, hasked, hanswered, hown⟩ := ih
      refine ⟨pairs, ?_, ?_, hown⟩
      · rw [List.filterMap_append, hasked, Option.toList_none, List.append_nil]
        rfl
      · rw [List.filterMap_append, hanswered]
        exact List.append_nil _
  | @answers xs d h a hid ih =>
      obtain ⟨pairs, hasked, hanswered, hown⟩ := ih
      refine ⟨pairs ++ [(d, a)], ?_, ?_, ?_⟩
      · rw [List.filterMap_append, hasked, List.map_append, Option.toList_none, List.append_nil]
        exact List.append_nil _
      · rw [List.filterMap_append, hanswered, List.map_append]
        rfl
      · intro p hp
        rcases List.mem_append.mp hp with hp | hp
        · exact hown p hp
        · rw [List.mem_singleton.mp hp]
          exact hid

/-- **The join by request id gives every decision its own outcome**, if no two decisions
have one id. -/
theorem rows_of_pairs {F : Type} {pairs : List (DecisionRecord × ResultRecord)}
    {pending : Option DecisionRecord}
    (hids : ((pairs.map Prod.fst ++ pending.toList).map DecisionRecord.requestId).Nodup)
    (hown : ∀ p ∈ pairs, p.2.requestId = p.1.requestId) :
    ((pairs.map Prod.fst ++ pending.toList).map fun d =>
      (d.row ((pairs.map Prod.snd).reverse.find? fun a => a.requestId = d.requestId) :
        DecisionRow F)) =
      pairs.map (fun p => p.1.row (some p.2)) ++ pending.toList.map fun d => d.row none := by
  rw [List.map_append, List.nodup_append] at hids
  obtain ⟨hfirst, -, hapart⟩ := hids
  have hpair : (pairs.map fun p => p.1.requestId).Nodup := by
    rwa [List.map_map] at hfirst
  -- whatever is found for an id is the outcome of the decision with it
  have hfind : ∀ id a, (pairs.map Prod.snd).reverse.find? (fun a => a.requestId = id) = some a →
      ∃ p ∈ pairs, p.2 = a ∧ p.1.requestId = id := by
    intro id a hfound
    have hmem := List.mem_reverse.mp (List.mem_of_find?_eq_some hfound)
    obtain ⟨p, hp, rfl⟩ := List.mem_map.mp hmem
    have hid := List.find?_some hfound
    exact ⟨p, hp, rfl, (hown p hp).symm.trans (of_decide_eq_true hid)⟩
  rw [List.map_append, List.map_map]
  congr 1
  · apply List.map_congr_left
    intro p hp
    have hsome : ((pairs.map Prod.snd).reverse.find? fun a =>
        a.requestId = p.1.requestId).isSome = true := by
      rw [List.find?_isSome]
      exact ⟨p.2, List.mem_reverse.mpr (List.mem_map_of_mem hp), by simp [hown p hp]⟩
    obtain ⟨a, ha⟩ := Option.isSome_iff_exists.mp hsome
    obtain ⟨q, hq, hqa, hid⟩ := hfind _ a ha
    have hsame : q = p := List.inj_on_of_nodup_map hpair hq hp hid
    rw [Function.comp_apply, ha, ← hqa, hsame]
  · apply List.map_congr_left
    intro d hd
    cases hresult : (pairs.map Prod.snd).reverse.find? fun a => a.requestId = d.requestId with
    | none => rfl
    | some a =>
        obtain ⟨p, hp, -, hid⟩ := hfind _ a hresult
        have hpid : p.1.requestId ∈ (pairs.map Prod.fst).map DecisionRecord.requestId :=
          List.mem_map_of_mem (List.mem_map_of_mem hp)
        exact absurd hid (hapart _ hpid _ (List.mem_map_of_mem hd))

/-- The decision whose outcome the loop waits for. -/
def RunnerPc.Pending : RunnerPc → Option DecisionRecord → Prop
  | .sending w d _ _, pending => pending = some (w.decisionRecord d)
  | .raised _, _ => True
  | _, pending => pending = none

namespace Runner

/-- What the history says of commands is paired up. -/
def Orderly (r : Runner) : Prop :=
  ∃ pending, Paired (r.history.filterMap Observation.exchange?) pending ∧ r.pc.Pending pending

variable {policy : Strategy} {e : RunnerEvent} {r t : Runner}

/-- The loop moves on with no command under way. -/
theorem Orderly.move (h : r.Orderly)
    (hfrom : ∀ pending, r.pc.Pending pending → pending = none)
    (hhistory : t.history.filterMap Observation.exchange? =
      r.history.filterMap Observation.exchange?) (hto : t.pc.Pending none) : t.Orderly := by
  obtain ⟨pending, hpaired, hpc⟩ := h
  obtain rfl := hfrom pending hpc
  exact ⟨none, by rwa [hhistory], hto⟩

theorem Orderly.effect (h : r.Orderly) (heff : Effect policy e r t) : t.Orderly := by
  -- only a decision and its outcome add to what the history says of commands
  cases heff with
  | session _ _ => exact h
  | begin hpc _ _ =>
      obtain ⟨pending, hpaired, hpending⟩ := h
      rw [hpc] at hpending
      exact ⟨pending, hpaired, hpending⟩
  | sync hpc =>
      refine h.move ?_ rfl rfl
      rw [hpc]
      exact fun _ hnone => hnone
  | reconcile hpc _ =>
      refine h.move ?_ rfl rfl
      rw [hpc]
      exact fun _ hnone => hnone
  | raise error =>
      obtain ⟨pending, hpaired, -⟩ := h
      exact ⟨pending, hpaired, trivial⟩
  | wake hpc _ =>
      refine h.move ?_ rfl rfl
      rw [hpc]
      exact fun _ hnone => hnone
  | note hpc hid =>
      obtain ⟨pending, hpaired, hpending⟩ := h
      rw [hpc] at hpending
      obtain rfl := hpending
      refine ⟨none, ?_, rfl⟩
      rw [List.filterMap_append]
      exact .answers hpaired hid
  | complete _ hpc =>
      refine h.move ?_ rfl rfl
      rw [hpc]
      exact fun _ hnone => hnone
  | finish hpc _ =>
      refine h.move ?_ rfl rfl
      rw [hpc]
      exact fun _ hnone => hnone
  | wait _ hpc _ =>
      refine h.move ?_ ?_ rfl
      · rw [hpc]
        exact fun _ hnone => hnone
      · rw [List.filterMap_append]
        exact List.append_nil _
  | decide _ hpc _ =>
      obtain ⟨pending, hpaired, hpending⟩ := h
      rw [hpc] at hpending
      obtain rfl := hpending
      refine ⟨_, ?_, rfl⟩
      rw [List.filterMap_append]
      exact .asks hpaired _

theorem run_orderly {w₀ : WorldView} {trace : List RunnerEvent}
    (hrun : Run (Step policy) (start w₀) trace r) : r.Orderly := by
  apply run_invariant (owns_start w₀) hrun
  · exact ⟨none, .nil, rfl⟩
  · intro e r t _ h heff
    exact h.effect heff

end Runner

theorem asked_exchanges (records : List LogRecord) :
    (exchanges records).filterMap CommandRecord.asked? = decisionRecords records := by
  unfold exchanges decisionRecords
  rw [List.filterMap_filterMap]
  congr 1
  funext x
  obtain ⟨tick, event⟩ := x
  cases event <;> rfl

theorem answered_exchanges (records : List LogRecord) :
    (exchanges records).filterMap CommandRecord.answered? = resultRecords records := by
  unfold exchanges resultRecords
  rw [List.filterMap_filterMap]
  congr 1
  funext x
  obtain ⟨tick, event⟩ := x
  cases event <;> rfl

/-- The decisions of the log are the commands of the run. -/
theorem asked_history (history : List Observation) :
    (history.filterMap Observation.exchange?).filterMap CommandRecord.asked? =
      (commandsOf history).map fun c => c.1.decisionRecord c.2 := by
  unfold commandsOf
  rw [List.filterMap_filterMap, List.map_filterMap]
  congr 1
  funext x
  rcases x with ⟨st, w, _ | d⟩ | ⟨w, d, o⟩
  · rfl
  · rfl
  · rfl

namespace LoggedRunner

theorem Mirrors.asked {l : LoggedRunner} (h : l.Mirrors) :
    (PlanetCharlu.exchanges l.log.records).filterMap CommandRecord.asked? =
      l.runner.commands.map fun c => c.1.decisionRecord c.2 := by
  rw [h.exchanges, asked_history]
  rfl

/-- A result in the log has come back. -/
theorem Mirrors.answered {l : LoggedRunner} (h : l.Mirrors) {a : ResultRecord}
    (ha : .answered a ∈ PlanetCharlu.exchanges l.log.records) :
    ∃ w d o, .answered w d o ∈ l.runner.history ∧ a = o.resultRecord := by
  rw [h.exchanges] at ha
  obtain ⟨observation, hobservation, hexchange⟩ := List.mem_filterMap.mp ha
  rcases observation with ⟨st, w, _ | d⟩ | ⟨w, d, o⟩
  · cases hexchange
  · cases hexchange
  · cases hexchange
    exact ⟨w, d, o, hobservation, rfl⟩

section Run

variable {F : Type} {floats : Json.Floats F} {seconds : ℚ → F} {policy : Strategy}
  {w₀ : WorldView} {trace : List RunnerEvent} {l : LoggedRunner} {entries : List (Entry F)}
  {cut : List Char}

/-- **The decision log of the page tells every decision with its own outcome**, wherever the
file ends: the decisions of the run from the first on, in order, each with the result that
came back for it; only the last can be pending. The counts of kinds and outcomes are of the
same decisions. -/
theorem decision_log_of_run (hrun : Run (Step policy) (start w₀) trace l)
    (hids : (l.runner.commands.map fun c => c.2.requestId).Nodup)
    (hentries : entries.map Entry.record = l.log.records)
    (hcut : cut <+: fileText floats seconds entries) :
    ∃ k summary, ∃ pairs : List (DecisionRecord × ResultRecord), ∃ pending : Option DecisionRecord,
      Whole floats seconds entries cut k ∧
      RunSummary.ofEvents (loadEvents floats cut) = .ok summary ∧
      pairs.map Prod.fst ++ pending.toList <+:
        l.runner.commands.map (fun c => c.1.decisionRecord c.2) ∧
      (k = entries.length → pairs.map Prod.fst ++ pending.toList =
        l.runner.commands.map fun c => c.1.decisionRecord c.2) ∧
      (∀ p ∈ pairs, p.2.requestId = p.1.requestId ∧
        ∃ w d o, .answered w d o ∈ l.runner.history ∧ p.2 = o.resultRecord) ∧
      summary.decisionLog =
        .ok (pairs.map (fun p => p.1.row (some p.2)) ++ pending.toList.map fun d => d.row none) ∧
      summary.decisionCounts =
        .ok (tally ((pairs.map Prod.fst ++ pending.toList).map fun d => (d.kind, 1))) ∧
      summary.commandOutcomeCounts = .ok (pairs.countP (fun p => p.2.ok),
        pairs.countP (fun p => !p.2.ok),
        tally ((pairs.filter fun p => !p.2.ok).map fun p => (p.2.code.name, 1))) := by
  obtain ⟨k, hk, hsummary⟩ := ofEvents_cut hcut
  have hmirrors := run_mirrors hrun
  obtain ⟨last, hpaired, -⟩ := Runner.run_orderly (run_erase hrun)
  rw [← hmirrors.exchanges] at hpaired
  have hrecords := record_take hentries k
  have hbegins : exchanges (l.log.records.take k) <+: exchanges l.log.records :=
    (List.take_prefix k l.log.records).filterMap _
  obtain ⟨pending, hloaded⟩ := hpaired.of_begins hbegins
  obtain ⟨pairs, hasked, hanswered, hown⟩ := hloaded.pairs
  have hfirst : pairs.map Prod.fst ++ pending.toList <+:
      l.runner.commands.map fun c => c.1.decisionRecord c.2 := by
    rw [← hasked, ← hmirrors.asked]
    exact hbegins.filterMap _
  have hnodup : ((pairs.map Prod.fst ++ pending.toList).map DecisionRecord.requestId).Nodup := by
    have hall : ((l.runner.commands.map fun c => c.1.decisionRecord c.2).map
        DecisionRecord.requestId).Nodup := by
      rw [List.map_map]
      exact hids
    exact hall.sublist (hfirst.sublist.map _)
  have hsent : ∀ d ∈ decisionRecords ((entries.take k).map Entry.record),
      ∃ m : ClientMessage, d.sent = m.fields := by
    intro d hd
    rw [hrecords, ← asked_exchanges, hasked] at hd
    obtain ⟨c, -, rfl⟩ := List.mem_map.mp (hfirst.subset hd)
    exact ⟨c.2.message, rfl⟩
  refine ⟨k, _, pairs, pending, hk, hsummary, hfirst, ?_, ?_, ?_, ?_, ?_⟩
  · rintro rfl
    rw [← hasked, length_record hentries, List.take_length, hmirrors.asked]
  · intro p hp
    refine ⟨hown p hp, ?_⟩
    have hmem : p.2 ∈ (exchanges (l.log.records.take k)).filterMap CommandRecord.answered? := by
      rw [hanswered]
      exact List.mem_map_of_mem hp
    obtain ⟨x, hx, hanswer⟩ := List.mem_filterMap.mp hmem
    cases x with
    | asked d => cases hanswer
    | answered a =>
        cases hanswer
        exact hmirrors.answered (hbegins.subset hx)
  · rw [decisionLog_summaryOf hsent, hrecords, ← asked_exchanges, ← answered_exchanges, hasked,
      hanswered, rows_of_pairs hnodup hown]
  · rw [decisionCounts_summaryOf, hrecords, ← asked_exchanges, hasked]
  · rw [commandOutcomeCounts_summaryOf, hrecords, ← answered_exchanges, hanswered,
      List.countP_map, List.countP_map, List.filter_map, List.map_map]
    rfl

end Run

/-! ### A log of two commands -/

/-- The entries of a log, all of one time. -/
def entriesOf (log : RunLog) : List (Entry ℤ) := log.records.map fun record => ⟨0, record⟩

theorem map_entriesOf (log : RunLog) : (entriesOf log).map Entry.record = log.records := by
  rw [entriesOf, List.map_map]
  exact List.map_id _

def fileOf (log : RunLog) : List Char := fileText wholeFloats Rat.floor (entriesOf log)

theorem whole_fileOf {log : RunLog} {k : ℕ}
    (h : Whole wholeFloats Rat.floor (entriesOf log) (fileOf log) k) :
    k = (entriesOf log).length := by
  apply le_antisymm h.le_length
  rw [← h.prefix_iff _ (le_refl _), List.take_length]
  exact List.prefix_append _ _

/-- The file was cut within the line of entry `j`. -/
theorem whole_take {log : RunLog} {n j k : ℕ} (hj : j < (entriesOf log).length)
    (hfrom : (fileText wholeFloats Rat.floor ((entriesOf log).take j)).length ≤ n)
    (hto : n + 1 < (fileText wholeFloats Rat.floor ((entriesOf log).take (j + 1))).length)
    (h : Whole wholeFloats Rat.floor (entriesOf log) ((fileOf log).take n) k) : k = j := by
  have hle : j ≤ k := by
    rw [← h.prefix_iff j hj.le]
    have hfile : fileText wholeFloats Rat.floor ((entriesOf log).take j) <+: fileOf log := by
      have happend : fileOf log = fileText wholeFloats Rat.floor ((entriesOf log).take j) ++
          fileText wholeFloats Rat.floor ((entriesOf log).drop j) := by
        rw [fileOf, fileText, fileText, fileText, LineLog.file, LineLog.file, LineLog.file,
          ← List.flatMap_append, List.take_append_drop]
      rw [happend]
      exact List.prefix_append _ _
    exact (List.prefix_take_iff.mpr ⟨hfile, hfrom⟩).trans (List.prefix_append _ _)
  have hlt : ¬j + 1 ≤ k := by
    rw [← h.prefix_iff (j + 1) hj]
    intro hprefix
    have hlength := hprefix.length_le
    rw [List.length_append, List.length_singleton] at hlength
    have htake := List.length_take_le n (fileOf log)
    unfold fileText at hto
    omega
  omega

def laterReads : Reads :=
  { Runner.sampleReads with env := { ChooseEnv.sample with requestId := "request-2" } }

/-- The second command has an id of its own. -/
def twoCommands : List RunnerEvent := Runner.sampleTrace.dropLast ++ [.runs laterReads]

theorem decision_log_of_run_sample :
    ∃ l summary rows, Run (Step .base) (start .sample) twoCommands l ∧
      RunSummary.ofEvents (loadEvents wholeFloats (fileOf l.log)) = .ok summary ∧
      summary.decisionLog = .ok rows ∧ rows.length = 2 := by
  have hreplay : (replay (step .base) (start .sample) twoCommands).map
      (fun l => l.runner.commands.map fun c => c.2.requestId) = some ["request-1", "request-2"] := by
    decide +kernel
  obtain ⟨l, hl, hcommands⟩ := Option.map_eq_some_iff.mp hreplay
  have hrun : Run (Step .base) (start .sample) twoCommands l := run_of_replay (fun _ _ _ h => h) hl
  have hids : (l.runner.commands.map fun c => c.2.requestId).Nodup := by
    rw [hcommands]
    decide
  have hcut : fileOf l.log <+: fileText wholeFloats Rat.floor (entriesOf l.log) := List.prefix_rfl
  obtain ⟨k, summary, pairs, pending, hk, hsummary, -, hall, -, hrows, -⟩ :=
    decision_log_of_run hrun hids (map_entriesOf l.log) hcut
  have hlength := congrArg List.length (hall (whole_fileOf hk))
  have htwo := congrArg List.length hcommands
  simp only [List.length_append, List.length_map, List.length_cons, List.length_nil] at hlength htwo
  refine ⟨l, summary, _, hrun, hsummary, hrows, ?_⟩
  rw [List.length_append, List.length_map, List.length_map]
  omega

/-! ### A run of three ticks -/

/-- A snapshot of a tick in which food was short, with these trades settled. -/
def hungryWorld (sequence tick : Nat) (phase : Phase) (streak : Nat)
    (transactions : List Transaction) : WorldView :=
  { WorldView.sample with
    worldVersion := sequence, snapshotSequence := sequence, tick, phase, transactions
    self :=
      { WorldView.sample.self with
        lastUnmetUpkeep := { food := 1 }, currentShortageStreak := streak } }

/-- The push that it is read from. -/
def hungryPush (sequence tick : Nat) (phase : Phase) (streak : Nat)
    (transactions : List Transaction) : RunnerEvent :=
  .session (.arrives (.state
    { Wire.State.sample sequence with
      worldVersion := sequence, tick, phase, transactions
      self :=
        { (Wire.State.sample sequence).self with
          lastUnmetUpkeep := { food := 1 }, currentShortageStreak := streak } }))

def pausedWorld : WorldView := hungryWorld 1 98 .PAUSED 1 []

def earlyTrade : Transaction :=
  ⟨"trade-0", "offer-0", "P02", "P01", { food := 2 }, { water := 1 }, 99⟩

/-- In ticks 99 and 100 a trade is settled each, and the run is over. -/
def threeTicks : List RunnerEvent :=
  [.runs Runner.sampleReads, hungryPush 2 99 .PAUSED 2 [earlyTrade], .runs Runner.sampleReads,
    hungryPush 3 100 .FINISHED 3 [earlyTrade, lateTrade], .runs Runner.sampleReads]

/-- Within its first 1700 characters the file has four records, and a part of the snapshot
of tick 100. -/
theorem run_threeTicks :
    ∃ l, Run (Step .base) (start pausedWorld) threeTicks l ∧
      tickHeads l.heads = [pausedWorld, hungryWorld 2 99 .PAUSED 2 [earlyTrade],
        hungryWorld 3 100 .FINISHED 3 [earlyTrade, lateTrade]] ∧
      (l.log.records.take 4).filter LogRecord.isSettled =
        [RunLog.settledRecord "P01" earlyTrade] ∧
      (shortagePoints (l.log.records.take 4)).length = 2 ∧ (entriesOf l.log).length = 7 ∧
      ∀ k, Whole wholeFloats Rat.floor (entriesOf l.log) ((fileOf l.log).take 1700) k → k = 4 := by
  have hreplay : (replay (step .base) (start pausedWorld) threeTicks).map (fun l =>
      (tickHeads l.heads, (l.log.records.take 4).filter LogRecord.isSettled,
        (shortagePoints (l.log.records.take 4)).length, l.log.records.length,
        (fileText wholeFloats Rat.floor ((entriesOf l.log).take 4)).length,
        (fileText wholeFloats Rat.floor ((entriesOf l.log).take 5)).length)) =
      some ([pausedWorld, hungryWorld 2 99 .PAUSED 2 [earlyTrade],
          hungryWorld 3 100 .FINISHED 3 [earlyTrade, lateTrade]],
        [RunLog.settledRecord "P01" earlyTrade], 2, 7, 1557, 2015) := by
    decide +kernel
  obtain ⟨l, hl, hplace⟩ := Option.map_eq_some_iff.mp hreplay
  simp only [Prod.mk.injEq] at hplace
  obtain ⟨hheads, hsettled, hpoints, hlength, hfrom, hto⟩ := hplace
  have hentries : (entriesOf l.log).length = 7 := by rw [entriesOf, List.length_map, hlength]
  refine ⟨l, run_of_replay (fun _ _ _ h => h) hl, hheads, hsettled, hpoints, hentries, ?_⟩
  intro k hk
  exact whole_take (by omega) (by omega) (lt_of_lt_of_eq (by decide) hto.symm) hk

end LoggedRunner

/-! ### The end and the trades -/

theorem LogRecord.isEnd_iff (x : LogRecord) : x.isEnd = true ↔ x.event.name = "run_ended" := by
  obtain ⟨tick, event⟩ := x
  cases event <;> simp [LogRecord.isEnd, LogEvent.name]

/-- The page is that of an ended run if a record says so. -/
theorem incomplete_summaryOf {F : Type} {seconds : ℚ → F} (entries : List (Entry F)) :
    (summaryOf seconds entries).incomplete = false ↔
      ∃ x ∈ entries.map Entry.record, x.isEnd = true := by
  change ((named "run_ended" entries).map (Entry.loaded seconds)).isEmpty = false ↔ _
  rw [List.isEmpty_map, List.isEmpty_eq_false_iff_exists_mem]
  constructor
  · rintro ⟨entry, hentry⟩
    obtain ⟨hmem, hname⟩ := List.mem_filter.mp hentry
    exact ⟨entry.record, List.mem_map_of_mem hmem,
      (LogRecord.isEnd_iff _).mpr (of_decide_eq_true hname)⟩
  · rintro ⟨x, hx, hend⟩
    obtain ⟨entry, hentry, rfl⟩ := List.mem_map.mp hx
    exact ⟨entry, List.mem_filter.mpr
      ⟨hentry, decide_eq_true ((LogRecord.isEnd_iff _).mp hend)⟩⟩

/-- A settled transaction from our side. -/
def Transaction.settlement (selfStationId : String) (tx : Transaction) : Settlement :=
  let (counterparty, weGave, weReceived) := tx.relativeTo selfStationId
  ⟨counterparty, weGave, weReceived⟩

/-- The trades of a station in these snapshots, in the order in which they are there first,
each once. -/
def tradesIn (us : String) (seen : List WorldView) : List Transaction :=
  firsts Transaction.transactionId
    ((seen.flatMap WorldView.transactions).filter fun tx => tx.involves us)

/-- The records of trades tell these trades: each once, with us in it, and settled in a
snapshot that was there. -/
structure TellsTrades (us : String) (S : List WorldView) (records : List LogRecord)
    (trades : List Transaction) : Prop where
  records : records.filter LogRecord.isSettled = trades.map (RunLog.settledRecord us)
  ids : (trades.map Transaction.transactionId).Nodup
  involved : ∀ tx ∈ trades, tx.involves us = true
  seen : ∀ tx ∈ trades, ∃ w ∈ S, tx ∈ w.transactions

theorem settlements_filter (records : List LogRecord) :
    settlements (records.filter LogRecord.isSettled) = settlements records := by
  unfold settlements
  rw [List.filterMap_filter]
  congr 1
  funext x
  obtain ⟨tick, event⟩ := x
  cases event <;> rfl

theorem TellsTrades.settlements {us : String} {S : List WorldView} {records : List LogRecord}
    {trades : List Transaction} (h : TellsTrades us S records trades) :
    PlanetCharlu.settlements records = trades.map (Transaction.settlement us) := by
  rw [← settlements_filter, h.records, PlanetCharlu.settlements, List.filterMap_map]
  have hrecord : ((fun x : LogRecord => x.event.settlement?) ∘ RunLog.settledRecord us) =
      some ∘ Transaction.settlement us := by
    funext tx
    rfl
  rw [hrecord, List.filterMap_eq_map]

/-- What a beginning of the records tells is a beginning. -/
theorem TellsTrades.take {us : String} {S : List WorldView} {records : List LogRecord}
    {trades : List Transaction} (h : TellsTrades us S records trades) (k : ℕ) :
    ∃ m, TellsTrades us S (records.take k) (trades.take m) := by
  have hbegins := (List.take_prefix k records).filter LogRecord.isSettled
  rw [h.records] at hbegins
  have htake := List.prefix_iff_eq_take.mp hbegins
  refine ⟨((records.take k).filter LogRecord.isSettled).length, ?_, ?_, ?_, ?_⟩
  · rw [List.map_take]
    exact htake
  · rw [List.map_take]
    exact h.ids.sublist (List.take_sublist _ _)
  · exact fun tx htx => h.involved tx (List.mem_of_mem_take htx)
  · exact fun tx htx => h.seen tx (List.mem_of_mem_take htx)

namespace LoggedRunner

section Run

variable {F : Type} {floats : Json.Floats F} {seconds : ℚ → F} {policy : Strategy}
  {w₀ : WorldView} {trace : List RunnerEvent} {l : LoggedRunner} {entries : List (Entry F)}
  {cut : List Char}

/-- The log tells the trades of the snapshots with which the loop entered a tick. -/
theorem run_tellsTrades (hrun : Run (Step policy) (start w₀) trace l)
    (hstation : ∀ w ∈ w₀ :: Runner.snapshots trace, w.selfStationId = w₀.selfStationId) :
    TellsTrades w₀.selfStationId (w₀ :: Runner.snapshots trace) l.log.records
      (tradesIn w₀.selfStationId (tickHeads l.heads)) := by
  have hwatches := run_watches hrun hstation
  refine ⟨hwatches.settles.records, nodup_map_firsts _ _, ?_, ?_⟩
  · intro tx htx
    exact (List.mem_filter.mp (mem_of_mem_firsts htx)).2
  · intro tx htx
    obtain ⟨w, hw, hmem⟩ := List.mem_flatMap.mp (List.mem_filter.mp (mem_of_mem_firsts htx)).1
    exact ⟨w, hwatches.seen w
      (List.mem_append_left _ ((tickHeads_sublist l.heads).subset hw)), hmem⟩

/-- The end is in the first `k` records if the run has ended and they are all. -/
theorem Books.end_mem_take_iff (h : l.Books) {k : ℕ} (hk : k ≤ l.log.records.length) :
    (∃ x ∈ l.log.records.take k, x.isEnd = true) ↔
      l.log.EndRecorded ∧ k = l.log.records.length := by
  constructor
  · rintro ⟨x, hx, hend⟩
    have hrecorded : l.log.EndRecorded := by
      by_contra hnone
      have hlive : l.log.Live := by
        apply h.live
        by_contra hgoing
        rw [not_or, Bool.not_eq_false, not_exists] at hgoing
        exact hnone (h.ended hgoing.1 hgoing.2)
      exact List.filter_eq_nil_iff.mp hlive x (List.mem_of_mem_take hx) hend
    refine ⟨hrecorded, ?_⟩
    obtain ⟨front, last, hrecords, -, hfront⟩ := hrecorded
    rw [hrecords] at hx hk ⊢
    rw [List.length_append, List.length_singleton] at hk ⊢
    by_contra hshort
    have hle : k ≤ front.length := by omega
    rw [List.take_append_of_le_length hle] at hx
    rw [hfront x (List.mem_of_mem_take hx)] at hend
    cases hend
  · rintro ⟨⟨front, last, hrecords, hend, -⟩, rfl⟩
    rw [List.take_length, hrecords]
    exact ⟨last, List.mem_append_right _ (List.mem_singleton_self last), hend⟩

/-- **The page tells the end and the trades of a run**, wherever the file ends: it is live
until the record of the end is there whole, the flow of the resources is that of the first
trades of the run (all of them in a whole file), each counted once, and the volumes of the
partners add up to it. -/
theorem figures_of_run (hrun : Run (Step policy) (start w₀) trace l)
    (hstation : ∀ w ∈ w₀ :: Runner.snapshots trace, w.selfStationId = w₀.selfStationId)
    (hentries : entries.map Entry.record = l.log.records)
    (hcut : cut <+: fileText floats seconds entries) :
    ∃ k summary trades partners,
      Whole floats seconds entries cut k ∧
      RunSummary.ofEvents (loadEvents floats cut) = .ok summary ∧
      (summary.incomplete = false ↔ l.log.EndRecorded ∧ k = entries.length) ∧
      TellsTrades w₀.selfStationId (w₀ :: Runner.snapshots trace) (l.log.records.take k) trades ∧
      trades <+: tradesIn w₀.selfStationId (tickHeads l.heads) ∧
      (k = entries.length → trades = tradesIn w₀.selfStationId (tickHeads l.heads)) ∧
      (∀ w ∈ tickHeads l.heads, w ∈ w₀ :: Runner.snapshots trace) ∧
      summary.resourceFlow = .ok (flows (trades.map (Transaction.settlement w₀.selfStationId))) ∧
      summary.partnerVolumes = .ok partners ∧
      Counts (trades.map fun tx => ((tx.settlement w₀.selfStationId).counterparty,
        (tx.settlement w₀.selfStationId).volume)) partners ∧
      total partners = ((flows (trades.map (Transaction.settlement w₀.selfStationId))).map
        fun flow => flow.2.gave + flow.2.received).sum := by
  obtain ⟨k, hk, hsummary⟩ := ofEvents_cut hcut
  have hwatches := run_watches hrun hstation
  have hall := run_tellsTrades hrun hstation
  generalize tradesIn w₀.selfStationId (tickHeads l.heads) = all at hall ⊢
  obtain ⟨m, htrades⟩ := hall.take k
  have hrecords := record_take hentries k
  have hlength := length_record hentries
  have hle : k ≤ l.log.records.length := hlength ▸ hk.le_length
  have hsettlements := htrades.settlements
  refine ⟨k, _, all.take m,
    partnersOf ((all.take m).map (Transaction.settlement w₀.selfStationId)),
    hk, hsummary, ?_, htrades, List.take_prefix m all, ?_, ?_, ?_, ?_, ?_, ?_⟩
  · rw [incomplete_summaryOf, hrecords, (run_books hrun).end_mem_take_iff hle, hlength]
  · rintro rfl
    have hsettled := htrades.records
    rw [hlength, List.take_length, hall.records] at hsettled
    apply (List.take_sublist m all).eq_of_length
    simpa using (congrArg List.length hsettled).symm
  · exact fun w hw => hwatches.seen w
      (List.mem_append_left _ ((tickHeads_sublist l.heads).subset hw))
  · rw [resourceFlow_summaryOf, hrecords, hsettlements]
  · rw [partnerVolumes_summaryOf, hrecords, hsettlements]
  · have hcounts := counts_partnersOf
      ((all.take m).map (Transaction.settlement w₀.selfStationId))
    rwa [List.map_map] at hcounts
  · exact total_partnersOf _

end Run

/-- The process was killed in tick 100, before the second trade was written. -/
theorem figures_of_run_sample :
    ∃ l summary, Run (Step .base) (start pausedWorld) threeTicks l ∧
      RunSummary.ofEvents (loadEvents wholeFloats ((fileOf l.log).take 1700)) = .ok summary ∧
      summary.incomplete ≠ false ∧
      summary.resourceFlow = .ok (flows [earlyTrade.settlement "P01"]) := by
  obtain ⟨l, hrun, -, hsettled, -, hlength, hcut⟩ := run_threeTicks
  obtain ⟨k, summary, trades, partners, hk, hsummary, hend, htrades, -, -, -, hflow, -⟩ :=
    figures_of_run hrun (by decide) (map_entriesOf l.log) (List.take_prefix 1700 (fileOf l.log))
  obtain rfl := hcut k hk
  refine ⟨l, summary, hrun, hsummary, ?_, ?_⟩
  · intro hover
    have hall := (hend.mp hover).2
    omega
  · have htrade := htrades.settlements
    rw [← settlements_filter, hsettled] at htrade
    rw [hflow, ← htrade]
    rfl

end LoggedRunner

/-! ### Shortages -/

/-- Some upkeep is unmet. -/
def WorldView.Short (w : WorldView) : Prop := ∃ r, 0 < quantity w.self.lastUnmetUpkeep r

/-- The periods are the maximal ones of ticks with unmet upkeep, among the snapshots that
were seen; each tells all that was short in it and the longest streak. A tick that was not
seen ends a period as well. -/
structure ShortagesOf (seen : List WorldView) (periods : List (Span ShortTick)) : Prop where
  covers : ∀ t : Int, (∃ w ∈ seen, (w.tick : Int) = t ∧ w.Short) ↔ ∃ s ∈ periods, s.Contains t
  nonempty : ∀ s ∈ periods, s.start ≤ s.stop
  apart : periods.Pairwise fun s s' => s.stop + 1 < s'.start
  ends : ∀ s ∈ periods, ∀ w ∈ seen, (w.tick : Int) = s.start - 1 ∨ (w.tick : Int) = s.stop + 1 →
    ¬w.Short
  resources : ∀ s ∈ periods, ∀ r : Resource, r.value ∈ s.data.resources ↔
    ∃ w ∈ seen, s.Contains w.tick ∧ 0 < quantity w.self.lastUnmetUpkeep r
  streak : ∀ s ∈ periods, ∀ n : Int, n ≤ s.data.streak ↔
    ∃ w ∈ seen, s.Contains w.tick ∧ w.Short ∧ n ≤ w.self.currentShortageStreak

theorem Resource.value_injective : Function.Injective Resource.value := by
  decide +kernel

theorem shortageOf_eq_none_iff {unmet : Bundle} {streak : Nat} :
    shortageOf unmet streak = none ↔ ¬∃ r, 0 < quantity unmet r := by
  unfold shortageOf
  dsimp only
  rw [ite_eq_left_iff]
  constructor
  · intro h
    rintro ⟨r, hr⟩
    refine absurd (h ?_) (by simp)
    exact List.ne_nil_of_mem (List.mem_filter.mpr ⟨mem_RESOURCES r, decide_eq_true hr⟩)
  · intro h hne
    obtain ⟨r, hr⟩ := List.exists_mem_of_ne_nil _ hne
    exact absurd ⟨r, of_decide_eq_true (List.mem_filter.mp hr).2⟩ h

/-- What a mark says. -/
theorem of_shortageOf {unmet : Bundle} {streak : Nat} {short : ShortTick}
    (h : shortageOf unmet streak = some short) :
    (∀ r : Resource, r.value ∈ short.resources ↔ 0 < quantity unmet r) ∧
      short.streak = streak := by
  unfold shortageOf at h
  dsimp only at h
  split at h
  · cases h
  · obtain rfl := Option.some_injective _ h
    refine ⟨?_, rfl⟩
    intro r
    rw [List.mem_toFinset, List.mem_map_of_injective Resource.value_injective, List.mem_filter]
    constructor
    · exact fun hr => of_decide_eq_true hr.2
    · exact fun hr => ⟨mem_RESOURCES r, decide_eq_true hr⟩

theorem mem_shortagePoint {seen : List WorldView} {t : Int} {short : ShortTick} :
    (t, some short) ∈ seen.map WorldView.shortagePoint ↔ ∃ w ∈ seen, (w.tick : Int) = t ∧
      shortageOf w.self.lastUnmetUpkeep w.self.currentShortageStreak = some short := by
  simp only [List.mem_map, WorldView.shortagePoint, Prod.mk.injEq]

theorem WorldView.short_iff {w : WorldView} : w.Short ↔ ∃ short,
    shortageOf w.self.lastUnmetUpkeep w.self.currentShortageStreak = some short := by
  rw [← Option.isSome_iff_exists, Option.isSome_iff_ne_none, Ne, shortageOf_eq_none_iff, not_not]
  rfl

/-- The marked points are the ticks with unmet upkeep. -/
theorem marked_iff {seen : List WorldView} {t : Int} :
    Marked (seen.map WorldView.shortagePoint) t ↔ ∃ w ∈ seen, (w.tick : Int) = t ∧ w.Short := by
  constructor
  · rintro ⟨short, hpoint⟩
    obtain ⟨w, hw, htick, hmark⟩ := mem_shortagePoint.mp hpoint
    exact ⟨w, hw, htick, WorldView.short_iff.mpr ⟨short, hmark⟩⟩
  · rintro ⟨w, hw, htick, hshort⟩
    obtain ⟨short, hmark⟩ := WorldView.short_iff.mp hshort
    exact ⟨short, mem_shortagePoint.mpr ⟨w, hw, htick, hmark⟩⟩

/-- What the log tells of shortages is what the snapshots have. -/
theorem TellsShortages.shortagesOf {seen : List WorldView} {periods : List (Span ShortTick)}
    (h : TellsShortages (seen.map WorldView.shortagePoint) periods) :
    ShortagesOf seen periods where
  covers t := by
    rw [← h.maximal.covers t, marked_iff]
  nonempty := h.maximal.nonempty
  apart := h.maximal.apart
  ends s hs w hw htick hshort := by
    obtain ⟨hbefore, hafter⟩ := h.maximal.not_marked hs
    rcases htick with htick | htick
    · exact hbefore (marked_iff.mpr ⟨w, hw, htick, hshort⟩)
    · exact hafter (marked_iff.mpr ⟨w, hw, htick, hshort⟩)
  resources s hs r := by
    rw [h.resources s hs]
    constructor
    · rintro ⟨t, short, hpoint, ht, hr⟩
      obtain ⟨w, hw, rfl, hmark⟩ := mem_shortagePoint.mp hpoint
      exact ⟨w, hw, ht, ((of_shortageOf hmark).1 r).mp hr⟩
    · rintro ⟨w, hw, ht, hr⟩
      obtain ⟨short, hmark⟩ := WorldView.short_iff.mp ⟨r, hr⟩
      exact ⟨w.tick, short, mem_shortagePoint.mpr ⟨w, hw, rfl, hmark⟩, ht,
        ((of_shortageOf hmark).1 r).mpr hr⟩
  streak s hs n := by
    rw [h.streak s hs]
    constructor
    · rintro ⟨t, short, hpoint, ht, hn⟩
      obtain ⟨w, hw, rfl, hmark⟩ := mem_shortagePoint.mp hpoint
      rw [(of_shortageOf hmark).2] at hn
      exact ⟨w, hw, ht, WorldView.short_iff.mpr ⟨short, hmark⟩, hn⟩
    · rintro ⟨w, hw, ht, hshort, hn⟩
      obtain ⟨short, hmark⟩ := WorldView.short_iff.mp hshort
      rw [← (of_shortageOf hmark).2] at hn
      exact ⟨w.tick, short, mem_shortagePoint.mpr ⟨w, hw, rfl, hmark⟩, ht, hn⟩

namespace LoggedRunner

/-- The ticks that were entered ascend, if newer snapshots are of no earlier tick. -/
theorem tickHeads_ticks {heads : List WorldView}
    (horder : heads.Pairwise fun a b => a.tick ≤ b.tick) :
    (tickHeads heads).Pairwise fun a b => a.tick < b.tick := by
  induction heads using List.reverseRecOn with
  | nil => exact List.Pairwise.nil
  | append_singleton heads w ih =>
      obtain ⟨hheads, -, hw⟩ := List.pairwise_append.mp horder
      have hticks := ih hheads
      rw [tickHeads_snoc, enterTick]
      split
      · exact hticks
      · rename_i hnew
        rw [List.pairwise_append]
        refine ⟨hticks, List.pairwise_singleton _ _, ?_⟩
        intro a ha b hb
        rw [List.mem_singleton.mp hb]
        obtain ⟨last, hlast⟩ : ∃ last, (tickHeads heads).getLast? = some last :=
          exists_entered (List.ne_nil_of_mem ((tickHeads_sublist heads).subset ha))
        -- the tick entered last is another one, and those before it are earlier still
        have hle : last.tick ≤ w.tick :=
          hw last ((tickHeads_sublist heads).subset (List.mem_of_getLast? hlast)) w
            (List.mem_singleton_self w)
        have hne : w.tick ≠ last.tick := by
          intro htick
          apply hnew
          rw [hlast, htick]
          rfl
        have hbefore : a.tick ≤ last.tick := by
          obtain ⟨front, hfront⟩ := List.getLast?_eq_some_iff.mp hlast
          rw [hfront] at ha hticks
          rcases List.mem_append.mp ha with ha | ha
          · exact ((List.pairwise_append.mp hticks).2.2 a ha last
              (List.mem_singleton_self last)).le
          · rw [List.mem_singleton.mp ha]
        omega

section Run

variable {F : Type} {floats : Json.Floats F} {seconds : ℚ → F} {policy : Strategy}
  {w₀ : WorldView} {trace : List RunnerEvent} {l : LoggedRunner} {entries : List (Entry F)}
  {cut : List Char}

/-- **The shortages on the page are those of the snapshots the loop entered a tick with**,
wherever the file ends: the page knows the first of them, and all in a whole file. -/
theorem shortages_of_run (hrun : Run (Step policy) (start w₀) trace l)
    (hstation : ∀ w ∈ w₀ :: Runner.snapshots trace, w.selfStationId = w₀.selfStationId)
    (hticks : ∀ a ∈ w₀ :: Runner.snapshots trace, ∀ b ∈ w₀ :: Runner.snapshots trace,
      a.snapshotSequence < b.snapshotSequence → a.tick ≤ b.tick)
    (hentries : entries.map Entry.record = l.log.records)
    (hcut : cut <+: fileText floats seconds entries) :
    ∃ k summary seen periods,
      Whole floats seconds entries cut k ∧
      RunSummary.ofEvents (loadEvents floats cut) = .ok summary ∧
      shortagePoints (l.log.records.take k) = seen.map WorldView.shortagePoint ∧
      seen <+: tickHeads l.heads ∧
      (k = entries.length → seen = tickHeads l.heads) ∧
      (∀ w ∈ seen, w ∈ w₀ :: Runner.snapshots trace) ∧
      summary.shortagePeriods = .ok periods ∧ ShortagesOf seen periods := by
  obtain ⟨k, hk, hsummary⟩ := ofEvents_cut hcut
  have hwatches := run_watches hrun hstation
  have hpoints := (run_mirrors hrun).points
  have hrecords := record_take hentries k
  -- the points of the first records are those of the first ticks
  have hbegins : shortagePoints (l.log.records.take k) <+:
      (tickHeads l.heads).map WorldView.shortagePoint := by
    rw [← hpoints]
    exact (List.take_prefix k l.log.records).filterMap _
  have hseen := List.prefix_iff_eq_take.mp hbegins
  generalize hm : (shortagePoints (l.log.records.take k)).length = m at hseen
  rw [← List.map_take] at hseen
  have hin : ∀ w ∈ l.heads, w ∈ w₀ :: Runner.snapshots trace :=
    fun w hw => hwatches.seen w (List.mem_append_left _ hw)
  have horder : l.heads.Pairwise fun a b => a.tick ≤ b.tick := by
    have hnewer := (List.pairwise_append.mp hwatches.order).1
    refine hnewer.imp_of_mem ?_
    intro a b ha hb hab
    rcases hab with rfl | hab
    · exact le_refl _
    · exact hticks a (hin a ha) b (hin b hb) hab
  have hnodup : ((shortagePoints ((entries.take k).map Entry.record)).map Prod.fst).Nodup := by
    rw [hrecords, hseen, List.map_map]
    have hascending := (tickHeads_ticks horder).sublist (List.take_sublist m _)
    refine List.pairwise_map.mpr (hascending.imp ?_)
    intro a b hab heq
    exact absurd (Int.ofNat_inj.mp heq) hab.ne
  obtain ⟨periods, hperiods, htells⟩ := @shortagePeriods_summaryOf F seconds _ hnodup
  rw [hrecords, hseen] at htells
  refine ⟨k, _, (tickHeads l.heads).take m, periods, hk, hsummary, hseen,
    List.take_prefix _ _, ?_, ?_, hperiods, htells.shortagesOf⟩
  · rintro rfl
    rw [length_record hentries, List.take_length, hpoints, List.length_map] at hm
    rw [← hm, List.take_length]
  · intro w hw
    exact hin w ((tickHeads_sublist l.heads).subset (List.mem_of_mem_take hw))

end Run

/-- The process was killed in tick 100, before its snapshot was written. -/
theorem shortages_of_run_sample :
    ∃ l summary periods, Run (Step .base) (start pausedWorld) threeTicks l ∧
      RunSummary.ofEvents (loadEvents wholeFloats ((fileOf l.log).take 1700)) = .ok summary ∧
      summary.shortagePeriods = .ok periods ∧
      ∃ s ∈ periods, s.Contains 99 ∧ ¬s.Contains 100 ∧ "food" ∈ s.data.resources ∧
        2 ≤ s.data.streak := by
  obtain ⟨l, hrun, hheads, -, hpoints, -, hcut⟩ := run_threeTicks
  obtain ⟨k, summary, seen, periods, hk, hsummary, htold, hfirst, -, -, hperiods, hshortages⟩ :=
    shortages_of_run hrun (by decide) (by decide) (map_entriesOf l.log)
      (List.take_prefix 1700 (fileOf l.log))
  obtain rfl := hcut k hk
  have hseen : seen = [pausedWorld, hungryWorld 2 99 .PAUSED 2 [earlyTrade]] := by
    have hlength : seen.length = 2 := by rw [← hpoints, htold, List.length_map]
    rw [List.prefix_iff_eq_take, hlength, hheads] at hfirst
    rw [hfirst]
    rfl
  subst hseen
  have hmem : hungryWorld 2 99 .PAUSED 2 [earlyTrade] ∈
      [pausedWorld, hungryWorld 2 99 .PAUSED 2 [earlyTrade]] := by simp
  have hfood : 0 < quantity (hungryWorld 2 99 .PAUSED 2 [earlyTrade]).self.lastUnmetUpkeep .food := by
    decide
  obtain ⟨s, hs, hcontains⟩ := (hshortages.covers 99).mp ⟨_, hmem, rfl, .food, hfood⟩
  refine ⟨l, summary, periods, hrun, hsummary, hperiods, s, hs, hcontains, ?_, ?_, ?_⟩
  · intro hlater
    obtain ⟨w, hw, htick, -⟩ := (hshortages.covers 100).mpr ⟨s, hs, hlater⟩
    rcases List.mem_pair.mp hw with rfl | rfl
    · cases htick
    · cases htick
  · exact (hshortages.resources s hs .food).mpr ⟨_, hmem, hcontains, hfood⟩
  · exact (hshortages.streak s hs 2).mpr ⟨_, hmem, hcontains, ⟨.food, hfood⟩, by decide⟩

end LoggedRunner

end PlanetCharlu
