import PlanetCharlu.ScenarioOrder
import PlanetCharlu.EndOfRun

/-!
# The run log of the guided exercise

In every run the log opens with its one start, has a decision for each call of
`session.send`, right after it the result with which the call came back, and ends with
exactly one `run_ended` when the scenario has returned or an `Exception` has left it. A
result of step 9 is not logged: the script raises there at once. A cancellation is no
`Exception`, and after it the log has no end.
-/

namespace PlanetCharlu

open Runs

/-! ### Records -/

def LogRecord.isStart (x : LogRecord) : Bool :=
  match x.event with
  | .runStarted _ _ _ _ _ _ _ _ _ => true
  | _ => false

/-- A decision or the result of a command. -/
def LogRecord.commandEvent? (x : LogRecord) : Option LogEvent :=
  match x.event with
  | .decision key kind reason requestId sent => some (.decision key kind reason requestId sent)
  | .commandResult key requestId ok code objectId transactionId retryAfterTick =>
      some (.commandResult key requestId ok code objectId transactionId retryAfterTick)
  | _ => none

/-- Neither the start, nor a decision, nor a result, nor the end. -/
def LogRecord.isAside (x : LogRecord) : Prop :=
  x.isStart = false ∧ x.commandEvent? = none ∧ x.isEnd = false

namespace RunLog

/-- The later log has more records, all of them asides. -/
def Asides (log later : RunLog) : Prop :=
  ∃ more, later.records = log.records ++ more ∧ ∀ x ∈ more, x.isAside

variable {log later last : RunLog}

theorem Asides.refl (log : RunLog) : log.Asides log := ⟨[], by simp, by simp⟩

theorem Asides.trans (h : log.Asides later) (h' : later.Asides last) : log.Asides last := by
  obtain ⟨more, hmore, haside⟩ := h
  obtain ⟨more', hmore', haside'⟩ := h'
  refine ⟨more ++ more', ?_, ?_⟩
  · rw [hmore', hmore, List.append_assoc]
  · intro x hx
    rcases List.mem_append.mp hx with hx | hx
    · exact haside x hx
    · exact haside' x hx

theorem asides_write (log : RunLog) (tick : Nat) {event : LogEvent}
    (h : LogRecord.isAside ⟨tick, event⟩) : log.Asides (log.write tick event) := by
  refine ⟨[⟨tick, event⟩], rfl, ?_⟩
  intro x hx
  rwa [List.mem_singleton.mp hx]

theorem asides_offersSnapshot (log : RunLog) (world : WorldView) :
    log.Asides (log.offersSnapshot world) := by
  unfold offersSnapshot
  dsimp only
  split
  · exact .refl log
  · exact asides_write log _ ⟨rfl, rfl, rfl⟩

theorem asides_settleTransaction (log : RunLog) (us : String) (tx : Transaction) :
    log.Asides (RunLog.settleTransaction us log tx) := by
  unfold settleTransaction
  split
  · exact .refl log
  · refine ⟨[settledRecord us tx], rfl, ?_⟩
    intro x hx
    rw [List.mem_singleton.mp hx]
    exact ⟨rfl, rfl, rfl⟩

theorem asides_transactionsSettled (log : RunLog) (world : WorldView) :
    log.Asides (log.transactionsSettled world) := by
  unfold transactionsSettled
  generalize world.transactions = transactions
  induction transactions generalizing log with
  | nil => exact .refl log
  | cons tx rest ih => exact (asides_settleTransaction log _ tx).trans (ih _)

end RunLog

/-- The end that the log should tell of. -/
def ScenarioPc.reason? : ScenarioPc → Option String
  | .returned _ => some "all ten steps completed"
  | .raised e => if e.isException then some ("error: " ++ e.text) else none
  | _ => none

theorem ScenarioPc.underWay {pc : ScenarioPc} (h : pc.isUnderWay = true) :
    pc.reason? = none ∧ pc ≠ .ready := by
  cases pc with
  | sending x c => exact ⟨rfl, nofun⟩
  | waiting wait => exact ⟨rfl, nofun⟩
  | seen wait => exact ⟨rfl, nofun⟩
  | syncing previous => exact ⟨rfl, nofun⟩
  | _ => cases h

/-- With what a call came back. -/
def Session.outcome? (s : Session) (c : CallId) : Option CommandOutcome :=
  match (s.calls c).map Call.stage with
  | some (.returned o) => some o
  | _ => none

def Session.isRefused (s : Session) (c : CallId) : Bool :=
  match (s.calls c).map Call.stage with
  | some (.refused _) => true
  | _ => false

namespace Scenario

section Log

variable {w₀ : WorldView} {S : List WorldView} {s t : Scenario} {e : ScenarioEvent}
  {trace : List ScenarioEvent}

theorem asides_snapshot (s : Scenario) : s.log.Asides s.snapshot.log :=
  ((RunLog.asides_write s.log _ ⟨rfl, rfl, rfl⟩).trans
    (RunLog.asides_transactionsSettled _ _)).trans (RunLog.asides_offersSnapshot _ _)

/-- A log that is still written, with these decisions and results. -/
structure Tells (S : List WorldView) (exchanges : List LogEvent) (log : RunLog) : Prop where
  opening : ∃ w ∈ S, ∃ more, log.records = (RunLog.runStarted {} w "validation").records ++ more ∧
    ∀ x ∈ more, x.isStart = false
  exchanges : log.records.filterMap LogRecord.commandEvent? = exchanges
  live : log.Live

namespace Tells

variable {exchanges : List LogEvent} {log later : RunLog}

/-- More records that neither start nor end the run. -/
theorem append (h : Tells S exchanges log) {more : List LogRecord}
    (hmore : later.records = log.records ++ more)
    (hplain : ∀ x ∈ more, x.isStart = false ∧ x.isEnd = false) :
    Tells S (exchanges ++ more.filterMap LogRecord.commandEvent?) later := by
  obtain ⟨w, hw, front, hfront, hstarts⟩ := h.opening
  refine ⟨⟨w, hw, front ++ more, by rw [hmore, hfront, List.append_assoc], ?_⟩, ?_, ?_⟩
  · intro x hx
    rcases List.mem_append.mp hx with hx | hx
    · exact hstarts x hx
    · exact (hplain x hx).1
  · rw [hmore, List.filterMap_append, h.exchanges]
  · have hlog := h.live
    unfold RunLog.Live at hlog ⊢
    rw [hmore, List.filter_append, hlog, List.nil_append, List.filter_eq_nil_iff]
    intro x hx
    simp [(hplain x hx).2]

theorem asides (h : Tells S exchanges log) (hasides : log.Asides later) :
    Tells S exchanges later := by
  obtain ⟨more, hmore, haside⟩ := hasides
  have htells := h.append hmore fun x hx => ⟨(haside x hx).1, (haside x hx).2.2⟩
  rwa [List.filterMap_eq_nil_iff.mpr fun x hx => (haside x hx).2.1, List.append_nil] at htells

/-- A decision or a result is written. -/
theorem write (h : Tells S exchanges log) (tick : Nat) {event : LogEvent}
    (hexchange : LogRecord.commandEvent? ⟨tick, event⟩ = some event)
    (hplain : LogRecord.isStart ⟨tick, event⟩ = false ∧ LogRecord.isEnd ⟨tick, event⟩ = false) :
    Tells S (exchanges ++ [event]) (log.write tick event) := by
  have htells : Tells S (exchanges ++ [⟨tick, event⟩].filterMap LogRecord.commandEvent?)
      (log.write tick event) := h.append rfl (by simpa using hplain)
  simpa [hexchange] using htells

theorem started {w : WorldView} (hw : w ∈ S) (hempty : log.records = []) :
    Tells S [] (log.runStarted w "validation") := by
  have hrecords : (log.runStarted w "validation").records =
      (RunLog.runStarted {} w "validation").records := by
    simp only [RunLog.runStarted, RunLog.write, hempty]
  refine ⟨⟨w, hw, [], by rw [hrecords, List.append_nil], by simp⟩, ?_, ?_⟩
  · rw [hrecords]
    rfl
  · unfold RunLog.Live
    rw [hrecords]
    rfl

end Tells

/-! ### The calls of the exercise -/

/-- What the log has on a call of `session.send`: the decision, and the result, once it is
back with the scenario. The script has no record of a result of step 9. -/
def told (s : Scenario) (call : ScenarioStep × CallId) : List LogEvent :=
  let (x, c) := call
  .decision x.key x.key x.reason x.requestId (x.message s.runId).fields ::
    if x = .step9 ∨ s.pc = .sending x c then []
    else
      match s.session.outcome? c with
      | some o =>
          [.commandResult x.key o.requestId o.ok o.code o.objectId o.transactionId
            o.retryAfterTick]
      | none => []

/-- These are the calls of `session.send`, in order: what is sent are their commands, but
for one that was refused. -/
structure Calls (s : Scenario) (calls : List (ScenarioStep × CallId)) : Prop where
  all : ∀ c, s.session.calls c ≠ none ↔ c ∈ calls.map Prod.snd
  nodup : (calls.map Prod.snd).Nodup
  ids : ∀ x c, (x, c) ∈ calls →
    ∃ task, s.session.calls c = some task ∧ task.requestId = x.requestId
  sent : s.session.sent.filter ClientMessage.isCommand =
    (calls.filter fun call => !s.session.isRefused call.2).map fun call => call.1.message s.runId
  last : ∀ x c, s.pc = .sending x c → ∃ before, calls = before ++ [(x, c)]

/-- The log of a scenario: empty at first, then telling of the calls, and with its end where
there is one to tell. -/
inductive Recorded (S : List WorldView) (s : Scenario) (calls : List (ScenarioStep × CallId)) :
    Prop where
  | ready (hpc : s.pc = .ready) (hnone : calls = []) (hlog : s.log.records = [])
  | telling (hreason : s.pc.reason? = none) (hpc : s.pc ≠ .ready)
      (htells : Tells S (calls.flatMap s.told) s.log)
  | ended {reason : String} {w : WorldView} {front : RunLog} (hreason : s.pc.reason? = some reason)
      (hw : w ∈ S) (htells : Tells S (calls.flatMap s.told) front)
      (hend : s.log = front.runEnded w reason)

variable {calls : List (ScenarioStep × CallId)} {x : ScenarioStep} {c : CallId}
  {o : CommandOutcome} {session : Session}

/-! ### What an effect does to the calls -/

theorem outcome?_of_stage {u v : Session} (h : (v.calls c).map Call.stage = (u.calls c).map Call.stage) :
    v.outcome? c = u.outcome? c ∧ v.isRefused c = u.isRefused c := by
  unfold Session.outcome? Session.isRefused
  rw [h]
  exact ⟨rfl, rfl⟩

theorem isRefused_of_stage {u : Session} {task : Call} (hcall : u.calls c = some task)
    (h : ∀ error, task.stage ≠ .refused error) : u.isRefused c = false := by
  unfold Session.isRefused
  rw [hcall, Option.map_some]
  split
  · rename_i error hstage
    exact absurd (Option.some.inj hstage) (h error)
  · rfl

/-- From outside no call comes back, and none is refused. -/
theorem outside_keeps {u v : Session} {e' : SessionEvent} (houtside : e'.isOutside = true)
    (hs : u.step e' = some v) (c : CallId) :
    v.outcome? c = u.outcome? c ∧ v.isRefused c = u.isRefused c := by
  rcases Session.evolves_step hs (Session.not_begins_of_outside houtside) c with
    ⟨hnone, hnone'⟩ | ⟨task, -, hcall, -⟩
  · apply outcome?_of_stage
    rw [hnone, hnone']
  · obtain ⟨task', hcall', -, hstage | ⟨hsending, hawaiting⟩⟩ :=
      Session.outside_call houtside hs hcall
    · apply outcome?_of_stage
      rw [hcall, hcall', Option.map_some, Option.map_some, hstage]
    · simp [Session.outcome?, Session.isRefused, hcall, hcall', hsending, hawaiting]

/-- A call's own step leaves the others alone, and does not refuse it. -/
theorem own_keeps {u v : Session} {e' : SessionEvent} {c' : CallId} (hown : e'.isOwn c)
    (hs : u.step e' = some v) :
    (c' ≠ c → v.outcome? c' = u.outcome? c') ∧ v.isRefused c' = u.isRefused c' := by
  have hothers : c' ≠ c → v.calls c' = u.calls c' := by
    intro hne
    cases Session.step_cases hs with
    | sendFails hcall hsending error =>
        obtain rfl : _ = c := hown
        exact Function.update_of_ne hne _ _
    | cancels hcall hopen =>
        obtain rfl : _ = c := hown
        exact Function.update_of_ne hne _ _
    | resumes hcall hexit =>
        obtain rfl : _ = c := hown
        exact Function.update_of_ne hne _ _
    | _ => cases hown
  by_cases hc : c' = c
  · subst hc
    refine ⟨fun hne => absurd rfl hne, ?_⟩
    rcases Session.evolves_step hs (Session.not_begins_of_own hown) c' with
      ⟨hnone, hnone'⟩ | ⟨task, -, hcall, -⟩
    · simp [Session.isRefused, hnone, hnone']
    · obtain ⟨hopen, task', hcall', -, hrefused⟩ := Session.own_call hown hs hcall
      have hbefore : ∀ error, task.stage ≠ .refused error := by
        intro error hstage
        rw [hstage] at hopen
        cases hopen
      rw [isRefused_of_stage hcall hbefore, isRefused_of_stage hcall' hrefused]
  · have hsame := outcome?_of_stage (c := c') (u := u) (v := v) (by rw [hothers hc])
    exact ⟨fun _ => hsame.1, hsame.2⟩

/-- A new call is refused, or its command is sent. -/
theorem ask_result (s : Scenario) (x : ScenarioStep) (c : CallId) :
    ∃ task, (s.ask x c).session.calls c = some task ∧ task.requestId = x.requestId ∧
      ((s.ask x c).session.isRefused c = true ∧ (s.ask x c).session.sent = s.session.sent ∨
        (s.ask x c).session.isRefused c = false ∧
          (s.ask x c).session.sent = s.session.sent ++ [x.message s.runId]) := by
  obtain ⟨task, hcall, hid, hresult⟩ :=
    Session.begin_result s.session c x.requestId (x.message s.runId)
  have hcall' : (s.ask x c).session.calls c = some task := hcall
  refine ⟨task, hcall', hid, ?_⟩
  rcases hresult with ⟨error, hstage, hsent, -⟩ | ⟨hnot, hsent⟩
  · exact .inl ⟨by simp [Session.isRefused, hcall', hstage], hsent⟩
  · exact .inr ⟨isRefused_of_stage hcall' hnot, hsent⟩

theorem ask_others (s : Scenario) (x : ScenarioStep) {c' : CallId} (hne : c' ≠ c) :
    (s.ask x c).session.calls c' = s.session.calls c' := by
  obtain ⟨task, hcalls, -⟩ := Session.begin_calls s.session c x.requestId (x.message s.runId)
  change (s.session.begin c x.requestId (x.message s.runId)).calls c' = _
  rw [hcalls, Function.update_of_ne hne]

namespace Calls

/-- No call begins. -/
theorem keep (h : s.Calls calls) (hevolves : Session.Evolves s.session t.session)
    (hrefused : ∀ c, t.session.isRefused c = s.session.isRefused c)
    (hsent : t.session.sent.filter ClientMessage.isCommand =
      s.session.sent.filter ClientMessage.isCommand)
    (hrunId : t.runId = s.runId)
    (hlast : ∀ x c, t.pc = .sending x c → s.pc = .sending x c) : t.Calls calls := by
  refine ⟨?_, h.nodup, ?_, ?_, fun x c hpc => h.last x c (hlast x c hpc)⟩
  · intro c
    rw [← h.all c]
    rcases hevolves c with ⟨hnone, hnone'⟩ | ⟨task, task', hcall, hcall', -⟩
    · rw [hnone, hnone']
    · simp [hcall, hcall']
  · intro x c hmem
    obtain ⟨task, hcall, hid⟩ := h.ids x c hmem
    rcases hevolves c with ⟨hnone, -⟩ | ⟨task₀, task', hcall₀, hcall', hid', -⟩
    · rw [hcall] at hnone
      cases hnone
    · rw [hcall] at hcall₀
      cases hcall₀
      exact ⟨task', hcall', hid'.trans hid⟩
  · rw [hsent, h.sent, hrunId]
    simp only [hrefused]

theorem not_mem (h : s.Calls calls) (hnew : s.session.calls c = none) {call : ScenarioStep × CallId}
    (hmem : call ∈ calls) : call.2 ≠ c := by
  rintro rfl
  exact (h.all call.2).mpr (List.mem_map_of_mem hmem) hnew

/-- The scenario asks. -/
theorem ask (h : s.Calls calls) (hnew : s.session.calls c = none) (x : ScenarioStep) :
    (s.ask x c).Calls (calls ++ [(x, c)]) := by
  obtain ⟨task, hcall, hid, hresult⟩ := ask_result s x c
  refine ⟨?_, ?_, ?_, ?_, ?_⟩
  · intro c'
    rw [List.map_append, List.mem_append, ← h.all c', List.map_cons, List.map_nil,
      List.mem_singleton]
    by_cases hc : c' = c
    · subst hc
      simp [hcall]
    · simp [ask_others s x hc, hc]
  · rw [List.map_append, List.nodup_append]
    refine ⟨h.nodup, by simp, ?_⟩
    rintro c₁ h₁ c₂ h₂ rfl
    rw [List.map_cons, List.map_nil, List.mem_singleton] at h₂
    subst h₂
    exact (h.all c₁).mpr h₁ hnew
  · intro y c' hmem
    rcases List.mem_append.mp hmem with hmem | hmem
    · rw [ask_others s x (h.not_mem hnew hmem)]
      exact h.ids y c' hmem
    · cases List.mem_singleton.mp hmem
      exact ⟨task, hcall, hid⟩
  · have hbefore : calls.filter (fun call => !(s.ask x c).session.isRefused call.2) =
        calls.filter fun call => !s.session.isRefused call.2 := by
      apply List.filter_congr
      intro call hmem
      have hsame := ask_others s x (h.not_mem hnew hmem)
      rw [(outcome?_of_stage (congrArg (Option.map Call.stage) hsame)).2]
    have hkind : (x.message s.runId).isCommand = true := by cases x <;> rfl
    have hrunId : (s.ask x c).runId = s.runId := rfl
    rw [List.filter_append, hbefore, List.map_append, hrunId, ← h.sent]
    rcases hresult with ⟨hrefused, hsent⟩ | ⟨hplain, hsent⟩
    · rw [hsent]
      simp [hrefused]
    · rw [hsent, List.filter_append]
      simp [hplain, hkind]
  · intro y c' hpc
    cases hpc
    exact ⟨calls, rfl⟩

/-- The call under way is the last one, and no other has its id. -/
theorem before_ne (h : s.Calls calls) (hpc : s.pc = .sending x c) :
    ∃ before, calls = before ++ [(x, c)] ∧ ∀ call ∈ before, call.2 ≠ c := by
  obtain ⟨before, rfl⟩ := h.last x c hpc
  refine ⟨before, rfl, ?_⟩
  rintro call hmem rfl
  have hnodup := h.nodup
  rw [List.map_append, List.nodup_append] at hnodup
  exact hnodup.2.2 call.2 (List.mem_map_of_mem hmem) call.2 (by simp) rfl

end Calls

/-! ### What an effect does to the log -/

theorem told_congr (hrunId : t.runId = s.runId)
    (hpc : x ≠ .step9 → (t.pc = .sending x c ↔ s.pc = .sending x c))
    (houtcome : x ≠ .step9 → s.pc ≠ .sending x c →
      t.session.outcome? c = s.session.outcome? c) : t.told (x, c) = s.told (x, c) := by
  unfold told
  dsimp only
  rw [hrunId]
  by_cases hx : x = .step9
  · rw [if_pos (.inl hx), if_pos (.inl hx)]
  · by_cases hsending : s.pc = .sending x c
    · rw [if_pos (.inr ((hpc hx).mpr hsending)), if_pos (.inr hsending)]
    · have hnot : ¬t.pc = .sending x c := fun h => hsending ((hpc hx).mp h)
      rw [if_neg (not_or.mpr ⟨hx, hnot⟩), if_neg (not_or.mpr ⟨hx, hsending⟩),
        houtcome hx hsending]

/-- The call under way is given up without an outcome, or there is none. -/
theorem told_settled (hrunId : t.runId = s.runId)
    (houtcome : ∀ c, t.session.outcome? c = s.session.outcome? c)
    (hpc : ∀ x c, t.pc ≠ .sending x c)
    (hnone : ∀ x c, s.pc = .sending x c → x ≠ .step9 → s.session.outcome? c = none)
    (call : ScenarioStep × CallId) : t.told call = s.told call := by
  obtain ⟨x, c⟩ := call
  by_cases hsending : s.pc = .sending x c ∧ x ≠ .step9
  · obtain ⟨hsending, hx⟩ := hsending
    unfold told
    dsimp only
    rw [hrunId, if_neg (not_or.mpr ⟨hx, hpc x c⟩), if_pos (.inr hsending), houtcome c,
      hnone x c hsending hx]
  · rw [not_and'] at hsending
    refine told_congr hrunId ?_ fun _ _ => houtcome c
    intro hx
    exact iff_of_false (hpc x c) (hsending hx)

/-- The result of the call under way is noted. -/
theorem told_noted (h : s.Calls calls) (hrunId : t.runId = s.runId)
    (hsession : t.session = s.session) (hpc : ∀ x c, t.pc ≠ .sending x c)
    (hsending : s.pc = .sending x c) (hx : x ≠ .step9) (hback : s.session.outcome? c = some o) :
    calls.flatMap t.told = calls.flatMap s.told ++
      [.commandResult x.key o.requestId o.ok o.code o.objectId o.transactionId
        o.retryAfterTick] := by
  obtain ⟨before, rfl, hne⟩ := h.before_ne hsending
  have hbefore : before.flatMap t.told = before.flatMap s.told := by
    apply List.flatMap_congr
    rintro ⟨y, c'⟩ hmem
    refine told_congr hrunId (fun _ => iff_of_false (hpc y c') ?_) fun _ _ => by rw [hsession]
    intro heq
    rw [hsending] at heq
    cases heq
    exact hne _ hmem rfl
  have hlast : t.told (x, c) = s.told (x, c) ++
      [.commandResult x.key o.requestId o.ok o.code o.objectId o.transactionId
        o.retryAfterTick] := by
    unfold told
    dsimp only
    rw [hrunId, hsession, if_neg (not_or.mpr ⟨hx, hpc x c⟩), if_pos (.inr hsending), hback]
    rfl
  rw [List.flatMap_append, List.flatMap_append, hbefore, List.flatMap_singleton,
    List.flatMap_singleton, hlast, List.append_assoc]

namespace Recorded

/-- The scenario and its log stay where they are. -/
theorem keep (h : Recorded S s calls) (hpc : t.pc = s.pc) (hlog : t.log = s.log)
    (htold : ∀ call ∈ calls, t.told call = s.told call) : Recorded S t calls := by
  have hsame : calls.flatMap t.told = calls.flatMap s.told := List.flatMap_congr htold
  cases h with
  | ready hready hnone hempty => exact .ready (hpc.trans hready) hnone (by rw [hlog, hempty])
  | telling hreason hnot htells =>
      exact .telling (by rw [hpc, hreason]) (by rw [hpc]; exact hnot) (by rw [hsame, hlog]; exact htells)
  | ended hreason hw htells hend =>
      exact .ended (by rw [hpc, hreason]) hw (by rw [hsame]; exact htells) (hlog.trans hend)

theorem tells (h : Recorded S s calls) (hopen : s.pc.isUnderWay = true) :
    Tells S (calls.flatMap s.told) s.log := by
  obtain ⟨hnone, hbegun⟩ := ScenarioPc.underWay hopen
  cases h with
  | ready hpc hempty hlog => exact absurd hpc hbegun
  | telling hreason hpc htells => exact htells
  | ended hreason hw htells hend =>
      rw [hnone] at hreason
      cases hreason

theorem raise_ne_sending (s : Scenario) (error : ScenarioError) (x : ScenarioStep) (c : CallId) :
    (s.raise error).pc ≠ .sending x c := by
  simp [Scenario.raise]

/-- An exception leaves the scenario. -/
theorem raise {exchanges : List LogEvent} (htells : Tells S exchanges s.log)
    (hseen : s.session.world ∈ S) (error : ScenarioError)
    (htold : calls.flatMap (s.raise error).told = exchanges) :
    Recorded S (s.raise error) calls := by
  by_cases hexception : error.isException = true
  · have hlog : (s.raise error).log = s.log.runEnded s.session.world ("error: " ++ error.text) :=
      if_pos hexception
    exact .ended (if_pos hexception) hseen (by rw [htold]; exact htells) hlog
  · have hlog : (s.raise error).log = s.log := if_neg hexception
    refine .telling (if_neg hexception) nofun ?_
    rw [htold, hlog]
    exact htells

/-- The scenario asks: the decision is written. -/
theorem ask (htells : Tells S (calls.flatMap s.told) s.log) (hcalls : s.Calls calls)
    (hnew : s.session.calls c = none) (hpc : ∀ x c, s.pc ≠ .sending x c) (x : ScenarioStep) :
    Recorded S (s.ask x c) (calls ++ [(x, c)]) := by
  refine .telling rfl nofun ?_
  have hbefore : calls.flatMap (s.ask x c).told = calls.flatMap s.told := by
    apply List.flatMap_congr
    rintro ⟨y, c'⟩ hmem
    have hne : c' ≠ c := hcalls.not_mem hnew hmem
    refine told_congr rfl (fun _ => iff_of_false ?_ (hpc y c')) fun _ _ =>
      (outcome?_of_stage (congrArg (Option.map Call.stage) (ask_others s x hne))).1
    intro heq
    cases heq
    exact hne rfl
  have hlast : (s.ask x c).told (x, c) =
      [.decision x.key x.key x.reason x.requestId (x.message s.runId).fields] := by
    unfold told
    dsimp only
    rw [if_pos (.inr rfl)]
    rfl
  rw [List.flatMap_append, hbefore, List.flatMap_singleton, hlast]
  exact htells.write _ rfl ⟨rfl, rfl⟩

/-- The scenario moves on, and leaves no result unnoted. -/
theorem moves (h : Recorded S s calls) (hopen : s.pc.isUnderWay = true) (hrunId : t.runId = s.runId)
    (houtcome : ∀ c, t.session.outcome? c = s.session.outcome? c)
    (hpc : ∀ x c, t.pc ≠ .sending x c)
    (hnone : ∀ x c, s.pc = .sending x c → x ≠ .step9 → s.session.outcome? c = none) :
    Tells S (calls.flatMap t.told) s.log := by
  rw [List.flatMap_congr fun call _ => told_settled hrunId houtcome hpc hnone call]
  exact h.tells hopen

theorem effect (h : Recorded S s calls) (hcalls : s.Calls calls) (hseen : s.session.world ∈ S)
    (heff : Effect e s t) : ∃ calls', t.Calls calls' ∧ Recorded S t calls' := by
  have hquiet : ∀ {t : Scenario}, t.session = s.session → t.runId = s.runId →
      (∀ x c, t.pc ≠ .sending x c) → t.Calls calls := by
    intro t hsession hrunId hpc
    exact hcalls.keep (by rw [hsession]; exact .refl _) (fun c => by rw [hsession])
      (by rw [hsession]) hrunId fun x c hsending => absurd hsending (hpc x c)
  cases heff with
  | @session e' session hevent houtside hs =>
      refine ⟨calls, ?_, ?_⟩
      · exact hcalls.keep (Session.evolves_step hs (Session.not_begins_of_outside houtside))
          (fun c => (outside_keeps houtside hs c).2)
          (by rw [Session.step_sent hs (Session.not_begins_of_outside houtside)]) rfl
          fun _ _ hpc => hpc
      · exact h.keep rfl rfl fun call _ =>
          told_congr rfl (fun _ => Iff.rfl) fun _ _ => (outside_keeps houtside hs call.2).1
  | @task x c e' session hpc hs hown =>
      refine ⟨calls, ?_, ?_⟩
      · exact hcalls.keep (Session.evolves_step hs (Session.not_begins_of_own hown))
          (fun c' => (own_keeps hown hs).2)
          (by rw [Session.step_sent hs (Session.not_begins_of_own hown)]) rfl fun _ _ hpc => hpc
      · refine keep (t := { s with session }) h rfl rfl ?_
        rintro ⟨y, c'⟩ hmem
        refine told_congr rfl (fun _ => Iff.rfl) ?_
        intro _ hother
        refine (own_keeps hown hs).1 ?_
        rintro rfl
        obtain ⟨before, rfl, hne⟩ := hcalls.before_ne hpc
        rcases List.mem_append.mp hmem with hmem | hmem
        · exact hne _ hmem rfl
        · cases List.mem_singleton.mp hmem
          exact hother hpc
  | @start c hpc hnew =>
      cases h with
      | ready _ hnone hlog =>
          subst hnone
          have hstarted : Calls { s with log := s.log.runStarted s.session.world "validation" } [] :=
            ⟨hcalls.all, hcalls.nodup, hcalls.ids, hcalls.sent, hcalls.last⟩
          refine ⟨_, hstarted.ask hnew .step2, ?_⟩
          refine ask (s := { s with log := s.log.runStarted s.session.world "validation" })
            (.started hseen hlog) hstarted hnew ?_ .step2
          intro x c hsending
          rw [hpc] at hsending
          cases hsending
      | telling hreason hnot htells => exact absurd hpc hnot
      | ended hreason hw htells hend =>
          rw [hpc] at hreason
          cases hreason
  | snapshot hopen =>
      obtain ⟨hnone, hbegun⟩ := ScenarioPc.underWay hopen
      refine ⟨calls, ?_, .telling hnone hbegun ?_⟩
      · exact hcalls.keep (.refl _) (fun _ => rfl) rfl rfl fun _ _ hpc => hpc
      · exact (h.tells hopen).asides (asides_snapshot s)
  | @ask x c wait hpc hleads hnew =>
      exact ⟨_, hcalls.ask hnew x, ask (h.tells (by rw [hpc]; rfl)) hcalls hnew (by simp [hpc]) x⟩
  | @accept x c task o wait hpc hcall hstage hok hwait =>
      have hback : s.session.outcome? c = some o := by simp [Session.outcome?, hcall, hstage]
      have hx : x ≠ .step9 := by
        rintro rfl
        cases hwait
      have hquiet' : Calls { s.note x o with pc := .waiting wait } calls :=
        hquiet rfl rfl (by simp)
      have hwrite : Tells S _ (s.note x o).log := (h.tells (by rw [hpc]; rfl)).write _ rfl ⟨rfl, rfl⟩
      refine ⟨calls, hquiet', .telling rfl (by simp) ?_⟩
      rw [told_noted (t := { s.note x o with pc := .waiting wait }) hcalls rfl rfl (by simp) hpc hx
        hback]
      exact hwrite
  | @reject x c task o hpc hcall hstage hx text =>
      have hback : s.session.outcome? c = some o := by simp [Session.outcome?, hcall, hstage]
      have hwrite : Tells S _ (s.note x o).log := (h.tells (by rw [hpc]; rfl)).write _ rfl ⟨rfl, rfl⟩
      refine ⟨calls, hquiet rfl rfl (raise_ne_sending _ _), raise hwrite hseen _ ?_⟩
      exact told_noted hcalls rfl rfl (raise_ne_sending _ _) hpc hx hback
  | @sync c task hpc hcall hfull =>
      have hsyncing : ∀ x c, s.sync.pc ≠ .sending x c := by simp [Scenario.sync]
      refine ⟨calls, ?_, .telling rfl (by simp [Scenario.sync]) ?_⟩
      · refine hcalls.keep (.refl _) (fun _ => rfl) ?_ rfl fun x c hpc => absurd hpc (hsyncing x c)
        simp [Scenario.sync, Codec.buildSync, ClientMessage.isCommand]
      · refine moves (s := s) (t := s.sync) h (by rw [hpc]; rfl) rfl (fun _ => rfl) hsyncing ?_
        intro x c' hsending hx
        rw [hpc] at hsending
        cases hsending
        exact absurd rfl hx
  | raise hopen error hnoted =>
      have hnone : ∀ x c, s.pc = .sending x c → x ≠ .step9 → s.session.outcome? c = none := by
        intro x c hsending hx
        unfold Session.outcome?
        split
        · rename_i o hback
          rw [Option.map_eq_some_iff] at hback
          obtain ⟨task, hcall, hstage⟩ := hback
          exact absurd (hnoted x c task o hsending hcall hstage) hx
        · rfl
      refine ⟨calls, hquiet rfl rfl (raise_ne_sending _ _), raise ?_ hseen error rfl⟩
      exact moves (s := s) (t := s.raise error) h hopen rfl (fun _ => rfl)
        (raise_ne_sending _ _) hnone
  | @sees wait hpc hholds =>
      refine ⟨calls, hquiet rfl rfl (by simp), .telling rfl (by simp) ?_⟩
      exact moves (s := s) (t := { s with pc := .seen wait }) h (by rw [hpc]; rfl) rfl
        (fun _ => rfl) (by simp) (by simp [hpc])
  | @synced previousSequence hpc =>
      refine ⟨calls, hquiet rfl rfl (by simp), .telling rfl (by simp) ?_⟩
      exact moves (s := s) (t := { s with pc := .waiting (.synced previousSequence) }) h
        (by rw [hpc]; rfl) rfl (fun _ => rfl) (by simp) (by simp [hpc])
  | @finish previousSequence hpc =>
      refine ⟨calls, hquiet rfl rfl (by simp), .ended rfl hseen ?_ rfl⟩
      exact moves (s := s)
        (t := { s with
          log := s.log.runEnded s.session.world "all ten steps completed"
          pc := .returned s.session.world })
        h (by rw [hpc]; rfl) rfl (fun _ => rfl) (by simp) (by simp [hpc])

/-- There is exactly one end, and it is last, where the scenario has one to tell. -/
theorem endRecorded_iff (h : Recorded S s calls) :
    s.log.EndRecorded ↔ ∃ reason, s.pc.reason? = some reason := by
  have hlive : s.log.Live → ¬s.log.EndRecorded := fun hlive hend => hend.not_live hlive
  cases h with
  | ready hpc hnone hlog =>
      have hreason : s.pc.reason? = none := by rw [hpc]; rfl
      have hempty : s.log.Live := by
        unfold RunLog.Live
        rw [hlog]
        rfl
      simp [hreason, hlive hempty]
  | telling hreason hpc htells => simp [hreason, hlive htells.live]
  | @ended reason w front hreason hw htells hend =>
      constructor
      · intro _
        exact ⟨reason, hreason⟩
      · intro _
        rw [hend]
        exact htells.live.runEnded w reason

end Recorded

/-- **The log tells the exercise**: in every run it starts once, has a decision for every
call of `session.send` and right after it the result with which that call came back, and it
is ended exactly when the scenario has returned or an `Exception` has left it. -/
theorem log_tells_the_exercise (hrun : Run Step (start w₀) trace s) :
    ∃ calls, s.Calls calls ∧ Recorded (w₀ :: snapshots trace) s calls ∧
      (s.log.EndRecorded ↔ ∃ reason, s.pc.reason? = some reason) := by
  have hboth : s.Follows (w₀ :: snapshots trace) w₀ ∧
      ∃ calls, s.Calls calls ∧ Recorded (w₀ :: snapshots trace) s calls := by
    refine run_invariant (P := fun s => s.Follows (w₀ :: snapshots trace) w₀ ∧
      ∃ calls, s.Calls calls ∧ Recorded (w₀ :: snapshots trace) s calls) hrun ?_ ?_
    · have hcalls : (start w₀).Calls [] :=
        ⟨by simp [start, Session.start], by simp, by simp, rfl, nofun⟩
      exact ⟨follows_start w₀ _, [], hcalls, .ready rfl rfl rfl⟩
    · rintro e s t he ⟨hfollows, calls, hcalls, hrecorded⟩ heff
      have hseen : ∀ w, e.snapshot? = some w → w ∈ w₀ :: snapshots trace := fun w hw =>
        List.mem_cons_of_mem w₀ (mem_snapshots he hw)
      exact ⟨hfollows.effect hseen heff, hrecorded.effect hcalls hfollows.seen heff⟩
  obtain ⟨calls, hcalls, hrecorded⟩ := hboth.2
  exact ⟨calls, hcalls, hrecorded, hrecorded.endRecorded_iff⟩

theorem log_tells_the_exercise_sample :
    ∃ s w, Run Step (start sampleWorld) sampleTrace s ∧ s.pc = .returned w ∧
      ∃ calls, s.Calls calls ∧ Recorded (sampleWorld :: snapshots sampleTrace) s calls ∧
        (s.log.EndRecorded ↔ ∃ reason, s.pc.reason? = some reason) := by
  obtain ⟨s, w, hrun, hpc, -⟩ := run_sampleTrace
  exact ⟨s, w, hrun, hpc, log_tells_the_exercise hrun⟩

end Log

end Scenario

end PlanetCharlu
