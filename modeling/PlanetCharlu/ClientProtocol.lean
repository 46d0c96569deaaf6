import PlanetCharlu.Client

/-!
# What a client keeps to (`main.py`, `session.py`)

`Protocol` is the order of what a client does, as the other side and its own resources see
it: one connection, readiness for the state that came first, no message before that was
confirmed, only messages of that run after it, the pump stopped before the socket is
closed, and the summary last. Every behaviour of `_run_client` keeps to it, wherever it is
cut off and whatever is raised, and one that has ended has given everything back.
-/

namespace PlanetCharlu

open Runs Computations

/-! ### The guided exercise off a socket -/

namespace Scenario

variable {runtime : Protobuf} {w₀ : WorldView} {trace : List ScenarioEvent} {e : ScenarioEvent}
  {s t : Scenario}

/-- Clean, and not ended by an error of the client itself. -/
structure Clean (s : Scenario) : Prop where
  session : s.session.Clean
  raised : ∀ e, s.pc = .raised e → e.toClient.isOwn = false

namespace Clean

theorem raise (h : s.session.Clean) {error : ScenarioError}
    (herror : error.toClient.isOwn = false) : (s.raise error).Clean := by
  refine ⟨h, ?_⟩
  intro e he
  cases he
  exact herror

theorem sync (h : s.session.Clean) : s.sync.Clean :=
  ⟨⟨h.world, h.pump, h.calls⟩, by simp [Scenario.sync]⟩

theorem sendRaises (h : s.session.Clean) (x : ScenarioStep) {error : SessionError}
    (herror : error.isConversion = false) : (s.sendRaises x error).Clean := by
  unfold Scenario.sendRaises
  split
  · split_ifs
    · exact sync h
    · exact raise h rfl
  · exact raise h herror

theorem ask (h : s.session.Clean) (x : ScenarioStep) (c : CallId) : (s.ask x c).Clean :=
  ⟨h.begin _ _, by simp [Scenario.ask]⟩

theorem send (h : s.session.Clean) (x : ScenarioStep) (c : CallId) : (s.send x c).Clean := by
  have hask := ask h x c
  unfold Scenario.send
  dsimp only
  split
  · rename_i error hrefused
    obtain ⟨call, hcall, hstage⟩ := Option.map_eq_some_iff.mp hrefused
    apply sendRaises hask.session
    have hclean := (hask.session.calls c call hcall).2
    rwa [hstage] at hclean
  · exact hask

theorem answer (h : s.session.Clean) (x : ScenarioStep) (o : CommandOutcome) :
    (s.answer x o).Clean := by
  have hrejected : ∀ {s : Scenario} (text : String), s.session.Clean →
      (s.raise (.scenario text)).Clean := fun text h => raise h rfl
  unfold Scenario.answer
  by_cases hx : x = .step9
  · rw [if_pos hx]
    exact hrejected _ h
  · rw [if_neg hx]
    dsimp only
    by_cases hok : o.ok = false
    · rw [if_pos hok]
      exact hrejected _ h
    · rw [if_neg hok]
      split
      · exact ⟨h, by simp⟩
      · exact hrejected _ h
      · exact ⟨h, by simp⟩
      · exact hrejected _ h
      · exact ⟨h, by simp⟩
      · exact ⟨h, by simp⟩
      · exact ⟨h, by simp⟩
      · exact absurd rfl hx

theorem leave (h : s.Clean) (x : ScenarioStep) {stage : Stage}
    (hstage : stage.isConversion = false) : (s.leave x stage).Clean := by
  unfold Scenario.leave
  split
  · exact answer h.session x _
  · exact sendRaises h.session x hstage
  · exact h

theorem proceed (h : s.session.Clean) (wait : ScenarioWait) (c : CallId) :
    (s.proceed wait c).Clean := by
  have hsnapshot : s.snapshot.session.Clean := h
  unfold Scenario.proceed
  split
  · exact send hsnapshot _ c
  · exact send hsnapshot _ c
  · split
    · exact raise h rfl
    · exact send hsnapshot _ c
  · exact send hsnapshot _ c
  · exact send hsnapshot _ c
  · exact ⟨h, by simp⟩

theorem step (h : s.Clean) (hsocket : e.OffSocket runtime) (hstep : s.step e = some t) :
    t.Clean := by
  cases e with
  | session e' =>
      simp only [Scenario.step, Option.ite_none_right_eq_some, Option.map_eq_some_iff] at hstep
      obtain ⟨-, session, hs, rfl⟩ := hstep
      exact ⟨h.session.step hsocket hs, h.raised⟩
  | runs c =>
      simp only [Scenario.step] at hstep
      split at hstep
      · rw [Option.ite_none_right_eq_some] at hstep
        obtain ⟨-, hstep⟩ := hstep
        cases hstep
        exact send (s := { s with log := s.log.runStarted s.session.world "validation" }) h.session
          .step2 c
      · rename_i x call hpc
        rw [Option.bind_eq_some_iff] at hstep
        obtain ⟨task, hcall, hstep⟩ := hstep
        rw [Option.map_eq_some_iff] at hstep
        obtain ⟨stage, hexit, rfl⟩ := hstep
        have hfuture := (h.session.calls call task hcall).1
        have hstage := Session.Clean.exit hfuture hexit
        have hfinished : Clean { s with session := s.session.finish call task stage } := by
          refine ⟨h.session.finish hfuture hstage, ?_⟩
          intro e he
          exact h.raised e he
        exact hfinished.leave x hstage
      · rw [Option.ite_none_right_eq_some] at hstep
        obtain ⟨-, hstep⟩ := hstep
        cases hstep
        exact proceed h.session _ c
      · cases hstep
  | checks =>
      simp only [Scenario.step] at hstep
      split at hstep
      · split at hstep
        · cases hstep
          exact ⟨h.session, by simp⟩
        · rw [Option.map_eq_some_iff] at hstep
          obtain ⟨error, herror, rfl⟩ := hstep
          exact raise h.session (h.session.pump error herror)
      · cases hstep
  | synced =>
      simp only [Scenario.step] at hstep
      split at hstep
      · cases hstep
        exact ⟨h.session, by simp⟩
      · cases hstep
  | sendFails error =>
      simp only [Scenario.step] at hstep
      split at hstep
      · rename_i x call hpc
        rw [Option.map_eq_some_iff] at hstep
        obtain ⟨session, hs, rfl⟩ := hstep
        have hfails : SessionEvent.OffSocket runtime (.sendFails call error) := hsocket
        exact sendRaises (s := { s with session }) (h.session.step hfails hs) _ hsocket
      · cases hstep
        exact raise h.session hsocket
      · cases hstep
  | expires =>
      simp only [Scenario.step] at hstep
      split at hstep
      · cases hstep
        exact raise h.session rfl
      · cases hstep
  | cancels =>
      simp only [Scenario.step] at hstep
      split at hstep
      · rename_i x call hpc
        rw [Option.map_eq_some_iff] at hstep
        obtain ⟨session, hs, rfl⟩ := hstep
        have hcancels : SessionEvent.OffSocket runtime (.cancels call) := trivial
        exact ⟨h.session.step hcancels hs, h.raised⟩
      · cases hstep
        exact raise h.session rfl
      · cases hstep
        exact raise h.session rfl
      · cases hstep

end Clean

theorem run_clean {m : Wire.State} (hreceived : m.Received)
    (hw : WorldView.fromState m = .ok w₀) (hrun : Run Step (start w₀) trace s)
    (hsocket : ∀ e ∈ trace, e.OffSocket runtime) : s.Clean := by
  obtain ⟨w, hok, hbounded⟩ := WorldView.fromState_received hreceived
  rw [hok] at hw
  cases hw
  apply hrun.invariant hsocket
  · refine ⟨⟨hbounded, ?_, ?_⟩, ?_⟩
    · intro e he
      cases he
    · intro c call hcall
      cases hcall
    · intro e he
      cases he
  · intro s e t h he hstep
    exact h.step he hstep

/-- What the exercise sends is for the run of its first snapshot. -/
theorem run_sameRun (hrun : Run Step (start w₀) trace s) {m : ClientMessage}
    (hm : m ∈ s.session.sent) : m.runId = w₀.runId := by
  have hfollows := run_follows hrun
  have hmessages : ∀ steps, m ∈ s.messages steps → m.runId = w₀.runId := by
    intro steps hm
    obtain ⟨x, -, rfl⟩ := List.mem_map.mp hm
    rw [← hfollows.runId]
    cases x <;> rfl
  have hsync : ∀ steps, m ∈ s.messages steps ++ [.sync s.runId] → m.runId = w₀.runId := by
    intro steps hm
    rw [List.mem_append, List.mem_singleton] at hm
    rcases hm with hm | rfl
    · exact hmessages steps hm
    · exact hfollows.runId
  rcases hfollows.stands.begun with ⟨-, hsent⟩ | ⟨done, x, -, -, hsent | hsent | ⟨-, hsent | hsent⟩⟩
  · rw [hsent] at hm
    cases hm
  · rw [hsent] at hm
    exact hmessages _ hm
  · rw [hsent] at hm
    exact hmessages _ hm
  · rw [hsent] at hm
    exact hsync _ hm
  · rw [hsent] at hm
    exact hsync _ hm

end Scenario

namespace Runner

/-- So is what the loop sends. -/
theorem run_sameRun {runtime : Protobuf} {policy : Strategy} {w₀ : WorldView}
    {trace : List RunnerEvent} {r : Runner} {first : Wire.State} (hreceived : first.Received) (hw : WorldView.fromState first = .ok w₀)
    (hrun : Run (Step policy) (start w₀) trace r) (hsocket : ∀ e ∈ trace, e.OffSocket runtime)
    {m : ClientMessage} (hm : m ∈ r.session.sent) : m.runId = w₀.runId := by
  have hconveys := run_conveys hrun (List.Subset.refl _) (bounded_snapshots hreceived hw hsocket)
  obtain ⟨c, hc, hcases⟩ := sent_cases hrun hm
  have hrunId : c.2.message.runId = w₀.runId :=
    ((run_syncsFollow hrun).sameRun c hc).trans hconveys.sameRun
  rcases hcases with rfl | rfl
  · exact hrunId
  · exact hrunId

end Runner

/-! ### The protocol -/

namespace Client

open Computation

/-- How the client stands with the other side. -/
inductive Line where
  | offline
  /-- Connected, and nothing has come. -/
  | opened
  | greeted (first : Wire.State)
  /-- Readiness is declared. -/
  | declared (first : Wire.State)
  | confirmed (first : Wire.State)
  | pumping (runId : String)
  | stopped
  /-- The other side broke the protocol. -/
  | refused
  | closed

/-- The socket is open, and the pump does not run. -/
def Line.isClosable : Line → Bool
  | .offline => false
  | .pumping _ => false
  | .closed => false
  | _ => true

/-- There is no socket to close. -/
def Line.isDown : Line → Bool
  | .offline => true
  | .closed => true
  | _ => false

inductive LogFile where
  | unopened
  | opened
  | closed
  | summarized
deriving DecidableEq

structure Standing where
  line : Line := .offline
  log : LogFile := .unopened

/-- A readiness message that confirms what was declared. -/
def Confirms (first : Wire.State) (readiness : Wire.Readiness) : Prop :=
  readiness.ready = true ∧ readiness.runId = first.runId ∧
    readiness.snapshotSequence = first.snapshotSequence

instance (first : Wire.State) (readiness : Wire.Readiness) :
    Decidable (Confirms first readiness) :=
  inferInstanceAs (Decidable (_ ∧ _ ∧ _))

/-- The messages that may follow the declaration: commands and `sync`, for one run. -/
def Belongs (runId : String) (m : Wire.ClientMessage) : Prop :=
  m.runId? = some runId ∧ ∀ ready, m ≠ .ready ready

inductive Protocol : Standing → Action → Standing → Prop where
  | opensLog : Protocol ⟨.offline, .unopened⟩ .opensLog ⟨.offline, .opened⟩
  | connects {log : LogFile} :
      Protocol ⟨.offline, log⟩ (.connects (some REQUIRED_SUBPROTOCOL)) ⟨.opened, log⟩
  | misconnects {log : LogFile} {subprotocol : Option String}
      (h : subprotocol ≠ some REQUIRED_SUBPROTOCOL) :
      Protocol ⟨.offline, log⟩ (.connects subprotocol) ⟨.refused, log⟩
  | greets {log : LogFile} {first : Wire.State} :
      Protocol ⟨.opened, log⟩ (.receives (.state first)) ⟨.greeted first, log⟩
  | surprises {log : LogFile} {m : Wire.ServerMessage} (h : ∀ first, m ≠ .state first) :
      Protocol ⟨.opened, log⟩ (.receives m) ⟨.refused, log⟩
  | declares {log : LogFile} {first : Wire.State} :
      Protocol ⟨.greeted first, log⟩
        (.sends (Codec.buildReady first.runId true first.snapshotSequence)) ⟨.declared first, log⟩
  | confirms {log : LogFile} {first : Wire.State} {readiness : Wire.Readiness}
      (h : Confirms first readiness) :
      Protocol ⟨.declared first, log⟩ (.receives (.readiness readiness)) ⟨.confirmed first, log⟩
  | denies {log : LogFile} {first : Wire.State} {m : Wire.ServerMessage}
      (h : ∀ readiness, m = .readiness readiness → ¬Confirms first readiness) :
      Protocol ⟨.declared first, log⟩ (.receives m) ⟨.refused, log⟩
  | startsPump {log : LogFile} {first : Wire.State} :
      Protocol ⟨.confirmed first, log⟩ .startsPump ⟨.pumping first.runId, log⟩
  | sends {log : LogFile} {runId : String} {m : Wire.ClientMessage} (h : Belongs runId m) :
      Protocol ⟨.pumping runId, log⟩ (.sends m) ⟨.pumping runId, log⟩
  | stopsPump {log : LogFile} {runId : String} :
      Protocol ⟨.pumping runId, log⟩ .stopsPump ⟨.stopped, log⟩
  | closesSocket {log : LogFile} {line : Line} (h : line.isClosable = true) :
      Protocol ⟨line, log⟩ .closesSocket ⟨.closed, log⟩
  | closesLog {line : Line} (h : line.isDown = true) :
      Protocol ⟨line, .opened⟩ .closesLog ⟨line, .closed⟩
  | writesSummary {line : Line} (h : line.isDown = true) :
      Protocol ⟨line, .closed⟩ .writesSummary ⟨line, .summarized⟩

/-- Nothing is left open, and the summary of a log is written. -/
def Standing.IsReleased (s : Standing) : Prop :=
  s.line.isDown = true ∧ (s.log = .unopened ∨ s.log = .summarized)

/-! ### The functions, one by one -/

section Functions

variable {runtime : Protobuf} {log : LogFile} {config : ClientConfig} {mode : Mode}
  {world : WorldView} {first : Wire.State}

/-- No error of a decision or a conversion, and no missed deadline of the trading loop. -/
def Foreign (mode : Mode) (e : ClientError) : Prop :=
  e.isOwn = false ∧ (e = .timeout → mode = .validation)

theorem AwaitFails.foreign {e : ClientError} (h : AwaitFails e) : Foreign mode e := by
  cases h with
  | transport => exact ⟨rfl, nofun⟩
  | cancelled => exact ⟨rfl, nofun⟩

theorem ConnectFails.foreign {e : ClientError} (h : ConnectFails e) : Foreign mode e := by
  cases h with
  | await he => exact he.foreign
  | _ => exact ⟨rfl, nofun⟩

theorem NextFails.foreign {e : ClientError} (h : NextFails runtime e) : Foreign mode e := by
  cases h with
  | @unreadable frame error hread =>
      cases frame with
      | text content =>
          cases hread
          exact ⟨rfl, nofun⟩
      | binary data textual =>
          unfold Frame.read at hread
          dsimp only at hread
          split at hread
          · cases hread
            exact ⟨rfl, nofun⟩
          · cases hread
  | exhausted => exact ⟨rfl, nofun⟩
  | await he => exact he.foreign

/-- While a block runs, the log stays as it is. -/
def Keeps (log : LogFile) (s : Standing) : Prop := s.log = log

/-- A block has raised where the socket can be closed. -/
def Failed (mode : Mode) (log : LogFile) (e : ClientError) (s : Standing) : Prop :=
  s.line.isClosable = true ∧ s.log = log ∧ Foreign mode e

/-- A block has raised, and there is no socket left. -/
def Dropped (mode : Mode) (log : LogFile) (e : ClientError) (s : Standing) : Prop :=
  s.line.isDown = true ∧ s.log = log ∧ Foreign mode e

theorem close_spec {P : Standing → Prop} (hP : ∀ s, P s → s.line.isClosable = true ∧ s.log = log) :
    Triple Protocol P close (Keeps log) (fun _ s => s = ⟨.closed, log⟩) (Dropped mode log) := by
  apply Triple.performs
  · intro s hs
    exact (hP s hs).2
  · rintro ⟨line, log'⟩ hs
    obtain ⟨hclosable, rfl⟩ := hP _ hs
    exact ⟨⟨.closed, log'⟩, .closesSocket hclosable, rfl, rfl, fun e he => ⟨rfl, rfl, he.foreign⟩⟩

theorem connect_spec :
    Triple Protocol (· = ⟨.offline, log⟩) connect (Keeps log) (fun _ s => s = ⟨.opened, log⟩)
      (Dropped mode log) := by
  unfold connect
  apply Triple.bind (Q := fun subprotocol s =>
    s = ⟨if subprotocol = some REQUIRED_SUBPROTOCOL then .opened else .refused, log⟩)
  · apply Triple.attempts
    · rintro s rfl
      rfl
    · rintro e s he rfl
      exact ⟨rfl, rfl, he.foreign⟩
    · rintro subprotocol s - rfl
      by_cases hsub : subprotocol = some REQUIRED_SUBPROTOCOL
      · rw [if_pos hsub, hsub]
        exact ⟨_, .connects, rfl, rfl⟩
      · rw [if_neg hsub]
        exact ⟨_, .misconnects hsub, rfl, rfl⟩
  · intro subprotocol
    by_cases hsub : subprotocol = some REQUIRED_SUBPROTOCOL
    · rw [if_pos hsub, if_pos hsub]
      apply Triple.pure
      · rintro s rfl
        rfl
      · exact fun _ hs => hs
    · rw [if_neg hsub, if_neg hsub]
      apply Triple.bind
      · apply close_spec
        rintro s rfl
        exact ⟨rfl, rfl⟩
      · rintro -
        apply Triple.raises
        · rintro s rfl
          rfl
        · rintro s rfl
          exact ⟨rfl, rfl, rfl, nofun⟩

variable (runtime) in
/-- What `anext` reads is decoded. -/
def Decoded (m : Wire.ServerMessage) : Prop := ∃ frame : Frame runtime, frame.read = .ok m

theorem Decoded.received (h : Decoded runtime (.state first)) : first.Received := by
  obtain ⟨frame, hframe⟩ := h
  have hevent : frame.event = .arrives (.state first) := by
    rw [Frame.event, hframe]
    rfl
  exact Frame.received hevent

theorem anext_spec {line : Line} {next : Wire.ServerMessage → Line}
    (hclosable : line.isClosable = true)
    (hnext : ∀ m, Protocol ⟨line, log⟩ (.receives m) ⟨next m, log⟩) :
    Triple Protocol (· = ⟨line, log⟩) (anext runtime) (Keeps log)
      (fun m s => s = ⟨next m, log⟩ ∧ Decoded runtime m) (Failed mode log) := by
  apply Triple.attempts
  · rintro s rfl
    rfl
  · rintro e s he rfl
    exact ⟨hclosable, rfl, he.foreign⟩
  · rintro m s hm rfl
    exact ⟨_, hnext m, rfl, rfl, hm⟩

/-- Where the first message leads. -/
def Line.afterFirst : Wire.ServerMessage → Line
  | .state first => .greeted first
  | _ => .refused

/-- Where the message after the declaration leads. -/
def Line.afterSecond (first : Wire.State) : Wire.ServerMessage → Line
  | .readiness readiness => if Confirms first readiness then .confirmed first else .refused
  | _ => .refused

theorem receives_first (m : Wire.ServerMessage) :
    Protocol ⟨.opened, log⟩ (.receives m) ⟨.afterFirst m, log⟩ := by
  cases m with
  | state first => exact .greets
  | _ => exact .surprises (by simp)

theorem receives_second (first : Wire.State) (m : Wire.ServerMessage) :
    Protocol ⟨.declared first, log⟩ (.receives m) ⟨.afterSecond first m, log⟩ := by
  cases m with
  | readiness readiness =>
      by_cases h : Confirms first readiness
      · rw [Line.afterSecond, if_pos h]
        exact .confirms h
      · rw [Line.afterSecond, if_neg h]
        refine .denies ?_
        intro readiness' hsame
        cases hsame
        exact h
  | _ => exact .denies (by simp)

/-- The other side broke the protocol. -/
theorem refused_spec {α : Type} {P : Standing → Prop} {Q : α → Standing → Prop} {e : HandshakeError}
    (hP : ∀ s, P s → s = ⟨.refused, log⟩) :
    Triple Protocol P (Computation.raises (.handshake e)) (Keeps log) Q (Failed mode log) := by
  apply Triple.raises
  · intro s hs
    rw [hP s hs]
    rfl
  · intro s hs
    rw [hP s hs]
    exact ⟨rfl, rfl, rfl, nofun⟩

/-- The state that is returned has been confirmed. -/
def Agreed (log : LogFile) (first : Wire.State) (s : Standing) : Prop :=
  s = ⟨.confirmed first, log⟩ ∧ first.Received

theorem confirmation_spec {m : Wire.ServerMessage} (hreceived : first.Received) :
    Triple Protocol (fun s => s = ⟨.afterSecond first m, log⟩)
      (match m with
        | .readiness readiness =>
            if readiness.ready = false ∨ readiness.runId ≠ first.runId ∨
                readiness.snapshotSequence ≠ first.snapshotSequence then
              Computation.raises (.handshake (.mismatch readiness))
            else pure first
        | other => Computation.raises (.handshake (.expectedReadiness other.whichOneof)))
      (Keeps log) (Agreed log) (Failed mode log) := by
  cases m with
  | readiness readiness =>
      dsimp only [Line.afterSecond]
      by_cases hconfirms : Confirms first readiness
      · have hmatch : ¬(readiness.ready = false ∨ readiness.runId ≠ first.runId ∨
            readiness.snapshotSequence ≠ first.snapshotSequence) := by
          obtain ⟨hready, hrun, hsequence⟩ := hconfirms
          simp [hready, hrun, hsequence]
        rw [if_pos hconfirms, if_neg hmatch]
        apply Triple.pure
        · rintro s rfl
          rfl
        · rintro s rfl
          exact ⟨rfl, hreceived⟩
      · have hmismatch : readiness.ready = false ∨ readiness.runId ≠ first.runId ∨
            readiness.snapshotSequence ≠ first.snapshotSequence := by
          by_contra hmatch
          simp only [not_or, Bool.not_eq_false, not_not] at hmatch
          exact hconfirms hmatch
        rw [if_neg hconfirms, if_pos hmismatch]
        exact refused_spec fun s hs => hs
  | _ => exact refused_spec fun s hs => hs

theorem performReadinessHandshake_spec :
    Triple Protocol (· = ⟨.opened, log⟩) (performReadinessHandshake runtime) (Keeps log)
      (Agreed log) (Failed mode log) := by
  unfold performReadinessHandshake
  apply Triple.bind (anext_spec rfl receives_first)
  intro m
  cases m with
  | state first =>
      apply Triple.of_forall
      rintro s ⟨rfl, hdecoded⟩
      apply Triple.bind (Q := fun _ s => s = ⟨.declared first, log⟩)
      · apply Triple.performs
        · rintro s rfl
          rfl
        · rintro s rfl
          exact ⟨_, .declares, rfl, rfl, fun e he => ⟨rfl, rfl, he.foreign⟩⟩
      · rintro -
        apply Triple.bind (anext_spec rfl (receives_second first))
        intro m
        apply (confirmation_spec hdecoded.received).pre
        exact fun s hs => hs.1
  | _ => exact refused_spec fun s hs => hs.1

/-- The pump runs for a snapshot that was decoded. -/
def Underway (log : LogFile) (world : WorldView) (s : Standing) : Prop :=
  s = ⟨.pumping world.runId, log⟩ ∧
    ∃ first : Wire.State, first.Received ∧ WorldView.fromState first = .ok world

theorem openSession_spec :
    Triple Protocol (· = ⟨.opened, log⟩) (openSession runtime) (Keeps log) (Underway log)
      (Failed mode log) := by
  unfold openSession
  apply Triple.bind performReadinessHandshake_spec
  intro first
  apply Triple.of_forall
  rintro s ⟨rfl, hreceived⟩
  obtain ⟨world, hworld, -⟩ := WorldView.fromState_received hreceived
  have hrunId : world.runId = first.runId := (WorldView.fromState_eq_ok hworld).1
  rw [hworld]
  apply Triple.bind (Q := fun _ s => s = ⟨.pumping first.runId, log⟩)
  · apply Triple.performs
    · rintro s rfl
      rfl
    · rintro s rfl
      exact ⟨_, .startsPump, rfl, rfl, nofun⟩
  · rintro -
    apply Triple.pure
    · rintro s rfl
      rfl
    · rintro s rfl
      exact ⟨by rw [hrunId], first, hreceived, hworld⟩

/-! ### The body -/

/-- The pump still runs. -/
def Pumps (log : LogFile) (world : WorldView) (s : Standing) : Prop :=
  s = ⟨.pumping world.runId, log⟩

/-- The body of the session has raised. -/
def Halted (mode : Mode) (log : LogFile) (world : WorldView) (e : ClientError) (s : Standing) :
    Prop :=
  s = ⟨.pumping world.runId, log⟩ ∧ Foreign mode e

theorem run_sends {runId : String} {messages : List ClientMessage}
    (h : ∀ m ∈ messages, m.runId = runId) :
    Run Protocol ⟨.pumping runId, log⟩ (messages.map fun m => .sends m.toWire)
      ⟨.pumping runId, log⟩ := by
  induction messages using List.reverseRecOn with
  | nil => exact .start
  | append_singleton messages m ih =>
      rw [List.map_append]
      refine .next (ih fun m' hm' => h m' (List.mem_append_left _ hm')) (.sends ⟨?_, ?_⟩)
      · rw [ClientMessage.runId?_toWire, h m (List.mem_append_right _ List.mem_cons_self)]
      · intro ready hready
        cases m <;> cases hready

theorem Trading.spec {policy : Strategy} :
    Triple Protocol (Underway log world) (Trading runtime policy world)
      (Pumps log world) (fun _ => Pumps log world) (Halted .trade log world) := by
  rintro s t o ⟨rfl, first, hreceived, hworld⟩ ⟨hrun, hsocket⟩
  rename_i trace r
  refine ⟨_, run_sends fun m hm => Runner.run_sameRun hreceived hworld hrun hsocket hm, ?_⟩
  have hclean := Runner.run_clean hreceived hworld hrun hsocket
  rcases hpc : r.pc with _ | _ | _ | _ | _ | e
  case raised =>
    have hraised := hclean.raised e hpc
    refine ⟨rfl, ?_⟩
    cases e with
    | strategy => cases hraised
    | session => exact ⟨hraised, nofun⟩
    | runtimeError => exact ⟨rfl, nofun⟩
  all_goals rfl

theorem Exercising.spec :
    Triple Protocol (Underway log world) (Exercising runtime world)
      (Pumps log world) (fun _ => Pumps log world) (Halted .validation log world) := by
  rintro s t o ⟨rfl, first, hreceived, hworld⟩ ⟨hrun, hsocket⟩
  rename_i trace s
  refine ⟨_, run_sends fun m hm => Scenario.run_sameRun hrun hm, ?_⟩
  have hclean := Scenario.run_clean hreceived hworld hrun hsocket
  rcases hpc : s.pc with _ | _ | _ | _ | _ | _ | e
  case raised => exact ⟨rfl, hclean.raised e hpc, fun _ => rfl⟩
  all_goals rfl

theorem body_spec :
    Triple Protocol (Underway log world) (body runtime config world) (Pumps log world)
      (fun _ => Pumps log world) (Halted config.mode log world) := by
  unfold body
  cases config.mode with
  | validation => exact Exercising.spec
  | trade =>
      apply Trading.spec.interruptible
      intro s hs
      exact ⟨hs, rfl, nofun⟩

/-! ### From start to end -/

theorem stopPump_spec {P : Standing → Prop} (hP : ∀ s, P s → Pumps log world s) :
    Triple Protocol P stopPump (Keeps log) (fun _ s => s = ⟨.stopped, log⟩) (Failed mode log) := by
  apply Triple.performs
  · intro s hs
    rw [hP s hs]
    rfl
  · intro s hs
    rw [hP s hs]
    exact ⟨_, .stopsPump, rfl, rfl, nofun⟩

theorem session_spec :
    Triple Protocol (· = ⟨.opened, log⟩)
      (do
        let world ← openSession runtime
        tryFinally (body runtime config world) stopPump)
      (Keeps log) (fun _ s => s = ⟨.stopped, log⟩) (Failed config.mode log) := by
  apply Triple.bind openSession_spec
  intro world
  have hbody : Triple Protocol (Underway log world) (body runtime config world) (Keeps log)
      (fun _ => Pumps log world) (Halted config.mode log world) := by
    apply body_spec.consequence
    · exact fun _ hs => hs
    · rintro s rfl
      rfl
    · exact fun _ _ hs => hs
    · exact fun _ _ hs => hs
  apply hbody.tryFinally
  · intro w
    exact stopPump_spec fun s hs => hs
  · -- The clause raises nothing, and what the body raised is passed on.
    intro e
    apply Triple.of_forall
    rintro s ⟨rfl, hforeign⟩
    apply Triple.post (Q := fun _ s => s = ⟨.stopped, log⟩)
    · exact stopPump_spec fun s hs => hs
    · rintro - s rfl
      exact ⟨rfl, rfl, hforeign⟩

theorem connected_spec :
    Triple Protocol (· = ⟨.offline, log⟩) (connected runtime config) (Keeps log)
      (fun _ s => s = ⟨.closed, log⟩) (Dropped config.mode log) := by
  unfold connected
  apply Triple.bind connect_spec
  rintro -
  apply session_spec.tryFinally
  · intro world
    apply close_spec
    rintro s rfl
    exact ⟨rfl, rfl⟩
  · intro e
    apply Triple.of_forall
    rintro s ⟨hclosable, hlog, hforeign⟩
    apply Triple.post (Q := fun _ s => s = ⟨.closed, log⟩)
    · apply close_spec
      rintro s rfl
      exact ⟨hclosable, hlog⟩
    · rintro - s rfl
      exact ⟨rfl, rfl, hforeign⟩

/-- The block that writes the log has ended: the log is closed. -/
def Logged (s : Standing) : Prop := s.line.isDown = true ∧ s.log = .closed

theorem closeLog_spec {P : Standing → Prop}
    (hP : ∀ s, P s → s.line.isDown = true ∧ s.log = .opened) :
    Triple Protocol P closeLog (fun _ => True) (fun _ => Logged)
      (fun e s => Logged s ∧ Foreign mode e) := by
  apply Triple.performs
  · exact fun _ _ => trivial
  · rintro ⟨line, log⟩ hs
    obtain ⟨hdown, rfl⟩ := hP _ hs
    refine ⟨_, .closesLog hdown, trivial, ⟨hdown, rfl⟩, ?_⟩
    rintro e ⟨text, rfl⟩
    exact ⟨⟨hdown, rfl⟩, rfl, nofun⟩

theorem writeSummary_spec {P : Standing → Prop} (hP : ∀ s, P s → Logged s) :
    Triple Protocol P writeSummary (fun _ => True) (fun _ => Standing.IsReleased)
      (fun e s => s.IsReleased ∧ Foreign mode e) := by
  apply Triple.performs
  · exact fun _ _ => trivial
  · rintro ⟨line, log⟩ hs
    obtain ⟨hdown, rfl⟩ := hP _ hs
    refine ⟨_, .writesSummary hdown, trivial, ⟨hdown, .inr rfl⟩, ?_⟩
    rintro e rfl
    exact ⟨⟨hdown, .inr rfl⟩, rfl, nofun⟩

theorem runClient_spec :
    Triple Protocol (· = {}) (runClient runtime config) (fun _ => True)
      (fun _ => Standing.IsReleased) (fun e s => s.IsReleased ∧ Foreign config.mode e) := by
  unfold runClient
  split
  · apply connected_spec.consequence
    · exact fun _ hs => hs
    · exact fun _ _ => trivial
    · rintro - s rfl
      exact ⟨rfl, .inl rfl⟩
    · rintro e s ⟨hdown, hlog, hforeign⟩
      exact ⟨⟨hdown, .inl hlog⟩, hforeign⟩
  · apply Triple.bind (Q := fun _ s => s = ⟨.offline, .opened⟩)
    · apply Triple.attempts
      · exact fun _ _ => trivial
      · rintro e s ⟨text, rfl⟩ rfl
        exact ⟨⟨rfl, .inl rfl⟩, rfl, nofun⟩
      · rintro - s - rfl
        exact ⟨_, .opensLog, trivial, rfl⟩
    · rintro -
      have hconnected : Triple Protocol (· = ⟨.offline, .opened⟩) (connected runtime config)
          (fun _ => True) (fun _ s => s = ⟨.closed, .opened⟩) (Dropped config.mode .opened) :=
        connected_spec.consequence (fun _ hs => hs) (fun _ _ => trivial) (fun _ _ hs => hs)
          fun _ _ hs => hs
      have hlogged : Triple Protocol (· = ⟨.offline, .opened⟩)
          (tryFinally (connected runtime config) closeLog) (fun _ => True) (fun _ => Logged)
          (fun e s => Logged s ∧ Foreign config.mode e) := by
        apply hconnected.tryFinally
        · intro world
          apply closeLog_spec
          rintro s rfl
          exact ⟨rfl, rfl⟩
        · intro e
          apply Triple.of_forall
          rintro s ⟨hdown, hlog, hforeign⟩
          apply Triple.post (Q := fun _ => Logged)
          · apply closeLog_spec
            rintro s rfl
            exact ⟨hdown, hlog⟩
          · exact fun _ s hs => ⟨hs, hforeign⟩
      apply hlogged.tryFinally
      · intro world
        exact writeSummary_spec fun s hs => hs
      · intro e
        apply Triple.of_forall
        rintro s ⟨hs, hforeign⟩
        apply Triple.post (Q := fun _ => Standing.IsReleased)
        · apply writeSummary_spec
          rintro s rfl
          exact hs
        · exact fun _ s hs => ⟨hs, hforeign⟩

end Functions

/-- **The client keeps to the protocol, and gives everything back.** Whatever the other side
and the network do, whenever it is cut off or cancelled and whatever is raised where, what
the client has done is a run of the protocol. One that has ended has closed its socket and
its log and written the summary. -/
theorem runClient_keeps_protocol {runtime : Protobuf} {config : ClientConfig}
    {actions : List Action} {outcome : Outcome ClientError WorldView}
    (h : runClient runtime config actions outcome) :
    ∃ s, Run Protocol {} actions s ∧ (outcome ≠ .running → s.IsReleased) := by
  obtain ⟨s, hrun, hend⟩ := runClient_spec {} actions outcome rfl h
  refine ⟨s, hrun, ?_⟩
  intro hended
  cases outcome with
  | running => exact absurd rfl hended
  | returned world => exact hend
  | raised e => exact hend.1

theorem runClient_keeps_protocol_sample :
    ∃ actions s,
      runClient Runner.sampleRuntime sampleConfig actions (.raised (.session .cancelled)) ∧
      Run Protocol {} actions s ∧ s.IsReleased := by
  obtain ⟨sent, -, hclient⟩ := runClient_sample
  obtain ⟨s, hrun, hreleased⟩ := runClient_keeps_protocol hclient
  exact ⟨_, s, hclient, hrun, hreleased nofun⟩

/-- **What gets past `main`**, where the strings of the frames are text. A client that ends
with a traceback has failed on the network or on the file of the log, has got an unreadable
frame, has found the connection closed in the handshake, or has missed a deadline of the
guided exercise. -/
theorem main_traceback {runtime : Protobuf} {config : ClientConfig} {actions : List Action}
    {outcome : Outcome ClientError WorldView} {e : ClientError}
    (h : runClient runtime config actions outcome) (hmain : main outcome = some (.traceback e)) :
    (∃ text, e = .session (.transport text)) ∨ (∃ text, e = .osError text) ∨
      e = .stopAsyncIteration ∨ (e = .timeout ∧ config.mode = .validation) := by
  obtain ⟨s, -, hend⟩ := runClient_spec {} actions outcome rfl h
  cases outcome with
  | running => cases hmain
  | returned world => cases hmain
  | raised e' =>
      obtain ⟨-, hown, htimeout⟩ := hend
      have hescapes : e' ≠ .session .cancelled ∧ isReported e' = false ∧ e' = e := by
        unfold main at hmain
        dsimp only at hmain
        split_ifs at hmain with hcancelled hreported
        · cases hmain
        · cases hmain
        · cases hmain
          exact ⟨hcancelled, by simpa using hreported, rfl⟩
      obtain ⟨hcancelled, hreported, rfl⟩ := hescapes
      rcases e' with (_ | _ | _ | text | _ | _ | _) | _ | _ | _ | _ | _ | _ | _ | text
      case session.transport => exact .inl ⟨text, rfl⟩
      case osError => exact .inr (.inl ⟨text, rfl⟩)
      case stopAsyncIteration => exact .inr (.inr (.inl rfl))
      case timeout => exact .inr (.inr (.inr ⟨rfl, htimeout rfl⟩))
      case session.conversion => cases hown
      case strategy => cases hown
      case session.cancelled => exact absurd rfl hcancelled
      all_goals cases hreported

theorem main_traceback_exhausted :
    main (.raised .stopAsyncIteration) = some (.traceback .stopAsyncIteration) ∧
      ((∃ text, ClientError.stopAsyncIteration = .session (.transport text)) ∨
        (∃ text, ClientError.stopAsyncIteration = .osError text) ∨
        ClientError.stopAsyncIteration = .stopAsyncIteration ∨
        (ClientError.stopAsyncIteration = .timeout ∧ ClientConfig.mode {} = .validation)) :=
  ⟨rfl, main_traceback runClient_exhausted rfl⟩

end Client

end PlanetCharlu
