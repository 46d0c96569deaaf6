import PlanetCharlu.Bazaar
import PlanetCharlu.ServerLimits

/-!
# Runs over the bytes of a socket (`connection.py`)

The socket delivers frames and takes messages. `Frame.read` is what `messages` makes of a
frame, and `RunnerEvent.OffSocket` says that what the pump gets in a run comes off a
socket. Two results connect the frames with the loop: whatever the frames contain, no
conversion and no decision ever raises, and what the loop sends are the messages that
were decided, each within the ranges of its fields.
-/

namespace PlanetCharlu

open Runs

/-! ### Conversions of what was decoded -/

theorem Except.exists_mapM_ok {α β ε : Type} {f : α → Except ε β} {l : List α}
    (h : ∀ a ∈ l, ∃ b, f a = .ok b) : ∃ bs, l.mapM f = .ok bs := by
  induction l with
  | nil => exact ⟨[], rfl⟩
  | cons a l ih =>
      obtain ⟨b, hb⟩ := h a List.mem_cons_self
      obtain ⟨bs, hbs⟩ := ih fun x hx => h x (List.mem_cons_of_mem a hx)
      refine ⟨b :: bs, ?_⟩
      rw [List.mapM_cons, hb, hbs]
      rfl

theorem resourceFromWire_ok {n : Nat} (h : n ∈ [1, 2, 3]) : ∃ r, resourceFromWire n = .ok r := by
  fin_cases h <;> exact ⟨_, rfl⟩

theorem Offer.fromWire_ok {o : Wire.Offer} (h : o.status ∈ [1, 2, 3, 4, 5]) :
    ∃ offer, Offer.fromWire o = .ok offer := by
  have hstatus : ∃ status, OfferStatus.fromWire o.status = .ok status := by
    generalize o.status = n at h
    fin_cases h <;> exact ⟨_, rfl⟩
  obtain ⟨status, hstatus⟩ := hstatus
  rw [Offer.fromWire, hstatus]
  exact ⟨_, rfl⟩

theorem Advertisement.fromWire_ok {a : Wire.Advertisement} (h : a.status ∈ [1, 2, 3, 4, 5])
    (hclaims : ∀ n ∈ a.selling ++ a.seeking, n ∈ [1, 2, 3]) :
    ∃ ad, Advertisement.fromWire a = .ok ad := by
  have hstatus : ∃ status, PublicationStatus.fromWire a.status = .ok status := by
    generalize a.status = n at h
    fin_cases h <;> exact ⟨_, rfl⟩
  obtain ⟨status, hstatus⟩ := hstatus
  obtain ⟨selling, hselling⟩ := Except.exists_mapM_ok fun n hn =>
    resourceFromWire_ok (hclaims n (List.mem_append_left _ hn))
  obtain ⟨seeking, hseeking⟩ := Except.exists_mapM_ok fun n hn =>
    resourceFromWire_ok (hclaims n (List.mem_append_right _ hn))
  rw [Advertisement.fromWire, hselling, hseeking, hstatus]
  exact ⟨_, rfl⟩

/-- The stock and the length of a run have 64 bits. -/
structure WorldView.Bounded (w : WorldView) : Prop where
  inventory : Raising.Fits w.self.inventory
  duration : w.rules.durationTicks < 2 ^ 64

/-- **A decoded state is always a snapshot.** -/
theorem WorldView.fromState_received {m : Wire.State} (h : m.Received) :
    ∃ w, WorldView.fromState m = .ok w ∧ w.Bounded := by
  obtain ⟨specialty, hspecialty⟩ := resourceFromWire_ok h.specialty
  obtain ⟨offers, hoffers⟩ := Except.exists_mapM_ok fun o ho => Offer.fromWire_ok (h.offers o ho)
  obtain ⟨ads, hads⟩ := Except.exists_mapM_ok fun a ha =>
    Advertisement.fromWire_ok (h.advertisements a ha) (h.claims a ha)
  rw [WorldView.fromState, StationSelf.fromWire, hspecialty, hoffers, hads]
  exact ⟨_, rfl, h.inventory, h.duration⟩

/-! ### Frames -/

/-- A binary frame is a payload whose strings are text. -/
inductive Frame (runtime : Protobuf) where
  | text (content : String)
  | binary (data : List UInt8) (textual : runtime.Textual data)

section Frames

variable {runtime : Protobuf}

/-- One turn of `messages`: a decoded message, or what it raises. -/
def Frame.read : Frame runtime → Except SessionError Wire.ServerMessage
  | .text _ =>
      .error (.transport "received a text frame; only binary Protobuf frames are expected")
  | .binary data _ =>
      match Codec.decodeServerMessage runtime data with
      | none => .error (.transport "Error parsing message")
      | some m => .ok m

/-- What the pump gets from a frame. -/
def Frame.event (frame : Frame runtime) : SessionEvent :=
  match frame.read with
  | .error e => .ends (some e)
  | .ok m => .arrives m.seen

/-- The error of a failed conversion. -/
def SessionError.isConversion : SessionError → Bool
  | .conversion _ => true
  | _ => false

variable (runtime) in
/-- A session event of a client on a socket. The pump gets a frame, or the stream ends
with an error of the transport, if any; `connection.send` fails with one. -/
def SessionEvent.OffSocket : SessionEvent → Prop
  | .arrives m => ∃ frame : Frame runtime, frame.event = .arrives m
  | .ends cause => ∀ e ∈ cause, e.isConversion = false
  | .sendFails _ e => e.isConversion = false
  | _ => True

variable (runtime) in
def RunnerEvent.OffSocket : RunnerEvent → Prop
  | .session e => e.OffSocket runtime
  | .syncFails e => e.isConversion = false
  | _ => True

/-- Nothing is left out: whatever frame comes, the pump gets such an event. -/
theorem Frame.event_offSocket (frame : Frame runtime) : frame.event.OffSocket runtime := by
  rcases hread : frame.read with e | m
  · rw [Frame.event, hread]
    intro e' he'
    cases he'
    cases frame with
    | text content =>
        cases hread
        rfl
    | binary data textual =>
        unfold Frame.read at hread
        dsimp only at hread
        split at hread
        · cases hread
          rfl
        · cases hread
  · have hevent : frame.event = .arrives m.seen := by rw [Frame.event, hread]
    rw [hevent]
    exact ⟨frame, hevent⟩

/-- A state that arrives was decoded. -/
theorem Frame.received {frame : Frame runtime} {m : Wire.State}
    (h : frame.event = .arrives (.state m)) : m.Received := by
  rcases hread : frame.read with e | m'
  · rw [Frame.event, hread] at h
    cases h
  · rw [Frame.event, hread] at h
    cases frame with
    | text content => cases hread
    | binary data textual =>
        unfold Frame.read at hread
        dsimp only at hread
        split at hread
        · cases hread
        · rename_i m'' hdecode
          cases hread
          cases m' with
          | state m' =>
              cases h
              exact runtime.received textual hdecode
          | _ => cases h

end Frames

/-! ### Nothing fails to convert -/

def Future.isConversion : Future → Bool
  | .exception e => e.isConversion
  | _ => false

def Stage.isConversion : Stage → Bool
  | .raised e => e.isConversion
  | .refused e => e.isConversion
  | _ => false

namespace Session

/-- The snapshot is bounded, and no error of a conversion is anywhere in the session. -/
structure Clean (s : Session) : Prop where
  world : s.world.Bounded
  pump : ∀ e ∈ s.pumpError, e.isConversion = false
  calls : ∀ c call, s.calls c = some call →
    call.future.isConversion = false ∧ call.stage.isConversion = false

variable {runtime : Protobuf} {s t : Session} {e : SessionError} {c : CallId} {call : Call}

namespace Clean

theorem settle (h : s.Clean) {future : Future} (hfuture : future.isConversion = false)
    (requestId : String) : (s.settle requestId future).Clean := by
  refine ⟨by rw [settle_world]; exact h.world, by rw [settle_pumpError]; exact h.pump, ?_⟩
  intro c' call' hcall
  unfold Session.settle at hcall
  split at hcall
  · exact h.calls c' call' hcall
  · rename_i c hpending
    dsimp only at hcall
    by_cases hc : c' = c
    · subst hc
      rw [Function.update_self, Option.map_eq_some_iff] at hcall
      obtain ⟨call, hbefore, rfl⟩ := hcall
      have hclean := h.calls c' call hbefore
      unfold Call.settle
      split
      · exact ⟨hfuture, hclean.2⟩
      · exact hclean
    · rw [Function.update_of_ne hc] at hcall
      exact h.calls c' call' hcall

theorem endPump (h : s.Clean) (he : e.isConversion = false) : (s.endPump e).Clean := by
  refine ⟨h.world, ?_, ?_⟩
  · intro e' he'
    cases he'
    exact he
  · intro c call hcall
    simp only [Session.endPump, failAll, Option.map_eq_some_iff] at hcall
    obtain ⟨call', hbefore, rfl⟩ := hcall
    have hclean := h.calls c call' hbefore
    split
    · unfold Call.settle
      split
      · exact ⟨he, hclean.2⟩
      · exact hclean
    · exact hclean

/-- A call of the session changes. -/
theorem update (h : s.Clean) (hfuture : call.future.isConversion = false)
    (hstage : call.stage.isConversion = false) :
    Clean { s with calls := Function.update s.calls c (some call) } := by
  refine ⟨h.world, h.pump, ?_⟩
  intro c' call' hcall
  dsimp only at hcall
  by_cases hc : c' = c
  · subst hc
    rw [Function.update_self] at hcall
    cases hcall
    exact ⟨hfuture, hstage⟩
  · rw [Function.update_of_ne hc] at hcall
    exact h.calls c' call' hcall

theorem finish (h : s.Clean) {stage : Stage} (hfuture : call.future.isConversion = false)
    (hstage : stage.isConversion = false) : (s.finish c call stage).Clean := by
  have hupdate : Clean
      { s with calls := Function.update s.calls c (some { call with stage }) } :=
    h.update hfuture hstage
  exact ⟨hupdate.world, hupdate.pump, hupdate.calls⟩

theorem receive (h : s.Clean) {m : ServerMessage}
    (hframe : ∃ frame : Frame runtime, frame.event = .arrives m) : (s.receive m).Clean := by
  obtain ⟨frame, hframe⟩ := hframe
  cases m with
  | state state =>
      obtain ⟨w, hw, hbounded⟩ := WorldView.fromState_received (Frame.received hframe)
      simp only [Session.receive, hw]
      split_ifs
      · exact h.endPump rfl
      · exact h
      · exact ⟨hbounded, h.pump, h.calls⟩
  | result result => exact h.settle rfl _
  | protocolError error =>
      have hreject : (if error.requestId.null then s
          else s.reject error.requestId.value
            (.protocolErrorReceived error.code error.closeSession)).Clean := by
        split_ifs
        · exact h
        · exact h.settle rfl _
      simp only [Session.receive]
      generalize (if error.requestId.null = true then s
        else s.reject error.requestId.value
          (.protocolErrorReceived error.code error.closeSession)) = settled at hreject ⊢
      split_ifs
      · exact hreject.endPump rfl
      · exact hreject
  | readiness => exact h
  | unset => exact h

theorem begin (h : s.Clean) (requestId : String) (message : ClientMessage) :
    (s.begin c requestId message).Clean := by
  have hrefuse : ∀ e : SessionError, e.isConversion = false → Clean
      { s with
        calls := Function.update s.calls c (some { requestId, message, stage := .refused e }) } :=
    fun e he => h.update rfl he
  unfold Session.begin
  dsimp only
  split
  · rename_i e he
    exact hrefuse e (h.pump e he)
  · split_ifs
    · exact hrefuse _ rfl
    · split
      · exact hrefuse _ rfl
      · have hupdate : Clean
            { s with
              calls := Function.update s.calls c
                (some { requestId, message, stage := .sending }) } := h.update rfl rfl
        exact ⟨hupdate.world, hupdate.pump, hupdate.calls⟩

theorem cancelCall (h : call.future.isConversion = false) :
    (Session.cancelCall call).future.isConversion = false := by
  unfold Session.cancelCall
  dsimp only
  split_ifs
  · rfl
  · exact h

/-- A call leaves with what its future holds, or cancelled. -/
theorem exit {stage : Stage} (h : call.future.isConversion = false)
    (hexit : Session.exit call = some stage) : stage.isConversion = false := by
  unfold Session.exit at hexit
  split at hexit
  · split_ifs at hexit
    cases hexit
    rfl
  · split_ifs at hexit
    · cases hexit
      rfl
    · split at hexit
      · cases hexit
      · cases hexit
        rfl
      · rename_i e hfuture
        cases hexit
        rw [hfuture] at h
        exact h
      · cases hexit
        rfl
  · cases hexit

theorem step {event : SessionEvent} (h : s.Clean) (hsocket : event.OffSocket runtime)
    (hstep : s.step event = some t) : t.Clean := by
  cases step_cases hstep with
  | arrives hrunning m => exact h.receive hsocket
  | ends hrunning cause =>
      apply h.endPump
      cases cause with
      | none => rfl
      | some e => exact hsocket e rfl
  | begins hnew id m => exact h.begin id m
  | sends hcall hsending hwanted =>
      exact h.update (h.calls _ _ hcall).1 rfl
  | sendFails hcall hsending e => exact h.finish (h.calls _ _ hcall).1 hsocket
  | cancels hcall hopen => exact h.update (cancelCall (h.calls _ _ hcall).1) (h.calls _ _ hcall).2
  | resumes hcall hexit =>
      exact h.finish (h.calls _ _ hcall).1 (exit (h.calls _ _ hcall).1 hexit)

end Clean

end Session

/-! ### The loop -/

namespace Runner

/-! ### A run off a socket -/

section Sample

open Codec

/-- The fields that all messages begin with. -/
def sampleHeader : List UInt8 :=
  uintField 1 1 ++ stringField 2 PROTOCOL_VERSION ++ stringField 3 "run"

def sampleRules : List UInt8 :=
  stringField 1 "rules" ++ uintField 2 100 ++ uintField 3 1000 ++
    bytesField 4 (encodeResources RESOURCES) ++ uintField 5 100 ++ uintField 6 1 ++
    uintField 7 1 ++ uintField 8 10 ++ uintField 9 3 ++ uintField 10 1 ++ uintField 11 100 ++
    uintField 12 8 ++ uintField 13 16384

/-- Station P01, with 50 water, 2 food and 30 components. -/
def sampleSelf : List UInt8 :=
  stringField 1 "P01" ++ bytesField 2 (encodeBundle ⟨50, 2, 30⟩) ++ uintField 3 100 ++
    uintField 4 0 ++ bytesField 5 (uintField 1 1) ++ bytesField 6 (encodeBundle {}) ++
    bytesField 7 (encodeBundle {}) ++ uintField 8 0 ++ uintField 9 0 ++ uintField 10 0 ++
    uintField 11 0 ++
    ([12, 13, 14, 15, 16].flatMap fun field => bytesField field (encodeBundle {})) ++
    bytesField 17 (encodeBundle ⟨1, 1, 1⟩) ++ uintField 18 1

/-- P02 sells food and seeks water. -/
def sampleAd : List UInt8 :=
  stringField 1 "ad-1" ++ stringField 2 "P02" ++ bytesField 3 (encodeResources [.food]) ++
    bytesField 4 (encodeResources [.water]) ++ uintField 5 0 ++ uintField 6 100 ++
    uintField 7 0 ++ uintField 8 1

def sampleState (sequence version tick : Nat) : List UInt8 :=
  bytesField 1 (sampleHeader ++ uintField 4 sequence ++ uintField 5 version ++
    uintField 6 tick ++ uintField 7 Phase.RUNNING.number ++ stringField 8 "P01" ++
    bytesField 9 sampleRules ++ bytesField 10 [] ++ bytesField 11 sampleSelf ++
    bytesField 12 [] ++ bytesField 13 (bytesField 1 sampleAd) ++ bytesField 14 [] ++
    bytesField 15 [] ++ bytesField 16 (uintField 1 1))

/-- `request-1` has posted `offer-1`. -/
def sampleResult : List UInt8 :=
  bytesField 2 (sampleHeader ++ stringField 4 "request-1" ++ uintField 5 1 ++ uintField 6 1 ++
    uintField 7 0 ++ uintField 8 2 ++ bytesField 9 (stringField 2 "offer-1") ++
    bytesField 10 (uintField 1 1) ++ bytesField 11 (uintField 1 1))

def sampleConfirmation : List UInt8 :=
  bytesField 4 (sampleHeader ++ uintField 4 1 ++ uintField 5 1)

def sampleFrames : List (List UInt8 × Wire.ServerMessage) :=
  [(sampleState 1 1 0, .state (Wire.State.sample 1)),
    (sampleConfirmation, .readiness { runId := "run", ready := true, snapshotSequence := 1 }),
    (sampleResult, .result
      { requestId := "request-1", ok := true, code := .OK, processedTick := 0,
        processedVersion := 2, objectId := ⟨false, "offer-1"⟩, transactionId := ⟨true, ""⟩,
        retryAfterTick := ⟨true, 0⟩ }),
    (sampleState 2 2 1, .state { Wire.State.sample 2 with worldVersion := 2, tick := 1 })]

theorem sample_received (sequence version tick : Nat) :
    Wire.State.Received { Wire.State.sample sequence with worldVersion := version, tick } where
  specialty := by
    dsimp only [Wire.State.sample]
    decide
  offers o ho := by cases ho
  advertisements a ha := by
    rw [List.mem_singleton.mp ha]
    decide
  claims a ha := by
    rw [List.mem_singleton.mp ha]
    decide
  inventory := by
    unfold Raising.Fits
    dsimp only [Wire.State.sample]
    decide
  duration := by
    dsimp only [Wire.State.sample]
    decide

/-- The runtime on the frames of the sample run. -/
def sampleRuntime : Protobuf where
  Textual data := data ∈ sampleFrames.map Prod.fst
  fromString data := sampleFrames.lookup data
  received := by
    intro data m _ hparse
    obtain ⟨before, after, hsplit, -⟩ := List.lookup_eq_some_iff.mp hparse
    have hmem : (data, .state m) ∈ sampleFrames := by simp [hsplit]
    simp only [sampleFrames, List.mem_cons, Prod.mk.injEq, Wire.ServerMessage.state.injEq,
      reduceCtorEq, and_false, List.not_mem_nil, or_false, false_or] at hmem
    rcases hmem with ⟨-, rfl⟩ | ⟨-, rfl⟩
    · exact sample_received 1 1 0
    · exact sample_received 2 2 1

theorem sampleRuntime_decodes :
    decodeServerMessage sampleRuntime (sampleState 1 1 0) = some (.state (Wire.State.sample 1)) := by
  decide +kernel

theorem sampleTrace_offSocket : ∀ e ∈ sampleTrace, e.OffSocket sampleRuntime := by
  have hresult : sampleRuntime.fromString sampleResult = some (.result
      { requestId := "request-1", ok := true, code := .OK, processedTick := 0,
        processedVersion := 2, objectId := ⟨false, "offer-1"⟩, transactionId := ⟨true, ""⟩,
        retryAfterTick := ⟨true, 0⟩ }) := by decide +kernel
  have hstate : sampleRuntime.fromString (sampleState 2 2 1) = some
      (.state { Wire.State.sample 2 with worldVersion := 2, tick := 1 }) := by decide +kernel
  intro e he
  simp only [sampleTrace, List.mem_cons, List.not_mem_nil, or_false] at he
  rcases he with rfl | rfl | rfl | rfl | rfl | rfl | rfl | rfl | rfl | rfl | rfl | rfl
  case inr.inr.inr.inl =>
    refine ⟨.binary sampleResult (by simp [sampleRuntime, sampleFrames]), ?_⟩
    rw [Frame.event, Frame.read, decodeServerMessage, hresult]
    rfl
  case inr.inr.inr.inr.inr.inr.inr.inr.inl =>
    refine ⟨.binary (sampleState 2 2 1) (by simp [sampleRuntime, sampleFrames]), ?_⟩
    rw [Frame.event, Frame.read, decodeServerMessage, hstate]
    rfl
  all_goals trivial

end Sample

/-- The error of a conversion or of a decision. -/
def isOwnError : RunnerError → Bool
  | .strategy _ => true
  | .session e => e.isConversion
  | .runtimeError _ => false

/-- Clean, and not ended by an error of the client itself. -/
structure Clean (r : Runner) : Prop where
  session : r.session.Clean
  raised : ∀ e, r.pc = .raised e → isOwnError e = false

variable {runtime : Protobuf} {policy : Strategy} {w₀ : WorldView} {trace : List RunnerEvent}
  {e : RunnerEvent} {r t : Runner}

theorem Clean.iterate (h : r.session.Clean) (reads : Reads) : (r.iterate policy reads).Clean := by
  unfold Runner.iterate
  dsimp only
  split
  · exact ⟨h, fun e he => by cases he⟩
  · obtain ⟨⟨st, action⟩, hchoose⟩ := policy.choose_isOk reads.env r.strategy r.session.world
    rw [hchoose]
    dsimp only
    cases action with
    | none =>
        dsimp only
        split
        · rename_i error herror
          refine ⟨h, ?_⟩
          intro e he
          cases he
          exact h.pump error herror
        · exact ⟨h, fun e he => by cases he⟩
    | some action => exact ⟨h, fun e he => by cases he⟩

theorem Clean.complete (h : r.session.Clean) (reads : Reads) (started : ℚ) :
    (r.complete policy reads started).Clean := Clean.iterate (by exact h) reads

theorem Clean.answer (h : r.session.Clean) (reads : Reads) (w : WorldView) (d : Decision)
    (started : ℚ) (o : CommandOutcome) : (r.answer policy reads w d started o).Clean := by
  unfold Runner.answer
  dsimp only
  split
  · apply Clean.complete
    exact h
  · exact ⟨h, fun e he => by cases he⟩

theorem Clean.step (h : r.Clean) (hsocket : e.OffSocket runtime) (hstep : r.step policy e = some t) :
    t.Clean := by
  have hfail : ∀ error : RunnerError, isOwnError error = false → (r.raise error).Clean := by
    intro error herror
    refine ⟨h.session, ?_⟩
    intro e he
    cases he
    exact herror
  cases step_cases hstep with
  | session hforeign hs => exact ⟨h.session.step hsocket hs, h.raised⟩
  | iterate hpc reads => exact Clean.iterate h.session reads
  | wake hpc hnewer reads => exact Clean.iterate h.session reads
  | answered hpc hcall hreturned reads => exact Clean.answer h.session reads _ _ _ _
  | timedOut hpc hcall hcancelled reads => exact hfail _ rfl
  | failed hpc hcall hfailed reads =>
      apply hfail
      have hclean := (h.session.calls _ _ hcall).2
      rcases hfailed with hraised | hrefused
      · rwa [hraised] at hclean
      · rwa [hrefused] at hclean
  | complete hpc reads => exact Clean.complete h.session reads _
  | begin hpc hnew => exact ⟨h.session.begin _ _, fun e he => by cases he⟩
  | sync hpc =>
      exact ⟨⟨h.session.world, h.session.pump, h.session.calls⟩, fun e he => by cases he⟩
  | synced hpc => exact ⟨h.session, fun e he => by cases he⟩
  | syncFails hpc e => exact hfail _ hsocket
  | newer hpc hnewer => exact ⟨h.session, fun e he => by cases he⟩
  | goOn hpc hmissing hup => exact ⟨h.session, fun e he => by cases he⟩
  | confirm hpc hincludes => exact ⟨h.session, fun e he => by cases he⟩
  | swallow hpc => exact ⟨h.session, fun e he => by cases he⟩
  | disconnected hended => exact hfail _ (h.session.pump _ hended)
  | expires => exact hfail _ rfl
  | @cancel w d started c s hpc hs =>
      have hcancels : SessionEvent.OffSocket runtime (.cancels c) := trivial
      exact ⟨h.session.step hcancels hs, h.raised⟩

theorem clean_start {m : Wire.State} (hreceived : m.Received)
    (hw : WorldView.fromState m = .ok w₀) : (start w₀).Clean := by
  obtain ⟨w, hok, hbounded⟩ := WorldView.fromState_received hreceived
  rw [hok] at hw
  cases hw
  refine ⟨⟨hbounded, ?_, ?_⟩, ?_⟩
  · intro e he
    cases he
  · intro c call hcall
    cases hcall
  · intro e he
    cases he

theorem run_clean {m : Wire.State} (hreceived : m.Received)
    (hw : WorldView.fromState m = .ok w₀) (hrun : Run (Step policy) (start w₀) trace r)
    (hsocket : ∀ e ∈ trace, e.OffSocket runtime) : r.Clean :=
  hrun.invariant hsocket (clean_start hreceived hw) fun _ _ _ h he hstep => h.step he hstep

/-- **No frame breaks the loop.** From a decoded first snapshot on, whatever frames arrive
and however the stream ends, no conversion has failed, the loop has not ended with an error
of its own, and a decision on the snapshot it has would not raise. -/
theorem no_frame_breaks_the_loop (runtime : Protobuf) (policy : Strategy) {data : List UInt8}
    {m : Wire.State} (htextual : runtime.Textual data)
    (hfirst : Codec.decodeServerMessage runtime data = some (.state m))
    (hw : WorldView.fromState m = .ok w₀) (hrun : Run (Step policy) (start w₀) trace r)
    (hsocket : ∀ e ∈ trace, e.OffSocket runtime) :
    (∀ e ∈ r.session.pumpError, e.isConversion = false) ∧
      (∀ e, r.pc = .raised e → isOwnError e = false) ∧
      ∀ env st, ∃ result, policy.raisingChoose env st r.session.world = .ok result := by
  have hclean := run_clean (runtime.received htextual hfirst) hw hrun hsocket
  refine ⟨hclean.session.pump, hclean.raised, ?_⟩
  intro env st
  have hworld := hclean.session.world
  obtain ⟨result, -, hraising⟩ := policy.choose_agree env st hworld.inventory hworld.duration
  exact ⟨result, hraising⟩

theorem no_frame_breaks_the_loop_sample :
    ∃ r, Run (Step .base) (start .sample) sampleTrace r ∧ r.history.length = 3 ∧
      (∀ e ∈ r.session.pumpError, e.isConversion = false) ∧
      (∀ e, r.pc = .raised e → isOwnError e = false) ∧
      ∀ env st, ∃ result, Strategy.base.raisingChoose env st r.session.world = .ok result := by
  obtain ⟨r, hrun, hlength⟩ := run_sampleTrace
  have htextual : sampleRuntime.Textual (sampleState 1 1 0) := by
    simp [sampleRuntime, sampleFrames]
  exact ⟨r, hrun, hlength, no_frame_breaks_the_loop sampleRuntime .base htextual
    sampleRuntime_decodes rfl hrun sampleTrace_offSocket⟩

/-! ### What is sent -/

theorem state_of_mem_snapshots {w : WorldView} (hw : w ∈ snapshots trace) :
    ∃ m, .session (.arrives (.state m)) ∈ trace ∧ WorldView.fromState m = .ok w := by
  obtain ⟨e, he, hsnapshot⟩ := List.mem_filterMap.mp hw
  cases e with
  | session e =>
      cases e with
      | arrives m =>
          cases m with
          | state m =>
              refine ⟨m, he, ?_⟩
              rcases hread : WorldView.fromState m with error | w'
              · simp [RunnerEvent.snapshot?, Delivery.snapshot?, hread, Except.toOption] at hsnapshot
              · simpa [RunnerEvent.snapshot?, Delivery.snapshot?, hread, Except.toOption]
                  using hsnapshot
          | _ => cases hsnapshot
      | _ => cases hsnapshot
  | _ => cases hsnapshot

/-- Every snapshot of a run off a socket is bounded. -/
theorem bounded_snapshots {m : Wire.State} (hreceived : m.Received)
    (hw : WorldView.fromState m = .ok w₀) (hsocket : ∀ e ∈ trace, e.OffSocket runtime) :
    ∀ w ∈ w₀ :: snapshots trace, w.Bounded := by
  have hbounded : ∀ m' w, Wire.State.Received m' → WorldView.fromState m' = .ok w → w.Bounded := by
    intro m' w hm' hread
    obtain ⟨w', hok, hbounded⟩ := WorldView.fromState_received hm'
    rw [hok] at hread
    cases hread
    exact hbounded
  intro w hmem
  rcases List.mem_cons.mp hmem with rfl | hmem
  · exact hbounded m _ hreceived hw
  · obtain ⟨m', hevent, hread⟩ := state_of_mem_snapshots hmem
    obtain ⟨frame, hframe⟩ : ∃ frame : Frame runtime, frame.event = .arrives (.state m') :=
      hsocket _ hevent
    exact hbounded m' w (Frame.received hframe) hread

/-- The commands decided so far can be encoded, and are for the run of the first snapshot. -/
structure Conveys (w₀ : WorldView) (S : List WorldView) (r : Runner) : Prop where
  seen : r.session.world ∈ S
  sameRun : r.session.world.runId = w₀.runId
  encodable : ∀ c ∈ r.commands, c.2.message.Encodable

namespace Conveys

variable {S : List WorldView}

/-- Nothing is decided. -/
theorem move (h : Conveys w₀ S r) (hworld : t.session.world = r.session.world)
    (hcommands : t.commands = r.commands) : Conveys w₀ S t := by
  refine ⟨?_, ?_, ?_⟩
  · rw [hworld]
    exact h.seen
  · rw [hworld]
    exact h.sameRun
  · rw [hcommands]
    exact h.encodable

theorem effect (h : Conveys w₀ S r) (hbounded : ∀ w ∈ S, w.Bounded)
    (hseen : ∀ w, e.snapshot? = some w → w ∈ S) (heff : Effect policy e r t) :
    Conveys w₀ S t := by
  cases heff with
  | @session s hworld hsent =>
      rcases hworld with hworld | ⟨hdelivered, -, hrun⟩
      · exact h.move hworld rfl
      · exact ⟨hseen s.world hdelivered, hrun.trans h.sameRun, h.encodable⟩
  | begin hpc hworld hsent => exact h.move hworld rfl
  | sync hpc => exact h.move rfl rfl
  | reconcile hpc hincludes => exact h.move rfl rfl
  | raise error => exact h.move rfl rfl
  | wake hpc hnewer => exact h.move rfl rfl
  | note hpc hid => exact h.move rfl (by simp [commands])
  | complete elapsed hpc => exact h.move rfl rfl
  | finish hpc hfinal => exact h.move rfl rfl
  | wait _ hpc hchoose => exact h.move rfl (by simp [commands])
  | @decide reads st d _ hpc hchoose =>
      refine ⟨h.seen, h.sameRun, ?_⟩
      intro c hc
      rw [commands, commandsOf_decided, List.mem_append, List.mem_singleton] at hc
      rcases hc with hc | rfl
      · exact h.encodable c hc
      · have hworld := hbounded _ h.seen
        exact policy.choose_encodable hworld.inventory hworld.duration hchoose

end Conveys

theorem run_conveys {S : List WorldView} (hrun : Run (Step policy) (start w₀) trace r)
    (hS : w₀ :: snapshots trace ⊆ S) (hbounded : ∀ w ∈ S, w.Bounded) : Conveys w₀ S r := by
  apply run_invariant (owns_start w₀) hrun
  · refine ⟨hS List.mem_cons_self, rfl, ?_⟩
    intro c hc
    cases hc
  · intro e r t he h heff
    exact h.effect hbounded (fun w hw => hS (List.mem_cons_of_mem w₀ (mem_snapshots he hw))) heff

/-- A message of a run: a decided command, or a `sync` that follows one. -/
theorem sent_cases (hrun : Run (Step policy) (start w₀) trace r) {m : ClientMessage}
    (hm : m ∈ r.session.sent) :
    ∃ c ∈ r.commands, m = c.2.message ∨ m = .sync c.2.message.runId := by
  rcases hkind : m.isCommand with _ | _
  · rcases m with _ | _ | _ | _ | runId
    case sync =>
      obtain ⟨c, hc, rfl⟩ := (run_syncsFollow hrun).syncs runId hm
      exact ⟨c, hc, .inr rfl⟩
    all_goals cases hkind
  · have hsent : m ∈ r.sentCommands := List.mem_filter.mpr ⟨hm, hkind⟩
    obtain ⟨c, hc, rfl⟩ := List.mem_map.mp ((run_inOrder hrun).sent.subset hsent)
    exact ⟨c, hc, .inl rfl⟩

/-- **What is sent was decided.** In a run off a socket every message handed to the
connection is within the ranges of its fields and for the run of the first snapshot, and
the commands among them are decided ones, in order and at most once each. -/
theorem sent_messages_in_range (runtime : Protobuf) (policy : Strategy) {data : List UInt8}
    {m : Wire.State} (htextual : runtime.Textual data)
    (hfirst : Codec.decodeServerMessage runtime data = some (.state m))
    (hw : WorldView.fromState m = .ok w₀) (hrun : Run (Step policy) (start w₀) trace r)
    (hsocket : ∀ e ∈ trace, e.OffSocket runtime) :
    (∀ message ∈ r.session.sent,
      message.toWire.InRange ∧ message.toWire.runId? = some w₀.runId) ∧
      r.sentCommands.Sublist (r.commands.map fun c => c.2.message) := by
  have hreceived := runtime.received htextual hfirst
  have hconveys := run_conveys hrun (List.Subset.refl _) (bounded_snapshots hreceived hw hsocket)
  have hsyncs := run_syncsFollow hrun
  refine ⟨?_, (run_inOrder hrun).sent⟩
  intro message hmessage
  obtain ⟨c, hc, hcases⟩ := sent_cases hrun hmessage
  have hrunId : c.2.message.runId = w₀.runId := (hsyncs.sameRun c hc).trans hconveys.sameRun
  rw [ClientMessage.runId?_toWire]
  rcases hcases with rfl | rfl
  · exact ⟨Codec.inRange_toWire (hconveys.encodable c hc), congrArg some hrunId⟩
  · exact ⟨Codec.inRange_toWire trivial, congrArg some hrunId⟩

theorem sent_messages_in_range_sample :
    ∃ r, Run (Step .base) (start .sample) sampleTrace r ∧ r.history.length = 3 ∧
      (∀ message ∈ r.session.sent,
        message.toWire.InRange ∧ message.toWire.runId? = some WorldView.sample.runId) ∧
        r.sentCommands.Sublist (r.commands.map fun c => c.2.message) := by
  obtain ⟨r, hrun, hlength⟩ := run_sampleTrace
  have htextual : sampleRuntime.Textual (sampleState 1 1 0) := by
    simp [sampleRuntime, sampleFrames]
  exact ⟨r, hrun, hlength, sent_messages_in_range sampleRuntime .base htextual
    sampleRuntime_decodes rfl hrun sampleTrace_offSocket⟩

end Runner

end PlanetCharlu
