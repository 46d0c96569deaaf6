import PlanetCharlu.LogSummary

/-!
# The decision log of the run page (`RunSummary.decision_log`)

The page shows every decision with the terms it sent and, joined by the request id, what
the server did with it: a decision without a result is pending. The join goes through a
dictionary, so of two results with one id it shows the later for both decisions.

The text of a value is modelled for texts, integers, booleans and `None`; it is an error
for what else there is, which no record of the client has in these places.
-/

namespace PlanetCharlu

open Json StableSort Tally

/-! ### The rows -/

/-- A row of the table. -/
structure DecisionRow (F : Type) where
  tick : Json F
  kind : Json F
  reason : Json F
  terms : String
  counterparty : Json F
  outcome : String
  outcomeOk : Json F

namespace RunSummary

variable {F : Type}

/-- A value in an f-string. -/
def fmtValue : Json F → Except String String
  | .null => .ok "None"
  | .bool true => .ok "True"
  | .bool false => .ok "False"
  | .int n => .ok (toString n)
  | .str s => .ok s
  | _ => .error "NotImplementedError"

/-- `_fmt_bundle`. -/
def fmtBundle (bundle : Json F) : Except String String := do
  if isFalsy bundle then return "?"
  else
    let water ← fmtValue (← itemOr bundle "water" (.int 0))
    let food ← fmtValue (← itemOr bundle "food" (.int 0))
    let components ← fmtValue (← itemOr bundle "components" (.int 0))
    return water ++ "w / " ++ food ++ "f / " ++ components ++ "c"

/-- `", ".join(…) or "nothing"`. -/
def joined (items : Json F) : Except String String :=
  match items with
  | .arr items => do
      let names ← items.mapM asText
      let text := String.intercalate ", " names
      return if text = "" then "nothing" else text
  | _ => .error "TypeError"

/-- `_fmt_sent`. -/
def fmtSent (sent : Json F) : Except String String := do
  if isFalsy sent then return "-"
  else
    let command ← itemOr sent "command" .null
    match command with
    | .str "offer" =>
        let give ← fmtBundle (← itemOr sent "give" (.obj []))
        let recipient ← fmtValue (← itemOr sent "recipient_id" (.str "?"))
        let receive ← fmtBundle (← itemOr sent "receive" (.obj []))
        let expires ← fmtValue (← itemOr sent "expires_tick" (.str "?"))
        return "give " ++ give ++ " to " ++ recipient ++ ", receive " ++ receive ++
          " (expires tick " ++ expires ++ ")"
    | .str "accept" =>
        return "accept offer " ++ (← fmtValue (← itemOr sent "offer_id" (.str "?")))
    | .str "withdraw" =>
        return "withdraw offer " ++ (← fmtValue (← itemOr sent "object_id" (.str "?")))
    | .str "advertise" =>
        let selling ← joined (← itemOr sent "selling" (.arr []))
        let seeking ← joined (← itemOr sent "seeking" (.arr []))
        let expires ← fmtValue (← itemOr sent "expires_tick" (.str "?"))
        return "selling " ++ selling ++ "; seeking " ++ seeking ++ " (expires tick " ++ expires ++ ")"
    | command => if isFalsy command then return "-" else asText command

/-- `ref if len(ref) <= 12 else f"{ref[:8]}&hellip;"`. -/
def shortRef (ref : String) : String :=
  if ref.length ≤ 12 then ref else String.ofList (ref.toList.take 8) ++ "&hellip;"

/-- `result.get("transaction_id") or result.get("object_id")`. -/
def refOf (result : Json F) : Except String (Json F) := do
  let transactionId ← itemOr result "transaction_id" .null
  if isFalsy transactionId then itemOr result "object_id" .null else return transactionId

/-- How a success is shown. -/
def okText (ref : String) : String :=
  if ref = "" then "ok"
  else "ok (<span title=\"" ++ ref ++ "\">" ++ shortRef ref ++ "</span>)"

/-- `_fmt_outcome`. -/
def fmtOutcome (result : Option (Json F)) : Except String String := do
  match result with
  | none => return "pending"
  | some result =>
      if isFalsy (← itemOr result "ok" .null) then
        let code ← fmtValue (← itemOr result "code" .null)
        let retry ← itemOr result "retry_after_tick" .null
        if isFalsy retry then return "failed: " ++ code
        else return "failed: " ++ code ++ ", retry after tick " ++ (← fmtValue retry)
      else
        let ref ← refOf result
        if isFalsy ref then return okText "" else return okText (← asText ref)

/-- `decision_counts`. The client writes texts for kinds. -/
def decisionCounts (summary : RunSummary F) : Except String (List (String × Int)) := do
  let kinds ← summary.decisions.mapM fun d => do
    return (← asText (← itemOr d "kind" (.str "unknown")), (1 : Int))
  return tally kinds

/-- `results_by_request_id`. The last result with an id is the one a dictionary keeps. -/
def resultsByRequestId (summary : RunSummary F) : Except String (List (String × Json F)) := do
  let results ← summary.results.mapM fun r => do
    return (← asText (← item r "request_id"), r)
  return results.reverse

/-- `results_by_request_id.get(…)`. -/
def resultOf (results : List (String × Json F)) (requestId : Json F) :
    Except String (Option (Json F)) :=
  match requestId with
  | .str id => .ok (results.lookup id)
  | .arr _ => .error "TypeError"
  | .obj _ => .error "TypeError"
  | _ => .ok none

/-- The body of the loop of `decision_log`. -/
def decisionRow (results : List (String × Json F)) (d : Json F) :
    Except String (DecisionRow F) := do
  let result ← resultOf results (← itemOr d "request_id" .null)
  let sent ← itemOr d "sent" .null
  let tick ← itemOr d "tick" .null
  let kind ← itemOr d "kind" (.str "unknown")
  let reason ← itemOr d "reason" (.str "")
  let terms ← fmtSent sent
  let counterparty ← itemOr (if isFalsy sent then .obj [] else sent) "recipient_id" (.str "")
  let outcome ← fmtOutcome result
  let outcomeOk ← match result with
    | none => pure .null
    | some result => if isFalsy result then pure .null else itemOr result "ok" .null
  return { tick, kind, reason, terms, counterparty, outcome, outcomeOk }

def decisionLog (summary : RunSummary F) : Except String (List (DecisionRow F)) := do
  let results ← summary.resultsByRequestId
  summary.decisions.mapM (decisionRow results)

/-- `command_outcome_counts`: how many commands succeeded, how many failed, and with which
codes. -/
def commandOutcomeCounts (summary : RunSummary F) :
    Except String (Nat × Nat × List (String × Int)) := do
  let oks ← summary.results.mapM fun r => do return (!isFalsy (← item r "ok"), r)
  let ok := oks.countP Prod.fst
  let failures := (oks.filter fun r => !r.1).map Prod.snd
  let codes ← failures.mapM fun r => do return (← asText (← item r "code"), (1 : Int))
  return (ok, oks.length - ok, tally codes)

end RunSummary

/-! ### What the records say -/

/-- What a record of a decision says. -/
structure DecisionRecord where
  tick : Nat
  kind : String
  reason : String
  requestId : String
  sent : SentFields
deriving DecidableEq, Repr

/-- What a record of a result says. -/
structure ResultRecord where
  requestId : String
  ok : Bool
  code : ResultCode
  objectId : Option String
  transactionId : Option String
  retryAfterTick : Option Nat
deriving DecidableEq, Repr

def LogRecord.decisionRecord? (x : LogRecord) : Option DecisionRecord :=
  match x.event with
  | .decision _ kind reason requestId sent => some ⟨x.tick, kind, reason, requestId, sent⟩
  | _ => none

def LogRecord.resultRecord? (x : LogRecord) : Option ResultRecord :=
  match x.event with
  | .commandResult _ requestId ok code objectId transactionId retryAfterTick =>
      some ⟨requestId, ok, code, objectId, transactionId, retryAfterTick⟩
  | _ => none

def bundleText (bundle : Bundle) : String :=
  toString bundle.water ++ "w / " ++ toString bundle.food ++ "f / " ++
    toString bundle.components ++ "c"

def namesText (names : List String) : String :=
  if String.intercalate ", " names = "" then "nothing" else String.intercalate ", " names

/-- The terms of a command. -/
def SentFields.terms : SentFields → String
  | .offer recipientId give receive expiresTick =>
      "give " ++ bundleText give ++ " to " ++ recipientId ++ ", receive " ++ bundleText receive ++
        " (expires tick " ++ toString expiresTick ++ ")"
  | .accept offerId => "accept offer " ++ offerId
  | .withdraw objectId => "withdraw offer " ++ objectId
  | .advertise selling seeking expiresTick =>
      "selling " ++ namesText selling ++ "; seeking " ++ namesText seeking ++ " (expires tick " ++
        toString expiresTick ++ ")"
  | .other command => command

def SentFields.counterparty : SentFields → String
  | .offer recipientId _ _ _ => recipientId
  | _ => ""

/-- What the answer refers to: the transaction, or else the object. -/
def ResultRecord.ref (a : ResultRecord) : String :=
  if a.transactionId.getD "" = "" then a.objectId.getD "" else a.transactionId.getD ""

def ResultRecord.outcome (a : ResultRecord) : String :=
  if a.ok then RunSummary.okText a.ref
  else if a.retryAfterTick.getD 0 = 0 then "failed: " ++ a.code.name
  else "failed: " ++ a.code.name ++ ", retry after tick " ++ toString (a.retryAfterTick.getD 0)

/-- The row of a decision and of its answer, if it has one. -/
def DecisionRecord.row {F : Type} (decision : DecisionRecord) (result : Option ResultRecord) :
    DecisionRow F where
  tick := .int decision.tick
  kind := .str decision.kind
  reason := .str decision.reason
  terms := decision.sent.terms
  counterparty := .str decision.sent.counterparty
  outcome := result.elim "pending" ResultRecord.outcome
  outcomeOk := result.elim .null fun a => .bool a.ok

/-! ### The page has what the records say -/

section Events

variable {F : Type} {seconds : ℚ → F}

theorem itemOr_sortKeys {v w : Json F} {key : String} (hv : v.Distinct)
    (h : v.get? key = some w) (default : Json F) :
    itemOr (sortKeys v) key default = .ok (sortKeys w) := by
  apply itemOr_of_get?
  rw [get?_sortKeys hv, h]
  rfl

theorem itemOr_str {v : Json F} {key text : String} (hv : v.Distinct)
    (h : v.get? key = some (.str text)) (default : Json F) :
    itemOr (sortKeys v) key default = .ok (.str text) := itemOr_sortKeys hv h default

theorem itemOr_int {v : Json F} {key : String} {n : Int} (hv : v.Distinct)
    (h : v.get? key = some (.int n)) (default : Json F) :
    itemOr (sortKeys v) key default = .ok (.int n) := itemOr_sortKeys hv h default

/-- A key that was not written is not there. -/
theorem itemOr_sortKeys_none {members : List (String × Json F)} {key : String}
    (hv : (Json.obj members).Distinct) (h : members.lookup key = none) (default : Json F) :
    itemOr (sortKeys (.obj members)) key default = .ok default := by
  have hget : (sortKeys (.obj members)).get? key = none := by
    rw [get?_sortKeys hv, get?, h]
    rfl
  rw [sortKeys] at hget ⊢
  have hlookup : (sortedBy Prod.fst (sortMembers members)).lookup key = none := hget
  rw [itemOr, hlookup]
  rfl

theorem fmtBundle_bundleDict (bundle : Bundle) :
    RunSummary.fmtBundle (sortKeys (bundleDict bundle : Json F)) = .ok (bundleText bundle) := by
  have hsome : isFalsy (sortKeys (bundleDict bundle : Json F)) = false := isFalsy_sortKeys_obj _
  have hamount : ∀ r : Resource, itemOr (sortKeys (bundleDict bundle : Json F)) r.value (.int 0) =
      .ok (.int (quantity bundle r)) := fun r => itemOr_bundle bundle r _
  have hwater := hamount .water
  have hfood := hamount .food
  have hcomponents := hamount .components
  dsimp only [Resource.value, quantity] at hwater hfood hcomponents
  rw [RunSummary.fmtBundle, hsome, hwater, hfood, hcomponents]
  rfl

theorem joined_texts (names : List String) :
    RunSummary.joined (sortKeys (texts names : Json F)) = .ok (namesText names) := by
  have hnames : ((names.map .str : List (Json F)).map sortKeys).mapM asText =
      (.ok names : Except String (List String)) := by
    induction names with
    | nil => rfl
    | cons name rest ih =>
        rw [List.map_cons, List.map_cons, List.mapM_cons, ih, sortKeys]
        · rfl
        · intro members hmembers
          cases hmembers
        · intro items hitems
          cases hitems
  rw [texts, sortKeys, sortItems_eq, RunSummary.joined, hnames]
  rfl

/-- **The terms on the page are those that were sent.** -/
theorem fmtSent_fields (message : ClientMessage) :
    RunSummary.fmtSent (sortKeys (message.fields.toJson : Json F)) = .ok message.fields.terms := by
  have hdistinct := @distinct_sentFields F message.fields
  have hsome : isFalsy (sortKeys (message.fields.toJson : Json F)) = false := by
    cases message <;> exact isFalsy_sortKeys_obj _
  rw [RunSummary.fmtSent, hsome]
  cases message with
  | offer requestId runId body =>
      have hgive := @itemOr_sortKeys F _ (bundleDict body.give) "give" hdistinct rfl (.obj [])
      have hreceive :=
        @itemOr_sortKeys F _ (bundleDict body.receive) "receive" hdistinct rfl (.obj [])
      rw [@itemOr_str F _ "command" "offer" hdistinct rfl, hgive, hreceive,
        @itemOr_str F _ "recipient_id" body.recipientId hdistinct rfl,
        @itemOr_int F _ "expires_tick" body.expiresTick hdistinct rfl]
      simp only [Bool.false_eq_true, if_false, ok_bind, fmtBundle_bundleDict]
      rfl
  | accept requestId runId offerId =>
      rw [@itemOr_str F _ "command" "accept" hdistinct rfl,
        @itemOr_str F _ "offer_id" offerId hdistinct rfl]
      rfl
  | withdraw requestId runId objectId =>
      rw [@itemOr_str F _ "command" "withdraw" hdistinct rfl,
        @itemOr_str F _ "object_id" objectId hdistinct rfl]
      rfl
  | advertise requestId runId body =>
      have hselling := @itemOr_sortKeys F _ (texts (body.selling.map Resource.value)) "selling"
        hdistinct rfl (.arr [])
      have hseeking := @itemOr_sortKeys F _ (texts (body.seeking.map Resource.value)) "seeking"
        hdistinct rfl (.arr [])
      rw [@itemOr_str F _ "command" "advertise" hdistinct rfl, hselling, hseeking,
        @itemOr_int F _ "expires_tick" body.expiresTick hdistinct rfl]
      simp only [Bool.false_eq_true, if_false, ok_bind, joined_texts]
      rfl
  | sync runId =>
      rw [@itemOr_str F _ "command" "sync" hdistinct rfl]
      rfl

/-- Only an offer names a station. -/
theorem counterparty_toJson (sent : SentFields) :
    itemOr (sortKeys (sent.toJson : Json F)) "recipient_id" (.str "") =
      .ok (.str sent.counterparty) := by
  have hdistinct := @distinct_sentFields F sent
  cases sent with
  | offer recipientId give receive expiresTick => exact itemOr_str hdistinct rfl _
  | accept offerId => exact itemOr_sortKeys_none hdistinct rfl _
  | withdraw objectId => exact itemOr_sortKeys_none hdistinct rfl _
  | advertise selling seeking expiresTick => exact itemOr_sortKeys_none hdistinct rfl _
  | other command => exact itemOr_sortKeys_none hdistinct rfl _

theorem isFalsy_nullable_str (text : Option String) :
    isFalsy (nullable .str text : Json F) = (text.getD "" == "") := by
  cases text <;> rfl

theorem isFalsy_nullable_nat (n : Option Nat) :
    isFalsy (nullable natJson n : Json F) = (n.getD 0 == 0) := by
  cases n with
  | none => rfl
  | some n =>
      rw [nullable, natJson, isFalsy, Option.getD_some, Bool.eq_iff_iff, beq_iff_eq, beq_iff_eq,
        Nat.cast_eq_zero]

/-- What the page reads off an event whose record has a result. -/
structure ResultRecord.Shown (a : ResultRecord) (v : Json F) : Prop where
  requestId : item v "request_id" = .ok (.str a.requestId)
  outcome : RunSummary.fmtOutcome (some v) = .ok a.outcome
  ok : item v "ok" = .ok (.bool a.ok)
  okOr : itemOr v "ok" .null = .ok (.bool a.ok)
  code : item v "code" = .ok (.str a.code.name)
  some : isFalsy v = false

theorem refOf_of_fields {v : Json F} {a : ResultRecord}
    (hobject : itemOr v "object_id" .null = .ok (nullable .str a.objectId))
    (htransaction : itemOr v "transaction_id" .null = .ok (nullable .str a.transactionId)) :
    ∃ ref, RunSummary.refOf v = .ok (nullable .str ref) ∧ ref.getD "" = a.ref := by
  by_cases hnone : a.transactionId.getD "" = ""
  · refine ⟨a.objectId, ?_, ?_⟩
    · rw [RunSummary.refOf, htransaction, ok_bind, isFalsy_nullable_str, hnone]
      exact hobject
    · rw [ResultRecord.ref, if_pos hnone]
  · refine ⟨a.transactionId, ?_, ?_⟩
    · rw [RunSummary.refOf, htransaction, ok_bind, isFalsy_nullable_str, beq_false_of_ne hnone]
      rfl
    · rw [ResultRecord.ref, if_neg hnone]

theorem fmtOutcome_of_fields {v : Json F} {a : ResultRecord}
    (hok : itemOr v "ok" .null = .ok (.bool a.ok))
    (hcode : itemOr v "code" .null = .ok (.str a.code.name))
    (hobject : itemOr v "object_id" .null = .ok (nullable .str a.objectId))
    (htransaction : itemOr v "transaction_id" .null = .ok (nullable .str a.transactionId))
    (hretry : itemOr v "retry_after_tick" .null = .ok (nullable natJson a.retryAfterTick)) :
    RunSummary.fmtOutcome (some v) = .ok a.outcome := by
  obtain ⟨ref, href, hshown⟩ := refOf_of_fields hobject htransaction
  rw [RunSummary.fmtOutcome, hok, ok_bind, ResultRecord.outcome]
  cases a.ok with
  | false =>
      change (itemOr v "code" .null >>= _) = _
      rw [hcode, ok_bind, RunSummary.fmtValue, ok_bind, hretry, ok_bind, isFalsy_nullable_nat,
        if_neg Bool.false_ne_true]
      cases a.retryAfterTick with
      | none => rfl
      | some n =>
          rw [Option.getD_some]
          by_cases hn : n = 0
          · rw [if_pos (beq_iff_eq.mpr hn), if_pos hn]
            rfl
          · rw [if_neg (mt beq_iff_eq.mp hn), if_neg hn]
            rfl
  | true =>
      change (RunSummary.refOf v >>= _) = _
      rw [href, ok_bind, isFalsy_nullable_str, ← hshown, if_pos rfl]
      by_cases hnone : ref.getD "" = ""
      · rw [if_pos (beq_iff_eq.mpr hnone), hnone]
        rfl
      · rw [if_neg (mt beq_iff_eq.mp hnone)]
        cases ref with
        | none => exact absurd rfl hnone
        | some ref => rfl

theorem sortKeys_nullable_str (text : Option String) :
    sortKeys (nullable .str text : Json F) = nullable .str text := by
  cases text with
  | none => rfl
  | some text => rfl

theorem sortKeys_nullable_nat (n : Option Nat) :
    sortKeys (nullable natJson n : Json F) = nullable natJson n := by
  cases n with
  | none => rfl
  | some n => rfl

/-- An entry that `command_result` names, by what it says. -/
theorem result_entry {entry : Entry F} (h : entry.record.event.name = "command_result") :
    ∃ a, entry.record.resultRecord? = some a ∧ a.Shown (entry.loaded seconds) := by
  obtain ⟨wallTime, tick, event⟩ := entry
  cases event with
  | commandResult key requestId ok code objectId transactionId retryAfterTick =>
      refine ⟨_, rfl, ⟨?_, fmtOutcome_of_fields ?_ ?_ ?_ ?_ ?_, ?_, ?_, ?_, isFalsy_sortKeys_obj _⟩⟩
      · exact item_of_get? (@get?_loaded F seconds _ "request_id" (.str requestId) rfl)
      · exact itemOr_of_get? (@get?_loaded F seconds _ "ok" (.bool ok) rfl) _
      · exact itemOr_of_get? (@get?_loaded F seconds _ "code" (.str code.name) rfl) _
      · rw [← sortKeys_nullable_str]
        exact itemOr_of_get? (@get?_loaded F seconds _ "object_id" (nullable .str objectId) rfl) _
      · rw [← sortKeys_nullable_str]
        exact itemOr_of_get?
          (@get?_loaded F seconds _ "transaction_id" (nullable .str transactionId) rfl) _
      · rw [← sortKeys_nullable_nat]
        exact itemOr_of_get?
          (@get?_loaded F seconds _ "retry_after_tick" (nullable natJson retryAfterTick) rfl) _
      · exact item_of_get? (@get?_loaded F seconds _ "ok" (.bool ok) rfl)
      · exact itemOr_of_get? (@get?_loaded F seconds _ "ok" (.bool ok) rfl) _
      · exact item_of_get? (@get?_loaded F seconds _ "code" (.str code.name) rfl)
  | _ => simp [LogEvent.name] at h

theorem resultRecord?_of_ne {x : LogRecord} (h : x.event.name ≠ "command_result") :
    x.resultRecord? = none := by
  obtain ⟨tick, event⟩ := x
  cases event with
  | commandResult => exact absurd rfl h
  | _ => rfl

theorem decisionRecord?_of_ne {x : LogRecord} (h : x.event.name ≠ "decision") :
    x.decisionRecord? = none := by
  obtain ⟨tick, event⟩ := x
  cases event with
  | decision => exact absurd rfl h
  | _ => rfl

def decisionRecords (records : List LogRecord) : List DecisionRecord :=
  records.filterMap LogRecord.decisionRecord?

def resultRecords (records : List LogRecord) : List ResultRecord :=
  records.filterMap LogRecord.resultRecord?

/-- The loaded results are those of the records, one by one. -/
theorem results_shown (entries : List (Entry F)) :
    List.Forall₂ ResultRecord.Shown (resultRecords (entries.map Entry.record))
      (summaryOf seconds entries).results :=
  shown_named (fun _ hname => result_entry hname) (fun _ hname => resultRecord?_of_ne hname) entries

/-- The dictionary of the results, with their ids. -/
theorem resultsByRequestId_of_shown {summary : RunSummary F} {results : List ResultRecord}
    (h : List.Forall₂ ResultRecord.Shown results summary.results) :
    ∃ table, summary.resultsByRequestId = .ok table ∧
      List.Forall₂ (fun (a : ResultRecord) (entry : String × Json F) =>
        entry.1 = a.requestId ∧ a.Shown entry.2) results.reverse table := by
  have hpairs : ∀ {results : List ResultRecord} {values : List (Json F)},
      List.Forall₂ ResultRecord.Shown results values →
      ∃ pairs, values.mapM (fun r => do return (← asText (← item r "request_id"), r)) =
          (.ok pairs : Except String (List (String × Json F))) ∧
        List.Forall₂ (fun (a : ResultRecord) (entry : String × Json F) =>
          entry.1 = a.requestId ∧ a.Shown entry.2) results pairs := by
    intro results values h
    induction h with
    | nil => exact ⟨[], rfl, .nil⟩
    | @cons a v results values hshown hrest ih =>
        obtain ⟨pairs, hmap, hpairs⟩ := ih
        refine ⟨(a.requestId, v) :: pairs, ?_, .cons ⟨rfl, hshown⟩ hpairs⟩
        rw [List.mapM_cons, hmap, hshown.requestId]
        rfl
  obtain ⟨pairs, hmap, hpairs⟩ := hpairs h
  refine ⟨pairs.reverse, ?_, List.forall₂_reverse_iff.mpr hpairs⟩
  rw [RunSummary.resultsByRequestId, hmap]
  rfl

/-- Looking up an id finds the result with the id, or finds none where there is none. -/
theorem lookup_of_shown {results : List ResultRecord} {table : List (String × Json F)}
    (h : List.Forall₂ (fun (a : ResultRecord) (entry : String × Json F) =>
      entry.1 = a.requestId ∧ a.Shown entry.2) results table) (id : String) :
    Option.Rel ResultRecord.Shown (results.find? fun a => a.requestId = id) (table.lookup id) := by
  induction h with
  | nil => exact .none
  | @cons a entry results table hentry hrest ih =>
      obtain ⟨key, v⟩ := entry
      obtain ⟨rfl, hshown⟩ := hentry
      by_cases hid : a.requestId = id
      · rw [List.find?_cons_of_pos (by simpa using hid), List.lookup_cons, ← hid, beq_self_eq_true]
        exact .some hshown
      · rw [List.find?_cons_of_neg (by simpa using hid), List.lookup_cons,
          beq_false_of_ne (Ne.symm hid)]
        exact ih

/-- What the page reads of a decision. -/
structure DecisionRecord.Shown (d : DecisionRecord) (v : Json F) : Prop where
  requestId : itemOr v "request_id" .null = .ok (.str d.requestId)
  sent : itemOr v "sent" .null = .ok (sortKeys d.sent.toJson)
  tick : itemOr v "tick" .null = .ok (.int d.tick)
  kind : itemOr v "kind" (.str "unknown") = .ok (.str d.kind)
  reason : itemOr v "reason" (.str "") = .ok (.str d.reason)

/-- An entry that `decision` names, by what it says. -/
theorem decision_entry {entry : Entry F} (h : entry.record.event.name = "decision") :
    ∃ d, entry.record.decisionRecord? = some d ∧ d.Shown (entry.loaded seconds) := by
  obtain ⟨wallTime, tick, event⟩ := entry
  cases event with
  | decision key kind reason requestId sent =>
      refine ⟨_, rfl, ⟨?_, ?_, ?_, ?_, ?_⟩⟩
      · exact itemOr_of_get? (@get?_loaded F seconds _ "request_id" (.str requestId) rfl) _
      · exact itemOr_of_get? (get?_loaded rfl) _
      · exact itemOr_of_get? (@get?_loaded F seconds _ "tick" (.int tick) rfl) _
      · exact itemOr_of_get? (@get?_loaded F seconds _ "kind" (.str kind) rfl) _
      · exact itemOr_of_get? (@get?_loaded F seconds _ "reason" (.str reason) rfl) _
  | _ => simp [LogEvent.name] at h

theorem decisions_shown (entries : List (Entry F)) :
    List.Forall₂ DecisionRecord.Shown (decisionRecords (entries.map Entry.record))
      (summaryOf seconds entries).decisions :=
  shown_named (fun _ hname => decision_entry hname) (fun _ hname => decisionRecord?_of_ne hname)
    entries

/-- The row of a decision whose command the client has built. -/
theorem decisionRow_shown {d : DecisionRecord} {v : Json F} (h : d.Shown v)
    (hsent : ∃ m : ClientMessage, d.sent = m.fields) {results : List ResultRecord}
    {table : List (String × Json F)}
    (htable : List.Forall₂ (fun (a : ResultRecord) (entry : String × Json F) =>
      entry.1 = a.requestId ∧ a.Shown entry.2) results table) :
    RunSummary.decisionRow table v =
      .ok (d.row (results.find? fun a => a.requestId = d.requestId)) := by
  obtain ⟨m, hm⟩ := hsent
  have hsome : isFalsy (sortKeys (d.sent.toJson : Json F)) = false := by
    cases d.sent <;> exact isFalsy_sortKeys_obj _
  have hterms : RunSummary.fmtSent (sortKeys (d.sent.toJson : Json F)) = .ok d.sent.terms := by
    rw [hm]
    exact fmtSent_fields m
  rw [RunSummary.decisionRow, h.requestId, ok_bind, RunSummary.resultOf, ok_bind, h.sent, ok_bind,
    h.tick, ok_bind, h.kind, ok_bind, h.reason, ok_bind, hterms, ok_bind, hsome,
    if_neg Bool.false_ne_true, counterparty_toJson, ok_bind]
  have hrel := lookup_of_shown htable d.requestId
  generalize (results.find? fun a => a.requestId = d.requestId) = result at hrel ⊢
  generalize table.lookup d.requestId = value at hrel ⊢
  cases hrel with
  | none => rfl
  | some hshown =>
      rw [hshown.outcome, ok_bind]
      dsimp only
      rw [hshown.some, if_neg Bool.false_ne_true, hshown.okOr]
      rfl

/-- **The decision log of the records**: each decision with the last result that has its
request id. -/
theorem decisionLog_summaryOf {entries : List (Entry F)}
    (hsent : ∀ d ∈ decisionRecords (entries.map Entry.record), ∃ m : ClientMessage,
      d.sent = m.fields) :
    (summaryOf seconds entries).decisionLog =
      .ok ((decisionRecords (entries.map Entry.record)).map fun d =>
        d.row ((resultRecords (entries.map Entry.record)).reverse.find? fun a =>
          a.requestId = d.requestId)) := by
  obtain ⟨table, hresults, htable⟩ := resultsByRequestId_of_shown (@results_shown F seconds entries)
  rw [RunSummary.decisionLog, hresults, ok_bind]
  exact mapM_of_forall₂ (decisions_shown entries) fun d hd _ hshown =>
    decisionRow_shown hshown (hsent d hd) htable

/-- The counts of the kinds are those of the decisions. -/
theorem decisionCounts_summaryOf (entries : List (Entry F)) :
    (summaryOf seconds entries).decisionCounts =
      .ok (tally ((decisionRecords (entries.map Entry.record)).map fun d => (d.kind, 1))) := by
  have hkinds : (summaryOf seconds entries).decisions.mapM (fun d => do
      return (← asText (← itemOr d "kind" (.str "unknown")), (1 : Int))) =
      (.ok ((decisionRecords (entries.map Entry.record)).map fun d => (d.kind, 1)) :
        Except String (List (String × Int))) := by
    apply mapM_of_forall₂ (decisions_shown entries)
    intro d _ v hshown
    rw [hshown.kind]
    rfl
  rw [RunSummary.decisionCounts, hkinds]
  rfl

theorem mapM_code {results : List ResultRecord} {values : List (Json F)}
    (h : List.Forall₂ ResultRecord.Shown results values) :
    values.mapM (fun r => do return (← asText (← item r "code"), (1 : Int))) =
      (.ok (results.map fun a => (a.code.name, 1)) : Except String (List (String × Int))) := by
  apply mapM_of_forall₂ h
  intro a _ v hshown
  rw [hshown.code]
  rfl

/-- The results are told apart by whether they succeeded. -/
theorem mapM_ok {results : List ResultRecord} {values : List (Json F)}
    (h : List.Forall₂ ResultRecord.Shown results values) :
    ∃ oks, values.mapM (fun r => do return (!isFalsy (← item r "ok"), r)) =
        (.ok oks : Except String (List (Bool × Json F))) ∧
      oks.map Prod.fst = results.map ResultRecord.ok ∧
      List.Forall₂ ResultRecord.Shown (results.filter fun a => !a.ok)
        ((oks.filter fun r => !r.1).map Prod.snd) := by
  induction h with
  | nil => exact ⟨[], rfl, rfl, .nil⟩
  | @cons a v results values hshown _ ih =>
      obtain ⟨oks, hmap, hfst, hfailed⟩ := ih
      refine ⟨(a.ok, v) :: oks, ?_, ?_, ?_⟩
      · rw [List.mapM_cons, hmap, hshown.ok, ok_bind, isFalsy, Bool.not_not]
        rfl
      · rw [List.map_cons, List.map_cons, hfst]
      · cases hok : a.ok with
        | false =>
            rw [List.filter_cons_of_pos (by simp [hok]), List.filter_cons_of_pos rfl]
            exact .cons hshown hfailed
        | true =>
            rw [List.filter_cons_of_neg (by simp [hok]), List.filter_cons_of_neg (by simp)]
            exact hfailed

/-- The counts on the page are those of the results. -/
theorem commandOutcomeCounts_summaryOf (entries : List (Entry F)) :
    (summaryOf seconds entries).commandOutcomeCounts =
      .ok ((resultRecords (entries.map Entry.record)).countP ResultRecord.ok,
        (resultRecords (entries.map Entry.record)).countP (fun a => !a.ok),
        tally (((resultRecords (entries.map Entry.record)).filter fun a => !a.ok).map
          fun a => (a.code.name, 1))) := by
  have hshown := @results_shown F seconds entries
  generalize resultRecords (entries.map Entry.record) = results at hshown ⊢
  obtain ⟨oks, hmap, hfst, hfailed⟩ := mapM_ok hshown
  have hlength : oks.length = results.length := by
    rw [← List.length_map Prod.fst, hfst, List.length_map]
  have hcount : oks.countP Prod.fst = results.countP ResultRecord.ok := by
    have hsame := congrArg (List.countP id) hfst
    rwa [List.countP_map, List.countP_map] at hsame
  have hrest := List.length_eq_countP_add_countP ResultRecord.ok (l := results)
  rw [RunSummary.commandOutcomeCounts, hmap, ok_bind]
  dsimp only
  rw [mapM_code hfailed, ok_bind, hcount, hlength]
  have hfailures : results.length - results.countP ResultRecord.ok =
      results.countP fun a => !a.ok := by
    simp only [Bool.not_eq_true, Bool.decide_eq_false] at hrest
    omega
  rw [hfailures]
  rfl

end Events

end PlanetCharlu
