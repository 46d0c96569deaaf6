import PlanetCharlu.LogFile
import PlanetCharlu.EndOfRun
import PlanetCharlu.SettledTrades
import PlanetCharlu.Lib.Spans
import PlanetCharlu.Lib.Tally

/-!
# The figures of the run page (`run_summary.RunSummary`)

`RunSummary` works on the dictionaries that `load_events` returns and knows nothing of
the client. It looks up keys and may raise where one is missing or a value has another
type; of numbers it is given integers only. For the events of a log that this client has
written, however much of the file there is, it does not raise, and its figures are those
of the records: the page is live until the last record of an ended run is there, the flow
of resources and the volumes of the partners are those of the trades, each counted once,
and the shortages are the maximal spans of ticks with unmet upkeep.

The gaps of the wall clock, the merged time line and the page itself are left out.
-/

namespace PlanetCharlu

open Json Runs SeenSet Spans StableSort Tally

/-! ### Loops that do not raise -/

section Loops

variable {α β γ σ : Type} {R : α → β → Prop} {xs : List α} {ys : List β}

theorem ok_bind (a : α) (f : α → Except String β) :
    ((.ok a : Except String α) >>= f) = f a := rfl

/-- A loop over values that show what is in a list. -/
theorem mapM_of_forall₂ {f : β → Except String γ} {g : α → γ} (h : List.Forall₂ R xs ys)
    (hf : ∀ a ∈ xs, ∀ b, R a b → f b = .ok (g a)) : ys.mapM f = .ok (xs.map g) := by
  induction h with
  | nil => rfl
  | @cons a b xs ys hab _ ih =>
      have hrest := ih fun a' ha' => hf a' (List.mem_cons_of_mem a ha')
      rw [List.mapM_cons, hf a List.mem_cons_self b hab, hrest]
      rfl

theorem mapM_map_ok {f : β → Except String γ} {g : α → β} {k : α → γ}
    (h : ∀ a, f (g a) = .ok (k a)) (xs : List α) : (xs.map g).mapM f = .ok (xs.map k) := by
  have hshown : List.Forall₂ (fun a b => b = g a) xs (xs.map g) :=
    List.forall₂_map_right_iff.mpr (List.forall₂_same.mpr fun _ _ => rfl)
  apply mapM_of_forall₂ hshown
  rintro a _ b rfl
  exact h a

/-- The same with a state, which is made of what was read. -/
theorem foldlM_of_forall₂ {f : σ → β → Except String σ} {state : List α → σ}
    (h : List.Forall₂ R xs ys)
    (hf : ∀ as a b, R a b → f (state as) b = .ok (state (as ++ [a]))) (as : List α) :
    ys.foldlM f (state as) = .ok (state (as ++ xs)) := by
  induction h generalizing as with
  | nil =>
      rw [List.append_nil]
      rfl
  | @cons a b xs ys hab _ ih =>
      rw [List.foldlM_cons, hf as a b hab, ok_bind, ih, List.append_assoc]
      rfl

end Loops

/-! ### Dictionaries -/

section Dictionaries

variable {F : Type}

/-- `v[key]`. -/
def item (v : Json F) (key : String) : Except String (Json F) :=
  match v with
  | .obj members =>
      match members.lookup key with
      | some w => .ok w
      | none => .error "KeyError"
  | _ => .error "TypeError"

/-- `v.get(key, default)`. -/
def itemOr (v : Json F) (key : String) (default : Json F) : Except String (Json F) :=
  match v with
  | .obj members => .ok ((members.lookup key).getD default)
  | _ => .error "AttributeError"

def asInt : Json F → Except String Int
  | .int n => .ok n
  | _ => .error "TypeError"

def asText : Json F → Except String String
  | .str s => .ok s
  | _ => .error "TypeError"

/-- The event of a record by its name, where it has one that names can equal. -/
def eventName (event : Json F) : Except String (Option String) := do
  match ← itemOr event "event" (.str "unknown") with
  | .str s => return some s
  | .arr _ => .error "TypeError"
  | .obj _ => .error "TypeError"
  | _ => return none

/-- What Python takes for false. No figure looks at a float so. -/
def isFalsy : Json F → Bool
  | .null => true
  | .bool b => !b
  | .int n => n == 0
  | .float _ => false
  | .str s => s == ""
  | .arr items => items.isEmpty
  | .obj members => members.isEmpty

/-- `event["tick"]`. -/
def tickOf (event : Json F) : Except String Int := do asInt (← item event "tick")

end Dictionaries

/-! ### The summary -/

/-- The fields of `RunSummary` that its figures use. -/
structure RunSummary (F : Type) where
  runStarts : List (Json F)
  runEnds : List (Json F)
  ticks : List (Json F)
  decisions : List (Json F)
  results : List (Json F)
  transactions : List (Json F)

/-- `RESOURCES`. -/
def resourceNames : List String := ["water", "food", "components"]

structure Flow where
  gave : Int := 0
  received : Int := 0
deriving DecidableEq, Repr

/-- The resources that a tick was short of, and the streak it was in. -/
structure ShortTick where
  resources : Finset String
  streak : Int
deriving DecidableEq

def ShortTick.join (a b : ShortTick) : ShortTick :=
  ⟨a.resources ∪ b.resources, max a.streak b.streak⟩

namespace RunSummary

variable {F : Type}

/-- `__init__`. -/
def ofEvents (events : List (Json F)) : Except String (RunSummary F) := do
  let named ← events.mapM fun event => do return (← eventName event, event)
  let byEvent := fun name : String =>
    (named.filter fun entry => entry.1 = some name).map Prod.snd
  let ticks ← sortedByM tickOf (byEvent "tick_snapshot")
  return {
    runStarts := byEvent "run_started"
    runEnds := byEvent "run_ended"
    ticks := ticks
    decisions := byEvent "decision"
    results := byEvent "command_result"
    transactions := byEvent "transaction_settled" }

def incomplete (summary : RunSummary F) : Bool := summary.runEnds.isEmpty

/-- `bundle.get(resource, 0)`. -/
def amountOf (bundle : Json F) (resource : String) : Except String Int := do
  asInt (← itemOr bundle resource (.int 0))

/-- One iteration of the loop over the transactions. -/
def addFlow (flow : List (String × Flow)) (tx : Json F) : Except String (List (String × Flow)) :=
  flow.mapM fun (resource, total) => do
    let gave ← amountOf (← item tx "we_gave") resource
    let received ← amountOf (← item tx "we_received") resource
    return (resource, ⟨total.gave + gave, total.received + received⟩)

def resourceFlow (summary : RunSummary F) : Except String (List (String × Flow)) :=
  summary.transactions.foldlM addFlow (resourceNames.map fun resource => (resource, {}))

/-- `sum(bundle.values())`. -/
def volumeOf (bundle : Json F) : Except String Int :=
  match bundle with
  | .obj members => do
      let amounts ← members.mapM fun m => asInt m.2
      return amounts.sum
  | _ => .error "AttributeError"

/-- What a transaction adds to the counter. -/
def partnerVolume (tx : Json F) : Except String (String × Int) := do
  let gave ← volumeOf (← item tx "we_gave")
  let received ← volumeOf (← item tx "we_received")
  return (← asText (← item tx "counterparty"), gave + received)

def partnerVolumes (summary : RunSummary F) : Except String (List (String × Int)) := do
  let volumes ← summary.transactions.mapM partnerVolume
  return mostCommon (tally volumes)

/-- `t.get("last_unmet_upkeep") or {}`. -/
def unmetUpkeep (t : Json F) : Except String (Json F) := do
  let unmet ← itemOr t "last_unmet_upkeep" .null
  return if isFalsy unmet then .obj [] else unmet

/-- What the loop of `shortage_periods` sees of a tick. -/
def shortagePoint (t : Json F) : Except String (Int × Option ShortTick) := do
  let tick ← tickOf t
  let unmet ← unmetUpkeep t
  let amounts ← resourceNames.mapM fun resource => do return (resource, ← amountOf unmet resource)
  let short := (amounts.filter fun amount => 0 < amount.2).map Prod.fst
  if short = [] then return (tick, none)
  else
    let streak ← asInt (← itemOr t "current_shortage_streak" (.int 0))
    return (tick, some ⟨short.toFinset, streak⟩)

def shortagePeriods (summary : RunSummary F) : Except String (List (Span ShortTick)) := do
  let points ← summary.ticks.mapM shortagePoint
  return spans ShortTick.join points

end RunSummary

/-! ### The events of a log -/

section Events

variable {F : Type} {seconds : ℚ → F}

theorem item_of_get? {v w : Json F} {key : String} (h : v.get? key = some w) :
    item v key = .ok w := by
  cases v with
  | obj members =>
      have hlookup : members.lookup key = some w := h
      rw [item, hlookup]
  | _ => cases h

theorem itemOr_of_get? {v w : Json F} {key : String} (h : v.get? key = some w)
    (default : Json F) : itemOr v key default = .ok w := by
  cases v with
  | obj members =>
      have hlookup : members.lookup key = some w := h
      rw [itemOr, hlookup]
      rfl
  | _ => cases h

theorem get?_loaded {entry : Entry F} {key : String} {v : Json F}
    (h : (entry.event seconds).get? key = some v) :
    (entry.loaded seconds).get? key = some (sortKeys v) := by
  rw [Entry.loaded, get?_sortKeys (distinct_event entry), h]
  rfl

/-- A dictionary that was loaded is as empty as the one that was written. -/
theorem isFalsy_sortKeys_obj (members : List (String × Json F)) :
    isFalsy (sortKeys (.obj members)) = members.isEmpty := by
  have hperm : (sortedBy Prod.fst (sortMembers members)).Perm (sortMembers members) :=
    List.perm_insertionSort _ _
  rw [sortKeys, isFalsy, hperm.isEmpty_eq, sortMembers_eq, List.isEmpty_map]

theorem eventName_loaded (entry : Entry F) :
    eventName (entry.loaded seconds) = .ok (some entry.record.event.name) := by
  have hname : (entry.loaded seconds).get? "event" = some (.str entry.record.event.name) :=
    @get?_loaded F seconds entry "event" (.str _) rfl
  rw [eventName, itemOr_of_get? hname]
  rfl

theorem tickOf_loaded (entry : Entry F) :
    tickOf (entry.loaded seconds) = .ok (entry.record.tick : Int) := by
  have htick : (entry.loaded seconds).get? "tick" = some (.int entry.record.tick) :=
    @get?_loaded F seconds entry "tick" (.int _) rfl
  rw [tickOf, item_of_get? htick]
  rfl

theorem itemOr_bundle (bundle : Bundle) (r : Resource) (default : Json F) :
    itemOr (sortKeys (bundleDict bundle : Json F)) r.value default =
      .ok (.int (quantity bundle r)) := by
  have hfield : (bundleDict bundle : Json F).get? r.value = some (.int (quantity bundle r)) := by
    cases r <;> rfl
  apply itemOr_of_get?
  rw [get?_sortKeys (distinct_bundleDict bundle), hfield]
  rfl

theorem amountOf_bundle (bundle : Bundle) (r : Resource) :
    RunSummary.amountOf (sortKeys (bundleDict bundle : Json F)) r.value =
      .ok (quantity bundle r : Int) := by
  rw [RunSummary.amountOf, itemOr_bundle]
  rfl

/-- The order of the keys does not matter to a sum. -/
theorem volumeOf_ints (amounts : List (String × Int)) :
    RunSummary.volumeOf (sortKeys (.obj (amounts.map fun m => (m.1, (.int m.2 : Json F))))) =
      .ok (amounts.map Prod.snd).sum := by
  have hsorted : sortedBy Prod.fst (amounts.map fun m => (m.1, (.int m.2 : Json F))) =
      (sortedBy Prod.fst amounts).map fun m => (m.1, .int m.2) := by
    symm
    apply List.map_insertionSort
    exact fun a _ b _ => Iff.rfl
  have hmembers : sortMembers (amounts.map fun m => (m.1, (.int m.2 : Json F))) =
      amounts.map fun m => (m.1, .int m.2) := by
    rw [sortMembers_eq, List.map_map]
    apply List.map_congr_left
    intro m _
    rw [Function.comp_apply, sortKeys]
    · intro members hmembers
      cases hmembers
    · intro items hitems
      cases hitems
  have hints : ∀ xs : List (String × Int),
      (xs.map fun m => (m.1, (.int m.2 : Json F))).mapM (fun m => asInt m.2) =
        (.ok (xs.map Prod.snd) : Except String (List Int)) :=
    mapM_map_ok fun _ => rfl
  have hperm : (sortedBy Prod.fst amounts).Perm amounts := List.perm_insertionSort _ amounts
  rw [sortKeys, hmembers, hsorted, RunSummary.volumeOf, hints, ← (hperm.map Prod.snd).sum_eq]
  rfl

theorem volumeOf_bundle (bundle : Bundle) :
    RunSummary.volumeOf (sortKeys (bundleDict bundle : Json F)) = .ok (units bundle : Int) := by
  have hsum := @volumeOf_ints F [("water", bundle.water), ("food", bundle.food),
    ("components", bundle.components)]
  rw [bundleDict]
  refine hsum.trans ?_
  simp [units, RESOURCES, quantity]

/-- The entries with an event of one name. -/
def named (name : String) (entries : List (Entry F)) : List (Entry F) :=
  entries.filter fun entry => entry.record.event.name = name

theorem sortedByM_map {α β : Type} {key : β → Except String Int} {f : α → β} {k : α → Int}
    (h : ∀ a, key (f a) = .ok (k a)) (xs : List α) :
    sortedByM key (xs.map f) = .ok ((sortedBy k xs).map f) := by
  have hkeyed : (xs.map f).mapM (fun x => do return (← key x, x)) =
      (.ok (xs.map fun a => (k a, f a)) : Except String (List (Int × β))) := by
    refine mapM_map_ok ?_ xs
    intro a
    rw [h a]
    rfl
  have hsorted : sortedBy Prod.fst (xs.map fun a => (k a, f a)) =
      (sortedBy k xs).map fun a => (k a, f a) := by
    symm
    apply List.map_insertionSort
    exact fun a _ b _ => Iff.rfl
  rw [sortedByM, hkeyed]
  change Except.ok ((sortedBy Prod.fst (xs.map fun a => (k a, f a))).map Prod.snd) = _
  rw [hsorted, List.map_map]
  rfl

/-- The summary of the entries. -/
def summaryOf (seconds : ℚ → F) (entries : List (Entry F)) : RunSummary F where
  runStarts := (named "run_started" entries).map (Entry.loaded seconds)
  runEnds := (named "run_ended" entries).map (Entry.loaded seconds)
  ticks := (sortedBy (fun entry => (entry.record.tick : Int)) (named "tick_snapshot" entries)).map
    (Entry.loaded seconds)
  decisions := (named "decision" entries).map (Entry.loaded seconds)
  results := (named "command_result" entries).map (Entry.loaded seconds)
  transactions := (named "transaction_settled" entries).map (Entry.loaded seconds)

/-- **A log of the client has a summary.** -/
theorem ofEvents_loaded (entries : List (Entry F)) :
    RunSummary.ofEvents (entries.map (Entry.loaded seconds)) = .ok (summaryOf seconds entries) := by
  have hnamed : (entries.map (Entry.loaded seconds)).mapM
      (fun event => do return (← eventName event, event)) =
      (.ok (entries.map fun entry => (some entry.record.event.name, entry.loaded seconds)) :
        Except String (List (Option String × Json F))) := by
    refine mapM_map_ok ?_ entries
    intro entry
    rw [eventName_loaded]
    rfl
  have hfilter : ∀ name, (((entries.map fun entry =>
      (some entry.record.event.name, entry.loaded seconds)).filter
        fun entry => entry.1 = some name).map Prod.snd) =
      (named name entries).map (Entry.loaded seconds) := by
    intro name
    rw [List.filter_map, List.map_map, named]
    congr 1
    apply List.filter_congr
    intro entry _
    simp
  rw [RunSummary.ofEvents, hnamed]
  simp only [bind, Except.bind, hfilter, sortedByM_map tickOf_loaded]
  rfl

/-- What a reading of the records finds is shown by the loaded entries of the name, one by
one. -/
theorem shown_named {α : Type} {name : String} {read : LogRecord → Option α}
    {R : α → Json F → Prop}
    (hnamed : ∀ entry : Entry F, entry.record.event.name = name →
      ∃ a, read entry.record = some a ∧ R a (entry.loaded seconds))
    (hother : ∀ x : LogRecord, x.event.name ≠ name → read x = none) (entries : List (Entry F)) :
    List.Forall₂ R ((entries.map Entry.record).filterMap read)
      ((named name entries).map (Entry.loaded seconds)) := by
  induction entries with
  | nil => exact .nil
  | cons entry rest ih =>
      by_cases hname : entry.record.event.name = name
      · obtain ⟨a, ha, hshown⟩ := hnamed entry hname
        rw [List.map_cons, List.filterMap_cons_some ha, named,
          List.filter_cons_of_pos (by simpa using hname), List.map_cons]
        exact .cons hshown ih
      · rw [List.map_cons, List.filterMap_cons_none (hother _ hname), named,
          List.filter_cons_of_neg (by simpa using hname)]
        exact ih

/-! ### Trades -/

/-- What a record of a settled transaction says: who with, what we gave and received. -/
structure Settlement where
  counterparty : String
  weGave : Bundle
  weReceived : Bundle
deriving DecidableEq, Repr

def LogEvent.settlement? : LogEvent → Option Settlement
  | .transactionSettled _ _ counterparty weGave weReceived => some ⟨counterparty, weGave, weReceived⟩
  | _ => none

def settlements (records : List LogRecord) : List Settlement :=
  records.filterMap fun record => record.event.settlement?

/-- The flow of a resource, added up. -/
def flowOf (ss : List Settlement) (r : Resource) : Flow where
  gave := (ss.map fun s => (quantity s.weGave r : Int)).sum
  received := (ss.map fun s => (quantity s.weReceived r : Int)).sum

def flows (ss : List Settlement) : List (String × Flow) :=
  RESOURCES.map fun r => (r.value, flowOf ss r)

/-- What went through our hands in one trade. -/
def Settlement.volume (s : Settlement) : Int := units s.weGave + units s.weReceived

/-- What the page reads of a settlement. -/
structure Settlement.Shown (s : Settlement) (v : Json F) : Prop where
  weGave : item v "we_gave" = .ok (sortKeys (bundleDict s.weGave))
  weReceived : item v "we_received" = .ok (sortKeys (bundleDict s.weReceived))
  counterparty : item v "counterparty" = .ok (.str s.counterparty)

/-- An entry that `transaction_settled` names, by what it says. -/
theorem settled_entry {entry : Entry F} (h : entry.record.event.name = "transaction_settled") :
    ∃ s, entry.record.event.settlement? = some s ∧ s.Shown (entry.loaded seconds) := by
  obtain ⟨wallTime, tick, event⟩ := entry
  cases event with
  | transactionSettled transactionId offerId counterparty weGave weReceived =>
      refine ⟨_, rfl, ⟨?_, ?_, ?_⟩⟩
      · exact item_of_get? (get?_loaded rfl)
      · exact item_of_get? (get?_loaded rfl)
      · exact item_of_get? (@get?_loaded F seconds _ "counterparty" (.str counterparty) rfl)
  | _ => simp [LogEvent.name] at h

theorem settlement?_of_ne {event : LogEvent} (h : event.name ≠ "transaction_settled") :
    event.settlement? = none := by
  cases event with
  | transactionSettled => exact absurd rfl h
  | _ => rfl

theorem settlements_shown (entries : List (Entry F)) :
    List.Forall₂ Settlement.Shown (settlements (entries.map Entry.record))
      (summaryOf seconds entries).transactions :=
  shown_named (fun _ hname => settled_entry hname) (fun _ hname => settlement?_of_ne hname) entries

theorem addFlow_shown {s : Settlement} {v : Json F} (h : s.Shown v) (ss : List Settlement) :
    RunSummary.addFlow (flows ss) v = .ok (flows (ss ++ [s])) := by
  have hone : ∀ r, (⟨(flowOf ss r).gave + quantity s.weGave r,
      (flowOf ss r).received + quantity s.weReceived r⟩ : Flow) = flowOf (ss ++ [s]) r := by
    intro r
    simp [flowOf]
  have hall : (RESOURCES.map fun r => (r.value, flowOf ss r)).mapM (fun (resource, total) => do
      let gave ← RunSummary.amountOf (← item v "we_gave") resource
      let received ← RunSummary.amountOf (← item v "we_received") resource
      return (resource, (⟨total.gave + gave, total.received + received⟩ : Flow))) =
      (.ok (flows (ss ++ [s])) : Except String (List (String × Flow))) := by
    refine mapM_map_ok ?_ RESOURCES
    intro r
    rw [h.weGave, h.weReceived]
    simp only [bind, Except.bind, amountOf_bundle, hone]
    rfl
  exact hall

/-- **The flow on the page is the sum of the settled transactions.** -/
theorem resourceFlow_summaryOf (entries : List (Entry F)) :
    (summaryOf seconds entries).resourceFlow = .ok (flows (settlements (entries.map Entry.record))) := by
  have hloop := foldlM_of_forall₂ (@settlements_shown F seconds entries)
    fun ss _ _ hshown => addFlow_shown hshown ss
  exact hloop []

theorem partnerVolume_shown {s : Settlement} {v : Json F} (h : s.Shown v) :
    RunSummary.partnerVolume v = .ok (s.counterparty, s.volume) := by
  simp only [RunSummary.partnerVolume, h.weGave, h.weReceived, h.counterparty, volumeOf_bundle,
    bind, Except.bind]
  rfl

/-- The partners on the page, by what they traded with us. -/
def partnersOf (ss : List Settlement) : List (String × Int) :=
  mostCommon (tally (ss.map fun s => (s.counterparty, s.volume)))

theorem partnerVolumes_summaryOf (entries : List (Entry F)) :
    (summaryOf seconds entries).partnerVolumes =
      .ok (partnersOf (settlements (entries.map Entry.record))) := by
  have hloop := mapM_of_forall₂ (@settlements_shown F seconds entries)
    fun _ _ _ hshown => partnerVolume_shown hshown
  rw [RunSummary.partnerVolumes, hloop]
  rfl

/-- **The volumes of the partners**: each partner once, with all that was traded with it,
and together all that went through our hands. -/
theorem counts_partnersOf (ss : List Settlement) :
    Counts (ss.map fun s => (s.counterparty, s.volume)) (partnersOf ss) :=
  (counts_tally _).mostCommon

theorem sum_flows (ss : List Settlement) :
    ((flows ss).map fun flow => flow.2.gave + flow.2.received).sum =
      (ss.map Settlement.volume).sum := by
  induction ss with
  | nil => rfl
  | cons s rest ih =>
      simp only [flows, flowOf, Settlement.volume, units, RESOURCES, List.map_cons,
        List.map_nil, List.sum_cons, List.sum_nil, Nat.cast_add, Nat.cast_zero] at ih ⊢
      linarith

/-- The two figures agree. -/
theorem total_partnersOf (ss : List Settlement) :
    total (partnersOf ss) = ((flows ss).map fun flow => flow.2.gave + flow.2.received).sum := by
  rw [(counts_partnersOf ss).sum_eq, sum_flows, total, List.map_map]
  rfl

/-! ### Shortages -/

/-- What a tick was short of. -/
def shortageOf (unmet : Bundle) (streak : Nat) : Option ShortTick :=
  let short := RESOURCES.filter fun r => 0 < quantity unmet r
  if short = [] then none else some ⟨(short.map Resource.value).toFinset, streak⟩

def LogRecord.shortagePoint? (x : LogRecord) : Option (Int × Option ShortTick) :=
  match x.event with
  | .tickSnapshot _ _ _ _ _ lastUnmetUpkeep currentShortageStreak _ _ _ _ _ =>
      some (x.tick, shortageOf lastUnmetUpkeep currentShortageStreak)
  | _ => none

def shortagePoints (records : List LogRecord) : List (Int × Option ShortTick) :=
  records.filterMap LogRecord.shortagePoint?

/-- An entry that `tick_snapshot` names, by what it says of shortages. -/
theorem snapshot_entry {entry : Entry F} (h : entry.record.event.name = "tick_snapshot") :
    ∃ unmet, ∃ streak : Nat,
      entry.record.shortagePoint? = some ((entry.record.tick : Int), shortageOf unmet streak) ∧
      itemOr (entry.loaded seconds) "last_unmet_upkeep" .null = .ok (sortKeys (bundleDict unmet)) ∧
      itemOr (entry.loaded seconds) "current_shortage_streak" (.int 0) = .ok (.int streak) := by
  obtain ⟨wallTime, tick, event⟩ := entry
  cases event with
  | tickSnapshot phase tickDurationMs health inventory lastProduction lastUnmetUpkeep
      currentShortageStreak =>
      refine ⟨_, _, rfl, ?_, ?_⟩
      · exact itemOr_of_get? (get?_loaded rfl) _
      · exact itemOr_of_get?
          (@get?_loaded F seconds _ "current_shortage_streak" (.int currentShortageStreak) rfl) _
  | _ => simp [LogEvent.name] at h

theorem shortagePoint_loaded {entry : Entry F} (h : entry.record.event.name = "tick_snapshot") :
    ∃ point, entry.record.shortagePoint? = some point ∧
      RunSummary.shortagePoint (entry.loaded seconds) = .ok point := by
  obtain ⟨unmet, streak, hpoint, hunmet, hstreak⟩ := @snapshot_entry F seconds entry h
  refine ⟨_, hpoint, ?_⟩
  have hsome : RunSummary.unmetUpkeep (entry.loaded seconds) =
      .ok (sortKeys (bundleDict unmet)) := by
    rw [RunSummary.unmetUpkeep, hunmet, ok_bind, bundleDict, isFalsy_sortKeys_obj]
    rfl
  have hamounts : (RESOURCES.map Resource.value).mapM (fun resource => do
      return (resource, ← RunSummary.amountOf (sortKeys (bundleDict unmet : Json F)) resource)) =
      (.ok (RESOURCES.map fun r => (r.value, (quantity unmet r : Int))) :
        Except String (List (String × Int))) := by
    refine mapM_map_ok ?_ RESOURCES
    intro r
    rw [amountOf_bundle]
    rfl
  have hshort : ((RESOURCES.map fun r => (r.value, (quantity unmet r : Int))).filter
      fun amount => 0 < amount.2).map Prod.fst =
        (RESOURCES.filter fun r => 0 < quantity unmet r).map Resource.value := by
    rw [List.filter_map, List.map_map]
    simp only [Function.comp_def, Nat.cast_pos]
  have hnames : resourceNames = RESOURCES.map Resource.value := rfl
  rw [RunSummary.shortagePoint, tickOf_loaded, hsome, hnames]
  simp only [ok_bind, hamounts, hshort, shortageOf, hstreak]
  by_cases hnone : (RESOURCES.filter fun r => 0 < quantity unmet r) = []
  · rw [hnone]
    rfl
  · rw [if_neg hnone, if_neg (mt List.map_eq_nil_iff.mp hnone)]
    rfl

theorem shortagePoint?_fst {x : LogRecord} {point : Int × Option ShortTick}
    (h : x.shortagePoint? = some point) : point.1 = x.tick := by
  unfold LogRecord.shortagePoint? at h
  split at h
  · cases h
    rfl
  · cases h

theorem shortagePoint?_of_ne {x : LogRecord} (h : x.event.name ≠ "tick_snapshot") :
    x.shortagePoint? = none := by
  obtain ⟨tick, event⟩ := x
  cases event with
  | tickSnapshot => exact absurd rfl h
  | _ => rfl

/-- Only the records of snapshots have points. -/
theorem shortagePoints_named (entries : List (Entry F)) :
    shortagePoints ((named "tick_snapshot" entries).map Entry.record) =
      shortagePoints (entries.map Entry.record) := by
  induction entries with
  | nil => rfl
  | cons entry rest ih =>
      unfold shortagePoints at ih ⊢
      by_cases hname : entry.record.event.name = "tick_snapshot"
      · rw [named, List.filter_cons_of_pos (by simpa using hname), List.map_cons, List.map_cons,
          List.filterMap_cons, List.filterMap_cons]
        rw [named] at ih
        rw [ih]
      · rw [named, List.filter_cons_of_neg (by simpa using hname), List.map_cons,
          List.filterMap_cons_none (shortagePoint?_of_ne hname)]
        exact ih

theorem mapM_shortagePoint (entries : List (Entry F)) :
    ((named "tick_snapshot" entries).map (Entry.loaded seconds)).mapM RunSummary.shortagePoint =
      .ok (shortagePoints (entries.map Entry.record)) := by
  have hshown := shown_named (R := fun point v => RunSummary.shortagePoint v = .ok point)
    (fun _ hname => @shortagePoint_loaded F seconds _ hname)
    (fun _ hname => shortagePoint?_of_ne hname) entries
  have hpoints := mapM_of_forall₂ hshown fun _ _ _ hpoint => hpoint
  rw [hpoints, List.map_id']
  rfl

/-- The periods are the maximal spans of short ticks; each tells all that was short in it
and the longest streak. -/
structure TellsShortages (points : List (Int × Option ShortTick))
    (periods : List (Span ShortTick)) : Prop where
  maximal : Maximal points periods
  resources : ∀ s ∈ periods, ∀ name, name ∈ s.data.resources ↔
    ∃ t short, (t, some short) ∈ points ∧ s.Contains t ∧ name ∈ short.resources
  streak : ∀ s ∈ periods, ∀ n : Int, n ≤ s.data.streak ↔
    ∃ t short, (t, some short) ∈ points ∧ s.Contains t ∧ n ≤ short.streak

theorem tellsShortages_spans {points : List (Int × Option ShortTick)}
    (hsorted : points.Pairwise fun x y => x.1 < y.1) :
    TellsShortages points (spans ShortTick.join points) where
  maximal := maximal_spans hsorted
  resources s hs name := by
    have hjoin : ∀ a b : ShortTick, name ∈ (a.join b).resources ↔
        name ∈ a.resources ∨ name ∈ b.resources := fun _ _ => Finset.mem_union
    exact @data_spans _ _ (fun short => name ∈ short.resources) _ hjoin hsorted s hs
  streak s hs n := by
    have hjoin : ∀ a b : ShortTick, n ≤ (a.join b).streak ↔ n ≤ a.streak ∨ n ≤ b.streak :=
      fun _ _ => le_max_iff
    exact @data_spans _ _ (fun short => n ≤ short.streak) _ hjoin hsorted s hs

/-- Only what the points are matters, not their order. -/
theorem TellsShortages.perm {points points' : List (Int × Option ShortTick)}
    {periods : List (Span ShortTick)} (h : TellsShortages points periods)
    (hperm : points.Perm points') : TellsShortages points' periods where
  maximal := ⟨fun t => by simpa only [Marked, hperm.mem_iff] using h.maximal.covers t,
    h.maximal.nonempty, h.maximal.apart⟩
  resources := by simpa only [hperm.mem_iff] using h.resources
  streak := by simpa only [hperm.mem_iff] using h.streak

/-- **The shortages on the page are the maximal ones of the log**, where no tick has two
snapshots. -/
theorem shortagePeriods_summaryOf {entries : List (Entry F)}
    (hnodup : ((shortagePoints (entries.map Entry.record)).map Prod.fst).Nodup) :
    ∃ periods, (summaryOf seconds entries).shortagePeriods = .ok periods ∧
      TellsShortages (shortagePoints (entries.map Entry.record)) periods := by
  have hperm := List.perm_insertionSort (fun a b : Entry F => (a.record.tick : Int) ≤ b.record.tick)
    (named "tick_snapshot" entries)
  have hsorted := pairwise_sortedBy (fun entry : Entry F => (entry.record.tick : Int))
    (named "tick_snapshot" entries)
  change (sortedBy (fun entry : Entry F => (entry.record.tick : Int)) _).Perm _ at hperm
  rw [RunSummary.shortagePeriods, summaryOf]
  dsimp only
  generalize sortedBy (fun entry : Entry F => (entry.record.tick : Int))
    (named "tick_snapshot" entries) = snapshots at hperm hsorted ⊢
  have hall : named "tick_snapshot" snapshots = snapshots := by
    apply List.filter_eq_self.mpr
    intro entry hentry
    exact (List.mem_filter.mp (hperm.mem_iff.mp hentry)).2
  -- the page sorts the snapshots: these are the points of the log, in order
  have hpoints : (shortagePoints (snapshots.map Entry.record)).Perm
      (shortagePoints (entries.map Entry.record)) := by
    rw [← shortagePoints_named entries]
    exact (hperm.map _).filterMap _
  have hle : (shortagePoints (snapshots.map Entry.record)).Pairwise fun x y => x.1 ≤ y.1 := by
    unfold shortagePoints
    rw [List.pairwise_filterMap, List.pairwise_map]
    refine hsorted.imp ?_
    intro a b hab x hx y hy
    rw [shortagePoint?_fst hx, shortagePoint?_fst hy]
    exact hab
  have hne : (shortagePoints (snapshots.map Entry.record)).Pairwise fun x y => x.1 ≠ y.1 :=
    List.pairwise_map.mp ((hpoints.map Prod.fst).nodup_iff.mpr hnodup)
  have hlt := (hle.and hne).imp fun h => lt_of_le_of_ne h.1 h.2
  rw [← hall, mapM_shortagePoint]
  exact ⟨_, rfl, (tellsShortages_spans hlt).perm hpoints⟩

end Events

end PlanetCharlu
