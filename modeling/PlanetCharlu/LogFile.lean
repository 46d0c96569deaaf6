import PlanetCharlu.LoggedRunner
import PlanetCharlu.Bazaar
import PlanetCharlu.Lib.Json
import PlanetCharlu.Lib.LineLog

/-!
# The file of the run log (`structured_log.py`, `spbazaar_runlog`)

`RunLog.write` puts every record into the file as one JSON dictionary on a line of its
own and flushes it; `load_events` goes through the file line by line and passes over what
it cannot read. A process that is killed leaves a beginning of the file. The records whose
lines were written whole are loaded from it, in their order and as they were, and nothing
else is.

The file is ASCII, so its bytes are its characters. Floats are a parameter, the wall time
of a record is one, and `seconds` makes one of the exact number that stands for a time in
the model.
-/

namespace PlanetCharlu

open Json

/-! ### Records as dictionaries -/

/-- `code_name`: the name of the value in the enumeration. -/
def ResultCode.name : ResultCode → String
  | .OK => "RESULT_CODE_OK"
  | .REQUEST_ID_CONFLICT => "RESULT_CODE_REQUEST_ID_CONFLICT"
  | .RUN_NOT_RUNNING => "RESULT_CODE_RUN_NOT_RUNNING"
  | .RATE_LIMITED => "RESULT_CODE_RATE_LIMITED"
  | .INVALID_ARGUMENT => "RESULT_CODE_INVALID_ARGUMENT"
  | .NOT_FOUND => "RESULT_CODE_NOT_FOUND"
  | .EXPIRED => "RESULT_CODE_EXPIRED"
  | .NOT_OPEN => "RESULT_CODE_NOT_OPEN"
  | .LIMIT_REACHED => "RESULT_CODE_LIMIT_REACHED"
  | .INSUFFICIENT_RESOURCES => "RESULT_CODE_INSUFFICIENT_RESOURCES"
  | .STATION_FAILED => "RESULT_CODE_STATION_FAILED"

section Dictionaries

variable {F : Type}

def natJson (n : Nat) : Json F := .int n

/-- `None` is `null`. -/
def nullable {α : Type} (toJson : α → Json F) : Option α → Json F
  | none => .null
  | some a => toJson a

def texts (items : List String) : Json F := .arr (items.map .str)

/-- `_bundle_dict`. -/
def bundleDict (bundle : Bundle) : Json F :=
  .obj [("water", natJson bundle.water), ("food", natJson bundle.food),
    ("components", natJson bundle.components)]

/-- `_message_fields`. -/
def SentFields.toJson : SentFields → Json F
  | .offer recipientId give receive expiresTick =>
      .obj [("command", .str "offer"), ("recipient_id", .str recipientId), ("give", bundleDict give),
        ("receive", bundleDict receive), ("expires_tick", natJson expiresTick)]
  | .accept offerId => .obj [("command", .str "accept"), ("offer_id", .str offerId)]
  | .withdraw objectId => .obj [("command", .str "withdraw"), ("object_id", .str objectId)]
  | .advertise selling seeking expiresTick =>
      .obj [("command", .str "advertise"), ("selling", texts selling), ("seeking", texts seeking),
        ("expires_tick", natJson expiresTick)]
  | .other command => .obj [("command", .str command)]

/-- `describe` of `offers_snapshot`. -/
def OpenTerms.toJson (terms : OpenTerms) : Json F :=
  .obj [("offer_id", .str terms.offerId), ("counterparty", .str terms.counterparty),
    ("we_give", bundleDict terms.weGive), ("we_receive", bundleDict terms.weReceive),
    ("expires_tick", natJson terms.expiresTick)]

/-- The first argument of `_write`. -/
def LogEvent.name : LogEvent → String
  | .runStarted .. => "run_started"
  | .tickSnapshot .. => "tick_snapshot"
  | .offersOpen .. => "offers_open"
  | .offerPassed .. => "offer_passed"
  | .decision .. => "decision"
  | .commandResult .. => "command_result"
  | .transactionSettled .. => "transaction_settled"
  | .tradeTiming .. => "trade_timing"
  | .runEnded .. => "run_ended"

/-- The fields that the methods of `RunLog` give to `_write`. -/
def LogEvent.fields (seconds : ℚ → F) : LogEvent → List (String × Json F)
  | .runStarted runId mode selfStationId specialty durationTicks tickDurationMs
      maxRequestRecordsPerStation startingInventory upkeepPerTick =>
      [("run_id", .str runId), ("mode", .str mode), ("self_station_id", .str selfStationId),
        ("specialty", .str specialty), ("duration_ticks", natJson durationTicks),
        ("tick_duration_ms", natJson tickDurationMs),
        ("max_request_records_per_station", natJson maxRequestRecordsPerStation),
        ("starting_inventory", bundleDict startingInventory),
        ("upkeep_per_tick", bundleDict upkeepPerTick)]
  | .tickSnapshot phase tickDurationMs health inventory lastProduction lastUnmetUpkeep
      currentShortageStreak openOffersFromMe openOffersToMe activeAdvertisements budgetUsed
      budgetMax =>
      [("phase", natJson phase.number), ("tick_duration_ms", natJson tickDurationMs),
        ("health", natJson health), ("inventory", bundleDict inventory),
        ("last_production", bundleDict lastProduction),
        ("last_unmet_upkeep", bundleDict lastUnmetUpkeep),
        ("current_shortage_streak", natJson currentShortageStreak),
        ("open_offers_from_me", natJson openOffersFromMe),
        ("open_offers_to_me", natJson openOffersToMe),
        ("active_advertisements", natJson activeAdvertisements),
        ("budget_used", natJson budgetUsed), ("budget_max", natJson budgetMax)]
  | .offersOpen outgoing incoming =>
      [("outgoing", .arr (outgoing.map OpenTerms.toJson)),
        ("incoming", .arr (incoming.map OpenTerms.toJson))]
  | .offerPassed offerId counterparty weWouldGive weWouldReceive reason =>
      [("offer_id", .str offerId), ("counterparty", .str counterparty),
        ("we_would_give", bundleDict weWouldGive), ("we_would_receive", bundleDict weWouldReceive),
        ("reason", .str reason)]
  | .decision key kind reason requestId sent =>
      [("key", .str key), ("kind", .str kind), ("reason", .str reason),
        ("request_id", .str requestId), ("sent", sent.toJson)]
  | .commandResult key requestId ok code objectId transactionId retryAfterTick =>
      [("key", .str key), ("request_id", .str requestId), ("ok", .bool ok),
        ("code", .str code.name), ("object_id", nullable .str objectId),
        ("transaction_id", nullable .str transactionId),
        ("retry_after_tick", nullable natJson retryAfterTick)]
  | .transactionSettled transactionId offerId counterparty weGave weReceived =>
      [("transaction_id", .str transactionId), ("offer_id", .str offerId),
        ("counterparty", .str counterparty), ("we_gave", bundleDict weGave),
        ("we_received", bundleDict weReceived)]
  | .tradeTiming requestId elapsedSeconds tickDurationMs reserveTicks targetTicks =>
      [("request_id", .str requestId), ("elapsed_seconds", .float (seconds elapsedSeconds)),
        ("tick_duration_ms", natJson tickDurationMs), ("reserve_ticks", natJson reserveTicks),
        ("target_ticks", natJson targetTicks)]
  | .runEnded reason phase health failedOnce finalInventory transactionCount =>
      [("reason", .str reason), ("phase", natJson phase.number), ("health", natJson health),
        ("failed_once", .bool failedOnce), ("final_inventory", bundleDict finalInventory),
        ("transaction_count", natJson transactionCount)]

/-- `reserved`: the keys of the envelope. -/
def reserved : List String := ["schema_version", "event", "wall_time", "tick"]

/-- The record that `write` puts into the file. It raises where a field would override the
envelope. -/
def record (event : String) (wallTime : F) (tick : Nat) (fields : List (String × Json F)) :
    Option (Json F) :=
  if fields.any (fun field => field.1 ∈ reserved) then none
  else
    some (.obj ([("schema_version", .int 1), ("event", .str event), ("wall_time", .float wallTime),
      ("tick", natJson tick)] ++ fields))

/-- A record of the log with the time at which it was written. -/
structure Entry (F : Type) where
  wallTime : F
  record : LogRecord

/-- The dictionary of an entry. -/
def Entry.event (seconds : ℚ → F) (entry : Entry F) : Json F :=
  .obj ([("schema_version", .int 1), ("event", .str entry.record.event.name),
    ("wall_time", .float entry.wallTime), ("tick", natJson entry.record.tick)] ++
      entry.record.event.fields seconds)

variable {seconds : ℚ → F}

/-- **No record of the client overrides the envelope**: `write` never raises for one. -/
theorem record_event (entry : Entry F) :
    record entry.record.event.name entry.wallTime entry.record.tick
      (entry.record.event.fields seconds) = some (entry.event seconds) := by
  have hfree : (entry.record.event.fields seconds).any (fun field => field.1 ∈ reserved) = false := by
    cases entry.record.event <;> rfl
  rw [record, hfree]
  rfl

theorem distinct_obj {members : List (String × Json F)}
    (hkeys : decide (members.map Prod.fst).Nodup = true)
    (h : members.Forall fun m => m.2.Distinct) : (Json.obj members).Distinct :=
  .obj (of_decide_eq_true hkeys) (List.forall_iff_forall_mem.mp h)

theorem distinct_bundleDict (bundle : Bundle) : (bundleDict bundle : Json F).Distinct :=
  distinct_obj rfl ⟨.int _, .int _, .int _⟩

theorem distinct_texts (items : List String) : (texts items : Json F).Distinct := by
  apply Distinct.arr
  intro v hv
  obtain ⟨s, -, rfl⟩ := List.mem_map.mp hv
  exact .str s

theorem distinct_sentFields (sent : SentFields) : (sent.toJson : Json F).Distinct := by
  cases sent with
  | offer recipientId give receive expiresTick =>
      exact distinct_obj rfl
        ⟨.str _, .str _, distinct_bundleDict _, distinct_bundleDict _, .int _⟩
  | accept offerId => exact distinct_obj rfl ⟨.str _, .str _⟩
  | withdraw objectId => exact distinct_obj rfl ⟨.str _, .str _⟩
  | advertise selling seeking expiresTick =>
      exact distinct_obj rfl ⟨.str _, distinct_texts _, distinct_texts _, .int _⟩
  | other command => exact distinct_obj rfl (.str _)

theorem distinct_openTerms (items : List OpenTerms) :
    (Json.arr (items.map OpenTerms.toJson) : Json F).Distinct := by
  apply Distinct.arr
  intro v hv
  obtain ⟨terms, -, rfl⟩ := List.mem_map.mp hv
  exact distinct_obj rfl
    ⟨.str _, .str _, distinct_bundleDict _, distinct_bundleDict _, .int _⟩

theorem distinct_nullable {α : Type} {toJson : α → Json F} (h : ∀ a, (toJson a).Distinct)
    (value : Option α) : (nullable toJson value).Distinct := by
  cases value with
  | none => exact .null
  | some a => exact h a

/-- **No dictionary of the file has a key twice.** -/
theorem distinct_event (entry : Entry F) : (entry.event seconds).Distinct := by
  obtain ⟨wallTime, tick, event⟩ := entry
  cases event with
  | runStarted =>
      exact distinct_obj rfl ⟨.int _, .str _, .float _, .int _, .str _, .str _, .str _, .str _,
        .int _, .int _, .int _, distinct_bundleDict _, distinct_bundleDict _⟩
  | tickSnapshot =>
      exact distinct_obj rfl ⟨.int _, .str _, .float _, .int _, .int _, .int _, .int _,
        distinct_bundleDict _, distinct_bundleDict _, distinct_bundleDict _, .int _, .int _, .int _,
        .int _, .int _, .int _⟩
  | offersOpen =>
      exact distinct_obj rfl ⟨.int _, .str _, .float _, .int _, distinct_openTerms _,
        distinct_openTerms _⟩
  | offerPassed =>
      exact distinct_obj rfl ⟨.int _, .str _, .float _, .int _, .str _, .str _,
        distinct_bundleDict _, distinct_bundleDict _, .str _⟩
  | decision =>
      exact distinct_obj rfl ⟨.int _, .str _, .float _, .int _, .str _, .str _, .str _,
        .str _, distinct_sentFields _⟩
  | commandResult =>
      exact distinct_obj rfl ⟨.int _, .str _, .float _, .int _, .str _, .str _, .bool _,
        .str _, distinct_nullable .str _, distinct_nullable .str _,
        @distinct_nullable F Nat natJson (fun n => .int n) _⟩
  | transactionSettled =>
      exact distinct_obj rfl ⟨.int _, .str _, .float _, .int _, .str _, .str _, .str _,
        distinct_bundleDict _, distinct_bundleDict _⟩
  | tradeTiming =>
      exact distinct_obj rfl ⟨.int _, .str _, .float _, .int _, .str _, .float _, .int _,
        .int _, .int _⟩
  | runEnded =>
      exact distinct_obj rfl ⟨.int _, .str _, .float _, .int _, .str _, .int _, .int _,
        .bool _, distinct_bundleDict _, .int _⟩

end Dictionaries

/-! ### Writing and loading the file -/

section File

variable {F : Type} (floats : Floats F) (seconds : ℚ → F)

/-- The line that `write` adds to the file, without its end. -/
def Entry.line (entry : Entry F) : List Char := dumps floats (entry.event seconds)

/-- What `write` has put into the file for the entries. -/
def fileText (entries : List (Entry F)) : List Char :=
  LineLog.file '\n' (Entry.line floats seconds) entries

/-- Text files are read with one kind of line end. -/
def universalNewlines : List Char → List Char
  | [] => []
  | '\r' :: '\n' :: rest => '\n' :: universalNewlines rest
  | '\r' :: rest => '\n' :: universalNewlines rest
  | c :: rest => c :: universalNewlines rest

/-- `str.isspace` of one character. -/
def isSpace (c : Char) : Bool :=
  let n := c.toNat
  (0x9 ≤ n && n ≤ 0xd) || (0x1c ≤ n && n ≤ 0x20) || n == 0x85 || n == 0xa0 || n == 0x1680 ||
    (0x2000 ≤ n && n ≤ 0x200a) || n == 0x2028 || n == 0x2029 || n == 0x202f || n == 0x205f ||
    n == 0x3000

def strip (text : List Char) : List Char := (text.dropWhile isSpace).rdropWhile isSpace

/-- The body of the loop of `load_events`: blank lines and lines that are no JSON are
skipped. -/
def loadLine (line : List Char) : Option (Json F) :=
  let line := strip line
  if line = [] then none else loads floats line

/-- `load_events`. A last line without an end is a line. -/
def loadEvents (text : List Char) : List (Json F) :=
  LineLog.load '\n' (loadLine floats) (universalNewlines text)

variable {floats seconds}

theorem printable_line (entry : Entry F) : ∀ c ∈ entry.line floats seconds, Printable c :=
  printable_text _

/-- A line begins and ends with a brace. -/
theorem line_braces (entry : Entry F) :
    ∃ body, entry.line floats seconds = '\x7b' :: (body ++ ['\x7d']) := by
  rw [Entry.line, Entry.event, dumps, sortKeys]
  exact ⟨_, rfl⟩

theorem strip_line (entry : Entry F) :
    strip (entry.line floats seconds) = entry.line floats seconds := by
  obtain ⟨body, hbody⟩ := @line_braces F floats seconds entry
  have hopen : isSpace '\x7b' = false := rfl
  have hclose : ¬isSpace '\x7d' = true := by decide
  rw [hbody, strip, List.dropWhile_cons_of_neg (by simp [hopen]), ← List.cons_append,
    List.rdropWhile_concat_neg _ _ _ hclose]

/-- A part of a line from its beginning is shortened at its end only. -/
theorem strip_prefix {entry : Entry F} {part : List Char}
    (h : part <+: entry.line floats seconds) : strip part <+: part := by
  obtain ⟨body, hbody⟩ := @line_braces F floats seconds entry
  have hdrop : part.dropWhile isSpace = part := by
    cases part with
    | nil => rfl
    | cons c tail =>
        rw [hbody] at h
        obtain ⟨rfl, -⟩ := List.cons_prefix_cons.mp h
        rfl
  rw [strip, hdrop]
  exact List.rdropWhile_prefix _ _

/-- **`load_events` reads whole lines and passes over parts of lines.** -/
theorem tolerant_loadLine : LineLog.Tolerant '\n' (Entry.line floats seconds) (loadLine floats)
    (fun entry => sortKeys (entry.event seconds)) where
  newline_notMem entry hmem := by
    have hprintable := printable_line entry '\n' hmem
    exact absurd hprintable (by decide)
  blank := rfl
  whole entry := by
    obtain ⟨body, hbody⟩ := @line_braces F floats seconds entry
    have hne : entry.line floats seconds ≠ [] := by
      rw [hbody]
      exact List.cons_ne_nil _ _
    rw [loadLine, strip_line, if_neg hne]
    exact loads_dumps (distinct_event entry)
  cut entry part hpart hne := by
    have hstrip := strip_prefix hpart
    have hshort : strip part ≠ entry.line floats seconds := by
      intro heq
      rw [heq] at hstrip
      exact hne (List.IsPrefix.eq_of_length_le hpart hstrip.length_le)
    rw [loadLine]
    split
    · rfl
    · exact loads_cut (distinct_event entry) (hstrip.trans hpart) hshort

/-- Reading a file of the client leaves its line ends as they are. -/
theorem universalNewlines_of_notMem {text : List Char} (h : '\r' ∉ text) :
    universalNewlines text = text := by
  induction text with
  | nil => rfl
  | cons c rest ih =>
      have hc : c ≠ '\r' := fun heq => h (heq ▸ List.mem_cons_self)
      have hrest := ih (fun hmem => h (List.mem_cons_of_mem c hmem))
      unfold universalNewlines
      split
      · rename_i heq
        cases heq
      · rename_i heq
        exact absurd (List.cons.inj heq).1 hc
      · rename_i heq
        exact absurd (List.cons.inj heq).1 hc
      · rename_i heq
        obtain ⟨rfl, rfl⟩ := List.cons.inj heq
        rw [hrest]

theorem return_notMem_fileText (entries : List (Entry F)) : '\r' ∉ fileText floats seconds entries := by
  intro hmem
  rw [fileText, LineLog.file, List.mem_flatMap] at hmem
  obtain ⟨entry, -, hmem⟩ := hmem
  rcases List.mem_append.mp hmem with hmem | hmem
  · exact absurd (printable_line entry '\r' hmem) (by decide)
  · exact absurd (List.mem_singleton.mp hmem) (by decide)

/-- The event that `load_events` returns for an entry. -/
def Entry.loaded (seconds : ℚ → F) (entry : Entry F) : Json F := sortKeys (entry.event seconds)

/-- The first `k` entries are those whose line is in the text, or lacks nothing but its end. -/
def Whole (floats : Floats F) (seconds : ℚ → F) (entries : List (Entry F)) (cut : List Char)
    (k : ℕ) : Prop :=
  LineLog.Whole '\n' (Entry.line floats seconds) entries cut k

/-- **A killed process leaves a usable log**: from the file cut anywhere `load_events` takes
the records that are there whole, in their order and as they were written, and nothing
else. -/
theorem loadEvents_cut (entries : List (Entry F)) {cut : List Char}
    (hcut : cut <+: fileText floats seconds entries) :
    ∃ k, Whole floats seconds entries cut k ∧
      loadEvents floats cut = (entries.take k).map (Entry.loaded seconds) := by
  have hreturn : '\r' ∉ cut := fun hmem => return_notMem_fileText entries (hcut.subset hmem)
  rw [loadEvents, universalNewlines_of_notMem hreturn]
  exact LineLog.load_cut tolerant_loadLine hcut

end File

/-! ### A file that was cut -/

/-- Whole numbers as floats, as `repr` writes them below `10 ** 16`. -/
def wholeFloats : Floats ℤ where
  floatstr n := intText n ++ ['.', '0']
  float text := intOf text.dropLast.dropLast
  isFloat_floatstr n := by
    refine Or.inr ⟨⟨intText n, ['.', '0'], []⟩, ?_, by simp⟩
    rw [matchNumber, integer_intText n (by simp [NoDigit])]
    rfl
  float_floatstr n := by
    rw [List.dropLast_append_of_ne_nil (by simp)]
    simp [intOf_intText]

def sampleSettled : Entry ℤ :=
  ⟨7, 1, .transactionSettled "trade-1" "offer-1" "P02" { water := 4 } { food := 4 }⟩

def sampleEntries : List (Entry ℤ) :=
  [sampleSettled,
    ⟨8, 2, .runEnded "phase finished or station failed" .FINISHED 90 false {} 0⟩]

/-- The second line is there in part. -/
def sampleCut : List Char := (fileText wholeFloats Rat.floor sampleEntries).take 400

theorem loadEvents_cut_sample :
    loadEvents wholeFloats sampleCut = [Entry.loaded Rat.floor sampleSettled] := by
  obtain ⟨k, hk, hload⟩ := loadEvents_cut sampleEntries
    (List.take_prefix 400 (fileText wholeFloats Rat.floor sampleEntries))
  have hone : 1 ≤ k := (hk.prefix_iff 1 (by decide)).mp (by decide +kernel)
  have htwo : ¬2 ≤ k := by
    rw [← hk.prefix_iff 2 (by decide)]
    decide +kernel
  obtain rfl : k = 1 := by omega
  exact hload

end PlanetCharlu
