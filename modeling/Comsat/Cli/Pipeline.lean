import Comsat.App.Attribution
import Comsat.App.TotalFailure
import Comsat.Cli.UnixOutput
import Comsat.Plugins.Web

set_option relaxedAutoImplicit false
set_option autoImplicit false

/-!
# Commands behind one another

The records that a search prints are the targets that `fetch` and `follow` read, line by line, when
they are called without a target of their own.

## Main definitions

* `StdinReader` — the reader of targets and records.
* `parseStdinLine`, `readStdinTargets` — the targets on the standard input.
* `Transports` — envelopes that carry the items of a stream.
* `arriving` — what arrives of the records that are sent.

## Main results

* `searched_records_arrive` — what a search prints is read as the records that it found, up to the
  first one whose line is too long.

## Design

* The standard input is given by its lines, each with its end; the end of the last may be missing.
* What the reader says about a text that it cannot read as a target is left open.
* The fields of an object may be written in any order.
-/

namespace Comsat

open Json

/-! ## The targets on the standard input -/

/-- The most bytes of a line. -/
def responseLimitBytes : ℕ := 2 * 1024 * 1024

/-- The reader of JSON texts, which also reads targets and records, or says why it cannot. -/
class StdinReader extends JsonReader where
  target : String → Except String Target
  record : String → Except String Record

/-- What the reader says about the text of a value: it reads what the value stands for. -/
structure Deserializes [StdinReader] (value : Json) : Prop where
  target : (StdinReader.target value.compact).toOption =
    Target.fromValue (value.mapNumbers JsonReader.number)
  record : (StdinReader.record value.compact).toOption =
    Record.fromValue (value.mapNumbers JsonReader.number)

/-- What is read of a line. -/
inductive StdinLine where
  | target (target : Target)
  | skip
  | eof
  | error (message : String)

/-- What is remembered between the lines. -/
structure StdinTargetState where
  lineNumber : ℕ
  emitted : Bool
  failed : Bool

section

variable [ExternalParsers] [StdinReader]

/-- Reads a target, or a record, which is a target too. -/
def parseStdinTarget (line : String) (lineNumber : ℕ) : Except String Target := do
  let target ← ((StdinReader.target line).orElseLazy fun _ =>
      (StdinReader.record line).map Target.record).mapError
    fun error => s!"stdin line {lineNumber}: {error}"
  target.validate.mapError fun error => s!"stdin line {lineNumber}: {error.message}"
  return target

/-- Reads a line, which must not be too long and may be blank. -/
def parseStdinLine (line : String) (lineNumber : ℕ) : StdinLine :=
  if responseLimitBytes < line.utf8ByteSize then
    .error s!"stdin line {lineNumber}: target JSONL line exceeded 2 MiB"
  else
    let trimmed := String.ofList (Web.trim line.toList)
    if trimmed = "" then .skip
    else
      match parseStdinTarget trimmed lineNumber with
      | .ok target => .target target
      | .error error => .error error

/-- Reads the next line. -/
def readStdinLine (reader : List (List UInt8)) (lineNumber : ℕ) : StdinLine :=
  match reader with
  | [] => .eof
  | line :: _ =>
    match ofUtf8 line with
    | some line => parseStdinLine line lineNumber
    | none => .error "stream did not contain valid UTF-8"

/-- What is sent when the lines have come to their end. -/
def StdinTargetState.finish (state : StdinTargetState) : List (Except String Target) :=
  if !state.emitted && !state.failed then [.error "stdin JSONL target stream was empty"] else []

/-- Reads the targets on the standard input, up to its end or the first error. -/
def readStdinTargets (stdin : List UInt8) : List (Except String Target) :=
  go ⟨0, false, false⟩ (Lines.split newline stdin)
where
  /-- The targets on the lines that are left. -/
  go (state : StdinTargetState) : List (List UInt8) → List (Except String Target)
    | [] => state.finish
    | line :: reader =>
      match readStdinLine (line :: reader) (state.lineNumber + 1) with
      | .target target =>
        .ok target :: go { state with emitted := true, lineNumber := state.lineNumber + 1 } reader
      | .skip => go { state with lineNumber := state.lineNumber + 1 } reader
      | .eof => state.finish
      | .error error => .error error :: { state with failed := true : StdinTargetState }.finish

end

/-! ## Fields in any order -/

/-- Two values are the same up to the order of their fields. -/
def SameFields : Json → Json → Prop
  | .obj fields, .obj fields' => fields.Perm fields'
  | value, value' => value = value'

section SameFields

variable {fields fields' : List (String × Json)}

/-- The field with a name is the same in whatever order the fields stand. -/
lemma get?_of_perm (h : fields.Perm fields') (hnodup : (fields.map Prod.fst).Nodup)
    (name : String) : (obj fields).get? name = (obj fields').get? name := by
  have hnodup' : (fields'.map Prod.fst).Nodup := (h.map _).nodup_iff.mp hnodup
  by_cases hname : ∃ field ∈ fields, field.1 = name
  · obtain ⟨field, hfield, rfl⟩ := hname
    rw [Json.get?, Json.get?, Table.find?_key_eq hnodup hfield,
      Table.find?_key_eq hnodup' (h.subset hfield)]
  · have hnone : ∀ {fields : List (String × Json)}, (∀ field ∈ fields, field.1 ≠ name) →
        (obj fields).get? name = none := by
      intro fields hfields
      rw [Json.get?, List.find?_eq_none.mpr fun field hfield => by simpa using hfields field hfield]
      rfl
    rw [not_exists] at hname
    rw [hnone fun field hfield hsame => hname field ⟨hfield, hsame⟩,
      hnone fun field hfield hsame => hname field ⟨h.symm.subset hfield, hsame⟩]

/-- The names of the fields of a record. -/
lemma Record.exists_toJson_eq (record : Record) :
    ∃ fields, record.toJson = .obj fields ∧ (fields.map Prod.fst).Nodup ∧
      (obj fields).get? "type" = none := by
  refine ⟨_, rfl, ?_, rfl⟩
  simp only [List.map_cons, List.map_nil]
  decide

/-- The record whose numbers are read as others. -/
def Record.mapNumbers (f : String → String) (record : Record) : Record :=
  { record with metadata := record.metadata.mapNumbers f }

/-- A record is written with its numbers. -/
lemma Record.toJson_mapNumbers (f : String → String) (record : Record) :
    (record.mapNumbers f).toJson = record.toJson.mapNumbers f := by
  have hopt : ∀ value : Option String, (optStr value).mapNumbers f = optStr value := by
    intro value
    cases value <;> rfl
  simp [Record.mapNumbers, Record.toJson, Json.mapNumbers, Json.mapNumbersFields, hopt]

/-- A record is valid whatever its numbers are. -/
lemma Record.validate_mapNumbers [ExternalParsers] (f : String → String) (record : Record) :
    (record.mapNumbers f).validate = record.validate := by
  have hobject : (record.metadata.mapNumbers f).isObject = record.metadata.isObject := by
    cases record.metadata <;> rfl
  rw [Record.validate, Record.mapNumbers, hobject]
  rfl

/-- A record whose numbers are read as they are written stays as it is. -/
lemma Record.mapNumbers_eq_self {f : String → String} {record : Record}
    (h : ∀ literal ∈ record.metadata.literals, f literal = literal) :
    record.mapNumbers f = record := by
  rw [Record.mapNumbers, Json.mapNumbers_eq_self h]

/-- The fields of a record, in any order, with their numbers read as others. -/
lemma SameFields.mapNumbers {value : Json} {record : Record} (h : SameFields value record.toJson)
    (f : String → String) : SameFields (value.mapNumbers f) (record.mapNumbers f).toJson := by
  rw [Record.toJson_mapNumbers]
  cases value with
  | obj fields =>
    have hperm : fields.Perm _ := h
    change SameFields (.obj _) (.obj _)
    rw [SameFields, mapNumbersFields_eq_map]
    exact hperm.map _
  | _ => cases h

/-- A record is read from its fields in any order. -/
lemma SameFields.fromValue {value : Json} {record : Record} (h : SameFields value record.toJson) :
    Record.fromValue value = some record := by
  obtain ⟨fields', hfields, hnodup, -⟩ := record.exists_toJson_eq
  rw [← Record.fromValue_toJson record]
  rw [hfields] at h ⊢
  cases value with
  | obj fields =>
    have hnodup' : (fields.map Prod.fst).Nodup := (List.Perm.map _ h).nodup_iff.mpr hnodup
    have hget := get?_of_perm h hnodup'
    simp only [Record.fromValue, hget]
  | _ => cases h

/-- The fields of a record in any order are no target with a type. -/
lemma SameFields.target_fromValue {value : Json} {record : Record}
    (h : SameFields value record.toJson) :
    value.get? "type" = none ∧ Target.fromValue value = none := by
  obtain ⟨fields', hfields, hnodup, htype⟩ := record.exists_toJson_eq
  rw [hfields] at h
  cases value with
  | obj fields =>
    have hget : (obj fields).get? "type" = none :=
      (get?_of_perm h ((List.Perm.map _ h).nodup_iff.mpr hnodup) _).trans htype
    exact ⟨hget, by simp [Target.fromValue, hget, Json.decodeString]⟩
  | _ => cases h

/-- The fields of a record in any order have as many bytes. -/
lemma SameFields.byteLength {value : Json} {record : Record} (h : SameFields value record.toJson) :
    value.byteLength = record.toJson.byteLength := by
  cases value with
  | obj fields =>
    have hperm : fields.Perm _ := h
    rw [Record.toJson, byteLength_obj, byteLength_obj, (hperm.map _).sum_eq, hperm.length_eq]
  | _ => cases h

end SameFields

/-! ## Records on the standard input -/

/-- The text of an object stands between braces. -/
lemma exists_compact_obj (fields : List (String × Json)) :
    ∃ inner, (obj fields).compact.toList = '\x7b' :: (inner ++ ['\x7d']) := by
  refine ⟨(String.intercalate "," (compactFields fields)).toList, ?_⟩
  rw [compact, String.toList_append, String.toList_append]
  rfl

/-- Trimming the line of an object takes away its end. -/
lemma trim_compact_obj (fields : List (String × Json)) :
    String.ofList (Web.trim ((obj fields).compact ++ "\n").toList) = (obj fields).compact := by
  obtain ⟨inner, hinner⟩ := exists_compact_obj fields
  have htrim : Web.trim ((obj fields).compact.toList ++ ['\n']) = (obj fields).compact.toList := by
    have hend : isWhitespace '\n' = true := by decide
    have hopen : isWhitespace '\x7b' = false := by decide
    have hclose : isWhitespace '\x7d' = false := by decide
    rw [hinner, Web.trim, List.cons_append, List.dropWhile_cons_of_neg (by simp [hopen])]
    simp [hend, hclose]
  rw [String.toList_append, show "\n".toList = ['\n'] from rfl, htrim, String.ofList_toList]

section

variable [ExternalParsers] [StdinReader]

/-- **The line of a record** is read as the record, unless it is too long. -/
lemma parseStdinLine_record {value : Json} {record : Record} (h : SameFields value record.toJson)
    (hreads : Deserializes value) (hvalid : record.validate = .ok ()) (lineNumber : ℕ) :
    parseStdinLine (value.compact ++ "\n") lineNumber =
      if responseLimitBytes < record.toJson.byteLength + 1 then
        .error s!"stdin line {lineNumber}: target JSONL line exceeded 2 MiB"
      else .target (.record (record.mapNumbers JsonReader.number)) := by
  obtain ⟨fields, rfl⟩ : ∃ fields, value = .obj fields := by
    cases value with
    | obj fields => exact ⟨fields, rfl⟩
    | _ => cases h
  have hlength : ((obj fields).compact ++ "\n").utf8ByteSize = record.toJson.byteLength + 1 := by
    rw [String.utf8ByteSize_append, ← h.byteLength]
    rfl
  have hne : (obj fields).compact ≠ "" := by
    obtain ⟨inner, hinner⟩ := exists_compact_obj fields
    intro hempty
    rw [hempty] at hinner
    cases hinner
  -- the text is no target with a type, so it is read as a record
  have hsame := h.mapNumbers JsonReader.number
  have hrecord := hreads.record
  have htarget := hreads.target
  rw [hsame.fromValue] at hrecord
  rw [hsame.target_fromValue.2] at htarget
  have hparse : parseStdinTarget (obj fields).compact lineNumber =
      .ok (.record (record.mapNumbers JsonReader.number)) := by
    cases htext : StdinReader.target (obj fields).compact with
    | ok target => rw [htext] at htarget; cases htarget
    | error e =>
      cases hread : StdinReader.record (obj fields).compact with
      | error e => rw [hread] at hrecord; cases hrecord
      | ok found =>
        rw [hread] at hrecord
        obtain rfl : found = _ := Option.some.inj hrecord
        have hok : (record.mapNumbers JsonReader.number).validate = .ok () :=
          (record.validate_mapNumbers _).trans hvalid
        simp [parseStdinTarget, htext, hread, Except.orElseLazy, Except.mapError, Except.map,
          Target.validate, hok, bind, Except.bind, pure, Except.pure]
  rw [parseStdinLine, hlength, trim_compact_obj, if_neg hne, hparse]

/-- What arrives of the records on some lines: the targets up to the first line that is too long. -/
def arriving (emitted : Bool) (lineNumber : ℕ) (records : List Record) :
    List (Except String Target) :=
  let short := records.takeWhile fun record => record.toJson.byteLength + 1 ≤ responseLimitBytes
  short.map (fun record => .ok (.record (record.mapNumbers JsonReader.number))) ++
    if short.length < records.length then
      [.error s!"stdin line {lineNumber + short.length + 1}: target JSONL line exceeded 2 MiB"]
    else if !emitted && records.isEmpty then [.error "stdin JSONL target stream was empty"]
    else []

/-- **Lines of records** are read one after the other. -/
lemma readStdinTargets_go {values : List Json} {records : List Record}
    (h : List.Forall₂ (fun value record => SameFields value (Record.toJson record)) values records)
    (hreads : ∀ value ∈ values, Deserializes value)
    (hvalid : ∀ record ∈ records, record.validate = .ok ()) (lineNumber : ℕ) (emitted : Bool) :
    readStdinTargets.go ⟨lineNumber, emitted, false⟩
      ((values.map jsonBytes).map fun line => line ++ [newline]) =
        arriving emitted lineNumber records := by
  induction h generalizing lineNumber emitted with
  | nil => cases emitted <;> rfl
  | @cons value record values records hvalue hrest ih =>
    have hline : ofUtf8 (jsonBytes value ++ [newline]) = some (value.compact ++ "\n") := by
      rw [← ofUtf8_utf8Bytes, utf8Bytes_append]
      rfl
    have hread := parseStdinLine_record hvalue (hreads value (List.mem_cons_self ..))
      (hvalid record (List.mem_cons_self ..)) (lineNumber + 1)
    rw [List.map_cons, List.map_cons, readStdinTargets.go]
    dsimp only
    rw [readStdinLine, hline]
    dsimp only
    rw [hread]
    by_cases hlong : responseLimitBytes < record.toJson.byteLength + 1
    · rw [if_pos hlong, arriving, List.takeWhile_cons_of_neg (by simpa using hlong)]
      simp [StdinTargetState.finish]
    · rw [if_neg hlong, arriving, List.takeWhile_cons_of_pos (by simpa using hlong)]
      dsimp only
      rw [ih (fun value hvalue => hreads value (List.mem_cons_of_mem _ hvalue))
        (fun record hrecord => hvalid record (List.mem_cons_of_mem _ hrecord)), arriving]
      generalize records.takeWhile _ = short
      have hnumber : lineNumber + 1 + short.length = lineNumber + (short.length + 1) := by omega
      simp only [List.map_cons, List.cons_append, List.length_cons, Nat.add_lt_add_iff_right,
        hnumber, Bool.not_true, Bool.false_and, List.isEmpty_cons, Bool.and_false]

end

/-! ## Streams in envelopes -/

/-- The envelope of an item: a chunk with the data, or an error. -/
def StreamRecord.CarriedBy : StreamRecord → Envelope → Prop
  | .chunk data, envelope => envelope.kind = .chunk ∧ SameFields envelope.data data
  | .error _ _ _ _, envelope => envelope.kind = .error

/-- The envelopes carry the items of a stream, one after the other; besides them there may be the
envelope that tells that the stream is done. -/
def Transports (items : List StreamRecord) (envelopes : List Printed) : Prop :=
  List.Forall₂ (fun item printed => StreamRecord.CarriedBy item printed.envelope) items
    (envelopes.filter fun printed => printed.envelope.kind ≠ .done)

/-- The envelope of a record sends its data to the standard output. -/
lemma stdoutValue_of_record {record : Record} {envelope : Envelope}
    (h : (chunkOf (.record record)).CarriedBy envelope) :
    ∃ value, envelope.stdoutValue = some value ∧ SameFields value record.toJson := by
  obtain ⟨hkind, hdata⟩ := h
  have htype : textField envelope.data "type" ≠ some "source_error" := by
    rw [textField, hdata.target_fromValue.1]
    exact fun h => Option.some_ne_none _ h.symm
  exact ⟨envelope.data, by rw [Envelope.stdoutValue, hkind]; exact if_neg htype, hdata⟩

/-- The envelope of a failure sends nothing to the standard output. -/
lemma stdoutValue_of_failure {diagnostic : EngineDiagnostic} {envelope : Envelope}
    (h : (chunkOf (.sourceFailed diagnostic)).CarriedBy envelope) :
    envelope.stdoutValue = none := by
  obtain ⟨hkind, hdata⟩ := h
  have htype : textField envelope.data "type" = some "source_error" := by
    cases hfields : envelope.data with
    | obj fields =>
      rw [hfields] at hdata
      have hnodup : (fields.map Prod.fst).Nodup := by
        refine (List.Perm.map _ hdata).nodup_iff.mpr ?_
        simp only [List.map_cons, List.map_nil]
        decide
      rw [textField, get?_of_perm hdata hnodup]
      rfl
    | _ => rw [hfields] at hdata; cases hdata
  rw [Envelope.stdoutValue, hkind]
  exact if_pos htype

/-- What the envelopes of a stream send to the standard output: the records of its events. -/
lemma stdoutValues_of_transports {events : List EngineEvent} {errors : List StreamRecord}
    {envelopes : List Printed} (h : Transports (events.map chunkOf ++ errors) envelopes)
    (herrors : ∀ item ∈ errors, ∃ code message retryable exitCode,
      item = .error code message retryable exitCode) :
    List.Forall₂ (fun value record => SameFields value (Record.toJson record))
      (envelopes.filterMap fun printed => printed.envelope.stdoutValue)
      (events.filterMap EngineEvent.record?) := by
  have hdone : (envelopes.filterMap fun printed => printed.envelope.stdoutValue) =
      (envelopes.filter fun printed => printed.envelope.kind ≠ .done).filterMap
        fun printed => printed.envelope.stdoutValue := by
    rw [List.filterMap_filter]
    refine List.filterMap_congr fun printed _ => ?_
    by_cases hkind : printed.envelope.kind = .done
    · simp [hkind, Envelope.stdoutValue]
    · simp [hkind]
  rw [hdone]
  rw [Transports] at h
  generalize (envelopes.filter fun printed => printed.envelope.kind ≠ .done) = carried at h
  induction events generalizing carried with
  | nil =>
    rw [List.filterMap_eq_nil_iff.mpr]
    · exact .nil
    · rw [List.map_nil, List.nil_append] at h
      induction h with
      | nil => exact fun _ h => absurd h List.not_mem_nil
      | @cons item printed errors carried hitem _ ih =>
        obtain ⟨code, message, retryable, exitCode, rfl⟩ := herrors item (List.mem_cons_self ..)
        refine List.forall_mem_cons.mpr
          ⟨?_, ih fun other hother => herrors other (List.mem_cons_of_mem _ hother)⟩
        have hkind : printed.envelope.kind = .error := hitem
        rw [Envelope.stdoutValue, hkind]
  | cons event events ih =>
    cases h with
    | cons hfirst hrest =>
      cases event with
      | record record =>
        obtain ⟨value, hvalue, hsame⟩ := stdoutValue_of_record hfirst
        rw [List.filterMap_cons_some (f := fun printed : Printed => printed.envelope.stdoutValue)
            hvalue,
          List.filterMap_cons_some (show EngineEvent.record? _ = some record from rfl)]
        exact .cons hsame (ih _ hrest)
      | sourceFailed diagnostic =>
        rw [List.filterMap_cons_none (f := fun printed : Printed => printed.envelope.stdoutValue)
            (stdoutValue_of_failure hfirst),
          List.filterMap_cons_none (show EngineEvent.record? _ = none from rfl)]
        exact ih _ hrest

/-! ## A search in front of another command -/

section

variable [ExternalParsers]

/-- The events whose items are sent: in strict mode only the first. -/
def sentEvents (strict : Bool) (events : List EngineEvent) : List EngineEvent :=
  if strict then events.take 1 else events

/-- The items of a search are those of the events that are sent, and perhaps an error. -/
lemma items_of_search (catalog : SourceCatalog) (request : SearchRequest) (limits : EngineLimits)
    (polls : List (List Round)) :
    let emitted := (SearchDriver.new catalog.sources (.search request) limits).emitted
      (runSourceOperation limits) polls
    ∃ errors : List StreamRecord,
      searchRecordStream request.strict (selectedSourceCount catalog request.sources) emitted =
          (sentEvents request.strict emitted).map chunkOf ++ errors ∧
        ∀ item ∈ errors, ∃ code message retryable exitCode,
          item = .error code message retryable exitCode := by
  intro emitted
  have hvalid : ∀ record, .record record ∈ emitted → record.validate = .ok () :=
    fun record => validate_of_mem_emitted
  cases hstrict : request.strict with
  | false =>
    have hregular : (SearchDriver.new catalog.sources (.search request) limits).Regular
        (runSourceOperation limits) :=
      SearchDriver.regular_new catalog request limits hstrict _
    obtain ⟨taken, hrest, -, hout⟩ := (SearchDriver.run_advances polls hregular).taken
    rw [SearchDriver.remaining_new catalog request limits (sourceScript catalog request limits)
      fun _ h => runSourceOperation_of_planned catalog request limits h] at hrest
    have hpart : emitted <+: emissions .empty (searchOrder catalog request limits) :=
      ⟨_, by rw [← hout, searchOrder, hrest]; rfl⟩
    refine ⟨_, searchRecordStream_of_part hpart, fun item hitem => ?_⟩
    rw [failureItem] at hitem
    split at hitem
    · exact ⟨_, _, _, _, List.mem_singleton.mp hitem⟩
    · cases hitem
  | true =>
    generalize emitted = events at hvalid
    cases events with
    | nil => exact ⟨[], rfl, fun _ h => absurd h List.not_mem_nil⟩
    | cons event events =>
      rw [searchRecordStream_strict]
      cases event with
      | record record =>
        have hvalue : recordValue record = .ok record.toJson := by
          rw [recordValue, hvalid record (List.mem_cons_self ..)]
        dsimp only
        rw [hvalue]
        exact ⟨[_], rfl, fun item hitem => ⟨_, _, _, _, List.mem_singleton.mp hitem⟩⟩
      | sourceFailed diagnostic =>
        exact ⟨[_], rfl, fun item hitem => ⟨_, _, _, _, List.mem_singleton.mp hitem⟩⟩

end

/-- **What a search prints** is read as the records that it found: whatever the tools of its sources
do and whenever their events become available, however the transport prints the items and splits the
bytes into writes, as long as the printed items can be read back and fit a line, a command that reads
the standard output of the search gets the records that it emitted, each as a target, up to the first
one whose line is longer than 2 MiB, where it gets an error instead and nothing more. The records are
the same if their numbers are read as printed.

**Proof sketch.** The items of the search are chunks of its events (`items_of_search`), whose
envelopes come to lines (`writeBytes_printed`). Each line holds one record, which has no type, so it
is no target but read as the record (`parseStdinLine_record`). -/
theorem searched_records_arrive [ExternalParsers] [StdinReader] (catalog : SourceCatalog)
    (request : SearchRequest) (limits : EngineLimits) (polls : List (List Round))
    {envelopes : List Printed} {inputs : List (List UInt8)}
    (hbytes : inputs.flatten = printedBytes envelopes)
    (hsize : ∀ printed ∈ envelopes, printed.text.length ≤ maxLineBytes)
    (hdoc : ∀ printed ∈ envelopes, Documented printed.text printed.envelope.value)
    (hdepth : ∀ printed ∈ envelopes, printed.envelope.value.depth ≤ Json.nestingLimit)
    (hreads : ∀ printed ∈ envelopes, ∀ value, printed.envelope.stdoutValue = some value →
      Deserializes (value.mapNumbers JsonReader.number))
    (hitems : Transports (searchRecordStream request.strict
      (selectedSourceCount catalog request.sources)
        ((SearchDriver.new catalog.sources (.search request) limits).emitted
          (runSourceOperation limits) polls)) envelopes) :
    let emitted := (SearchDriver.new catalog.sources (.search request) limits).emitted
      (runSourceOperation limits) polls
    let sent := (sentEvents request.strict emitted).filterMap EngineEvent.record?
    (∃ out, UnixOutput.writes inputs .new = (out, .ok ()) ∧ out.finish = (out, .ok ()) ∧
      readStdinTargets out.stdout =
        arriving false 0 (sent.map (Record.mapNumbers JsonReader.number))) ∧
      ∀ record : Record, (∀ literal ∈ record.metadata.literals,
        JsonReader.number literal = literal) → record.mapNumbers JsonReader.number = record := by
  intro emitted sent
  refine ⟨?_, fun record => Record.mapNumbers_eq_self⟩
  obtain ⟨errors, hsplit, herrors⟩ := items_of_search catalog request limits polls
  rw [hsplit] at hitems
  have hsent := stdoutValues_of_transports hitems herrors
  -- the lines that are written
  have htorn : ∀ printed ∈ envelopes, ¬ printed.Torn := fun printed hprinted ht =>
    absurd (hdepth printed hprinted) (Nat.not_le.mpr ht.1)
  have hclean : UnixOutput.new.pending = [] := rfl
  obtain ⟨out, hwrite, hstdout, -, hpending⟩ := writeBytes_printed hdoc hsize htorn hclean
  have hlines : (envelopes.flatMap fun printed => printed.written.1) =
      (((envelopes.filterMap fun printed => printed.envelope.stdoutValue).map
        (Json.mapNumbers JsonReader.number)).map jsonBytes) := by
    rw [List.map_filterMap, map_filterMap_eq_flatMap]
    refine List.flatMap_congr fun printed hprinted => ?_
    rw [Printed.written, if_pos (hdepth printed hprinted)]
    cases printed.envelope.stdoutValue <;> rfl
  have hsame : List.Forall₂ (fun value record => SameFields value (Record.toJson record))
      ((envelopes.filterMap fun printed => printed.envelope.stdoutValue).map
        (Json.mapNumbers JsonReader.number)) (sent.map (Record.mapNumbers JsonReader.number)) :=
    List.forall₂_map_left_iff.mpr (List.forall₂_map_right_iff.mpr
      (hsent.imp fun value record h => h.mapNumbers JsonReader.number))
  refine ⟨out, by rw [UnixOutput.writes_eq, hbytes, hwrite], ?_, ?_⟩
  · rw [UnixOutput.finish, if_pos hpending, if_pos hpending]
  · have hstdout' : out.stdout = Lines.join newline _ := hstdout
    rw [readStdinTargets, hstdout', hlines, Lines.split_join,
      readStdinTargets_go hsame]
    · intro value hvalue
      obtain ⟨printed, hprinted, rfl⟩ := List.mem_map.mp hvalue
      obtain ⟨envelope, henvelope, hsome⟩ := List.mem_filterMap.mp hprinted
      exact hreads envelope henvelope _ hsome
    · intro record hrecord
      obtain ⟨record, hfound, rfl⟩ := List.mem_map.mp hrecord
      rw [Record.validate_mapNumbers]
      obtain ⟨event, hevent, hrecord⟩ := List.mem_filterMap.mp hfound
      have hmem : .record record ∈ emitted := by
        cases event with
        | record sent =>
          obtain rfl := Option.some.inj hrecord
          rw [sentEvents] at hevent
          split at hevent
          · exact List.mem_of_mem_take hevent
          · exact hevent
        | sourceFailed diagnostic => cases hrecord
      exact validate_of_mem_emitted hmem
    · intro line hline
      rw [← hlines] at hline
      obtain ⟨printed, hprinted, hline⟩ := List.mem_flatMap.mp hline
      exact (Printed.newline_not_mem_written (htorn printed hprinted)).1 line hline

/-- The envelope of a story. -/
def storyChunk : Envelope where
  kind := .chunk
  fields := [("data", (titled "").toJson), ("type", .str "chunk")]
  kind_eq := rfl
  data_isSome := fun _ => rfl
  plain := fun _ => ⟨rfl, rfl⟩
  numeric := fun _ hliteral => absurd hliteral List.not_mem_nil

/-- A reader that knows the story, and the envelope of it. -/
@[reducible] def storyReader : StdinReader where
  toJsonReader := textReader (utf8Bytes storyChunk.value.compact) storyChunk.value
  target _ := .error "no target"
  record text := if text = (titled "").toJson.compact then .ok (titled "") else .error "no record"

/-- The events that come to one record. -/
lemma eq_of_collect_eq {events : List EngineEvent} {record : Record}
    (h : SearchOutcome.collect events = ⟨[record], []⟩) : events = [.record record] := by
  cases events with
  | nil => cases h
  | cons event events =>
    cases event with
    | sourceFailed diagnostic => cases congrArg SearchOutcome.diagnostics h
    | record sent =>
      obtain ⟨rfl, hrecords⟩ := List.cons.inj (congrArg SearchOutcome.records h)
      have hdiagnostics : (SearchOutcome.collect events).diagnostics = [] :=
        congrArg SearchOutcome.diagnostics h
      cases events with
      | nil => rfl
      | cons event events =>
        cases event with
        | record other => exact absurd hrecords (List.cons_ne_nil _ _)
        | sourceFailed diagnostic => exact absurd hdiagnostics (List.cons_ne_nil _ _)

/-- The story that a search finds arrives. -/
theorem searched_records_arrive_story :
    letI : ExternalParsers := .ofHost "example.com"
    letI : StdinReader := storyReader
    ∃ out, UnixOutput.writes [printedBytes [⟨storyChunk, false⟩]] .new = (out, .ok ()) ∧
      readStdinTargets out.stdout = [.ok (.record (titled ""))] := by
  let _ : ExternalParsers := .ofHost "example.com"
  let _ : StdinReader := storyReader
  have hcollected : SearchDriver.collected (newsCatalog ⟨"hn", by decide⟩)
      ⟨⟨"q", none, none, none⟩, [], false⟩ .default [[SearchDriver.promptly]] =
        ⟨[titled ""], []⟩ :=
    SearchDriver.collected_single rfl (SearchDriver.runSourceOperation_of_ok rfl rfl (by decide)
      ⟨show 1 ≤ 1000 by decide, by decide +kernel⟩)
  have hemitted := eq_of_collect_eq hcollected
  generalize hcatalog : newsCatalog ⟨"hn", by decide⟩ = catalog at hemitted
  generalize hrequest : (⟨⟨"q", none, none, none⟩, [], false⟩ : SearchRequest) = request at hemitted
  have hstrict : request.strict = false := by rw [← hrequest]
  have hitems : Transports (searchRecordStream request.strict
      (selectedSourceCount catalog request.sources)
        ((SearchDriver.new catalog.sources (.search request) .default).emitted
          (runSourceOperation .default) [[SearchDriver.promptly]])) [⟨storyChunk, false⟩] := by
    rw [hemitted, hstrict]
    exact .cons ⟨rfl, List.Perm.refl _⟩ .nil
  have hsent : storyChunk.stdoutValue = some (titled "").toJson := rfl
  have hbytes : [printedBytes [⟨storyChunk, false⟩]].flatten = printedBytes [⟨storyChunk, false⟩] :=
    List.flatten_singleton
  obtain ⟨⟨out, hwrite, -, hread⟩, -⟩ := searched_records_arrive catalog request .default
    [[SearchDriver.promptly]] hbytes (by decide +kernel)
      (List.forall_mem_singleton.mpr
        { read := fun _ => if_pos rfl
          eof := fun _ first _ hne => ⟨⟨true⟩, if_neg hne, rfl⟩
          refused := fun h => absurd h (by decide +kernel) })
      (by decide +kernel)
      (List.forall_mem_singleton.mpr fun value hvalue => by
        obtain rfl : (titled "").toJson = value := Option.some.inj (hsent.symm.trans hvalue)
        have hsame : (titled "").toJson.mapNumbers JsonReader.number = (titled "").toJson := rfl
        rw [hsame]
        exact ⟨rfl, (congrArg Except.toOption (if_pos rfl)).trans
          (Record.fromValue_toJson _).symm⟩)
      hitems
  refine ⟨out, hwrite, hread.trans ?_⟩
  rw [hemitted, hstrict]
  have hshort : (titled "").toJson.byteLength + 1 ≤ responseLimitBytes := by decide +kernel
  change arriving false 0 [titled ""] = _
  simp only [arriving, List.takeWhile_cons, hshort, decide_true]
  rfl

end Comsat
