import Comsat.Engine.Invoke
import Comsat.Lib.Prefix

set_option relaxedAutoImplicit false
set_option autoImplicit false

/-!
# What a budget lets through

A sink passes on the longest prefix of the values of a tool in which every value is a valid record
and the budgets are not exceeded. The first other value makes the invocation fail. The chunks that
the tool streams after it are counted as well: if they exceed a budget, the failure that is reported
is that of the budget, whatever the first offending chunk was.

## Main definitions

* `validRecord` — the valid record that a value is.
* `Fits`, `Counted` — values within the budgets, and within them as the counters count.
* `ToolRun.values` — the values that the sink takes from a tool.
* `FollowsPrefixLaw` — records of the longest prefix, and then the failure that belongs to it.
* `CountsWell` — when counting does not change what is reported.

## Main results

* `emitChunks_accepts`, `emitChunks_stuck` — chunks before and after the first offending one.
* `prefix_law_iff` — when an invocation follows the law.
* `later_chunks_change_class` — an invocation that does not.

## Design

* The counters stay at the largest machine word, so a budget of that size is never exceeded.
-/

namespace Comsat

/-! ## Values -/

section Values

variable [ExternalParsers]

/-- The valid record that a value is. -/
def validRecord (data : Json) : Option Record :=
  match Record.fromValue data with
  | some record =>
    match record.validate with
    | .ok () => some record
    | .error _ => none
  | none => none

/-- Every value is a valid record. -/
def AllRecords (values : List Json) : Prop := ∀ value ∈ values, (validRecord value).isSome

/-- The valid records among values. -/
def recordsOf (values : List Json) : List Record := values.filterMap validRecord

/-- As many records as values, if every value is one. -/
lemma length_recordsOf {values : List Json} (h : AllRecords values) :
    (recordsOf values).length = values.length := by
  induction values with
  | nil => rfl
  | cons value values ih =>
    obtain ⟨record, hrecord⟩ := Option.isSome_iff_exists.mp (h value (List.mem_cons_self ..))
    have hrest := ih fun v hv => h v (List.mem_cons_of_mem _ hv)
    unfold recordsOf at hrest ⊢
    rw [List.filterMap_cons_some hrecord, List.length_cons, List.length_cons, hrest]

end Values

/-- How many bytes values have. -/
def byteTotal (values : List Json) : ℕ := (values.map Json.byteLength).sum

/-- One more value. -/
lemma byteTotal_snoc (values : List Json) (data : Json) :
    byteTotal (values ++ [data]) = byteTotal values + data.byteLength := by
  simp [byteTotal]

/-- Values within the budgets of a source. -/
def Fits (limits : EngineLimits) (values : List Json) : Prop :=
  values.length ≤ limits.maxRecordsPerSource ∧ byteTotal values ≤ limits.maxBytesPerSource

/-- Values within the budgets of a source, as the counters count them: they stay at the largest
machine word. -/
def Counted (limits : EngineLimits) (values : List Json) : Prop :=
  min values.length usizeMax ≤ limits.maxRecordsPerSource ∧
    min (byteTotal values) usizeMax ≤ limits.maxBytesPerSource

instance (limits : EngineLimits) (values : List Json) : Decidable (Fits limits values) :=
  inferInstanceAs (Decidable (_ ∧ _))

instance (limits : EngineLimits) (values : List Json) : Decidable (Counted limits values) :=
  inferInstanceAs (Decidable (_ ∧ _))

section Budgets

variable {limits : EngineLimits} {values more : List Json}

/-- Values within the budgets are counted so. -/
lemma Fits.counted (h : Fits limits values) : Counted limits values :=
  ⟨(min_le_left _ _).trans h.1, (min_le_left _ _).trans h.2⟩

/-- Within the budgets, the first values are so. -/
lemma Fits.of_append (h : Fits limits (values ++ more)) : Fits limits values := by
  simp only [Fits, byteTotal, List.length_append, List.map_append, List.sum_append] at h ⊢
  omega

/-- Counted within the budgets, the first values are so. -/
lemma Counted.of_append (h : Counted limits (values ++ more)) : Counted limits values := by
  simp only [Counted, byteTotal, List.length_append, List.map_append, List.sum_append] at h ⊢
  omega

end Budgets

/-! ## Counting -/

/-- The counters of a sink have counted values. -/
def SinkState.Counts (state : SinkState) (seen : List Json) : Prop :=
  state.records = min seen.length usizeMax ∧ state.bytes = min (byteTotal seen) usizeMax

/-- At first nothing is counted. -/
lemma SinkState.Counts.start : SinkState.start.Counts [] := by
  simp [SinkState.Counts, SinkState.start, byteTotal]

/-- The class of the error that a sink has met. -/
def SinkState.errorClass? (state : SinkState) : Option ErrorClass :=
  state.budgetError.map SourceError.errorClass

section Counting

variable {limits : EngineLimits} (source : SourceId) {state : SinkState} {seen : List Json}
  {data : Json}

/-- A counter that stays at the largest value counts a sum so. -/
lemma saturatingAdd_min {counter total more : ℕ} (h : counter = min total usizeMax) :
    saturatingAdd counter more = min (total + more) usizeMax := by
  rw [saturatingAdd, h]
  generalize usizeMax = largest
  omega

/-- A value is counted in any case. -/
lemma applyBudget_counts (hcounts : state.Counts seen) :
    (applyBudget limits source state data).2.Counts (seen ++ [data]) := by
  obtain ⟨hrecords, hbytes⟩ := hcounts
  rw [SinkState.Counts, byteTotal_snoc, List.length_append, List.length_singleton]
  exact ⟨saturatingAdd_min hrecords, saturatingAdd_min hbytes⟩

/-- Whether a budget is exceeded is whether there is an error now. -/
lemma applyBudget_fst : (applyBudget limits source state data).1 =
    (applyBudget limits source state data).2.budgetError.isSome := rfl

/-- The error after counting a value. -/
lemma applyBudget_budgetError (hcounts : state.Counts seen) :
    (applyBudget limits source state data).2.budgetError =
      if limits.maxBytesPerSource < min (byteTotal (seen ++ [data])) usizeMax then
        some (budgetError source "source byte budget exceeded")
      else if limits.maxRecordsPerSource < min (seen ++ [data]).length usizeMax then
        some (budgetError source "source record budget exceeded")
      else state.budgetError := by
  obtain ⟨hrecords, hbytes⟩ := hcounts
  rw [byteTotal_snoc, List.length_append, List.length_singleton, ← saturatingAdd_min hrecords,
    ← saturatingAdd_min hbytes]
  rfl

/-- Within the budgets an error stays as it is. -/
lemma applyBudget_within (hcounts : state.Counts seen) (h : Counted limits (seen ++ [data])) :
    (applyBudget limits source state data).2.budgetError = state.budgetError := by
  rw [applyBudget_budgetError source hcounts, if_neg (not_lt.mpr h.2), if_neg (not_lt.mpr h.1)]

/-- Beyond a budget the error is that of the budget. -/
lemma applyBudget_beyond (hcounts : state.Counts seen) (h : ¬ Counted limits (seen ++ [data])) :
    (applyBudget limits source state data).2.errorClass? = some .unsupported := by
  rw [SinkState.errorClass?, applyBudget_budgetError source hcounts]
  split
  · rfl
  · rename_i hbytes
    rw [if_pos (not_le.mp fun hrecords => h ⟨hrecords, not_lt.mp hbytes⟩)]
    rfl

variable [ExternalParsers]

/-- Taking a value, by its budget and by the record it is. -/
lemma emitRecordValue_eq : emitRecordValue limits source state data =
    if (applyBudget limits source state data).1 then
      ((applyBudget limits source state data).2, [])
    else
      match validRecord data with
      | some record => ((applyBudget limits source state data).2, [.record source record])
      | none =>
        ({ (applyBudget limits source state data).2 with
          budgetError := some ⟨source, .protocol, "source emitted invalid record data", none⟩ },
          []) := by
  rw [emitRecordValue, validRecord]
  obtain ⟨exceeded, state'⟩ := applyBudget limits source state data
  cases exceeded with
  | true => rfl
  | false =>
    cases Record.fromValue data with
    | none => rfl
    | some record => cases hvalid : record.validate <;> simp [hvalid]

/-- A value is counted in any case. -/
lemma emitRecordValue_counts (hcounts : state.Counts seen) :
    (emitRecordValue limits source state data).1.Counts (seen ++ [data]) := by
  have hcounts' : (applyBudget limits source state data).2.Counts (seen ++ [data]) :=
    applyBudget_counts source hcounts
  rw [emitRecordValue_eq]
  split
  · exact hcounts'
  · split
    · exact hcounts'
    · exact hcounts'

/-- A valid record within the budgets is sent. -/
lemma emitRecordValue_accepts (hcounts : state.Counts seen) (hnone : state.budgetError = none)
    (h : Counted limits (seen ++ [data])) {record : Record} (hrecord : validRecord data = some record) :
    (emitRecordValue limits source state data).1.budgetError = none ∧
      (emitRecordValue limits source state data).2 = [.record source record] := by
  have hwithin := (applyBudget_within source hcounts h).trans hnone
  rw [emitRecordValue_eq, applyBudget_fst, hwithin, hrecord]
  exact ⟨hwithin, rfl⟩

/-- Another value within the budgets is an error of the protocol. -/
lemma emitRecordValue_invalid (hcounts : state.Counts seen) (hnone : state.budgetError = none)
    (h : Counted limits (seen ++ [data])) (hrecord : validRecord data = none) :
    (emitRecordValue limits source state data).1.errorClass? = some .protocol ∧
      (emitRecordValue limits source state data).2 = [] := by
  have hwithin := (applyBudget_within source hcounts h).trans hnone
  rw [emitRecordValue_eq, applyBudget_fst, hwithin, hrecord]
  exact ⟨rfl, rfl⟩

/-- A value beyond a budget is an error of the budget. -/
lemma emitRecordValue_beyond (hcounts : state.Counts seen)
    (h : ¬ Counted limits (seen ++ [data])) :
    (emitRecordValue limits source state data).1.errorClass? = some .unsupported ∧
      (emitRecordValue limits source state data).2 = [] := by
  have hbeyond := applyBudget_beyond source hcounts h
  have hsome : (applyBudget limits source state data).2.budgetError.isSome = true := by
    rw [← Option.isSome_map, ← SinkState.errorClass?, hbeyond]
    rfl
  rw [emitRecordValue_eq, applyBudget_fst, hsome]
  exact ⟨hbeyond, rfl⟩

/-- After an error a value within the budgets changes nothing. -/
lemma emitRecordValue_after (hcounts : state.Counts seen) {errorClass : ErrorClass}
    (herror : state.errorClass? = some errorClass) (h : Counted limits (seen ++ [data])) :
    (emitRecordValue limits source state data).1.errorClass? = some errorClass ∧
      (emitRecordValue limits source state data).2 = [] := by
  have hwithin := applyBudget_within source hcounts h
  have hsome : (applyBudget limits source state data).2.budgetError.isSome = true := by
    rw [hwithin, ← Option.isSome_map, ← SinkState.errorClass?, herror]
    rfl
  rw [emitRecordValue_eq, applyBudget_fst, hsome]
  exact ⟨by simpa [SinkState.errorClass?, hwithin] using herror, rfl⟩

end Counting

/-! ## Streams -/

section Streams

variable [ExternalParsers] {limits : EngineLimits} (source : SourceId) {state : SinkState}
  {seen : List Json}

/-- The events of records. -/
def recordEvents (source : SourceId) (records : List Record) : List WorkerEvent :=
  records.map (WorkerEvent.record source)

/-- One chunk and then the others. -/
lemma emitChunks_cons (data : Json) (rest : List Json) :
    emitChunks limits source state (data :: rest) =
      ((emitChunks limits source (emitRecordValue limits source state data).1 rest).1,
        (emitRecordValue limits source state data).2 ++
          (emitChunks limits source (emitRecordValue limits source state data).1 rest).2) := rfl

/-- One item and then the others, up to the first error. -/
lemma emitItems_cons (data : Json) (rest : List Json) :
    emitItems limits source state (data :: rest) =
      if (emitRecordValue limits source state data).1.budgetError.isSome then
        emitRecordValue limits source state data
      else ((emitItems limits source (emitRecordValue limits source state data).1 rest).1,
        (emitRecordValue limits source state data).2 ++
          (emitItems limits source (emitRecordValue limits source state data).1 rest).2) := rfl

/-- Valid records within the budgets are sent. -/
lemma emitChunks_accepts (hcounts : state.Counts seen) (hnone : state.budgetError = none)
    {good : List Json} (hrecords : AllRecords good) (h : Counted limits (seen ++ good)) :
    (emitChunks limits source state good).1.Counts (seen ++ good) ∧
      (emitChunks limits source state good).1.budgetError = none ∧
      (emitChunks limits source state good).2 = recordEvents source (recordsOf good) := by
  induction good generalizing state seen with
  | nil =>
    rw [List.append_nil]
    exact ⟨hcounts, hnone, rfl⟩
  | cons data good ih =>
    obtain ⟨record, hrecord⟩ :=
      Option.isSome_iff_exists.mp (hrecords data (List.mem_cons_self ..))
    have happend : seen ++ data :: good = (seen ++ [data]) ++ good := by simp
    rw [happend] at h ⊢
    obtain ⟨hnone', hevents⟩ :=
      emitRecordValue_accepts source hcounts hnone h.of_append hrecord
    obtain ⟨hcounts', hlast, hrest⟩ := ih (emitRecordValue_counts source hcounts)
      hnone' (fun v hv => hrecords v (List.mem_cons_of_mem _ hv)) h
    refine ⟨hcounts', hlast, ?_⟩
    rw [emitChunks_cons, hrest, hevents, recordsOf, recordsOf, List.filterMap_cons_some hrecord]
    rfl

/-- After an error nothing is sent any more, but the values are counted: if they exceed a budget, the
error becomes that of the budget. -/
lemma emitChunks_stuck (hcounts : state.Counts seen) {errorClass : ErrorClass}
    (herror : state.errorClass? = some errorClass)
    (hclass : errorClass = .unsupported ∨ Counted limits seen) (values : List Json) :
    (emitChunks limits source state values).1.errorClass? =
        some (if Counted limits (seen ++ values) then errorClass else .unsupported) ∧
      (emitChunks limits source state values).2 = [] := by
  induction values generalizing state seen errorClass with
  | nil =>
    refine ⟨?_, rfl⟩
    rw [List.append_nil]
    rcases hclass with rfl | hcounted
    · simpa [emitChunks] using herror
    · rw [if_pos hcounted]
      exact herror
  | cons data values ih =>
    have happend : seen ++ data :: values = (seen ++ [data]) ++ values := by simp
    have hcounts' : (emitRecordValue limits source state data).1.Counts (seen ++ [data]) :=
      emitRecordValue_counts source hcounts
    rw [happend, emitChunks_cons]
    by_cases hcounted : Counted limits (seen ++ [data])
    · obtain ⟨herror', hnil⟩ := emitRecordValue_after source hcounts herror hcounted
      obtain ⟨hlast, hrest⟩ := ih hcounts' herror' (.inr hcounted)
      exact ⟨hlast, by rw [hnil, hrest]; rfl⟩
    · obtain ⟨herror', hnil⟩ := emitRecordValue_beyond source hcounts hcounted
      obtain ⟨hlast, hrest⟩ := ih hcounts' herror' (.inl rfl)
      refine ⟨?_, by rw [hnil, hrest]; rfl⟩
      rw [if_neg fun h => hcounted h.of_append, hlast]
      split <;> rfl

/-- Chunks one after the other. -/
lemma emitChunks_append (first second : List Json) :
    emitChunks limits source state (first ++ second) =
      ((emitChunks limits source (emitChunks limits source state first).1 second).1,
        (emitChunks limits source state first).2 ++
          (emitChunks limits source (emitChunks limits source state first).1 second).2) := by
  induction first generalizing state with
  | nil => rfl
  | cons data first ih =>
    rw [List.cons_append, emitChunks_cons, ih, emitChunks_cons]
    simp only [List.append_assoc]

/-- A value that is no record within the budgets after others that are. -/
def Offends (limits : EngineLimits) (good : List Json) (next : Json) : Prop :=
  ¬ (AllRecords (good ++ [next]) ∧ Counted limits (good ++ [next]))

/-- An offending value that is counted within the budgets is no record. -/
lemma Offends.validRecord {good : List Json} {next : Json} (hoffends : Offends limits good next)
    (hrecords : AllRecords good) (hcounted : Counted limits (good ++ [next])) :
    validRecord next = none := by
  by_contra hrecord
  refine hoffends ⟨fun v hv => ?_, hcounted⟩
  rcases List.mem_append.mp hv with hv | hv
  · exact hrecords v hv
  · rw [List.mem_singleton.mp hv]
    exact Option.isSome_iff_ne_none.mpr hrecord

/-- The error of the first offending value. -/
lemma emitRecordValue_offends {good : List Json} (hcounts : state.Counts good)
    (hnone : state.budgetError = none) (hrecords : AllRecords good) {next : Json}
    (hoffends : Offends limits good next) :
    (emitRecordValue limits source state next).1.errorClass? =
        some (if Counted limits (good ++ [next]) then .protocol else .unsupported) ∧
      (emitRecordValue limits source state next).2 = [] := by
  by_cases hcounted : Counted limits (good ++ [next])
  · rw [if_pos hcounted]
    exact emitRecordValue_invalid source hcounts hnone hcounted (hoffends.validRecord hrecords hcounted)
  · rw [if_neg hcounted]
    exact emitRecordValue_beyond source hcounts hcounted

/-- **Chunks**: the records before the first offending chunk are sent, and the failure is of the
protocol if all the chunks together are within the budgets. -/
lemma emitChunks_stops {good : List Json} {next : Json} (rest : List Json) (hrecords : AllRecords good)
    (hcounted : Counted limits good) (hoffends : Offends limits good next) :
    (emitChunks limits source .start (good ++ next :: rest)).1.errorClass? =
        some (if Counted limits (good ++ next :: rest) then .protocol else .unsupported) ∧
      (emitChunks limits source .start (good ++ next :: rest)).2 =
        recordEvents source (recordsOf good) := by
  obtain ⟨hcounts, hnone, hevents⟩ :=
    emitChunks_accepts source .start rfl hrecords (by simpa using hcounted)
  rw [List.nil_append] at hcounts
  obtain ⟨herror, hnil⟩ := emitRecordValue_offends source hcounts hnone hrecords hoffends
  have hcounts' : (emitRecordValue limits source (emitChunks limits source .start good).1
      next).1.Counts (good ++ [next]) := emitRecordValue_counts source hcounts
  have hclass : (if Counted limits (good ++ [next]) then ErrorClass.protocol else .unsupported) =
      .unsupported ∨ Counted limits (good ++ [next]) := by
    by_cases h : Counted limits (good ++ [next]) <;> simp [h]
  obtain ⟨hlast, hrest⟩ := emitChunks_stuck source hcounts' herror hclass rest
  rw [emitChunks_append, emitChunks_cons]
  simp only [hnil, hrest, hevents, List.append_nil]
  refine ⟨hlast.trans ?_, trivial⟩
  rw [List.append_assoc, List.singleton_append]
  by_cases h : Counted limits (good ++ next :: rest)
  · have hall : Counted limits ((good ++ [next]) ++ rest) := by simpa using h
    rw [if_pos h, if_pos h, if_pos hall.of_append]
  · rw [if_neg h, if_neg h]

/-- Items that are valid records within the budgets are sent as chunks are. -/
lemma emitItems_append (hcounts : state.Counts seen) (hnone : state.budgetError = none)
    {good : List Json} (hrecords : AllRecords good) (h : Counted limits (seen ++ good))
    (rest : List Json) :
    emitItems limits source state (good ++ rest) =
      ((emitItems limits source (emitChunks limits source state good).1 rest).1,
        (emitChunks limits source state good).2 ++
          (emitItems limits source (emitChunks limits source state good).1 rest).2) := by
  induction good generalizing state seen with
  | nil => rfl
  | cons data good ih =>
    obtain ⟨record, hrecord⟩ :=
      Option.isSome_iff_exists.mp (hrecords data (List.mem_cons_self ..))
    have happend : seen ++ data :: good = (seen ++ [data]) ++ good := by simp
    rw [happend] at h
    obtain ⟨hnone', -⟩ :=
      emitRecordValue_accepts source hcounts hnone h.of_append hrecord
    have hrest := ih (emitRecordValue_counts source hcounts) hnone'
      (fun v hv => hrecords v (List.mem_cons_of_mem _ hv)) h
    rw [List.cons_append, emitItems_cons, hnone', Option.isSome_none, if_neg (by simp), hrest,
      emitChunks_cons]
    simp only [List.append_assoc]

/-- Items that all are valid records within the budgets are sent. -/
lemma emitItems_accepts {good : List Json} (hrecords : AllRecords good)
    (hcounted : Counted limits good) :
    (emitItems limits source .start good).1.budgetError = none ∧
      (emitItems limits source .start good).2 = recordEvents source (recordsOf good) := by
  have h : Counted limits ([] ++ good) := by simpa using hcounted
  obtain ⟨-, hnone, hevents⟩ := emitChunks_accepts source .start rfl hrecords h
  have hitems := emitItems_append source .start rfl hrecords h []
  rw [List.append_nil] at hitems
  rw [hitems]
  exact ⟨hnone, by simp [emitItems, hevents]⟩

/-- **Items**: the records before the first offending item are sent, and the failure is that of this
item. -/
lemma emitItems_stops {good : List Json} {next : Json} (rest : List Json) (hrecords : AllRecords good)
    (hcounted : Counted limits good) (hoffends : Offends limits good next) :
    (emitItems limits source .start (good ++ next :: rest)).1.errorClass? =
        some (if Counted limits (good ++ [next]) then .protocol else .unsupported) ∧
      (emitItems limits source .start (good ++ next :: rest)).2 =
        recordEvents source (recordsOf good) := by
  have h : Counted limits ([] ++ good) := by simpa using hcounted
  obtain ⟨hcounts, hnone, hevents⟩ := emitChunks_accepts source .start rfl hrecords h
  rw [List.nil_append] at hcounts
  obtain ⟨herror, hnil⟩ := emitRecordValue_offends source hcounts hnone hrecords hoffends
  have hsome : (emitRecordValue limits source (emitChunks limits source .start good).1
      next).1.budgetError.isSome = true := by
    rw [← Option.isSome_map, ← SinkState.errorClass?, herror]
    rfl
  rw [emitItems_append source .start rfl hrecords h, emitItems_cons, if_pos hsome]
  exact ⟨herror, by simp only [hnil, hevents, List.append_nil]⟩

end Streams

/-! ## Invocations -/

/-- The values of a returned value: the items of an array, or the value itself. -/
def finalValues : Json → List Json
  | .arr items => items
  | value => [value]

/-- The values that the sink takes from a tool: the chunks it streams, or what it returns if it
streams none. -/
def ToolRun.values (run : ToolRun) : List Json :=
  match run.chunks, run.outcome with
  | [], .ok data => finalValues data
  | [], .error .. => []
  | chunk :: chunks, _ => chunk :: chunks

/-- The tool ended in an error. -/
def ToolRun.failed (run : ToolRun) : Bool :=
  match run.outcome with
  | .ok _ => false
  | .error .. => true

section Law

variable [ExternalParsers]

/-- What an invocation should send for the values of a tool: the records of the longest prefix that
consists of valid records within the budgets; and then, if this prefix is not everything or the tool
ended in an error, one failure. If the prefix is not everything, the failure has the class of the
first value after it. -/
def FollowsPrefixLaw (limits : EngineLimits) (source : SourceId) (run : ToolRun)
    (events : List WorkerEvent) : Prop :=
  ∃ good, ∃ failure : Option EngineDiagnostic,
    IsLongestPrefix (fun values => AllRecords values ∧ Fits limits values) run.values good ∧
    events = recordEvents source (recordsOf good) ++ (failure.map WorkerEvent.failed).toList ∧
    (failure.isSome = true ↔ good ≠ run.values ∨ run.failed = true) ∧
    ∀ next rest, run.values = good ++ next :: rest → ∀ diagnostic ∈ failure,
      diagnostic.errorClass = if Fits limits (good ++ [next]) then .protocol else .unsupported

/-- Counting does not change what is reported: records that are counted within the budgets are
within them; and if the first offending value is no record but counted within the budgets, it is
within them exactly if all the chunks that the tool streams are counted so. -/
def CountsWell (limits : EngineLimits) (run : ToolRun) : Prop :=
  (∀ good, good <+: run.values → AllRecords good → Counted limits good → Fits limits good) ∧
    ∀ good next rest, run.values = good ++ next :: rest → AllRecords good →
      validRecord next = none → Counted limits (good ++ [next]) →
        (Fits limits (good ++ [next]) ↔ (run.chunks ≠ [] → Counted limits run.values))

variable {limits : EngineLimits} (source : SourceId)

/-- Taking a returned value is taking its values as items. -/
lemma emitFinalData_eq (state : SinkState) (data : Json) :
    emitFinalData limits source state data = emitItems limits source state (finalValues data) := by
  have hsingle : ∀ value, emitRecordValue limits source state value =
      emitItems limits source state [value] := by
    intro value
    rw [emitItems_cons]
    split
    · rfl
    · simp [emitItems]
  cases data with
  | arr items => rfl
  | null => exact hsingle _
  | bool value => exact hsingle _
  | num literal => exact hsingle _
  | str value => exact hsingle _
  | obj fields => exact hsingle _

/-- An error that the sink has met is reported. -/
lemma finishStreamOutcome_error {state : SinkState} {errorClass : ErrorClass}
    (herror : state.errorClass? = some errorClass) (outcome : ToolCallOutcome) :
    ∃ diagnostic, finishStreamOutcome limits source state outcome = [.failed diagnostic] ∧
      diagnostic.errorClass = errorClass := by
  obtain ⟨error, hsome, rfl⟩ := Option.map_eq_some_iff.mp herror
  rw [finishStreamOutcome.eq_def, hsome]
  exact ⟨.ofError error, rfl, rfl⟩

/-- What a worker sends for what a tool does. -/
def toolEvents (limits : EngineLimits) (source : SourceId) (run : ToolRun) : List WorkerEvent :=
  (emitChunks limits source .start run.chunks).2 ++
    finishStreamOutcome limits source (emitChunks limits source .start run.chunks).1 run.outcome

/-- A worker sends what it sends for its tool. -/
lemma runSourceOperation_eq {planned : PlannedSource} {tool : String}
    (htool : planned.source.descriptor.toolName planned.operation = some tool) :
    runSourceOperation limits planned = toolEvents limits planned.source.id
      (planned.source.catalog tool planned.input.arguments) := by
  rw [runSourceOperation, htool]
  rfl

/-- What a worker sends for a value that its tool returns without streaming. -/
lemma toolEvents_returned (data : Json) :
    toolEvents limits source ⟨[], .ok data⟩ =
      (emitItems limits source .start (finalValues data)).2 ++
        ((emitItems limits source .start (finalValues data)).1.budgetError.map
          failedEvent).toList := by
  rw [← emitFinalData_eq]
  rfl

/-- An invocation whose values all are records within the budgets sends them, and fails if the tool
ended in an error. -/
lemma toolEvents_whole {run : ToolRun} (hrecords : AllRecords run.values)
    (hcounted : Counted limits run.values) :
    ∃ failure : Option EngineDiagnostic, (failure.isSome = run.failed) ∧
      toolEvents limits source run = recordEvents source (recordsOf run.values) ++
        (failure.map WorkerEvent.failed).toList := by
  obtain ⟨chunks, outcome⟩ := run
  cases chunks with
  | nil =>
    cases outcome with
    | error code message retryable exitCode =>
      exact ⟨some (.ofError ⟨source, errorClass code, message, none⟩), rfl, rfl⟩
    | ok data =>
      have hvalues : ToolRun.values ⟨[], .ok data⟩ = finalValues data := rfl
      rw [hvalues] at hrecords hcounted ⊢
      obtain ⟨hnone, hevents⟩ := emitItems_accepts source hrecords hcounted
      exact ⟨none, rfl, by rw [toolEvents_returned, hnone, hevents]; rfl⟩
  | cons chunk chunks =>
    have hvalues : ToolRun.values ⟨chunk :: chunks, outcome⟩ = chunk :: chunks := rfl
    rw [hvalues] at hrecords hcounted ⊢
    have h : Counted limits ([] ++ chunk :: chunks) := hcounted
    obtain ⟨hcounts, hnone, hevents⟩ := emitChunks_accepts source .start rfl hrecords h
    -- something was streamed, so what the tool returns is not looked at
    have hpos : (emitChunks limits source .start (chunk :: chunks)).1.records ≠ 0 := by
      rw [hcounts.1]
      simp [usizeMax]
    rw [toolEvents, hevents, finishStreamOutcome.eq_def, hnone]
    cases outcome with
    | error code message retryable exitCode =>
      exact ⟨some (.ofError ⟨source, errorClass code, message, none⟩), rfl, rfl⟩
    | ok data => exact ⟨none, rfl, by simp only [if_neg hpos]; rfl⟩

/-- An invocation with an offending value sends the records before it, and fails: the class of the
failure depends on the values that were counted. -/
lemma toolEvents_stops {run : ToolRun} {good rest : List Json} {next : Json}
    (hvalues : run.values = good ++ next :: rest) (hrecords : AllRecords good)
    (hcounted : Counted limits good) (hoffends : Offends limits good next) :
    ∃ diagnostic : EngineDiagnostic,
      toolEvents limits source run =
        recordEvents source (recordsOf good) ++ [.failed diagnostic] ∧
      diagnostic.errorClass =
        if Counted limits (if run.chunks = [] then good ++ [next] else run.values) then .protocol
        else .unsupported := by
  obtain ⟨chunks, outcome⟩ := run
  cases chunks with
  | nil =>
    cases outcome with
    | error code message retryable exitCode => simp [ToolRun.values] at hvalues
    | ok data =>
      obtain ⟨herror, hevents⟩ := emitItems_stops source rest hrecords
        hcounted hoffends
      rw [← hvalues] at herror hevents
      obtain ⟨error, hsome, hclass⟩ := Option.map_eq_some_iff.mp herror
      refine ⟨.ofError error, ?_, hclass⟩
      change (emitItems limits source .start (finalValues data)).1.budgetError = _ at hsome
      change (emitItems limits source .start (finalValues data)).2 = _ at hevents
      rw [toolEvents_returned, hsome, hevents]
      rfl
  | cons chunk chunks =>
    obtain ⟨herror, hevents⟩ := emitChunks_stops source rest hrecords
      hcounted hoffends
    rw [← hvalues] at herror hevents
    obtain ⟨diagnostic, hfinish, hclass⟩ :=
      finishStreamOutcome_error source herror outcome
    refine ⟨diagnostic, ?_, hclass⟩
    rw [toolEvents, ← hfinish, ← hevents]
    rfl

/-! ## The law -/

omit [ExternalParsers] in
/-- Records and a failure after them are read back from the events. -/
lemma recordEvents_append_inj {a b : List Record} {f g : Option EngineDiagnostic}
    (h : recordEvents source a ++ (f.map WorkerEvent.failed).toList =
      recordEvents source b ++ (g.map WorkerEvent.failed).toList) : a = b ∧ f = g := by
  induction a generalizing b with
  | nil =>
    cases b with
    | nil =>
      refine ⟨rfl, ?_⟩
      cases f <;> cases g <;> simp_all [recordEvents]
    | cons record b => cases f <;> simp [recordEvents] at h
  | cons record a ih =>
    cases b with
    | nil => cases g <;> simp [recordEvents] at h
    | cons record' b =>
      simp only [recordEvents, List.map_cons, List.cons_append, List.cons.injEq,
        WorkerEvent.record.injEq, true_and] at h
      obtain ⟨rfl, rfl⟩ := ih h.2
      exact ⟨by rw [h.1], rfl⟩

/-- Prefixes of records are equal if the records are. -/
lemma eq_of_recordsOf_eq {values a b : List Json} (ha : a <+: values) (hb : b <+: values)
    (hrecords : AllRecords a) (hrecords' : AllRecords b) (h : recordsOf a = recordsOf b) : a = b := by
  have hlength : a.length = b.length := by
    rw [← length_recordsOf hrecords, ← length_recordsOf hrecords', h]
  exact (List.prefix_of_prefix_length_le ha hb hlength.le).eq_of_length hlength

/-- The first of some records are records. -/
lemma AllRecords.of_append {a b : List Json} (h : AllRecords (a ++ b)) : AllRecords a :=
  fun value hvalue => h value (List.mem_append_left _ hvalue)

/-- The values before the first one that is not counted as a record within the budgets. -/
lemma exists_counted_prefix (limits : EngineLimits) (values : List Json) :
    ∃ good, IsLongestPrefix (fun p => AllRecords p ∧ Counted limits p) values good :=
  IsLongestPrefix.exists_of_nil ⟨fun _ h => absurd h (List.not_mem_nil), by simp [Counted, byteTotal]⟩
    values

/-- A value that is no record stands right after the longest counted prefix, if it is counted within
the budgets. -/
lemma eq_of_not_record {values good p rest : List Json} {next : Json}
    (hgood : IsLongestPrefix (fun q => AllRecords q ∧ Counted limits q) values good)
    (hvalues : values = p ++ next :: rest) (hrecords : AllRecords p)
    (hnone : validRecord next = none) (hcounted : Counted limits (p ++ [next])) : p = good := by
  obtain ⟨more, hmore⟩ :=
    hgood.longest p ⟨next :: rest, hvalues.symm⟩ ⟨hrecords, hcounted.of_append⟩
  obtain ⟨last, hlast⟩ := hgood.isPrefix
  cases more with
  | nil => rw [← hmore, List.append_nil]
  | cons value more =>
    -- the value would be a record of the longest prefix
    rw [← hlast, ← hmore, List.append_assoc, List.append_right_inj, List.cons_append,
      List.cons.injEq] at hvalues
    have hrecord := hgood.holds.1 value (by rw [← hmore]; simp)
    rw [hvalues.1, hnone] at hrecord
    exact absurd hrecord (by simp)

/-- An invocation without an offending value follows the law exactly if the counters count well. -/
private lemma prefix_law_whole {run : ToolRun} (hrecords : AllRecords run.values)
    (hcounted : Counted limits run.values) :
    FollowsPrefixLaw limits source run (toolEvents limits source run) ↔ CountsWell limits run := by
  obtain ⟨failure, hfailed, hevents⟩ := toolEvents_whole source hrecords hcounted
  constructor
  · rintro ⟨good, failure', hgood, hsame, -⟩
    obtain ⟨heq, -⟩ := recordEvents_append_inj source (hevents.symm.trans hsame)
    obtain rfl := eq_of_recordsOf_eq (List.prefix_refl _) hgood.isPrefix hrecords hgood.holds.1 heq
    refine ⟨fun p hp _ _ => ?_, fun p next rest hvalues _ hnone => ?_⟩
    · obtain ⟨more, hmore⟩ := hp
      exact Fits.of_append (hmore ▸ hgood.holds.2)
    · -- every value is a record
      have hnext := hrecords next (by rw [hvalues]; simp)
      rw [hnone] at hnext
      exact absurd hnext (by simp)
  · rintro ⟨hfits, -⟩
    have hall := hfits run.values (List.prefix_refl _) hrecords hcounted
    refine ⟨run.values, failure, ⟨List.prefix_refl _, ⟨hrecords, hall⟩, fun q hq _ => hq⟩, hevents,
      by simp [hfailed], fun next rest hvalues => ?_⟩
    exact absurd (congrArg List.length hvalues) (by simp)

/-- An invocation with an offending value follows the law exactly if the counters count well. -/
private lemma prefix_law_stops {run : ToolRun} {good rest : List Json} {next : Json}
    (hvalues : run.values = good ++ next :: rest)
    (hgood : IsLongestPrefix (fun p => AllRecords p ∧ Counted limits p) run.values good) :
    FollowsPrefixLaw limits source run (toolEvents limits source run) ↔ CountsWell limits run := by
  have hoffends : Offends limits good next := hgood.not_next hvalues
  obtain ⟨diagnostic, hevents, hclass⟩ :=
    toolEvents_stops source hvalues hgood.holds.1 hgood.holds.2 hoffends
  -- which values the failure depends on
  have hseen : Counted limits (good ++ [next]) →
      (Counted limits (if run.chunks = [] then good ++ [next] else run.values) ↔
        (run.chunks ≠ [] → Counted limits run.values)) := by
    intro hcounted
    by_cases hchunks : run.chunks = [] <;> simp [hchunks, hcounted]
  constructor
  · rintro ⟨good', failure, hgood', hsame, -, hfailure⟩
    obtain ⟨heq, rfl⟩ := recordEvents_append_inj source (f := some diagnostic) (hevents.symm.trans hsame)
    obtain rfl := eq_of_recordsOf_eq hgood.isPrefix hgood'.isPrefix hgood.holds.1 hgood'.holds.1 heq
    refine ⟨fun p hp hrecords hcounted => ?_, fun p next' rest' hvalues' hrecords hnone hcounted => ?_⟩
    · obtain ⟨more, hmore⟩ := hgood.longest p hp ⟨hrecords, hcounted⟩
      exact Fits.of_append (hmore ▸ hgood'.holds.2)
    · obtain rfl := eq_of_not_record hgood hvalues' hrecords hnone hcounted
      obtain ⟨rfl, rfl⟩ := List.cons.inj (List.append_cancel_left (hvalues'.symm.trans hvalues))
      have hsameClass := (hfailure _ _ hvalues diagnostic rfl).symm.trans hclass
      rw [← hseen hcounted]
      by_cases hfits : Fits limits (p ++ [next']) <;>
        by_cases hall : Counted limits (if run.chunks = [] then p ++ [next'] else run.values) <;>
        simp [hfits, hall] at hsameClass ⊢
  · rintro ⟨hfits, hstays⟩
    have hgoodFits := hfits good hgood.isPrefix hgood.holds.1 hgood.holds.2
    refine ⟨good, some diagnostic, ⟨hgood.isPrefix, ⟨hgood.holds.1, hgoodFits⟩,
      fun q hq h => hgood.longest q hq ⟨h.1, h.2.counted⟩⟩, hevents, ?_, ?_⟩
    · have hproper : good ≠ run.values := fun heq =>
        absurd (congrArg List.length (heq.trans hvalues)) (by simp)
      simp [hproper]
    · intro next' rest' hvalues' reported hreported
      obtain rfl : diagnostic = reported := by simpa using hreported
      obtain ⟨rfl, rfl⟩ := List.cons.inj (List.append_cancel_left (hvalues'.symm.trans hvalues))
      rw [hclass]
      by_cases hcounted : Counted limits (good ++ [next'])
      · have hiff := hstays good next' rest' hvalues hgood.holds.1
          (hoffends.validRecord hgood.holds.1 hcounted) hcounted
        rw [← hseen hcounted] at hiff
        simp only [hiff]
      · have hnotFits : ¬ Fits limits (good ++ [next']) := fun h => hcounted h.counted
        have hnot : ¬ Counted limits (if run.chunks = [] then good ++ [next'] else run.values) := by
          split
          · exact hcounted
          · intro h
            have hall : Counted limits ((good ++ [next']) ++ rest') := by
              rw [List.append_assoc, List.singleton_append, ← hvalues]
              exact h
            exact hcounted hall.of_append
        rw [if_neg hnot, if_neg hnotFits]

/-- **The prefix law**: for every limits and everything a tool does, the worker sends the records of
the longest prefix of valid records within the budgets, and then the failure that belongs to it,
exactly if the counters count well.

**Proof sketch.** The sink sends the records of the longest prefix that is counted within the
budgets. If this is not everything, the first offending value decides about the failure among
returned items; among chunks it is a failure of the budget if all of them together exceed one. -/
theorem prefix_law_iff (limits : EngineLimits) (planned : PlannedSource) (tool : String)
    (htool : planned.source.descriptor.toolName planned.operation = some tool) :
    FollowsPrefixLaw limits planned.source.id
        (planned.source.catalog tool planned.input.arguments)
        (runSourceOperation limits planned) ↔
      CountsWell limits (planned.source.catalog tool planned.input.arguments) := by
  rw [runSourceOperation_eq htool]
  generalize planned.source.catalog tool planned.input.arguments = run
  obtain ⟨good, hgood⟩ := exists_counted_prefix limits run.values
  obtain ⟨rest, hrest⟩ := hgood.isPrefix
  cases rest with
  | nil =>
    rw [List.append_nil] at hrest
    obtain rfl := hrest
    exact prefix_law_whole _ hgood.holds.1 hgood.holds.2
  | cons next rest => exact prefix_law_stops _ hrest.symm hgood

end Law

/-! ## Later chunks -/

/-- A search of a source whose tool streams chunks and then returns nothing. -/
def streaming (chunks : List Json) : PlannedSource :=
  ⟨⟨.new ⟨"a", by decide⟩ "" ⟨true, false, false⟩, fun _ _ => ⟨chunks, .ok .null⟩⟩, .search,
    .query ⟨"q", none, none, none⟩⟩

/-- No value is a record in `null`. -/
private lemma validRecord_null :
    letI : ExternalParsers := .ofHost "example.com"
    validRecord .null = none := by
  decide

/-- The equivalence for one chunk that is no record. -/
theorem prefix_law_one_chunk :
    letI : ExternalParsers := .ofHost "example.com"
    FollowsPrefixLaw .default ⟨"a", by decide⟩ ⟨[.null], .ok .null⟩
      (runSourceOperation .default (streaming [.null])) := by
  let _ : ExternalParsers := .ofHost "example.com"
  refine (prefix_law_iff .default (streaming [.null]) "comsat_a_search" (by decide)).mpr ⟨?_, ?_⟩
  · intro good hgood _ _
    rcases good with _ | ⟨value, good⟩
    · decide
    · obtain ⟨rest, hrest⟩ := hgood
      have hvalues : value :: good ++ rest = [.null] := hrest
      obtain ⟨rfl, hnil⟩ := List.cons.inj hvalues
      obtain ⟨rfl, -⟩ := List.append_eq_nil_iff.mp hnil
      decide
  · intro good next rest hvalues _ _ _
    have hsingle : [.null] = good ++ next :: rest := hvalues
    rcases good with _ | ⟨value, good⟩
    · obtain ⟨rfl, rfl⟩ := List.cons.inj hsingle
      exact iff_of_true (by decide) fun _ => by decide
    · exact absurd (congrArg List.length hsingle) (by simp)

/-- Limits of one record. -/
def oneRecordLimits : EngineLimits := { EngineLimits.default with maxRecordsPerSource := 1 }

set_option maxRecDepth 100000 in
/-- Two chunks that are no records are reported as a budget that is exceeded. -/
private lemma two_chunks_class :
    letI : ExternalParsers := .ofHost "example.com"
    (runSourceOperation oneRecordLimits (streaming [.null, .null])).map (fun event =>
      match event with
      | .record .. => none
      | .failed diagnostic => some diagnostic.errorClass) = [some .unsupported] := by
  decide

/-- Later chunks may change the class of the failure: the first one is no record but within the
budgets, the second one exceeds them, and the budget is reported. -/
theorem later_chunks_change_class :
    letI : ExternalParsers := .ofHost "example.com"
    ¬ ∀ (limits : EngineLimits) (planned : PlannedSource) (tool : String),
      planned.source.descriptor.toolName planned.operation = some tool →
        FollowsPrefixLaw limits planned.source.id
          (planned.source.catalog tool planned.input.arguments)
          (runSourceOperation limits planned) := by
  let _ : ExternalParsers := .ofHost "example.com"
  intro h
  obtain ⟨good, failure, hgood, hevents, -, hclass⟩ :=
    h oneRecordLimits (streaming [.null, .null]) "comsat_a_search" (by decide)
  -- no chunk is a record
  have hnil : good = [] := by
    rcases good with _ | ⟨value, good⟩
    · rfl
    · obtain ⟨rest, hrest⟩ := hgood.isPrefix
      have hvalues : value :: good ++ rest = [.null, .null] := hrest
      obtain ⟨rfl, -⟩ := List.cons.inj hvalues
      have hrecord := hgood.holds.1 .null (List.mem_cons_self ..)
      rw [validRecord_null] at hrecord
      exact absurd hrecord (by simp)
  subst hnil
  have hreported := two_chunks_class
  rw [hevents] at hreported
  cases failure with
  | none => simp [recordEvents, recordsOf] at hreported
  | some diagnostic =>
    have hprotocol := hclass .null [.null] rfl diagnostic rfl
    rw [if_pos (by decide)] at hprotocol
    simp [recordEvents, recordsOf, hprotocol] at hreported

end Comsat
