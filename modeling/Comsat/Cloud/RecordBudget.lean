import Comsat.App.ExecutedRuns
import Comsat.Store.RecordsJson

set_option relaxedAutoImplicit false
set_option autoImplicit false

/-!
# The budgets of the Worker

The engine counts what the sources return, and the D1 adapter counts what it binds of the records:
with the names of all fields, and with their metadata as a text, in which every quote is escaped
once more.

## Main definitions

* `WorkerRun.boundBytes` — the bytes that the records of a run take when they are bound.

## Main results

* `cloud_records_bound_iff` — the records of a run are bound exactly when these bytes fit; and they
  do if binding adds little.
* `cloud_records_not_bound` — three sources within their budgets whose records are not bound.
-/

namespace Comsat

open Json

/-! ## Bound records -/

section

variable [ExternalParsers]

/-- The bytes that the records of a run take when they are bound: those of the records, what the text
of their metadata adds, longer names and commas. -/
def WorkerRun.boundBytes (run : WorkerRun) : ℕ :=
  (run.outcome.records.map fun record =>
    record.toJson.byteLength + record.reencodedBytes + 16).sum + 1

omit [ExternalParsers] in
/-- Sums over records. -/
lemma sum_boundBytes (records : List Record) :
    (records.map fun record => record.toJson.byteLength + record.reencodedBytes + 16).sum =
      (records.map fun record => record.toJson.byteLength).sum +
        (records.map Record.reencodedBytes).sum + 16 * records.length := by
  induction records with
  | nil => rfl
  | cons record records ih =>
    simp only [List.map_cons, List.sum_cons, List.length_cons] at ih ⊢
    omega

/-- The records of a completion are those that the search came to. -/
lemma WorkerRun.records_request [DefaultHasher] (run : WorkerRun) :
    run.request.records = run.outcome.records := rfl

/-- **Which records are bound.** For every run of the Worker with at most four sources, whatever
their tools return: the records are bound exactly when they take at most 1 MiB then; in particular
if escaping their metadata once more adds little, and else the database is left alone.

**Proof sketch.** The bytes of a bound record are those of the record and what binding it adds
(`D1Store.recordsFit_iff`), and the records of four sources take at most 960 KiB and 88 bytes for
the names of each (`SearchDriver.collected_bytes_le`). -/
theorem cloud_records_bound_iff [DefaultHasher] (run : WorkerRun)
    (hsources : run.catalog.sources.length ≤ 4) :
    ((∃ json, D1Store.recordsJson run.request = .ok json) ↔
        run.boundBytes ≤ D1Store.maxRecordsJsonBytes) ∧
      ((run.outcome.records.map fun record => record.reencodedBytes + 104).sum < 2 ^ 16 →
        run.boundBytes ≤ D1Store.maxRecordsJsonBytes) ∧
      (¬ run.boundBytes ≤ D1Store.maxRecordsJsonBytes →
        ∀ db, (D1Store.completeWatchRun db run.request).1 = db) := by
  have hfit : D1Store.RecordsFit run.request ↔
      run.boundBytes ≤ D1Store.maxRecordsJsonBytes := by
    rw [D1Store.recordsFit_iff, run.records_request, WorkerRun.boundBytes, sum_boundBytes]
    cases run.outcome.records with
    | nil => decide
    | cons record records =>
      simp only [List.length_cons]
      omega
  refine ⟨?_, fun hadded => ?_, fun hlarge db => ?_⟩
  · rw [← hfit, D1Store.RecordsFit, D1Store.recordsJson]
    split
    · next hle => exact ⟨fun _ => hle, fun _ => ⟨_, rfl⟩⟩
    · next hlarge =>
      refine ⟨?_, fun hle => absurd hle hlarge⟩
      rintro ⟨json, hjson⟩
      cases hjson
  · have hbudget : (run.outcome.records.map fun record => record.toJson.byteLength).sum ≤
        run.catalog.sources.length * cloudMaxBytesPerSource + 88 * run.outcome.records.length :=
      SearchDriver.collected_bytes_le run.catalog cloudLimits run.polls rfl (by decide)
    have hfour := Nat.mul_le_mul_right cloudMaxBytesPerSource hsources
    rw [List.sum_map_add, List.map_const', List.sum_replicate_nat] at hadded
    rw [WorkerRun.boundBytes, sum_boundBytes]
    simp only [cloudMaxBytesPerSource, D1Store.maxRecordsJsonBytes] at *
    omega
  · exact D1Store.completeWatchRun_of_not_fit (hfit.not.mpr hlarge)

end

/-! ## Three sources -/

/-- A text of quotes. -/
def quotes (n : ℕ) : String := String.ofList (List.replicate n '"')

/-- The bytes of a text of quotes. -/
lemma quotedBytes_quotes (n : ℕ) : quotedBytes (quotes n) = 2 * n + 2 := by
  have hquote : escapedBytes '"' = 2 := by decide
  rw [quotedBytes_eq, quotes, String.toList_ofList, List.map_replicate, hquote,
    List.sum_replicate_nat]
  omega

/-- Escaping a text of quotes once more escapes their escapes as well. -/
lemma le_quotedBytes_compact_quotes (n : ℕ) :
    4 * n ≤ quotedBytes (compact (.obj [("a", .str (quotes n))])) := by
  have hsum : ∀ first second : String, ((first ++ second).toList.map escapedBytes).sum =
      (first.toList.map escapedBytes).sum + (second.toList.map escapedBytes).sum := by
    intro first second
    rw [String.toList_append, List.map_append, List.sum_append]
  have hjoin : ∀ n : ℕ, ((String.join ((List.replicate n '"').map escapeChar)).toList.map
      escapedBytes).sum = 4 * n := by
    intro n
    have hescape : ((escapeChar '"').toList.map escapedBytes).sum = 4 := by decide
    induction n with
    | zero => rfl
    | succ n ih =>
      rw [List.replicate_succ, List.map_cons, String.join_cons, hsum, ih, hescape]
      omega
  have hquote : 4 * n ≤ ((quote (quotes n)).toList.map escapedBytes).sum := by
    have hall := hjoin n
    rw [quote, hsum, hsum, quotes, String.toList_ofList (l := List.replicate n '"')]
    omega
  rw [quotedBytes_eq, compact, compactFields, compactFields, String.intercalate_singleton, hsum,
    hsum, hsum, compact]
  omega

/-- A story with a text of quotes in its metadata. -/
def quotingRecord (source : SourceId) (n : ℕ) : Record :=
  ⟨⟨"1", RecordId.isValid_one⟩, source, "story", "https://example.com/" ++ source.value, none, none,
    none, none, none, .obj [("a", .str (quotes n))]⟩

/-- A source that returns such a story. -/
def quotingSource (source : SourceId) (n : ℕ) : CatalogSource :=
  ⟨.new source "" ⟨true, false, false⟩, fun _ _ => ⟨[], .ok (quotingRecord source n).toJson⟩⟩

/-- The bytes of such a story. -/
lemma byteLength_quotingRecord (source : SourceId) (n : ℕ) :
    (quotingRecord source n).toJson.byteLength = 2 * n + 137 + quotedBytes source.value +
      quotedBytes ("https://example.com/" ++ source.value) := by
  have hvalues : quotedBytes "1" = 3 ∧ quotedBytes "story" = 7 ∧ quotedBytes "a" = 3 := by decide
  have hnull : Json.null.byteLength = 4 := by decide
  obtain ⟨h₁, h₂, h₃⟩ := hvalues
  rw [Record.byteLength_toJson, Record.valueBytes]
  simp only [quotingRecord, optStr, byteLength_obj, List.map_cons, List.map_nil, List.sum_cons,
    List.sum_nil, List.length_cons, List.length_nil, Record.fieldBytes_mk, byteLength_str,
    quotedBytes_quotes, h₁, h₂, h₃, hnull]
  omega

/-- The bytes of such a story when it is bound. -/
lemma le_boundBytes_quotingRecord (source : SourceId) (n : ℕ) :
    4 * n ≤ (quotingRecord source n).toJson.byteLength +
      (quotingRecord source n).reencodedBytes := by
  have hquotes := le_quotedBytes_compact_quotes n
  have hadded := (quotingRecord source n).le_reencodedBytes.2
  have hmetadata : (quotingRecord source n).metadata = .obj [("a", .str (quotes n))] := rfl
  rw [hmetadata] at hadded
  rw [Record.byteLength_toJson, Record.valueBytes, hmetadata]
  omega

/-- Three sources, which return such stories. -/
def quotingCatalog (n : ℕ) : SourceCatalog where
  sources := [quotingSource ⟨"a", SourceId.isValid_a⟩ n, quotingSource ⟨"b", by decide⟩ n,
    quotingSource ⟨"c", by decide⟩ n]
  unique :=
    show [SourceId.mk "a" SourceId.isValid_a, ⟨"b", by decide⟩, ⟨"c", by decide⟩].Nodup by decide

/-- The search of the three sources. -/
lemma planSearch_quotingCatalog (n : ℕ) (query : Query) :
    planSearch (quotingCatalog n).sources ⟨query, [], false⟩ =
      ((quotingCatalog n).sources.map fun source => plannedSearch source ⟨query, [], false⟩, [],
        false) := by
  have hids : selectedSourceIds (quotingCatalog n).sources [] =
      [⟨"a", by decide⟩, ⟨"b", by decide⟩, ⟨"c", by decide⟩] :=
    show sortDedup [⟨"a", by decide⟩, ⟨"b", by decide⟩, ⟨"c", by decide⟩] = _ by decide
  rw [planSearch, hids]
  rfl

/-- A run of the Worker that searches the three sources. -/
def quotingRun (n : ℕ) : WorkerRun where
  message := ⟨"t", "w", ⟨"q", none, none, none⟩, [], .obj [], "o", 60⟩
  run := ⟨"t", "w", "r", "k", "o", .running, 0, none, none⟩
  catalog := quotingCatalog n
  polls := [[SearchDriver.promptly], [SearchDriver.promptly], [SearchDriver.promptly]]
  webhooks := none
  finishedAt := 20
  clock := ⟨by decide, by decide⟩

/-- The worker of one of the three sources sends its story. -/
lemma runSourceOperation_quotingSource {source : SourceId} {n : ℕ} {query : Query}
    (hvalid : letI : ExternalParsers := .ofHost "example.com"
      (quotingRecord source n).validate = .ok ())
    (hsize : quotedBytes source.value + quotedBytes ("https://example.com/" ++ source.value) ≤ 100)
    (hn : n ≤ 120000) :
    letI : ExternalParsers := .ofHost "example.com"
    runSourceOperation cloudLimits (plannedSearch (quotingSource source n) ⟨query, [], false⟩) =
      [.record source (quotingRecord source n)] := by
  let _ : ExternalParsers := .ofHost "example.com"
  refine SearchDriver.runSourceOperation_of_ok rfl rfl hvalid ⟨show 1 ≤ 1000 by decide, ?_⟩
  have hbytes := byteLength_quotingRecord source n
  have hlimit : cloudLimits.maxBytesPerSource = 245760 := rfl
  simp only [byteTotal, List.map_cons, List.map_nil, List.sum_cons, List.sum_nil]
  omega

/-- The search of the run collects the three stories. -/
lemma outcome_quotingRun {n : ℕ} (hn : n ≤ 120000) :
    letI : ExternalParsers := .ofHost "example.com"
    (quotingRun n).outcome = ⟨[quotingRecord ⟨"a", by decide⟩ n, quotingRecord ⟨"b", by decide⟩ n,
      quotingRecord ⟨"c", by decide⟩ n], []⟩ := by
  let _ : ExternalParsers := .ofHost "example.com"
  have hvalid : ∀ source, (quotingRecord source 0).validate = .ok () →
      (quotingRecord source n).validate = .ok () := fun _ h => h
  exact SearchDriver.collected_three (quotingCatalog n).unique rfl (planSearch_quotingCatalog n _)
    (runSourceOperation_quotingSource (hvalid _ (by decide)) (by decide) hn)
    (runSourceOperation_quotingSource (hvalid _ (by decide)) (by decide) hn)
    (runSourceOperation_quotingSource (hvalid _ (by decide)) (by decide) hn)
    (show (DedupeSet.empty.insert (quotingRecord ⟨"a", by decide⟩ 0)).1 = true by decide)
    (show ((DedupeSet.empty.insert (quotingRecord ⟨"a", by decide⟩ 0)).2.insert
      (quotingRecord ⟨"b", by decide⟩ 0)).1 = true by decide)
    (show (((DedupeSet.empty.insert (quotingRecord ⟨"a", by decide⟩ 0)).2.insert
      (quotingRecord ⟨"b", by decide⟩ 0)).2.insert (quotingRecord ⟨"c", by decide⟩ 0)).1 = true by
        decide)

/-- Without quotes the records of the run are bound: escaping their metadata adds little. -/
theorem cloud_records_bound_iff_short :
    letI : ExternalParsers := .ofHost "example.com"
    letI : DefaultHasher := .constant
    ∃ json, D1Store.recordsJson (quotingRun 0).request = .ok json := by
  let _ : ExternalParsers := .ofHost "example.com"
  let _ : DefaultHasher := .constant
  obtain ⟨hiff, hadded, -⟩ := cloud_records_bound_iff (quotingRun 0) (by decide)
  refine hiff.mpr (hadded ?_)
  rw [outcome_quotingRun (Nat.zero_le _)]
  decide

/-- The records of the run are refused if the stories are long. -/
lemma recordsJson_quotingRun {n : ℕ} (hlow : 90000 ≤ n) (hn : n ≤ 120000) :
    letI : ExternalParsers := .ofHost "example.com"
    letI : DefaultHasher := .constant
    D1Store.recordsJson (quotingRun n).request =
      .error (.validation "serialized D1 completion records exceed 1048576 bytes") := by
  let _ : ExternalParsers := .ofHost "example.com"
  let _ : DefaultHasher := .constant
  have hfit : ¬ D1Store.RecordsFit (quotingRun n).request := by
    have ha := le_boundBytes_quotingRecord ⟨"a", by decide⟩ n
    have hb := le_boundBytes_quotingRecord ⟨"b", by decide⟩ n
    have hc := le_boundBytes_quotingRecord ⟨"c", by decide⟩ n
    rw [D1Store.recordsFit_iff, WorkerRun.records_request, outcome_quotingRun hn,
      D1Store.maxRecordsJsonBytes]
    simp only [List.map_cons, List.map_nil, List.sum_cons, List.sum_nil, List.length_cons,
      List.length_nil]
    omega
  rw [D1Store.recordsJson]
  exact if_neg hfit

/-- **The budgets do not compose**: three sources return a story with 120,000 quotes each, within
their budgets, and the records of the run are refused for their size. -/
theorem cloud_records_not_bound :
    letI : ExternalParsers := .ofHost "example.com"
    letI : DefaultHasher := .constant
    (quotingRun 120000).catalog.sources.length = 3 ∧
      D1Store.recordsJson (quotingRun 120000).request =
        .error (.validation "serialized D1 completion records exceed 1048576 bytes") := by
  have hlow : 90000 ≤ 120000 := by omega
  exact ⟨rfl, recordsJson_quotingRun hlow le_rfl⟩

end Comsat
