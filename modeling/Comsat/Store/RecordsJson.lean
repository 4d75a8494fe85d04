import Comsat.Store.PayloadContent
import Comsat.Types.JsonSize

set_option relaxedAutoImplicit false
set_option autoImplicit false

/-!
# The size of records and notifications

How many bytes the records of a completion take that the D1 adapter binds, and how many bytes the
payload of a notification takes.

## Main definitions

* `Record.reencodedBytes` — what binding the metadata of a record as a text adds.
* `Adapter.notificationBytes` — the bytes of the notification of a completion.

## Main results

* `D1Store.byteLength_bulkRecord` — the bytes of a bound record.
* `D1Store.recordsFit_iff` — when the records of a request are within the limit of the batch.
* `DeliveryPayload.byteLength_toJson` — the bytes of a payload: those of its envelope and records.
* `Adapter.newRecords_subperm` — a notification tells records of the request.
-/

namespace Comsat

open Json

/-! ## Bound records -/

/-- What binding the metadata as a text adds: quotes, and escapes. -/
def Record.reencodedBytes (record : Record) : ℕ :=
  quotedBytes record.metadata.compact - record.metadata.byteLength

/-- Binding the metadata as a text adds two quotes at least. -/
lemma Record.le_reencodedBytes (record : Record) :
    2 ≤ record.reencodedBytes ∧
      quotedBytes record.metadata.compact = record.metadata.byteLength + record.reencodedBytes := by
  have hle : record.metadata.byteLength + 2 ≤ quotedBytes record.metadata.compact :=
    le_quotedBytes _
  rw [Record.reencodedBytes]
  omega

namespace D1Store

/-- **The bytes of a bound record**: those of the record, three longer names, and what binding its
metadata adds. -/
theorem byteLength_bulkRecord (record : Record) : (bulkRecord record).byteLength =
    record.toJson.byteLength + 15 + record.reencodedBytes := by
  obtain ⟨-, -, h₃, h₄, h₅, h₆, h₇, h₈, h₉, -⟩ := Record.quotedBytes_names
  have hbound : quotedBytes "source_id" = 11 ∧ quotedBytes "record_id" = 11 ∧
      quotedBytes "metadata_json" = 15 := by decide
  obtain ⟨h₁, h₂, h₁₀⟩ := hbound
  rw [bulkRecord, byteLength_obj, Record.byteLength_toJson, Record.valueBytes]
  simp only [List.map_cons, List.map_nil, List.sum_cons, List.sum_nil, List.length_cons,
    List.length_nil, Record.fieldBytes_mk, h₁, h₂, h₃, h₄, h₅, h₆, h₇, h₈, h₉, h₁₀,
    byteLength_str, record.le_reencodedBytes.2]
  omega

/-- What the D1 adapter binds for records: what they take and what binding them adds. -/
lemma byteLength_bulkRecords (records : List Record) :
    ((records.map bulkRecord).map byteLength).sum =
      (records.map fun record => record.toJson.byteLength).sum +
        (records.map Record.reencodedBytes).sum + 15 * records.length := by
  induction records with
  | nil => rfl
  | cons record records ih =>
    simp only [List.map_cons, List.sum_cons, List.length_cons, byteLength_bulkRecord] at ih ⊢
    omega

/-- **When the records fit**: what they take, what binding their metadata adds, and 16 bytes for
each of them. -/
theorem recordsFit_iff {request : CompleteWatchRun} : RecordsFit request ↔
    (request.records.map fun record => record.toJson.byteLength).sum +
      (request.records.map Record.reencodedBytes).sum + 15 * request.records.length +
        (request.records.length - 1) + 2 ≤ maxRecordsJsonBytes := by
  rw [RecordsFit, byteLength_arr, byteLength_bulkRecords, List.length_map]

/-- Binding a record adds seventeen bytes at least. -/
lemma le_of_recordsFit {request : CompleteWatchRun} (h : RecordsFit request) :
    (request.records.map fun record => record.toJson.byteLength).sum +
      18 * request.records.length + 1 ≤ maxRecordsJsonBytes := by
  have hfit := recordsFit_iff.mp h
  have hadded : ∀ records : List Record,
      2 * records.length ≤ (records.map Record.reencodedBytes).sum := by
    intro records
    induction records with
    | nil => simp
    | cons record records ih =>
      have hone := record.le_reencodedBytes.1
      rw [List.length_cons, List.map_cons, List.sum_cons]
      omega
  have hall := hadded request.records
  omega

/-- A completion whose records do not fit leaves the database alone. -/
lemma completeWatchRun_of_not_fit [ExternalParsers] {db : Db} {request : CompleteWatchRun}
    (h : ¬ RecordsFit request) : (completeWatchRun db request).1 = db := by
  have hjson : ∃ e, recordsJson request = .error e := by
    unfold recordsJson
    exact ⟨_, if_neg h⟩
  obtain ⟨e, hjson⟩ := hjson
  unfold completeWatchRun
  cases hv : request.validate with
  | error e' => rfl
  | ok _ =>
    rw [hjson]
    rfl

end D1Store

/-! ## Payloads -/

/-- **The bytes of a payload**: its envelope, its records and the commas between them. -/
theorem DeliveryPayload.byteLength_toJson (payload : DeliveryPayload) :
    payload.toJson.byteLength = { payload with records := [] }.toJson.byteLength +
      (payload.records.map fun record => record.toJson.byteLength).sum +
        (payload.records.length - 1) := by
  simp only [toJson, byteLength_obj, List.map_cons, List.map_nil, List.sum_cons, List.sum_nil,
    List.length_cons, List.length_nil, Record.fieldBytes_mk, byteLength_arr, List.map_map,
    List.length_map, Function.comp_def]
  omega

/-- The digits after the point are at most four bytes each. -/
lemma utf8ByteSize_fractionText_le (digits : List Char) :
    (fractionText digits).utf8ByteSize ≤ 4 * (digits.length + 1) := by
  unfold fractionText
  split
  · have hzero : "0".utf8ByteSize = 1 := rfl
    omega
  · rename_i hne
    have hbytes := Text.utf8ByteSize_le (String.ofList (digits.rdropWhile fun c => decide (c = '0')))
    have hlength := (List.rdropWhile_prefix (p := fun c => decide (c = '0')) digits).length_le
    rw [String.length_ofList] at hbytes
    omega

/-- A real number that stands for an integer of 64 bits takes few bytes. -/
lemma utf8ByteSize_realText_le {n : ℤ} (hlow : -2 ^ 63 ≤ n) (hhigh : n ≤ 2 ^ 63) :
    (realText n).utf8ByteSize ≤ 86 := by
  have hsign : (if n < 0 then "-" else "").utf8ByteSize ≤ 1 := by
    split <;> decide
  have hpoint : ".0".utf8ByteSize = 2 ∧ ".".utf8ByteSize = 1 ∧ "e+".utf8ByteSize = 2 :=
    ⟨rfl, rfl, rfl⟩
  have hlog : Nat.log 10 n.natAbs < 19 := Nat.log_lt_of_lt_pow' (by decide) (by omega)
  unfold realText
  dsimp only
  split
  · rename_i hexponent
    have hdigits := utf8ByteSize_repr_le (by decide) (Nat.lt_pow_of_log_lt (by decide) hexponent)
    simp only [String.utf8ByteSize_append, Nat.toString_eq_repr]
    omega
  · set exponent := Nat.log 10 n.natAbs
    set rounded := (n.natAbs + 5 * 10 ^ (exponent - 15)) / 10 ^ (exponent - 14)
    set carry := if rounded = 10 ^ 15 then 1 else 0 with hcarry
    have hcarry' : carry ≤ 1 := by
      rw [hcarry]
      split <;> decide
    have hrounded : rounded / 10 ^ carry < 10 ^ 19 := by
      have hpow : 10 ^ (exponent - 15) ≤ 10 ^ 3 := Nat.pow_le_pow_right (by decide) (by omega)
      have hle : rounded / 10 ^ carry ≤ n.natAbs + 5 * 10 ^ (exponent - 15) :=
        (Nat.div_le_self ..).trans (Nat.div_le_self ..)
      omega
    have hlength : (rounded / 10 ^ carry).repr.length ≤ 19 :=
      (Nat.length_repr_le_iff (by decide)).mpr hrounded
    have hfraction := utf8ByteSize_fractionText_le ((rounded / 10 ^ carry).repr.toList.drop 1)
    have hfirst := Text.utf8ByteSize_le (String.ofList ((rounded / 10 ^ carry).repr.toList.take 1))
    have hexponent : (exponent + carry).repr.utf8ByteSize ≤ 2 :=
      utf8ByteSize_repr_le (by decide) (by omega)
    rw [List.length_drop, String.length_toList] at hfraction
    rw [String.length_ofList, List.length_take] at hfirst
    simp only [String.utf8ByteSize_append, Nat.toString_eq_repr]
    omega

/-- The instant of a payload takes few bytes. -/
lemma JsonInteger.byteLength_toJson_le {n : JsonInteger} (hlow : -2 ^ 63 ≤ n.value)
    (hhigh : n.value ≤ 2 ^ 63) : n.toJson.byteLength ≤ 86 := by
  cases n with
  | integer n => exact (byteLength_int_le hlow hhigh).trans (by decide)
  | real n =>
    rw [toJson, byteLength, compact]
    exact utf8ByteSize_realText_le hlow hhigh

/-- The envelope of a payload, from the sizes of its identifiers. -/
lemma DeliveryPayload.byteLength_envelope_le {payload : DeliveryPayload}
    (htenant : payload.tenantId.utf8ByteSize ≤ 128) (hwatch : payload.watchId.utf8ByteSize ≤ 160)
    (hrun : payload.runId.utf8ByteSize ≤ 160)
    (hlow : -2 ^ 63 ≤ payload.observedAtEpochSeconds.value)
    (hhigh : payload.observedAtEpochSeconds.value ≤ 2 ^ 63) :
    { payload with records := [] }.toJson.byteLength ≤ 2900 := by
  have hnames : quotedBytes "type" = 6 ∧ quotedBytes "tenant_id" = 11 ∧
      quotedBytes "watch_id" = 10 ∧ quotedBytes "run_id" = 8 ∧
      quotedBytes "observed_at_epoch_seconds" = 27 ∧ quotedBytes "records" = 9 ∧
      quotedBytes "comsat.watch.records_observed" = 31 := by decide
  obtain ⟨h₁, h₂, h₃, h₄, h₅, h₆, h₇⟩ := hnames
  have htenant' := quotedBytes_le payload.tenantId
  have hwatch' := quotedBytes_le payload.watchId
  have hrun' := quotedBytes_le payload.runId
  have hobserved := JsonInteger.byteLength_toJson_le hlow hhigh
  simp only [toJson, byteLength_obj, List.map_cons, List.map_nil, List.sum_cons, List.sum_nil,
    List.length_cons, List.length_nil, Record.fieldBytes_mk, byteLength_arr, byteLength_str, h₁, h₂,
    h₃, h₄, h₅, h₆, h₇]
  omega

/-! ## Notifications -/

namespace Adapter

variable (adapter : Adapter) {db : Db} {request : CompleteWatchRun}

/-- The payload of the notification of a completion. -/
def notificationPayload (db : Db) (request : CompleteWatchRun) : DeliveryPayload where
  tenantId := request.tenantId
  watchId := request.watchId
  runId := request.runId
  observedAtEpochSeconds := adapter.observedAt request.finishedAtEpochSeconds
  records := adapter.newRecords db request

/-- The bytes of the notification of a completion: those of its envelope, of the records that are
new to the watch, and of the commas between them. -/
def notificationBytes (db : Db) (request : CompleteWatchRun) : ℕ :=
  { adapter.notificationPayload db request with records := [] }.toJson.byteLength +
    ((adapter.newRecords db request).map fun record => record.toJson.byteLength).sum +
      ((adapter.newRecords db request).length - 1)

/-- A notification tells records of the request, each of them once. -/
lemma newRecords_subperm : (adapter.newRecords db request).Subperm request.records := by
  refine List.subperm_of_subset (List.Nodup.of_map _ adapter.nodup_newRecords) fun record hrecord => ?_
  exact List.mem_of_find?_eq_some (first_of_mem_newRecords hrecord)

/-- **What a completion queues**: the notification of its payload, for the delivery of the request.
-/
lemma payload_of_queued [ExternalParsers] (hdb : db.WellFormed) {d : Delivery}
    (hd : d ∈ (adapter.completeWatchRun db request).1.deliveries)
    (hnew : d.key ∉ db.deliveries.map Delivery.key) :
    request.validate = .ok () ∧ d.payload = adapter.notificationPayload db request ∧
      ∃ delivery, request.delivery = some delivery ∧ d.deliveryId = delivery.deliveryId ∧
        d.target = delivery.target := by
  rcases adapter.completeWatchRun_cases request hdb.toKeysUnique
    (fun w hw => (hdb.intervals w hw).1) with ⟨e, heq⟩ | ⟨hvalid, -, heq⟩ | ⟨-, -, -, message, heq⟩
  · rw [heq] at hd
    exact absurd (List.mem_map_of_mem hd) hnew
  · rw [heq] at hd
    rcases adapter.mem_deliveriesAfter.mp hd with hold | ⟨delivery, hdelivery, -, -, rfl⟩
    · exact absurd (List.mem_map_of_mem hold) hnew
    · exact ⟨hvalid, rfl, delivery, hdelivery, rfl, rfl⟩
  · rw [heq] at hd
    exact absurd (List.mem_map_of_mem hd) hnew

end Adapter

end Comsat
