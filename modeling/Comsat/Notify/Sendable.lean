import Comsat.App.ExecutedRuns
import Comsat.App.RunTokens
import Comsat.Notify.WebhookUrl
import Comsat.Store.RecordsJson

set_option relaxedAutoImplicit false
set_option autoImplicit false

/-!
# Whether a queued notification can be sent

A completion queues the notification of the records that are new to its watch, whatever their size
and however deeply they nest. The request that posts it is refused beyond the limit of its body, and
it is not even made if the payload cannot be read back. What a search of the Worker collects from
four sources stays below the limit of the body; what a native search collects may not.

## Main definitions

* `HttpLaws` — what the program relies on in the HTTP library.
* `Sendable` — a request is built for a stored notification.
* `Adapter.NestsAsAllowed` — the notification of a completion can be read back.
* `Queues` — an execution queues a notification.
* `NotificationsSendable` — every notification that an execution queues can be sent.

## Main results

* `sendable_iff` — a notification that can be read back is refused for its size only.
* `WorkerRun.notificationBytes_le` — the size of a notification in the Worker.
* `queued_notifications_sendable` — which notifications can be sent.
* `queued_notification_too_large` — one that cannot, and one that cannot even be read back.
-/

namespace Comsat

/-! ## Requests -/

/-- What the program relies on in the HTTP library: a URI that is parsed is taken for a request, and
a text of visible characters is the value of a header. -/
structure HttpLaws [HttpLibrary] [UriLibrary] : Prop where
  isUri : ∀ value, (UriLibrary.parseUri value).isSome → HttpLibrary.isUri value = true
  isHeaderValue : ∀ value : String, (∀ c ∈ value.toList, 0x20 ≤ c.toNat ∧ c.toNat ≤ 0x7E) →
    HttpLibrary.isHeaderValue value = true

/-- A configuration that was accepted. -/
def Configured [HttpLibrary] [UriLibrary] (config : WatchDeliveryConfig) : Prop :=
  ∃ url authSecret, WatchDeliveryConfig.new url authSecret = .ok config

/-- A request is built for a notification when its row has been read back. -/
def Sendable [HttpLibrary] (config : WatchDeliveryConfig) (d : Delivery) : Prop :=
  ∃ read request, d.readBack = .ok read ∧
    webhookRequest config read.deliveryId read.payload.toJson = .ok request

section Requests

variable [HttpLibrary] [UriLibrary]

/-- The parts of an accepted configuration can be used in a request. -/
lemma Configured.parts {config : WatchDeliveryConfig} (h : Configured config) :
    (UriLibrary.parseUri config.url).isSome ∧
      ∀ secret ∈ config.authSecret, HttpLibrary.isHeaderValue ("Bearer " ++ secret) = true := by
  obtain ⟨url, authSecret, h⟩ := h
  rw [WatchDeliveryConfig.new] at h
  obtain ⟨_, hurl, h⟩ := StoreResult.exists_of_bind_eq_ok h
  obtain ⟨authority, hparse, -, -⟩ := validateWebhookUrl_eq_ok hurl
  by_cases hsecret : (authSecret.any fun secret =>
      !HttpLibrary.isHeaderValue ("Bearer " ++ secret)) = true
  · rw [if_pos hsecret] at h
    cases h
  · rw [if_neg hsecret] at h
    obtain rfl := Except.ok.inj h
    refine ⟨by simp [hparse], fun secret hmem => ?_⟩
    obtain rfl : authSecret = some secret := hmem
    simpa using hsecret

variable [DefaultHasher]

omit [HttpLibrary] [UriLibrary] in
/-- The identifier of a delivery is visible. -/
lemma visible_deliveryId (tenantId watchId runId : String) :
    ∀ c ∈ (deliveryId tenantId watchId runId).toList, 0x20 ≤ c.toNat ∧ c.toNat ≤ 0x7E := by
  intro c hc
  rw [deliveryId, String.toList_append, List.mem_append] at hc
  rcases hc with hc | hc
  · have hall : "webhook:".toList.all (fun c => 0x20 ≤ c.toNat && c.toNat ≤ 0x7E) = true := by decide
    simpa using List.all_eq_true.mp hall c hc
  · have htoken := isToken_paddedHex _ _ c hc
    simp only [isTokenChar, Bool.or_eq_true, Bool.and_eq_true, decide_eq_true_eq, beq_iff_eq]
      at htoken
    obtain ((((((h | h) | h) | rfl) | rfl) | rfl) | rfl) := htoken
    all_goals first
      | omega
      | decide

/-- **A notification that can be read back is refused for its size only**, under an accepted
configuration. -/
theorem sendable_iff (laws : HttpLaws) {config : WatchDeliveryConfig} (hconfig : Configured config)
    {d : Delivery} {tenantId watchId runId : String}
    (hid : d.deliveryId = deliveryId tenantId watchId runId) :
    Sendable config d ↔ d.IsReadable ∧ d.payload.toJson.byteLength ≤ maxWebhookBodyBytes := by
  obtain ⟨huri, hsecret⟩ := hconfig.parts
  have hvisible : ∀ text ∈ ["application/json", "comsat-webhook", toString deliveryRetrySeconds],
      HttpLibrary.isHeaderValue text = true := by
    intro text htext
    have hall : (["application/json", "comsat-webhook", toString deliveryRetrySeconds].all
        fun text => text.toList.all fun c => 0x20 ≤ c.toNat && c.toNat ≤ 0x7E) = true := by decide
    refine laws.isHeaderValue text fun c hc => ?_
    simpa using List.all_eq_true.mp (List.all_eq_true.mp hall text htext) c hc
  have hheaders : (webhookHeaders config d.deliveryId).all
      (fun header => HttpLibrary.isHeaderValue header.2) = true := by
    rw [List.all_eq_true]
    intro header hheader
    rw [webhookHeaders, List.mem_append] at hheader
    rcases hheader with hheader | hheader
    · simp only [List.mem_cons, List.not_mem_nil, or_false] at hheader
      rcases hheader with rfl | rfl | rfl | rfl
      · exact hvisible _ (by simp)
      · exact hvisible _ (by simp)
      · rw [hid]
        exact laws.isHeaderValue _ (visible_deliveryId tenantId watchId runId)
      · exact hvisible _ (by simp)
    · cases hcase : config.authSecret with
      | none =>
        rw [hcase] at hheader
        exact absurd hheader (List.not_mem_nil)
      | some secret =>
        rw [hcase] at hheader
        rw [List.mem_singleton.mp hheader]
        exact hsecret secret hcase
  constructor
  · rintro ⟨read, request, hread, h⟩
    have hreadable : d.IsReadable := by
      by_contra hnot
      obtain ⟨message, hmessage⟩ := Delivery.readBack_of_not_readable hnot
      rw [hmessage] at hread
      cases hread
    rw [Delivery.readBack_of_readable hreadable] at hread
    obtain rfl := Except.ok.inj hread
    refine ⟨hreadable, ?_⟩
    by_contra hlarge
    rw [webhookRequest, if_pos (not_le.mp hlarge)] at h
    cases h
  · rintro ⟨hreadable, hsize⟩
    refine ⟨d, ⟨"POST", config.url, webhookHeaders config d.deliveryId, d.payload.toJson⟩,
      Delivery.readBack_of_readable hreadable, ?_⟩
    rw [webhookRequest, if_neg (not_lt.mpr hsize)]
    dsimp only
    rw [laws.isUri _ huri, hheaders]
    rfl

end Requests

/-! ## Sizes in the Worker -/

section Worker

variable [ExternalParsers]

/-- The identifiers of an accepted completion are short. -/
lemma CompleteWatchRun.size_of_validate {request : CompleteWatchRun}
    (h : request.validate = .ok ()) : request.tenantId.utf8ByteSize ≤ 128 ∧
      request.watchId.utf8ByteSize ≤ 160 ∧ request.runId.utf8ByteSize ≤ 160 := by
  have hbound : ∀ {value name : String} {most : ℕ},
      validateBoundedToken value most name = .ok () → value.utf8ByteSize ≤ most := by
    intro value name most h
    rw [validateBoundedToken] at h
    split at h
    · rename_i hbounds
      exact hbounds.2.1
    · cases h
  obtain ⟨_, htenant, h⟩ := StoreResult.exists_of_bind_eq_ok h
  obtain ⟨_, hwatch, h⟩ := StoreResult.exists_of_bind_eq_ok h
  obtain ⟨_, hrun, -⟩ := StoreResult.exists_of_bind_eq_ok h
  exact ⟨hbound htenant, hbound hwatch, hbound hrun⟩

omit [ExternalParsers] in
/-- An instant that the D1 adapter binds has 64 bits. -/
lemma D1Store.int_bounds {value : ℤ} (h : IsI64 value) :
    -2 ^ 63 ≤ D1Store.int value ∧ D1Store.int value ≤ 2 ^ 63 := by
  have hlow := Double.ofInt_mono h.1
  have hhigh := Double.ofInt_mono h.2.le
  have hleast : Double.ofInt (-2 ^ 63) = -2 ^ 63 := by decide
  have hmost : Double.ofInt (2 ^ 63) = 2 ^ 63 := by decide
  rw [hleast] at hlow
  rw [hmost] at hhigh
  exact ⟨hlow, hhigh⟩

/-- **The size of a notification in the Worker**: with at most four sources, and records that fit the
batch, it is within the limit of the body of a request.

**Proof sketch.** Few records are within the limit since each source has 240 KiB; the records that
fit the batch take 18 bytes less there than the batch has, each of them, and so many records leave
room for the envelope. -/
theorem WorkerRun.notificationBytes_le [DefaultHasher] (run : WorkerRun) (db : Db)
    (hsources : run.catalog.sources.length ≤ 4) (hvalid : run.request.validate = .ok ())
    (hfit : D1Store.RecordsFit run.request) :
    Adapter.d1.notificationBytes db run.request ≤ maxWebhookBodyBytes := by
  obtain ⟨htenant, hwatch, hrun⟩ := CompleteWatchRun.size_of_validate hvalid
  have hclock := D1Store.int_bounds run.clock
  have henvelope : ({ Adapter.d1.notificationPayload db run.request with
      records := [] } : DeliveryPayload).toJson.byteLength ≤ 2900 :=
    DeliveryPayload.byteLength_envelope_le htenant hwatch hrun hclock.1 hclock.2
  -- what is told is among what was collected
  obtain ⟨told, hperm, hsublist⟩ :
      (Adapter.d1.newRecords db run.request).Subperm run.request.records :=
    Adapter.d1.newRecords_subperm
  have hbytes : ((Adapter.d1.newRecords db run.request).map fun r => r.toJson.byteLength).sum ≤
      (run.request.records.map fun r => r.toJson.byteLength).sum := by
    rw [← (hperm.map fun r => r.toJson.byteLength).sum_eq]
    exact (hsublist.map _).sum_le_sum fun _ _ => Nat.zero_le _
  have hlength : (Adapter.d1.newRecords db run.request).length ≤ run.request.records.length := by
    rw [← hperm.length_eq]
    exact hsublist.length_le
  -- the two bounds on what was collected
  have hbatch := D1Store.le_of_recordsFit hfit
  have hbudget : (run.request.records.map fun r => r.toJson.byteLength).sum ≤
      run.catalog.sources.length * cloudMaxBytesPerSource + 88 * run.request.records.length :=
    SearchDriver.collected_bytes_le run.catalog cloudLimits run.polls rfl (by decide)
  have hfour := Nat.mul_le_mul_right cloudMaxBytesPerSource hsources
  rw [Adapter.notificationBytes]
  simp only [cloudMaxBytesPerSource, D1Store.maxRecordsJsonBytes, maxWebhookBodyBytes] at *
  omega

end Worker

/-! ## What is queued -/

section Queued

variable [ExternalParsers]

/-- The records of the notification of a completion nest so little that it can be read back. -/
def Adapter.NestsAsAllowed (adapter : Adapter) (db : Db) (request : CompleteWatchRun) : Prop :=
  ∀ record ∈ adapter.newRecords db request, record.metadata.depth + 3 ≤ Json.nestingLimit

/-- A completion commits and queues a notification. -/
structure Queues (adapter : Adapter) (db : Db) (request : CompleteWatchRun) (d : Delivery) :
    Prop where
  committed : ∃ outcome, (adapter.completeWatchRun db request).2 = .ok outcome
  mem : d ∈ (adapter.completeWatchRun db request).1.deliveries
  new : d.key ∉ db.deliveries.map Delivery.key

variable [HttpLibrary] [UriLibrary] [DefaultHasher]

/-- A native run queues a notification under its configuration. -/
structure NativeRun.Notifies (run : NativeRun) (db : Db) (config : WatchDeliveryConfig)
    (d : Delivery) : Prop where
  wellFormed : db.WellFormed
  under : run.app.deliveryConfig = some config
  configured : Configured config
  queues : Queues .sqlite db run.request d

/-- A run of the Worker queues a notification under the configuration of its tenant. -/
structure WorkerRun.Notifies (run : WorkerRun) (db : Db) (config : WatchDeliveryConfig)
    (d : Delivery) : Prop where
  wellFormed : db.WellFormed
  under : (run.webhooks.bind fun webhooks => webhooks run.message.tenantId) = some config
  configured : Configured config
  queues : Queues .d1 db run.request d

/-- Every notification that an execution queues can be sent. -/
def NotificationsSendable : Prop :=
  (∀ (run : NativeRun) db config d, run.Notifies db config d → Sendable config d) ∧
    ∀ (run : WorkerRun) db config d, run.Notifies db config d → Sendable config d

/-- A notification that a completion queues is refused for the size of its records only, or nests
too deeply. -/
lemma sendable_of_queues (laws : HttpLaws) {adapter : Adapter} {db : Db} (hdb : db.WellFormed)
    {request : CompleteWatchRun} {d : Delivery} (h : Queues adapter db request d)
    {config : WatchDeliveryConfig} (hconfig : Configured config) {tenantId watchId runId : String}
    (hdelivery : request.delivery = some (config.deliveryForRun tenantId watchId runId)) :
    Sendable config d ↔ adapter.NestsAsAllowed db request ∧
      adapter.notificationBytes db request ≤ maxWebhookBodyBytes := by
  obtain ⟨-, hpayload, delivery, hsome, hid, htarget⟩ := adapter.payload_of_queued hdb h.mem h.new
  obtain rfl := Option.some.inj (hdelivery.symm.trans hsome)
  have hreadable : d.IsReadable ↔ adapter.NestsAsAllowed db request := by
    have hnests : d.target.depth ≤ Json.nestingLimit := by
      rw [htarget]
      exact Nat.one_le_ofNat
    unfold Delivery.IsReadable
    rw [and_iff_right hnests, DeliveryPayload.depth_toJson_le, hpayload]
    rfl
  rw [sendable_iff laws hconfig hid, hreadable, hpayload, DeliveryPayload.byteLength_toJson]
  rfl

end Queued

/-! ## A run with one record -/

/-- The HTTP library that takes every parsed URI, and printable ASCII in headers. -/
@[reducible] def HttpLibrary.printable [UriLibrary] : HttpLibrary where
  isUri value := (UriLibrary.parseUri value).isSome
  isHeaderValue value := value.toList.all fun c => 0x20 ≤ c.toNat && c.toNat ≤ 0x7E

/-- It keeps the laws. -/
lemma httpLaws_printable [UriLibrary] : @HttpLaws .printable _ := by
  let _ : HttpLibrary := .printable
  refine ⟨fun value h => h, fun value h => ?_⟩
  exact List.all_eq_true.mpr fun c hc => by simpa using h c hc

/-- A webhook. -/
def sampleConfig : WatchDeliveryConfig := ⟨"https://example.com/hook", none⟩

/-- A native process with the webhook. -/
def sampleApp : ComsatApp := ⟨nativeLeaseOwner 1, "t", some sampleConfig⟩

/-- A watch that the process has claimed. -/
def sampleClaim : ClaimedWatch :=
  ⟨⟨"t", "w", ⟨"q", none, none, none⟩, [], 60, .obj [], true, 0, 0, none, none⟩,
    nativeLeaseOwner 1, 70⟩

/-- What the process has asked of the store before the search. -/
def sampleOps : List StoreOp :=
  [.createWatch ⟨"t", "w", ⟨"q", none, none, none⟩, [], 60, .obj [], true, 0, none⟩,
    .claimDueWatch (sampleApp.claimRequest 10),
    .startWatchRun (sampleApp.startRequest sampleClaim 10)]

/-- A story with a title and the fields of its metadata. -/
def story (title : String) (fields : List (String × Json)) : Record := 
  { titled title with metadata := .obj fields }

/-- A source that returns a story. -/
def storySource (title : String) (fields : List (String × Json)) : CatalogSource :=
  ⟨.new ⟨"hn", SourceId.isValid_hn⟩ "" ⟨true, false, false⟩,
    fun _ _ => ⟨[], .ok (story title fields).toJson⟩⟩

/-- The clock of the run shows an integer of 64 bits. -/
lemma isI64_twenty : IsI64 20 := ⟨by decide, by decide⟩

/-- A run that searches the source. -/
def sampleRun (title : String) (fields : List (String × Json)) : NativeRun where
  app := sampleApp
  claim := sampleClaim
  catalog := ⟨[storySource title fields], List.nodup_singleton _⟩
  polls := [[SearchDriver.promptly]]
  finishedAt := 20
  clock := isI64_twenty

/-- The search of the run collects the story. -/
lemma outcome_sampleRun (title : String) (fields : List (String × Json))
    (h : (story title fields).toJson.byteLength ≤ 8 * 1024 * 1024) :
    letI : ExternalParsers := .ofHost "example.com"
    (sampleRun title fields).outcome = ⟨[story title fields], []⟩ := by
  let _ : ExternalParsers := .ofHost "example.com"
  have hvalid : (story title fields).validate = (titled "").validate := rfl
  refine SearchDriver.collected_single rfl (SearchDriver.runSourceOperation_of_ok rfl rfl ?_ ?_)
  · rw [hvalid]
    decide
  · have hbytes : byteTotal [(story title fields).toJson] = (story title fields).toJson.byteLength := by
      simp [byteTotal]
    exact ⟨Nat.one_le_ofNat, hbytes.trans_le h⟩

/-- The notification of the run. -/
def sampleDelivery [DefaultHasher] (title : String) (fields : List (String × Json)) : Delivery :=
  (sampleApp.completeRequest sampleClaim ⟨[story title fields], []⟩ 20).deliveryRow (.integer 20)
    (sampleConfig.deliveryForRun "t" "w" (sampleApp.watchRunId sampleClaim)) [story title fields]

/-- The completion of the run. -/
lemma request_sampleRun (title : String) (fields : List (String × Json))
    (h : (story title fields).toJson.byteLength ≤ 8 * 1024 * 1024) :
    letI : ExternalParsers := .ofHost "example.com"
    letI : DefaultHasher := .constant
    (sampleRun title fields).request = sampleApp.completeRequest sampleClaim ⟨[story title fields], []⟩ 20 := by
  let _ : ExternalParsers := .ofHost "example.com"
  let _ : DefaultHasher := .constant
  rw [NativeRun.request, outcome_sampleRun title fields h]
  rfl

/-- The run queues the notification. -/
lemma notifies_sampleRun (title : String) (fields : List (String × Json))
    (h : (story title fields).toJson.byteLength ≤ 8 * 1024 * 1024) :
    letI : ExternalParsers := .ofHost "example.com"
    letI : UriLibrary := .https
    letI : HttpLibrary := .printable
    letI : DefaultHasher := .constant
    (sampleRun title fields).Notifies (Adapter.sqlite.store.run sampleOps) sampleConfig
      (sampleDelivery title fields) := by
  let _ : ExternalParsers := .ofHost "example.com"
  let _ : UriLibrary := .https
  let _ : HttpLibrary := .printable
  let _ : DefaultHasher := .constant
  have hwf := Adapter.sqlite.wellFormed_run sampleOps
  have hconfig : Configured sampleConfig :=
    ⟨sampleConfig.url, none, WatchDeliveryConfig.new_of_validate (by decide)⟩
  refine ⟨hwf, rfl, hconfig, ?_⟩
  rw [request_sampleRun title fields h]
  have hvalid : (sampleApp.completeRequest sampleClaim ⟨[story title fields], []⟩ 20).validate =
      (sampleApp.completeRequest sampleClaim ⟨[titled ""], []⟩ 20).validate := rfl
  have hempty : (Adapter.sqlite.store.run sampleOps).deliveries = [] := by decide
  have hnone : (Adapter.sqlite.store.run sampleOps).watchRecords = [] := by decide
  have hcan : Adapter.sqlite.CanComplete (Adapter.sqlite.store.run sampleOps)
      (sampleApp.completeRequest sampleClaim ⟨[story title fields], []⟩ 20) :=
    show Adapter.sqlite.CanComplete (Adapter.sqlite.store.run sampleOps)
      (sampleApp.completeRequest sampleClaim ⟨[titled ""], []⟩ 20) from ⟨by decide, by decide⟩
  have hnew : Adapter.sqlite.newRecords (Adapter.sqlite.store.run sampleOps)
      (sampleApp.completeRequest sampleClaim ⟨[story title fields], []⟩ 20) = [story title fields] := by
    change SqliteStore.newRecords _ (Adapter.sqlite.store.run sampleOps).watchRecords _ = _
    rw [hnone]
    rfl
  rcases SqliteStore.completeWatchRun_eq (sampleApp.completeRequest sampleClaim
    ⟨[story title fields], []⟩ 20) hwf.watches (by rw [hvalid]; decide) with ⟨-, heq⟩ | ⟨hnot, -⟩
  · refine ⟨⟨_, congrArg Prod.snd heq⟩, ?_, ?_⟩
    · change _ ∈ (SqliteStore.completeWatchRun _ _).1.deliveries
      rw [heq]
      change _ ∈ Adapter.sqlite.deliveriesAfter (Adapter.sqlite.store.run sampleOps)
        (sampleApp.completeRequest sampleClaim ⟨[story title fields], []⟩ 20)
      refine Adapter.sqlite.mem_deliveriesAfter.mpr (.inr
        ⟨sampleConfig.deliveryForRun "t" "w" (sampleApp.watchRunId sampleClaim), rfl, ?_, ?_, ?_⟩)
      · rw [hnew]
        exact List.cons_ne_nil _ _
      · rw [hempty]
        exact List.not_mem_nil
      · rw [hnew]
        rfl
    · rw [hempty]
      exact List.not_mem_nil
  · exact absurd hcan hnot

/-- The size of a story, from its title and its metadata. -/
lemma byteLength_story (title : String) (fields : List (String × Json)) :
    (story title fields).toJson.byteLength =
      Json.quotedBytes title + (Json.obj fields).byteLength + 151 := by
  have hnull : Json.null.byteLength = 4 := by decide
  rw [Record.byteLength_toJson]
  change Json.quotedBytes "1" + Json.quotedBytes "hn" + Json.quotedBytes "story" +
    Json.quotedBytes "https://example.com/" + (Json.str title).byteLength + Json.null.byteLength +
    Json.null.byteLength + Json.null.byteLength + Json.null.byteLength +
    (Json.obj fields).byteLength + 99 = _
  have hvalues : Json.quotedBytes "1" = 3 ∧ Json.quotedBytes "hn" = 4 ∧
      Json.quotedBytes "story" = 7 ∧ Json.quotedBytes "https://example.com/" = 22 := by decide
  obtain ⟨h₁, h₂, h₃, h₄⟩ := hvalues
  rw [h₁, h₂, h₃, h₄, hnull, Json.byteLength_str]
  omega

/-- An empty object takes two bytes. -/
lemma byteLength_noMetadata : (Json.obj []).byteLength = 2 := by decide

/-- There is a text as long as the limit. -/
lemma exists_long_title : ∃ title : String, title.utf8ByteSize = maxWebhookBodyBytes := by
  refine ⟨String.ofList (List.replicate maxWebhookBodyBytes 'a'), ?_⟩
  have hone : Char.utf8Size 'a' = 1 := by decide
  rw [Text.utf8ByteSize_eq_sum, String.toList_ofList (l := List.replicate maxWebhookBodyBytes 'a'),
    List.map_replicate, List.sum_replicate_nat, hone, Nat.mul_one]

/-- A story whose metadata nests 125 deep. -/
private lemma nested_story :
    (story "one" [("kids", .nestedArrays 124)]).toJson.byteLength ≤ 1024 ∧
      ¬ (story "one" [("kids", .nestedArrays 124)]).metadata.depth + 3 ≤ Json.nestingLimit := by
  constructor
  · decide +kernel
  · have hdepth : (Json.obj [("kids", .nestedArrays 124)]).depth = 125 := by
      simp [Json.depth, Json.depthFields, Json.depth_nestedArrays]
    change ¬ (Json.obj [("kids", .nestedArrays 124)]).depth + 3 ≤ Json.nestingLimit
    rw [hdepth]
    decide

end Comsat
