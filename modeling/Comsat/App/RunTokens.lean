import Comsat.App.WatchRunner
import Comsat.Cloud.WatchQueue
import Comsat.Store.Effects

set_option relaxedAutoImplicit false
set_option autoImplicit false

/-!
# Identifiers of runs

A run is named after its watch and the lease under which it is started. The store bounds the
identifier of a watch and that of a run by the same number of bytes.

## Main definitions

* `CreateWatch.claimedBy` — an accepted watch, as a later claim returns it.
* `SearchOutcome.Valid` — what the engine promises of its records.
* `ComsatApp.Runnable`, `CloudWatch.Runnable` — the store accepts the start and the completion of
  the run of a claimed watch.

## Main results

* `accepted_watch_runnable_iff` — an accepted watch can be run exactly when the identifiers of its
  runs fit.
-/

namespace Comsat

/-! ## Checks -/

/-- Every character of the text may stand in a token. -/
def IsToken (value : String) : Prop := ∀ c ∈ value.toList, isTokenChar c = true

/-- Whether a text is a token is found out character by character. -/
instance (value : String) : Decidable (IsToken value) :=
  decidable_of_iff (value.toList.all isTokenChar = true) List.all_eq_true

/-- Tokens are put together from tokens. -/
@[simp] lemma isToken_append {a b : String} : IsToken (a ++ b) ↔ IsToken a ∧ IsToken b := by
  simp only [IsToken, String.toList_append, List.mem_append]
  exact ⟨fun h => ⟨fun c hc => h c (.inl hc), fun c hc => h c (.inr hc)⟩,
    fun h c hc => hc.elim (h.1 c) (h.2 c)⟩

/-- A digit may stand in a token. -/
lemma isTokenChar_of_isDigit {c : Char} (h : c.isDigit = true) : isTokenChar c = true := by
  simp only [Char.isDigit, Bool.and_eq_true, decide_eq_true_eq] at h
  have hlow : 0x30 ≤ c.toNat := h.1
  have hhigh : c.toNat ≤ 0x39 := h.2
  simp [isTokenChar, hlow, hhigh]

/-- A decimal numeral is a token. -/
lemma isToken_nat (n : ℕ) : IsToken (toString n) := fun _ hc =>
  isTokenChar_of_isDigit (Text.isDigit_of_mem_nat_toString hc)

/-- A decimal numeral with a sign is a token. -/
lemma isToken_int (n : ℤ) : IsToken (toString n) := by
  intro c hc
  obtain rfl | hdigit := Text.mem_int_toString hc
  · decide
  · exact isTokenChar_of_isDigit hdigit

/-- A hexadecimal digit may stand in a token. -/
lemma isTokenChar_of_isHexDigit {c : Char} (h : Text.isHexDigit c = true) :
    isTokenChar c = true := by
  simp only [Text.isHexDigit, Bool.or_eq_true, Bool.and_eq_true, decide_eq_true_eq] at h
  obtain ⟨hlow, hhigh⟩ | ⟨hlow, hhigh⟩ := h
  · simp [isTokenChar, hlow, hhigh]
  · have hletter : c.toNat ≤ 0x7A := by omega
    simp [isTokenChar, hlow, hletter]

/-- A hexadecimal numeral is a token. -/
lemma isToken_hex (n : ℕ) : IsToken (Text.hex n) := by
  intro c hc
  rw [Text.hex, String.toList_ofList] at hc
  exact isTokenChar_of_isHexDigit (Text.isHexDigit_of_mem_toDigits hc)

/-- A hexadecimal numeral with leading zeros is a token. -/
lemma isToken_paddedHex (width n : ℕ) : IsToken (Text.paddedHex width n) := by
  intro c hc
  rw [Text.paddedHex, String.toList_ofList, List.leftpad, List.mem_append] at hc
  obtain hzero | hdigit := hc
  · rw [List.eq_of_mem_replicate hzero]
    decide
  · exact isTokenChar_of_isHexDigit (Text.isHexDigit_of_mem_toDigits hdigit)

/-- A token has as many bytes as characters. -/
lemma IsToken.utf8ByteSize {value : String} (h : IsToken value) :
    value.utf8ByteSize = value.length := by
  refine Text.IsAscii.utf8ByteSize fun c hc => ?_
  have htoken := h c hc
  simp only [isTokenChar, Bool.or_eq_true, Bool.and_eq_true, decide_eq_true_eq, beq_iff_eq]
    at htoken
  obtain ((((((h | h) | h) | rfl) | rfl) | rfl) | rfl) := htoken
  all_goals first
    | omega
    | decide

/-- A storage identifier is a nonempty token of at most 160 bytes. -/
lemma validateStorageId_eq_ok {value name : String} :
    validateStorageId value name = .ok () ↔
      value ≠ "" ∧ value.utf8ByteSize ≤ 160 ∧ IsToken value := by
  simp only [validateStorageId, validateBoundedToken, IsToken, ← List.all_eq_true]
  split
  · rename_i h
    exact iff_of_true rfl h
  · rename_i h
    exact iff_of_false (by simp) h

/-- Whether a value is an object does not depend on its name. -/
lemma validateJsonObject_eq_ok {value : Json} {name : String} :
    validateJsonObject value name = .ok () ↔ value.isObject = true := by
  rw [validateJsonObject]
  split <;> simp_all

/-- A check that is made of every item of a list succeeds when it does for each of them. -/
lemma StoreResult.forIn_eq_ok {α : Type} {items : List α} {check : α → StoreResult Unit} :
    (do for item in items do check item : StoreResult Unit) = .ok () ↔
      ∀ item ∈ items, check item = .ok () := by
  induction items with
  | nil => simp
  | cons item items ih =>
    rw [List.forall_mem_cons, ← ih]
    simp only [List.forIn_cons]
    cases hitem : check item with
    | error e => simp
    | ok u => simp

/-- A sequence of two checks succeeds when both do. -/
lemma StoreResult.bind_eq_ok {check : StoreResult Unit} {rest : StoreResult Unit} :
    (check >>= fun _ => rest) = .ok () ↔ check = .ok () ∧ rest = .ok () := by
  cases check <;> simp

/-- When the start of a run is accepted. -/
lemma StartWatchRun.validate_eq_ok {request : StartWatchRun} :
    request.validate = .ok () ↔
      validateTenantId request.tenantId = .ok () ∧
      validateStorageId request.watchId "watch_id" = .ok () ∧
      validateStorageId request.runId "run_id" = .ok () ∧
      validateStorageId request.idempotencyKey "idempotency_key" = .ok () ∧
      validateStorageId request.leaseOwner "lease_owner" = .ok () := by
  simp only [StartWatchRun.validate, StoreResult.bind_eq_ok]

/-- When the completion of a run is accepted. -/
lemma CompleteWatchRun.validate_eq_ok [ExternalParsers] {request : CompleteWatchRun} :
    request.validate = .ok () ↔
      validateTenantId request.tenantId = .ok () ∧
      validateStorageId request.watchId "watch_id" = .ok () ∧
      validateStorageId request.runId "run_id" = .ok () ∧
      validateStorageId request.leaseOwner "lease_owner" = .ok () ∧
      validateJsonObject request.nextCursor "next_cursor" = .ok () ∧
      (∀ record ∈ request.records, record.validate = .ok ()) ∧
      ∀ delivery ∈ request.delivery, delivery.validate = .ok () := by
  have hrecord : ∀ record : Record,
      StoreResult.ofValidation record.validate = .ok () ↔ record.validate = .ok () := by
    intro record
    cases record.validate <;> simp [StoreResult.ofValidation]
  rw [← forall₂_congr fun record _ => hrecord record, ← StoreResult.forIn_eq_ok]
  cases hdelivery : request.delivery <;>
    simp [CompleteWatchRun.validate, hdelivery, StoreResult.bind_eq_ok]

/-- The token is not empty when a part of it is not. -/
lemma append_ne_empty {a b : String} (h : a ≠ "") : a ++ b ≠ "" := by
  intro hempty
  have hlist := congrArg String.toList hempty
  rw [String.toList_append] at hlist
  exact h (String.toList_inj.mp (List.append_eq_nil_iff.mp hlist).1)

/-- A tail of an identifier that starts with a storage identifier: only its size matters. -/
lemma validateStorageId_append {value tail name name' : String}
    (h : validateStorageId value name = .ok ()) (htail : IsToken tail) :
    validateStorageId (value ++ tail) name' = .ok () ↔
      value.utf8ByteSize + tail.length ≤ 160 := by
  obtain ⟨hne, -, htoken⟩ := validateStorageId_eq_ok.mp h
  rw [validateStorageId_eq_ok, isToken_append, String.utf8ByteSize_append, htail.utf8ByteSize]
  exact ⟨fun h => h.2.1, fun h => ⟨append_ne_empty hne, h, htoken, htail⟩⟩

/-- The notification of a run is accepted. -/
lemma validate_deliveryForRun [DefaultHasher] (config : WatchDeliveryConfig)
    (tenantId watchId runId : String) :
    (config.deliveryForRun tenantId watchId runId).validate = .ok () := by
  have hlt := DefaultHasher.finish_lt [tenantId, watchId, runId]
  have htoken : IsToken (deliveryId tenantId watchId runId) := by
    rw [deliveryId, isToken_append]
    exact ⟨by decide, isToken_paddedHex _ _⟩
  have hlength : (deliveryId tenantId watchId runId).length = 24 := by
    rw [deliveryId, String.length_append, Text.length_paddedHex (by decide) (by omega)]
    rfl
  have hid : validateStorageId (deliveryId tenantId watchId runId) "delivery_id" = .ok () := by
    refine validateStorageId_eq_ok.mpr ⟨append_ne_empty (by decide), ?_, htoken⟩
    rw [htoken.utf8ByteSize, hlength]
    decide
  simp [WatchRunDelivery.validate, WatchDeliveryConfig.deliveryForRun, hid, validateJsonObject,
    Json.isObject]

/-! ## Accepted watches -/

/-- The watch that a request creates, under a later lease: its identifiers, its query and its
cursor are those of the request. -/
def CreateWatch.claimedBy (request : CreateWatch) (owner : String) (nextDue expires : ℤ) :
    ClaimedWatch where
  watch := { request.intoWatch with
    nextDueEpochSeconds := nextDue
    leaseOwner := some owner
    leaseExpiresEpochSeconds := some expires }
  leaseOwner := owner
  leaseExpiresEpochSeconds := expires

/-- What the store needs of an accepted watch to accept the runs of it. -/
lemma CreateWatch.validate_eq_ok [ExternalParsers] {request : CreateWatch}
    (h : request.validate = .ok ()) :
    validateTenantId request.tenantId = .ok () ∧
      validateStorageId request.watchId "watch_id" = .ok () ∧
      validateJsonObject request.cursor "cursor" = .ok () := by
  obtain ⟨_, htenant, h⟩ := StoreResult.exists_of_bind_eq_ok h
  obtain ⟨_, hwatch, h⟩ := StoreResult.exists_of_bind_eq_ok h
  obtain ⟨_, -, h⟩ := StoreResult.exists_of_bind_eq_ok h
  obtain ⟨_, hcursor, -⟩ := StoreResult.exists_of_bind_eq_ok h
  exact ⟨htenant, hwatch, hcursor⟩

section

variable [ExternalParsers]

/-- The engine returns valid records only. -/
def SearchOutcome.Valid (outcome : SearchOutcome) : Prop :=
  ∀ record ∈ outcome.records, record.validate = .ok ()

variable [DefaultHasher]

/-- The store accepts the start and the completion of the native run of a claimed watch. -/
structure ComsatApp.Runnable (app : ComsatApp) (claim : ClaimedWatch) : Prop where
  /-- The run can be started at any time. -/
  start : ∀ now, (app.startRequest claim now).validate = .ok ()
  /-- The run can be completed at any time, whatever the search came to. -/
  complete : ∀ outcome finishedAt, outcome.Valid →
    (app.completeRequest claim outcome finishedAt).validate = .ok ()

/-- The store accepts the start and the completion of the run of a queued watch. -/
structure CloudWatch.Runnable (config : Option TenantWebhookConfig) (message : WatchClaimMessage) :
    Prop where
  /-- The run can be started at any time. -/
  start : ∀ now, (CloudWatch.startRequest message now).validate = .ok ()
  /-- The run that was started can be completed at any time, whatever the search came to. -/
  complete : ∀ (run : WatchRun) outcome finishedAt, run.runId = CloudWatch.runId message →
    outcome.Valid →
    (CloudWatch.completeRequest message run outcome finishedAt config).validate = .ok ()

/-- The native run of an accepted watch is accepted when its identifier fits. -/
lemma ComsatApp.runnable_iff {request : CreateWatch} (h : request.validate = .ok ()) (pid : ℕ)
    (delivery : Option WatchDeliveryConfig) (nextDue expires : ℤ) :
    ComsatApp.Runnable ⟨nativeLeaseOwner pid, request.tenantId, delivery⟩
        (request.claimedBy (nativeLeaseOwner pid) nextDue expires) ↔
      request.watchId.utf8ByteSize + (toString pid).length + (toString nextDue).length + 16 ≤ 160 := by
  obtain ⟨htenant, hwatch, hcursor⟩ := CreateWatch.validate_eq_ok h
  set app : ComsatApp := ⟨nativeLeaseOwner pid, request.tenantId, delivery⟩
  set claim := request.claimedBy (nativeLeaseOwner pid) nextDue expires
  have howner : IsToken (nativeLeaseOwner pid) := by
    rw [nativeLeaseOwner, isToken_append]
    exact ⟨by decide, isToken_nat pid⟩
  have hownerLength : (nativeLeaseOwner pid).length = 14 + (toString pid).length := by
    rw [nativeLeaseOwner, String.length_append]
    rfl
  have htail : IsToken (":" ++ (nativeLeaseOwner pid ++ (":" ++ toString nextDue))) := by
    simp only [isToken_append]
    exact ⟨by decide, howner, by decide, isToken_int nextDue⟩
  have hrunId : ∀ name, validateStorageId (app.watchRunId claim) name = .ok () ↔
      request.watchId.utf8ByteSize + (toString pid).length + (toString nextDue).length + 16 ≤
        160 := by
    intro name
    have heq : app.watchRunId claim =
        request.watchId ++ (":" ++ (nativeLeaseOwner pid ++ (":" ++ toString nextDue))) := by
      simp only [watchRunId, String.append_assoc]
      rfl
    rw [heq, validateStorageId_append hwatch htail]
    simp only [String.length_append, hownerLength]
    have hcolon : ":".length = 1 := rfl
    omega
  constructor
  · intro hrun
    exact (hrunId _).mp (StartWatchRun.validate_eq_ok.mp (hrun.start 0)).2.2.1
  · intro hsize
    have hlease : validateStorageId (nativeLeaseOwner pid) "lease_owner" = .ok () := by
      refine validateStorageId_eq_ok.mpr ⟨append_ne_empty (by decide), ?_, howner⟩
      rw [howner.utf8ByteSize, hownerLength]
      omega
    refine ⟨fun now => ?_, fun outcome finishedAt hvalid => ?_⟩
    · exact StartWatchRun.validate_eq_ok.mpr
        ⟨htenant, hwatch, (hrunId _).mpr hsize, (hrunId _).mpr hsize, hlease⟩
    · refine CompleteWatchRun.validate_eq_ok.mpr
        ⟨htenant, hwatch, (hrunId _).mpr hsize, hlease,
          validateJsonObject_eq_ok.mpr (validateJsonObject_eq_ok.mp hcursor), hvalid,
          fun queued hqueued => ?_⟩
      obtain ⟨config, -, rfl⟩ := Option.mem_map.mp hqueued
      exact validate_deliveryForRun config _ _ _

/-- The run of a queued watch is accepted when its identifier fits. -/
lemma CloudWatch.runnable_iff {request : CreateWatch} (h : request.validate = .ok ()) (now : ℤ)
    (nonce count : ℕ) (config : Option TenantWebhookConfig) (nextDue expires : ℤ) :
    CloudWatch.Runnable config
        (.ofClaimed (request.claimedBy (CloudWatch.leaseOwner now nonce count) nextDue expires)) ↔
      request.watchId.utf8ByteSize + (toString now).length + (Text.hex nonce).length +
        (toString count).length + 9 ≤ 160 := by
  obtain ⟨htenant, hwatch, hcursor⟩ := CreateWatch.validate_eq_ok h
  set owner := CloudWatch.leaseOwner now nonce count with hdef
  set message := WatchClaimMessage.ofClaimed (request.claimedBy owner nextDue expires)
  have howner : IsToken owner := by
    simp only [hdef, CloudWatch.leaseOwner, isToken_append]
    exact ⟨⟨⟨⟨⟨by decide, isToken_int now⟩, by decide⟩, isToken_hex nonce⟩, by decide⟩,
      isToken_nat count⟩
  have hownerLength : owner.length =
      (toString now).length + (Text.hex nonce).length + (toString count).length + 8 := by
    have hscheme : "cloud:".length = 6 := rfl
    have hcolon : ":".length = 1 := rfl
    simp only [hdef, CloudWatch.leaseOwner, String.length_append]
    omega
  have htail : IsToken (":" ++ owner) := isToken_append.mpr ⟨by decide, howner⟩
  have hrunId : ∀ name, validateStorageId (CloudWatch.runId message) name = .ok () ↔
      request.watchId.utf8ByteSize + (toString now).length + (Text.hex nonce).length +
        (toString count).length + 9 ≤ 160 := by
    intro name
    have heq : CloudWatch.runId message = request.watchId ++ (":" ++ owner) := by
      simp only [runId, String.append_assoc]
      rfl
    have hcolon : ":".length = 1 := rfl
    rw [heq, validateStorageId_append hwatch htail, String.length_append, hownerLength]
    omega
  constructor
  · intro hrun
    exact (hrunId _).mp (StartWatchRun.validate_eq_ok.mp (hrun.start 0)).2.2.1
  · intro hsize
    have hlease : ∀ name, validateStorageId owner name = .ok () := by
      refine fun name => validateStorageId_eq_ok.mpr ⟨?_, ?_, howner⟩
      · simp only [hdef, CloudWatch.leaseOwner, String.append_assoc]
        exact append_ne_empty (by decide)
      · rw [howner.utf8ByteSize, hownerLength]
        omega
    refine ⟨fun now => ?_, fun run outcome finishedAt hrun hvalid => ?_⟩
    · exact StartWatchRun.validate_eq_ok.mpr
        ⟨htenant, hwatch, (hrunId _).mpr hsize, hlease _, hlease _⟩
    · refine CompleteWatchRun.validate_eq_ok.mpr
        ⟨htenant, hwatch, ?_, hlease _,
          validateJsonObject_eq_ok.mpr (validateJsonObject_eq_ok.mp hcursor), hvalid,
          fun queued hqueued => ?_⟩
      · rw [CloudWatch.completeRequest, hrun]
        exact (hrunId _).mpr hsize
      · simp only [CloudWatch.completeRequest, Option.mem_def, bind, Option.bind_eq_some_iff] at hqueued
        obtain ⟨configs, -, webhook, -, hqueued⟩ := hqueued
        obtain rfl := Option.some.inj hqueued
        exact validate_deliveryForRun webhook _ _ _

/-- **Accepted watches.** An accepted watch can be started and completed by a native process and by
the Worker exactly when its identifier leaves room for what either of them puts after it.

**Proof sketch.** Everything put after the identifier of the watch consists of token characters,
so only the bound of 160 bytes is left of the checks of the identifier of the run; all other values
are parts of it, or were checked when the watch was accepted. -/
theorem accepted_watch_runnable_iff {request : CreateWatch} (h : request.validate = .ok ())
    (pid : ℕ) (delivery : Option WatchDeliveryConfig) (now : ℤ) (nonce count : ℕ)
    (config : Option TenantWebhookConfig) (nextDue expires : ℤ) :
    (ComsatApp.Runnable ⟨nativeLeaseOwner pid, request.tenantId, delivery⟩
        (request.claimedBy (nativeLeaseOwner pid) nextDue expires) ∧
      CloudWatch.Runnable config
        (.ofClaimed (request.claimedBy (CloudWatch.leaseOwner now nonce count) nextDue expires))) ↔
    request.watchId.utf8ByteSize + (toString pid).length + (toString nextDue).length + 16 ≤ 160 ∧
      request.watchId.utf8ByteSize + (toString now).length + (Text.hex nonce).length +
        (toString count).length + 9 ≤ 160 :=
  and_congr (ComsatApp.runnable_iff h pid delivery nextDue expires)
    (CloudWatch.runnable_iff h now nonce count config nextDue expires)

end

/-- A watch whose identifier has `size` bytes. -/
def sampleWatch (size : ℕ) : CreateWatch where
  tenantId := "tenant"
  watchId := String.ofList (List.replicate size 'w')
  query := ⟨"rust", none, none, none⟩
  sourceIds := []
  intervalSeconds := 60
  cursor := .obj []
  enabled := true
  createdAtEpochSeconds := 0
  firstDueEpochSeconds := none

/-- A watch with a short identifier can be run. -/
theorem accepted_watch_runnable_short :
    letI : ExternalParsers := .ofHost "example.com"
    letI : DefaultHasher := .constant
    ComsatApp.Runnable ⟨nativeLeaseOwner 7, "tenant", none⟩
        ((sampleWatch 5).claimedBy (nativeLeaseOwner 7) 300 360) ∧
      CloudWatch.Runnable none
        (.ofClaimed ((sampleWatch 5).claimedBy (CloudWatch.leaseOwner 300 255 0) 300 360)) :=
  let _ : ExternalParsers := .ofHost "example.com"
  let _ : DefaultHasher := .constant
  have hvalid : (sampleWatch 5).validate = .ok () := by rfl
  (accepted_watch_runnable_iff hvalid 7 none 300 255 0 none 300 360).mpr (by decide)

/-- A watch whose identifier takes all of the bound is accepted and can never be started. -/
theorem accepted_watch_not_runnable :
    letI : ExternalParsers := .ofHost "example.com"
    letI : DefaultHasher := .constant
    (sampleWatch 160).validate = .ok () ∧
      ¬ ComsatApp.Runnable ⟨nativeLeaseOwner 7, "tenant", none⟩
        ((sampleWatch 160).claimedBy (nativeLeaseOwner 7) 300 360) ∧
      ¬ CloudWatch.Runnable none
        (.ofClaimed ((sampleWatch 160).claimedBy (CloudWatch.leaseOwner 300 255 0) 300 360)) := by
  let _ : ExternalParsers := .ofHost "example.com"
  let _ : DefaultHasher := .constant
  have hwatch : validateStorageId (sampleWatch 160).watchId "watch_id" = .ok () :=
    validateStorageId_eq_ok.mpr (by decide +kernel)
  have hvalid : (sampleWatch 160).validate = .ok () := by
    rw [CreateWatch.validate, hwatch]
    rfl
  refine ⟨hvalid, fun hrun => ?_, fun hrun => ?_⟩
  · exact absurd ((ComsatApp.runnable_iff hvalid 7 none 300 360).mp hrun) (by decide +kernel)
  · exact absurd ((CloudWatch.runnable_iff hvalid 300 255 0 none 300 360).mp hrun)
      (by decide +kernel)

end Comsat
