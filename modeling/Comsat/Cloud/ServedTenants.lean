import Comsat.Cloud.FrontDoor

set_option relaxedAutoImplicit false
set_option autoImplicit false

/-!
# The tenants that are served

Watches are stored for tenants that have a token, and these are the tenants that scheduled
invocations serve in rotation: no watch is kept that is never looked at.

## Main definitions

* `CreateForTenants` — nobody creates a watch for a tenant without a token.

## Main results

* `tenantId_mem_of_mem_watches` — no watch is stored for anybody else.
* `worker_serves_its_tenants` — every tenant with a row is served.
-/

namespace Comsat

section

variable [ExternalParsers] [AppToolLibrary] [JsonReader] [McpLibrary] {κ : Type} [DecidableEq κ]

/-- A watch is created elsewhere for a tenant that has a token only: scheduled invocations and the
queue create none. -/
def CreateForTenants (tokens : TenantTokenMap)
    (steps : List (DialogueStep κ StoreOp (Option Outage))) : Prop :=
  ∀ request outage, .input (.createWatch request) outage ∈ steps →
    request.tenantId ∈ tokens.tenantIds

omit [ExternalParsers] [AppToolLibrary] [McpLibrary] in
/-- A request reaches the tools for tenants that have a token. -/
lemma CloudRequest.Bears.mem_tenantIds {request : CloudRequest} {env : CloudEnv} {tenantId : String}
    (h : request.Bears env tenantId) {tokens : TenantTokenMap}
    (htokens : env.tenantTokenMap = .ok tokens) : tenantId ∈ tokens.tenantIds := by
  obtain ⟨tokens', token, htokens', hheader, hget⟩ := h.token
  obtain rfl : tokens' = tokens := Except.ok.inj (htokens'.symm.trans htokens)
  exact tokens'.mem_tenantIds.mpr ⟨_, tokens'.resolve_eq_ok_iff.mpr ⟨token, rfl, hget⟩⟩

variable {env : CloudEnv} {tokens : TenantTokenMap} (worlds : κ → ℕ → ToolWorld)
  (requests : κ → CloudRequest) {steps : List (DialogueStep κ StoreOp (Option Outage))}

omit [AppToolLibrary] [JsonReader] [McpLibrary] in
/-- **One operation** keeps every watch one of some tenants, if what it creates is.

**Proof sketch.** By cases on what the operation does: it keeps the tenants of the watches that it
updates. -/
lemma tenantId_mem_of_step {tenants : List String} {db : Db} (hdb : db.WellFormed)
    (h : ∀ watch ∈ db.watches, watch.tenantId ∈ tenants) {op : StoreOp}
    (hop : ∀ request, op = .createWatch request → request.tenantId ∈ tenants) :
    ∀ watch ∈ (Adapter.d1.step db op).1.watches, watch.tenantId ∈ tenants := by
  have heffect := Adapter.d1.step_effect hdb op
  generalize Adapter.d1.step db op = result at heffect
  cases heffect with
  | unchanged | source | started | deliveryLeased | deliveryFinished => exact h
  | created request =>
    intro watch hwatch
    rcases List.mem_append.mp hwatch with hwatch | hwatch
    · exact h watch hwatch
    · rw [List.mem_singleton.mp hwatch]
      exact hop request rfl
  | deleted => exact fun watch hwatch => h watch (Table.mem_delete.mp hwatch).1
  | claimed | completed | stale =>
    intro watch hwatch
    rcases Table.mem_update.mp hwatch with ⟨hwatch, -⟩ | ⟨old, hold, -, rfl⟩
    · exact h watch hwatch
    · exact h old hold

/-- Every watch is one of a tenant that has a token.

**Proof sketch.** Requests ask the store for tenants that have one, and nobody else creates a watch
for another one. -/
lemma tenantId_mem_of_mem_watches (htokens : env.tenantTokenMap = .ok tokens)
    (hsteps : CreateForTenants tokens steps) {watch : Watch}
    (h : watch ∈ ((workerRequests env worlds requests).run steps).state.watches) :
    watch.tenantId ∈ tokens.tenantIds := by
  have hinv := Dialogues.state_invariant (M := D1Store.withOutages)
    (fun db => db.WellFormed ∧ ∀ watch ∈ db.watches, watch.tenantId ∈ tokens.tenantIds)
    (fun op => ∀ request, op = .createWatch request → request.tenantId ∈ tokens.tenantIds)
    ⟨Db.wellFormed_empty, fun watch hwatch => absurd hwatch List.not_mem_nil⟩
    (fun db op outage hdb hop => ⟨D1Store.withOutages_wellFormed hdb.1 op outage, ?_⟩)
    (fun k => (routeRequest_asks env (worlds k) (requests k)).mono ?_) steps ?_
  · exact hinv.2 watch h
  · obtain hcase | hcase := D1Store.withOutages_cases db op outage
    · rw [hcase]
      exact hdb.2
    · rw [hcase]
      exact tenantId_mem_of_step hdb.1 hdb.2 hop
  · rintro _ ⟨caller, hcaller, htenant, -⟩ request rfl
    have hmem := (CloudRequest.bears_of_caller hcaller).mem_tenantIds htokens
    rwa [← htenant] at hmem
  · rintro _ outage hstep request rfl
    exact hsteps request outage hstep

end

section

variable [ExternalParsers] [AppToolLibrary] [JsonReader] [McpLibrary] [UriLibrary] [HttpLibrary]
  {κ : Type} [DecidableEq κ]

/-- **The Worker serves its tenants**: whatever requests are made, in every order of steps and with any
failures of the store, and whatever is done for scheduled invocations and the queue, which create no
watch: every watch belongs to a tenant for whom requests can be made, and the tenants
with a token are the ones that scheduled invocations turn to: over as many windows as there are
tenants, the tenant of a watch comes first once, if invocations claim anything at all. The store
accepts these tenants. Webhooks are configured for them only.

**Proof sketch.** The tenants of the invocations are those that some request bears a token of
(`TenantTokenMap.mem_tenantIds`), no watch is stored for others (`tenantId_mem_of_mem_watches`), and
the rotation is fair (`card_scheduledTenantsOn`). -/
theorem worker_serves_its_tenants (env : CloudEnv) (tokens : TenantTokenMap)
    (worlds : κ → ℕ → ToolWorld) (requests : κ → CloudRequest)
    (steps : List (DialogueStep κ StoreOp (Option Outage)))
    (htokens : env.tenantTokenMap = .ok tokens) (hsteps : CreateForTenants tokens steps) :
    (∀ watch ∈ ((workerRequests env worlds requests).run steps).state.watches,
      ∃ authorization, tokens.resolve authorization = .ok ⟨watch.tenantId⟩) ∧
    (∀ watch ∈ ((workerRequests env worlds requests).run steps).state.watches, 1 ≤ env.claimLimit →
      ∀ (configs : Option (SortedMap String WatchDeliveryConfig)) (first : ℕ) (times : ℕ → ℤ),
        (∀ k < tokens.tenantIds.length, times k / 300 = first + k ∧ first + k < 2 ^ 32) →
          ((Finset.range tokens.tenantIds.length).filter fun k =>
            (env.scheduledInvocation tokens configs (times k)).claimOrder.head? =
              some watch.tenantId).card = 1) ∧
    (∀ tenantId, (∃ authorization, tokens.resolve authorization = .ok ⟨tenantId⟩) ↔
      tenantId ∈ tokens.tenantIds) ∧
    (∀ tenantId ∈ tokens.tenantIds, validateTenantId tenantId = .ok ()) ∧
    tokens.tenantIds.Pairwise (· < ·) ∧
    ∀ configs, env.webhooks tokens.tenantIds = .ok (some configs) →
      ∀ tenantId config, configs.get? tenantId = some config → tenantId ∈ tokens.tenantIds ∧
        WatchDeliveryConfig.new config.url config.authSecret = .ok config := by
  have hmem : ∀ watch ∈ ((workerRequests env worlds requests).run steps).state.watches,
      watch.tenantId ∈ tokens.tenantIds := fun watch h =>
    tenantId_mem_of_mem_watches worlds requests htokens hsteps h
  refine ⟨fun watch h => tokens.mem_tenantIds.mp (hmem watch h),
    fun watch h hlimit configs first times htimes => ?_, fun tenantId => tokens.mem_tenantIds.symm,
    fun tenantId h => ?_, tokens.pairwise_tenantIds,
    fun configs h tenantId config hconfig => CloudEnv.webhooks_authorized h hconfig⟩
  · rw [← (card_scheduledTenantsOn tokens.nodup_tenantIds hlimit htimes (hmem watch h)).2]
    refine congrArg Finset.card (Finset.filter_congr fun k hk => ?_)
    exact Iff.rfl
  · exact (validTenantId_iff tenantId).mp (List.mem_filter.mp h).2

end

/-! ## A tenant and its watch -/

/-- There is one tenant. -/
private lemma sampleTokens_tenantIds : sampleTokens.tenantIds = ["a"] := by
  have hvalid : validTenantId "a" = true := by decide
  have hvalues : sampleTokens.map.valueSet = ["a"] := Finset.sort_singleton (· ≤ ·) "a"
  rw [TenantTokenMap.tenantIds, hvalues, List.filter_singleton, hvalid]
  rfl

/-- A request over MCP for the tenant. -/
def sampleRequest : CloudRequest where
  method := "GET"
  path := "/mcp"
  query := []
  headers := [("Authorization", "Bearer " ++ sampleToken)]
  body := []

/-- A library that adds a watch, whatever the request. -/
@[reducible] def addingLibrary : McpLibrary where
  handle _ := .ask ("watch_add", [("query", .str "rust")]) fun _ => .done ⟨200, [], none⟩

set_option maxRecDepth 100000 in
/-- The tenant has a watch after its request. -/
private lemma sample_watches :
    letI : ExternalParsers := .ofHost "example.com"
    letI : AppToolLibrary := .plain
    letI : JsonReader := sampleReader
    letI : McpLibrary := addingLibrary
    ((workerRequests (κ := Unit) sampleEnv (fun _ _ => sampleWorld) fun _ => sampleRequest).run
      [.start (), .proceed () none]).state.watches.map Watch.tenantId = ["a"] := by
  decide

/-- The tenant of the watch that was added comes first once, in the only window. -/
theorem worker_serves_its_tenants_sample :
    letI : ExternalParsers := .ofHost "example.com"
    letI : AppToolLibrary := .plain
    letI : JsonReader := sampleReader
    letI : McpLibrary := addingLibrary
    ∃ watch ∈ ((workerRequests (κ := Unit) sampleEnv (fun _ _ => sampleWorld)
        fun _ => sampleRequest).run [.start (), .proceed () none]).state.watches,
      watch.tenantId = "a" ∧ ((Finset.range 1).filter fun _ =>
        (sampleEnv.scheduledInvocation sampleTokens none 0).claimOrder.head? = some "a").card = 1 := by
  let _ : ExternalParsers := .ofHost "example.com"
  let _ : AppToolLibrary := .plain
  let _ : JsonReader := sampleReader
  let _ : McpLibrary := addingLibrary
  let _ : HttpLibrary := .ofHost "example.com"
  let _ : UriLibrary := ⟨fun _ => none⟩
  obtain ⟨-, hturn, -⟩ := worker_serves_its_tenants (κ := Unit) sampleEnv sampleTokens
    (fun _ _ => sampleWorld) (fun _ => sampleRequest) [.start (), .proceed () none]
    sampleEnv_tokens (by intro request outage h; simp at h)
  have hmem : "a" ∈ ((workerRequests (κ := Unit) sampleEnv (fun _ _ => sampleWorld)
      fun _ => sampleRequest).run [.start (), .proceed () none]).state.watches.map Watch.tenantId := by
    rw [sample_watches]
    exact List.mem_singleton_self _
  obtain ⟨watch, hwatch, htenant⟩ := List.mem_map.mp hmem
  have hfirst := hturn watch hwatch (by decide) none 0 (fun _ => 0) (by
    intro k hk
    rw [sampleTokens_tenantIds, List.length_singleton] at hk
    omega)
  rw [htenant, sampleTokens_tenantIds, List.length_singleton] at hfirst
  exact ⟨watch, hwatch, htenant, hfirst⟩

end Comsat
