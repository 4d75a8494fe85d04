import Comsat.Cli.UnixOutput
import Comsat.Cloud.ClaimPass
import Comsat.Lib.SortedMap
import Comsat.Notify.WebhookUrl

set_option relaxedAutoImplicit false
set_option autoImplicit false

/-!
# The tenants of the Worker

The Worker is configured with the tokens of its tenants and with their webhooks. A request is made for
the tenant whose token it bears; scheduled invocations serve the tenants that have a token.

## Main definitions

* `bearerToken`, `TenantTokenMap` — the token of a request, and the tenants of the tokens.
* `CloudEnv` — the configuration, and what is read in it: `tenantTokenMap`, `webhooks`,
  `allowedOrigins`, `scheduledInvocation`.

## Main results

* `TenantTokenMap.resolve_eq_ok_iff` — whom a request is made for.
* `TenantTokenMap.mem_tenantIds` — the tenants that are served are those that requests can be made
  for.
* `CloudEnv.webhooks_authorized` — only these tenants have webhooks.

## Design

* A map of tokens is nonempty, and its tokens and tenants are valid; the sorted map keeps its
  tokens apart.
* The reader of JSON texts is that of the command line.
-/

namespace Comsat

open Json

/-! ## Maps in a text -/

/-- The map that a text stands for, each of whose values is read alike. -/
def stringMap {α : Type} [JsonReader] (read : Json → Option α) (text : String) :
    Option (SortedMap String α) :=
  match JsonReader.read (utf8Bytes text) with
  | .ok (.obj fields) =>
    (fields.mapM fun field => (read field.2).map fun value => (field.1, value)).map SortedMap.ofList
  | _ => none

/-! ## Tokens -/

/-- Why a request is made for nobody. -/
inductive AuthError where
  | missingBearer
  | unknownToken
  | invalidTokenMap
deriving DecidableEq

/-- Whom a request is made for. -/
structure TenantIdentity where
  tenantId : String
deriving DecidableEq

/-- The fewest bytes of a token. -/
def minBearerTokenBytes : ℕ := 32

/-- The token in the header of a request. -/
def bearerToken (authorization : Option String) : Except AuthError String :=
  match authorization with
  | none => .error .missingBearer
  | some value =>
    match (Text.stripPrefix "Bearer " value).filter (· ≠ "") with
    | some token => .ok token
    | none => .error .missingBearer

/-- A tenant. -/
def validTenantId (value : String) : Bool :=
  value ≠ "" && value.utf8ByteSize ≤ 128 && value.toList.all isTokenChar

/-- A printable character of ASCII, but not the space. -/
def isAsciiGraphic (c : Char) : Bool := 0x21 ≤ c.toNat && c.toNat ≤ 0x7E

/-- A token. -/
def validBearerToken (value : String) : Bool :=
  minBearerTokenBytes ≤ value.utf8ByteSize && value.toList.all isAsciiGraphic

/-- A token and its tenant. -/
def validMapping (entry : String × String) : Bool :=
  validBearerToken entry.1 && validTenantId entry.2

/-- The tenants of the tokens. -/
structure TenantTokenMap where
  map : SortedMap String String
  nonempty : map.entries ≠ []
  valid : ∀ entry ∈ map.entries, validMapping entry = true

namespace TenantTokenMap

/-- Reads the tenants of the tokens. -/
def parse [JsonReader] (json : String) : Except AuthError TenantTokenMap :=
  match stringMap asStr? json with
  | none => .error .invalidTokenMap
  | some map =>
    if h : map.entries ≠ [] ∧ ∀ entry ∈ map.entries, validMapping entry = true then
      .ok ⟨map, h.1, h.2⟩
    else .error .invalidTokenMap

variable (tokens : TenantTokenMap)

/-- Whom a request is made for. -/
def resolve (authorization : Option String) : Except AuthError TenantIdentity :=
  match bearerToken authorization with
  | .error error => .error error
  | .ok token =>
    match (tokens.map.get? token).filter validTenantId with
    | some tenantId => .ok ⟨tenantId⟩
    | none => .error .unknownToken

/-- The tenants. -/
def tenantIds : List String := tokens.map.valueSet.filter validTenantId

end TenantTokenMap

/-! ## Whom a request is made for -/

/-- The token of a request follows the name of the scheme, and is not empty. -/
lemma bearerToken_eq_ok_iff {authorization : Option String} {token : String} :
    bearerToken authorization = .ok token ↔
      token ≠ "" ∧ authorization = some ("Bearer " ++ token) := by
  constructor
  · intro h
    cases authorization with
    | none => cases h
    | some value =>
      rw [bearerToken] at h
      split at h
      · next token' htoken =>
        obtain rfl : token' = token := Except.ok.inj h
        obtain ⟨hstrip, hne⟩ := Option.filter_eq_some_iff.mp htoken
        exact ⟨of_decide_eq_true hne, congrArg some (Text.stripPrefix_eq_some_iff.mp hstrip)⟩
      · cases h
  · rintro ⟨hne, rfl⟩
    have hkept : (some token).filter (fun t => decide (t ≠ "")) = some token := by
      simp [Option.filter, hne]
    simp only [bearerToken, Text.stripPrefix_append, hkept]

/-- The store accepts exactly these tenants. -/
lemma validTenantId_iff (value : String) :
    validTenantId value = true ↔ validateTenantId value = .ok () := by
  rw [validTenantId, validateTenantId, validateBoundedToken]
  split
  · next h =>
    simp only [iff_true]
    rw [decide_eq_true h.1, decide_eq_true h.2.1, h.2.2]
    rfl
  · next h =>
    simp only [reduceCtorEq, iff_false, Bool.and_eq_true, decide_eq_true_eq, not_and]
    exact fun hcond hall => h ⟨hcond.1, hcond.2, hall⟩

namespace TenantTokenMap

variable (tokens : TenantTokenMap)

/-- The tenant of a token is valid, and so is the token. -/
lemma valid_of_get? {token tenantId : String} (h : tokens.map.get? token = some tenantId) :
    validBearerToken token = true ∧ validTenantId tenantId = true :=
  Bool.and_eq_true_iff.mp (tokens.valid _ (tokens.map.get?_eq_some_iff.mp h))

/-- **Whom a request is made for**: the tenant of the token that it bears. -/
theorem resolve_eq_ok_iff {authorization : Option String} {tenantId : String} :
    tokens.resolve authorization = .ok ⟨tenantId⟩ ↔
      ∃ token, authorization = some ("Bearer " ++ token) ∧
        tokens.map.get? token = some tenantId := by
  constructor
  · intro h
    rw [resolve] at h
    split at h
    · cases h
    · next token htoken =>
      split at h
      · next found hfound =>
        obtain rfl : found = tenantId := congrArg TenantIdentity.tenantId (Except.ok.inj h)
        exact ⟨token, (bearerToken_eq_ok_iff.mp htoken).2, (Option.filter_eq_some_iff.mp hfound).1⟩
      · cases h
  · rintro ⟨token, rfl, hget⟩
    obtain ⟨htoken, htenant⟩ := tokens.valid_of_get? hget
    have hne : token ≠ "" := by
      rintro rfl
      exact absurd htoken (by decide)
    have hbearer : bearerToken (some ("Bearer " ++ token)) = .ok token :=
      bearerToken_eq_ok_iff.mpr ⟨hne, rfl⟩
    have hkept : (some tenantId).filter validTenantId = some tenantId := by
      simp [Option.filter, htenant]
    simp only [resolve, hbearer, hget, hkept]

/-- **The tenants** are those that requests can be made for. -/
theorem mem_tenantIds {tenantId : String} :
    tenantId ∈ tokens.tenantIds ↔
      ∃ authorization, tokens.resolve authorization = .ok ⟨tenantId⟩ := by
  rw [tenantIds, List.mem_filter, SortedMap.mem_valueSet]
  constructor
  · rintro ⟨⟨token, hget⟩, -⟩
    exact ⟨_, tokens.resolve_eq_ok_iff.mpr ⟨token, rfl, hget⟩⟩
  · rintro ⟨authorization, hresolve⟩
    obtain ⟨token, -, hget⟩ := tokens.resolve_eq_ok_iff.mp hresolve
    exact ⟨⟨token, hget⟩, (tokens.valid_of_get? hget).2⟩

/-- The tenants increase. -/
lemma pairwise_tenantIds : tokens.tenantIds.Pairwise (· < ·) :=
  tokens.map.pairwise_valueSet.filter _

/-- No tenant is listed twice. -/
lemma nodup_tenantIds : tokens.tenantIds.Nodup := tokens.pairwise_tenantIds.imp fun h => ne_of_lt h

end TenantTokenMap

/-! ## Origins -/

/-- Whether a request from an origin is let in; requests from elsewhere than a page have none. -/
def originAllowed (origin : Option String) (allowed : List String) : Bool :=
  match origin with
  | none => true
  | some origin => allowed.any fun candidate => candidate = origin

/-- The origins in a text, between commas. -/
def parseOriginAllowlist (value : Option String) : List String :=
  ((Text.split ',' (value.getD "")).map fun origin => String.ofList (Web.trim origin.toList)).filter
    fun origin => origin ≠ ""

/-! ## The configuration -/

/-- The configuration of the Worker: secrets and variables, which may be missing. -/
structure CloudEnv where
  tenantTokensSecret : Option String
  tenantTokensVar : Option String
  tenantWebhooksSecret : Option String
  tenantWebhooksVar : Option String
  mcpAllowedOrigins : Option String
  watchClaimLimit : Option String
  watchLeaseSeconds : Option String

/-- Why the Worker fails. -/
inductive WorkerError where
  | missingVar (name : String)
  | auth (error : AuthError)
  | body (message : String)
deriving DecidableEq

/-- What is configured about the webhook of a tenant. -/
structure WebhookEntry where
  url : String
  token : Option String

/-- Reads what is configured about a webhook. -/
def WebhookEntry.fromValue (value : Json) : Option WebhookEntry := do
  match ← Json.fields ["url", "token"] value with
  | [url, token] => return ⟨← Json.decodeString url, ← Json.decodeOptString token⟩
  | _ => none

/-- Reads a number of 32 bits, the words of the Worker. -/
def parseUsize (value : String) : Option ℕ := (parseU64 value).filter (· < 2 ^ 32)

namespace CloudEnv

variable (env : CloudEnv)

/-- The tenants of the tokens: the secret, if it can be read, and else the variable. -/
def tenantTokenMap [JsonReader] : Except WorkerError TenantTokenMap :=
  match env.tenantTokensSecret.bind fun secret => (TenantTokenMap.parse secret).toOption with
  | some tokens => .ok tokens
  | none =>
    match env.tenantTokensVar with
    | none => .error (.missingVar "TENANT_TOKENS_JSON")
    | some text => (TenantTokenMap.parse text).mapError .auth

/-- The origins that are let in. -/
def allowedOrigins : List String := parseOriginAllowlist env.mcpAllowedOrigins

/-- The text of the configuration of the webhooks. -/
def webhookSecret : Option String :=
  (env.tenantWebhooksSecret.filter fun value => !isBlank value).or
    (env.tenantWebhooksVar.filter fun value => !isBlank value)

/-- A webhook is for a tenant that has a token. -/
def ensureAuthorized (tenantId : String) (authorizedTenants : List String) : StoreResult Unit :=
  if authorizedTenants.any fun authorized => authorized = tenantId then .ok ()
  else .error (.validation "webhook tenant is not authorized")

section

variable [UriLibrary] [HttpLibrary]

/-- The webhooks of the tenants, from what is configured about them. -/
def tenantConfigs (entries : List (String × WebhookEntry)) (authorizedTenants : List String) :
    StoreResult (SortedMap String WatchDeliveryConfig) :=
  entries.foldlM (fun configs entry => do
    ensureAuthorized entry.1 authorizedTenants
    let config ← WatchDeliveryConfig.new entry.2.url (entry.2.token.filter (· ≠ ""))
    return configs.insert entry.1 config) SortedMap.empty

/-- The webhooks of the tenants, if there are any. -/
def webhooks [JsonReader] (authorizedTenants : List String) :
    StoreResult (Option (SortedMap String WatchDeliveryConfig)) :=
  match env.webhookSecret with
  | none => .ok none
  | some raw =>
    match stringMap WebhookEntry.fromValue raw with
    | none => .error (.validation "webhook configuration is invalid")
    | some entries => do
      let configs ← tenantConfigs entries.entries authorizedTenants
      return if configs.entries = [] then none else some configs

end

/-- How many watches are claimed in an invocation. -/
def claimLimit : ℕ := min ((env.watchClaimLimit.bind parseUsize).getD 12) 12

/-- For how long they are claimed. -/
def leaseSeconds : ℕ := max ((env.watchLeaseSeconds.bind parseU64).getD 300) 300

/-- What a scheduled invocation is given. -/
def scheduledInvocation (tokens : TenantTokenMap)
    (configs : Option (SortedMap String WatchDeliveryConfig)) (now : ℤ) : ScheduledInvocation where
  tenantIds := tokens.tenantIds
  tenantIds_nodup := tokens.nodup_tenantIds
  configured := configs.map SortedMap.keys
  configured_nodup := by
    rintro tenants htenants
    obtain ⟨configs, rfl, rfl⟩ := Option.mem_map.mp htenants
    exact configs.nodup_keys
  nowEpochSeconds := now
  claimLimit := env.claimLimit

end CloudEnv

/-! ## Webhooks -/

section

variable [UriLibrary] [HttpLibrary]

/-- A webhook that is configured has the URL that was checked. -/
lemma WatchDeliveryConfig.new_eq_ok {url : String} {secret : Option String}
    {config : WatchDeliveryConfig} (h : WatchDeliveryConfig.new url secret = .ok config) :
    WatchDeliveryConfig.new config.url config.authSecret = .ok config := by
  have heq : config = ⟨url, secret⟩ := by
    rw [WatchDeliveryConfig.new] at h
    cases hurl : validateWebhookUrl url with
    | error e =>
      rw [hurl] at h
      cases h
    | ok _ =>
      rw [hurl] at h
      change (if _ then throw _ else pure _ : StoreResult WatchDeliveryConfig) = _ at h
      split at h
      · cases h
      · exact (Except.ok.inj h).symm
  rw [heq]
  rwa [heq] at h

/-- Webhooks that are added are those of tenants that have a token, and their URLs are checked. -/
private lemma foldlM_tenantConfigs {authorizedTenants : List String} {p : String → Prop}
    {q : WatchDeliveryConfig → Prop} (hp : ∀ t ∈ authorizedTenants, p t)
    (hq : ∀ url secret config, WatchDeliveryConfig.new url secret = .ok config → q config)
    (entries : List (String × WebhookEntry)) :
    ∀ configs found : SortedMap String WatchDeliveryConfig,
      (∀ t config, configs.get? t = some config → p t ∧ q config) →
      entries.foldlM (fun configs entry => do
        CloudEnv.ensureAuthorized entry.1 authorizedTenants
        let config ← WatchDeliveryConfig.new entry.2.url (entry.2.token.filter (· ≠ ""))
        return configs.insert entry.1 config) configs = .ok found →
      ∀ t config, found.get? t = some config → p t ∧ q config := by
  induction entries with
  | nil =>
    intro configs found hconfigs h
    cases h
    exact hconfigs
  | cons entry entries ih =>
    intro configs found hconfigs h
    rw [List.foldlM_cons] at h
    cases hauthorized : CloudEnv.ensureAuthorized entry.1 authorizedTenants with
    | error e =>
      rw [hauthorized] at h
      cases h
    | ok _ =>
      cases hnew : WatchDeliveryConfig.new entry.2.url (entry.2.token.filter (· ≠ "")) with
      | error e =>
        rw [hauthorized, hnew] at h
        cases h
      | ok config =>
        rw [hauthorized, hnew] at h
        refine ih (configs.insert entry.1 config) found (fun t config' hget => ?_) h
        rw [SortedMap.get?_insert] at hget
        split at hget
        · next ht =>
          obtain rfl := Option.some.inj hget
          refine ⟨hp t ?_, hq _ _ _ hnew⟩
          rw [CloudEnv.ensureAuthorized] at hauthorized
          split at hauthorized
          · next hany =>
            obtain ⟨t', ht', heq⟩ := List.any_eq_true.mp hany
            rwa [ht, ← of_decide_eq_true heq]
          · cases hauthorized
        · exact hconfigs t config' hget

/-- **Webhooks** are configured only for tenants that have a token, and their URLs are checked. -/
theorem CloudEnv.webhooks_authorized [JsonReader] {env : CloudEnv} {tokens : TenantTokenMap}
    {configs : SortedMap String WatchDeliveryConfig}
    (h : env.webhooks tokens.tenantIds = .ok (some configs)) {tenantId : String}
    {config : WatchDeliveryConfig} (hconfig : configs.get? tenantId = some config) :
    tenantId ∈ tokens.tenantIds ∧
      WatchDeliveryConfig.new config.url config.authSecret = .ok config := by
  rw [webhooks] at h
  split at h
  · cases h
  split at h
  · cases h
  · next entries hentries =>
    cases hfound : tenantConfigs entries.entries tokens.tenantIds with
    | error e =>
      rw [hfound] at h
      cases h
    | ok found =>
      rw [hfound] at h
      change Except.ok (if _ then none else some found) = _ at h
      split at h
      · cases h
      · obtain rfl : found = configs := Option.some.inj (Except.ok.inj h)
        exact foldlM_tenantConfigs (p := (· ∈ tokens.tenantIds))
          (q := fun config => WatchDeliveryConfig.new config.url config.authSecret = .ok config)
          (fun _ h => h) (fun _ _ _ h => WatchDeliveryConfig.new_eq_ok h) entries.entries _ _
          (fun _ _ h => by cases h) hfound tenantId config hconfig

end

end Comsat
