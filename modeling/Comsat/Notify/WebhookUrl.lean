import Comsat.Lib.Internet
import Comsat.Notify.Webhook
import Comsat.Plugins.Web
import Mathlib

set_option relaxedAutoImplicit false
set_option autoImplicit false

/-!
# The URL of a webhook

A webhook must not be a local target. The check reads the host in the text of the URL, while the
request goes to the host that the parser of URLs makes of it.

## Main definitions

* `UriLibrary` — the parser of URIs, as far as the check uses it.
* `validateWebhookUrl`, `WatchDeliveryConfig.new` — the check.
* `standardHost`, `AuthorityHost` — the host that the standard of URLs reads in an authority.
* `IsPlainAuthority` — the spellings of a host that the check classifies as the parser does.

## Main results

* `webhook_host_iff` — the host of an accepted webhook is public exactly when it is spelled plainly.
* `webhook_host_hidden` — a loopback address in hexadecimal is accepted.

## Design

* The laws of the parser of URLs say what the standard says about the host of a URL that is read at
  all. They are stated for what the parser of URIs takes for the authority.
-/

namespace Comsat

open Internet

/-! ## The check -/

/-- The parts of a URI that the check reads. -/
structure UriParts where
  scheme : Option String
  authority : Option String
deriving DecidableEq

/-- The parser of URIs. -/
class UriLibrary where
  parseUri : String → Option UriParts

/-- The host of an authority without its port. -/
def hostWithoutPort (authority : List Char) : List Char :=
  match authority with
  | '[' :: rest =>
    match Text.splitOnce ']' rest with
    | (address, some _) => address
    | (_, none) => (Text.splitOnce ':' authority).1
  | authority => (Text.splitOnce ':' authority).1

/-- The addresses of 32 bits that are refused, as in the web source. -/
def rejectedIpv4 (ip : ℕ) : Bool := Web.isRejectedIpv4 ip

/-- The addresses of 128 bits that are refused, as in the web source. -/
def rejectedIpv6 (ip : ℕ) : Bool := Web.isRejectedIpv6 ip

/-- A refused address is an error. -/
def rejectPrivateIp (rejected : Bool) : StoreResult Unit :=
  if rejected then .error (.validation "webhook URL rejects non-public IP targets") else .ok ()

/-- A text without brackets around it. -/
def trimBrackets (host : List Char) : List Char :=
  (host.dropWhile fun c => c = '[' ∨ c = ']').rdropWhile fun c => c = '[' ∨ c = ']'

/-- The host must be public. -/
def validatePublicHost (host : List Char) : StoreResult Unit :=
  if host.map Char.toLower = "localhost".toList ∨ ".localhost".toList.isSuffixOf host then
    .error (.validation "webhook URL rejects local targets")
  else
    match Ipv4.parse host with
    | some ip => rejectPrivateIp (rejectedIpv4 ip)
    | none =>
      match Ipv6.parse (trimBrackets host) with
      | some ip => rejectPrivateIp (rejectedIpv6 ip)
      | none => .ok ()

section Check

variable [UriLibrary]

/-- The checks of the URL of a webhook. -/
def validateWebhookUrl (value : String) : StoreResult Unit :=
  match UriLibrary.parseUri value with
  | none => .error (.validation "webhook URL is invalid")
  | some uri =>
    if uri.scheme ≠ some "https" then .error (.validation "webhook URL must use https")
    else
      match uri.authority with
      | none => .error (.validation "webhook URL has no host")
      | some authority =>
        if '@' ∈ authority.toList then
          .error (.validation "webhook URL must not contain credentials")
        else validatePublicHost (hostWithoutPort authority.toList)

/-- The configuration of a webhook. -/
def WatchDeliveryConfig.new [HttpLibrary] (url : String) (authSecret : Option String) :
    StoreResult WatchDeliveryConfig := do
  validateWebhookUrl url
  if authSecret.any fun secret => !HttpLibrary.isHeaderValue ("Bearer " ++ secret) then
    throw (.validation "invalid webhook authorization header")
  return ⟨url, authSecret⟩

end Check

/-! ## The host that is contacted -/

/-- The host that the standard of URLs reads in a name: an IPv4 address in any spelling if the last
part is a number, and else a domain in lower case. -/
def standardHost (name : List Char) : Option UrlHost :=
  let lower := name.map Char.toLower
  if Ipv4.endsInNumber lower then (Ipv4.numbers lower).map UrlHost.ipv4
  else some (.domain (String.ofList lower))

/-- The host that the standard of URLs reads in an authority without credentials, up to its port. -/
inductive AuthorityHost : List Char → UrlHost → Prop where
  | address {inner port : List Char} {ip : ℕ} (hopen : '[' ∉ inner) (hclose : ']' ∉ inner)
      (hip : Ipv6.parse inner = some ip) : AuthorityHost ('[' :: inner ++ ']' :: port) (.ipv6 ip)
  | name {name port : List Char} {host : UrlHost} (hopen : '[' ∉ name) (hcolon : ':' ∉ name)
      (hport : port = [] ∨ port.head? = some ':') (hhost : standardHost name = some host) :
      AuthorityHost (name ++ port) host

/-- What the program relies on in the parser of URLs: in a URL without credentials it reads the host
that the standard reads in the authority. -/
structure HostLaws [UriLibrary] [UrlLibrary] : Prop where
  host_of_authority : ∀ value authority url,
    UriLibrary.parseUri value = some ⟨some "https", some authority⟩ → '@' ∉ authority.toList →
      UrlLibrary.parse value = .ok url →
        ∃ host, UrlLibrary.host url = some host ∧ AuthorityHost authority.toList host

/-- The spellings of a host that the check classifies as the parser of URLs does: an address in
brackets, or a name that neither ends in `.localhost` in another case nor is a refused IPv4 address
in another spelling than four decimal numbers. -/
def IsPlainAuthority (authority : List Char) : Prop :=
  authority.head? = some '[' ∨
    let host := (Text.splitOnce ':' authority).1
    ".localhost".toList.isSuffixOf (host.map Char.toLower) = false ∧
      ∀ ip, standardHost host = some (.ipv4 ip) → Web.isRejectedIpv4 ip = true →
        (Ipv4.parse host).isSome

/-- The host of a webhook is spelled plainly. -/
def IsPlainWebhook [UriLibrary] (value : String) : Prop :=
  ∀ uri ∈ UriLibrary.parseUri value, ∀ authority ∈ uri.authority, IsPlainAuthority authority.toList

/-! ## What the check finds -/

/-- The check passes when the URI is read, its scheme is that of secure HTTP and its host is public
and without credentials. -/
lemma validateWebhookUrl_eq_ok [UriLibrary] {value : String}
    (h : validateWebhookUrl value = .ok ()) :
    ∃ authority, UriLibrary.parseUri value = some ⟨some "https", some authority⟩ ∧
      '@' ∉ authority.toList ∧ validatePublicHost (hostWithoutPort authority.toList) = .ok () := by
  unfold validateWebhookUrl at h
  split at h
  · exact absurd h (by simp)
  · rename_i uri huri
    obtain ⟨scheme, authority⟩ := uri
    split at h
    · exact absurd h (by simp)
    · rename_i hscheme
      rw [not_not] at hscheme
      cases authority with
      | none => exact absurd h (by simp)
      | some authority =>
        dsimp only at h hscheme
        subst hscheme
        split at h
        · exact absurd h (by simp)
        · rename_i hcredentials
          exact ⟨authority, huri, hcredentials, h⟩

/-- An address that passes is not refused. -/
lemma rejectPrivateIp_eq_ok {rejected : Bool} (h : rejectPrivateIp rejected = .ok ()) :
    rejected = false := by
  cases rejected with
  | false => rfl
  | true => exact absurd h (by simp [rejectPrivateIp])

/-- A host that passes is neither local nor a refused address. -/
lemma validatePublicHost_eq_ok {host : List Char} (h : validatePublicHost host = .ok ()) :
    host.map Char.toLower ≠ "localhost".toList ∧
      (∀ ip, Ipv4.parse host = some ip → rejectedIpv4 ip = false) ∧
      (Ipv4.parse host = none →
        ∀ ip, Ipv6.parse (trimBrackets host) = some ip → rejectedIpv6 ip = false) := by
  unfold validatePublicHost at h
  split at h
  · exact absurd h (by simp)
  · rename_i hlocal
    rw [not_or] at hlocal
    refine ⟨hlocal.1, fun ip hip => ?_, fun hnone ip hip => ?_⟩
    · rw [hip] at h
      exact rejectPrivateIp_eq_ok h
    · rw [hnone, hip] at h
      exact rejectPrivateIp_eq_ok h

/-- An accepted configuration has an accepted URL. -/
lemma WatchDeliveryConfig.validate_of_new [UriLibrary] [HttpLibrary] {url : String}
    {authSecret : Option String} {config : WatchDeliveryConfig}
    (h : WatchDeliveryConfig.new url authSecret = .ok config) : validateWebhookUrl url = .ok () := by
  cases hurl : validateWebhookUrl url with
  | ok _ => rfl
  | error e =>
    rw [WatchDeliveryConfig.new, hurl] at h
    exact absurd h (by simp [Bind.bind, Except.bind])

/-! ## Both readings of a host -/

/-- The host in brackets stands between them. -/
lemma hostWithoutPort_address {inner port : List Char} (hclose : ']' ∉ inner) :
    hostWithoutPort ('[' :: inner ++ ']' :: port) = inner := by
  rw [List.cons_append, hostWithoutPort, Text.splitOnce_append hclose]

/-- A name stands before the port. -/
lemma splitOnce_name {name port : List Char} (hcolon : ':' ∉ name)
    (hport : port = [] ∨ port.head? = some ':') :
    (Text.splitOnce ':' (name ++ port)).1 = name := by
  rcases hport with rfl | hport
  · rw [List.append_nil, Text.splitOnce_of_not_mem hcolon]
  · obtain ⟨rest, rfl⟩ := List.head?_eq_some_iff.mp hport
    rw [Text.splitOnce_append hcolon]

/-- A name does not begin with a bracket. -/
lemma head?_name_ne {name port : List Char} (hopen : '[' ∉ name)
    (hport : port = [] ∨ port.head? = some ':') : (name ++ port).head? ≠ some '[' := by
  cases name with
  | nil => rcases hport with rfl | hport <;> simp_all
  | cons c cs =>
    rw [List.mem_cons, not_or] at hopen
    simpa using Ne.symm hopen.1

/-- Without a bracket in front the host stands before the port. -/
lemma hostWithoutPort_of_head? {authority : List Char} (h : authority.head? ≠ some '[') :
    hostWithoutPort authority = (Text.splitOnce ':' authority).1 := by
  unfold hostWithoutPort
  split
  · exact absurd rfl h
  · rfl

/-- A text without brackets is not trimmed. -/
lemma trimBrackets_of_not_mem {host : List Char} (hopen : '[' ∉ host) (hclose : ']' ∉ host) :
    trimBrackets host = host := by
  have hfree : ∀ c ∈ host, ¬(c = '[' ∨ c = ']') := by
    rintro c hc (rfl | rfl)
    · exact hopen hc
    · exact hclose hc
  rw [trimBrackets, List.dropWhile_eq_self_iff.mpr, List.rdropWhile_eq_self_iff.mpr]
  · intro hne
    simpa using hfree _ (List.getLast_mem hne)
  · intro hlength
    simpa using hfree _ (List.getElem_mem hlength)

/-- A digit has no case. -/
lemma toLower_of_isDigit {c : Char} (h : c.isDigit = true) : c.toLower = c := by
  refine Char.toLower_eq_of_not_isUpper fun hupper => ?_
  simp only [Char.isDigit, Char.isUpper, Bool.and_eq_true, decide_eq_true_eq,
    UInt32.le_iff_toNat_le] at h hupper
  exact absurd (hupper.1.trans h.2) (by decide)

/-- The strict text of an address is read as that address. -/
lemma standardHost_of_parse {name : List Char} {ip : ℕ} (h : Ipv4.parse name = some ip) :
    standardHost name = some (.ipv4 ip) := by
  have hlower : name.map Char.toLower = name := by
    refine (List.map_congr_left fun c hc => ?_).trans (List.map_id name)
    rcases Ipv4.chars_of_parse h c hc with hdigit | rfl
    · exact toLower_of_isDigit hdigit
    · rfl
  obtain ⟨hnumber, hnumbers⟩ := Ipv4.numbers_of_parse h
  rw [standardHost, hlower, if_pos hnumber, hnumbers]
  rfl

/-- A name below `localhost` is no address. -/
lemma standardHost_of_isSuffixOf {name : List Char}
    (h : ".localhost".toList.isSuffixOf (name.map Char.toLower) = true) :
    standardHost name = some (.domain (String.ofList (name.map Char.toLower))) := by
  obtain ⟨first, hfirst⟩ := List.isSuffixOf_iff_suffix.mp h
  have hnumber : Ipv4.endsInNumber (name.map Char.toLower) = false := by
    have hname : Ipv4.endsInNumber (first ++ '.' :: "localhost".toList) = false :=
      Ipv4.not_endsInNumber_append (by decide) (by decide) (by decide) (by decide)
    rw [← hfirst]
    exact hname
  rw [standardHost, hnumber]
  rfl

/-! ## The host that is contacted is public -/

/-- An address in brackets that passes the check passes the guard. -/
lemma validateHost_address {inner : List Char} {ip : ℕ} (hopen : '[' ∉ inner) (hclose : ']' ∉ inner)
    (hip : Ipv6.parse inner = some ip) (h : validatePublicHost inner = .ok ()) :
    Web.validateHost (.ipv6 ip) = .ok () := by
  have hrejected := (validatePublicHost_eq_ok h).2.2 (Ipv6.parse_ipv4 hip) ip
    (by rwa [trimBrackets_of_not_mem hopen hclose])
  rw [rejectedIpv6] at hrejected
  rw [Web.validateHost, hrejected]
  rfl

/-- A name is read as an IPv4 address or as a domain in lower case. -/
lemma standardHost_cases {name : List Char} {host : UrlHost} (h : standardHost name = some host) :
    (∃ ip, host = .ipv4 ip) ∨ host = .domain (String.ofList (name.map Char.toLower)) := by
  rw [standardHost] at h
  split at h
  · obtain ⟨ip, -, rfl⟩ := Option.map_eq_some_iff.mp h
    exact .inl ⟨ip, rfl⟩
  · exact .inr (Option.some.inj h).symm

/-- Lower case stays lower case. -/
lemma map_toLower_idem (name : List Char) :
    (name.map Char.toLower).map Char.toLower = name.map Char.toLower := by
  rw [List.map_map]
  exact List.map_congr_left fun c _ => Char.toLower_toLower_eq_toLower c

/-- A name that passes the check passes the guard exactly when it is spelled plainly. -/
lemma validateHost_name {name : List Char} {host : UrlHost}
    (hhost : standardHost name = some host) (h : validatePublicHost name = .ok ()) :
    Web.validateHost host = .ok () ↔
      ".localhost".toList.isSuffixOf (name.map Char.toLower) = false ∧
        ∀ ip, standardHost name = some (.ipv4 ip) → Web.isRejectedIpv4 ip = true →
          (Ipv4.parse name).isSome := by
  obtain ⟨hlocal, hipv4, -⟩ := validatePublicHost_eq_ok h
  cases hsuffix : ".localhost".toList.isSuffixOf (name.map Char.toLower) with
  | true =>
    obtain rfl := Option.some.inj (hhost.symm.trans (standardHost_of_isSuffixOf hsuffix))
    have hdomain : Web.isLocalDomain (String.ofList (name.map Char.toLower)) = true := by
      rw [Web.isLocalDomain, String.toList_ofList, hsuffix, Bool.or_true]
    rw [Web.validateHost, hdomain]
    exact iff_of_false (fun h => nomatch h) fun h => nomatch h.1
  | false =>
    rcases standardHost_cases hhost with ⟨ip, rfl⟩ | rfl
    · constructor
      · refine fun hok => ⟨rfl, fun other hother hrejected => ?_⟩
        obtain rfl := UrlHost.ipv4.inj (Option.some.inj (hhost.symm.trans hother))
        simp [Web.validateHost, hrejected] at hok
      · rintro ⟨-, hplain⟩
        cases hrejected : Web.isRejectedIpv4 ip with
        | false => simp [Web.validateHost, hrejected]
        | true =>
          obtain ⟨strict, hstrict⟩ := Option.isSome_iff_exists.mp (hplain ip hhost hrejected)
          obtain rfl := UrlHost.ipv4.inj
            (Option.some.inj ((standardHost_of_parse hstrict).symm.trans hhost))
          exact absurd (hipv4 strict hstrict) (by simp [rejectedIpv4, hrejected])
    · refine iff_of_true ?_ ⟨rfl, fun ip hip => absurd (hhost.symm.trans hip) (by simp)⟩
      have hdomain : Web.isLocalDomain (String.ofList (name.map Char.toLower)) = false := by
        rw [Web.isLocalDomain, String.toList_ofList, map_toLower_idem, hsuffix, Bool.or_false,
          decide_eq_false_iff_not]
        exact fun heq => hlocal (by rw [← heq, String.toList_ofList])
      rw [Web.validateHost, hdomain]
      rfl

/-- **The host that is contacted** for an accepted webhook passes the guard of the web source
exactly when it is spelled plainly.

**Proof sketch.** An address in brackets is read alike by the check and by the parser. A name is
read by the parser in lower case and, if its last part is a number, as an IPv4 address; the check
sees neither the case of the last label nor an address in another spelling than the strict one. -/
theorem webhook_host_iff [UriLibrary] [HttpLibrary] [UrlLibrary] (laws : HostLaws) (value : String)
    (authSecret : Option String) (config : WatchDeliveryConfig)
    (hnew : WatchDeliveryConfig.new value authSecret = .ok config) (url : UrlLibrary.Url)
    (hparse : UrlLibrary.parse value = .ok url) :
    (∃ host, UrlLibrary.host url = some host ∧ Web.validateHost host = .ok ()) ↔
      IsPlainWebhook value := by
  obtain ⟨authority, huri, hcredentials, hpublic⟩ :=
    validateWebhookUrl_eq_ok (WatchDeliveryConfig.validate_of_new hnew)
  obtain ⟨host, hhost, hread⟩ := laws.host_of_authority value authority url huri hcredentials hparse
  have hguard : (∃ host, UrlLibrary.host url = some host ∧ Web.validateHost host = .ok ()) ↔
      Web.validateHost host = .ok () := by
    rw [hhost]
    exact ⟨fun ⟨_, heq, hok⟩ => Option.some.inj heq ▸ hok, fun hok => ⟨host, rfl, hok⟩⟩
  have hplain : IsPlainWebhook value ↔ IsPlainAuthority authority.toList := by
    rw [IsPlainWebhook, huri]
    exact ⟨fun h => h _ rfl _ rfl, by rintro h _ ⟨⟩ _ ⟨⟩; exact h⟩
  rw [hguard, hplain]
  generalize authority.toList = chars at hread hpublic
  cases hread with
  | address hopen hclose hip =>
    rw [hostWithoutPort_address hclose] at hpublic
    exact iff_of_true (validateHost_address hopen hclose hip hpublic) (.inl rfl)
  | name hopen hcolon hport hname =>
    have hhead := head?_name_ne hopen hport
    rw [hostWithoutPort_of_head? hhead, splitOnce_name hcolon hport] at hpublic
    rw [IsPlainAuthority, splitOnce_name hcolon hport, or_iff_right hhead]
    exact validateHost_name hname hpublic

/-! ## Parsers of plain addresses -/

/-- A parser of the URIs of secure HTTP. -/
@[reducible] def UriLibrary.https : UriLibrary where
  parseUri value := (Text.stripPrefix "https://" value).map fun rest =>
    ⟨some "https", some (String.ofList (Text.splitOnce '/' rest.toList).1)⟩

/-- The host of an address without credentials and brackets. -/
def hostOfAddress (value : String) : Option UrlHost :=
  (UriLibrary.https.parseUri value).bind fun uri => uri.authority.bind fun authority =>
    if '[' ∈ authority.toList ∨ '@' ∈ authority.toList then none
    else standardHost (Text.splitOnce ':' authority.toList).1

/-- Reads the addresses of one host with their paths, and of the others the host. -/
def parseAddress (value : String) : Except String (UrlLibrary.gitHub.Url ⊕ String) :=
  match UrlLibrary.gitHub.parse value with
  | .ok url => .ok (.inl url)
  | .error e => if (hostOfAddress value).isSome then .ok (.inr value) else .error e

/-- When an address of the one host is read. -/
lemma parseAddress_inl {value : String} {url : UrlLibrary.gitHub.Url} :
    parseAddress value = .ok (.inl url) ↔ UrlLibrary.gitHub.parse value = .ok url := by
  unfold parseAddress
  cases UrlLibrary.gitHub.parse value with
  | ok found => exact ⟨fun h => congrArg _ (Sum.inl.inj (Except.ok.inj h)), fun h => h ▸ rfl⟩
  | error e => dsimp only; split <;> simp

/-- When another address is read. -/
lemma parseAddress_inr {value other : String} (h : parseAddress value = .ok (.inr other)) :
    other = value ∧ parseAddress value = .ok (.inr value) ∧ (hostOfAddress value).isSome := by
  have hread := h
  unfold parseAddress at h
  split at h
  · exact absurd h (by simp)
  · split at h
    · rename_i hhost
      obtain rfl := Sum.inr.inj (Except.ok.inj h)
      exact ⟨rfl, hread, hhost⟩
    · exact absurd h (by simp)

/-- An address of another host is read when its host is. -/
lemma parseAddress_of_not_gitHub {value : String}
    (hstart : UrlLibrary.gitHubPrefix.isPrefixOf value.toList = false)
    (hhost : (hostOfAddress value).isSome = true) : parseAddress value = .ok (.inr value) := by
  have hparse : UrlLibrary.gitHub.parse value = .error "invalid" := by
    show UrlLibrary.parseGitHub value.toList = _
    rw [UrlLibrary.parseGitHub, hstart]
    rfl
  rw [parseAddress, hparse]
  exact if_pos hhost

/-- A parser of addresses: those of one host with their paths, and the hosts of the others. -/
@[reducible] def UrlLibrary.ofHosts : UrlLibrary where
  Url := UrlLibrary.gitHub.Url ⊕ String
  parse := parseAddress
  asStr := Sum.elim UrlLibrary.gitHub.asStr id
  withoutFragment := Sum.map UrlLibrary.gitHub.withoutFragment id
  scheme _ := "https"
  username _ := ""
  password _ := none
  host := Sum.elim UrlLibrary.gitHub.host hostOfAddress
  pathSegments := Sum.elim UrlLibrary.gitHub.pathSegments fun _ => none
  queryPairs _ := []
  withoutFragment_idem := by rintro (url | value) <;> rfl
  parse_asStr := by
    rintro value (url | other) h
    · exact parseAddress_inl.mpr (UrlLibrary.gitHub.parse_asStr value url (parseAddress_inl.mp h))
    · obtain ⟨rfl, hread, -⟩ := parseAddress_inr h
      exact hread
  parse_address segments fragment hne hsegments hfragment := by
    obtain ⟨url, hparse, hhost, hpath⟩ :=
      UrlLibrary.gitHub.parse_address segments fragment hne hsegments hfragment
    exact ⟨.inl url, parseAddress_inl.mpr hparse, hhost, hpath⟩

/-- The authority of an address of the one host. -/
lemma parseUri_gitHub {value : String} {url : UrlLibrary.gitHub.Url}
    (h : UrlLibrary.gitHub.parse value = .ok url) :
    UriLibrary.https.parseUri value = some ⟨some "https", some "github.com"⟩ := by
  have hread : UrlLibrary.parseGitHub value.toList = .ok url := h
  have hstart : UrlLibrary.gitHubPrefix.isPrefixOf value.toList = true := by
    by_contra hne
    rw [UrlLibrary.parseGitHub, if_neg hne] at hread
    cases hread
  obtain ⟨rest, hrest⟩ := List.isPrefixOf_iff_prefix.mp hstart
  have hvalue : value = "https://" ++ ("github.com/" ++ String.ofList rest) := by
    have hgitHub : UrlLibrary.gitHubPrefix = "https://".toList ++ "github.com/".toList := by decide
    refine String.toList_inj.mp ?_
    rw [← hrest, hgitHub, String.toList_append, String.toList_append,
      String.toList_ofList (l := rest), List.append_assoc]
  have hsplit : Text.splitOnce '/' ("github.com".toList ++ '/' :: rest) =
      ("github.com".toList, some rest) := Text.splitOnce_append (by decide)
  have hauthority : ("github.com/" ++ String.ofList rest).toList =
      "github.com".toList ++ '/' :: rest := by
    have hslash : "github.com/".toList = "github.com".toList ++ ['/'] := by decide
    rw [String.toList_append, String.toList_ofList (l := rest), hslash, List.append_assoc]
    rfl
  show (Text.stripPrefix "https://" value).map (fun rest =>
    (⟨some "https", some (String.ofList (Text.splitOnce '/' rest.toList).1)⟩ : UriParts)) = _
  rw [hvalue, Text.stripPrefix_append, Option.map_some, hauthority, hsplit, String.ofList_toList]

/-- The parser of addresses reads the host that the standard reads. -/
lemma hostLaws_ofHosts : @HostLaws .https .ofHosts := by
  let _ : UriLibrary := .https
  let _ : UrlLibrary := .ofHosts
  refine ⟨?_⟩
  rintro value authority (url | other) huri hcredentials hparse
  · have hauthority := huri.symm.trans (parseUri_gitHub (parseAddress_inl.mp hparse))
    obtain rfl : authority = "github.com" := by simpa using hauthority
    refine ⟨.domain "github.com", rfl, ?_⟩
    have hhost : AuthorityHost ("github.com".toList ++ []) (.domain "github.com") :=
      .name (by decide) (by decide) (.inl rfl) (by decide)
    simpa using hhost
  · obtain ⟨rfl, -, hsome⟩ := parseAddress_inr hparse
    obtain ⟨host, hhost⟩ := Option.isSome_iff_exists.mp hsome
    refine ⟨host, hhost, ?_⟩
    rw [hostOfAddress, huri] at hhost
    simp only [Option.bind_some] at hhost
    split at hhost
    · cases hhost
    · rename_i hfree
      rw [not_or] at hfree
      obtain ⟨port, hport, hcolon⟩ := Text.exists_eq_splitOnce_append ':' authority.toList
      rw [hport]
      refine .name (fun hmem => hfree.1 ?_) (Text.not_mem_splitOnce ':' _) hcolon hhost
      rw [hport]
      exact List.mem_append_left _ hmem

/-- A webhook without a secret is accepted when its URL is. -/
lemma WatchDeliveryConfig.new_of_validate [UriLibrary] [HttpLibrary] {url : String}
    (h : validateWebhookUrl url = .ok ()) : WatchDeliveryConfig.new url none = .ok ⟨url, none⟩ := by
  rw [WatchDeliveryConfig.new, h]
  rfl

/-- A loopback address in hexadecimal, with a port. -/
def hiddenWebhook : String := "https://0x7f.1:8443/hook"

set_option maxRecDepth 100000 in
/-- The URL of the loopback address is accepted. -/
lemma validate_hiddenWebhook : @validateWebhookUrl .https hiddenWebhook = .ok () := by
  decide

set_option maxRecDepth 100000 in
/-- The URL of the loopback address is read. -/
lemma parseAddress_hiddenWebhook : parseAddress hiddenWebhook = .ok (.inr hiddenWebhook) :=
  parseAddress_of_not_gitHub (by decide) (by decide +kernel)

/-- The spelling decides, here of a loopback address. -/
theorem hidden_webhook_host :
    letI : UriLibrary := .https
    letI : UrlLibrary := .ofHosts
    (∃ host, hostOfAddress hiddenWebhook = some host ∧ Web.validateHost host = .ok ()) ↔
      IsPlainWebhook hiddenWebhook := by
  let _ : UriLibrary := .https
  let _ : UrlLibrary := .ofHosts
  let _ : HttpLibrary := .ofHost "example.com"
  exact webhook_host_iff hostLaws_ofHosts hiddenWebhook none ⟨hiddenWebhook, none⟩
    (WatchDeliveryConfig.new_of_validate validate_hiddenWebhook) (.inr hiddenWebhook)
    parseAddress_hiddenWebhook

set_option maxRecDepth 100000 in
/-- **A loopback address in hexadecimal is accepted**, and the parser of URLs reads it. -/
theorem webhook_host_hidden :
    letI : UriLibrary := .https
    letI : HttpLibrary := .ofHost "example.com"
    letI : UrlLibrary := .ofHosts
    ¬ ∀ (value : String) (authSecret : Option String) (config : WatchDeliveryConfig)
      (url : UrlLibrary.Url), WatchDeliveryConfig.new value authSecret = .ok config →
        UrlLibrary.parse value = .ok url →
          ∃ host, UrlLibrary.host url = some host ∧ Web.validateHost host = .ok () := by
  let _ : UriLibrary := .https
  let _ : HttpLibrary := .ofHost "example.com"
  let _ : UrlLibrary := .ofHosts
  intro h
  obtain ⟨host, hhost, hok⟩ := h hiddenWebhook none ⟨hiddenWebhook, none⟩ (.inr hiddenWebhook)
    (WatchDeliveryConfig.new_of_validate validate_hiddenWebhook) parseAddress_hiddenWebhook
  have hread : hostOfAddress hiddenWebhook = some (.ipv4 2130706433) := by decide
  obtain rfl := Option.some.inj (hread.symm.trans hhost)
  exact absurd hok (by simp [Web.validateHost, Web.isRejectedIpv4])

end Comsat
