import Comsat.Lib.Text

set_option relaxedAutoImplicit false
set_option autoImplicit false

/-!
# URLs

The parser of URLs that the sources use, as far as they rely on it.

## Main definitions

* `UrlHost` — the host of a URL.
* `UrlLibrary` — the parser, what it reads in a URL, and the laws that the sources rely on.
* `UrlLibrary.gitHub` — a parser of addresses of one host, to evaluate definitions on concrete
  inputs.

## Design

* URLs belong to a third-party library. The laws say what the URL standard says: a parsed URL is
  read back from its text, and an address of plain segments is read as it is written.
-/

namespace Comsat

/-- The host of a URL. -/
inductive UrlHost where
  | domain (name : String)
  /-- The address as a number of 32 bits. -/
  | ipv4 (address : ℕ)
  /-- The address as a number of 128 bits. -/
  | ipv6 (address : ℕ)
deriving DecidableEq

/-- The characters of plain segments of a path. -/
def isPlainChar (c : Char) : Bool := c.isAlphanum || c = '-' || c = '_' || c = '.'

/-- A segment of a path that stands for itself. -/
def IsPlainSegment (segment : String) : Prop :=
  segment ≠ "" ∧ segment ≠ "." ∧ segment ≠ ".." ∧ ∀ c ∈ segment.toList, isPlainChar c = true

/-- The address of a page, with a fragment if there is one. -/
def webAddress (host : String) (segments : List String) (fragment : Option String) : String :=
  "https://" ++ host ++ "/" ++ String.intercalate "/" segments ++
    (match fragment with
    | none => ""
    | some fragment => "#" ++ fragment)

/-- The parser of URLs, and what it reads in a URL. -/
class UrlLibrary where
  Url : Type
  parse : String → Except String Url
  asStr : Url → String
  withoutFragment : Url → Url
  scheme : Url → String
  username : Url → String
  password : Url → Option String
  host : Url → Option UrlHost
  pathSegments : Url → Option (List String)
  queryPairs : Url → List (String × String)
  /-- A URL without its fragment has none. -/
  withoutFragment_idem : ∀ url, withoutFragment (withoutFragment url) = withoutFragment url
  /-- A parsed URL without its fragment is read back from its text. -/
  parse_asStr : ∀ value url, parse value = .ok url →
    parse (asStr (withoutFragment url)) = .ok (withoutFragment url)
  /-- An address of plain segments is read as it is written. -/
  parse_address : ∀ segments fragment, segments ≠ [] → (∀ s ∈ segments, IsPlainSegment s) →
    (∀ f ∈ fragment, ∀ c ∈ f.toList, isPlainChar c = true) →
      ∃ url, parse (webAddress "github.com" segments fragment) = .ok url ∧
        host url = some (.domain "github.com") ∧ pathSegments url = some segments

namespace UrlLibrary

variable [UrlLibrary]

/-- The domain of a URL. -/
def domain (url : Url) : Option String :=
  match host url with
  | some (.domain name) => some name
  | _ => none

end UrlLibrary

/-! ## A parser of plain addresses -/

/-- A character of a plain segment is not a separator. -/
lemma not_mem_of_isPlainSegment {segment : String} (h : IsPlainSegment segment) {c : Char}
    (hc : isPlainChar c = false) : c ∉ segment.toList := fun hmem =>
  absurd (h.2.2.2 c hmem) (by simp [hc])

namespace UrlLibrary

/-- The beginning of the addresses of the host. -/
def gitHubPrefix : List Char := "https://github.com/".toList

/-- Reads the path and the fragment of an address of the host. -/
def parseGitHub (value : List Char) : Except String (List Char × Option (List Char)) :=
  if gitHubPrefix.isPrefixOf value then .ok (Text.splitOnce '#' (value.drop gitHubPrefix.length))
  else .error "invalid"

/-- The text of an address of the host. -/
def textGitHub (url : List Char × Option (List Char)) : List Char :=
  gitHubPrefix ++ url.1 ++
    match url.2 with
    | none => []
    | some fragment => '#' :: fragment

/-- An address is read back from its text. -/
lemma parseGitHub_textGitHub {url : List Char × Option (List Char)} (h : '#' ∉ url.1) :
    parseGitHub (textGitHub url) = .ok url := by
  obtain ⟨path, fragment⟩ := url
  have hstart : ∀ rest, gitHubPrefix.isPrefixOf (gitHubPrefix ++ rest) = true := fun rest =>
    List.isPrefixOf_iff_prefix.mpr (List.prefix_append _ _)
  cases fragment with
  | none =>
    rw [textGitHub, List.append_nil, parseGitHub, if_pos (hstart _), List.drop_left,
      Text.splitOnce_of_not_mem h]
  | some fragment =>
    rw [textGitHub, List.append_assoc, parseGitHub, if_pos (hstart _), List.drop_left,
      Text.splitOnce_append h]

/-- A parser of addresses of one host: a URL is its path and its fragment. -/
@[reducible] def gitHub : UrlLibrary where
  Url := List Char × Option (List Char)
  parse value := parseGitHub value.toList
  asStr url := String.ofList (textGitHub url)
  withoutFragment url := (url.1, none)
  scheme _ := "https"
  username _ := ""
  password _ := none
  host _ := some (.domain "github.com")
  pathSegments url := some (Text.split '/' (String.ofList url.1))
  queryPairs _ := []
  withoutFragment_idem _ := rfl
  parse_asStr value url h := by
    rw [String.toList_ofList]
    refine parseGitHub_textGitHub fun hmem => ?_
    rw [parseGitHub] at h
    split at h
    · rw [← Except.ok.inj h] at hmem
      exact Text.not_mem_splitOnce _ _ hmem
    · cases h
  parse_address segments fragment hne hsegments hfragment := by
    let path := String.intercalate "/" segments
    have hpath : '#' ∉ path.toList := by
      intro hmem
      rw [String.toList_intercalate] at hmem
      obtain ⟨part, hpart, hc⟩ | hc := Text.mem_of_mem_intercalate hmem
      · obtain ⟨segment, hsegment, rfl⟩ := List.mem_map.mp hpart
        exact not_mem_of_isPlainSegment (hsegments segment hsegment) (by decide) hc
      · exact absurd hc (by decide)
    have haddress : (webAddress "github.com" segments fragment).toList =
        textGitHub (path.toList, fragment.map String.toList) := by
      have hstart : ("https://" ++ "github.com" ++ "/").toList = gitHubPrefix := rfl
      rw [webAddress.eq_def, String.toList_append, String.toList_append, hstart, textGitHub]
      cases fragment with
      | none => rfl
      | some fragment => rw [String.toList_append]; rfl
    refine ⟨(path.toList, fragment.map String.toList), ?_, rfl, ?_⟩
    · rw [haddress]
      exact parseGitHub_textGitHub hpath
    · rw [String.ofList_toList]
      exact congrArg some (Text.split_intercalate hne fun part hpart =>
        not_mem_of_isPlainSegment (hsegments part hpart) (by decide))

end UrlLibrary

end Comsat
