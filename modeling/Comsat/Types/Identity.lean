import Mathlib

set_option relaxedAutoImplicit false
set_option autoImplicit false

/-!
# Identities

The identifiers of sources and records. Both are texts that carry the proof of their own
validity, so that an invalid identifier cannot be built.

## Main definitions

* `ValidationError` — a refused value, with its message.
* `SourceId`, `SourceId.new` — lowercase words separated by hyphens, at most 64 bytes.
* `RecordId`, `RecordId.new` — a nonblank text of at most 2048 bytes without controls.
* `isBlank` — what trimming leaves empty.

## Main results

* `SourceId.no_colon` — a source identifier holds no colon, so a colon separates it from what
  follows it in a joined key.
-/

namespace Comsat

/-- A refused value. -/
structure ValidationError where
  /-- The message. -/
  message : String
deriving DecidableEq, Repr

/-! ## Characters -/

/-- Unicode white space, which `trim` removes at both ends. -/
def isWhitespace (c : Char) : Bool :=
  let n := c.toNat
  (0x09 ≤ n && n ≤ 0x0D) || n == 0x20 || n == 0x85 || n == 0xA0 || n == 0x1680 ||
    (0x2000 ≤ n && n ≤ 0x200A) || n == 0x2028 || n == 0x2029 || n == 0x202F || n == 0x205F ||
    n == 0x3000

/-- Control characters. -/
def isControl (c : Char) : Bool :=
  c.toNat ≤ 0x1F || (0x7F ≤ c.toNat && c.toNat ≤ 0x9F)

/-- Whether trimming the text leaves nothing. -/
def isBlank (value : String) : Bool := value.toList.all isWhitespace

/-- A lowercase ASCII letter or an ASCII digit. -/
def isWordChar (c : Char) : Bool :=
  (0x61 ≤ c.toNat && c.toNat ≤ 0x7A) || (0x30 ≤ c.toNat && c.toNat ≤ 0x39)

/-! ## Source identifiers -/

namespace SourceId

/-- The parts between the hyphens: there is always at least one. -/
def parts : List Char → List (List Char)
  | [] => [[]]
  | c :: cs =>
    if c = '-' then [] :: parts cs
    else
      match parts cs with
      | [] => [[c]]
      | part :: rest => (c :: part) :: rest

/-- Lowercase ASCII words separated by hyphens, at most 64 bytes together. -/
def isValid (value : String) : Bool :=
  value ≠ "" && value.utf8ByteSize ≤ 64 &&
    (parts value.toList).all fun part => part ≠ [] && part.all isWordChar

end SourceId

/-- The identifier of a source. -/
structure SourceId where
  /-- The text. -/
  value : String
  /-- The text is valid. -/
  valid : SourceId.isValid value = true

namespace SourceId

/-- Source identifiers are equal exactly when their texts are. -/
instance : DecidableEq SourceId := fun a b =>
  decidable_of_iff (a.value = b.value) (by cases a; cases b; simp)

/-- A source identifier is its text. -/
@[ext] lemma ext_value {a b : SourceId} (h : a.value = b.value) : a = b := by
  cases a; cases b; simpa using h

/-- Checks a text and makes it a source identifier. -/
def new (value : String) : Except ValidationError SourceId :=
  if h : isValid value = true then .ok ⟨value, h⟩
  else .error ⟨"source must contain lowercase ASCII words separated by hyphens"⟩

/-- Every character of a text is a hyphen or stands in one of its parts. -/
private lemma mem_parts {cs : List Char} {c : Char} (hc : c ∈ cs) :
    c = '-' ∨ ∃ part ∈ parts cs, c ∈ part := by
  induction cs with
  | nil => simp at hc
  | cons d cs ih =>
    simp only [parts]
    rcases List.mem_cons.mp hc with rfl | hc
    · by_cases hd : c = '-'
      · exact .inl hd
      · right
        simp only [if_neg hd]
        cases parts cs with
        | nil => exact ⟨[c], by simp, by simp⟩
        | cons part rest => exact ⟨c :: part, by simp, by simp⟩
    · obtain h | ⟨part, hpart, hcp⟩ := ih hc
      · exact .inl h
      · right
        by_cases hd : d = '-'
        · exact ⟨part, by simp [hd, hpart], hcp⟩
        · simp only [if_neg hd]
          cases hp : parts cs with
          | nil => simp [hp] at hpart
          | cons first rest =>
            rcases List.mem_cons.mp (hp ▸ hpart) with rfl | hrest
            · exact ⟨d :: part, by simp, by simp [hcp]⟩
            · exact ⟨part, by simp [hrest], hcp⟩

/-- A source identifier contains only hyphens and word characters, so no colon. -/
theorem no_colon (source : SourceId) : ':' ∉ source.value.toList := by
  intro hmem
  have hvalid := source.valid
  simp only [isValid, Bool.and_eq_true, List.all_eq_true] at hvalid
  rcases mem_parts hmem with h | ⟨part, hpart, hc⟩
  · exact absurd h (by decide)
  · have hword := (hvalid.2 part hpart).2 ':' hc
    exact absurd hword (by decide)

/-! ### Valid source identifiers -/

lemma isValid_github : isValid "github" = true := by decide

lemma isValid_hackerNews : isValid "hacker-news" = true := by decide

lemma isValid_stackExchange : isValid "stack-exchange" = true := by decide

lemma isValid_web : isValid "web" = true := by decide

lemma isValid_hn : isValid "hn" = true := by decide

lemma isValid_a : isValid "a" = true := by decide

end SourceId

/-! ## Record identifiers -/

/-- A nonblank text of at most 2048 bytes without control characters. -/
def RecordId.isValid (value : String) : Bool :=
  !isBlank value && value.utf8ByteSize ≤ 2048 && !value.toList.any isControl

/-- The identifier of a record within its source. -/
structure RecordId where
  /-- The text. -/
  value : String
  /-- The text is valid. -/
  valid : RecordId.isValid value = true

namespace RecordId

/-- Record identifiers are equal exactly when their texts are. -/
instance : DecidableEq RecordId := fun a b =>
  decidable_of_iff (a.value = b.value) (by cases a; cases b; simp)

/-- A record identifier is its text. -/
@[ext] lemma ext_value {a b : RecordId} (h : a.value = b.value) : a = b := by
  cases a; cases b; simpa using h

/-- Checks a text and makes it a record identifier. -/
def new (value : String) : Except ValidationError RecordId :=
  if h : isValid value = true then .ok ⟨value, h⟩
  else .error ⟨"record id must be nonempty, bounded, and contain no control characters"⟩

/-! ### Valid record identifiers -/

lemma isValid_one : isValid "1" = true := by decide

lemma isValid_two : isValid "2" = true := by decide

end RecordId

end Comsat
