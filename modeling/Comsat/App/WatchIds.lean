import Comsat.App.ExecutedRuns

set_option relaxedAutoImplicit false
set_option autoImplicit false

/-!
# The identifiers of watches

A watch that is added without an identifier gets one that is made of the first words of its query and
of the current time.

## Main definitions

* `slugWords`, `generatedWatchId` — the identifier that is made of a query.
* `GeneratedIdAccepted` — the store accepts the identifier, and its words are joined by hyphens.
* `wordSizes` — how many letters and digits the first words of a query have.

## Main results

* `generated_watch_id_accepted_iff` — when the store accepts the identifier.

## Design

* The code looks at the bytes of the query. A character beyond ASCII has only bytes that are dropped,
  so it is dropped as a whole.
-/

namespace Comsat

/-! ## Identifiers -/

/-- What becomes of a character of the query: letters are lowered, digits stay, separators become
hyphens, and all others are dropped. -/
def slugChar (c : Char) : Option Char :=
  if c.isLower || c.isDigit then some c
  else if c.isUpper then some c.toLower
  else if c = ' ' ∨ c = '-' ∨ c = '_' then some '-'
  else none

/-- The first four words of the query. -/
def slugWords (query : String) : List String :=
  ((Text.split '-' (String.ofList (query.toList.filterMap slugChar))).filter (· ≠ "")).take 4

/-- The identifier of a watch that is added without one. -/
def generatedWatchId (query : String) (now : ℤ) : String :=
  let slug := String.intercalate "-" (slugWords query)
  let slug := if slug = "" then "watch" else slug
  slug ++ "-" ++ toString now

/-- The store accepts the identifier that is made of a query, and what stands before the time are one
to four words with single hyphens between them. -/
structure GeneratedIdAccepted (query : String) (now : ℤ) : Prop where
  accepted : validateStorageId (generatedWatchId query now) "watch_id" = .ok ()
  words : ∃ words : List String, 1 ≤ words.length ∧ words.length ≤ 4 ∧
    (∀ word ∈ words, word ≠ "" ∧ '-' ∉ word.toList) ∧
      generatedWatchId query now = String.intercalate "-" words ++ "-" ++ toString now

/-! ## Words -/

/-- Whether a character separates words. -/
def isWordSeparator (c : Char) : Bool := c = ' ' || c = '-' || c = '_'

/-- How many letters and digits the first four words of a query have. Words without any do not
count. -/
def wordSizes (query : String) : List ℕ :=
  (((query.toList.splitOnP isWordSeparator).map (List.countP Char.isAlphanum)).filter (0 < ·)).take 4

/-- A character is a separator, a letter or a digit, or it is dropped. -/
lemma slugChar_cases (c : Char) :
    (isWordSeparator c = true ∧ c.isAlphanum = false ∧ slugChar c = some '-') ∨
      (isWordSeparator c = false ∧ c.isAlphanum = true ∧
        ∃ d, slugChar c = some d ∧ (d.isLower = true ∨ d.isDigit = true)) ∨
      (isWordSeparator c = false ∧ c.isAlphanum = false ∧ slugChar c = none) := by
  by_cases hseparator : isWordSeparator c = true
  · have hcases : c = ' ' ∨ c = '-' ∨ c = '_' := by
      simpa [isWordSeparator, or_assoc] using hseparator
    exact .inl (by rcases hcases with rfl | rfl | rfl <;> decide)
  · have hnot : ¬(c = ' ' ∨ c = '-' ∨ c = '_') := by
      simpa [isWordSeparator, or_assoc] using hseparator
    rw [Bool.not_eq_true] at hseparator
    by_cases hkept : (c.isLower || c.isDigit) = true
    · refine .inr (.inl ⟨hseparator, ?_, c, by rw [slugChar, if_pos hkept], by simpa using hkept⟩)
      rcases Bool.or_eq_true_iff.mp hkept with h | h <;> simp [Char.isAlphanum, Char.isAlpha, h]
    by_cases hupper : c.isUpper = true
    · refine .inr (.inl ⟨hseparator, by simp [Char.isAlphanum, Char.isAlpha, hupper], c.toLower,
        by rw [slugChar, if_neg hkept, if_pos hupper], .inl ?_⟩)
      have hletters : ∀ n < 91, 65 ≤ n → (Char.ofNat n).toLower.isLower = true := by decide
      have hbounds : 65 ≤ c.toNat ∧ c.toNat ≤ 90 := by
        simpa [Char.isUpper, UInt32.le_iff_toNat_le] using hupper
      have hletter := hletters c.toNat (by omega) hbounds.1
      rwa [Char.ofNat_toNat] at hletter
    · rw [Bool.not_eq_true] at hkept hupper
      have halphanum : c.isAlphanum = false := by
        have hboth := Bool.or_eq_false_iff.mp hkept
        simp [Char.isAlphanum, Char.isAlpha, hupper, hboth.1, hboth.2]
      exact .inr (.inr ⟨hseparator, halphanum, by simp [slugChar, hkept, hupper, hnot]⟩)

/-- Splitting what is kept at the hyphens leaves the letters and digits of the words. -/
lemma length_splitOn_filterMap (text : List Char) :
    ((text.filterMap slugChar).splitOn '-').map List.length =
      (text.splitOnP isWordSeparator).map (List.countP Char.isAlphanum) := by
  induction text with
  | nil => rfl
  | cons c text ih =>
    rw [List.splitOnP_cons_eq_if_modifyHead]
    obtain ⟨hseparator, -, hchar⟩ | ⟨hseparator, halphanum, d, hchar, hd⟩ |
      ⟨hseparator, halphanum, hchar⟩ := slugChar_cases c
    · rw [List.filterMap_cons_some hchar, List.splitOn_cons_eq_if_modifyHead, if_pos (by simp),
        if_pos hseparator, List.map_cons, List.map_cons, ih]
      rfl
    · have hne : ¬(d == '-') = true := by
        rw [beq_iff_eq]
        rintro rfl
        exact absurd hd (by decide)
      rw [List.filterMap_cons_some hchar, List.splitOn_cons_eq_if_modifyHead, if_neg hne,
        if_neg (by simp [hseparator])]
      cases hleft : (text.filterMap slugChar).splitOn '-' with
      | nil => exact absurd hleft (List.splitOn_ne_nil _ _)
      | cons first rest =>
        cases hright : text.splitOnP isWordSeparator with
        | nil => exact absurd hright (List.splitOnP_ne_nil _ _)
        | cons word words =>
          rw [hleft, hright] at ih
          simp only [List.map_cons, List.cons.injEq, List.modifyHead_cons, List.length_cons,
            List.countP_cons, halphanum, if_true] at ih ⊢
          exact ⟨by omega, ih.2⟩
    · rw [List.filterMap_cons_none hchar, ih, if_neg (by simp [hseparator])]
      cases text.splitOnP isWordSeparator with
      | nil => rfl
      | cons word words => simp [halphanum]

/-- The words of a slug are letters and digits. -/
lemma of_mem_slugWords {query word : String} (h : word ∈ slugWords query) :
    word ≠ "" ∧ ∀ c ∈ word.toList, c.isLower = true ∨ c.isDigit = true := by
  obtain ⟨hsplit, hne⟩ := List.mem_filter.mp (List.mem_of_mem_take h)
  obtain ⟨part, hpart, rfl⟩ := List.mem_map.mp hsplit
  rw [String.toList_ofList] at hpart
  obtain ⟨hhyphen, hmem⟩ := Text.of_mem_splitOn hpart
  refine ⟨by simpa using hne, fun c hc => ?_⟩
  rw [String.toList_ofList] at hc
  obtain ⟨source, -, hchar⟩ := List.mem_filterMap.mp (hmem c hc)
  obtain ⟨-, -, hsource⟩ | ⟨-, -, d, hsource, hd⟩ | ⟨-, -, hsource⟩ := slugChar_cases source
  · rw [hsource, Option.some.injEq] at hchar
    exact absurd (hchar ▸ hc) hhyphen
  · rw [hsource, Option.some.injEq] at hchar
    exact hchar ▸ hd
  · rw [hsource] at hchar
    cases hchar

/-- A letter or a digit is no hyphen, and the identifiers of the store may hold it. -/
lemma isTokenChar_of_isLower_or_isDigit {c : Char} (h : c.isLower = true ∨ c.isDigit = true) :
    c ≠ '-' ∧ isTokenChar c = true := by
  refine ⟨fun hc => absurd (hc ▸ h) (by decide), ?_⟩
  have hbounds : (97 ≤ c.toNat ∧ c.toNat ≤ 122) ∨ (48 ≤ c.toNat ∧ c.toNat ≤ 57) := by
    simpa [Char.isLower, Char.isDigit, UInt32.le_iff_toNat_le] using h
  simp only [isTokenChar, Bool.or_eq_true, Bool.and_eq_true, decide_eq_true_eq]
  omega

/-- The words of a slug have as many bytes as the words of the query have letters and digits. -/
lemma map_utf8ByteSize_slugWords (query : String) :
    (slugWords query).map String.utf8ByteSize = wordSizes query := by
  have hascii : ∀ word ∈ slugWords query, word.utf8ByteSize = word.toList.length := by
    intro word hword
    have htext : Text.IsAscii word := fun c hc => by
      have hbounds : (97 ≤ c.toNat ∧ c.toNat ≤ 122) ∨ (48 ≤ c.toNat ∧ c.toNat ≤ 57) := by
        simpa [Char.isLower, Char.isDigit, UInt32.le_iff_toNat_le] using
          (of_mem_slugWords hword).2 c hc
      omega
    rw [htext.utf8ByteSize, String.length_toList]
  have hfilter : ∀ parts : List (List Char),
      ((parts.map String.ofList).filter (· ≠ "")).map (fun word => word.toList.length) =
        (parts.map List.length).filter (0 < ·) := by
    intro parts
    induction parts with
    | nil => rfl
    | cons part parts ih =>
      cases part with
      | nil => simpa using ih
      | cons c cs => simpa using ih
  rw [List.map_congr_left hascii, slugWords, wordSizes, List.map_take, Text.split, hfilter,
    String.toList_ofList, length_splitOn_filterMap]

/-! ## Acceptance -/

/-- The identifier has a word or more, and the time. -/
lemma generatedWatchId_eq (query : String) (now : ℤ) :
    ∃ words : List String, (words = slugWords query ∨ slugWords query = [] ∧ words = ["watch"]) ∧
      1 ≤ words.length ∧ words.length ≤ 4 ∧
        generatedWatchId query now = String.intercalate "-" words ++ "-" ++ toString now := by
  rw [generatedWatchId]
  cases hwords : slugWords query with
  | nil => exact ⟨["watch"], .inr ⟨rfl, rfl⟩, by decide, by decide, rfl⟩
  | cons word words =>
    have hne : String.intercalate "-" (word :: words) ≠ "" := by
      intro hempty
      have hsize := congrArg String.utf8ByteSize hempty
      have hword : word.utf8ByteSize ≠ 0 := by
        rw [Ne, String.utf8ByteSize_eq_zero_iff]
        have hmem : word ∈ slugWords query := by simp [hwords]
        exact (of_mem_slugWords hmem).1
      have hzero : "".utf8ByteSize = 0 := rfl
      rw [Text.utf8ByteSize_intercalate, List.map_cons, List.sum_cons, hzero] at hsize
      omega
    refine ⟨word :: words, .inl rfl, by simp, ?_, by rw [if_neg hne]⟩
    have hlength : (slugWords query).length ≤ 4 := List.length_take_le ..
    rwa [hwords] at hlength

/-- The identifiers of all accepted queries are accepted. -/
def GeneratedIdsAccepted [ExternalParsers] : Prop :=
  ∀ (query : Query) (now : ℤ), query.validate = .ok () → IsI64 now →
    GeneratedIdAccepted query.text now

/-- **When the store accepts the identifier**: exactly when the letters and digits of the first four
words, a hyphen after each of these words, and the time take no more than 160 bytes.

**Proof sketch.** All characters of the identifier are letters, digits and hyphens, so only its size
matters; the word that stands for a query without words is short. -/
theorem generated_watch_id_accepted_iff (query : String) (now : ℤ) (hnow : IsI64 now) :
    GeneratedIdAccepted query now ↔
      (wordSizes query).sum + (wordSizes query).length + (toString now).utf8ByteSize ≤ 160 := by
  obtain ⟨words, hwords, hpos, hle, hid⟩ := generatedWatchId_eq query now
  have htime : (toString now).utf8ByteSize ≤ 20 := Json.byteLength_int_le hnow.1 hnow.2.le
  have hword : ∀ word ∈ words, word ≠ "" ∧ ∀ c ∈ word.toList, c.isLower = true ∨ c.isDigit = true := by
    rcases hwords with rfl | ⟨-, rfl⟩
    · exact fun word => of_mem_slugWords
    · have hlower : "watch".toList.all Char.isLower = true := rfl
      exact List.forall_mem_singleton.mpr
        ⟨by decide, fun c hc => .inl (List.all_eq_true.mp hlower c hc)⟩
  -- only the size of the identifier matters
  have hhyphen : "-".utf8ByteSize = 1 := rfl
  have hsize : (generatedWatchId query now).utf8ByteSize =
      (words.map String.utf8ByteSize).sum + words.length + (toString now).utf8ByteSize := by
    rw [hid, String.utf8ByteSize_append, String.utf8ByteSize_append, Text.utf8ByteSize_intercalate,
      hhyphen]
    omega
  have hiff : GeneratedIdAccepted query now ↔ (generatedWatchId query now).utf8ByteSize ≤ 160 := by
    have htoken : (generatedWatchId query now).toList.all isTokenChar = true := by
      rw [List.all_eq_true, hid]
      intro c hc
      simp only [String.toList_append, List.mem_append] at hc
      rcases hc with (hc | hc) | hc
      · rw [String.toList_intercalate] at hc
        obtain ⟨part, hpart, hc⟩ | hc := Text.mem_of_mem_intercalate hc
        · obtain ⟨word, hmem, rfl⟩ := List.mem_map.mp hpart
          exact (isTokenChar_of_isLower_or_isDigit ((hword word hmem).2 c hc)).2
        · rw [List.mem_singleton.mp hc]
          decide
      · rw [List.mem_singleton.mp hc]
        decide
      · obtain rfl | hdigit := Text.mem_int_toString hc
        · decide
        · exact (isTokenChar_of_isLower_or_isDigit (.inr hdigit)).2
    have hne : generatedWatchId query now ≠ "" := by
      intro hempty
      have hzero : "".utf8ByteSize = 0 := rfl
      rw [hempty, hzero] at hsize
      omega
    constructor
    · intro h
      have haccepted := h.accepted
      rw [validateStorageId, validateBoundedToken] at haccepted
      split at haccepted
      · rename_i hbounds
        exact hbounds.2.1
      · cases haccepted
    · intro h
      refine ⟨by rw [validateStorageId, validateBoundedToken, if_pos ⟨hne, h, htoken⟩],
        words, hpos, hle, fun word hmem => ⟨(hword word hmem).1, fun hc => ?_⟩, hid⟩
      exact (isTokenChar_of_isLower_or_isDigit ((hword word hmem).2 _ hc)).1 rfl
  rw [hiff, hsize]
  rcases hwords with rfl | ⟨hnil, rfl⟩
  · rw [← map_utf8ByteSize_slugWords, List.length_map]
  · have hwatch : "watch".utf8ByteSize = 5 := rfl
    rw [← map_utf8ByteSize_slugWords, hnil]
    simp only [List.map_cons, List.map_nil, List.sum_cons, List.sum_nil, List.length_cons,
      List.length_nil, hwatch]
    omega

/-- The equivalence for a query of two words. -/
theorem generated_watch_id_accepted_short : GeneratedIdAccepted "Rust Lean" 100 :=
  (generated_watch_id_accepted_iff "Rust Lean" 100 ⟨by decide, by decide⟩).mpr (by decide)

/-- A word of two hundred letters. -/
def longWord : String := String.ofList (List.replicate 200 'a')

set_option maxRecDepth 20000 in
/-- The identifier that is made of a long word is not accepted. -/
theorem generated_watch_id_refused :
    letI : ExternalParsers := .ofHost "example.com"
    ¬GeneratedIdsAccepted := by
  let _ : ExternalParsers := .ofHost "example.com"
  intro hclaim
  have haccepted := (hclaim ⟨longWord, none, none, none⟩ 0 (by decide) ⟨by decide, by decide⟩).accepted
  exact absurd haccepted (by decide)

end Comsat
