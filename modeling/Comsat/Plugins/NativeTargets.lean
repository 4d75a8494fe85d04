import Comsat.Plugins.GitHubObjects

set_option relaxedAutoImplicit false
set_option autoImplicit false

/-!
# The native identifiers of GitHub

Which texts name a repository, an issue or a discussion, and where the requests for them go.

## Main definitions

* `percentDecode` — the bytes that a percent-encoded text stands for.
* `GitHubTarget.NativeForm` — the grammar of native identifiers.
* `GitHubTarget.nativeText` — the native identifier of a target.
* `NativeTargetExact` — a text is accepted as the grammar says, its target is read back from its
  native identifier, and its request stays at the path of the target.

## Main results

* `percentDecode_percentEncode` — encoded texts are read back.
* `GitHubTarget.parseNative_eq_ok_iff` — which texts are accepted.
* `native_target_exact_iff` — a number with a plus sign is accepted against the grammar.
-/

namespace Comsat

open GitHub

/-! ## Percent-encoded texts -/

/-- The value of a hexadecimal digit. -/
def hexValue (c : Char) : Option ℕ :=
  if c.isDigit then some (c.toNat - 0x30)
  else if 0x41 ≤ c.toNat ∧ c.toNat ≤ 0x46 then some (c.toNat - 0x41 + 10)
  else if 0x61 ≤ c.toNat ∧ c.toNat ≤ 0x66 then some (c.toNat - 0x61 + 10)
  else none

/-- The bytes that a percent-encoded text stands for. -/
def percentDecode : List Char → List UInt8
  | [] => []
  | '%' :: high :: low :: rest =>
    match hexValue high, hexValue low with
    | some high, some low => UInt8.ofNat (16 * high + low) :: percentDecode rest
    | _, _ => String.utf8EncodeChar '%' ++ percentDecode (high :: low :: rest)
  | c :: rest => String.utf8EncodeChar c ++ percentDecode rest

/-- The digits of a byte are read back. -/
lemma hexValue_digitChar {n : ℕ} (h : n < 16) : hexValue (Nat.digitChar n).toUpper = some n := by
  have hdigits : ∀ n < 16, hexValue (Nat.digitChar n).toUpper = some n := by decide
  exact hdigits n h

/-- Letters and digits are ASCII. -/
lemma toNat_le_of_isAlphanum {c : Char} (h : c.isAlphanum = true) : c.toNat ≤ 127 := by
  have hbounds : ((65 ≤ c.toNat ∧ c.toNat ≤ 90) ∨ (97 ≤ c.toNat ∧ c.toNat ≤ 122)) ∨
      (48 ≤ c.toNat ∧ c.toNat ≤ 57) := by
    simpa [Char.isAlphanum, Char.isAlpha, Char.isUpper, Char.isLower, Char.isDigit,
      UInt32.le_iff_toNat_le] using h
  omega

/-- An encoded byte is a letter or a digit, or it is written with a percent sign. -/
lemma percentByte_cases (byte : UInt8) :
    (∃ c : Char, c.isAlphanum = true ∧ percentByte byte = [c] ∧ String.utf8EncodeChar c = [byte]) ∨
      percentByte byte = ['%', (Nat.digitChar (byte.toNat / 16)).toUpper,
        (Nat.digitChar (byte.toNat % 16)).toUpper] := by
  by_cases h : (Char.ofNat byte.toNat).isAlphanum = true
  · refine .inl ⟨Char.ofNat byte.toNat, h, by rw [percentByte, if_pos h], ?_⟩
    have hchar : (Char.ofNat byte.toNat).toNat = byte.toNat := by
      have hlt : byte.toNat < 256 := byte.toNat_lt
      have hvalid : byte.toNat.isValidChar := .inl (by omega)
      rw [Char.ofNat, dif_pos hvalid]
      rfl
    have hascii : (Char.ofNat byte.toNat).toNat ≤ 127 := toNat_le_of_isAlphanum h
    rw [hchar] at hascii
    simp [String.utf8EncodeChar, hchar, hascii]
  · exact .inr (by rw [percentByte, if_neg h])

/-- An encoded byte is read back. -/
lemma percentDecode_percentByte (byte : UInt8) (rest : List Char) :
    percentDecode (percentByte byte ++ rest) = byte :: percentDecode rest := by
  obtain ⟨c, halphanum, hbyte, hencode⟩ | hbyte := percentByte_cases byte
  · have hpercent : c ≠ '%' := fun h => absurd (h ▸ halphanum) (by decide)
    rw [hbyte, List.singleton_append, percentDecode.eq_3 c rest fun _ _ _ h _ => hpercent h, hencode]
    rfl
  · have hlt : byte.toNat < 256 := byte.toNat_lt
    have hsum : 16 * (byte.toNat / 16) + byte.toNat % 16 = byte.toNat := Nat.div_add_mod _ _
    rw [hbyte, List.cons_append, List.cons_append, List.cons_append, List.nil_append, percentDecode,
      hexValue_digitChar (by omega), hexValue_digitChar (by omega)]
    dsimp only
    rw [hsum, UInt8.ofNat_toNat]

/-- **Encoded texts are read back.** -/
theorem percentDecode_percentEncode (value : String) :
    percentDecode (percentEncode value).toList = value.toUTF8.data.toList := by
  rw [percentEncode, String.toList_ofList]
  induction value.toUTF8.data.toList with
  | nil => rfl
  | cons byte bytes ih => rw [List.flatMap_cons, percentDecode_percentByte, ih]

/-- Encoded texts consist of letters, digits and percent signs. -/
lemma of_mem_percentEncode {value : String} {c : Char} (h : c ∈ (percentEncode value).toList) :
    c.isAlphanum = true ∨ c = '%' := by
  rw [percentEncode, String.toList_ofList] at h
  obtain ⟨byte, -, hc⟩ := List.mem_flatMap.mp h
  have hdigit : ∀ n < 16, (Nat.digitChar n).toUpper.isAlphanum = true := by decide
  have hlt : byte.toNat < 256 := byte.toNat_lt
  obtain ⟨d, halphanum, hbyte, -⟩ | hbyte := percentByte_cases byte
  · rw [hbyte] at hc
    exact .inl (List.mem_singleton.mp hc ▸ halphanum)
  · rw [hbyte] at hc
    simp only [List.mem_cons, List.not_mem_nil, or_false] at hc
    rcases hc with rfl | rfl | rfl
    · exact .inr rfl
    · exact .inl (hdigit _ (by omega))
    · exact .inl (hdigit _ (by omega))

/-- A text without percent signs stands for itself. -/
lemma percentDecode_of_not_mem {value : List Char} (h : '%' ∉ value) :
    percentDecode value = value.flatMap String.utf8EncodeChar := by
  induction value with
  | nil => rfl
  | cons c rest ih =>
    rw [List.mem_cons, not_or] at h
    rw [percentDecode.eq_3 c rest fun _ _ _ hc _ => h.1 hc.symm, ih h.2, List.flatMap_cons]

/-! ## The grammar -/

/-- Digits are read as the number they write, when it has 64 bits. -/
lemma digitsU64_eq_some_iff {digits : List Char} {number : ℕ} :
    digitsU64 digits = some number ↔ digits ≠ [] ∧ (∀ c ∈ digits, c.isDigit = true) ∧
      Nat.ofDigitChars 10 digits 0 = number ∧ number < 2 ^ 64 := by
  rw [digitsU64]
  split
  · rename_i hdigits
    dsimp only
    split
    · rename_i hlt
      rw [Option.some.injEq]
      exact ⟨fun h => ⟨hdigits.1, List.all_eq_true.mp hdigits.2, h, h ▸ hlt⟩, fun h => h.2.2.1⟩
    · rename_i hlt
      refine ⟨fun h => (by cases h), fun h => absurd (h.2.2.1 ▸ h.2.2.2) hlt⟩
  · rename_i hdigits
    refine ⟨fun h => (by cases h), fun h => absurd ⟨h.1, List.all_eq_true.mpr h.2.1⟩ hdigits⟩

namespace GitHubTarget

/-- A text that is a number from 1 to 2^64 - 1, written in decimal digits after a sign. -/
def NumberText (sign text : String) (number : ℕ) : Prop :=
  ∃ digits : List Char, text.toList = sign.toList ++ digits ∧ digits ≠ [] ∧
    (∀ c ∈ digits, c.isDigit = true) ∧ Nat.ofDigitChars 10 digits 0 = number ∧
      0 < number ∧ number < 2 ^ 64

/-- Native identifiers: `owner/repo`, `owner/repo#number` and `owner/repo/discussions/number`, where
numbers are written after a sign. -/
inductive NativeForm (sign : String) : GitHubTarget → String → Prop
  | repository {owner repo : String} (howner : IsPlainSegment owner) (hrepo : IsPlainSegment repo) :
    NativeForm sign (.repository ⟨owner, repo⟩) (owner ++ "/" ++ repo)
  | issue {owner repo text : String} {number : ℕ} (howner : IsPlainSegment owner)
    (hrepo : IsPlainSegment repo) (hnumber : NumberText sign text number) :
    NativeForm sign (.issue ⟨owner, repo⟩ number none) (owner ++ "/" ++ repo ++ "#" ++ text)
  | discussion {owner repo text : String} {number : ℕ} (howner : IsPlainSegment owner)
    (hrepo : IsPlainSegment repo) (hnumber : NumberText sign text number) :
    NativeForm sign (.discussion ⟨owner, repo⟩ number) (owner ++ "/" ++ repo ++ "/discussions/" ++ text)

/-- The number in a target. -/
def number? : GitHubTarget → Option ℕ
  | .repository _ => none
  | .issue _ number _ => some number
  | .discussion _ number => some number

/-- The native identifier of a target. -/
def nativeText : GitHubTarget → String
  | .repository named => named.nameWithOwner
  | .issue named number _ => named.nameWithOwner ++ "#" ++ toString number
  | .discussion named number => named.nameWithOwner ++ "/discussions/" ++ toString number

/-! ### Parts of identifiers -/

/-- A segment is valid exactly when it is plain. -/
lemma validateSegment_eq_ok_iff {value : String} :
    validateSegment value = .ok () ↔ IsPlainSegment value := by
  refine ⟨fun h => ?_, validateSegment_of_plain⟩
  rw [validateSegment] at h
  split at h
  · rename_i hplain
    exact ⟨hplain.1, hplain.2.1, hplain.2.2.1, List.all_eq_true.mp hplain.2.2.2⟩
  · cases h

/-- A name is valid exactly when its segments are plain. -/
lemma namedRepository_eq_ok_iff {owner repo : String} {named : RepositoryRef} :
    namedRepository owner repo = .ok named ↔
      named = ⟨owner, repo⟩ ∧ IsPlainSegment owner ∧ IsPlainSegment repo := by
  constructor
  · intro h
    rw [namedRepository] at h
    cases howner : validateSegment owner with
    | error e =>
      rw [howner] at h
      cases h
    | ok =>
      cases hrepo : validateSegment repo with
      | error e =>
        rw [howner, hrepo] at h
        cases h
      | ok =>
        rw [howner, hrepo] at h
        exact ⟨(Except.ok.inj h).symm, validateSegment_eq_ok_iff.mp howner,
          validateSegment_eq_ok_iff.mp hrepo⟩
  · rintro ⟨rfl, howner, hrepo⟩
    have hnamed : namedRepository (RepositoryRef.mk owner repo).owner (RepositoryRef.mk owner repo).repo =
        .ok ⟨owner, repo⟩ := namedRepository_of_plain howner hrepo
    exact hnamed

/-- A full name is valid exactly when it is made of two plain segments. -/
lemma repositoryRef_eq_ok_iff {value : String} {repository : RepositoryRef} :
    repositoryRef value = .ok repository ↔ value = repository.owner ++ "/" ++ repository.repo ∧
      IsPlainSegment repository.owner ∧ IsPlainSegment repository.repo := by
  have hslash : "/".toList = ['/'] := rfl
  constructor
  · intro h
    rw [repositoryRef] at h
    split at h
    · cases h
    · rename_i owner repo hsplit
      obtain ⟨rfl, howner, hrepo⟩ := namedRepository_eq_ok_iff.mp h
      refine ⟨?_, howner, hrepo⟩
      rw [← String.toList_inj, (Text.splitOnce_eq_some_iff.mp hsplit).1]
      simp [hslash]
  · rintro ⟨rfl, howner, hrepo⟩
    have hsplit : Text.splitOnce '/' (repository.owner ++ "/" ++ repository.repo).toList =
        (repository.owner.toList, some repository.repo.toList) :=
      Text.splitOnce_eq_some_iff.mpr ⟨by simp [hslash],
        not_mem_of_isPlainSegment howner (by decide)⟩
    rw [repositoryRef, hsplit]
    simp only [String.ofList_toList]
    exact namedRepository_of_plain howner hrepo

/-- A number is accepted with and without a plus sign. -/
lemma parseNumber_eq_ok_iff {value : String} {number : ℕ} :
    parseNumber value = .ok number ↔ NumberText "" value number ∨ NumberText "+" value number := by
  have hread : parseNumber value = .ok number ↔ parseU64 value = some number ∧ 0 < number := by
    rw [parseNumber]
    split
    · rename_i hnone
      simp [hnone]
    · rename_i hzero
      rw [hzero]
      refine ⟨fun h => (by cases h), fun h => ?_⟩
      cases Option.some.inj h.1
      exact absurd h.2 (lt_irrefl 0)
    · rename_i n hne hsome
      rw [hsome, Option.some.injEq, Except.ok.injEq]
      exact ⟨fun h => ⟨h, Nat.pos_of_ne_zero fun hzero => hne (h.trans hzero)⟩, And.left⟩
  have hsign : "".toList = [] ∧ "+".toList = ['+'] := ⟨rfl, rfl⟩
  rw [hread, parseU64]
  simp only [NumberText, hsign.1, hsign.2, List.nil_append]
  split
  · rename_i digits hplus
    rw [hplus, digitsU64_eq_some_iff]
    constructor
    · rintro ⟨⟨hne, hdigits, hvalue, hlt⟩, hpos⟩
      exact .inr ⟨digits, rfl, hne, hdigits, hvalue, hpos, hlt⟩
    · rintro (⟨_, rfl, -, hdigits, -⟩ | ⟨digits', heq, hne, hdigits, hvalue, hpos, hlt⟩)
      · exact absurd (hdigits '+' (List.mem_cons_self ..)) (by decide)
      · obtain rfl : digits = digits' := (List.cons.inj heq).2
        exact ⟨⟨hne, hdigits, hvalue, hlt⟩, hpos⟩
  · rename_i digits hplus
    rw [digitsU64_eq_some_iff]
    constructor
    · rintro ⟨⟨hne, hdigits, hvalue, hlt⟩, hpos⟩
      exact .inl ⟨_, rfl, hne, hdigits, hvalue, hpos, hlt⟩
    · rintro (⟨_, rfl, hne, hdigits, hvalue, hpos, hlt⟩ | ⟨digits', heq, -⟩)
      · exact ⟨⟨hne, hdigits, hvalue, hlt⟩, hpos⟩
      · exact absurd heq (hplus digits')

/-- The text of a number holds no separator of identifiers. -/
lemma NumberText.not_mem {sign text : String} {number : ℕ} (h : NumberText sign text number)
    {c : Char} (hsign : c ∉ sign.toList) (hc : c.isDigit = false) : c ∉ text.toList := by
  obtain ⟨digits, htext, -, hdigits, -⟩ := h
  rw [htext, List.mem_append, not_or]
  exact ⟨hsign, fun hmem => absurd (hdigits c hmem) (by simp [hc])⟩

/-- The decimal numeral of a number is its text. -/
lemma numberText_toString {number : ℕ} (hpos : 0 < number) (hlt : number < 2 ^ 64) :
    NumberText "" (toString number) number := by
  refine ⟨(toString number).toList, rfl, ?_, fun c hc => Text.isDigit_of_mem_nat_toString hc, ?_, hpos,
    hlt⟩
  · rw [Ne, String.toList_eq_nil_iff, Nat.toString_eq_repr]
    exact Nat.repr_ne_empty
  · rw [Nat.toString_eq_repr, Nat.toList_repr, Nat.ofDigitChars_toDigits (by decide) (by decide)]

/-! ### Identifiers -/

/-- A text with a number behind its last hash names an issue. -/
lemma parseNative_of_hash {value number : List Char} {name : List Char}
    (h : Text.splitOnce '#' value.reverse = (number, some name)) (target : GitHubTarget) :
    parseNative (String.ofList value) = .ok target ↔
      ∃ named n, target = .issue named n none ∧
        repositoryRef (String.ofList name.reverse) = .ok named ∧
          parseNumber (String.ofList number.reverse) = .ok n := by
  rw [parseNative, String.toList_ofList, h]
  dsimp only
  cases hnamed : repositoryRef (String.ofList name.reverse) with
  | error e =>
    refine ⟨fun h => (by cases h), ?_⟩
    rintro ⟨_, _, -, h, -⟩
    cases h
  | ok named =>
    cases hnumber : parseNumber (String.ofList number.reverse) with
    | error e =>
      refine ⟨fun h => (by cases h), ?_⟩
      rintro ⟨_, _, -, -, h⟩
      cases h
    | ok n =>
      constructor
      · intro h
        exact ⟨named, n, (Except.ok.inj h).symm, rfl, rfl⟩
      · rintro ⟨named', n', rfl, hnamed', hn'⟩
        cases hnamed'
        cases hn'
        rfl

/-- Every text of the form of a native identifier is accepted, with or without a plus sign. -/
lemma parseNative_of_form {sign value : String} {target : GitHubTarget}
    (hsign : sign = "" ∨ sign = "+") (h : NativeForm sign target value) :
    parseNative value = .ok target := by
  have hread : ∀ {text : String} {number : ℕ}, NumberText sign text number →
      parseNumber text = .ok number := by
    intro text number hnumber
    rcases hsign with rfl | rfl
    · exact parseNumber_eq_ok_iff.mpr (.inl hnumber)
    · exact parseNumber_eq_ok_iff.mpr (.inr hnumber)
  -- the sign is no separator
  have hplain : '#' ∉ sign.toList ∧ '/' ∉ sign.toList := by
    rcases hsign with rfl | rfl <;> decide
  -- a text of parts without separators is taken apart at the slashes
  have hparts : ∀ parts : List String, parts ≠ [] →
      (∀ part ∈ parts, '#' ∉ part.toList ∧ '/' ∉ part.toList) →
        Text.splitOnce '#' (String.intercalate "/" parts).toList.reverse =
          ((String.intercalate "/" parts).toList.reverse, none) ∧
        Text.split '/' (String.intercalate "/" parts) = parts := by
    intro parts hne hpart
    refine ⟨Text.splitOnce_of_not_mem ?_, Text.split_intercalate hne fun part hmem => (hpart part hmem).2⟩
    rw [List.mem_reverse, String.toList_intercalate]
    intro hmem
    obtain ⟨part, hmem, hc⟩ | hc := Text.mem_of_mem_intercalate hmem
    · obtain ⟨text, htext, rfl⟩ := List.mem_map.mp hmem
      exact (hpart text htext).1 hc
    · exact absurd hc (by decide)
  have hsegment : ∀ {segment : String}, IsPlainSegment segment →
      '#' ∉ segment.toList ∧ '/' ∉ segment.toList := fun h =>
    ⟨not_mem_of_isPlainSegment h (by decide), not_mem_of_isPlainSegment h (by decide)⟩
  cases h with
  | @repository owner repo howner hrepo =>
    have hvalue : owner ++ "/" ++ repo = String.intercalate "/" [owner, repo] := rfl
    obtain ⟨hhash, hslash⟩ := hparts [owner, repo] (List.cons_ne_nil _ _) (by
      simpa using ⟨hsegment howner, hsegment hrepo⟩)
    rw [hvalue, parseNative, hhash]
    dsimp only
    rw [hslash]
    dsimp only
    rw [namedRepository_eq_ok_iff.mpr ⟨rfl, howner, hrepo⟩]
    rfl
  | @issue owner repo text number howner hrepo hnumber =>
    have hhash : "#".toList = ['#'] := rfl
    have hsplit : Text.splitOnce '#' (owner ++ "/" ++ repo ++ "#" ++ text).toList.reverse =
        (text.toList.reverse, some (owner ++ "/" ++ repo).toList.reverse) :=
      Text.splitOnce_eq_some_iff.mpr ⟨by simp [hhash], by
        rw [List.mem_reverse]
        exact hnumber.not_mem hplain.1 (by decide)⟩
    rw [← String.ofList_toList (s := owner ++ "/" ++ repo ++ "#" ++ text), parseNative_of_hash hsplit]
    refine ⟨⟨owner, repo⟩, number, rfl, ?_, ?_⟩
    · rw [List.reverse_reverse, String.ofList_toList]
      exact repositoryRef_eq_ok_iff.mpr ⟨rfl, howner, hrepo⟩
    · rw [List.reverse_reverse, String.ofList_toList]
      exact hread hnumber
  | @discussion owner repo text number howner hrepo hnumber =>
    have hvalue : owner ++ "/" ++ repo ++ "/discussions/" ++ text =
        String.intercalate "/" [owner, repo, "discussions", text] := by
      rw [← String.toList_inj]
      simp
    have htext : '#' ∉ text.toList ∧ '/' ∉ text.toList :=
      ⟨hnumber.not_mem hplain.1 (by decide), hnumber.not_mem hplain.2 (by decide)⟩
    obtain ⟨hhash, hslash⟩ := hparts [owner, repo, "discussions", text] (List.cons_ne_nil _ _) (by
      simpa using ⟨hsegment howner, hsegment hrepo, htext⟩)
    rw [hvalue, parseNative, hhash]
    dsimp only
    simp only [hslash, namedRepository_eq_ok_iff.mpr ⟨rfl, howner, hrepo⟩, hread hnumber]
    rfl

/-- **Accepted texts**: a text is accepted exactly when it has the form of a native identifier, with
or without a plus sign before the number.

**Proof sketch.** What stands around the last hash, or between the slashes when there is none, is
found again when it is put together, since plain segments and numbers hold neither. -/
theorem parseNative_eq_ok_iff {value : String} {target : GitHubTarget} :
    parseNative value = .ok target ↔ NativeForm "" target value ∨ NativeForm "+" target value := by
  have hhash : "#".toList = ['#'] := rfl
  constructor
  · intro h
    rcases hsplit : Text.splitOnce '#' value.toList.reverse with ⟨number, _ | name⟩
    · rw [parseNative, hsplit] at h
      have hparts := Text.intercalate_split '/' value
      dsimp only at h
      split at h
      · rename_i owner repo hsegments
        cases hnamed : namedRepository owner repo with
        | error e =>
          rw [hnamed] at h
          cases h
        | ok named =>
          rw [hnamed] at h
          cases Except.ok.inj h
          obtain ⟨rfl, howner, hrepo⟩ := namedRepository_eq_ok_iff.mp hnamed
          have hvalue : value = owner ++ "/" ++ repo := by
            rw [← hparts, hsegments]
            rfl
          rw [hvalue]
          exact .inl (.repository howner hrepo)
      · rename_i owner repo number hsegments
        cases hnamed : namedRepository owner repo with
        | error e =>
          rw [hnamed] at h
          cases h
        | ok named =>
          cases hnumber : parseNumber number with
          | error e =>
            rw [hnamed, hnumber] at h
            cases h
          | ok n =>
            rw [hnamed, hnumber] at h
            cases Except.ok.inj h
            obtain ⟨rfl, howner, hrepo⟩ := namedRepository_eq_ok_iff.mp hnamed
            have hvalue : value = owner ++ "/" ++ repo ++ "/discussions/" ++ number := by
              rw [← hparts, hsegments, ← String.toList_inj]
              simp
            rw [hvalue]
            rcases parseNumber_eq_ok_iff.mp hnumber with hnumber | hnumber
            · exact .inl (.discussion howner hrepo hnumber)
            · exact .inr (.discussion howner hrepo hnumber)
      · cases h
    · rw [← String.ofList_toList (s := value), parseNative_of_hash hsplit] at h
      obtain ⟨named, n, rfl, hnamed, hnumber⟩ := h
      obtain ⟨hname, howner, hrepo⟩ := repositoryRef_eq_ok_iff.mp hnamed
      have hvalue : value = named.owner ++ "/" ++ named.repo ++ "#" ++
          String.ofList number.reverse := by
        have hreverse := congrArg List.reverse (Text.splitOnce_eq_some_iff.mp hsplit).1
        rw [List.reverse_reverse] at hreverse
        rw [← hname, ← String.toList_inj, hreverse]
        simp [hhash]
      rw [hvalue]
      rcases parseNumber_eq_ok_iff.mp hnumber with hnumber | hnumber
      · exact .inl (.issue howner hrepo hnumber)
      · exact .inr (.issue howner hrepo hnumber)
  · rintro (h | h)
    · exact parseNative_of_form (.inl rfl) h
    · exact parseNative_of_form (.inr rfl) h

/-! ### Rendering -/

/-- The native identifier of an accepted target has the form of one. -/
lemma NativeForm.nativeText {sign value : String} {target : GitHubTarget}
    (h : NativeForm sign target value) : NativeForm "" target target.nativeText := by
  have hnumber : ∀ {text : String} {number : ℕ}, NumberText sign text number →
      NumberText "" (toString number) number := by
    rintro text number ⟨digits, -, -, -, -, hpos, hlt⟩
    exact numberText_toString hpos hlt
  cases h with
  | repository howner hrepo => exact .repository howner hrepo
  | issue howner hrepo h => exact .issue howner hrepo (hnumber h)
  | discussion howner hrepo h => exact .discussion howner hrepo (hnumber h)

/-- Where the REST interface is asked for a target. Discussions are asked for elsewhere. -/
def restUrl : GitHubTarget → Option String
  | .repository named => some (GitHubSource.repositoryUrl named)
  | .issue named number _ => some (GitHubSource.issueUrl named number)
  | .discussion _ _ => none

/-- The path of a target. -/
def restPath : GitHubTarget → List String
  | .repository named => ["repos", named.owner, named.repo]
  | .issue named number _ => ["repos", named.owner, named.repo, "issues", toString number]
  | .discussion _ _ => []

end GitHubTarget

/-- An address of the REST interface has a path, without a query and a fragment, whose segments stand
for the given texts, none of them for the same or the parent directory. -/
def AddressesPath (address : String) (segments : List String) : Prop :=
  ∃ path : String, address = "https://api.github.com/" ++ path ∧ '?' ∉ path.toList ∧
    '#' ∉ path.toList ∧ (Text.split '/' path).map (fun segment => percentDecode segment.toList) =
      segments.map (fun segment => segment.toUTF8.data.toList) ∧
        ∀ segment ∈ segments, segment ≠ "." ∧ segment ≠ ".."

/-- A segment of a path stands for a text, which is not the name of a directory relative to the
path. -/
structure EncodedSegment (segment text : String) : Prop where
  chars : ∀ c ∈ segment.toList, c.isAlphanum = true ∨ c = '%'
  decoded : percentDecode segment.toList = text.toUTF8.data.toList
  name : text ≠ "." ∧ text ≠ ".."

/-- An encoded plain text is a segment for the text. -/
lemma encodedSegment_percentEncode {value : String} (h : IsPlainSegment value) :
    EncodedSegment (percentEncode value) value :=
  ⟨fun _ => of_mem_percentEncode, percentDecode_percentEncode value, h.2.1, h.2.2.1⟩

/-- A text of letters and digits is a segment for itself. -/
lemma encodedSegment_of_alphanum {value : String} (h : ∀ c ∈ value.toList, c.isAlphanum = true) :
    EncodedSegment value value := by
  have hdot : ∀ name : String, '.' ∈ name.toList → value ≠ name := fun name hmem heq =>
    absurd (h '.' (heq ▸ hmem)) (by decide)
  refine ⟨fun c hc => .inl (h c hc), ?_, hdot "." (by decide), hdot ".." (by decide)⟩
  rw [percentDecode_of_not_mem fun hmem => absurd (h _ hmem) (by decide)]
  change _ = value.toByteArray.data.toList
  rw [← String.utf8Encode_toList, List.utf8Encode, List.toList_data_toByteArray]

/-- An address whose segments are encoded addresses their path. -/
lemma addressesPath_of_segments {address : String} {segments : List (String × String)}
    (hne : segments ≠ [])
    (haddress : address = "https://api.github.com/" ++ String.intercalate "/" (segments.map Prod.fst))
    (hencoded : ∀ segment ∈ segments, EncodedSegment segment.1 segment.2) :
    AddressesPath address (segments.map Prod.snd) := by
  have hnot : ∀ c : Char, c.isAlphanum = false → c ≠ '%' → c ≠ '/' →
      c ∉ (String.intercalate "/" (segments.map Prod.fst)).toList := by
    intro c halphanum hpercent hslash hmem
    rw [String.toList_intercalate] at hmem
    obtain ⟨part, hpart, hc⟩ | hc := Text.mem_of_mem_intercalate hmem
    · obtain ⟨text, htext, rfl⟩ := List.mem_map.mp hpart
      obtain ⟨segment, hsegment, rfl⟩ := List.mem_map.mp htext
      rcases (hencoded segment hsegment).chars c hc with h | h
      · exact absurd h (by simp [halphanum])
      · exact hpercent h
    · exact hslash (List.mem_singleton.mp hc)
  have hsplit : Text.split '/' (String.intercalate "/" (segments.map Prod.fst)) =
      segments.map Prod.fst := by
    refine Text.split_intercalate (by simpa using hne) fun part hpart hmem => ?_
    obtain ⟨segment, hsegment, rfl⟩ := List.mem_map.mp hpart
    exact absurd ((hencoded segment hsegment).chars _ hmem) (by decide)
  refine ⟨_, haddress, hnot '?' (by decide) (by decide) (by decide),
    hnot '#' (by decide) (by decide) (by decide), ?_,
    List.forall_mem_map.mpr fun segment hsegment => (hencoded segment hsegment).name⟩
  rw [hsplit, List.map_map, List.map_map]
  exact List.map_congr_left fun segment hsegment => (hencoded segment hsegment).decoded

/-- An address of three segments, the first of them written together with the host. -/
lemma intercalate_path {start host first slash owner repo : String}
    (hstart : start = host ++ (first ++ slash)) :
    start ++ owner ++ slash ++ repo = host ++ String.intercalate slash [first, owner, repo] := by
  simp only [hstart, String.intercalate_cons_cons, String.intercalate_singleton, String.append_assoc]

/-- An address of five segments, the fourth of them written together with its slashes. -/
lemma intercalate_longer_path {start host first slash owner repo middle kind number : String}
    (hstart : start = host ++ (first ++ slash)) (hmiddle : middle = slash ++ (kind ++ slash)) :
    start ++ owner ++ slash ++ repo ++ middle ++ number =
      host ++ String.intercalate slash [first, owner, repo, kind, number] := by
  simp only [hstart, hmiddle, String.intercalate_cons_cons, String.intercalate_singleton,
    String.append_assoc]

/-- **The path of a target**: its request goes where its name says.

**Proof sketch.** The segments of a name are encoded one by one, so no character of a name ends a
segment or the path, and plain segments do not stand for a directory. -/
theorem addressesPath_of_nativeForm {sign value : String} {target : GitHubTarget}
    (h : target.NativeForm sign value) {address : String} (haddress : address ∈ target.restUrl) :
    AddressesPath address target.restPath := by
  have hnil : ∀ segment ∈ ([] : List (String × String)), EncodedSegment segment.1 segment.2 :=
    fun _ h => (List.not_mem_nil h).elim
  have hrepos : EncodedSegment "repos" "repos" :=
    encodedSegment_of_alphanum (List.all_eq_true.mp rfl)
  have hissues : EncodedSegment "issues" "issues" :=
    encodedSegment_of_alphanum (List.all_eq_true.mp rfl)
  have hdigits : ∀ n : ℕ, EncodedSegment (toString n) (toString n) := fun n =>
    encodedSegment_of_alphanum fun c hc => by
      simp [Char.isAlphanum, Text.isDigit_of_mem_nat_toString hc]
  cases h with
  | @repository owner repo howner hrepo =>
    obtain rfl : GitHubSource.repositoryUrl ⟨owner, repo⟩ = address := Option.some.inj haddress
    have hencoded : ∀ segment ∈ [("repos", "repos"), (percentEncode owner, owner),
        (percentEncode repo, repo)], EncodedSegment segment.1 segment.2 :=
      List.forall_mem_cons.mpr ⟨hrepos, List.forall_mem_cons.mpr
        ⟨encodedSegment_percentEncode howner, List.forall_mem_cons.mpr
          ⟨encodedSegment_percentEncode hrepo, hnil⟩⟩⟩
    have haddress : GitHubSource.repositoryUrl ⟨owner, repo⟩ = "https://api.github.com/" ++
        String.intercalate "/" ["repos", percentEncode owner, percentEncode repo] :=
      intercalate_path rfl
    exact addressesPath_of_segments (List.cons_ne_nil _ _) haddress hencoded
  | @issue owner repo text number howner hrepo hnumber =>
    obtain rfl : GitHubSource.issueUrl ⟨owner, repo⟩ number = address := Option.some.inj haddress
    have hencoded : ∀ segment ∈ [("repos", "repos"), (percentEncode owner, owner),
        (percentEncode repo, repo), ("issues", "issues"), (toString number, toString number)],
        EncodedSegment segment.1 segment.2 :=
      List.forall_mem_cons.mpr ⟨hrepos, List.forall_mem_cons.mpr
        ⟨encodedSegment_percentEncode howner, List.forall_mem_cons.mpr
          ⟨encodedSegment_percentEncode hrepo, List.forall_mem_cons.mpr
            ⟨hissues, List.forall_mem_cons.mpr ⟨hdigits number, hnil⟩⟩⟩⟩⟩
    have haddress : GitHubSource.issueUrl ⟨owner, repo⟩ number = "https://api.github.com/" ++
        String.intercalate "/" ["repos", percentEncode owner, percentEncode repo, "issues",
          toString number] :=
      intercalate_longer_path rfl rfl
    exact addressesPath_of_segments (List.cons_ne_nil _ _) haddress hencoded
  | discussion howner hrepo hnumber => cases haddress

open GitHubTarget in
/-- A text is accepted exactly as the grammar of native identifiers says; an accepted target is read
back from its native identifier; and its request has exactly the path of the target. -/
structure NativeTargetExact (value : String) : Prop where
  accepted : ∀ target, parseNative value = .ok target ↔ NativeForm "" target value
  rendered : ∀ target, parseNative value = .ok target → parseNative target.nativeText = .ok target
  addressed : ∀ target, parseNative value = .ok target →
    ∀ address ∈ target.restUrl, AddressesPath address target.restPath

open GitHubTarget in
/-- **When a text is accepted as the grammar says**: unless it is a native identifier whose number is
written with a plus sign.

**Proof sketch.** A text is accepted when it has the form of a native identifier, with or without a
plus sign (`GitHubTarget.parseNative_eq_ok_iff`), and no form without a plus sign holds one. -/
theorem native_target_exact_iff (value : String) :
    NativeTargetExact value ↔
      ¬∃ target : GitHubTarget, target.number?.isSome ∧ NativeForm "+" target value := by
  have hplus : ∀ {segment : String}, IsPlainSegment segment → '+' ∉ segment.toList := fun h =>
    not_mem_of_isPlainSegment h (by decide)
  have hform : ∀ target, parseNative value = .ok target → ∃ sign, NativeForm sign target value := by
    intro target h
    rcases parseNative_eq_ok_iff.mp h with h | h
    · exact ⟨_, h⟩
    · exact ⟨_, h⟩
  constructor
  · rintro h ⟨target, hnumber, hsigned⟩
    have hunsigned := (h.accepted target).mp (parseNative_eq_ok_iff.mpr (.inr hsigned))
    have hmem : '+' ∈ value.toList := by
      cases hsigned with
      | repository => cases hnumber
      | issue _ _ htext | discussion _ _ htext =>
        obtain ⟨digits, hdigits, -⟩ := htext
        have hsign : "+".toList = ['+'] := rfl
        simp [hdigits, hsign]
    have hnot : '+' ∉ value.toList := by
      cases hunsigned with
      | repository => cases hnumber
      | issue howner hrepo hunsigned | discussion howner hrepo hunsigned =>
        have htext := hunsigned.not_mem (c := '+') List.not_mem_nil (by decide)
        simp [hplus howner, hplus hrepo, htext]
    exact hnot hmem
  · intro h
    refine ⟨fun target => ⟨fun hparse => ?_, fun hunsigned => ?_⟩, fun target hparse => ?_,
      fun target hparse address haddress => ?_⟩
    · rcases parseNative_eq_ok_iff.mp hparse with hunsigned | hsigned
      · exact hunsigned
      · cases htarget : target.number? with
        | some number => exact absurd ⟨target, by simp [htarget], hsigned⟩ h
        | none =>
          cases hsigned with
          | repository howner hrepo => exact .repository howner hrepo
          | issue => cases htarget
          | discussion => cases htarget
    · exact parseNative_eq_ok_iff.mpr (.inl hunsigned)
    · obtain ⟨sign, htarget⟩ := hform target hparse
      exact parseNative_eq_ok_iff.mpr (.inl htarget.nativeText)
    · obtain ⟨sign, htarget⟩ := hform target hparse
      exact addressesPath_of_nativeForm htarget haddress

/-- A number with a plus sign is accepted, which the grammar does not allow. -/
theorem native_target_plus : ¬∀ value, NativeTargetExact value := by
  intro hclaim
  have hform := ((hclaim "owner/repo#+1").accepted (.issue ⟨"owner", "repo"⟩ 1 none)).mp (by decide)
  have hmem : '+' ∈ "owner/repo#+1".toList := by decide
  generalize "owner/repo#+1" = value at hform hmem
  cases hform with
  | @issue _ _ text _ howner hrepo hnumber =>
    have htext := hnumber.not_mem (c := '+') List.not_mem_nil (by decide)
    simp [htext] at hmem

end Comsat
