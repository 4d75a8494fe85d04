import Mathlib

set_option relaxedAutoImplicit false
set_option autoImplicit false

/-!
# Texts and numerals

The size of a text in UTF-8 bytes, its parts, and the decimal and hexadecimal texts of numbers.

## Main definitions

* `Text.IsAscii` — a text of ASCII characters, whose bytes are its characters.
* `Text.split`, `Text.splitOnce`, `Text.stripPrefix`, `Text.contains` — the parts of a text.
* `Text.hex`, `Text.paddedHex` — lowercase hexadecimal numerals.
* `Text.lastBoundary`, `Text.takeBytes` — where a text may be cut, and what is left of it.

## Main results

* `Text.utf8ByteSize_eq_sum` — the bytes of a text are those of its characters.
* `Text.int_toString_injective` — a decimal numeral determines its integer.
* `Text.takeBytes_lastBoundary` — cutting a text leaves as much of it as fits.
-/

namespace Text

/-! ## Bytes -/

/-- The bytes of a text are those of its characters. -/
lemma utf8ByteSize_eq_sum (value : String) :
    value.utf8ByteSize = (value.toList.map Char.utf8Size).sum := by
  rw [← String.ofList_toList (s := value), String.utf8ByteSize_ofList, String.toList_ofList]
  induction value.toList with
  | nil => rfl
  | cons c cs ih => rw [String.utf8Len_cons, ih, List.map_cons, List.sum_cons, Nat.add_comm]

/-- A text of ASCII characters. -/
def IsAscii (value : String) : Prop := ∀ c ∈ value.toList, c.toNat ≤ 127

/-- A text of ASCII characters has as many bytes as characters. -/
lemma IsAscii.utf8ByteSize {value : String} (h : IsAscii value) :
    value.utf8ByteSize = value.length := by
  rw [IsAscii] at h
  rw [utf8ByteSize_eq_sum, ← String.length_toList]
  generalize value.toList = chars at h
  induction chars with
  | nil => rfl
  | cons c cs ih =>
    have hone : c.utf8Size = 1 := Char.utf8Size_eq_one_iff.mpr (h c (List.mem_cons_self ..))
    rw [List.map_cons, List.sum_cons, hone, ih fun c hc => h c (List.mem_cons_of_mem _ hc),
      List.length_cons, Nat.add_comm]

/-- No character has more than four bytes. -/
lemma utf8ByteSize_le (value : String) : value.utf8ByteSize ≤ 4 * value.length := by
  rw [utf8ByteSize_eq_sum, ← String.length_toList]
  induction value.toList with
  | nil => simp
  | cons c cs ih =>
    have hfour := Char.utf8Size_le_four c
    simp only [List.map_cons, List.sum_cons, List.length_cons]
    omega

/-- The bytes of joined texts: those of the texts and of the separators between them. -/
lemma utf8ByteSize_intercalate (separator : String) (parts : List String) :
    (String.intercalate separator parts).utf8ByteSize =
      (parts.map String.utf8ByteSize).sum + (parts.length - 1) * separator.utf8ByteSize := by
  induction parts with
  | nil => simp
  | cons part parts ih =>
    cases parts with
    | nil => simp
    | cons next parts =>
      rw [String.intercalate_cons_cons, String.utf8ByteSize_append, String.utf8ByteSize_append, ih]
      simp only [List.map_cons, List.sum_cons, List.length_cons, Nat.add_sub_cancel, Nat.add_mul,
        Nat.one_mul]
      omega

/-! ## Parts -/

/-- What stands before the first separator, and what stands after it if there is one. -/
def splitOnce (separator : Char) : List Char → List Char × Option (List Char)
  | [] => ([], none)
  | c :: cs =>
    if c = separator then ([], some cs)
    else (c :: (splitOnce separator cs).1, (splitOnce separator cs).2)

/-- Without a separator everything stands before it. -/
lemma splitOnce_of_not_mem {separator : Char} {value : List Char} (h : separator ∉ value) :
    splitOnce separator value = (value, none) := by
  induction value with
  | nil => rfl
  | cons c cs ih =>
    rw [List.mem_cons, not_or] at h
    rw [splitOnce, if_neg (Ne.symm h.1), ih h.2]

/-- A text is split at its first separator. -/
lemma splitOnce_append {separator : Char} {first rest : List Char} (h : separator ∉ first) :
    splitOnce separator (first ++ separator :: rest) = (first, some rest) := by
  induction first with
  | nil => simp [splitOnce]
  | cons c cs ih =>
    rw [List.mem_cons, not_or] at h
    rw [List.cons_append, splitOnce, if_neg (Ne.symm h.1), ih h.2]

/-- What does not hold the separator stays in front of it. -/
lemma splitOnce_append_of_not_mem {separator : Char} {first : List Char} (h : separator ∉ first)
    (rest : List Char) :
    splitOnce separator (first ++ rest) =
      (first ++ (splitOnce separator rest).1, (splitOnce separator rest).2) := by
  induction first with
  | nil => rfl
  | cons c cs ih =>
    rw [List.mem_cons, not_or] at h
    rw [List.cons_append, splitOnce, if_neg (Ne.symm h.1), ih h.2, List.cons_append]

/-- A text is put together again from what stands before the first separator and behind it. -/
lemma exists_eq_splitOnce_append (separator : Char) (value : List Char) :
    ∃ rest, value = (splitOnce separator value).1 ++ rest ∧
      (rest = [] ∨ rest.head? = some separator) := by
  induction value with
  | nil => exact ⟨[], rfl, .inl rfl⟩
  | cons c cs ih =>
    rw [splitOnce]
    split
    · rename_i hc
      exact ⟨c :: cs, rfl, .inr (hc ▸ rfl)⟩
    · obtain ⟨rest, hrest, hhead⟩ := ih
      exact ⟨rest, congrArg (c :: ·) hrest, hhead⟩

/-- What stands before the first separator holds none. -/
lemma not_mem_splitOnce (separator : Char) (value : List Char) :
    separator ∉ (splitOnce separator value).1 := by
  induction value with
  | nil => simp [splitOnce]
  | cons c cs ih =>
    rw [splitOnce]
    split
    · simp
    · rename_i hc
      exact List.not_mem_cons_of_ne_of_not_mem (Ne.symm hc) ih

/-- A text is split exactly where its first separator stands. -/
lemma splitOnce_eq_some_iff {separator : Char} {value first rest : List Char} :
    splitOnce separator value = (first, some rest) ↔
      value = first ++ separator :: rest ∧ separator ∉ first := by
  refine ⟨fun h => ?_, fun ⟨hvalue, hfirst⟩ => hvalue ▸ splitOnce_append hfirst⟩
  induction value generalizing first with
  | nil => simp [splitOnce] at h
  | cons c cs ih =>
    rw [splitOnce] at h
    split at h
    · rename_i hc
      cases h
      simp [hc]
    · rename_i hc
      obtain ⟨tail, hsplit⟩ : ∃ tail, splitOnce separator cs = (tail, some rest) :=
        ⟨_, Prod.ext rfl (Prod.mk.inj h).2⟩
      rw [hsplit] at h
      obtain ⟨rfl, -⟩ := Prod.mk.inj h
      obtain ⟨rfl, htail⟩ := ih hsplit
      exact ⟨rfl, List.not_mem_cons_of_ne_of_not_mem (Ne.symm hc) htail⟩

/-- The parts of a text, separated by a character. -/
def split (separator : Char) (value : String) : List String :=
  (value.toList.splitOn separator).map String.ofList

/-- The parts of a list hold no separator, and only what stands in the list. -/
lemma of_mem_splitOn {separator : Char} {value part : List Char}
    (h : part ∈ value.splitOn separator) : separator ∉ part ∧ ∀ c ∈ part, c ∈ value := by
  induction value generalizing part with
  | nil =>
    rw [List.splitOn_nil, List.mem_singleton] at h
    simp [h]
  | cons c cs ih =>
    rw [List.splitOn_cons_eq_if_modifyHead] at h
    split at h
    · rcases List.mem_cons.mp h with rfl | h
      · simp
      · exact ⟨(ih h).1, fun d hd => List.mem_cons_of_mem _ ((ih h).2 d hd)⟩
    · rename_i hc
      cases hparts : cs.splitOn separator with
      | nil => exact absurd hparts (List.splitOn_ne_nil _ _)
      | cons first rest =>
        rw [hparts, List.modifyHead_cons] at h
        rcases List.mem_cons.mp h with rfl | h
        · have hfirst : first ∈ cs.splitOn separator := by simp [hparts]
          obtain ⟨hnot, hmem⟩ := ih hfirst
          refine ⟨fun hd => ?_, fun d hd => ?_⟩
          · rcases List.mem_cons.mp hd with heq | hd
            · exact hc (by simp [heq])
            · exact hnot hd
          · rcases List.mem_cons.mp hd with rfl | hd
            · exact List.mem_cons_self ..
            · exact List.mem_cons_of_mem _ (hmem d hd)
        · have hpart : part ∈ cs.splitOn separator := by simp [hparts, h]
          obtain ⟨hnot, hmem⟩ := ih hpart
          exact ⟨hnot, fun d hd => List.mem_cons_of_mem _ (hmem d hd)⟩

/-- A text is put together again from its parts. -/
lemma intercalate_split (separator : Char) (value : String) :
    String.intercalate separator.toString (split separator value) = value := by
  have hid : String.toList ∘ String.ofList = id := by
    funext chars
    simp
  rw [← String.toList_inj, String.toList_intercalate, Char.toString_eq_singleton,
    String.toList_singleton, split, List.map_map, hid, List.map_id, List.intercalate_splitOn]

/-- Texts without the separator are found again between the separators. -/
lemma split_intercalate {separator : Char} {parts : List String} (hne : parts ≠ [])
    (h : ∀ part ∈ parts, separator ∉ part.toList) :
    split separator (String.intercalate separator.toString parts) = parts := by
  have hparts : ∀ part ∈ parts.map String.toList, separator ∉ part := by
    intro part hpart
    obtain ⟨text, htext, rfl⟩ := List.mem_map.mp hpart
    exact h text htext
  rw [split, String.toList_intercalate, Char.toString_eq_singleton, String.toList_singleton,
    List.splitOn_intercalate _ hparts (by simpa using hne), List.map_map]
  have hid : String.ofList ∘ String.toList = id := by
    funext text
    simp
  rw [hid, List.map_id]

/-- What stands in a joined list stands in one of the parts or in the separator. -/
lemma mem_of_mem_intercalate {α : Type} {separator : List α} {parts : List (List α)} {a : α}
    (h : a ∈ separator.intercalate parts) : (∃ part ∈ parts, a ∈ part) ∨ a ∈ separator := by
  induction parts with
  | nil => simp [List.intercalate] at h
  | cons part parts ih =>
    cases parts with
    | nil =>
      rw [List.intercalate_singleton] at h
      exact .inl ⟨part, List.mem_cons_self .., h⟩
    | cons next rest =>
      rw [List.intercalate_cons_cons, List.mem_append, List.mem_append] at h
      rcases h with (h | h) | h
      · exact .inl ⟨part, List.mem_cons_self .., h⟩
      · exact .inr h
      · obtain ⟨found, hfound, ha⟩ | ha := ih h
        · exact .inl ⟨found, List.mem_cons_of_mem _ hfound, ha⟩
        · exact .inr ha

/-- What follows a prefix. -/
def stripPrefix (first value : String) : Option String :=
  if first.toList.isPrefixOf value.toList then
    some (String.ofList (value.toList.drop first.toList.length))
  else none

/-- What follows a prefix that stands there. -/
lemma stripPrefix_append (first rest : String) : stripPrefix first (first ++ rest) = some rest := by
  have hstart : first.toList.isPrefixOf (first ++ rest).toList = true := by
    rw [String.toList_append]
    exact List.isPrefixOf_iff_prefix.mpr (List.prefix_append _ _)
  rw [stripPrefix, if_pos hstart, String.toList_append, List.drop_left, String.ofList_toList]

/-- What follows a prefix, if it stands there. -/
lemma stripPrefix_eq_some_iff {first value rest : String} :
    stripPrefix first value = some rest ↔ value = first ++ rest := by
  constructor
  · intro h
    rw [stripPrefix] at h
    split at h
    · next hstart =>
      obtain ⟨chars, hchars⟩ := List.isPrefixOf_iff_prefix.mp hstart
      rw [← hchars, List.drop_left, Option.some.injEq] at h
      rw [← String.toList_inj, String.toList_append, ← h, String.toList_ofList, hchars]
    · cases h
  · rintro rfl
    exact stripPrefix_append first rest

/-- Whether a text stands within another. -/
def contains (part value : String) : Bool := decide (part.toList <:+: value.toList)

/-! ## Numerals -/

/-- The characters of a decimal numeral are digits. -/
lemma isDigit_of_mem_nat_toString {n : ℕ} {c : Char} (h : c ∈ (toString n).toList) :
    c.isDigit = true := by
  rw [Nat.toString_eq_repr, Nat.toList_repr] at h
  exact Nat.isDigit_of_mem_toDigits (by decide) (by decide) h

/-- The characters of a decimal numeral are digits and a sign. -/
lemma mem_int_toString {n : ℤ} {c : Char} (h : c ∈ (toString n).toList) :
    c = '-' ∨ c.isDigit = true := by
  rw [Int.toString_eq_repr, Int.repr_eq_if] at h
  split at h
  · exact .inr (isDigit_of_mem_nat_toString (by rwa [Nat.toString_eq_repr]))
  · rw [String.toList_append, List.mem_append] at h
    obtain h | h := h
    · exact .inl (by simpa using h)
    · exact .inr (isDigit_of_mem_nat_toString (by rwa [Nat.toString_eq_repr]))

/-- A decimal numeral determines its number. -/
lemma nat_repr_injective {m n : ℕ} (h : m.repr = n.repr) : m = n := by
  have hdigits := congrArg String.toList h
  rw [Nat.toList_repr, Nat.toList_repr] at hdigits
  rw [← Nat.ofDigitChars_toDigits (b := 10) (n := m) (by decide) (by decide), hdigits,
    Nat.ofDigitChars_toDigits (by decide) (by decide)]

/-- A decimal numeral does not begin with a sign. -/
lemma nat_repr_ne_neg (m n : ℕ) : m.repr ≠ "-" ++ n.repr := by
  intro h
  have hmem : '-' ∈ m.repr.toList := by simp [h]
  rw [← Nat.toString_eq_repr] at hmem
  exact absurd (isDigit_of_mem_nat_toString hmem) (by decide)

/-- **Numerals.** A decimal numeral determines its integer. -/
theorem int_toString_injective {m n : ℤ} (h : toString m = toString n) : m = n := by
  rw [Int.toString_eq_repr, Int.toString_eq_repr, Int.repr_eq_if, Int.repr_eq_if] at h
  split at h <;> split at h
  · have := nat_repr_injective h
    omega
  · exact absurd h (nat_repr_ne_neg _ _)
  · exact absurd h.symm (nat_repr_ne_neg _ _)
  · have := nat_repr_injective (String.append_right_inj _ |>.mp h)
    omega

/-- The hexadecimal numeral of a number. -/
def hex (n : ℕ) : String := String.ofList (Nat.toDigits 16 n)

/-- The hexadecimal numeral of a number with leading zeros up to a width. -/
def paddedHex (width n : ℕ) : String := String.ofList ((Nat.toDigits 16 n).leftpad width '0')

/-- The characters of a hexadecimal numeral. -/
def isHexDigit (c : Char) : Bool :=
  (0x30 ≤ c.toNat && c.toNat ≤ 0x39) || (0x61 ≤ c.toNat && c.toNat ≤ 0x66)

/-- The digits of a hexadecimal numeral. -/
lemma isHexDigit_of_mem_toDigits {n : ℕ} {c : Char} (h : c ∈ Nat.toDigits 16 n) :
    isHexDigit c = true := by
  have hdigit : ∀ d < 16, isHexDigit d.digitChar = true := by decide
  induction n using Nat.strongRecOn with
  | ind n ih =>
    rw [Nat.toDigits_eq_if (by decide)] at h
    split at h
    · rename_i hlt
      rw [List.mem_singleton.mp h]
      exact hdigit n hlt
    · obtain h | h := List.mem_append.mp h
      · exact ih (n / 16) (by omega) h
      · rw [List.mem_singleton.mp h]
        exact hdigit (n % 16) (by omega)

/-- A number of a given size needs no more digits than the width, and gets as many. -/
lemma length_paddedHex {width n : ℕ} (hwidth : 0 < width) (h : n < 16 ^ width) :
    (paddedHex width n).length = width := by
  have hle := (Nat.length_toDigits_le_iff (by decide) hwidth).mpr h
  rw [paddedHex, String.length_ofList, List.length_leftpad]
  omega

/-! ## Cutting -/

/-- How many bytes some characters have. -/
def bytes (chars : List Char) : ℕ := (chars.map Char.utf8Size).sum

/-- The offsets at which a character begins, or the text ends. -/
def boundaries : List Char → List ℕ
  | [] => [0]
  | c :: chars => 0 :: (boundaries chars).map (c.utf8Size + ·)

/-- The characters in front of an offset. -/
def takeBytes (offset : ℕ) : List Char → List Char
  | [] => []
  | c :: chars => if c.utf8Size ≤ offset then c :: takeBytes (offset - c.utf8Size) chars else []

/-- The last offset up to some other one at which a character begins or the text ends. -/
def lastBoundary (chars : List Char) : ℕ → ℕ
  | 0 => 0
  | offset + 1 =>
    if offset + 1 ∈ boundaries chars then offset + 1 else lastBoundary chars offset

/-- The offsets are the sizes of the beginnings. -/
lemma mem_boundaries {chars : List Char} {offset : ℕ} :
    offset ∈ boundaries chars ↔ ∃ first, first <+: chars ∧ bytes first = offset := by
  induction chars generalizing offset with
  | nil => simp [boundaries, bytes, eq_comm]
  | cons c chars ih =>
    rw [boundaries, List.mem_cons, List.mem_map]
    constructor
    · rintro (rfl | ⟨rest, hrest, rfl⟩)
      · exact ⟨[], List.nil_prefix, rfl⟩
      · obtain ⟨first, hfirst, rfl⟩ := ih.mp hrest
        exact ⟨c :: first, (List.prefix_cons_inj c).mpr hfirst, by simp [bytes]⟩
    · rintro ⟨first, hfirst, rfl⟩
      cases first with
      | nil => exact .inl rfl
      | cons d first =>
        obtain ⟨rfl, hrest⟩ := List.cons_prefix_cons.mp hfirst
        exact .inr ⟨bytes first, ih.mpr ⟨first, hrest, rfl⟩, by simp [bytes]⟩

/-- The characters in front of the end of a beginning are the beginning. -/
lemma takeBytes_bytes {first chars : List Char} (h : first <+: chars) :
    takeBytes (bytes first) chars = first := by
  induction first generalizing chars with
  | nil =>
    cases chars with
    | nil => rfl
    | cons c chars =>
      have hpos := c.utf8Size_pos
      exact if_neg (by simp only [bytes, List.map_nil, List.sum_nil]; omega)
  | cons c first ih =>
    obtain ⟨rest, rfl⟩ := h
    have hsum : bytes (c :: first) = c.utf8Size + bytes first := by simp [bytes]
    rw [List.cons_append, takeBytes, hsum, if_pos (Nat.le_add_right _ _), Nat.add_sub_cancel_left,
      ih (List.prefix_append _ _)]

/-- The last boundary up to an offset is one, and no other is between them. -/
lemma lastBoundary_spec (chars : List Char) (offset : ℕ) :
    lastBoundary chars offset ∈ boundaries chars ∧ lastBoundary chars offset ≤ offset ∧
      ∀ other ∈ boundaries chars, other ≤ offset → other ≤ lastBoundary chars offset := by
  induction offset with
  | zero => exact ⟨by cases chars <;> simp [lastBoundary, boundaries], le_refl _, fun _ _ h => h⟩
  | succ offset ih =>
    rw [lastBoundary]
    split
    · next hmem => exact ⟨hmem, le_refl _, fun _ _ h => h⟩
    · next hmem =>
      obtain ⟨hboundary, hle, hlast⟩ := ih
      refine ⟨hboundary, by omega, fun other hother hbound => hlast other hother ?_⟩
      have hne : other ≠ offset + 1 := fun h => hmem (h ▸ hother)
      omega

/-- **Cutting a text** at the last boundary up to an offset leaves the longest beginning that has no
more bytes. -/
theorem takeBytes_lastBoundary (chars : List Char) (offset : ℕ) :
    takeBytes (lastBoundary chars offset) chars <+: chars ∧
      bytes (takeBytes (lastBoundary chars offset) chars) ≤ offset ∧
        ∀ first, first <+: chars → bytes first ≤ offset →
          first <+: takeBytes (lastBoundary chars offset) chars := by
  obtain ⟨hboundary, hle, hlast⟩ := lastBoundary_spec chars offset
  obtain ⟨cut, hcut, hbytes⟩ := mem_boundaries.mp hboundary
  rw [← hbytes, takeBytes_bytes hcut]
  refine ⟨hcut, hbytes ▸ hle, fun first hfirst hbound => ?_⟩
  have hshort := hlast _ (mem_boundaries.mpr ⟨first, hfirst, rfl⟩) hbound
  rcases List.prefix_or_prefix_of_prefix hfirst hcut with h | ⟨rest, hrest⟩
  · exact h
  · -- the cut is no longer, so nothing is missing from it
    have hsum : bytes first = bytes cut + bytes rest := by simp [← hrest, bytes]
    cases rest with
    | nil => exact ⟨[], by simpa using hrest.symm⟩
    | cons c rest =>
      have hpos := c.utf8Size_pos
      have hrestsum : bytes (c :: rest) = c.utf8Size + bytes rest := by simp [bytes]
      omega

end Text
