import Comsat.Lib.Slices
import Comsat.Plugins.Web
import Mathlib

set_option relaxedAutoImplicit false
set_option autoImplicit false

/-!
# Titles of pages

The title of a page is found by byte offsets within a lowercase copy of it, and named references in
it are decoded one name after the other.

## Main definitions

* `Web.slicedHtmlTitle` — the title with its offsets, and the panics of its slices.
* `Web.escape` — a text with references for the characters that markup reserves.

## Main results

* `Web.slicedHtmlTitle_eq` — no slice panics, and the title is the one without offsets.
* `Web.decodeEntities_escape` — what is escaped is decoded once.
* `html_title_decoded_once` — the title of a page is the text that was escaped.

## Design

* A text is cut into blocks, each a reference or free of ampersands; a replacement of references
  changes whole blocks only.
-/

namespace Comsat

namespace Web

open String (utf8Len)
open Text (find slice sliceFrom)

/-! ## Offsets -/

/-- The title of a page, found by byte offsets in a lowercase copy of the page; `none` when a slice
panics. -/
def slicedHtmlTitle (body : String) : Option (Option String) :=
  let lowered := body.toList.map Char.toLower
  match find "<title".toList lowered with
  | none => some none
  | some opening =>
    (sliceFrom opening lowered).bind fun tag =>
      match find ">".toList tag with
      | none => some none
      | some offset =>
        let start := opening + offset + 1
        (sliceFrom start lowered).bind fun content =>
          match find "</title>".toList content with
          | none => some none
          | some length =>
            match slice start (start + length) body.toList with
            | none => some none
            | some title =>
              let title := decodeEntities (trim title)
              some (if title = [] then none else some (String.ofList title))

/-- A lowercase letter takes as many bytes as the letter. -/
lemma utf8Size_toLower (c : Char) : c.toLower.utf8Size = c.utf8Size := by
  by_cases h : c.isUpper = true
  · simp only [Char.isUpper, decide_eq_true_eq, ge_iff_le, UInt32.le_iff_toNat_le] at h
    have hlow : 65 ≤ c.toNat := h.1
    have hhigh : c.toNat ≤ 90 := h.2
    rw [← Char.ofNat_toNat c]
    generalize c.toNat = n at hlow hhigh
    interval_cases n <;> rfl
  · rw [Char.toLower_eq_of_not_isUpper h]

/-- A lowercase copy takes as many bytes. -/
lemma utf8Len_map_toLower (text : List Char) : utf8Len (text.map Char.toLower) = utf8Len text := by
  induction text with
  | nil => rfl
  | cons c cs ih => rw [List.map_cons, String.utf8Len_cons, String.utf8Len_cons, ih, utf8Size_toLower]

/-- The offset of a part in the lowercase copy is what stands before it. -/
lemma find_lowered (part text : List Char) :
    find part (text.map Char.toLower) =
      (findIgnoringCase part text).map fun found => utf8Len found.1 := by
  induction text with
  | nil => by_cases h : part = [] <;> simp [find, findIgnoringCase, h]
  | cons c cs ih =>
    rw [List.map_cons, find, findIgnoringCase, List.map_cons]
    split
    · rfl
    · rw [ih, Option.map_map, Option.map_map, utf8Size_toLower]
      refine congrArg₂ _ (funext fun found => ?_) rfl
      simp [Nat.add_comm]

/-- What is found lies between what stands before it and what follows. -/
lemma of_findIgnoringCase {part text before rest : List Char}
    (h : findIgnoringCase part text = some (before, rest)) :
    ∃ middle, text = before ++ (middle ++ rest) ∧ middle.map Char.toLower = part := by
  induction text generalizing before with
  | nil =>
    rw [findIgnoringCase] at h
    split at h
    · next hpart =>
      cases h
      exact ⟨[], rfl, hpart.symm⟩
    · cases h
  | cons c cs ih =>
    rw [findIgnoringCase] at h
    split at h
    · next hstarts =>
      cases h
      refine ⟨(c :: cs).take part.length, (List.take_append_drop _ _).symm, ?_⟩
      rw [List.map_take]
      exact (List.prefix_iff_eq_take.mp (List.isPrefixOf_iff_prefix.mp hstarts)).symm
    · obtain ⟨⟨before, rest⟩, hfound, heq⟩ := Option.map_eq_some_iff.mp h
      cases heq
      obtain ⟨middle, hcs, hmiddle⟩ := ih hfound
      exact ⟨middle, by rw [hcs, List.cons_append], hmiddle⟩

/-- The end of a tag is not within its name. -/
lemma findIgnoringCase_append_of_not_mem {c : Char} {first : List Char}
    (h : c ∉ first.map Char.toLower) (rest : List Char) :
    findIgnoringCase [c] (first ++ rest) =
      (findIgnoringCase [c] rest).map fun found => (first ++ found.1, found.2) := by
  induction first with
  | nil => simp
  | cons d ds ih =>
    rw [List.map_cons, List.mem_cons, not_or] at h
    rw [List.cons_append, findIgnoringCase, List.map_cons, if_neg, ih h.2, Option.map_map]
    · rfl
    · simp [List.isPrefixOf, h.1]

/-- **No slice panics**: the offsets are those of what is found without them.

**Proof sketch.** The lowercase copy of a part takes as many bytes as the part, so every offset that
is found in the copy lies between two characters of the page. -/
theorem slicedHtmlTitle_eq (body : String) : slicedHtmlTitle body = some (htmlTitle body) := by
  rw [slicedHtmlTitle, htmlTitle]
  simp only [find_lowered]
  cases htitle : findIgnoringCase "<title".toList body.toList with
  | none => rfl
  | some found =>
    obtain ⟨before, tag⟩ := found
    obtain ⟨name, hbody, hname⟩ := of_findIgnoringCase htitle
    have hslice : sliceFrom (utf8Len before) (body.toList.map Char.toLower) =
        some ((name ++ tag).map Char.toLower) := by
      rw [hbody, List.map_append, ← utf8Len_map_toLower before, Text.sliceFrom_append]
    have hoffset : findIgnoringCase ">".toList (name ++ tag) =
        (findIgnoringCase ">".toList tag).map fun found => (name ++ found.1, found.2) :=
      findIgnoringCase_append_of_not_mem (by rw [hname]; decide) tag
    simp only [Option.map_some, hslice, Option.bind_some, find_lowered, hoffset, Option.bind_eq_bind]
    cases hend : findIgnoringCase ">".toList tag with
    | none => rfl
    | some found =>
      obtain ⟨attributes, content⟩ := found
      obtain ⟨angle, htag, hangle⟩ := of_findIgnoringCase hend
      have hbytes : utf8Len angle = 1 := by rw [← utf8Len_map_toLower, hangle]; rfl
      have hstart : utf8Len before + utf8Len (name ++ attributes) + 1 =
          utf8Len (before ++ (name ++ (attributes ++ angle))) := by
        simp only [String.utf8Len_append, hbytes]
        omega
      have hpage : body.toList = (before ++ (name ++ (attributes ++ angle))) ++ content := by
        rw [hbody, htag]
        simp only [List.append_assoc]
      have hrest : sliceFrom (utf8Len before + utf8Len (name ++ attributes) + 1)
          (body.toList.map Char.toLower) = some (content.map Char.toLower) := by
        rw [hpage, List.map_append, hstart, ← utf8Len_map_toLower, Text.sliceFrom_append]
      simp only [Option.map_some, hrest, Option.bind_some, find_lowered]
      cases hclose : findIgnoringCase "</title>".toList content with
      | none => rfl
      | some found =>
        obtain ⟨title, rest⟩ := found
        obtain ⟨closing, hcontent, -⟩ := of_findIgnoringCase hclose
        have htext : slice (utf8Len before + utf8Len (name ++ attributes) + 1)
            (utf8Len before + utf8Len (name ++ attributes) + 1 + utf8Len title) body.toList =
              some title := by
          rw [hpage, hcontent, hstart, Text.slice_append]
        simp only [Option.map_some, htext, Option.bind_some]

/-! ## References -/

/-- A reference: a name between an ampersand and a semicolon. -/
def IsReference (text : List Char) : Prop :=
  ∃ name, text = '&' :: (name ++ [';']) ∧ '&' ∉ name ∧ ';' ∉ name

/-- A block of a text: a reference, or a text without ampersands. -/
def IsBlock (text : List Char) : Prop := IsReference text ∨ '&' ∉ text

/-- A reference at the front of a text is all of the reference that stands there. -/
lemma IsReference.eq_of_prefix {part block rest : List Char} (hpart : IsReference part)
    (hblock : IsReference block) (h : part <+: block ++ rest) : part = block := by
  obtain ⟨name, rfl, -, hname⟩ := hpart
  obtain ⟨other, rfl, -, hother⟩ := hblock
  obtain ⟨tail, htail⟩ := h
  simp only [List.cons_append, List.append_assoc, List.nil_append, List.cons.injEq, true_and]
    at htail
  have hsplit := congrArg (Text.splitOnce ';') htail
  rw [Text.splitOnce_append hname, Text.splitOnce_append hother, Prod.mk.injEq] at hsplit
  rw [hsplit.1]

/-- Nothing is replaced in a text without ampersands. -/
lemma replaceAll_append_of_not_mem {part replacement run : List Char} (hpart : IsReference part)
    (hrun : '&' ∉ run) (fuel : ℕ) (rest : List Char) :
    replaceAll part replacement (run.length + fuel) (run ++ rest) =
      run ++ replaceAll part replacement fuel rest := by
  obtain ⟨name, rfl, -⟩ := hpart
  induction run with
  | nil => simp
  | cons c cs ih =>
    rw [List.mem_cons, not_or] at hrun
    have hstarts : ('&' :: (name ++ [';'])).isPrefixOf (c :: (cs ++ rest)) = false := by
      simp [List.isPrefixOf, hrun.1]
    rw [List.length_cons, Nat.succ_add, List.cons_append, replaceAll, if_neg (by simp [hstarts]),
      ih hrun.2, List.cons_append]

/-- **A replacement of a reference** changes the blocks that are the reference, and no other. -/
lemma replaceAll_flatten {part : List Char} (replacement : List Char) (hpart : IsReference part)
    {blocks : List (List Char)} (hblocks : ∀ block ∈ blocks, IsBlock block) (extra : ℕ) :
    replaceAll part replacement (blocks.flatten.length + extra) blocks.flatten =
      (blocks.map fun block => if block = part then replacement else block).flatten := by
  induction blocks generalizing extra with
  | nil => cases extra <;> simp [replaceAll]
  | cons block blocks ih =>
    have ih := fun extra => ih (fun block h => hblocks block (List.mem_cons_of_mem _ h)) extra
    rw [List.flatten_cons, List.map_cons, List.flatten_cons, List.length_append, Nat.add_assoc]
    rcases hblocks block (List.mem_cons_self ..) with hreference | hplain
    · obtain ⟨name, hblock, hamp, -⟩ := id hreference
      by_cases heq : block = part
      · -- the whole block is the reference, so the text goes on behind it
        obtain ⟨n, hn⟩ : ∃ n, block.length = n + 1 := ⟨name.length + 1, by simp [hblock]⟩
        have hstarts : part.isPrefixOf (block ++ blocks.flatten) = true := by
          rw [List.isPrefixOf_iff_prefix, heq]
          exact List.prefix_append ..
        have hfuel : block.length + (blocks.flatten.length + extra) =
            (blocks.flatten.length + (n + extra)) + 1 := by omega
        have hcons : ∃ c cs, block ++ blocks.flatten = c :: cs := by simp [hblock]
        obtain ⟨c, cs, hcs⟩ := hcons
        have hdrop : (c :: cs).drop part.length = blocks.flatten := by
          rw [← hcs, ← heq, List.drop_left]
        rw [hfuel, hcs, replaceAll, if_pos (hcs ▸ hstarts), hdrop, ih, if_pos heq]
      · -- another reference does not begin with this one, and holds no second ampersand
        have hstarts : part.isPrefixOf (block ++ blocks.flatten) = false := by
          rw [Bool.eq_false_iff, Ne, List.isPrefixOf_iff_prefix]
          exact fun h => heq (hpart.eq_of_prefix hreference h).symm
        have hrun : '&' ∉ name ++ [';'] := by simp [hamp]
        have hfuel : block.length + (blocks.flatten.length + extra) =
            ((name ++ [';']).length + (blocks.flatten.length + extra)) + 1 := by
          simp only [hblock, List.length_cons, List.length_append]
          omega
        rw [if_neg heq, hfuel]
        rw [hblock, List.cons_append] at hstarts ⊢
        rw [replaceAll, if_neg (by rw [hstarts]; exact Bool.false_ne_true),
          replaceAll_append_of_not_mem hpart hrun, ih, List.cons_append]
    · have hne : block ≠ part := by
        rintro rfl
        obtain ⟨name, rfl, -⟩ := hpart
        simp at hplain
      rw [if_neg hne, replaceAll_append_of_not_mem hpart hplain, ih]

/-- What the replacement of one reference after the other makes of a block. -/
def decodeBlock (entities : List (String × String)) (block : List Char) : List Char :=
  entities.foldl (fun block entity =>
    if block = entity.1.toList then entity.2.toList else block) block

/-- **Replacements of references**, one after the other, change each block on its own, when only the
last of them brings in ampersands. -/
lemma foldl_replaceAll_flatten {entities : List (String × String)}
    (hreferences : ∀ entity ∈ entities, IsReference entity.1.toList)
    (hplain : ∀ entity ∈ entities.dropLast, '&' ∉ entity.2.toList) {blocks : List (List Char)}
    (hblocks : ∀ block ∈ blocks, IsBlock block) :
    entities.foldl (fun text entity =>
        replaceAll entity.1.toList entity.2.toList text.length text) blocks.flatten =
      (blocks.map (decodeBlock entities)).flatten := by
  induction entities generalizing blocks with
  | nil => rw [List.foldl_nil, show decodeBlock [] = id from rfl, List.map_id]
  | cons entity entities ih =>
    have hone := replaceAll_flatten entity.2.toList
      (hreferences entity (List.mem_cons_self ..)) hblocks 0
    rw [Nat.add_zero] at hone
    rw [List.foldl_cons, hone]
    cases entities with
    | nil => rfl
    | cons next entities =>
      rw [ih (fun entity h => hreferences entity (List.mem_cons_of_mem _ h))
        (fun entity h => hplain entity (by
          rw [List.dropLast_cons_cons]
          exact List.mem_cons_of_mem _ h)), List.map_map]
      · rfl
      · intro block hblock
        obtain ⟨block, hmem, rfl⟩ := List.mem_map.mp hblock
        split
        · exact .inr (hplain entity (by
            rw [List.dropLast_cons_cons]
            exact List.mem_cons_self ..))
        · exact hblocks block hmem

/-- The names that are decoded are references, and only the last stands for an ampersand. -/
lemma entities_references :
    (∀ entity ∈ entities, IsReference entity.1.toList) ∧
      ∀ entity ∈ entities.dropLast, '&' ∉ entity.2.toList := by
  refine ⟨fun entity h => ?_, by decide⟩
  have hall : ∀ entity ∈ entities, entity.1.toList =
      '&' :: ((entity.1.toList.drop 1).dropLast ++ [';']) ∧
      '&' ∉ (entity.1.toList.drop 1).dropLast ∧ ';' ∉ (entity.1.toList.drop 1).dropLast := by decide
  exact ⟨_, hall entity h⟩

/-- References are decoded block by block. -/
lemma decodeEntities_flatten {blocks : List (List Char)}
    (hblocks : ∀ block ∈ blocks, IsBlock block) :
    decodeEntities blocks.flatten = (blocks.map (decodeBlock entities)).flatten :=
  foldl_replaceAll_flatten entities_references.1 entities_references.2 hblocks

/-! ## Escaped texts -/

/-- A character in markup: the characters that markup reserves are written as references, for the
apostrophe one of two. -/
def escapeChar (apostrophe : String) (c : Char) : List Char :=
  if c = '&' then "\x26amp;".toList
  else if c = '<' then "\x26lt;".toList
  else if c = '>' then "\x26gt;".toList
  else if c = '"' then "\x26quot;".toList
  else if c = '\'' then apostrophe.toList
  else [c]

/-- A text in markup. -/
def escape (apostrophe text : String) : String :=
  String.ofList (text.toList.map (escapeChar apostrophe)).flatten

/-- The references to the apostrophe. -/
def apostrophes : List String := ["\x26#39;", "\x26apos;"]

/-- A character is written as itself, or as a reference that is decoded to it. -/
lemma escapeChar_cases {apostrophe : String} (hapostrophe : apostrophe ∈ apostrophes) (c : Char) :
    (escapeChar apostrophe c = [c] ∧ c ∉ ['&', '<', '>', '"', '\'']) ∨
      ∃ entity ∈ entities, escapeChar apostrophe c = entity.1.toList ∧ entity.2.toList = [c] := by
  by_cases hmem : c ∈ ['&', '<', '>', '"', '\'']
  · simp only [List.mem_cons, List.not_mem_nil, or_false] at hmem
    rcases hmem with rfl | rfl | rfl | rfl | rfl
    · exact .inr ⟨("\x26amp;", "\x26"), by simp [entities], rfl, rfl⟩
    · exact .inr ⟨("\x26lt;", "<"), by simp [entities], rfl, rfl⟩
    · exact .inr ⟨("\x26gt;", ">"), by simp [entities], rfl, rfl⟩
    · exact .inr ⟨("\x26quot;", "\""), by simp [entities], rfl, rfl⟩
    · refine .inr ⟨(apostrophe, "'"), ?_, rfl, show "'".toList = ['\''] by decide⟩
      simp only [apostrophes, List.mem_cons, List.not_mem_nil, or_false] at hapostrophe
      rcases hapostrophe with rfl | rfl <;> simp [entities]
  · refine .inl ⟨?_, hmem⟩
    simp only [List.mem_cons, List.not_mem_nil, or_false, not_or] at hmem
    obtain ⟨hamp, hlt, hgt, hquot, hapos⟩ := hmem
    rw [escapeChar, if_neg hamp, if_neg hlt, if_neg hgt, if_neg hquot, if_neg hapos]

/-- A character in markup is a block. -/
lemma isBlock_escapeChar {apostrophe : String} (hapostrophe : apostrophe ∈ apostrophes) (c : Char) :
    IsBlock (escapeChar apostrophe c) := by
  obtain ⟨hself, hplain⟩ | ⟨entity, hentity, hreference, -⟩ := escapeChar_cases hapostrophe c
  · rw [hself]
    refine .inr fun h => hplain ?_
    rw [← List.mem_singleton.mp h]
    exact List.mem_cons_self ..
  · rw [hreference]
    exact .inl (entities_references.1 entity hentity)

/-- What stands for a character is decoded to the character. -/
lemma decodeBlock_escapeChar {apostrophe : String} (hapostrophe : apostrophe ∈ apostrophes)
    (c : Char) : decodeBlock entities (escapeChar apostrophe c) = [c] := by
  obtain ⟨hself, -⟩ | ⟨entity, hentity, hreference, hdecoded⟩ := escapeChar_cases hapostrophe c
  · have hlong : ∀ entity ∈ entities, entity.1.toList.length ≠ 1 := by decide
    have hkept : ∀ known ⊆ entities, decodeBlock known [c] = [c] := by
      intro known hknown
      induction known with
      | nil => rfl
      | cons entity known ih =>
        obtain ⟨hentity, hknown⟩ := List.cons_subset.mp hknown
        have hne : [c] ≠ entity.1.toList := fun h => hlong entity hentity (by rw [← h]; rfl)
        rw [decodeBlock, List.foldl_cons, if_neg hne]
        exact ih hknown
    rw [hself, hkept entities (List.Subset.refl _)]
  · have hall : ∀ entity ∈ entities, decodeBlock entities entity.1.toList = entity.2.toList := by
      decide
    rw [hreference, hall entity hentity, hdecoded]

/-- **What is escaped is decoded once**: the text comes back, references in it included.

**Proof sketch.** The ampersands of the text are escaped themselves, and are decoded last; so each
pass finds its reference only where one character was escaped, and changes whole blocks. -/
theorem decodeEntities_escape {apostrophe : String} (hapostrophe : apostrophe ∈ apostrophes)
    (text : String) : decodeEntities (escape apostrophe text).toList = text.toList := by
  rw [escape, String.toList_ofList, decodeEntities_flatten, List.map_map]
  · have hcomp : decodeBlock entities ∘ escapeChar apostrophe = fun c => [c] :=
      funext fun c => decodeBlock_escapeChar hapostrophe c
    rw [hcomp, ← List.flatMap_def, List.flatMap_singleton']
  · intro block hblock
    obtain ⟨c, -, rfl⟩ := List.mem_map.mp hblock
    exact isBlock_escapeChar hapostrophe c

/-- An escaped text opens no tag. -/
lemma not_mem_escape {apostrophe : String} (hapostrophe : apostrophe ∈ apostrophes)
    (text : String) : '<' ∉ (escape apostrophe text).toList := by
  rw [escape, String.toList_ofList, List.mem_flatten]
  rintro ⟨block, hblock, hmem⟩
  obtain ⟨c, -, rfl⟩ := List.mem_map.mp hblock
  obtain ⟨hself, hplain⟩ | ⟨entity, hentity, hreference, -⟩ := escapeChar_cases hapostrophe c
  · rw [hself] at hmem
    refine hplain ?_
    rw [← List.mem_singleton.mp hmem]
    decide
  · have hall : ∀ entity ∈ entities, '<' ∉ entity.1.toList := by decide
    rw [hreference] at hmem
    exact hall entity hentity hmem

/-! ## The title of a page -/

/-- Nothing is trimmed exactly when there is no white space at both ends. -/
lemma trim_eq_self_iff {text : List Char} : trim text = text ↔
    (∀ c ∈ text.head?, ¬ isWhitespace c = true) ∧
      ∀ c ∈ text.getLast?, ¬ isWhitespace c = true := by
  have hhead : text.dropWhile isWhitespace = text ↔ ∀ c ∈ text.head?, ¬ isWhitespace c = true := by
    rw [List.dropWhile_eq_self_iff]
    cases text <;> simp
  have hlast : text.rdropWhile isWhitespace = text ↔
      ∀ c ∈ text.getLast?, ¬ isWhitespace c = true := by
    rw [List.rdropWhile_eq_self_iff]
    constructor
    · intro h c hc
      obtain ⟨hne, rfl⟩ := List.mem_getLast?_eq_getLast hc
      exact h hne
    · exact fun h hne => h _ (List.getLast_mem_getLast? hne)
  rw [← hhead, ← hlast]
  have htrim : trim text = (text.dropWhile isWhitespace).rdropWhile isWhitespace := rfl
  constructor
  · intro h
    have hright : (trim text).length ≤ (text.dropWhile isWhitespace).length :=
      (List.rdropWhile_prefix isWhitespace _).length_le
    have hsuffix := List.dropWhile_suffix isWhitespace (l := text)
    have hleft : text.dropWhile isWhitespace = text :=
      hsuffix.eq_of_length (le_antisymm hsuffix.length_le (by rwa [h] at hright))
    exact ⟨hleft, by rw [htrim, hleft] at h; exact h⟩
  · rintro ⟨hleft, hright⟩
    rw [htrim, hleft, hright]

/-- What stands for a character begins and ends with no white space, unless the character is. -/
lemma escapeChar_ends {apostrophe : String} (hapostrophe : apostrophe ∈ apostrophes) {c : Char}
    (hc : ¬ isWhitespace c = true) :
    ∃ first last, (escapeChar apostrophe c).head? = some first ∧
      (escapeChar apostrophe c).getLast? = some last ∧
      ¬ isWhitespace first = true ∧ ¬ isWhitespace last = true := by
  obtain ⟨hself, -⟩ | ⟨entity, hentity, hreference, -⟩ := escapeChar_cases hapostrophe c
  · exact ⟨c, c, by rw [hself]; rfl, by rw [hself]; rfl, hc, hc⟩
  · obtain ⟨name, hname, -⟩ := entities_references.1 entity hentity
    refine ⟨'&', ';', by rw [hreference, hname]; rfl, ?_, by decide, by decide⟩
    rw [hreference, hname, ← List.cons_append, List.getLast?_concat]

/-- Nothing is trimmed from an escaped text when nothing is trimmed from the text. -/
lemma trim_escape {apostrophe text : String} (hapostrophe : apostrophe ∈ apostrophes)
    (htext : trim text.toList = text.toList) :
    trim (escape apostrophe text).toList = (escape apostrophe text).toList := by
  rw [trim_eq_self_iff] at htext ⊢
  obtain ⟨hhead, hlast⟩ := htext
  rw [escape, String.toList_ofList]
  constructor
  · cases htext : text.toList with
    | nil => simp
    | cons c cs =>
      obtain ⟨first, -, hfirst, -, hspace, -⟩ :=
        escapeChar_ends hapostrophe (hhead c (by rw [htext]; rfl))
      intro d hd
      rw [List.map_cons, List.flatten_cons, List.head?_append, hfirst] at hd
      cases hd
      exact hspace
  · rcases List.eq_nil_or_concat text.toList with htext | ⟨cs, c, htext⟩
    · simp [htext]
    · obtain ⟨-, last, -, hend, -, hspace⟩ :=
        escapeChar_ends hapostrophe (hlast c (by rw [htext]; simp))
      intro d hd
      rw [htext, List.map_concat, List.concat_eq_append, List.flatten_append,
        List.flatten_singleton, List.getLast?_append, hend] at hd
      cases hd
      exact hspace

/-- A character without a case is in a lowercase copy when it is in the text. -/
lemma mem_of_mem_map_toLower {mark : Char} {text : List Char} (hmark : mark.isLower = false)
    (h : mark ∈ text.map Char.toLower) : mark ∈ text := by
  obtain ⟨c, hc, rfl⟩ := List.mem_map.mp h
  rw [Char.isLower_toLower_eq_isAlpha] at hmark
  have hupper : ¬ c.isUpper = true := fun hupper => by simp [Char.isAlpha, hupper] at hmark
  rwa [Char.toLower_eq_of_not_isUpper hupper]

/-- A part that begins with a character it does not hold twice is found behind a text without it. -/
lemma findIgnoringCase_append {mark : Char} {name before middle : List Char} (hmark : mark ∉ name)
    (hmiddle : middle.map Char.toLower = mark :: name)
    (hbefore : ¬ mark :: name <:+: before.map Char.toLower) (rest : List Char) :
    findIgnoringCase (mark :: name) (before ++ (middle ++ rest)) = some (before, rest) := by
  have hlength : middle.length = (mark :: name).length := by rw [← hmiddle, List.length_map]
  induction before with
  | nil =>
    obtain ⟨c, cs, hcons⟩ : ∃ c cs, middle ++ rest = c :: cs := by
      cases middle with
      | nil => simp at hlength
      | cons c cs => exact ⟨c, cs ++ rest, rfl⟩
    have hstarts : (mark :: name).isPrefixOf ((middle ++ rest).map Char.toLower) = true := by
      rw [List.isPrefixOf_iff_prefix, List.map_append, hmiddle]
      exact List.prefix_append ..
    rw [List.nil_append, hcons, findIgnoringCase, if_pos (hcons ▸ hstarts), ← hcons, ← hlength,
      List.drop_left]
  | cons c cs ih =>
    have hstarts : ¬ (mark :: name).isPrefixOf
        ((c :: (cs ++ (middle ++ rest))).map Char.toLower) = true := by
      rw [List.isPrefixOf_iff_prefix]
      intro hstarts
      rw [← List.cons_append, List.map_append, List.map_append, hmiddle] at hstarts
      -- the part does not fit in front of itself, and would hold its first character twice
      rcases List.prefix_or_prefix_of_prefix hstarts (List.prefix_append _ _) with h | h
      · exact hbefore h.isInfix
      · obtain ⟨tail, htail⟩ := h
        have hrest : tail <+: mark :: (name ++ rest.map Char.toLower) := by
          rw [← List.prefix_append_right_inj ((c :: cs).map Char.toLower), htail]
          exact hstarts
        rcases List.prefix_cons_iff.mp hrest with rfl | ⟨tail, rfl, -⟩
        · rw [List.append_nil] at htail
          exact hbefore (htail ▸ List.infix_refl _)
        · rw [List.map_cons, List.cons_append, List.cons.injEq] at htail
          exact hmark (by simp [← htail.2])
    have hcs : ¬ mark :: name <:+: cs.map Char.toLower := fun h =>
      hbefore (h.trans (List.suffix_cons _ _).isInfix)
    rw [List.cons_append, findIgnoringCase, if_neg hstarts, ih hcs]
    rfl

end Web

open Web

/-- **The title of a page** is found whatever the page, and is the text that was escaped.

**Proof sketch.** The offsets are those of what is found without them, so no slice panics. The part
before the title holds no such tag, the attributes no angle bracket and the escaped text no tag, so
the text between the tags is the escaped text; it has no white space at its ends, and is decoded
once. -/
theorem html_title_decoded_once :
    (∀ body, ∃ title, slicedHtmlTitle body = some title) ∧
    ∀ apostrophe ∈ apostrophes, ∀ title before attributes rest : String,
      title ≠ "" → trim title.toList = title.toList →
      ¬ "<title".toList <:+: before.toList.map Char.toLower → '>' ∉ attributes.toList →
      slicedHtmlTitle (before ++ "<title" ++ attributes ++ ">" ++ escape apostrophe title ++
        "</title>" ++ rest) = some (some title) := by
  refine ⟨fun body => ⟨_, slicedHtmlTitle_eq body⟩, ?_⟩
  intro apostrophe hapostrophe title before attributes rest hne htrim hbefore hattributes
  set text := escape apostrophe title
  have htag : findIgnoringCase "<title".toList (before.toList ++ ("<title".toList ++
      (attributes.toList ++ (">".toList ++ (text.toList ++ ("</title>".toList ++ rest.toList)))))) =
      some (before.toList, attributes.toList ++ (">".toList ++ (text.toList ++
        ("</title>".toList ++ rest.toList)))) :=
    findIgnoringCase_append (by decide) (by decide) hbefore _
  have hend : findIgnoringCase ">".toList (attributes.toList ++ (">".toList ++ (text.toList ++
      ("</title>".toList ++ rest.toList)))) =
      some (attributes.toList, text.toList ++ ("</title>".toList ++ rest.toList)) :=
    findIgnoringCase_append (by decide) (by decide) (fun h => hattributes
      (mem_of_mem_map_toLower (by decide) (h.subset (List.mem_cons_self ..)))) _
  have hclose : findIgnoringCase "</title>".toList (text.toList ++ ("</title>".toList ++
      rest.toList)) = some (text.toList, rest.toList) :=
    findIgnoringCase_append (by decide) (by decide) (fun h => not_mem_escape hapostrophe title
      (mem_of_mem_map_toLower (by decide) (h.subset (List.mem_cons_self ..)))) _
  have hnil : title.toList ≠ [] := by simpa using hne
  rw [slicedHtmlTitle_eq, htmlTitle]
  simp only [String.toList_append, List.append_assoc, htag, hend, hclose, Option.bind_eq_bind,
    Option.bind_some, text, trim_escape hapostrophe htrim, decodeEntities_escape hapostrophe,
    if_neg hnil, String.ofList_toList]

/-- A title with references in it, within a page. -/
theorem html_title_decoded_once_references :
    slicedHtmlTitle ("<p>\u00e9</p>" ++ "<title" ++ " lang=en" ++ ">" ++
      escape "\x26#39;" "a < b \x26lt; 'c'" ++ "</title>" ++ "<title>x</title>") =
        some (some "a < b \x26lt; 'c'") :=
  html_title_decoded_once.2 "\x26#39;" (by decide) "a < b \x26lt; 'c'" "<p>\u00e9</p>" " lang=en"
    "<title>x</title>" (by decide) (by decide) (by decide) (by decide)

end Comsat
