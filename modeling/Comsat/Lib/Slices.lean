import Mathlib

set_option relaxedAutoImplicit false
set_option autoImplicit false

/-!
# Slices of texts by byte offsets

Texts are lists of characters, and offsets count the bytes of their encoding. A slice only exists
when its ends lie between two characters.

## Main definitions

* `Text.find` — the byte offset at which a part of a text begins.
* `Text.sliceFrom`, `Text.slice` — the rest of a text, and what lies between two offsets.

## Main results

* `Text.sliceFrom_append`, `Text.slice_append` — the slices at the ends of a part.
-/

namespace Text

open String (utf8Len)

/-- The byte offset at which a part of a text first begins. -/
def find (part : List Char) : List Char → Option ℕ
  | [] => if part = [] then some 0 else none
  | c :: cs =>
    if part.isPrefixOf (c :: cs) then some 0
    else (find part cs).map fun offset => c.utf8Size + offset

/-- The first bytes of a text, unless they end within a character. -/
def sliceTo : ℕ → List Char → Option (List Char)
  | stop, [] => if stop = 0 then some [] else none
  | stop, c :: cs =>
    if stop = 0 then some []
    else if stop < c.utf8Size then none
    else (sliceTo (stop - c.utf8Size) cs).map fun text => c :: text

/-- The rest of a text, unless it begins within a character. -/
def sliceFrom : ℕ → List Char → Option (List Char)
  | start, [] => if start = 0 then some [] else none
  | start, c :: cs =>
    if start = 0 then some (c :: cs)
    else if start < c.utf8Size then none
    else sliceFrom (start - c.utf8Size) cs

/-- What lies between two offsets, unless one of them is within a character. -/
def slice (start stop : ℕ) (text : List Char) : Option (List Char) :=
  if stop < start then none else (sliceFrom start text).bind (sliceTo (stop - start))

/-- The rest of a text from the end of a part on. -/
lemma sliceFrom_append (first rest : List Char) :
    sliceFrom (utf8Len first) (first ++ rest) = some rest := by
  induction first with
  | nil => cases rest <;> rfl
  | cons c cs ih =>
    have hpos : 0 < c.utf8Size := c.utf8Size_pos
    rw [List.cons_append, String.utf8Len_cons, sliceFrom, if_neg (by omega), if_neg (by omega),
      Nat.add_sub_cancel, ih]

/-- The bytes of the first part of a text. -/
lemma sliceTo_append (first rest : List Char) :
    sliceTo (utf8Len first) (first ++ rest) = some first := by
  induction first with
  | nil => cases rest <;> rfl
  | cons c cs ih =>
    have hpos : 0 < c.utf8Size := c.utf8Size_pos
    rw [List.cons_append, String.utf8Len_cons, sliceTo, if_neg (by omega), if_neg (by omega),
      Nat.add_sub_cancel, ih, Option.map_some]

/-- A part of a text lies between its offsets. -/
lemma slice_append (first part rest : List Char) :
    slice (utf8Len first) (utf8Len first + utf8Len part) (first ++ (part ++ rest)) = some part := by
  rw [slice, if_neg (by omega), sliceFrom_append, Option.bind_some, Nat.add_sub_cancel_left,
    sliceTo_append]

end Text
