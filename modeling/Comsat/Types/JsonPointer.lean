import Comsat.Lib.Text
import Comsat.Types.JsonText

set_option relaxedAutoImplicit false
set_option autoImplicit false

/-!
# Positions in JSON values

A value in a value is named by the steps that lead to it, and found by a pointer, which is a text of
tokens behind slashes.

## Main definitions

* `Json.Step`, `Json.at?` — steps into a value, and the value that they lead to.
* `Json.pointer?` — the value that a pointer finds.
* `Json.distinctKeys` — every object in a value holds each key once.

## Main results

* `Json.exists_locate_of_pointer` — a pointer finds what some steps lead to.
* `Json.get?_of_mem` — in such a value, every field of an object is found by its name.

## Design

* A token is a key of an object or the number of an item, depending on what it is looked up in. A
  number that is too large for an index names no item, whether it fits a machine word or not.
-/

namespace Comsat.Json

/-! ## Steps -/

/-- A step into a value: to a field of an object, or to an item of an array. -/
inductive Step where
  | key (name : String)
  | index (i : ℕ)
deriving DecidableEq, Repr

/-- The value that a step leads to. -/
def child? (value : Json) : Step → Option Json
  | .key name => value.get? name
  | .index i =>
    match value with
    | arr items => items[i]?
    | _ => none

/-- The value that some steps lead to. -/
def at? (value : Json) : List Step → Option Json
  | [] => some value
  | step :: steps => (value.child? step).bind fun child => child.at? steps

/-- Steps behind one another. -/
lemma at?_append (value : Json) (first second : List Step) :
    value.at? (first ++ second) = (value.at? first).bind fun found => found.at? second := by
  induction first generalizing value with
  | nil => rfl
  | cons step steps ih =>
    rw [List.cons_append, at?, at?]
    cases value.child? step with
    | none => rfl
    | some child => exact ih child

/-! ## Pointers -/

/-- Replaces a tilde and the character behind it. -/
def replaceEscape (second replacement : Char) : List Char → List Char
  | [] => []
  | [c] => [c]
  | c :: d :: cs =>
    if c = '~' ∧ d = second then replacement :: replaceEscape second replacement cs
    else c :: replaceEscape second replacement (d :: cs)

/-- A token without its escapes. -/
def unescapeToken (token : List Char) : String :=
  String.ofList (replaceEscape '0' '~' (replaceEscape '1' '/' token))

/-- The tokens of a pointer. -/
def pointerTokens (pointer : String) : List String :=
  ((pointer.toList.splitOn '/').drop 1).map unescapeToken

/-- The number that a token is: neither a sign nor a zero in front of other digits. -/
def parseIndex (token : String) : Option ℕ :=
  let digits := token.toList
  if digits = [] ∨ (digits.head? = some '0' ∧ digits.length ≠ 1) then none
  else if digits.all Char.isDigit then
    some (digits.foldl (fun n digit => 10 * n + (digit.toNat - 48)) 0)
  else none

/-- The step that a token stands for. -/
def step? (value : Json) (token : String) : Option Step :=
  match value with
  | obj _ => some (.key token)
  | arr _ => (parseIndex token).map .index
  | _ => none

/-- The steps that tokens stand for. -/
def locate (value : Json) : List String → Option (List Step)
  | [] => some []
  | token :: tokens =>
    (value.step? token).bind fun step =>
      (value.child? step).bind fun child => (child.locate tokens).map (step :: ·)

/-- The value that tokens find. -/
def lookup (value : Json) : List String → Option Json
  | [] => some value
  | token :: tokens =>
    ((value.step? token).bind value.child?).bind fun child => child.lookup tokens

/-- The value that a pointer finds. -/
def pointer? (value : Json) (pointer : String) : Option Json :=
  if pointer = "" then some value
  else if pointer.toList.head? = some '/' then value.lookup (pointerTokens pointer)
  else none

example : (obj [("a/b", arr [null, num "7"])]).pointer? "/a~1b/1" = some (num "7") := by rfl

example : pointerTokens "/~01/" = ["~1", ""] := by decide

/-- Tokens find what their steps lead to. -/
lemma exists_locate_of_lookup {value found : Json} {tokens : List String}
    (h : value.lookup tokens = some found) :
    ∃ steps, value.locate tokens = some steps ∧ value.at? steps = some found := by
  induction tokens generalizing value with
  | nil => exact ⟨[], rfl, h⟩
  | cons token tokens ih =>
    rw [lookup, Option.bind_eq_some_iff] at h
    obtain ⟨child, hchild, hrest⟩ := h
    obtain ⟨step, hstep, hchild⟩ := Option.bind_eq_some_iff.mp hchild
    obtain ⟨steps, hsteps, hfound⟩ := ih hrest
    refine ⟨step :: steps, ?_, ?_⟩
    · rw [locate, hstep, Option.bind_some, hchild, Option.bind_some, hsteps, Option.map_some]
    · rw [at?, hchild, Option.bind_some, hfound]

/-- **A pointer** finds what its steps lead to. -/
theorem exists_locate_of_pointer {value found : Json} {text : String} (hne : text ≠ "")
    (h : value.pointer? text = some found) :
    ∃ steps, value.locate (pointerTokens text) = some steps ∧ value.at? steps = some found := by
  rw [pointer?, if_neg hne] at h
  split at h
  · exact exists_locate_of_lookup h
  · cases h

/-! ## Keys -/

mutual

/-- Whether every object holds each key once. -/
def distinctKeys : Json → Bool
  | null => true
  | bool _ => true
  | num _ => true
  | str _ => true
  | arr items => distinctKeysItems items
  | obj fields => decide (fields.map Prod.fst).Nodup && distinctKeysFields fields

/-- Whether every object in some items holds each key once. -/
def distinctKeysItems : List Json → Bool
  | [] => true
  | item :: items => distinctKeys item && distinctKeysItems items

/-- Whether every object in some fields holds each key once. -/
def distinctKeysFields : List (String × Json) → Bool
  | [] => true
  | (_, value) :: fields => distinctKeys value && distinctKeysFields fields

end

/-- The items of such an array. -/
lemma distinctKeys_item {items : List Json} (h : (arr items).distinctKeys = true) {item : Json}
    (hitem : item ∈ items) : item.distinctKeys = true := by
  rw [distinctKeys] at h
  induction items with
  | nil => cases hitem
  | cons first items ih =>
    rw [distinctKeysItems, Bool.and_eq_true] at h
    rcases List.mem_cons.mp hitem with rfl | hitem
    · exact h.1
    · exact ih h.2 hitem

/-- The fields of such an object. -/
lemma distinctKeys_field {fields : List (String × Json)} (h : (obj fields).distinctKeys = true)
    {field : String × Json} (hfield : field ∈ fields) : field.2.distinctKeys = true := by
  rw [distinctKeys, Bool.and_eq_true] at h
  have hfields := h.2
  clear h
  induction fields with
  | nil => cases hfield
  | cons first fields ih =>
    rw [distinctKeysFields, Bool.and_eq_true] at hfields
    rcases List.mem_cons.mp hfield with rfl | hfield
    · exact hfields.1
    · exact ih hfield hfields.2

/-- **Every field** of such an object is found by its name. -/
theorem get?_of_mem {fields : List (String × Json)} (h : (obj fields).distinctKeys = true)
    {name : String} {value : Json} (hfield : (name, value) ∈ fields) :
    (obj fields).get? name = some value := by
  rw [distinctKeys, Bool.and_eq_true, decide_eq_true_iff] at h
  have hnodup := h.1
  clear h
  induction fields with
  | nil => cases hfield
  | cons first fields ih =>
    rw [List.map_cons, List.nodup_cons] at hnodup
    rw [get?, List.find?_cons]
    rcases List.mem_cons.mp hfield with rfl | hfield
    · simp
    · have hne : first.1 ≠ name := fun heq =>
        hnodup.1 (heq ▸ List.mem_map_of_mem (f := Prod.fst) hfield)
      rw [decide_eq_false hne]
      exact ih hfield hnodup.2

/-- A field that is found is one of the fields. -/
lemma mem_of_get? {fields : List (String × Json)} {name : String} {value : Json}
    (h : (obj fields).get? name = some value) : (name, value) ∈ fields := by
  rw [get?, Option.map_eq_some_iff] at h
  obtain ⟨⟨name', value'⟩, hfind, rfl⟩ := h
  have hname := List.find?_some hfind
  rw [decide_eq_true_iff] at hname
  subst hname
  exact List.mem_of_find?_eq_some hfind

end Comsat.Json
