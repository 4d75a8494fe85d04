import Comsat.Types.JsonSize
import Mathlib

set_option relaxedAutoImplicit false
set_option autoImplicit false

/-!
# Texts of JSON values

The two texts that the serializer prints for a value, as bytes, and what a reader makes of them.

## Main definitions

* `Json.pretty` — the text over several lines.
* `Json.depth` — how deeply arrays and objects nest.
* `Json.readBack` — what the parser makes of a compact text.
* `Json.mapNumbers` — the value with its numbers read as others.
* `utf8Bytes` — the bytes of a text.

## Main results

* `Json.refusedAt_eq_none` — a value is read back exactly when it nests no deeper than allowed.
* `Json.oneLine_compact` — a compact text is one line.
* `Json.byteLength_lt_of_get?` — an object has a longer text than what is found in it.

## Design

* A number is a literal of digits, signs, points and exponents; which number it is, is left open.
  `Json.readBack` takes numbers to be read as they were printed, as integers of 64 bits and fractions
  of few digits are; what the parser, which does its best only, makes of other fractions is left out.
-/

namespace Comsat

/-! ## Bytes -/

/-- The bytes of a text. -/
def utf8Bytes (text : String) : List UInt8 := text.toList.flatMap String.utf8EncodeChar

/-- The bytes of texts behind one another. -/
@[simp] lemma utf8Bytes_append (first second : String) :
    utf8Bytes (first ++ second) = utf8Bytes first ++ utf8Bytes second := by
  rw [utf8Bytes, String.toList_append, List.flatMap_append]
  rfl

/-- The bytes are as many as the text has. -/
lemma length_utf8Bytes (text : String) : (utf8Bytes text).length = text.utf8ByteSize := by
  rw [Text.utf8ByteSize_eq_sum, utf8Bytes, List.length_flatMap]
  simp

/-- A text is determined by its bytes. -/
lemma utf8Bytes_injective {first second : String} (h : utf8Bytes first = utf8Bytes second) :
    first = second := by
  rw [← String.toByteArray_inj, ← String.ofList_toList (s := first),
    ← String.ofList_toList (s := second), String.toByteArray_ofList, String.toByteArray_ofList]
  exact congrArg List.toByteArray h

/-- The text of some bytes, if they are the bytes of one. -/
def ofUtf8 (bytes : List UInt8) : Option String := String.fromUTF8? bytes.toByteArray

/-- A text is found again from its bytes. -/
@[simp] lemma ofUtf8_utf8Bytes (text : String) : ofUtf8 (utf8Bytes text) = some text := by
  have hbytes : (utf8Bytes text).toByteArray = text.toByteArray := by
    rw [← String.ofList_toList (s := text), String.toByteArray_ofList, utf8Bytes,
      String.toList_ofList, List.utf8Encode]
  rw [ofUtf8, String.fromUTF8?, dif_pos (hbytes ▸ text.isValidUTF8), Option.some.injEq,
    ← String.toByteArray_inj]
  exact hbytes

/-- The byte of a new line. -/
def newline : UInt8 := 0x0A

/-- The byte of a new line stands for a new line only. -/
lemma newline_mem_utf8EncodeChar {c : Char} (h : newline ∈ String.utf8EncodeChar c) : c = '\n' := by
  have hsmall : ∀ n < 256, UInt8.ofNat n = newline → n = 10 := by
    intro n hn heq
    have hnat := congrArg UInt8.toNat heq
    rwa [UInt8.toNat_ofNat', Nat.mod_eq_of_lt hn] at hnat
  rw [String.utf8EncodeChar] at h
  split at h
  · have hten := hsmall c.val.toNat (by omega) (List.mem_singleton.mp h).symm
    exact Char.ext (UInt32.toNat_inj.mp hten)
  · have hlead : ∀ n, newline = UInt8.ofNat (n % 64 + 128) → False := fun n hn => by
      have := hsmall (n % 64 + 128) (by omega) hn.symm
      omega
    split at h
    · simp only [List.mem_cons, List.not_mem_nil, or_false] at h
      rcases h with h | h
      · have := hsmall _ (by omega) h.symm
        omega
      · exact (hlead _ h).elim
    · split at h
      · simp only [List.mem_cons, List.not_mem_nil, or_false] at h
        rcases h with h | h | h
        · have := hsmall _ (by omega) h.symm
          omega
        · exact (hlead _ h).elim
        · exact (hlead _ h).elim
      · simp only [List.mem_cons, List.not_mem_nil, or_false] at h
        rcases h with h | h | h | h
        · have := hsmall _ (by omega) h.symm
          omega
        · exact (hlead _ h).elim
        · exact (hlead _ h).elim
        · exact (hlead _ h).elim

/-- A text without new lines has no byte of one. -/
lemma newline_not_mem_utf8Bytes {text : String} (h : '\n' ∉ text.toList) :
    newline ∉ utf8Bytes text := by
  intro hmem
  obtain ⟨c, hc, hbyte⟩ := List.mem_flatMap.mp hmem
  exact h (newline_mem_utf8EncodeChar hbyte ▸ hc)

namespace Json

/-! ## Induction -/

/-- **Induction on a value**: what holds of a value when it holds of the values in it holds of all
values. -/
theorem induct {P : Json → Prop} (hnull : P null) (hbool : ∀ value, P (bool value))
    (hnum : ∀ literal, P (num literal)) (hstr : ∀ value, P (str value))
    (harr : ∀ items, (∀ item ∈ items, P item) → P (arr items))
    (hobj : ∀ fields, (∀ field ∈ fields, P field.2) → P (obj fields)) (value : Json) : P value :=
  @Json.rec P (fun items => ∀ item ∈ items, P item) (fun fields => ∀ field ∈ fields, P field.2)
    (fun field => P field.2) hnull hbool hnum hstr harr hobj (by simp)
    (fun _ _ hitem hitems => List.forall_mem_cons.mpr ⟨hitem, hitems⟩) (by simp)
    (fun _ _ hfield hfields => List.forall_mem_cons.mpr ⟨hfield, hfields⟩) (fun _ _ h => h) value

/-! ## Text over several lines -/

/-- The blanks in front of a line. -/
def indentation (depth : ℕ) : String := String.ofList (List.replicate (2 * depth) ' ')

mutual

/-- The text of a value over several lines, each item and each field on its own. -/
def pretty (depth : ℕ) : Json → String
  | null => "null"
  | bool value => if value then "true" else "false"
  | num literal => literal
  | str value => quote value
  | arr items =>
    if items.isEmpty then "[]"
    else "[" ++ String.intercalate "," (prettyItems (depth + 1) items) ++ "\n" ++
      indentation depth ++ "]"
  | obj fields =>
    if fields.isEmpty then "\x7b\x7d"
    else "\x7b" ++ String.intercalate "," (prettyFields (depth + 1) fields) ++ "\n" ++
      indentation depth ++ "\x7d"

/-- The lines of the items of an array. -/
def prettyItems (depth : ℕ) : List Json → List String
  | [] => []
  | item :: items => ("\n" ++ indentation depth ++ pretty depth item) :: prettyItems depth items

/-- The lines of the fields of an object. -/
def prettyFields (depth : ℕ) : List (String × Json) → List String
  | [] => []
  | (name, value) :: fields =>
    ("\n" ++ indentation depth ++ quote name ++ ": " ++ pretty depth value) ::
      prettyFields depth fields

end

example : pretty 0 (obj [("a", arr [int 1]), ("b", obj [])]) =
    "\x7b\n  \"a\": [\n    1\n  ],\n  \"b\": \x7b\x7d\n\x7d" := by decide

/-- An object that is not empty begins with a brace and a new line. -/
lemma utf8Bytes_pretty_obj {fields : List (String × Json)} (h : fields ≠ []) (depth : ℕ) :
    ∃ rest, utf8Bytes (pretty depth (obj fields)) = 0x7B :: newline :: rest := by
  obtain ⟨⟨name, value⟩, fields, rfl⟩ := List.exists_cons_of_ne_nil h
  have hopen : utf8Bytes "\x7b" = [0x7B] := by decide
  have hline : utf8Bytes "\n" = [newline] := by decide
  have hfirst : ∃ rest, String.intercalate "," (prettyFields (depth + 1) ((name, value) :: fields)) =
      "\n" ++ rest := by
    rw [prettyFields]
    cases prettyFields (depth + 1) fields with
    | nil => exact ⟨_, by simp only [String.intercalate_singleton, String.append_assoc]; rfl⟩
    | cons next texts =>
      exact ⟨_, by simp only [String.intercalate_cons_cons, String.append_assoc]; rfl⟩
  obtain ⟨rest, hrest⟩ := hfirst
  rw [pretty, if_neg (by simp), hrest]
  simp only [utf8Bytes_append, hopen, hline, List.cons_append]
  exact ⟨_, rfl⟩

/-- An object begins with a brace. -/
lemma utf8Bytes_compact_obj (fields : List (String × Json)) :
    ∃ rest, utf8Bytes (compact (obj fields)) = 0x7B :: rest := by
  have hopen : utf8Bytes "\x7b" = [0x7B] := by decide
  rw [compact]
  simp only [utf8Bytes_append, hopen, List.cons_append]
  exact ⟨_, rfl⟩

/-! ## Nesting -/

mutual

/-- How deeply arrays and objects nest. -/
def depth : Json → ℕ
  | null => 0
  | bool _ => 0
  | num _ => 0
  | str _ => 0
  | arr items => depthItems items + 1
  | obj fields => depthFields fields + 1

/-- How deeply the items of an array nest. -/
def depthItems : List Json → ℕ
  | [] => 0
  | item :: items => max (depth item) (depthItems items)

/-- How deeply the fields of an object nest. -/
def depthFields : List (String × Json) → ℕ
  | [] => 0
  | (_, value) :: fields => max (depth value) (depthFields fields)

end

/-- Items nest at most so deeply if each does. -/
lemma depthItems_le_iff {items : List Json} {n : ℕ} :
    depthItems items ≤ n ↔ ∀ item ∈ items, item.depth ≤ n := by
  induction items with
  | nil => simp [depthItems]
  | cons item items ih => simp [depthItems, ih]

/-- The items of an array nest less deeply. -/
lemma depth_item_lt {items : List Json} {item : Json} (h : item ∈ items) :
    item.depth < (arr items).depth := by
  rw [depth.eq_def (arr items), Nat.lt_succ_iff]
  induction items with
  | nil => cases h
  | cons first items ih =>
    rw [depthItems]
    rcases List.mem_cons.mp h with rfl | h
    · exact le_max_left _ _
    · exact (ih h).trans (le_max_right _ _)

/-- The fields of an object nest less deeply. -/
lemma depth_field_lt {fields : List (String × Json)} {field : String × Json} (h : field ∈ fields) :
    field.2.depth < (obj fields).depth := by
  rw [depth.eq_def (obj fields), Nat.lt_succ_iff]
  induction fields with
  | nil => cases h
  | cons first fields ih =>
    rw [depthFields]
    rcases List.mem_cons.mp h with rfl | h
    · exact le_max_left _ _
    · exact (ih h).trans (le_max_right _ _)

/-- Arrays in arrays. -/
def nestedArrays : ℕ → Json
  | 0 => .null
  | n + 1 => .arr [nestedArrays n]

/-- The nesting of arrays in arrays. -/
lemma depth_nestedArrays (n : ℕ) : (nestedArrays n).depth = n := by
  induction n with
  | zero => rfl
  | succ n ih =>
    rw [nestedArrays, depth, depthItems, depthItems, ih]
    omega

/-! ## Reading back -/

/-- How deep arrays and objects may nest for the parser. -/
def nestingLimit : ℕ := 127

mutual

/-- The bytes before the first bracket that nests more deeply than a limit, if there is one. -/
def refusedAt (limit : ℕ) : Json → Option ℕ
  | null => none
  | bool _ => none
  | num _ => none
  | str _ => none
  | arr items => if limit = 0 then some 0 else (refusedAtItems (limit - 1) items).map (1 + ·)
  | obj fields => if limit = 0 then some 0 else (refusedAtFields (limit - 1) fields).map (1 + ·)

/-- The bytes before that bracket among the items of an array. -/
def refusedAtItems (limit : ℕ) : List Json → Option ℕ
  | [] => none
  | item :: items => (refusedAt limit item).or
      ((refusedAtItems limit items).map (byteLength item + 1 + ·))

/-- The bytes before that bracket among the fields of an object. -/
def refusedAtFields (limit : ℕ) : List (String × Json) → Option ℕ
  | [] => none
  | (name, value) :: fields =>
    ((refusedAt limit value).or
      ((refusedAtFields limit fields).map (byteLength value + 1 + ·))).map
        ((quote name).utf8ByteSize + 1 + ·)

end

/-- What the parser makes of the compact text of a value: the value, or its message when a bracket
nests too deeply. -/
def readBack (value : Json) : Except String Json :=
  match refusedAt nestingLimit value with
  | none => .ok value
  | some offset =>
    .error ("recursion limit exceeded at line 1 column " ++ toString (offset + 1))

/-- No bracket nests more deeply than a limit exactly when the value does not. -/
theorem refusedAt_eq_none {value : Json} {limit : ℕ} :
    refusedAt limit value = none ↔ value.depth ≤ limit := by
  induction value using Json.induct generalizing limit with
  | hnull => simp [refusedAt, depth]
  | hbool => simp [refusedAt, depth]
  | hnum => simp [refusedAt, depth]
  | hstr => simp [refusedAt, depth]
  | harr items ih =>
    have hitems : ∀ limit, refusedAtItems limit items = none ↔ depthItems items ≤ limit := by
      intro limit
      induction items with
      | nil => simp [refusedAtItems, depthItems]
      | cons item items ihitems =>
        have hrest := ihitems fun item h => ih item (List.mem_cons_of_mem _ h)
        simp [refusedAtItems, depthItems, ih item List.mem_cons_self, hrest]
    cases limit with
    | zero => simp [refusedAt, depth]
    | succ limit => simp [refusedAt, depth, hitems]
  | hobj fields ih =>
    have hfields : ∀ limit, refusedAtFields limit fields = none ↔ depthFields fields ≤ limit := by
      intro limit
      induction fields with
      | nil => simp [refusedAtFields, depthFields]
      | cons field fields ihfields =>
        obtain ⟨name, value⟩ := field
        have hrest := ihfields fun field h => ih field (List.mem_cons_of_mem _ h)
        simp [refusedAtFields, depthFields, ih (name, value) List.mem_cons_self, hrest]
    cases limit with
    | zero => simp [refusedAt, depth]
    | succ limit => simp [refusedAt, depth, hfields]

/-- A value that nests no deeper than allowed is read back. -/
lemma readBack_of_depth_le {value : Json} (h : value.depth ≤ nestingLimit) :
    value.readBack = .ok value := by
  rw [readBack, refusedAt_eq_none.mpr h]

/-- A value that nests too deeply is refused. -/
lemma readBack_of_lt_depth {value : Json} (h : nestingLimit < value.depth) :
    ∃ message, value.readBack = .error message := by
  rw [readBack]
  cases hoffset : refusedAt nestingLimit value with
  | none => exact absurd (refusedAt_eq_none.mp hoffset) (Nat.not_le.mpr h)
  | some offset => exact ⟨_, rfl⟩

/-- What is read back is what was written. -/
lemma eq_of_readBack {value read : Json} (h : value.readBack = .ok read) :
    read = value ∧ value.depth ≤ nestingLimit := by
  by_cases hdepth : value.depth ≤ nestingLimit
  · rw [readBack_of_depth_le hdepth] at h
    exact ⟨(Except.ok.inj h).symm, hdepth⟩
  · obtain ⟨message, hmessage⟩ := readBack_of_lt_depth (Nat.not_le.mp hdepth)
    rw [hmessage] at h
    cases h

example : refusedAt 1 (obj [("a", int 10), ("b", arr [])]) = some 12 := by decide

/-! ## Numbers -/

/-- The literal of a number: digits, signs, points and exponents. -/
def IsNumeral (literal : String) : Prop :=
  literal ≠ "" ∧ ∀ c ∈ literal.toList, c.isDigit = true ∨ c ∈ ['+', '-', '.', 'e', 'E']

mutual

/-- The literals of the numbers of a value. -/
def literals : Json → List String
  | null => []
  | bool _ => []
  | num literal => [literal]
  | str _ => []
  | arr items => literalsItems items
  | obj fields => literalsFields fields

/-- The literals of the numbers of the items of an array. -/
def literalsItems : List Json → List String
  | [] => []
  | item :: items => literals item ++ literalsItems items

/-- The literals of the numbers of the fields of an object. -/
def literalsFields : List (String × Json) → List String
  | [] => []
  | (_, value) :: fields => literals value ++ literalsFields fields

end

mutual

/-- A value with its numbers read as others. -/
def mapNumbers (f : String → String) : Json → Json
  | null => null
  | bool value => bool value
  | num literal => num (f literal)
  | str value => str value
  | arr items => arr (mapNumbersItems f items)
  | obj fields => obj (mapNumbersFields f fields)

/-- The items of an array with their numbers read as others. -/
def mapNumbersItems (f : String → String) : List Json → List Json
  | [] => []
  | item :: items => mapNumbers f item :: mapNumbersItems f items

/-- The fields of an object with their numbers read as others. -/
def mapNumbersFields (f : String → String) : List (String × Json) → List (String × Json)
  | [] => []
  | (name, value) :: fields => (name, mapNumbers f value) :: mapNumbersFields f fields

end

/-- The numbers of a value are numerals. -/
def Numeric (value : Json) : Prop := ∀ literal ∈ value.literals, IsNumeral literal

/-- The literals of an item are among those of its array. -/
lemma mem_literals_item {items : List Json} {item : Json} (hitem : item ∈ items) {literal : String}
    (h : literal ∈ item.literals) : literal ∈ (arr items).literals := by
  rw [literals]
  induction items with
  | nil => cases hitem
  | cons first items ih =>
    rw [literalsItems]
    rcases List.mem_cons.mp hitem with rfl | hitem
    · exact List.mem_append_left _ h
    · exact List.mem_append_right _ (ih hitem)

/-- The literals of a field are among those of its object. -/
lemma mem_literals_field {fields : List (String × Json)} {field : String × Json}
    (hfield : field ∈ fields) {literal : String} (h : literal ∈ field.2.literals) :
    literal ∈ (obj fields).literals := by
  rw [literals]
  induction fields with
  | nil => cases hfield
  | cons first fields ih =>
    rw [literalsFields]
    rcases List.mem_cons.mp hfield with rfl | hfield
    · exact List.mem_append_left _ h
    · exact List.mem_append_right _ (ih hfield)

section MapNumbers

variable (f : String → String)

/-- The fields with their numbers read as others, one by one. -/
lemma mapNumbersFields_eq_map (fields : List (String × Json)) :
    mapNumbersFields f fields = fields.map fun field => (field.1, field.2.mapNumbers f) := by
  induction fields with
  | nil => rfl
  | cons field fields ih => rw [mapNumbersFields, ih, List.map_cons]

/-- The items with their numbers read as others, one by one. -/
lemma mapNumbersItems_eq_map (items : List Json) :
    mapNumbersItems f items = items.map (mapNumbers f) := by
  induction items with
  | nil => rfl
  | cons item items ih => rw [mapNumbersItems, ih, List.map_cons]

/-- A field is found whatever its numbers are read as. -/
@[simp] lemma get?_mapNumbers (value : Json) (name : String) :
    (value.mapNumbers f).get? name = (value.get? name).map (mapNumbers f) := by
  cases value with
  | obj fields =>
    rw [mapNumbers, get?, get?, mapNumbersFields_eq_map, List.find?_map, Option.map_map,
      Option.map_map]
    rfl
  | _ => rfl

/-- A string is one whatever the numbers are read as. -/
@[simp] lemma asStr?_mapNumbers (value : Json) : (value.mapNumbers f).asStr? = value.asStr? := by
  cases value <;> rfl

/-- The literals of a value whose numbers are read as others. -/
lemma literals_mapNumbers (value : Json) :
    (value.mapNumbers f).literals = value.literals.map f := by
  induction value using induct with
  | hnull => rfl
  | hbool value => rfl
  | hnum literal => rfl
  | hstr value => rfl
  | harr items ih =>
    rw [mapNumbers, literals, literals]
    induction items with
    | nil => rfl
    | cons item items ihItems =>
      rw [mapNumbersItems, literalsItems, literalsItems, ih item (List.mem_cons_self ..),
        ihItems fun item h => ih item (List.mem_cons_of_mem _ h), List.map_append]
  | hobj fields ih =>
    rw [mapNumbers, literals, literals]
    induction fields with
    | nil => rfl
    | cons field fields ihFields =>
      rw [mapNumbersFields, literalsFields, literalsFields, ih field (List.mem_cons_self ..),
        ihFields fun field h => ih field (List.mem_cons_of_mem _ h), List.map_append]

/-- A value whose numbers are read as they are written stays as it is. -/
lemma mapNumbers_eq_self {f : String → String} {value : Json}
    (h : ∀ literal ∈ value.literals, f literal = literal) : value.mapNumbers f = value := by
  induction value using induct with
  | hnull => rfl
  | hbool value => rfl
  | hnum literal => rw [mapNumbers, h literal (List.mem_singleton_self _)]
  | hstr value => rfl
  | harr items ih =>
    rw [mapNumbers, mapNumbersItems_eq_map, List.map_congr_left fun item hitem =>
      ih item hitem fun literal hliteral => h literal (mem_literals_item hitem hliteral),
      List.map_id']
  | hobj fields ih =>
    have hfields : ∀ field ∈ fields, (field.1, field.2.mapNumbers f) = field :=
      fun field hfield => Prod.ext rfl (ih field hfield fun literal hliteral =>
        h literal (mem_literals_field hfield hliteral))
    rw [mapNumbers, mapNumbersFields_eq_map, List.map_congr_left hfields, List.map_id']

/-- A value stays numeric when its numbers are read as numerals. -/
lemma Numeric.mapNumbers {f : String → String} (hf : ∀ literal, IsNumeral literal →
    IsNumeral (f literal)) {value : Json} (h : value.Numeric) : (value.mapNumbers f).Numeric := by
  intro literal hliteral
  rw [literals_mapNumbers] at hliteral
  obtain ⟨old, hold, rfl⟩ := List.mem_map.mp hliteral
  exact hf old (h old hold)

end MapNumbers

/-! ## One line -/

/-- An item of a numeric array is numeric. -/
lemma Numeric.item {items : List Json} (h : (arr items).Numeric) {item : Json}
    (hitem : item ∈ items) : item.Numeric :=
  fun literal hliteral => h literal (mem_literals_item hitem hliteral)

/-- A field of a numeric object is numeric. -/
lemma Numeric.field {fields : List (String × Json)} (h : (obj fields).Numeric)
    {field : String × Json} (hfield : field ∈ fields) : field.2.Numeric :=
  fun literal hliteral => h literal (mem_literals_field hfield hliteral)

/-- What is found in a numeric value is numeric. -/
lemma Numeric.get? {value found : Json} (h : value.Numeric) {name : String}
    (hfound : value.get? name = some found) : found.Numeric := by
  cases value with
  | obj fields =>
    obtain ⟨field, hfield, rfl⟩ := Option.map_eq_some_iff.mp hfound
    exact h.field (List.mem_of_find?_eq_some hfield)
  | _ => cases hfound

/-- A text without new lines. -/
def OneLine (text : String) : Prop := '\n' ∉ text.toList

/-- Whether a text has new lines can be checked. -/
instance (text : String) : Decidable (OneLine text) :=
  inferInstanceAs (Decidable ('\n' ∉ text.toList))

/-- Texts without new lines behind one another have none. -/
lemma OneLine.append {first second : String} (hfirst : OneLine first) (hsecond : OneLine second) :
    OneLine (first ++ second) := by
  rw [OneLine, String.toList_append, List.mem_append]
  exact fun h => h.elim hfirst hsecond

/-- Texts without new lines have none when they are joined. -/
lemma OneLine.join {texts : List String} (h : ∀ text ∈ texts, OneLine text) :
    OneLine (String.join texts) := by
  induction texts with
  | nil => exact List.not_mem_nil
  | cons text texts ih =>
    rw [String.join_cons]
    exact (h text (List.mem_cons_self ..)).append (ih fun t ht => h t (List.mem_cons_of_mem _ ht))

/-- Texts without new lines have none when they are separated by commas. -/
lemma OneLine.intercalate {texts : List String} (h : ∀ text ∈ texts, OneLine text) :
    OneLine (String.intercalate "," texts) := by
  induction texts with
  | nil => exact List.not_mem_nil
  | cons text texts ih =>
    have hrest := ih fun t ht => h t (List.mem_cons_of_mem _ ht)
    cases texts with
    | nil => exact h text (List.mem_cons_self ..)
    | cons next texts =>
      rw [String.intercalate_cons_cons]
      have hcomma : OneLine "," := by decide
      exact ((h text (List.mem_cons_self ..)).append hcomma).append hrest

/-- An escaped character has no new line. -/
lemma oneLine_escapeChar (c : Char) : OneLine (escapeChar c) := by
  rw [escapeChar]
  split
  · decide
  split
  · decide
  split
  · decide
  split
  · decide
  split
  · decide
  split
  · decide
  split
  · decide
  split
  · have hdigits : ∀ n < 32, '\n' ∉
        ['\\', 'u', '0', '0', Nat.digitChar (n / 16), Nat.digitChar (n % 16)] := by decide
    rw [OneLine, hexEscape, String.toList_ofList]
    exact hdigits c.toNat (by omega)
  · rename_i hnewline _ _ _
    rw [OneLine, Char.toString_eq_singleton, String.toList_singleton, List.mem_singleton]
    rintro rfl
    exact hnewline rfl

/-- A quoted string has no new line. -/
lemma oneLine_quote (value : String) : OneLine (quote value) := by
  have hmark : OneLine "\"" := by decide
  refine (hmark.append (OneLine.join fun text htext => ?_)).append hmark
  obtain ⟨c, -, rfl⟩ := List.mem_map.mp htext
  exact oneLine_escapeChar c

/-- The compact texts of items, one by one. -/
lemma compactItems_eq_map (items : List Json) : compactItems items = items.map compact := by
  induction items with
  | nil => rfl
  | cons item items ih => rw [compactItems, ih, List.map_cons]

/-- The compact texts of fields, one by one. -/
lemma compactFields_eq_map (fields : List (String × Json)) :
    compactFields fields = fields.map fun field => quote field.1 ++ ":" ++ compact field.2 := by
  induction fields with
  | nil => rfl
  | cons field fields ih => rw [compactFields, ih, List.map_cons]

/-- **A compact text is one line**. -/
theorem oneLine_compact {value : Json} (h : value.Numeric) : OneLine value.compact := by
  induction value using induct with
  | hnull => decide
  | hbool value => cases value <;> decide
  | hnum literal =>
    intro hmem
    rcases (h literal (List.mem_singleton_self _)).2 _ hmem with hdigit | hsign
    · exact absurd hdigit (by decide)
    · exact absurd hsign (by decide)
  | hstr value => exact oneLine_quote value
  | harr items ih =>
    have hopen : OneLine "[" := by decide
    have hclose : OneLine "]" := by decide
    rw [compact, compactItems_eq_map]
    refine (hopen.append (OneLine.intercalate fun text htext => ?_)).append hclose
    obtain ⟨item, hitem, rfl⟩ := List.mem_map.mp htext
    exact ih item hitem (h.item hitem)
  | hobj fields ih =>
    have hopen : OneLine "\x7b" := by decide
    have hclose : OneLine "\x7d" := by decide
    have hcolon : OneLine ":" := by decide
    rw [compact, compactFields_eq_map]
    refine (hopen.append (OneLine.intercalate fun text htext => ?_)).append hclose
    obtain ⟨field, hfield, rfl⟩ := List.mem_map.mp htext
    exact ((oneLine_quote field.1).append hcolon).append (ih field hfield (h.field hfield))

/-- The compact text of a numeric value is not a brace alone. -/
lemma utf8Bytes_compact_ne_brace {value : Json} (h : value.Numeric) :
    utf8Bytes value.compact ≠ [0x7B] := by
  have hbrace : utf8Bytes "\x7b" = [0x7B] := by decide
  rw [← hbrace]
  intro heq
  have htext := utf8Bytes_injective heq
  cases value with
  | null => exact absurd htext (by decide)
  | bool value => cases value <;> exact absurd htext (by decide)
  | num literal =>
    have hmem : '\x7b' ∈ literal.toList := by
      rw [show literal = "\x7b" from htext]
      decide
    rcases (h literal (List.mem_singleton_self _)).2 _ hmem with hdigit | hsign
    · exact absurd hdigit (by decide)
    · exact absurd hsign (by decide)
  | str value =>
    have hlength := le_quotedBytes value
    rw [quotedBytes, show quote value = "\x7b" from htext] at hlength
    have hone : "\x7b".utf8ByteSize = 1 := rfl
    omega
  | arr items =>
    have hlength := byteLength_arr items
    rw [byteLength, htext] at hlength
    have hone : "\x7b".utf8ByteSize = 1 := rfl
    omega
  | obj fields =>
    have hlength := byteLength_obj fields
    rw [byteLength, htext] at hlength
    have hone : "\x7b".utf8ByteSize = 1 := rfl
    omega

/-- **An object has a longer text** than what is found in it. -/
theorem byteLength_lt_of_get? {value found : Json} {name : String}
    (h : value.get? name = some found) : found.byteLength < value.byteLength := by
  cases value with
  | obj fields =>
    obtain ⟨field, hfield, rfl⟩ := Option.map_eq_some_iff.mp h
    have hmem := List.mem_of_find?_eq_some hfield
    have hle : fieldBytes field ≤ (fields.map fieldBytes).sum :=
      List.single_le_sum (fun _ _ => Nat.zero_le _) _ (List.mem_map_of_mem hmem)
    rw [byteLength_obj]
    rw [fieldBytes] at hle
    omega
  | _ => cases h

end Json

end Comsat
