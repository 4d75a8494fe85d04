import Comsat.Types.Decode
import Mathlib

set_option relaxedAutoImplicit false
set_option autoImplicit false

/-!
# The size of JSON texts

How many bytes the compact text of a value takes, from the sizes of its parts, and how many bytes a
record takes that was read from a value.

## Main definitions

* `Json.quotedBytes`, `Json.fieldBytes` — the bytes of a quoted text and of a field.
* `Record.valueBytes` — the bytes of the values of the fields of a record.

## Main results

* `Json.byteLength_arr`, `Json.byteLength_obj` — the bytes of an array and of an object.
* `Json.le_quotedBytes` — quoting a text adds two bytes at least.
* `Record.byteLength_toJson` — the bytes of a record.
* `Record.byteLength_le_of_fromValue` — a record takes at most 88 bytes more than the value it was
  read from: the names of the fields, which an array leaves out.
-/

namespace Comsat

namespace Json

/-! ## Texts -/

/-- The bytes of a character inside a quoted text. -/
def escapedBytes (c : Char) : ℕ := (escapeChar c).utf8ByteSize

/-- The bytes of a quoted text. -/
def quotedBytes (value : String) : ℕ := (quote value).utf8ByteSize

/-- A character does not get shorter when it is escaped, and at most six times as long. -/
lemma escapedBytes_bounds (c : Char) :
    c.utf8Size ≤ escapedBytes c ∧ escapedBytes c ≤ 6 * c.utf8Size := by
  have hascii : ∀ n, c.toNat = n → n ≤ 127 → c.utf8Size = 1 := fun n hn hle =>
    Char.utf8Size_eq_one_iff.mpr (show c.toNat ≤ 127 by omega)
  -- the characters with an escape of their own, then the other control characters
  by_cases hquote : c = '"'
  · rw [hquote]
    decide
  by_cases hbackslash : c = '\\'
  · rw [hbackslash]
    decide
  rw [escapedBytes, escapeChar, if_neg hquote, if_neg hbackslash]
  split
  · rw [hascii 8 ‹_› (by decide)]
    decide
  split
  · rw [hascii 9 ‹_› (by decide)]
    decide
  split
  · rw [hascii 10 ‹_› (by decide)]
    decide
  split
  · rw [hascii 12 ‹_› (by decide)]
    decide
  split
  · rw [hascii 13 ‹_› (by decide)]
    decide
  split
  · rename_i hcontrol
    have hdigit : ∀ n < 16, (Nat.digitChar n).utf8Size = 1 := by decide
    have hlow := hdigit (c.toNat % 16) (by omega)
    have hhigh := hdigit (c.toNat / 16) (by omega)
    have hsize : (hexEscape c).utf8ByteSize = 6 := by
      rw [hexEscape, String.utf8ByteSize_ofList]
      simp only [String.utf8Len_cons, String.utf8Len_nil, hlow, hhigh]
      decide
    rw [hascii _ rfl (by omega), hsize]
    decide
  · rw [Char.toString_eq_singleton, String.utf8ByteSize_singleton]
    omega

/-- The bytes of the escaped characters, and two quotes. -/
lemma quotedBytes_eq (value : String) :
    quotedBytes value = (value.toList.map escapedBytes).sum + 2 := by
  have hjoin : ∀ texts : List String,
      (String.join texts).utf8ByteSize = (texts.map String.utf8ByteSize).sum := by
    intro texts
    induction texts with
    | nil => rfl
    | cons text texts ih =>
      rw [String.join_cons, String.utf8ByteSize_append, ih, List.map_cons, List.sum_cons]
  have hone : "\"".utf8ByteSize = 1 := rfl
  rw [quotedBytes, quote, String.utf8ByteSize_append, String.utf8ByteSize_append, hjoin,
    List.map_map, hone]
  change 1 + (value.toList.map escapedBytes).sum + 1 = _
  omega

/-- **Quoting** a text adds two bytes at least. -/
theorem le_quotedBytes (value : String) : value.utf8ByteSize + 2 ≤ quotedBytes value := by
  rw [quotedBytes_eq, Text.utf8ByteSize_eq_sum]
  have hsum := List.sum_le_sum (l := value.toList) fun c _ => (escapedBytes_bounds c).1
  omega

/-- Quoting a text makes it at most six times as long, and adds two quotes. -/
lemma quotedBytes_le (value : String) : quotedBytes value ≤ 6 * value.utf8ByteSize + 2 := by
  rw [quotedBytes_eq, Text.utf8ByteSize_eq_sum]
  have hsum := List.sum_le_sum (l := value.toList) fun c _ => (escapedBytes_bounds c).2
  rw [List.sum_map_mul_left] at hsum
  omega

/-! ## Values -/

/-- The bytes of a field. -/
def fieldBytes (field : String × Json) : ℕ := quotedBytes field.1 + 1 + field.2.byteLength

/-- Texts with commas between them. -/
lemma utf8ByteSize_intercalate_comma (texts : List String) :
    (String.intercalate "," texts).utf8ByteSize =
      (texts.map String.utf8ByteSize).sum + (texts.length - 1) := by
  have hcomma : ",".utf8ByteSize = 1 := rfl
  rw [Text.utf8ByteSize_intercalate, hcomma, Nat.mul_one]

/-- The bytes of a text. -/
@[simp] lemma byteLength_str (value : String) : (str value).byteLength = quotedBytes value := by
  rw [byteLength, compact]
  rfl

/-- A natural number takes as many bytes as it has digits. -/
lemma utf8ByteSize_repr_le {m digits : ℕ} (hdigits : 0 < digits) (hm : m < 10 ^ digits) :
    m.repr.utf8ByteSize ≤ digits := by
  have hascii : Text.IsAscii m.repr := fun c hc => by
    have hdigit := Text.isDigit_of_mem_nat_toString (Nat.toString_eq_repr ▸ hc)
    simp only [Char.isDigit, Bool.and_eq_true, decide_eq_true_eq] at hdigit
    have hle : c.val.toNat ≤ 57 := hdigit.2
    exact hle.trans (by decide)
  rw [hascii.utf8ByteSize]
  exact (Nat.length_repr_le_iff hdigits).mpr hm

/-- An integer of 64 bits takes at most twenty bytes. -/
lemma byteLength_int_le {n : ℤ} (hlow : -2 ^ 63 ≤ n) (hhigh : n ≤ 2 ^ 63) :
    (int n).byteLength ≤ 20 := by
  have hdigits : ∀ m : ℕ, m ≤ 2 ^ 63 → m.repr.utf8ByteSize ≤ 19 := fun m hm =>
    utf8ByteSize_repr_le (by decide) (by omega)
  change (toString n).utf8ByteSize ≤ 20
  rw [Int.toString_eq_repr, Int.repr_eq_if]
  split
  · have := hdigits n.toNat (by omega)
    omega
  · have := hdigits (-n).toNat (by omega)
    have hsign : "-".utf8ByteSize = 1 := rfl
    rw [String.utf8ByteSize_append, hsign]
    omega

/-- The bytes of an array. -/
theorem byteLength_arr (items : List Json) :
    (arr items).byteLength = (items.map byteLength).sum + (items.length - 1) + 2 := by
  have hitems : compactItems items = items.map compact := by
    induction items with
    | nil => rfl
    | cons item items ih => rw [compactItems, ih, List.map_cons]
  have hopen : "[".utf8ByteSize = 1 := rfl
  have hclose : "]".utf8ByteSize = 1 := rfl
  rw [byteLength, compact, String.utf8ByteSize_append, String.utf8ByteSize_append,
    utf8ByteSize_intercalate_comma, hitems, List.map_map, List.length_map, hopen, hclose]
  change 1 + ((items.map byteLength).sum + _) + 1 = _
  omega

/-- The bytes of an object. -/
theorem byteLength_obj (fields : List (String × Json)) :
    (obj fields).byteLength = (fields.map fieldBytes).sum + (fields.length - 1) + 2 := by
  have hcolon : ":".utf8ByteSize = 1 := rfl
  have hfields : (compactFields fields).map String.utf8ByteSize = fields.map fieldBytes := by
    induction fields with
    | nil => rfl
    | cons field fields ih =>
      rw [compactFields, List.map_cons, List.map_cons, ih, String.utf8ByteSize_append,
        String.utf8ByteSize_append, hcolon]
      rfl
  have hlength : (compactFields fields).length = fields.length := by
    rw [← List.length_map (f := String.utf8ByteSize), hfields, List.length_map]
  have hopen : "\x7b".utf8ByteSize = 1 := rfl
  have hclose : "\x7d".utf8ByteSize = 1 := rfl
  rw [byteLength, compact, String.utf8ByteSize_append, String.utf8ByteSize_append,
    utf8ByteSize_intercalate_comma, hfields, hlength, hopen, hclose]
  omega

/-- The bytes of an object with a field, one more for each field. -/
lemma byteLength_obj_of_ne_nil {fields : List (String × Json)} (h : fields ≠ []) :
    (obj fields).byteLength = (fields.map fun field => fieldBytes field + 1).sum + 1 := by
  have hpos := List.length_pos_of_ne_nil h
  rw [byteLength_obj, List.sum_map_add, List.map_const', List.sum_replicate_nat]
  omega

/-- The fields that are found under distinct names are among the fields of the object. -/
lemma sum_found_le (fields : List (String × Json)) {names : List String} (hnames : names.Nodup) :
    (names.map fun name =>
        (((fields.find? fun field => field.1 = name).map fieldBytes).map (· + 1)).getD 0).sum ≤
      (fields.map fun field => fieldBytes field + 1).sum := by
  induction fields with
  | nil => simp
  | cons field fields ih =>
    -- only one of the names is that of the first field
    have hone : ∀ (c : ℕ) (names : List String), names.Nodup →
        (names.map fun name => if field.1 = name then c else 0).sum ≤ c := by
      intro c names hnodup
      induction names with
      | nil => simp
      | cons name names ih =>
        obtain ⟨hfresh, hnodup⟩ := List.nodup_cons.mp hnodup
        rw [List.map_cons, List.sum_cons]
        by_cases hname : field.1 = name
        · have hrest : (names.map fun name => if field.1 = name then c else 0) =
              names.map fun _ => 0 :=
            List.map_congr_left fun other hother =>
              if_neg fun hsame : field.1 = other => hfresh (hname ▸ hsame ▸ hother)
          rw [if_pos hname, hrest]
          simp
        · rw [if_neg hname, Nat.zero_add]
          exact ih hnodup
    have hfound : ∀ name,
        ((((field :: fields).find? fun f => f.1 = name).map fieldBytes).map (· + 1)).getD 0 ≤
          (if field.1 = name then fieldBytes field + 1 else 0) +
            (((fields.find? fun f => f.1 = name).map fieldBytes).map (· + 1)).getD 0 := by
      intro name
      by_cases hname : field.1 = name
      · rw [List.find?_cons_of_pos (by simpa using hname), if_pos hname]
        simp
      · rw [List.find?_cons_of_neg (by simpa using hname), if_neg hname]
        simp
    calc _ ≤ _ := List.sum_le_sum fun name _ => hfound name
      _ = _ := List.sum_map_add
      _ ≤ _ := Nat.add_le_add (hone _ names hnames) ih
      _ = _ := by rw [List.map_cons, List.sum_cons]

end Json

/-! ## Records -/

namespace Record

open Json

/-- The bytes of the values of the fields. -/
def valueBytes (record : Record) : ℕ :=
  quotedBytes record.id.value + quotedBytes record.source.value + quotedBytes record.kind +
    quotedBytes record.url + (optStr record.title).byteLength + (optStr record.text).byteLength +
    (optStr record.author).byteLength + (optStr record.createdAt).byteLength +
    (optStr record.updatedAt).byteLength + record.metadata.byteLength

/-- The bytes of a field with a name. -/
lemma fieldBytes_mk (name : String) (value : Json) :
    fieldBytes (name, value) = quotedBytes name + 1 + value.byteLength := rfl

/-- The bytes of the names of the fields. -/
lemma quotedBytes_names :
    quotedBytes "id" = 4 ∧ quotedBytes "source" = 8 ∧ quotedBytes "kind" = 6 ∧
    quotedBytes "url" = 5 ∧ quotedBytes "title" = 7 ∧ quotedBytes "text" = 6 ∧
    quotedBytes "author" = 8 ∧ quotedBytes "created_at" = 12 ∧
    quotedBytes "updated_at" = 12 ∧ quotedBytes "metadata" = 10 := by
  decide

/-- **The bytes of a record**: its values, the names of its fields and what separates them. -/
theorem byteLength_toJson (record : Record) : record.toJson.byteLength = record.valueBytes + 99 := by
  obtain ⟨h₁, h₂, h₃, h₄, h₅, h₆, h₇, h₈, h₉, h₁₀⟩ := quotedBytes_names
  rw [toJson, byteLength_obj]
  simp only [List.map_cons, List.map_nil, List.sum_cons, List.sum_nil, List.length_cons,
    List.length_nil, fieldBytes_mk, h₁, h₂, h₃, h₄, h₅, h₆, h₇, h₈, h₉, h₁₀, byteLength_str]
  rw [valueBytes]
  omega

/-! ## Records that are read -/

/-- A value that an optional text is read from, or nothing. -/
lemma decodeOptString_eq_some {field : Option Json} {value : Option String}
    (h : decodeOptString field = some value) :
    (field = none ∧ value = none) ∨ field = some (optStr value) := by
  match field, h with
  | none, h => exact .inl ⟨rfl, (Option.some.inj h).symm⟩
  | some .null, h => exact .inr (by rw [← Option.some.inj h]; rfl)
  | some (.str text), h => exact .inr (by rw [← Option.some.inj h]; rfl)

/-- A value that a text is read from. -/
lemma decodeString_eq_some {field : Option Json} {value : String}
    (h : decodeString field = some value) : field = some (.str value) := by
  match field, h with
  | some (.str text), h => rw [Option.some.inj h]

/-- A value that an identifier of a record is read from. -/
lemma fromField_id {field : Option Json} {id : RecordId} (h : RecordId.fromField field = some id) :
    field = some (.str id.value) := by
  obtain ⟨value, hvalue, hid⟩ := Option.bind_eq_some_iff.mp h
  rw [decodeString_eq_some hvalue]
  rw [RecordId.new] at hid
  split at hid
  · obtain rfl := Option.some.inj hid
    rfl
  · cases hid

/-- A value that an identifier of a source is read from. -/
lemma fromField_source {field : Option Json} {source : SourceId}
    (h : SourceId.fromField field = some source) : field = some (.str source.value) := by
  obtain ⟨value, hvalue, hid⟩ := Option.bind_eq_some_iff.mp h
  rw [decodeString_eq_some hvalue]
  rw [SourceId.new] at hid
  split at hid
  · obtain rfl := Option.some.inj hid
    rfl
  · cases hid

/-- What is found under the names of the fields of a record, where an optional text may be
missing. -/
structure ReadFrom (record : Record) (id source kind url title text author createdAt updatedAt
    metadata : Option Json) : Prop where
  id : id = some (.str record.id.value)
  source : source = some (.str record.source.value)
  kind : kind = some (.str record.kind)
  url : url = some (.str record.url)
  title : title = none ∧ record.title = none ∨ title = some (optStr record.title)
  text : text = none ∧ record.text = none ∨ text = some (optStr record.text)
  author : author = none ∧ record.author = none ∨ author = some (optStr record.author)
  createdAt : createdAt = none ∧ record.createdAt = none ∨ createdAt = some (optStr record.createdAt)
  updatedAt : updatedAt = none ∧ record.updatedAt = none ∨ updatedAt = some (optStr record.updatedAt)
  metadata : metadata = some record.metadata

/-- The values of the fields that a record is read from. -/
lemma readFrom_of_fromFields {record : Record} {id source kind url title text author createdAt
    updatedAt metadata : Option Json}
    (h : fromFields id source kind url title text author createdAt updatedAt metadata =
      some record) :
    ReadFrom record id source kind url title text author createdAt updatedAt metadata := by
  simp only [fromFields, Option.bind_eq_bind, Option.bind_eq_some_iff, Option.pure_def,
    Option.some.injEq] at h
  obtain ⟨_, hid, _, hsource, _, hkind, _, hurl, _, htitle, _, htext, _, hauthor, _, hcreated, _,
    hupdated, _, hmetadata, rfl⟩ := h
  exact ⟨fromField_id hid, fromField_source hsource, decodeString_eq_some hkind,
    decodeString_eq_some hurl, decodeOptString_eq_some htitle, decodeOptString_eq_some htext,
    decodeOptString_eq_some hauthor, decodeOptString_eq_some hcreated,
    decodeOptString_eq_some hupdated, hmetadata⟩

/-- The bytes of the field that is found under a name, and of a comma. -/
def foundBytes (fields : List (String × Json)) (name : String) : ℕ :=
  (((fields.find? fun field => field.1 = name).map fieldBytes).map (· + 1)).getD 0

/-- The bytes of a field that is found. -/
lemma foundBytes_eq {fields : List (String × Json)} {name : String} {value : Json}
    (h : (Json.obj fields).get? name = some value) :
    foundBytes fields name = quotedBytes name + value.byteLength + 2 := by
  obtain ⟨field, hfield, rfl⟩ := Option.map_eq_some_iff.mp h
  have hname : field.1 = name := by simpa using List.find?_some hfield
  rw [foundBytes, hfield]
  change quotedBytes field.1 + 1 + field.2.byteLength + 1 = _
  rw [hname]
  omega

/-- The bytes of an optional text that may be missing: without it, its name and `null` are added. -/
lemma le_foundBytes {fields : List (String × Json)} {name : String} {value : Option String}
    (h : (Json.obj fields).get? name = none ∧ value = none ∨
      (Json.obj fields).get? name = some (optStr value)) :
    quotedBytes name + (optStr value).byteLength + 2 ≤
      foundBytes fields name + (quotedBytes name + 6) := by
  rcases h with ⟨-, rfl⟩ | h
  · have hnull : (optStr none).byteLength = 4 := rfl
    omega
  · rw [foundBytes_eq h]
    omega

/-- **What a record takes**: at most 88 bytes more than the value that it was read from.

**Proof sketch.** An object has the fields of the record, except for optional texts that are missing;
these are written as `null`, with their names. An array has the values only; the names of the fields
take 88 bytes. -/
theorem byteLength_le_of_fromValue {data : Json} {record : Record}
    (h : fromValue data = some record) : record.toJson.byteLength ≤ data.byteLength + 88 := by
  rw [byteLength_toJson, valueBytes]
  unfold fromValue at h
  split at h
  · rename_i fields
    obtain ⟨hid, hsource, hkind, hurl, htitle, htext, hauthor, hcreated, hupdated, hmetadata⟩ :=
      readFrom_of_fromFields h
    have hnonempty : fields ≠ [] := by
      rintro rfl
      cases hid
    have hsum : ((["id", "source", "kind", "url", "title", "text", "author", "created_at",
        "updated_at", "metadata"].map (foundBytes fields)).sum ≤
          (fields.map fun field => fieldBytes field + 1).sum) :=
      sum_found_le fields (by decide)
    simp only [List.map_cons, List.map_nil, List.sum_cons, List.sum_nil] at hsum
    have hnames := quotedBytes_names
    have hid := foundBytes_eq hid
    have hsource := foundBytes_eq hsource
    have hkind := foundBytes_eq hkind
    have hurl := foundBytes_eq hurl
    have hmetadata := foundBytes_eq hmetadata
    have htitle := le_foundBytes htitle
    have htext := le_foundBytes htext
    have hauthor := le_foundBytes hauthor
    have hcreated := le_foundBytes hcreated
    have hupdated := le_foundBytes hupdated
    rw [byteLength_str] at hid hsource hkind hurl
    rw [byteLength_obj_of_ne_nil hnonempty]
    omega
  · obtain ⟨hid, hsource, hkind, hurl, htitle, htext, hauthor, hcreated, hupdated, hmetadata⟩ :=
      readFrom_of_fromFields h
    have hvalue : ∀ {field : Json} {value : Option String},
        (some field = none ∧ value = none ∨ some field = some (optStr value)) →
          field = optStr value := by
      rintro field value (⟨hnone, -⟩ | hsome)
      · cases hnone
      · exact Option.some.inj hsome
    rw [Option.some.inj hid, Option.some.inj hsource, Option.some.inj hkind, Option.some.inj hurl,
      hvalue htitle, hvalue htext, hvalue hauthor, hvalue hcreated, hvalue hupdated,
      Option.some.inj hmetadata, byteLength_arr]
    simp only [List.map_cons, List.map_nil, List.sum_cons, List.sum_nil, List.length_cons,
      List.length_nil, byteLength_str]
    omega
  · cases h

end Record

end Comsat
