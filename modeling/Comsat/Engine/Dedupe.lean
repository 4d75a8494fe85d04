import Comsat.Types.Record
import Mathlib

set_option relaxedAutoImplicit false
set_option autoImplicit false

/-!
# Dropping records seen before

A record is dropped when one of its keys was seen on an earlier record: its identity, its URL, or
an identifier the source itself gave to it.

## Main definitions

* `dedupeKeys` — the keys of a record.
* `DedupeSet`, `DedupeSet.insert` — the keys seen so far, and the test that adds the keys of a
  record unless one of them was seen.

## Main results

* `DedupeSet.insert_fst`, `DedupeSet.insert_snd` — what the test answers and what it adds.
-/

namespace Comsat

/-- The text of a field of the metadata. -/
def metadataString (metadata : Json) (key : String) : Option String :=
  (metadata.get? key).bind Json.asStr?

/-- The key of an identifier that the source itself gave to a record. -/
def nativeKey (record : Record) (nativeId : String) : String :=
  "native:" ++ record.source.value ++ ":" ++ nativeId

/-- The keys of a record. -/
def dedupeKeys (record : Record) : List String :=
  ["source:" ++ record.source.value ++ ":" ++ record.id.value, "url:" ++ record.url] ++
    ((metadataString record.metadata "native_id").map (nativeKey record)).toList ++
    ((metadataString record.metadata "id").map (nativeKey record)).toList

/-- Two records share a key. -/
def SharesKey (a b : Record) : Prop := ∃ key ∈ dedupeKeys a, key ∈ dedupeKeys b

/-- The keys seen so far. -/
structure DedupeSet where
  seen : Finset String
deriving DecidableEq

namespace DedupeSet

/-- No key was seen yet. -/
def empty : DedupeSet := ⟨∅⟩

/-- Whether a record is new, and the keys seen after it. -/
def insert (set : DedupeSet) (record : Record) : Bool × DedupeSet :=
  if (dedupeKeys record).any fun key => key ∈ set.seen then (false, set)
  else (true, ⟨set.seen ∪ (dedupeKeys record).toFinset⟩)

/-- A record is new when none of its keys was seen. -/
lemma insert_fst (set : DedupeSet) (record : Record) :
    (set.insert record).1 = true ↔ ∀ key ∈ dedupeKeys record, key ∉ set.seen := by
  simp only [insert]
  split
  · rename_i h
    simpa using h
  · rename_i h
    simpa using h

/-- The keys seen after a record are those seen before, and its own when it is new. -/
lemma insert_snd (set : DedupeSet) (record : Record) (key : String) :
    key ∈ (set.insert record).2.seen ↔
      key ∈ set.seen ∨ (set.insert record).1 = true ∧ key ∈ dedupeKeys record := by
  simp only [insert]
  split <;> simp

end DedupeSet

end Comsat
