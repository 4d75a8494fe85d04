import Mathlib

set_option relaxedAutoImplicit false
set_option autoImplicit false

/-!
# Sorted maps

A map is the list of its entries in the order of their keys. Everything here is over arbitrary types
of keys and values.

## Main definitions

* `SortedMap` — a map, whose keys increase.
* `SortedMap.insert`, `SortedMap.ofList`, `SortedMap.get?` — its operations.

## Main results

* `SortedMap.get?_eq_some_iff` — looking a key up finds its entry.
* `SortedMap.get?_insert` — an insertion changes what is found for its own key only.
-/

/-- A map: its entries, in the order of their keys. -/
structure SortedMap (κ υ : Type*) [LinearOrder κ] where
  entries : List (κ × υ)
  sorted : (entries.map Prod.fst).Pairwise (· < ·)

namespace SortedMap

variable {κ υ : Type*} [LinearOrder κ]

/-! ## Inserting -/

/-- Inserts an entry into a list of entries, or puts it in the place of the one with its key. -/
def insertEntry (k : κ) (v : υ) : List (κ × υ) → List (κ × υ)
  | [] => [(k, v)]
  | entry :: rest =>
    if k < entry.1 then (k, v) :: entry :: rest
    else if k = entry.1 then (k, v) :: rest
    else entry :: insertEntry k v rest

/-- The keys after an insertion. -/
lemma mem_keys_insertEntry {k k' : κ} {v : υ} {entries : List (κ × υ)}
    (h : k' ∈ (insertEntry k v entries).map Prod.fst) : k' = k ∨ k' ∈ entries.map Prod.fst := by
  induction entries with
  | nil => exact .inl (List.mem_singleton.mp h)
  | cons entry rest ih =>
    rw [insertEntry] at h
    split at h
    · exact List.mem_cons.mp h
    split at h
    · exact (List.mem_cons.mp h).imp_right fun hmem => List.mem_cons_of_mem _ hmem
    · obtain rfl | hmem := List.mem_cons.mp h
      · exact .inr List.mem_cons_self
      · exact (ih hmem).imp_right fun hmem => List.mem_cons_of_mem _ hmem

/-- The keys still increase after an insertion. -/
lemma sorted_insertEntry (k : κ) (v : υ) {entries : List (κ × υ)}
    (h : (entries.map Prod.fst).Pairwise (· < ·)) :
    ((insertEntry k v entries).map Prod.fst).Pairwise (· < ·) := by
  induction entries with
  | nil => exact List.pairwise_singleton _ _
  | cons entry rest ih =>
    obtain ⟨hfirst, hrest⟩ := List.pairwise_cons.mp h
    rw [insertEntry]
    split
    · next hlt =>
      refine List.pairwise_cons.mpr ⟨fun k' hk' => ?_, h⟩
      obtain rfl | hmem := List.mem_cons.mp hk'
      · exact hlt
      · exact hlt.trans (hfirst k' hmem)
    split
    · next heq =>
      subst heq
      exact List.pairwise_cons.mpr ⟨hfirst, hrest⟩
    · next hlt hne =>
      refine List.pairwise_cons.mpr ⟨fun k' hk' => ?_, ih hrest⟩
      obtain rfl | hmem := mem_keys_insertEntry hk'
      · exact lt_of_le_of_ne (not_lt.mp hlt) (Ne.symm hne)
      · exact hfirst k' hmem

/-- Looking a key up in a list of entries. -/
def find? (entries : List (κ × υ)) (k : κ) : Option υ :=
  (entries.find? fun entry => entry.1 = k).map Prod.snd

/-- Looking a key up after an insertion. -/
lemma find?_insertEntry (k : κ) (v : υ) (entries : List (κ × υ)) (k' : κ) :
    find? (insertEntry k v entries) k' = if k' = k then some v else find? entries k' := by
  induction entries with
  | nil =>
    by_cases hk : k' = k
    · subst hk
      simp [find?, insertEntry]
    · simp [find?, insertEntry, hk, Ne.symm hk]
  | cons entry rest ih =>
    rw [insertEntry]
    split
    · by_cases hk : k' = k
      · subst hk
        simp [find?]
      · simp [find?, hk, Ne.symm hk]
    split
    · next heq =>
      by_cases hk : k' = k
      · subst hk
        simp [find?]
      · have hne : ¬entry.1 = k' := fun h => hk (h.symm.trans heq.symm)
        simp [find?, hk, Ne.symm hk, hne]
    · next hne =>
      by_cases hentry : entry.1 = k'
      · have hk : ¬k' = k := fun h => hne (h.symm.trans hentry.symm)
        simp [find?, hentry, hk]
      · simpa [find?, hentry] using ih

/-! ## Maps -/

/-- No entries. -/
def empty : SortedMap κ υ := ⟨[], List.Pairwise.nil⟩

/-- Inserts an entry. -/
def insert (map : SortedMap κ υ) (k : κ) (v : υ) : SortedMap κ υ :=
  ⟨insertEntry k v map.entries, sorted_insertEntry k v map.sorted⟩

/-- Inserts entries one after the other. -/
def ofList (entries : List (κ × υ)) : SortedMap κ υ :=
  entries.foldl (fun map entry => map.insert entry.1 entry.2) empty

/-- Looks a key up. -/
def get? (map : SortedMap κ υ) (k : κ) : Option υ := find? map.entries k

/-- The keys. -/
def keys (map : SortedMap κ υ) : List κ := map.entries.map Prod.fst

/-- The values that occur, in their order. -/
def valueSet [LinearOrder υ] (map : SortedMap κ υ) : List υ :=
  (map.entries.map Prod.snd).toFinset.sort

variable (map : SortedMap κ υ)

/-- No key occurs twice. -/
lemma nodup_keys : map.keys.Nodup := map.sorted.imp fun h => ne_of_lt h

/-- **Lookup**: looking a key up finds its entry. -/
theorem get?_eq_some_iff {k : κ} {v : υ} : map.get? k = some v ↔ (k, v) ∈ map.entries := by
  constructor
  · intro h
    obtain ⟨entry, hentry, rfl⟩ := Option.map_eq_some_iff.mp h
    obtain rfl : entry.1 = k := of_decide_eq_true (List.find?_some (p := fun e : κ × υ => e.1 = k) hentry)
    exact List.mem_of_find?_eq_some hentry
  · intro h
    have hsome : ((map.entries.find? fun entry => entry.1 = k)).isSome = true :=
      List.find?_isSome.mpr ⟨(k, v), h, decide_eq_true rfl⟩
    obtain ⟨entry, hentry⟩ := Option.isSome_iff_exists.mp hsome
    have hkey : entry.1 = k := of_decide_eq_true (List.find?_some (p := fun e : κ × υ => e.1 = k) hentry)
    have heq : entry = (k, v) :=
      List.inj_on_of_nodup_map map.nodup_keys (List.mem_of_find?_eq_some hentry) h hkey
    rw [get?, find?, hentry, heq]
    rfl

/-- **Looking a key up after an insertion.** -/
@[simp] theorem get?_insert (k : κ) (v : υ) (k' : κ) :
    (map.insert k v).get? k' = if k' = k then some v else map.get? k' :=
  find?_insertEntry k v map.entries k'

/-- The values increase. -/
lemma pairwise_valueSet [LinearOrder υ] : map.valueSet.Pairwise (· < ·) :=
  (Finset.sortedLT_sort _).pairwise

/-- The values that occur. -/
lemma mem_valueSet [LinearOrder υ] {v : υ} : v ∈ map.valueSet ↔ ∃ k, map.get? k = some v := by
  simp only [valueSet, Finset.mem_sort, List.mem_toFinset, List.mem_map, Prod.exists,
    exists_eq_right, get?_eq_some_iff]

end SortedMap
