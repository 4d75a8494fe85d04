import Mathlib

set_option relaxedAutoImplicit false
set_option autoImplicit false

/-!
# Keyed tables as lists of rows

The statements of a relational store, on tables that are lists of rows in the order of their
insertion. A key is any function of the rows; a table keeps it unique when its image has no
duplicates. Everything here is over arbitrary rows and keys.

## Main definitions

* `Table.update`, `Table.delete` — `UPDATE` and `DELETE` of the rows under a condition.
* `Table.insertIgnore`, `Table.insertAllIgnore` — `INSERT ... ON CONFLICT DO NOTHING`, of one
  row and of a list of rows.
* `Table.upsert` — `INSERT ... ON CONFLICT DO UPDATE`.
* `Table.mergeFrom` — what `UPDATE ... SET` makes of a row that has a counterpart elsewhere.
* `Table.orderBy`, `Table.groupBy` — `ORDER BY` and `GROUP BY` a key.

## Main results

* `Table.nodup_update`, `Table.nodup_insertAllIgnore`, `Table.nodup_upsert` — unique keys stay
  unique.
* `Table.filter_update`, `Table.filter_insertAllIgnore`, `Table.filter_upsert` — a statement
  restricted to some rows of a table is the same statement on the table restricted to them.
* `Table.upsertAll_eq` — upserting rows with distinct keys one by one is inserting the new ones
  and then updating every row that has a counterpart among them.
* `Table.mem_upsertAll_nil` — replaying a log of rows, from the first and the last row of a key.
* `Table.head?_orderBy_eq_some`, `Table.orderBy_filter` — the first row in an order, and the order
  of the rows that are selected.
* `Table.related_update`, `Table.related_insertIgnore`, `Table.related_orderBy` — statements keep
  two tables related row by row.
-/

namespace Table

variable {ρ κ : Type*}

/-! ## Statements -/

/-- `UPDATE ... SET f WHERE p`. -/
def update (p : ρ → Bool) (f : ρ → ρ) (table : List ρ) : List ρ :=
  table.map fun row => if p row then f row else row

/-- `DELETE ... WHERE p`. -/
def delete (p : ρ → Bool) (table : List ρ) : List ρ := table.filter fun row => !p row

section Keyed

variable [DecidableEq κ] (key : ρ → κ)

/-- Whether a row with the key of `row` is there. -/
def exists? (table : List ρ) (row : ρ) : Bool := table.any fun r => key r = key row

/-- `INSERT ... ON CONFLICT (key) DO NOTHING` of one row. -/
def insertIgnore (table : List ρ) (row : ρ) : List ρ :=
  if exists? key table row then table else table ++ [row]

/-- `INSERT ... SELECT ... ON CONFLICT (key) DO NOTHING`. -/
def insertAllIgnore (table : List ρ) (rows : List ρ) : List ρ :=
  rows.foldl (insertIgnore key) table

/-- `INSERT ... ON CONFLICT (key) DO UPDATE SET`, where `merge old new` is the updated row. -/
def upsert (merge : ρ → ρ → ρ) (table : List ρ) (row : ρ) : List ρ :=
  if exists? key table row then update (fun r => key r = key row) (fun r => merge r row) table
  else table ++ [row]

end Keyed

/-- What a row becomes when it is updated from its counterpart among `rows`, if any. -/
def mergeFrom [DecidableEq κ] (key : ρ → κ) (merge : ρ → ρ → ρ) (rows : List ρ) (row : ρ) : ρ :=
  match rows.find? fun r => key r = key row with
  | some new => merge row new
  | none => row

/-- `ORDER BY key`. -/
def orderBy [LinearOrder κ] (key : ρ → κ) (table : List ρ) : List ρ :=
  table.insertionSort fun a b => key a ≤ key b

/-- `GROUP BY key`: the first row of every group, the groups in the order of their keys. -/
def groupBy [LinearOrder κ] (key : ρ → κ) (table : List ρ) : List ρ :=
  orderBy key (insertAllIgnore key [] table)

/-! ## Membership -/

/-- The rows after an update. -/
lemma mem_update {p : ρ → Bool} {f : ρ → ρ} {table : List ρ} {row : ρ} :
    row ∈ update p f table ↔
      (row ∈ table ∧ p row = false) ∨ ∃ old ∈ table, p old = true ∧ f old = row := by
  simp only [update, List.mem_map]
  constructor
  · rintro ⟨old, hold, rfl⟩
    cases hp : p old with
    | true => exact .inr ⟨old, hold, hp, by simp⟩
    | false => exact .inl ⟨by simpa using hold, by simpa using hp⟩
  · rintro (⟨hrow, hp⟩ | ⟨old, hold, hp, rfl⟩)
    · exact ⟨row, hrow, by simp [hp]⟩
    · exact ⟨old, hold, by simp [hp]⟩

/-- The rows after a deletion. -/
@[simp] lemma mem_delete {p : ρ → Bool} {table : List ρ} {row : ρ} :
    row ∈ delete p table ↔ row ∈ table ∧ p row = false := by
  simp [delete]

/-- An update under a condition that no row meets changes nothing. -/
lemma update_of_forall_not {p : ρ → Bool} {f : ρ → ρ} {table : List ρ}
    (h : ∀ row ∈ table, p row = false) : update p f table = table := by
  rw [update, List.map_congr_left (g := id), List.map_id]
  intro row hrow
  simp [h row hrow]

/-- An update that changes no row of its condition changes nothing. -/
lemma update_of_fixed {p : ρ → Bool} {f : ρ → ρ} {table : List ρ}
    (h : ∀ row ∈ table, p row = true → f row = row) : update p f table = table := by
  rw [update, List.map_congr_left (g := id), List.map_id]
  intro row hrow
  cases hp : p row with
  | true => simp [h row hrow hp]
  | false => simp

/-- Updates under conditions that agree on the table are the same. -/
lemma update_congr {p q : ρ → Bool} {f g : ρ → ρ} {table : List ρ}
    (hpq : ∀ row ∈ table, p row = q row) (hfg : ∀ row ∈ table, p row = true → f row = g row) :
    update p f table = update q g table := by
  refine List.map_congr_left fun row hrow => ?_
  rw [hpq row hrow]
  cases hq : q row with
  | true => simp [hfg row hrow ((hpq row hrow).trans hq)]
  | false => simp

/-- A column that the update leaves alone is unchanged. -/
lemma map_update {β : Type*} {col : ρ → β} {p : ρ → Bool} {f : ρ → ρ} {table : List ρ}
    (h : ∀ row ∈ table, p row = true → col (f row) = col row) :
    (update p f table).map col = table.map col := by
  rw [update, List.map_map]
  refine List.map_congr_left fun row hrow => ?_
  cases hp : p row with
  | true => simp [hp, h row hrow hp]
  | false => simp [hp]

section Keyed

variable [DecidableEq κ] {key : ρ → κ} {table rows : List ρ} {row : ρ}

/-- A row with the key is there. -/
lemma exists?_iff : exists? key table row = true ↔ key row ∈ table.map key := by
  simp [exists?]

/-- No row with the key is there. -/
lemma exists?_eq_false : exists? key table row = false ↔ key row ∉ table.map key := by
  rw [← exists?_iff, Bool.not_eq_true]

/-- The rows after an insertion: the old ones, and the new one if its key was free. -/
lemma mem_insertIgnore {r : ρ} :
    r ∈ insertIgnore key table row ↔ r ∈ table ∨ r = row ∧ key row ∉ table.map key := by
  rw [insertIgnore]
  cases h : exists? key table row with
  | true => simp [exists?_iff.mp h]
  | false => simp [exists?_eq_false.mp h]

/-- The keys after an insertion. -/
lemma mem_map_insertIgnore {k : κ} :
    k ∈ (insertIgnore key table row).map key ↔ k ∈ table.map key ∨ k = key row := by
  rw [insertIgnore]
  cases h : exists? key table row with
  | true =>
    simp only [↓reduceIte]
    constructor
    · exact .inl
    · rintro (hk | rfl)
      · exact hk
      · exact exists?_iff.mp h
  | false => simp [eq_comm]

/-- Inserting no row. -/
@[simp] lemma insertAllIgnore_nil : insertAllIgnore key table [] = table := rfl

/-- Inserting a row and then the others. -/
lemma insertAllIgnore_cons :
    insertAllIgnore key table (row :: rows) = insertAllIgnore key (insertIgnore key table row) rows :=
  rfl

/-- The keys after inserting rows. -/
lemma mem_map_insertAllIgnore {k : κ} :
    k ∈ (insertAllIgnore key table rows).map key ↔ k ∈ table.map key ∨ k ∈ rows.map key := by
  induction rows generalizing table with
  | nil => simp
  | cons row rows ih =>
    rw [insertAllIgnore_cons, ih, mem_map_insertIgnore, List.map_cons, List.mem_cons, or_assoc]

/-- Every row after inserting rows was there or is one of them. -/
lemma mem_insertAllIgnore {r : ρ} (h : r ∈ insertAllIgnore key table rows) :
    r ∈ table ∨ r ∈ rows := by
  induction rows generalizing table with
  | nil => exact .inl h
  | cons row rows ih =>
    rcases ih h with h | h
    · rcases mem_insertIgnore.mp h with h | ⟨rfl, -⟩
      · exact .inl h
      · exact .inr (by simp)
    · exact .inr (by simp [h])

/-- The keys after an upsert that leaves the keys alone. -/
lemma mem_map_upsert {merge : ρ → ρ → ρ} (hm : ∀ old new, key (merge old new) = key old) {k : κ} :
    k ∈ (upsert key merge table row).map key ↔ k ∈ table.map key ∨ k = key row := by
  rw [upsert]
  cases h : exists? key table row with
  | true =>
    rw [if_pos rfl, map_update fun r _ _ => hm r row]
    constructor
    · exact .inl
    · rintro (hk | rfl)
      · exact hk
      · exact exists?_iff.mp h
  | false => simp

/-- An upsert adds a row exactly when the key is free. -/
lemma length_upsert {merge : ρ → ρ → ρ} :
    (upsert key merge table row).length =
      table.length + if exists? key table row then 0 else 1 := by
  rw [upsert]
  split <;> simp [update]

/-- A table is unchanged by inserting a row whose key is taken. -/
lemma insertIgnore_of_mem (h : key row ∈ table.map key) : insertIgnore key table row = table := by
  rw [insertIgnore, exists?_iff.mpr h, if_pos rfl]

/-- A row with a free key is appended. -/
lemma insertIgnore_of_notMem (h : key row ∉ table.map key) :
    insertIgnore key table row = table ++ [row] := by
  rw [insertIgnore, exists?_eq_false.mpr h, if_neg Bool.false_ne_true]

/-- A row whose key is taken updates its counterpart. -/
lemma upsert_of_mem {merge : ρ → ρ → ρ} (h : key row ∈ table.map key) :
    upsert key merge table row = update (fun r => key r = key row) (fun r => merge r row) table := by
  rw [upsert, exists?_iff.mpr h, if_pos rfl]

/-- A row with a free key is appended. -/
lemma upsert_of_notMem {merge : ρ → ρ → ρ} (h : key row ∉ table.map key) :
    upsert key merge table row = table ++ [row] := by
  rw [upsert, exists?_eq_false.mpr h, if_neg Bool.false_ne_true]

end Keyed

/-! ## Unique keys -/

section Unique

variable {key : ρ → κ} {table rows : List ρ} {row : ρ}

/-- An update that leaves the keys alone keeps them unique. -/
lemma nodup_update {p : ρ → Bool} {f : ρ → ρ} (hn : (table.map key).Nodup)
    (h : ∀ row ∈ table, p row = true → key (f row) = key row) :
    ((update p f table).map key).Nodup := by
  rwa [map_update h]

/-- A deletion keeps the keys unique. -/
lemma nodup_delete {p : ρ → Bool} (hn : (table.map key).Nodup) :
    ((delete p table).map key).Nodup :=
  hn.sublist (List.filter_sublist.map key)

/-- Under a unique key, rows with the same key are the same row. -/
lemma eq_of_key_eq {a b : ρ} (hn : (table.map key).Nodup) (ha : a ∈ table) (hb : b ∈ table)
    (h : key a = key b) : a = b :=
  List.inj_on_of_nodup_map hn ha hb h

/-- Appending a row with a free key keeps the keys unique. -/
lemma nodup_append_row (hn : (table.map key).Nodup) (h : key row ∉ table.map key) :
    ((table ++ [row]).map key).Nodup := by
  rw [List.map_append, List.map_singleton, List.nodup_append]
  refine ⟨hn, List.nodup_singleton _, fun a ha b hb hab => h ?_⟩
  rwa [← List.mem_singleton.mp hb, ← hab]

variable [DecidableEq κ]

/-- Under a unique key, a row is the only one with its key. -/
lemma filter_key_eq (hn : (table.map key).Nodup) (hrow : row ∈ table) :
    table.filter (fun r => key r = key row) = [row] := by
  induction table with
  | nil => simp at hrow
  | cons r table ih =>
    rw [List.map_cons, List.nodup_cons] at hn
    rcases List.mem_cons.mp hrow with rfl | hrow
    · have hnone : table.filter (fun r => key r = key row) = [] := by
        refine List.filter_eq_nil_iff.mpr fun r hr hk => hn.1 ?_
        rw [← of_decide_eq_true hk]
        exact List.mem_map_of_mem hr
      rw [List.filter_cons_of_pos (by simp), hnone]
    · have hne : key r ≠ key row := fun hk => hn.1 (hk ▸ List.mem_map_of_mem hrow)
      rw [List.filter_cons_of_neg (by simpa using hne), ih hn.2 hrow]

/-- Under a unique key, looking a row up by its key finds it. -/
lemma find?_key_eq (hn : (table.map key).Nodup) (hrow : row ∈ table) :
    table.find? (fun r => key r = key row) = some row := by
  rw [← List.head?_filter, filter_key_eq hn hrow, List.head?_cons]

/-- Under a unique key, one row has the key of a row. -/
lemma countP_key_eq (hn : (table.map key).Nodup) (hrow : row ∈ table) :
    table.countP (fun r => key r = key row) = 1 := by
  rw [List.countP_eq_length_filter, filter_key_eq hn hrow, List.length_singleton]

/-- An insertion keeps the keys unique. -/
lemma nodup_insertIgnore (hn : (table.map key).Nodup) :
    ((insertIgnore key table row).map key).Nodup := by
  by_cases h : key row ∈ table.map key
  · rwa [insertIgnore_of_mem h]
  · rw [insertIgnore_of_notMem h]
    exact nodup_append_row hn h

/-- Inserting rows keeps the keys unique. -/
lemma nodup_insertAllIgnore (hn : (table.map key).Nodup) :
    ((insertAllIgnore key table rows).map key).Nodup := by
  induction rows generalizing table with
  | nil => exact hn
  | cons row rows ih => exact ih (nodup_insertIgnore hn)

/-- An upsert that leaves the keys alone keeps them unique. -/
lemma nodup_upsert {merge : ρ → ρ → ρ} (hm : ∀ old new, key (merge old new) = key old)
    (hn : (table.map key).Nodup) : ((upsert key merge table row).map key).Nodup := by
  by_cases h : key row ∈ table.map key
  · rw [upsert_of_mem h]
    exact nodup_update hn fun old _ _ => hm old row
  · rw [upsert_of_notMem h]
    exact nodup_append_row hn h

/-- Upserts that leave the keys alone keep them unique. -/
lemma nodup_upsertAll {merge : ρ → ρ → ρ} (hm : ∀ old new, key (merge old new) = key old)
    (hn : (table.map key).Nodup) :
    ((rows.foldl (upsert key merge) table).map key).Nodup := by
  induction rows generalizing table with
  | nil => exact hn
  | cons row rows ih => exact ih (nodup_upsert hm hn)

/-- The keys after upserts that leave the keys alone. -/
lemma mem_map_upsertAll {merge : ρ → ρ → ρ} (hm : ∀ old new, key (merge old new) = key old)
    {k : κ} :
    k ∈ (rows.foldl (upsert key merge) table).map key ↔ k ∈ table.map key ∨ k ∈ rows.map key := by
  induction rows generalizing table with
  | nil => simp
  | cons row rows ih =>
    rw [List.foldl_cons, ih, mem_map_upsert hm, List.map_cons, List.mem_cons, or_assoc]

/-- A row after upserts was there and has no counterpart among the rows, or it was written last by
the last one of them with its key. -/
lemma mem_upsertAll {merge : ρ → ρ → ρ} (hm : ∀ old new, key (merge old new) = key old) {r : ρ}
    (hr : r ∈ rows.foldl (upsert key merge) table) :
    (key r ∉ rows.map key ∧ r ∈ table) ∨
      ∃ last, (rows.filter fun row => key row = key r).getLast? = some last ∧
        (r = last ∨ ∃ old, key old = key r ∧ r = merge old last) := by
  induction rows using List.reverseRecOn generalizing r with
  | nil => exact .inl ⟨List.not_mem_nil, hr⟩
  | append_singleton rows row ih =>
    rw [List.foldl_append, List.foldl_cons, List.foldl_nil] at hr
    -- the row that is written last under its key
    have hlast : key row = key r →
        ((rows ++ [row]).filter fun x => key x = key r).getLast? = some row := by
      intro hkey
      rw [List.filter_append, List.filter_cons_of_pos (by simpa using hkey), List.filter_nil,
        List.getLast?_concat]
    -- a row with another key is one from before
    have hother : key row ≠ key r → r ∈ rows.foldl (upsert key merge) table →
        (key r ∉ (rows ++ [row]).map key ∧ r ∈ table) ∨
          ∃ last, ((rows ++ [row]).filter fun x => key x = key r).getLast? = some last ∧
            (r = last ∨ ∃ old, key old = key r ∧ r = merge old last) := by
      intro hkey hmem
      rw [List.filter_append, List.filter_cons_of_neg (by simpa using hkey), List.filter_nil,
        List.append_nil, List.map_append, List.mem_append, List.map_singleton,
        List.mem_singleton, not_or]
      rcases ih hmem with ⟨hfree, hmem⟩ | hwritten
      · exact .inl ⟨⟨hfree, Ne.symm hkey⟩, hmem⟩
      · exact .inr hwritten
    by_cases htaken : key row ∈ (rows.foldl (upsert key merge) table).map key
    · rw [upsert_of_mem htaken] at hr
      rcases mem_update.mp hr with ⟨hmem, hkey⟩ | ⟨old, -, hkey, rfl⟩
      · exact hother (Ne.symm (of_decide_eq_false hkey)) hmem
      · have hkey : key old = key row := of_decide_eq_true hkey
        exact .inr ⟨row, hlast (hkey ▸ (hm old row).symm), .inr ⟨old, (hm old row).symm, rfl⟩⟩
    · rw [upsert_of_notMem htaken] at hr
      rcases List.mem_append.mp hr with hmem | hmem
      · exact hother (fun hkey => htaken (hkey ▸ List.mem_map_of_mem hmem)) hmem
      · obtain rfl := List.mem_singleton.mp hmem
        exact .inr ⟨r, hlast rfl, .inl rfl⟩

/-- A row that was inserted is the first one with its key. -/
lemma find?_of_mem_insertAllIgnore {r : ρ} (hr : r ∈ insertAllIgnore key table rows) :
    r ∈ table ∨ (key r ∉ table.map key ∧ rows.find? (fun row => key row = key r) = some r) := by
  induction rows generalizing table with
  | nil => exact .inl hr
  | cons row rows ih =>
    rw [insertAllIgnore_cons] at hr
    rcases ih hr with hmem | ⟨hfree, hfind⟩
    · rcases mem_insertIgnore.mp hmem with hmem | ⟨rfl, hfree⟩
      · exact .inl hmem
      · exact .inr ⟨hfree, by simp⟩
    · rw [mem_map_insertIgnore, not_or] at hfree
      refine .inr ⟨hfree.1, ?_⟩
      rw [List.find?_cons_of_neg (by simpa using Ne.symm hfree.2), hfind]

/-- The rows kept from rows with distinct keys are all of them. -/
lemma insertAllIgnore_append (ht : ∀ r ∈ rows, key r ∉ table.map key)
    (hn : (rows.map key).Nodup) : insertAllIgnore key table rows = table ++ rows := by
  induction rows generalizing table with
  | nil => simp
  | cons row rows ih =>
    rw [List.map_cons, List.nodup_cons] at hn
    rw [insertAllIgnore_cons, insertIgnore_of_notMem (ht row (by simp)), ih _ hn.2]
    · simp
    · intro r hr
      rw [List.map_append, List.map_singleton, List.mem_append, List.mem_singleton]
      rintro (h | h)
      · exact ht r (by simp [hr]) h
      · exact hn.1 (h ▸ List.mem_map_of_mem hr)

end Unique

/-! ## Restriction to some of the rows -/

section Restrict

variable {q : ρ → Bool} {table : List ρ}

/-- An update restricted to some rows is the update of these rows. -/
lemma filter_update {p : ρ → Bool} {f : ρ → ρ} (h : ∀ row, p row = true → q (f row) = q row) :
    (update p f table).filter q = update p f (table.filter q) := by
  rw [update, update, List.filter_map]
  congr 1
  refine List.filter_congr fun row _ => ?_
  cases hp : p row with
  | true => simp [hp, h row hp]
  | false => simp [hp]

/-- An update that makes its rows leave a selection takes them out of it. -/
lemma filter_update_of_leaves {p : ρ → Bool} {f : ρ → ρ}
    (hf : ∀ row, p row = true → q (f row) = false) :
    (update p f table).filter q = (table.filter q).filter fun row => !p row := by
  induction table with
  | nil => rfl
  | cons row table ih =>
    rw [update] at ih ⊢
    cases hp : p row with
    | true =>
      have hleaves := hf row hp
      cases hq : q row <;> simp [hp, hq, hleaves, ih]
    | false => cases hq : q row <;> simp [hp, hq, ih]

/-- An update outside of some rows leaves them alone. -/
lemma filter_update_of_disjoint {p : ρ → Bool} {f : ρ → ρ} (h : ∀ row, p row = true → q row = false)
    (hf : ∀ row, p row = true → q (f row) = false) :
    (update p f table).filter q = table.filter q := by
  rw [filter_update fun row hp => (hf row hp).trans (h row hp).symm]
  refine update_of_forall_not fun row hrow => ?_
  cases hp : p row with
  | true => exact absurd (List.mem_filter.mp hrow).2 (by simp [h row hp])
  | false => rfl

/-- A deletion restricted to some rows is the deletion among these rows. -/
lemma filter_delete {p : ρ → Bool} :
    (delete p table).filter q = delete p (table.filter q) := by
  rw [delete, delete, List.filter_filter, List.filter_filter]
  exact List.filter_congr fun row _ => Bool.and_comm _ _

/-- A deletion outside of some rows leaves them alone. -/
lemma filter_delete_of_disjoint {p : ρ → Bool} (h : ∀ row, p row = true → q row = false) :
    (delete p table).filter q = table.filter q := by
  rw [delete, List.filter_filter]
  refine List.filter_congr fun row _ => ?_
  cases hp : p row with
  | true => simp [h row hp]
  | false => simp

/-- A condition that implies another selects the same rows among those of the other. -/
lemma filter_filter_of_imp {p : ρ → Bool} (h : ∀ row, p row = true → q row = true) :
    (table.filter q).filter p = table.filter p := by
  rw [List.filter_filter]
  refine List.filter_congr fun row _ => ?_
  cases hp : p row with
  | true => simp [h row hp]
  | false => simp

/-- A condition that implies another finds the same row among those of the other. -/
lemma find?_filter_of_imp {p : ρ → Bool} (h : ∀ row, p row = true → q row = true) :
    (table.filter q).find? p = table.find? p := by
  rw [← List.head?_filter, ← List.head?_filter, filter_filter_of_imp h]

/-- A condition that implies another is met by some row of the other if it is met by some row. -/
lemma any_filter_of_imp {p : ρ → Bool} (h : ∀ row, p row = true → q row = true) :
    (table.filter q).any p = table.any p := by
  rw [Bool.eq_iff_iff, List.any_eq_true, List.any_eq_true]
  constructor
  · rintro ⟨row, hrow, hp⟩
    exact ⟨row, (List.mem_filter.mp hrow).1, hp⟩
  · rintro ⟨row, hrow, hp⟩
    exact ⟨row, List.mem_filter.mpr ⟨hrow, h row hp⟩, hp⟩

/-- A condition that implies another is met by as many rows among those of the other. -/
lemma countP_filter_of_imp {p : ρ → Bool} (h : ∀ row, p row = true → q row = true) :
    (table.filter q).countP p = table.countP p := by
  rw [List.countP_eq_length_filter, List.countP_eq_length_filter, filter_filter_of_imp h]

variable [DecidableEq κ] {key : ρ → κ} {rows : List ρ} {row : ρ}
  (hkey : ∀ a b : ρ, key a = key b → q a = q b)

include hkey

/-- Whether a key is taken is decided among the rows that may have it. -/
lemma exists?_filter (hq : q row = true) :
    exists? key (table.filter q) row = exists? key table row := by
  rw [exists?, exists?, List.any_filter]
  congr 1
  funext r
  by_cases h : key r = key row
  · simp [h, (hkey r row h).trans hq]
  · simp [h]

/-- An insertion restricted to the rows it belongs to. -/
lemma filter_insertIgnore (hq : q row = true) :
    (insertIgnore key table row).filter q = insertIgnore key (table.filter q) row := by
  rw [insertIgnore, insertIgnore, exists?_filter hkey hq]
  split
  · rfl
  · simp [hq]

omit hkey in
/-- An insertion outside of some rows leaves them alone. -/
lemma filter_insertIgnore_of_not (hq : q row = false) :
    (insertIgnore key table row).filter q = table.filter q := by
  rw [insertIgnore]
  split
  · rfl
  · simp [hq]

/-- Inserting rows, restricted to the rows they belong to. -/
lemma filter_insertAllIgnore (hq : ∀ row ∈ rows, q row = true) :
    (insertAllIgnore key table rows).filter q = insertAllIgnore key (table.filter q) rows := by
  induction rows generalizing table with
  | nil => rfl
  | cons row rows ih =>
    rw [insertAllIgnore_cons, insertAllIgnore_cons, ih fun r hr => hq r (by simp [hr]),
      filter_insertIgnore hkey (hq row (by simp))]

/-- Inserting rows makes a table longer by as many rows among those they belong to. -/
private lemma length_insertAllIgnore_filter (hq : ∀ row ∈ rows, q row = true) :
    (insertAllIgnore key (table.filter q) rows).length + table.length =
      (insertAllIgnore key table rows).length + (table.filter q).length := by
  induction rows generalizing table with
  | nil => simp [Nat.add_comm]
  | cons row rows ih =>
    have hrow : q row = true := hq row (by simp)
    have hstep : (insertAllIgnore key ((insertIgnore key table row).filter q) rows).length +
        (insertIgnore key table row).length =
          (insertAllIgnore key (insertIgnore key table row) rows).length +
            ((insertIgnore key table row).filter q).length :=
      ih fun r hr => hq r (by simp [hr])
    rw [filter_insertIgnore hkey hrow] at hstep
    simp only [insertAllIgnore_cons, insertIgnore, exists?_filter hkey hrow] at hstep ⊢
    by_cases h : exists? key table row = true
    · simpa only [h, ↓reduceIte] using hstep
    · simp only [h, Bool.false_eq_true, ↓reduceIte, List.length_append] at hstep ⊢
      omega

/-- As many rows are inserted among the rows they belong to. -/
lemma inserted_filter (hq : ∀ row ∈ rows, q row = true) :
    (insertAllIgnore key (table.filter q) rows).length - (table.filter q).length =
      (insertAllIgnore key table rows).length - table.length := by
  have hlength : (insertAllIgnore key (table.filter q) rows).length + table.length =
      (insertAllIgnore key table rows).length + (table.filter q).length :=
    length_insertAllIgnore_filter hkey hq
  omega

omit hkey in
/-- Inserting rows outside of some rows leaves these alone. -/
lemma filter_insertAllIgnore_of_not (hq : ∀ row ∈ rows, q row = false) :
    (insertAllIgnore key table rows).filter q = table.filter q := by
  induction rows generalizing table with
  | nil => rfl
  | cons row rows ih =>
    rw [insertAllIgnore_cons, ih fun r hr => hq r (by simp [hr]),
      filter_insertIgnore_of_not (hq row (by simp))]

/-- An upsert restricted to the rows it belongs to. -/
lemma filter_upsert {merge : ρ → ρ → ρ} (hm : ∀ old new, q (merge old new) = q old)
    (hq : q row = true) :
    (upsert key merge table row).filter q = upsert key merge (table.filter q) row := by
  rw [upsert, upsert, exists?_filter hkey hq]
  split
  · exact filter_update fun old _ => hm old row
  · simp [hq]

/-- An upsert outside of some rows leaves them alone. -/
lemma filter_upsert_of_not {merge : ρ → ρ → ρ} (hm : ∀ old new, q (merge old new) = q old)
    (hq : q row = false) : (upsert key merge table row).filter q = table.filter q := by
  have hold : ∀ r, decide (key r = key row) = true → q r = false := fun r hr =>
    (hkey r row (of_decide_eq_true hr)).trans hq
  rw [upsert]
  split
  · exact filter_update_of_disjoint hold fun r hr => (hm r row).trans (hold r hr)
  · simp [hq]

/-- Upserting rows outside of some rows leaves these alone. -/
lemma filter_upsertAll_of_not {merge : ρ → ρ → ρ} (hm : ∀ old new, q (merge old new) = q old)
    (hq : ∀ row ∈ rows, q row = false) :
    (rows.foldl (upsert key merge) table).filter q = table.filter q := by
  induction rows generalizing table with
  | nil => rfl
  | cons row rows ih =>
    rw [List.foldl_cons, ih fun r hr => hq r (by simp [hr]),
      filter_upsert_of_not hkey hm (hq row (by simp))]

/-- Upserting rows among some rows, restricted to these. -/
lemma filter_upsertAll {merge : ρ → ρ → ρ} (hm : ∀ old new, q (merge old new) = q old)
    (hq : ∀ row ∈ rows, q row = true) :
    (rows.foldl (upsert key merge) table).filter q =
      rows.foldl (upsert key merge) (table.filter q) := by
  induction rows generalizing table with
  | nil => rfl
  | cons row rows ih =>
    rw [List.foldl_cons, ih fun r hr => hq r (by simp [hr]),
      filter_upsert hkey hm (hq row (by simp)), List.foldl_cons]

end Restrict

/-! ## Upserting many rows -/

section UpsertAll

variable [DecidableEq κ] {key : ρ → κ} {merge : ρ → ρ → ρ} {table rows : List ρ} {row : ρ}

/-- An upsert is an insertion and then the update of the rows with its key, when a row updated
from itself is itself. -/
private lemma upsert_eq_update (hself : merge row row = row) :
    upsert key merge table row =
      update (fun r => key r = key row) (fun r => merge r row) (insertIgnore key table row) := by
  by_cases h : key row ∈ table.map key
  · rw [upsert_of_mem h, insertIgnore_of_mem h]
  · have hnone : ∀ r ∈ table, decide (key r = key row) = false := fun r hr =>
      decide_eq_false fun hk => h (hk ▸ List.mem_map_of_mem hr)
    rw [upsert_of_notMem h, insertIgnore_of_notMem h, update, List.map_append]
    change _ = update _ _ table ++ _
    rw [update_of_forall_not hnone]
    simp [hself]

variable (hm : ∀ old new, key (merge old new) = key old)

include hm

/-- Inserting rows commutes with the update of the rows with another key. -/
private lemma insertAllIgnore_update (hrow : key row ∉ rows.map key) :
    insertAllIgnore key (update (fun r => key r = key row) (fun r => merge r row) table) rows =
      update (fun r => key r = key row) (fun r => merge r row) (insertAllIgnore key table rows) := by
  induction rows generalizing table with
  | nil => rfl
  | cons new rows ih =>
    rw [List.map_cons, List.mem_cons, not_or] at hrow
    have hkeys : ∀ t : List ρ,
        (update (fun r => key r = key row) (fun r => merge r row) t).map key = t.map key :=
      fun t => map_update fun r _ _ => hm r row
    rw [insertAllIgnore_cons, insertAllIgnore_cons, ← ih hrow.2]
    congr 1
    by_cases h : key new ∈ table.map key
    · rw [insertIgnore_of_mem h, insertIgnore_of_mem (by rwa [hkeys])]
    · rw [insertIgnore_of_notMem h, insertIgnore_of_notMem (by rwa [hkeys])]
      simp [update, Ne.symm hrow.1]

/-- **Upserting rows one by one**: when the rows have distinct keys and a row updated from
itself is itself, upserting them one by one is inserting the new ones and then updating every
row from its counterpart among them.

**Proof sketch.** Induction on the rows. The first upsert is an insertion followed by the update
of one key (`upsert_eq_update`); that update commutes with the later insertions, whose keys
differ (`insertAllIgnore_update`), and is then one case of the final update. -/
theorem upsertAll_eq (hself : ∀ r ∈ rows, merge r r = r) (hn : (rows.map key).Nodup) :
    rows.foldl (upsert key merge) table =
      (insertAllIgnore key table rows).map (mergeFrom key merge rows) := by
  induction rows generalizing table with
  | nil =>
    rw [insertAllIgnore_nil, List.map_congr_left (g := id), List.map_id, List.foldl_nil]
    intro r _
    rfl
  | cons row rows ih =>
    rw [List.map_cons, List.nodup_cons] at hn
    have hfree : ∀ r, key r = key row → mergeFrom key merge rows r = r := by
      intro r hr
      have hnone : (rows.find? fun x => key x = key r) = none := by
        refine List.find?_eq_none.mpr fun x hx hk => hn.1 ?_
        rw [← hr, ← of_decide_eq_true hk]
        exact List.mem_map_of_mem hx
      simp only [mergeFrom, hnone]
    rw [List.foldl_cons, ih (fun r hr => hself r (by simp [hr])) hn.2,
      upsert_eq_update (hself row (by simp)), insertAllIgnore_update hm hn.1,
      insertAllIgnore_cons, update, List.map_map]
    refine List.map_congr_left fun r _ => ?_
    by_cases hr : key r = key row
    · have hnew : mergeFrom key merge (row :: rows) r = merge r row := by simp [mergeFrom, hr]
      simp only [Function.comp_apply, hr, decide_true, ↓reduceIte, hnew,
        hfree _ ((hm r row).trans hr)]
    · simp [hr, Ne.symm hr, mergeFrom]

/-- **Replaying a log**: upserting the rows of a log into the empty table leaves one row for every
key of the log, merged from the first and the last row with this key.

**Proof sketch.** Induction on the log from its end. The row of the last entry was merged from the
first one and some other one, and merging it with the last entry forgets the other one. -/
theorem mem_upsertAll_nil (hself : ∀ r, merge r r = r)
    (hlast : ∀ a b c, merge (merge a b) c = merge a c) {r : ρ} :
    r ∈ rows.foldl (upsert key merge) [] ↔ ∃ first last,
      (rows.filter fun row => key row = key r).head? = some first ∧
        (rows.filter fun row => key row = key r).getLast? = some last ∧ r = merge first last := by
  induction rows using List.reverseRecOn generalizing r with
  | nil => simp
  | append_singleton rows row ih =>
    have htaken : key row ∈ (rows.foldl (upsert key merge) []).map key ↔ key row ∈ rows.map key := by
      simp [mem_map_upsertAll hm]
    rw [List.foldl_append, List.foldl_cons, List.foldl_nil, List.filter_append]
    by_cases hrow : key row = key r
    · -- the row of the last entry
      rw [List.filter_cons_of_pos (by simpa using hrow), List.filter_nil, List.getLast?_concat,
        List.head?_append]
      by_cases hmem : key row ∈ rows.map key
      · have hold : ∀ old ∈ rows.foldl (upsert key merge) [], key old = key row → ∃ first,
            (rows.filter fun row => key row = key r).head? = some first ∧
              merge old row = merge first row := by
          intro old hold hkeyold
          obtain ⟨first, last, hfirst, -, heq⟩ := ih.mp hold
          rw [hkeyold.trans hrow] at hfirst
          exact ⟨first, hfirst, by rw [heq, hlast]⟩
        rw [upsert_of_mem (htaken.mpr hmem), mem_update]
        constructor
        · rintro (⟨-, hne⟩ | ⟨old, hmem, hkeyold, rfl⟩)
          · exact absurd hrow.symm (of_decide_eq_false hne)
          · obtain ⟨first, hfirst, heq⟩ := hold old hmem (of_decide_eq_true hkeyold)
            exact ⟨first, row, by rw [hfirst, Option.some_or], rfl, heq⟩
        · rintro ⟨first, last, hfirst, heq, rfl⟩
          obtain rfl := Option.some.inj heq
          obtain ⟨old, hmem, hkeyold⟩ := List.mem_map.mp (htaken.mpr hmem)
          obtain ⟨first', hfirst', hold'⟩ := hold old hmem hkeyold
          rw [hfirst', Option.some_or] at hfirst
          obtain rfl := Option.some.inj hfirst
          exact .inr ⟨old, hmem, decide_eq_true hkeyold, hold'⟩
      · have hnone : (rows.filter fun row => key row = key r) = [] := by
          refine List.filter_eq_nil_iff.mpr fun other hother hkeyother => hmem ?_
          rw [hrow, ← of_decide_eq_true hkeyother]
          exact List.mem_map_of_mem hother
        have hfree : r ∉ rows.foldl (upsert key merge) [] := fun h =>
          hmem (htaken.mp (hrow ▸ List.mem_map_of_mem h))
        rw [upsert_of_notMem (mt htaken.mp hmem), List.mem_append, List.mem_singleton, hnone]
        constructor
        · rintro (h | rfl)
          · exact absurd h hfree
          · exact ⟨r, r, rfl, rfl, (hself r).symm⟩
        · rintro ⟨first, last, hfirst, heq, rfl⟩
          obtain rfl := Option.some.inj hfirst
          obtain rfl := Option.some.inj heq
          exact .inr (hself _)
    · -- the row of another key
      rw [List.filter_cons_of_neg (by simpa using hrow), List.filter_nil, List.append_nil, ← ih]
      by_cases hmem : key row ∈ rows.map key
      · rw [upsert_of_mem (htaken.mpr hmem), mem_update]
        constructor
        · rintro (⟨h, -⟩ | ⟨old, -, hkeyold, rfl⟩)
          · exact h
          · rw [hm] at hrow
            exact absurd (of_decide_eq_true hkeyold).symm hrow
        · exact fun h => .inl ⟨h, decide_eq_false (Ne.symm hrow)⟩
      · rw [upsert_of_notMem (mt htaken.mp hmem), List.mem_append, List.mem_singleton]
        constructor
        · rintro (h | rfl)
          · exact h
          · exact absurd rfl hrow
        · exact .inl

/-- Replaying a log whose entries are written as rows: one row for every identity of the log. -/
lemma mem_upsertAll_map {σ ι : Type*} [DecidableEq ι] {write : σ → ρ} {identity : σ → ι}
    {log : List σ} (hkey : ∀ a b, key (write a) = key (write b) ↔ identity a = identity b)
    (hself : ∀ r, merge r r = r) (hlast : ∀ a b c, merge (merge a b) c = merge a c) {r : ρ} :
    r ∈ (log.map write).foldl (upsert key merge) [] ↔ ∃ i first last,
      (log.filter fun entry => identity entry = i).head? = some first ∧
        (log.filter fun entry => identity entry = i).getLast? = some last ∧
          r = merge (write first) (write last) := by
  have hentries : ∀ {a : σ} {r : ρ}, key r = key (write a) →
      ((log.map write).filter fun row => key row = key r) =
        (log.filter fun entry => identity entry = identity a).map write := by
    intro a r hr
    rw [List.filter_map]
    refine congrArg (List.map write) (List.filter_congr fun entry _ => ?_)
    exact decide_eq_decide.mpr (by rw [hr, hkey])
  rw [mem_upsertAll_nil hm hself hlast]
  constructor
  · rintro ⟨first, last, hfirst, hlast, rfl⟩
    obtain ⟨a, -, rfl⟩ := List.mem_map.mp (List.mem_filter.mp (List.mem_of_mem_head? hfirst)).1
    rw [hentries (hm (write a) last)] at hfirst hlast
    rw [List.head?_map, Option.map_eq_some_iff] at hfirst
    rw [List.getLast?_map, Option.map_eq_some_iff] at hlast
    obtain ⟨first, hfirst, hwrite⟩ := hfirst
    obtain ⟨last, hlast, rfl⟩ := hlast
    exact ⟨identity a, first, last, hfirst, hlast, by rw [hwrite]⟩
  · rintro ⟨i, first, last, hfirst, hlast, rfl⟩
    have hidentity : identity first = i :=
      of_decide_eq_true (List.mem_filter.mp (List.mem_of_mem_head? hfirst)).2
    refine ⟨write first, write last, ?_, ?_, rfl⟩
    · rw [hentries (hm (write first) (write last)), hidentity, List.head?_map, hfirst]
      rfl
    · rw [hentries (hm (write first) (write last)), hidentity, List.getLast?_map, hlast]
      rfl

end UpsertAll

/-! ## Ordering and grouping -/

section Order

variable [LinearOrder κ] {key : ρ → κ} {table : List ρ}

/-- Ordering keeps the rows. -/
lemma orderBy_perm : (orderBy key table).Perm table := List.perm_insertionSort _ _

/-- Ordering keeps the rows. -/
@[simp] lemma mem_orderBy {row : ρ} : row ∈ orderBy key table ↔ row ∈ table := orderBy_perm.mem_iff

/-- An ordered table has no first row exactly when there is no row. -/
lemma head?_orderBy_eq_none : (orderBy key table).head? = none ↔ table = [] := by
  rw [List.head?_eq_none_iff]
  constructor
  · intro h
    have hperm : (orderBy key table).Perm table := orderBy_perm
    exact List.perm_nil.mp (h ▸ hperm.symm)
  · rintro rfl
    rfl

/-- The first row of an ordered table is a row. -/
lemma mem_of_head?_orderBy {row : ρ} (h : (orderBy key table).head? = some row) : row ∈ table :=
  mem_orderBy.mp (List.mem_of_mem_head? h)

/-- An ordered table ascends. -/
lemma pairwise_orderBy : (orderBy key table).Pairwise fun a b => key a ≤ key b := by
  have htotal : Std.Total fun a b : ρ => key a ≤ key b := ⟨fun a b => le_total (key a) (key b)⟩
  have htrans : IsTrans ρ fun a b => key a ≤ key b := ⟨fun a b c hab hbc => le_trans hab hbc⟩
  exact List.pairwise_insertionSort _ table

/-- The first row of an ordered table is least. -/
lemma le_of_head?_orderBy {row : ρ} (h : (orderBy key table).head? = some row) :
    ∀ r ∈ table, key row ≤ key r := by
  intro r hr
  obtain ⟨rest, hrest⟩ := List.head?_eq_some_iff.mp h
  have hsorted : (orderBy key table).Pairwise fun a b => key a ≤ key b := pairwise_orderBy
  have hmem : r ∈ orderBy key table := mem_orderBy.mpr hr
  rw [hrest] at hsorted hmem
  rcases List.mem_cons.mp hmem with rfl | hmem
  · exact le_refl _
  · exact (List.pairwise_cons.mp hsorted).1 r hmem

section Injective

variable (hinj : ∀ a ∈ table, ∀ b ∈ table, key a = key b → a = b)
include hinj

/-- If the rows have different keys, the first row of an ordered table is the least one. -/
lemma head?_orderBy_eq_some {row : ρ} :
    (orderBy key table).head? = some row ↔ row ∈ table ∧ ∀ r ∈ table, key row ≤ key r := by
  constructor
  · exact fun h => ⟨mem_of_head?_orderBy h, le_of_head?_orderBy h⟩
  · rintro ⟨hrow, hleast⟩
    cases hhead : (orderBy key table).head? with
    | none =>
      rw [head?_orderBy_eq_none.mp hhead] at hrow
      exact absurd hrow (List.not_mem_nil)
    | some first =>
      have hfirst := mem_of_head?_orderBy hhead
      have hkey : key first = key row :=
        le_antisymm (le_of_head?_orderBy hhead row hrow) (hleast first hfirst)
      rw [hinj first hfirst row hrow hkey]

/-- If the rows have different keys, they can be ordered in one way only. -/
lemma orderBy_congr {other : List ρ} (h : table.Perm other) :
    orderBy key table = orderBy key other := by
  refine List.Perm.eq_of_pairwise (fun a b ha hb hab hba => ?_) pairwise_orderBy pairwise_orderBy
    (orderBy_perm.trans (h.trans orderBy_perm.symm))
  exact hinj a (mem_orderBy.mp ha) b (h.mem_iff.mpr (mem_orderBy.mp hb)) (le_antisymm hab hba)

/-- If the rows have different keys, ordering commutes with selecting rows: both lists ascend and
have the same rows. -/
lemma orderBy_filter (p : ρ → Bool) :
    orderBy key (table.filter p) = (orderBy key table).filter p := by
  refine List.Perm.eq_of_pairwise (fun a b ha hb hab hba => ?_) pairwise_orderBy
    (pairwise_orderBy.filter p) (orderBy_perm.trans (orderBy_perm.filter p).symm)
  have hmem : a ∈ table := (List.mem_filter.mp (mem_orderBy.mp ha)).1
  have hmem' : b ∈ table := mem_orderBy.mp (List.mem_filter.mp hb).1
  exact hinj a hmem b hmem' (le_antisymm hab hba)

end Injective

/-- Groups have distinct keys. -/
lemma nodup_groupBy : ((groupBy key table).map key).Nodup :=
  (orderBy_perm.map key).nodup_iff.mpr (nodup_insertAllIgnore List.nodup_nil)

/-- Every key has a group. -/
lemma mem_map_groupBy {k : κ} : k ∈ (groupBy key table).map key ↔ k ∈ table.map key := by
  rw [groupBy, (orderBy_perm.map key).mem_iff, mem_map_insertAllIgnore]
  simp

/-- A group is represented by one of the rows. -/
lemma mem_of_mem_groupBy {row : ρ} (h : row ∈ groupBy key table) : row ∈ table := by
  rcases mem_insertAllIgnore (mem_orderBy.mp h) with h | h
  · simp at h
  · exact h

/-- Grouping rows with distinct keys only orders them. -/
lemma groupBy_perm (hn : (table.map key).Nodup) : (groupBy key table).Perm table := by
  rw [groupBy, insertAllIgnore_append (by simp) hn, List.nil_append]
  exact orderBy_perm

end Order

/-! ## Related tables -/

section Related

variable {ρ' : Type*} {R : ρ → ρ' → Prop} {table : List ρ} {table' : List ρ'}

/-- Columns that agree on related rows are equal. -/
lemma map_eq_of_related {β : Type*} {col : ρ → β} {col' : ρ' → β}
    (hcol : ∀ a b, R a b → col a = col' b) (h : List.Forall₂ R table table') :
    table.map col = table'.map col' := by
  induction h with
  | nil => rfl
  | cons hab _ ih => rw [List.map_cons, List.map_cons, hcol _ _ hab, ih]

/-- Related rows are selected by conditions that agree on related rows. -/
lemma related_filter {p : ρ → Bool} {q : ρ' → Bool} (hp : ∀ a b, R a b → p a = q b)
    (h : List.Forall₂ R table table') : List.Forall₂ R (table.filter p) (table'.filter q) :=
  List.rel_filter (fun a b hab => iff_of_eq (congrArg (· = true) (hp a b hab))) h

/-- Updates under conditions that agree on related rows, to related rows. -/
lemma related_update {p : ρ → Bool} {q : ρ' → Bool} {f : ρ → ρ} {g : ρ' → ρ'}
    (hp : ∀ a b, R a b → p a = q b) (hf : ∀ a b, R a b → R (f a) (g b))
    (h : List.Forall₂ R table table') : List.Forall₂ R (update p f table) (update q g table') := by
  refine List.rel_map (fun a b hab => ?_) h
  rw [hp a b hab]
  split
  · exact hf a b hab
  · exact hab

/-- Deletions under conditions that agree on related rows. -/
lemma related_delete {p : ρ → Bool} {q : ρ' → Bool} (hp : ∀ a b, R a b → p a = q b)
    (h : List.Forall₂ R table table') : List.Forall₂ R (delete p table) (delete q table') :=
  related_filter (fun a b hab => by rw [hp a b hab]) h

/-- The first rows of related tables are related. -/
lemma related_head? (h : List.Forall₂ R table table') : Option.Rel R table.head? table'.head? := by
  cases h with
  | nil => exact .none
  | cons hab _ => exact .some hab

/-- The first rows that meet conditions that agree on related rows are related. -/
lemma related_find? {p : ρ → Bool} {q : ρ' → Bool} (hp : ∀ a b, R a b → p a = q b)
    (h : List.Forall₂ R table table') : Option.Rel R (table.find? p) (table'.find? q) := by
  rw [← List.head?_filter, ← List.head?_filter]
  exact related_head? (related_filter hp h)

/-- Inserting related rows under keys that agree on related rows. -/
lemma related_insertIgnore [DecidableEq κ] {key : ρ → κ} {key' : ρ' → κ}
    (hkey : ∀ a b, R a b → key a = key' b) (h : List.Forall₂ R table table') {row : ρ} {row' : ρ'}
    (hrow : R row row') :
    List.Forall₂ R (insertIgnore key table row) (insertIgnore key' table' row') := by
  have hkeys : table.map key = table'.map key' := map_eq_of_related hkey h
  by_cases hk : key row ∈ table.map key
  · rw [insertIgnore_of_mem hk, insertIgnore_of_mem (by rwa [← hkeys, ← hkey _ _ hrow])]
    exact h
  · rw [insertIgnore_of_notMem hk, insertIgnore_of_notMem (by rwa [← hkeys, ← hkey _ _ hrow])]
    exact List.rel_append h (.cons hrow .nil)

/-- Ordering by keys that agree on related rows.

**Proof sketch.** Induction on the tables; the inner one follows the place where a row is
inserted. -/
lemma related_orderBy [LinearOrder κ] {key : ρ → κ} {key' : ρ' → κ}
    (hkey : ∀ a b, R a b → key a = key' b) (h : List.Forall₂ R table table') :
    List.Forall₂ R (orderBy key table) (orderBy key' table') := by
  have hinsert : ∀ {a b t t'}, R a b → List.Forall₂ R t t' →
      List.Forall₂ R (t.orderedInsert (fun x y => key x ≤ key y) a)
        (t'.orderedInsert (fun x y => key' x ≤ key' y) b) := by
    intro a b t t' hab ht
    induction ht with
    | nil => exact .cons hab .nil
    | cons hcd ht ih =>
      rw [List.orderedInsert_cons, List.orderedInsert_cons, hkey _ _ hab, hkey _ _ hcd]
      split
      · exact .cons hab (.cons hcd ht)
      · exact .cons hcd ih
  induction h with
  | nil => exact .nil
  | cons hab _ ih => exact hinsert hab ih

end Related

end Table
