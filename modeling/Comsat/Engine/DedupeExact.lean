import Comsat.Engine.Dedupe
import Comsat.Lib.Text

set_option relaxedAutoImplicit false
set_option autoImplicit false

/-!
# Which records are dropped

The keys of a record are texts joined with colons. A source identifier holds no colon, so two
records share a key exactly when they agree in what the key was made of, and a sequence of records
loses exactly those that agree with one that was kept.

## Main definitions

* `Record.nativeIds` — the identifiers that the source itself gave to a record.
* `Record.Alike` — one identity, one URL, or one source and a common native identifier.
* `DedupeSet.keepAll` — the keys seen and the records kept, after a sequence of records.

## Main results

* `sharesKey_iff` — records share a key exactly when they are alike.
* `DedupeSet.mem_keepAll_seen` — the keys seen are those of the records kept.
* `DedupeSet.dedupe_exact` — a record is dropped exactly when it is alike to a record kept before.
-/

namespace Comsat

/-! ## Keys -/

/-- The identifiers that the source itself gave to a record. -/
def Record.nativeIds (record : Record) : List String :=
  (metadataString record.metadata "native_id").toList ++
    (metadataString record.metadata "id").toList

/-- Records that are taken for one: they have one identity, one URL, or one source and a common
native identifier. -/
def Record.Alike (a b : Record) : Prop :=
  (a.source = b.source ∧ a.id = b.id) ∨ a.url = b.url ∨
    (a.source = b.source ∧ ∃ nativeId ∈ a.nativeIds, nativeId ∈ b.nativeIds)

/-- The keys of a record, kind by kind. -/
lemma mem_dedupeKeys {record : Record} {key : String} :
    key ∈ dedupeKeys record ↔
      key = "source:" ++ record.source.value ++ ":" ++ record.id.value ∨
        key = "url:" ++ record.url ∨
          ∃ nativeId ∈ record.nativeIds, key = nativeKey record nativeId := by
  simp only [dedupeKeys, Record.nativeIds, List.mem_append, List.mem_cons, List.not_mem_nil,
    or_false, Option.mem_toList, Option.map_eq_some_iff, or_and_right, exists_or,
    eq_comm (a := key), or_assoc]

/-- What stands before and after the first colon is determined by the text. -/
lemma joined_inj {label : String} {a b : SourceId} {x y : String}
    (h : label ++ a.value ++ ":" ++ x = label ++ b.value ++ ":" ++ y) : a = b ∧ x = y := by
  have hlist : a.value.toList ++ ':' :: x.toList = b.value.toList ++ ':' :: y.toList := by
    have hchars := congrArg String.toList h
    simpa using hchars
  have hsplit := congrArg (Text.splitOnce ':') hlist
  rw [Text.splitOnce_append a.no_colon, Text.splitOnce_append b.no_colon] at hsplit
  simp only [Prod.mk.injEq, Option.some.injEq] at hsplit
  exact ⟨SourceId.ext_value (String.toList_injective hsplit.1), String.toList_injective hsplit.2⟩

/-- **Sharing a key**: the joined keys identify nothing but records that are alike.

**Proof sketch.** Keys of different kinds begin with different letters. Within a kind the source
ends at the first colon after the label, as it holds none itself. -/
theorem sharesKey_iff {a b : Record} : SharesKey a b ↔ a.Alike b := by
  constructor
  · rintro ⟨key, ha, hb⟩
    rcases mem_dedupeKeys.mp ha with ha | ha | ⟨nativeId, hmem, ha⟩ <;>
      rcases mem_dedupeKeys.mp hb with hb | hb | ⟨nativeId', hmem', hb⟩ <;>
      have hsame := ha.symm.trans hb
    -- one kind of keys
    case inl.inl => exact .inl ((joined_inj hsame).imp_right RecordId.ext_value)
    case inr.inl.inr.inl => exact .inr (.inl (String.append_right_inj _ |>.mp hsame))
    case inr.inr.inr.inr =>
      obtain ⟨hsource, rfl⟩ := joined_inj hsame
      exact .inr (.inr ⟨hsource, nativeId, hmem, hmem'⟩)
    -- two kinds of keys: their first letters differ
    all_goals
      have hchars := congrArg String.toList hsame
      simp [nativeKey] at hchars
  · rintro (⟨hsource, hid⟩ | hurl | ⟨hsource, nativeId, ha, hb⟩)
    · exact ⟨_, mem_dedupeKeys.mpr (.inl rfl), mem_dedupeKeys.mpr (.inl (by rw [hsource, hid]))⟩
    · exact ⟨_, mem_dedupeKeys.mpr (.inr (.inl rfl)),
        mem_dedupeKeys.mpr (.inr (.inl (by rw [hurl])))⟩
    · exact ⟨_, mem_dedupeKeys.mpr (.inr (.inr ⟨nativeId, ha, rfl⟩)),
        mem_dedupeKeys.mpr (.inr (.inr ⟨nativeId, hb, by rw [nativeKey, nativeKey, hsource]⟩))⟩

/-! ## Sequences of records -/

namespace DedupeSet

/-- Passes a record to the set, and keeps it when it is new. -/
def keep (state : DedupeSet × List Record) (record : Record) : DedupeSet × List Record :=
  let (new, set) := state.1.insert record
  (set, if new then state.2 ++ [record] else state.2)

/-- The keys seen and the records kept, after a sequence of records. -/
def keepAll (records : List Record) : DedupeSet × List Record := records.foldl keep (.empty, [])

/-- One more record. -/
lemma keepAll_snoc (records : List Record) (record : Record) :
    keepAll (records ++ [record]) = keep (keepAll records) record := by
  simp [keepAll]

/-- **The keys seen** are those of the records kept: a record that is dropped leaves no key. -/
lemma mem_keepAll_seen (records : List Record) (key : String) :
    key ∈ (keepAll records).1.seen ↔ ∃ kept ∈ (keepAll records).2, key ∈ dedupeKeys kept := by
  induction records using List.reverseRecOn with
  | nil => simp [keepAll, empty]
  | append_singleton records record ih =>
    rw [keepAll_snoc]
    simp only [keep, insert_snd, ih]
    cases hnew : ((keepAll records).1.insert record).1 with
    | true =>
      simp only [↓reduceIte, true_and, List.mem_append, List.mem_singleton, or_and_right,
        exists_or, exists_eq_left]
    | false => simp

/-- A record is dropped exactly when it is alike to one that was kept. -/
lemma insert_eq_false_iff (records : List Record) (record : Record) :
    ((keepAll records).1.insert record).1 = false ↔
      ∃ kept ∈ (keepAll records).2, kept.Alike record := by
  rw [← Bool.not_eq_true, insert_fst]
  simp only [mem_keepAll_seen, ← sharesKey_iff, SharesKey]
  grind

/-- **Exact deduplication**: after every sequence of records, the next record is dropped exactly when
it has the identity of a record kept before, its URL, or its source and a native identifier of it;
no two of the records kept are alike in any of these; and the joined keys of two records meet only
if the records are alike.

**Proof sketch.** The keys seen are those of the records kept, and a common key is a reason to take
two records for one. -/
theorem dedupe_exact (records : List Record) :
    (∀ record, ((keepAll records).1.insert record).1 = false ↔
        ∃ kept ∈ (keepAll records).2, kept.Alike record) ∧
      (keepAll records).2.Pairwise (fun a b => ¬ a.Alike b) ∧
      ∀ a b, SharesKey a b ↔ a.Alike b := by
  refine ⟨insert_eq_false_iff records, ?_, fun a b => sharesKey_iff⟩
  induction records using List.reverseRecOn with
  | nil => exact .nil
  | append_singleton records record ih =>
    rw [keepAll_snoc, keep]
    cases hnew : ((keepAll records).1.insert record).1 with
    | false => simpa [hnew] using ih
    | true =>
      have hnone : ∀ kept ∈ (keepAll records).2, ¬ kept.Alike record := by
        intro kept hkept halike
        have hdropped := (insert_eq_false_iff records record).mpr ⟨kept, hkept, halike⟩
        rw [hnew] at hdropped
        exact absurd hdropped (by simp)
      simp only [hnew, ↓reduceIte]
      refine List.pairwise_append.mpr ⟨ih, List.pairwise_singleton _ _, fun kept hkept r hr => ?_⟩
      rw [List.mem_singleton.mp hr]
      exact hnone kept hkept

end DedupeSet

end Comsat
