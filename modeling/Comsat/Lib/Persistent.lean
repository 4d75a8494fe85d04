import Comsat.Lib.Machine
import Comsat.Lib.Table

set_option relaxedAutoImplicit false
set_option autoImplicit false

/-!
# Machines whose state is kept

Machines that share what they keep, that only come into being when there is something to keep, and
that keep the value that was written last.

## Main definitions

* `Machine.both` — two machines beside each other.
* `Machine.lazily` — a machine that comes into being with the first input that needs it.
* `Machine.lastWrite` — the value that the inputs of a run have written last.

## Main results

* `Machine.run_both` — each of two machines takes its own inputs.
* `Machine.run_lazily`, `Machine.lazily_reply` — if the inputs that do not need the machine leave it
  as it is in the beginning, it does not matter when it comes into being.
* `Table.find?_upsert`, `Table.find?_delete`, `Table.find?_update` — a table keeps the value written
  last under each key.
* `Table.exists_map_eq_of_perm` — its rows are those of the values.
-/

namespace Machine

variable {σ σ' ι ι' ο ο' α : Type*}

/-! ## Two machines -/

section Both

variable (M : Machine σ ι ο) (N : Machine σ' ι' ο')

/-- Two machines beside each other. -/
def both : Machine (σ × σ') (ι ⊕ ι') (ο ⊕ ο') where
  init := (M.init, N.init)
  step s
    | .inl i => (((M.step s.1 i).1, s.2), .inl (M.step s.1 i).2)
    | .inr i => ((s.1, (N.step s.2 i).1), .inr (N.step s.2 i).2)

/-- **Each of two machines** takes its own inputs. -/
theorem run_both (is : List (ι ⊕ ι')) :
    (M.both N).run is = (M.run (is.filterMap Sum.getLeft?), N.run (is.filterMap Sum.getRight?)) := by
  induction is using List.reverseRecOn with
  | nil => rfl
  | append_singleton is i ih =>
    rw [run_snoc, ih, List.filterMap_append, List.filterMap_append]
    cases i with
    | inl i => exact Prod.ext (M.run_snoc _ i).symm (congrArg N.run (List.append_nil _).symm)
    | inr i => exact Prod.ext (congrArg M.run (List.append_nil _).symm) (N.run_snoc _ i).symm

end Both

/-- The machine with inputs that stand for its own ones. -/
def comap (M : Machine σ ι ο) (f : ι' → ι) : Machine σ ι' ο := ⟨M.init, fun s i => M.step s (f i)⟩

/-- A run with inputs that stand for others. -/
lemma run_comap (M : Machine σ ι ο) (f : ι' → ι) (is : List ι') :
    (M.comap f).run is = M.run (is.map f) := by
  induction is using List.reverseRecOn with
  | nil => rfl
  | append_singleton is i ih =>
    rw [run_snoc, ih, List.map_append, List.map_singleton, run_snoc]
    rfl

/-! ## Machines that come into being -/

section Lazily

variable (M : Machine σ ι ο) (idle : ι → Option ο)

/-- A machine that comes into being with the first input that has no answer without it. -/
def lazily : Machine (Option σ) ι ο where
  init := none
  step
    | some s, i => (some (M.step s i).1, (M.step s i).2)
    | none, i =>
      match idle i with
      | some reply => (none, reply)
      | none => (some (M.step M.init i).1, (M.step M.init i).2)

/-- The first input that needs the machine. -/
lemma lazily_step_none {i : ι} (h : idle i = none) :
    (M.lazily idle).step none i = (some (M.step M.init i).1, (M.step M.init i).2) := by
  simp only [lazily]
  rw [h]

/-- An input that does not need the machine. -/
lemma lazily_step_idle {i : ι} {reply : ο} (h : idle i = some reply) :
    (M.lazily idle).step none i = (none, reply) := by
  simp only [lazily]
  rw [h]

/-- No input of a run needs the machine. -/
def AllIdle (is : List ι) : Prop := ∀ i ∈ is, (idle i).isSome = true

instance (is : List ι) : Decidable (AllIdle idle is) :=
  inferInstanceAs (Decidable (∀ i ∈ is, (idle i).isSome = true))

variable {M idle}

/-- Inputs that do not need the machine leave it as it is in the beginning. -/
lemma run_of_allIdle (hidle : ∀ i, (idle i).isSome = true → (M.step M.init i).1 = M.init)
    {is : List ι} (h : AllIdle idle is) : M.run is = M.init := by
  induction is using List.reverseRecOn with
  | nil => rfl
  | append_singleton is i ih =>
    rw [run_snoc, ih fun j hj => h j (List.mem_append_left _ hj)]
    exact hidle i (h i (by simp))

/-- **When a machine comes into being** does not matter for its state. -/
theorem run_lazily (hidle : ∀ i, (idle i).isSome = true → (M.step M.init i).1 = M.init)
    (is : List ι) :
    (M.lazily idle).run is = if AllIdle idle is then none else some (M.run is) := by
  induction is using List.reverseRecOn with
  | nil => exact (if_pos fun _ h => absurd h List.not_mem_nil).symm
  | append_singleton is i ih =>
    have hsnoc : AllIdle idle (is ++ [i]) ↔ AllIdle idle is ∧ (idle i).isSome = true := by
      simp [AllIdle, or_imp, forall_and]
    rw [run_snoc, run_snoc, ih]
    by_cases hall : AllIdle idle is
    · rw [if_pos hall, run_of_allIdle hidle hall]
      cases hi : idle i with
      | none => rw [lazily_step_none M idle hi, if_neg (by simp [hsnoc, hi])]
      | some reply =>
        rw [lazily_step_idle M idle hi, if_pos (hsnoc.mpr ⟨hall, by simp [hi]⟩)]
    · rw [if_neg hall, if_neg fun h => hall (hsnoc.mp h).1]
      rfl

/-- **The replies** are those of the machine, unless nothing has needed it so far. -/
theorem lazily_reply (hidle : ∀ i, (idle i).isSome = true → (M.step M.init i).1 = M.init)
    (is : List ι) (i : ι) :
    (((M.lazily idle).step ((M.lazily idle).run is) i)).2 =
      if AllIdle idle is then (idle i).getD (M.step (M.run is) i).2
      else (M.step (M.run is) i).2 := by
  rw [run_lazily hidle]
  by_cases hall : AllIdle idle is
  · rw [if_pos hall, if_pos hall, run_of_allIdle hidle hall]
    cases hi : idle i with
    | none => rw [lazily_step_none M idle hi, Option.getD_none]
    | some reply => rw [lazily_step_idle M idle hi, Option.getD_some]
  · rw [if_neg hall, if_neg hall]
    rfl

end Lazily

/-! ## Values that are written -/

section LastWrite

variable (write : ι → Option (Option α))

/-- The value that the inputs have written last; an input may also erase it. -/
def lastWrite (is : List ι) : Option α := is.foldl (fun value i => (write i).getD value) none

/-- Nothing is written by no input. -/
@[simp] lemma lastWrite_nil : lastWrite write [] = none := rfl

/-- One input more. -/
@[simp] lemma lastWrite_snoc (is : List ι) (i : ι) :
    lastWrite write (is ++ [i]) = (write i).getD (lastWrite write is) := by
  simp [lastWrite]

/-- What has been written last was written. -/
lemma exists_of_lastWrite {is : List ι} {a : α} (h : lastWrite write is = some a) :
    ∃ i ∈ is, write i = some (some a) := by
  induction is using List.reverseRecOn with
  | nil => cases h
  | append_singleton is i ih =>
    rw [lastWrite_snoc] at h
    cases hi : write i with
    | some value =>
      rw [hi, Option.getD_some] at h
      exact ⟨i, by simp, hi.trans (congrArg some h)⟩
    | none =>
      rw [hi, Option.getD_none] at h
      obtain ⟨j, hj, hwrite⟩ := ih h
      exact ⟨j, List.mem_append_left _ hj, hwrite⟩

/-- An input that writes nothing. -/
lemma lastWrite_of_none {is : List ι} {i : ι} (h : write i = none) :
    lastWrite write (is ++ [i]) = lastWrite write is := by
  rw [lastWrite_snoc, h, Option.getD_none]

end LastWrite

end Machine

namespace Table

variable {ρ κ : Type*} [DecidableEq κ] {key : ρ → κ} {table : List ρ} {row : ρ}

/-- **A row that is written** is found under its key, and no other changes. -/
theorem find?_upsert {merge : ρ → ρ → ρ} (hmerge : ∀ old, key old = key row → merge old row = row)
    (k : κ) :
    (upsert key merge table row).find? (fun r => key r = k) =
      if key row = k then some row else table.find? fun r => key r = k := by
  by_cases hmem : key row ∈ table.map key
  · rw [upsert_of_mem hmem, update]
    induction table with
    | nil => cases hmem
    | cons old table ih =>
      rw [List.map_cons, List.find?_cons, List.find?_cons]
      by_cases hold : key old = key row
      · rw [if_pos (decide_eq_true hold), hmerge old hold]
        by_cases hk : key row = k
        · simp [hk]
        · have hne : key old ≠ k := hold ▸ hk
          rw [decide_eq_false hk, decide_eq_false hne, if_neg hk]
          by_cases hrest : key row ∈ table.map key
          · rw [ih hrest, if_neg hk]
          · have hothers : ∀ r ∈ table, key r ≠ key row := fun r hr hsame =>
              hrest (hsame ▸ List.mem_map_of_mem hr)
            exact congrArg (fun rows => rows.find? fun r => key r = k)
              (update_of_forall_not fun r hr => decide_eq_false (hothers r hr))
      · have hrest : key row ∈ table.map key := by
          rcases List.mem_cons.mp hmem with hsame | hrest
          · exact absurd hsame.symm hold
          · exact hrest
        rw [if_neg (by simpa using hold)]
        by_cases hk : key old = k
        · rw [decide_eq_true hk, if_neg fun hrow => hold (hk.trans hrow.symm)]
        · rw [decide_eq_false hk]
          exact ih hrest
  · rw [upsert_of_notMem hmem, List.find?_append]
    by_cases hk : key row = k
    · have hnone : table.find? (fun r => key r = k) = none :=
        List.find?_eq_none.mpr fun r hr hfound => by
          have hsame : key r = k := of_decide_eq_true hfound
          exact hmem (hk.trans hsame.symm ▸ List.mem_map_of_mem hr)
      simp [hnone, hk]
    · simp [hk]

/-- **Rows that are deleted** are not found, and the others are. -/
theorem find?_delete {p q : ρ → Bool} {d : Prop} [Decidable d]
    (h : ∀ r, q r = true → (p r = true ↔ d)) :
    (delete p table).find? q = if d then none else table.find? q := by
  rw [delete, List.find?_filter]
  split
  · next hdeleted =>
    refine List.find?_eq_none.mpr fun r _ hr => ?_
    obtain ⟨hp, hq⟩ := of_decide_eq_true hr
    rw [(h r hq).mpr hdeleted] at hp
    cases hp
  · next hdeleted =>
    refine congrArg (fun q => table.find? q) (funext fun r => ?_)
    cases hq : q r with
    | false => simp
    | true =>
      have hp : p r = false := Bool.eq_false_iff.mpr fun hp => hdeleted ((h r hq).mp hp)
      simp [hp]

/-- **A row that is updated** is found as it is after the update, and the others as before. -/
theorem find?_update {p q : ρ → Bool} {f : ρ → ρ} (hf : ∀ r, q (f r) = q r) {d : Prop}
    [Decidable d] (h : ∀ r ∈ table, q r = true → (p r = true ↔ d)) :
    (update p f table).find? q = if d then (table.find? q).map f else table.find? q := by
  induction table with
  | nil => simp [update]
  | cons old table ih =>
    have hrest := ih fun r hr => h r (List.mem_cons_of_mem _ hr)
    rw [update, List.map_cons, List.find?_cons, List.find?_cons]
    cases hold : q old with
    | false =>
      have hnew : q (if p old = true then f old else old) = false := by
        split
        · rw [hf, hold]
        · exact hold
      rw [hnew]
      exact hrest
    | true =>
      have hnew : q (if p old = true then f old else old) = true := by
        split
        · rw [hf, hold]
        · exact hold
      have hp := h old (List.mem_cons_self ..) hold
      rw [hnew]
      by_cases hd : d
      · rw [if_pos hd, if_pos (hp.mpr hd)]
        rfl
      · rw [if_neg hd, if_neg fun hpold => hd (hp.mp hpold)]

/-- **The rows of a table** that keeps a value under each key are those of the values, in whatever
order they are listed. -/
theorem exists_map_eq_of_perm {ν : Type*} {write : ν → ρ} {kept : κ → Option ν} {rows : List ρ}
    (hn : (table.map key).Nodup)
    (hkept : ∀ k, table.find? (fun r => key r = k) = (kept k).map write) (hperm : rows.Perm table) :
    ∃ values : List ν, values.map write = rows ∧
      ∀ value, value ∈ values ↔ kept (key (write value)) = some value := by
  have hfind : ∀ r ∈ rows, (kept (key r)).map write = some r := fun r hr =>
    (hkept (key r)).symm.trans (find?_key_eq hn (hperm.subset hr))
  refine ⟨rows.filterMap fun r => kept (key r), ?_, fun value => ?_⟩
  · rw [List.map_filterMap, List.filterMap_congr hfind, List.filterMap_some]
  · rw [List.mem_filterMap]
    constructor
    · rintro ⟨r, hr, hvalue⟩
      have hwrite := hfind r hr
      rw [hvalue] at hwrite
      rw [Option.some.inj hwrite, hvalue]
    · intro hvalue
      have hrow := hkept (key (write value))
      rw [hvalue] at hrow
      exact ⟨write value, hperm.symm.subset (List.mem_of_find?_eq_some hrow), hvalue⟩

end Table
