import Mathlib

set_option relaxedAutoImplicit false
set_option autoImplicit false

/-!
# Lines

Lines are put behind one another, each with a mark at its end that it does not hold itself.

## Main definitions

* `Lines.join` — the lines, each with its mark.
* `Lines.split` — the lines of a text, each with its mark; the last one may lack it.

## Main results

* `Lines.split_join` — lines that are put together are found again.

* `Lines.exists_of_join_eq_append` — lines that begin with other lines are these and some more.
* `Lines.join_injective` — lines are determined by what they are put together to.
* `Lines.eq_of_flatMap_eq` — parts that are at least as long as others and come to the same.
-/

namespace Lines

variable {α : Type*} {mark : α}

/-- The lines, each with its mark. -/
def join (mark : α) (lines : List (List α)) : List α := lines.flatMap fun line => line ++ [mark]

/-- No lines. -/
@[simp] lemma join_nil : join mark [] = [] := rfl

/-- One line more. -/
@[simp] lemma join_cons (line : List α) (lines : List (List α)) :
    join mark (line :: lines) = line ++ mark :: join mark lines := by
  simp [join]

/-- Lines behind lines. -/
@[simp] lemma join_append (lines lines' : List (List α)) :
    join mark (lines ++ lines') = join mark lines ++ join mark lines' := by
  simp [join]

/-! ## Taking lines apart -/

section Split

variable [DecidableEq α]

/-- The lines of a text, each with its mark; the last one may lack it. -/
def split (mark : α) : List α → List (List α)
  | [] => []
  | a :: rest =>
    if a = mark then [a] :: split mark rest
    else
      match split mark rest with
      | [] => [[a]]
      | line :: lines => (a :: line) :: lines

/-- A line in front of others. -/
lemma split_append_mark {line : List α} (hline : mark ∉ line) (rest : List α) :
    split mark (line ++ mark :: rest) = (line ++ [mark]) :: split mark rest := by
  induction line with
  | nil => rw [List.nil_append, split, if_pos rfl, List.nil_append]
  | cons a line ih =>
    rw [List.mem_cons, not_or] at hline
    rw [List.cons_append, split, if_neg (Ne.symm hline.1), ih hline.2]
    rfl

/-- **Lines that are put together** are found again, each with its mark. -/
theorem split_join {lines : List (List α)} (hlines : ∀ line ∈ lines, mark ∉ line) :
    split mark (join mark lines) = lines.map fun line => line ++ [mark] := by
  induction lines with
  | nil => rfl
  | cons line lines ih =>
    rw [join_cons, split_append_mark (hlines line (List.mem_cons_self ..)),
      ih fun other hother => hlines other (List.mem_cons_of_mem _ hother), List.map_cons]

end Split

/-- What stands in front of the first mark is determined. -/
lemma append_mark_inj {line line' rest rest' : List α} (hline : mark ∉ line) (hline' : mark ∉ line')
    (h : line ++ mark :: rest = line' ++ mark :: rest') : line = line' ∧ rest = rest' := by
  induction line generalizing line' with
  | nil =>
    cases line' with
    | nil => exact ⟨rfl, (List.cons.inj h).2⟩
    | cons c cs =>
      rw [List.nil_append, List.cons_append, List.cons.injEq] at h
      exact absurd (h.1 ▸ List.mem_cons_self ..) hline'
  | cons c cs ih =>
    cases line' with
    | nil =>
      rw [List.nil_append, List.cons_append, List.cons.injEq] at h
      exact absurd (h.1 ▸ List.mem_cons_self ..) hline
    | cons d ds =>
      rw [List.cons_append, List.cons_append, List.cons.injEq] at h
      rw [List.mem_cons, not_or] at hline hline'
      obtain ⟨rfl, hrest⟩ := ih hline.2 hline'.2 h.2
      exact ⟨by rw [h.1], hrest⟩

/-- **Lines that begin with other lines** are these lines and some more. -/
theorem exists_of_join_eq_append {lines first : List (List α)} {rest : List α}
    (hlines : ∀ line ∈ lines, mark ∉ line) (hfirst : ∀ line ∈ first, mark ∉ line)
    (h : join mark lines = join mark first ++ rest) :
    ∃ lines', lines = first ++ lines' ∧ join mark lines' = rest := by
  induction first generalizing lines with
  | nil => exact ⟨lines, rfl, h⟩
  | cons line first ih =>
    cases lines with
    | nil => simp at h
    | cons line' lines =>
      rw [join_cons, join_cons, List.append_assoc, List.cons_append] at h
      obtain ⟨rfl, hrest⟩ := append_mark_inj (hlines line' (List.mem_cons_self ..))
        (hfirst line (List.mem_cons_self ..)) h
      obtain ⟨lines', rfl, hlines'⟩ := ih (fun l hl => hlines l (List.mem_cons_of_mem _ hl))
        (fun l hl => hfirst l (List.mem_cons_of_mem _ hl)) hrest
      exact ⟨lines', rfl, hlines'⟩

/-- **Lines are determined** by what they are put together to. -/
theorem join_injective {lines lines' : List (List α)} (hlines : ∀ line ∈ lines, mark ∉ line)
    (hlines' : ∀ line ∈ lines', mark ∉ line) (h : join mark lines = join mark lines') :
    lines = lines' := by
  obtain ⟨more, rfl, hmore⟩ := exists_of_join_eq_append hlines hlines'
    (h.trans (List.append_nil _).symm)
  cases more with
  | nil => rw [List.append_nil]
  | cons line more => simp at hmore

/-- Parts that are at least as long as others and come to the same are the same. -/
lemma eq_of_flatMap_eq {ι : Type*} {parties : List ι} {f g : ι → List α}
    (hle : ∀ party ∈ parties, (g party).length ≤ (f party).length)
    (h : parties.flatMap f = parties.flatMap g) : ∀ party ∈ parties, f party = g party := by
  induction parties with
  | nil => simp
  | cons party parties ih =>
    have hrest : ∀ other ∈ parties, (g other).length ≤ (f other).length :=
      fun other hother => hle other (List.mem_cons_of_mem _ hother)
    have hfirst := hle party (List.mem_cons_self ..)
    have hsum : (parties.flatMap g).length ≤ (parties.flatMap f).length := by
      rw [List.length_flatMap, List.length_flatMap]
      exact List.sum_le_sum hrest
    have hlength := congrArg List.length h
    rw [List.flatMap_cons, List.flatMap_cons, List.length_append, List.length_append] at hlength
    rw [List.flatMap_cons, List.flatMap_cons] at h
    obtain ⟨hparty, hparties⟩ := List.append_inj h (by omega)
    exact List.forall_mem_cons.mpr ⟨hparty, ih hrest hparties⟩

end Lines
