import Mathlib

set_option relaxedAutoImplicit false
set_option autoImplicit false

/-!
# Reading chunks under a limit

A reader takes chunks as they arrive, and gives up when there is more than it accepts or when a chunk
cannot be had. Everything here is over arbitrary types.

## Main definitions

* `Chunks.read` — the reader.

## Main results

* `Chunks.read_map_ok` — chunks that can all be had are read as what they hold together, however they
  are cut.
-/

namespace Chunks

variable {α ε : Type*}

/-- Reads the chunks that are left, after what was read before. -/
def readFrom (limit : ℕ) (tooLarge : ε) (before : List α) :
    List (Except ε (List α)) → Except ε (List α)
  | [] => .ok before
  | .error error :: _ => .error error
  | .ok chunk :: chunks =>
    if limit < before.length + chunk.length then .error tooLarge
    else readFrom limit tooLarge (before ++ chunk) chunks

/-- Reads chunks. -/
def read (limit : ℕ) (tooLarge : ε) (chunks : List (Except ε (List α))) : Except ε (List α) :=
  readFrom limit tooLarge [] chunks

variable {limit : ℕ} {tooLarge : ε}

/-- Chunks that can all be had, after what was read before. -/
private lemma readFrom_map_ok (parts : List (List α)) : ∀ before : List α, before.length ≤ limit →
    readFrom limit tooLarge before (parts.map .ok) =
      if (before ++ parts.flatten).length ≤ limit then .ok (before ++ parts.flatten)
      else .error tooLarge := by
  induction parts with
  | nil =>
    intro before hbefore
    rw [List.flatten_nil, List.append_nil, if_pos hbefore]
    rfl
  | cons chunk parts ih =>
    intro before hbefore
    rw [List.map_cons, readFrom, List.flatten_cons, ← List.append_assoc]
    split
    · next hlarge =>
      rw [if_neg]
      simp only [List.length_append]
      omega
    · next hfits => exact ih (before ++ chunk) (by simpa using Nat.not_lt.mp hfits)

/-- **Chunks that can all be had** are read if they fit together. -/
theorem read_map_ok (parts : List (List α)) :
    read limit tooLarge (parts.map .ok) =
      if parts.flatten.length ≤ limit then .ok parts.flatten else .error tooLarge :=
  readFrom_map_ok parts [] (Nat.zero_le _)

end Chunks
