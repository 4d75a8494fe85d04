import Mathlib

set_option relaxedAutoImplicit false
set_option autoImplicit false

/-!
# Turns in rotation

A list is rotated one step further with every round, and the first entries of it have their turn.

## Main definitions

* `Rotation.turn` — the first entries of a list after some steps.
* `Rotation.place` — at which place an entry stands after some steps.

## Main results

* `Rotation.mem_turn_iff` — an entry has its turn when its place is among the first.
* `Rotation.card_turns` — over as many rounds as there are entries, each has as many turns as there
  are in a round.
-/

namespace Rotation

variable {α : Type*}

/-- The first entries of a list after some steps. -/
def turn (entries : List α) (steps size : ℕ) : List α := (entries.rotate steps).take size

/-- The place of an entry after some steps. -/
def place (count : ℕ) (index : ℤ) (steps : ℕ) : ℕ := ((index - steps) % count).toNat

section Places

variable {count : ℕ}

/-- A place is one of the list. -/
lemma place_lt (hcount : 0 < count) (index : ℤ) (steps : ℕ) : place count index steps < count := by
  have hlt := Int.emod_lt_of_pos (index - steps) (b := count) (by omega)
  rw [place]
  omega

/-- The place of an entry as an integer. -/
lemma coe_place (hcount : 0 < count) (index : ℤ) (steps : ℕ) :
    (place count index steps : ℤ) = (index - steps) % count :=
  Int.toNat_of_nonneg (Int.emod_nonneg _ (by omega))

/-- The first of the steps may be counted against the entry. -/
lemma place_add (index : ℤ) (start steps : ℕ) :
    place count index (start + steps) = place count (index - start) steps := by
  rw [place, place, Int.natCast_add, Int.sub_sub]

/-- As many steps as the place of an entry lead to the place of the steps. -/
lemma place_place (index : ℤ) {steps : ℕ} (hsteps : steps < count) :
    place count index (place count index steps) = steps := by
  have hcount : 0 < count := by omega
  have hsteps' : (steps : ℤ) % count = steps := Int.emod_eq_of_lt (by omega) (by omega)
  rw [← Int.natCast_inj, coe_place hcount, coe_place hcount, Int.sub_emod_emod, Int.sub_sub_self,
    hsteps']

/-- An entry stands at a place exactly when the steps lead there. -/
lemma add_mod_eq_iff {index : ℕ} (hindex : index < count) {at_ : ℕ} (hat : at_ < count)
    (steps : ℕ) : (at_ + steps) % count = index ↔ place count index steps = at_ := by
  have hcount : 0 < count := by omega
  have hindex' : (index : ℤ) % count = index := Int.emod_eq_of_lt (by omega) (by omega)
  have hat' : (at_ : ℤ) % count = at_ := Int.emod_eq_of_lt (by omega) (by omega)
  rw [← Int.natCast_inj, ← Int.natCast_inj (m := place count index steps), coe_place hcount,
    Int.natCast_mod, Int.natCast_add]
  constructor
  · intro h
    rw [← h, Int.emod_sub_emod, Int.add_sub_cancel, hat']
  · intro h
    rw [← h, Int.emod_add_emod, Int.sub_add_cancel, hindex']

end Places

/-- **An entry has its turn** when its place is among the first. -/
theorem mem_turn_iff {entries : List α} (hentries : entries.Nodup) {index size : ℕ}
    (hindex : index < entries.length) (hsize : size ≤ entries.length) (steps : ℕ) :
    entries[index] ∈ turn entries steps size ↔ place entries.length index steps < size := by
  have hcount : 0 < entries.length := by omega
  rw [turn, List.mem_take_iff_getElem]
  constructor
  · rintro ⟨at_, hat, heq⟩
    have hlt : at_ < entries.length := by
      rw [List.length_rotate] at hat
      omega
    rw [List.getElem_rotate, hentries.getElem_inj_iff] at heq
    rw [(add_mod_eq_iff hindex hlt steps).mp heq]
    omega
  · intro h
    have hlt := place_lt hcount index steps
    refine ⟨place entries.length index steps, by rw [List.length_rotate]; omega, ?_⟩
    rw [List.getElem_rotate, hentries.getElem_inj_iff]
    exact (add_mod_eq_iff hindex hlt steps).mpr rfl

/-- **Over as many rounds as there are entries** each entry has as many turns as a round has.

**Proof sketch.** Over the rounds an entry stands at every place once: the place is its own inverse
as a function of the steps. -/
theorem card_turns [DecidableEq α] {entries : List α} (hentries : entries.Nodup) {entry : α}
    (hentry : entry ∈ entries) {size : ℕ} (hsize : size ≤ entries.length) (start : ℕ) :
    ((Finset.range entries.length).filter fun round =>
      entry ∈ turn entries (start + round) size).card = size := by
  obtain ⟨index, hindex, rfl⟩ := List.mem_iff_getElem.mp hentry
  have hcount : 0 < entries.length := by omega
  simp only [mem_turn_iff hentries hindex hsize, place_add]
  have hplaces := Finset.card_nbij' (s := (Finset.range entries.length).filter fun round =>
      place entries.length (index - start) round < size) (t := Finset.range size)
    (place entries.length (index - start)) (place entries.length (index - start))
    (fun round h => by
      rw [Finset.coe_filter, Set.mem_ofPred_eq] at h
      simpa using h.2)
    (fun at_ h => by
      have hlt : at_ < size := by simpa using h
      simp [place_lt hcount, place_place (index - start : ℤ) (show at_ < entries.length by omega),
        hlt])
    (fun round h => by
      rw [Finset.coe_filter, Set.mem_ofPred_eq, Finset.mem_range] at h
      exact place_place _ h.1)
    (fun at_ h => by
      have hlt : at_ < size := by simpa using h
      exact place_place _ (by omega))
  rw [hplaces, Finset.card_range]

/-- An entry is the first exactly when it has its turn alone. -/
lemma head?_turn_iff {entries : List α} {entry : α} {steps size : ℕ} (hsize : 0 < size) :
    (turn entries steps size).head? = some entry ↔ entry ∈ turn entries steps 1 := by
  obtain ⟨size, rfl⟩ := Nat.exists_eq_succ_of_ne_zero hsize.ne'
  rw [turn, turn]
  cases entries.rotate steps with
  | nil => simp
  | cons first rest => simp [eq_comm]

end Rotation
