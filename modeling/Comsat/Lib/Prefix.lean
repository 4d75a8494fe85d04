import Mathlib

set_option relaxedAutoImplicit false
set_option autoImplicit false

/-!
# Longest prefixes

The longest prefix of a list with some property. Everything here is over arbitrary lists and
properties.

## Main definitions

* `IsLongestPrefix` — a prefix with a property, of which every prefix with the property is one.

## Main results

* `IsLongestPrefix.exists_of_nil` — there is one if the empty list has the property.
* `IsLongestPrefix.unique` — there is one at most.
* `IsLongestPrefix.not_next` — it cannot be extended by one item.
-/

variable {α : Type*} {P : List α → Prop} {l p q : List α}

/-- The longest prefix of a list with a property. -/
structure IsLongestPrefix (P : List α → Prop) (l p : List α) : Prop where
  isPrefix : p <+: l
  holds : P p
  longest : ∀ q, q <+: l → P q → q <+: p

namespace IsLongestPrefix

/-- There is a longest prefix if the empty list has the property. -/
theorem exists_of_nil (hnil : P []) (l : List α) : ∃ p, IsLongestPrefix P l p := by
  induction l using List.reverseRecOn with
  | nil =>
    exact ⟨[], List.prefix_refl _, hnil, fun q hq _ => hq⟩
  | append_singleton l a ih =>
    by_cases hall : P (l ++ [a])
    · exact ⟨l ++ [a], List.prefix_refl _, hall, fun q hq _ => hq⟩
    · obtain ⟨p, hp⟩ := ih
      refine ⟨p, hp.isPrefix.trans (List.prefix_append _ _), hp.holds, fun q hq hholds => ?_⟩
      rcases List.prefix_concat_iff.mp hq with rfl | hq
      · exact absurd hholds hall
      · exact hp.longest q hq hholds

/-- There is one longest prefix at most. -/
theorem unique (hp : IsLongestPrefix P l p) (hq : IsLongestPrefix P l q) : p = q :=
  (hq.longest p hp.isPrefix hp.holds).eq_of_length_le
    (hp.longest q hq.isPrefix hq.holds).length_le

/-- The longest prefix cannot be extended. -/
lemma not_next (hp : IsLongestPrefix P l p) {a : α} {rest : List α} (hl : l = p ++ a :: rest) :
    ¬ P (p ++ [a]) := by
  intro hnext
  have hlonger := (hp.longest (p ++ [a]) ⟨rest, by simp [hl]⟩ hnext).length_le
  simp only [List.length_append, List.length_singleton] at hlonger
  omega

end IsLongestPrefix
