import Mathlib

set_option relaxedAutoImplicit false
set_option autoImplicit false

/-!
# Headers

The headers of a message: names, whose case does not matter, and values.

## Main definitions

* `Headers.get`, `Headers.set` — the value of a name, and giving it another one.

## Main results

* `Headers.get_set` — the value of a name afterwards.
-/

/-- Names and their values. -/
abbrev Headers := List (String × String)

namespace Headers

/-- A name in lower case. -/
def lower (name : String) : String := String.ofList (name.toList.map Char.toLower)

/-- The value of a name. -/
def get (headers : Headers) (name : String) : Option String :=
  (headers.find? fun header => lower header.1 = lower name).map Prod.snd

/-- Gives a name a value. -/
def set (headers : Headers) (name value : String) : Headers :=
  headers.filter (fun header => lower header.1 ≠ lower name) ++ [(name, value)]

/-- The headers with a name are taken out. -/
private lemma find?_filter_self (headers : Headers) (name : String) :
    (headers.filter fun header => lower header.1 ≠ lower name).find?
      (fun header => lower header.1 = lower name) = none := by
  rw [List.find?_eq_none]
  intro header hheader
  have hne := (List.mem_filter.mp hheader).2
  simpa using hne

/-- The headers with another name are left. -/
private lemma find?_filter_of_ne (headers : Headers) {name other : String}
    (h : lower other ≠ lower name) :
    (headers.filter fun header => lower header.1 ≠ lower name).find?
      (fun header => lower header.1 = lower other) =
        headers.find? fun header => lower header.1 = lower other := by
  induction headers with
  | nil => rfl
  | cons header headers ih =>
    by_cases hheader : lower header.1 = lower other
    · simp [hheader, h]
    · by_cases hname : lower header.1 = lower name
      · rw [List.filter_cons_of_neg (by simpa using hname), ih,
          List.find?_cons_of_neg (by simpa using hheader)]
      · rw [List.filter_cons_of_pos (by simpa using hname),
          List.find?_cons_of_neg (by simpa using hheader), ih,
          List.find?_cons_of_neg (by simpa using hheader)]

/-- The value of a name after it was given to another one. -/
lemma get_set (headers : Headers) (name value other : String) :
    (set headers name value).get other =
      if lower other = lower name then some value else headers.get other := by
  rw [get, set, List.find?_append]
  split
  · next h =>
    simp only [h]
    rw [find?_filter_self, List.find?_singleton]
    simp
  · next h =>
    rw [find?_filter_of_ne headers h, List.find?_singleton, if_neg (by simpa using Ne.symm h),
      Option.or_none, get]

/-- The value of a name that was given one. -/
lemma get_set_self (headers : Headers) (name value : String) :
    (set headers name value).get name = some value := by
  rw [get_set, if_pos rfl]

end Headers
