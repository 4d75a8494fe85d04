import Mathlib

set_option relaxedAutoImplicit false
set_option autoImplicit false

/-!
# Turns on a shared budget

Parties take their turns in a fixed order. A turn is given what is left of a budget, uses some of
it, and may fail; the first failure ends the round.

## Main definitions

* `SharedBudget.Outcome` — how much of the budget a turn has used, and whether it has failed.
* `SharedBudget.serve` — the turns that are taken.
* `SharedBudget.resultOf`, `SharedBudget.usedBy` — the turn of one party.
* `SharedBudget.share` — what would be left for a party if no failure ended the round.
* `SharedBudget.leftOut` — the party that fails, what is left of the budget, and the parties that
  are left out.
* `SharedBudget.passed` — what is used after turns of which none fails.
* `SharedBudget.Undisturbed` — a round in which all parties but one succeed and use as much as in
  a given one.

## Main results

* `SharedBudget.resultOf_undisturbed` — in an undisturbed round the party has the turn of its share.
* `SharedBudget.resultOf_of_leftOut`, `SharedBudget.resultOf_of_served` — in the given round it
  has this turn unless it is left out.
* `SharedBudget.usedBy_of_counts` — every round has an undisturbed one beside it.
-/

namespace SharedBudget

variable {ι ρ : Type*} [DecidableEq ι]

/-- How much of the budget a turn has used, and whether it has failed. -/
class Outcome (ρ : Type*) where
  used : ρ → ℕ
  failed : ρ → Bool

variable [Outcome ρ]

open Outcome

section

variable (turn : ι → ℕ → ρ) (limit : ℕ)

/-- The turns that are taken once `total` of the budget is used. -/
def serve : ℕ → List ι → List (ι × ρ)
  | _, [] => []
  | total, party :: rest =>
    if limit ≤ total then []
    else
      let result := turn party (limit - total)
      (party, result) :: if failed result then [] else serve (total + used result) rest

/-- The party that fails, what is left of the budget then, and the parties that are left out. -/
def leftOut : ℕ → List ι → Option (ι × ℕ × List ι)
  | _, [] => none
  | total, party :: rest =>
    if limit ≤ total then none
    else
      let result := turn party (limit - total)
      if failed result then some (party, limit - (total + used result), rest)
      else leftOut (total + used result) rest

end

section

variable (turn : ι → ℕ → ρ) (limit : ℕ)

/-- What is used after the turns of some parties, if none of them fails or is left without budget.
-/
def passed : ℕ → List ι → Option ℕ
  | total, [] => some total
  | total, party :: rest =>
    if limit ≤ total then none
    else
      let result := turn party (limit - total)
      if failed result then none else passed (total + used result) rest

end

/-- The turn of a party, if it has taken one. -/
def resultOf (party : ι) : List (ι × ρ) → Option ρ
  | [] => none
  | entry :: entries => if entry.1 = party then some entry.2 else resultOf party entries

/-- How much of the budget a party has used. -/
def usedBy (party : ι) (round : List (ι × ρ)) : ℕ := ((resultOf party round).map used).getD 0

section

variable (turn : ι → ℕ → ρ) (limit : ℕ)

/-- What would be left for a party if no failure ended the round: every turn before its own uses
what it has used, and the parties that are left out use nothing. -/
def share (party : ι) : ℕ → List ι → Option ℕ
  | _, [] => none
  | total, first :: rest =>
    if limit ≤ total then none
    else if first = party then some (limit - total)
    else
      let result := turn first (limit - total)
      if failed result then
        if party ∈ rest ∧ total + used result < limit then some (limit - (total + used result))
        else none
      else share party (total + used result) rest

end

/-- A round in which every party but one succeeds and uses as much as in a given round. -/
structure Undisturbed (party : ι) (turn turn' : ι → ℕ → ρ) (limit total : ℕ) (order : List ι) :
    Prop where
  /-- The party itself acts as before. -/
  same : turn' party = turn party
  /-- The others succeed. -/
  succeeds : ∀ other, other ≠ party → ∀ budget, failed (turn' other budget) = false
  /-- The others use as much. -/
  counts : ∀ other, other ≠ party →
    usedBy other (serve turn' limit total order) = usedBy other (serve turn limit total order)

variable {turn turn' : ι → ℕ → ρ} {limit : ℕ} {party : ι}

/-- Only parties of the order take turns. -/
lemma resultOf_eq_none {order : List ι} (h : party ∉ order) (total : ℕ) :
    resultOf party (serve turn limit total order) = none := by
  induction order generalizing total with
  | nil => rfl
  | cons first rest ih =>
    rw [List.mem_cons, not_or] at h
    rw [serve]
    split
    · rfl
    · simp only [resultOf, if_neg (Ne.symm h.1)]
      split
      · rfl
      · exact ih h.2 _

omit [Outcome ρ] in
/-- The turn of a party is among the turns. -/
lemma mem_of_resultOf {round : List (ι × ρ)} {result : ρ} (h : resultOf party round = some result) :
    (party, result) ∈ round := by
  induction round with
  | nil => cases h
  | cons entry round ih =>
    rw [resultOf] at h
    split at h
    · rename_i hentry
      rw [← hentry, ← Option.some.inj h]
      exact List.mem_cons_self ..
    · exact List.mem_cons_of_mem _ (ih h)

/-- A party that is in the order once has no turn but its turn. -/
lemma resultOf_of_mem {order : List ι} {total : ℕ} (hnodup : order.Nodup) {result : ρ}
    (h : (party, result) ∈ serve turn limit total order) :
    resultOf party (serve turn limit total order) = some result := by
  induction order generalizing total with
  | nil => cases h
  | cons first rest ih =>
    obtain ⟨hnot, hrest⟩ := List.nodup_cons.mp hnodup
    rw [serve] at h ⊢
    split at h
    · cases h
    · rename_i htotal
      simp only [if_neg htotal]
      rcases List.mem_cons.mp h with heq | hmem
      · obtain ⟨rfl, rfl⟩ := Prod.mk.inj heq
        simp [resultOf]
      · have hmemRest : (party, result) ∈
            serve turn limit (total + used (turn first (limit - total))) rest := by
          split at hmem
          · cases hmem
          · exact hmem
        have hresult := ih hrest hmemRest
        have hne : first ≠ party := by
          rintro rfl
          rw [resultOf_eq_none hnot] at hresult
          cases hresult
        rw [resultOf, if_neg hne]
        split at hmem
        · cases hmem
        · rename_i hfailed
          rw [if_neg hfailed]
          exact hresult

/-- A party that does not take a turn uses nothing. -/
lemma usedBy_eq_zero {order : List ι} (h : party ∉ order) (total : ℕ) :
    usedBy party (serve turn limit total order) = 0 := by
  rw [usedBy, resultOf_eq_none h]
  rfl

/-- The turn of a party is that of the rest of the round when it does not come first. -/
lemma usedBy_cons {entry : ι × ρ} {round : List (ι × ρ)} (h : entry.1 ≠ party) :
    usedBy party (entry :: round) = usedBy party round := by
  rw [usedBy, usedBy, resultOf, if_neg h]

/-- When the others use nothing, a party that is in the order gets the whole budget. -/
lemma resultOf_of_idle {order : List ι} {total : ℕ} (hnodup : order.Nodup) (hmem : party ∈ order)
    (htotal : total < limit)
    (hsucceeds : ∀ other, other ≠ party → ∀ budget, failed (turn' other budget) = false)
    (hused : ∀ other, other ≠ party → usedBy other (serve turn' limit total order) = 0) :
    resultOf party (serve turn' limit total order) = some (turn' party (limit - total)) := by
  induction order with
  | nil => cases hmem
  | cons first rest ih =>
    rw [serve, if_neg (by omega)]
    by_cases hfirst : first = party
    · subst hfirst
      simp [resultOf]
    · have hzero : used (turn' first (limit - total)) = 0 := by
        have h := hused first hfirst
        rw [serve, if_neg (by omega), usedBy, resultOf, if_pos rfl] at h
        exact h
      obtain ⟨hnot, hrest⟩ := List.nodup_cons.mp hnodup
      have hmem' : party ∈ rest := (List.mem_cons.mp hmem).resolve_left (Ne.symm hfirst)
      simp only [resultOf, if_neg hfirst, hsucceeds first hfirst, Bool.false_eq_true, if_false,
        hzero, Nat.add_zero]
      refine ih hrest hmem' fun other hother => ?_
      by_cases hsame : other = first
      · subst hsame
        exact usedBy_eq_zero hnot _
      · have h := hused other hother
        rw [serve, if_neg (by omega)] at h
        simp only [hsucceeds first hfirst, Bool.false_eq_true, if_false, hzero, Nat.add_zero] at h
        rwa [usedBy_cons (by exact Ne.symm hsame)] at h

/-- A turn that comes first uses what its result says. -/
lemma usedBy_head {result : ρ} {round : List (ι × ρ)} :
    usedBy party ((party, result) :: round) = used result := by
  rw [usedBy, resultOf, if_pos rfl]
  rfl

omit [DecidableEq ι] in
/-- Nothing is left to be served once the budget is used. -/
lemma serve_of_le {order : List ι} {total : ℕ} (h : limit ≤ total) :
    serve turn limit total order = [] := by
  cases order with
  | nil => rfl
  | cons first rest => rw [serve, if_pos h]

/-- The rest of an undisturbed round is undisturbed. -/
lemma Undisturbed.rest {first : ι} {rest : List ι} {total : ℕ}
    (h : Undisturbed party turn turn' limit total (first :: rest)) (hnot : first ∉ rest)
    (htotal : total < limit) (hfirst : first ≠ party)
    (hfailed : failed (turn first (limit - total)) = false) :
    used (turn' first (limit - total)) = used (turn first (limit - total)) ∧
      Undisturbed party turn turn' limit (total + used (turn first (limit - total))) rest := by
  have hused := h.counts
  simp only [serve, if_neg (Nat.not_le.mpr htotal), hfailed, h.succeeds first hfirst,
    Bool.false_eq_true, if_false] at hused
  have hhead := hused first hfirst
  rw [usedBy_head, usedBy_head] at hhead
  refine ⟨hhead, h.same, h.succeeds, fun other hother => ?_⟩
  by_cases hsame : other = first
  · subst hsame
    rw [usedBy_eq_zero hnot, usedBy_eq_zero hnot]
  · have hrest := hused other hother
    rwa [usedBy_cons (by exact Ne.symm hsame), usedBy_cons (by exact Ne.symm hsame), hhead] at hrest

/-- **The turn of a party in an undisturbed round** is the one it has with its share. -/
theorem resultOf_undisturbed {order : List ι} {total : ℕ} (hnodup : order.Nodup)
    (h : Undisturbed party turn turn' limit total order) :
    resultOf party (serve turn' limit total order) =
      (share turn limit party total order).map (turn party) := by
  induction order generalizing total with
  | nil => rfl
  | cons first rest ih =>
    by_cases htotal : limit ≤ total
    · rw [serve_of_le htotal, share, if_pos htotal]
      rfl
    obtain ⟨hnot, hrest⟩ := List.nodup_cons.mp hnodup
    rw [share, if_neg htotal]
    by_cases hfirst : first = party
    · subst hfirst
      simp [serve, htotal, resultOf, h.same]
    · rw [if_neg hfirst]
      cases hfailed : failed (turn first (limit - total)) with
      | false =>
        obtain ⟨hused, hundisturbed⟩ := h.rest hnot (Nat.not_le.mp htotal) hfirst hfailed
        simp only [serve, if_neg htotal, resultOf, if_neg hfirst, h.succeeds first hfirst, hused,
          hfailed, Bool.false_eq_true, if_false]
        exact ih hrest hundisturbed
      | true =>
        -- in the given round nobody is served after the failure
        have hused := h.counts
        simp only [serve, if_neg htotal, hfailed, h.succeeds first hfirst, Bool.false_eq_true,
          if_false, if_true] at hused
        have hhead := hused first hfirst
        rw [usedBy_head, usedBy_head] at hhead
        simp only [serve, if_neg htotal, resultOf, if_neg hfirst, h.succeeds first hfirst, hhead,
          hfailed, Bool.false_eq_true, if_false, if_true]
        by_cases hmem : party ∈ rest
        · by_cases hleft : total + used (turn first (limit - total)) < limit
          · rw [if_pos (And.intro hmem hleft), Option.map_some, ← h.same]
            refine resultOf_of_idle hrest hmem hleft h.succeeds fun other hother => ?_
            by_cases hsame : other = first
            · subst hsame
              exact usedBy_eq_zero hnot _
            · have hzero := hused other hother
              rw [usedBy_cons (by exact Ne.symm hsame), usedBy_cons (by exact Ne.symm hsame),
                hhead] at hzero
              exact hzero
          · rw [if_neg fun hand => hleft hand.2, serve_of_le (Nat.not_lt.mp hleft)]
            rfl
        · rw [if_neg fun hand => hmem hand.1, resultOf_eq_none hmem]
          rfl

omit [DecidableEq ι] in
/-- Parties are left out after a failure that follows turns without one. -/
lemma leftOut_eq_some_iff {order : List ι} {total : ℕ} {first : ι} {budget : ℕ} {rest : List ι} :
    leftOut turn limit total order = some (first, budget, rest) ↔
      ∃ before total', order = before ++ first :: rest ∧
        passed turn limit total before = some total' ∧ total' < limit ∧
        failed (turn first (limit - total')) = true ∧
        budget = limit - (total' + used (turn first (limit - total'))) := by
  induction order generalizing total with
  | nil => simp [leftOut]
  | cons head tail ih =>
    rw [leftOut]
    by_cases htotal : limit ≤ total
    · rw [if_pos htotal]
      refine ⟨by simp, ?_⟩
      rintro ⟨before, total', hsplit, hpassed, hlt, -, -⟩
      cases before with
      | nil =>
        obtain rfl := Option.some.inj hpassed
        omega
      | cons b before =>
        rw [passed, if_pos htotal] at hpassed
        cases hpassed
    · rw [if_neg htotal]
      cases hfailed : failed (turn head (limit - total)) with
      | true =>
        simp only [hfailed, if_true, Option.some.injEq, Prod.mk.injEq]
        constructor
        · rintro ⟨rfl, rfl, rfl⟩
          exact ⟨[], total, rfl, rfl, Nat.not_le.mp htotal, hfailed, rfl⟩
        · rintro ⟨before, total', hsplit, hpassed, -, -, hbudget⟩
          cases before with
          | nil =>
            obtain rfl := Option.some.inj hpassed
            obtain ⟨rfl, rfl⟩ := List.cons.inj hsplit
            exact ⟨rfl, hbudget.symm, rfl⟩
          | cons b before =>
            obtain ⟨rfl, -⟩ := List.cons.inj hsplit
            rw [passed, if_neg htotal] at hpassed
            simp [hfailed] at hpassed
      | false =>
        simp only [hfailed, Bool.false_eq_true, if_false]
        rw [ih]
        constructor
        · rintro ⟨before, total', rfl, hpassed, hrest⟩
          refine ⟨head :: before, total', rfl, ?_, hrest⟩
          rw [passed, if_neg htotal]
          simpa [hfailed] using hpassed
        · rintro ⟨before, total', hsplit, hpassed, hlt, hfails, hbudget⟩
          cases before with
          | nil =>
            obtain rfl := Option.some.inj hpassed
            obtain ⟨rfl, -⟩ := List.cons.inj hsplit
            rw [hfailed] at hfails
            cases hfails
          | cons b before =>
            obtain ⟨rfl, rfl⟩ := List.cons.inj hsplit
            rw [passed, if_neg htotal] at hpassed
            simp only [hfailed, Bool.false_eq_true, if_false] at hpassed
            exact ⟨before, total', rfl, hpassed, hlt, hfails, hbudget⟩

omit [DecidableEq ι] in
/-- The parties that are left out stand in the order. -/
lemma rest_subset_of_leftOut {order : List ι} {total : ℕ} {first : ι} {budget : ℕ} {rest : List ι}
    (h : leftOut turn limit total order = some (first, budget, rest)) : rest ⊆ order := by
  obtain ⟨before, -, rfl, -⟩ := leftOut_eq_some_iff.mp h
  exact fun party hmem => List.mem_append_right _ (List.mem_cons_of_mem _ hmem)

/-- A party that is left out takes no turn; its share is what is left after the failure. -/
lemma resultOf_of_leftOut {order : List ι} {total : ℕ} (hnodup : order.Nodup) {first : ι}
    {budget : ℕ} {rest : List ι} (h : leftOut turn limit total order = some (first, budget, rest))
    (hmem : party ∈ rest) :
    resultOf party (serve turn limit total order) = none ∧
      share turn limit party total order = if 0 < budget then some budget else none := by
  induction order generalizing total with
  | nil => cases h
  | cons head tail ih =>
    obtain ⟨hnot, htail⟩ := List.nodup_cons.mp hnodup
    rw [leftOut] at h
    split at h
    · cases h
    · rename_i htotal
      dsimp only at h
      split at h
      · rename_i hfailed
        obtain ⟨rfl, rfl, rfl⟩ : head = first ∧ _ = budget ∧ tail = rest := by simpa using h
        have hne : head ≠ party := fun heq => hnot (heq ▸ hmem)
        refine ⟨by simp [serve, htotal, hfailed, resultOf, hne], ?_⟩
        rw [share, if_neg htotal, if_neg hne]
        dsimp only
        rw [if_pos hfailed]
        by_cases hleft : total + used (turn head (limit - total)) < limit
        · rw [if_pos (And.intro hmem hleft), if_pos (by omega)]
        · rw [if_neg fun hand => hleft hand.2, if_neg (by omega)]
      · rename_i hfailed
        obtain ⟨hresult, hshare⟩ := ih htail h
        have hmemTail : party ∈ tail := rest_subset_of_leftOut h hmem
        have hne : head ≠ party := fun heq => hnot (heq ▸ hmemTail)
        refine ⟨by simpa [serve, htotal, hfailed, resultOf, hne] using hresult, ?_⟩
        rw [share, if_neg htotal, if_neg hne]
        dsimp only
        rw [if_neg hfailed]
        exact hshare

/-- A party that is not left out has the turn of its share. -/
lemma resultOf_of_served {order : List ι} {total : ℕ}
    (h : ∀ first budget rest, leftOut turn limit total order = some (first, budget, rest) →
      party ∉ rest) :
    resultOf party (serve turn limit total order) =
      (share turn limit party total order).map (turn party) := by
  induction order generalizing total with
  | nil => rfl
  | cons head tail ih =>
    rw [leftOut] at h
    rw [share]
    by_cases htotal : limit ≤ total
    · rw [serve_of_le htotal, if_pos htotal]
      rfl
    · simp only [if_neg htotal] at h ⊢
      by_cases hhead : head = party
      · subst hhead
        simp [serve, htotal, resultOf]
      · simp only [if_neg hhead]
        cases hfailed : failed (turn head (limit - total)) with
        | false =>
          simp only [hfailed, Bool.false_eq_true, if_false] at h ⊢
          simpa [serve, htotal, resultOf, hhead, hfailed] using ih h
        | true =>
          simp only [hfailed, if_true, Option.some.injEq, Prod.mk.injEq] at h ⊢
          have hnot : party ∉ tail := h _ _ _ ⟨rfl, rfl, rfl⟩
          simp [serve, htotal, resultOf, hhead, hfailed, hnot]

omit [DecidableEq ι] in
/-- A round fails exactly when it leaves out somebody after a failure, possibly nobody. -/
lemma failed_serve_iff {order : List ι} {total : ℕ} {first : ι} :
    (∃ result, (first, result) ∈ serve turn limit total order ∧ failed result = true) ↔
      ∃ budget rest, leftOut turn limit total order = some (first, budget, rest) := by
  induction order generalizing total with
  | nil => simp [serve, leftOut]
  | cons head tail ih =>
    rw [serve, leftOut]
    by_cases htotal : limit ≤ total
    · simp [htotal]
    · cases hfailed : failed (turn head (limit - total)) with
      | false =>
        simp only [if_neg htotal, hfailed, Bool.false_eq_true, if_false, List.mem_cons,
          Prod.mk.injEq, ← ih]
        constructor
        · rintro ⟨result, ⟨rfl, rfl⟩ | hmem, hresult⟩
          · rw [hfailed] at hresult
            cases hresult
          · exact ⟨result, hmem, hresult⟩
        · rintro ⟨result, hmem, hresult⟩
          exact ⟨result, .inr hmem, hresult⟩
      | true =>
        simp only [if_neg htotal, hfailed, if_true, List.mem_singleton, Prod.mk.injEq,
          Option.some.injEq]
        constructor
        · rintro ⟨result, ⟨rfl, rfl⟩, -⟩
          exact ⟨_, _, rfl, rfl, rfl⟩
        · rintro ⟨budget, rest, rfl, -, -⟩
          exact ⟨_, ⟨rfl, rfl⟩, hfailed⟩

/-! ## Undisturbed rounds -/

/-- The turn of a party uses no more than any of its turns would. -/
lemma usedBy_le {count : ℕ} (hle : ∀ budget, used (turn party budget) ≤ count)
    (order : List ι) (total : ℕ) : usedBy party (serve turn limit total order) ≤ count := by
  induction order generalizing total with
  | nil => exact Nat.zero_le _
  | cons head tail ih =>
    rw [serve]
    split
    · exact Nat.zero_le _
    · dsimp only
      by_cases hhead : head = party
      · subst hhead
        rw [usedBy_head]
        exact hle _
      · rw [usedBy_cons hhead]
        split
        · exact Nat.zero_le _
        · exact ih _

/-- A round beside a given one: the others use what they have used in it. -/
lemma usedBy_of_counts {order : List ι} {total : ℕ} {counts : ι → ℕ} (hnodup : order.Nodup)
    (hsame : turn' party = turn party)
    (hsucceeds : ∀ other, other ≠ party → ∀ budget, failed (turn' other budget) = false)
    (hbound : ∀ other budget, used (turn other budget) ≤ budget)
    (hcounts : ∀ other, other ≠ party → ∀ budget, used (turn' other budget) =
      min (counts other) budget)
    (hgiven : ∀ other ∈ order, other ≠ party →
      counts other = usedBy other (serve turn limit total order))
    {other : ι} (hother : other ≠ party) :
    usedBy other (serve turn' limit total order) = usedBy other (serve turn limit total order) := by
  induction order generalizing total with
  | nil => rfl
  | cons head tail ih =>
    obtain ⟨hnot, htail⟩ := List.nodup_cons.mp hnodup
    by_cases htotal : limit ≤ total
    · rw [serve_of_le htotal, serve_of_le htotal]
    -- what the first party uses
    have hhead : used (turn' head (limit - total)) = used (turn head (limit - total)) := by
      by_cases hparty : head = party
      · rw [hparty, hsame]
      · have hgivenHead := hgiven head (List.mem_cons_self ..) hparty
        rw [serve, if_neg htotal, usedBy_head] at hgivenHead
        rw [hcounts head hparty, hgivenHead]
        exact Nat.min_eq_left (hbound _ _)
    -- what is given of the parties after it
    have hgivenTail : ∀ other ∈ tail, other ≠ party → counts other =
        usedBy other (if failed (turn head (limit - total)) = true then []
          else serve turn limit (total + used (turn head (limit - total))) tail) := by
      intro other hmem hne
      have hgivenOther := hgiven other (List.mem_cons_of_mem _ hmem) hne
      have hhead : head ≠ other := fun heq => hnot (heq ▸ hmem)
      rwa [serve, if_neg htotal, usedBy_cons (by exact hhead)] at hgivenOther
    rw [serve, serve, if_neg htotal, if_neg htotal]
    dsimp only
    by_cases hsameHead : head = other
    · subst hsameHead
      rw [usedBy_head, usedBy_head, hhead]
    · rw [usedBy_cons hsameHead, usedBy_cons hsameHead, hhead]
      cases hfailed : failed (turn head (limit - total)) with
      | false =>
        have hfailed' : failed (turn' head (limit - total)) = false := by
          by_cases hparty : head = party
          · rw [hparty, hsame, ← hparty, hfailed]
          · exact hsucceeds head hparty _
        simp only [hfailed, hfailed', Bool.false_eq_true, if_false] at hgivenTail ⊢
        exact ih htail hgivenTail
      | true =>
        by_cases hparty : head = party
        · rw [hparty, hsame, ← hparty, hfailed, if_pos rfl, if_pos rfl]
        · simp only [hsucceeds head hparty, hfailed, Bool.false_eq_true, if_false, if_true]
            at hgivenTail ⊢
          by_cases hmem : other ∈ tail
          · have hzero : counts other = 0 := hgivenTail other hmem hother
            refine Nat.le_zero.mp (usedBy_le (fun budget => ?_) tail _)
            rw [hcounts other hother, hzero]
            exact Nat.min_le_left _ _
          · exact usedBy_eq_zero hmem _

end SharedBudget
