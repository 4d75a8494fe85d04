import Mathlib

set_option relaxedAutoImplicit false
set_option autoImplicit false

/-!
# Round-robin rotations

Finitely many queues share a bounded number of slots. The queue whose turn it is gives its head
and the turn passes on; an exhausted queue leaves its slot, and the next waiting queue takes a
new slot at the end. Everything here is over arbitrary elements.

## Main definitions

* `RoundRobin` — the queues in the slots, whose turn it is, and the queues that wait.
* `RoundRobin.fill`, `RoundRobin.turn` — waiting queues take free slots; one turn.
* `RoundRobin.order`, `RoundRobin.merge` — the order in which a rotation gives everything it
  holds, and the order for queues that all wait at first.

## Main results

* `RoundRobin.order_perm` — everything is given exactly once.
* `RoundRobin.order_filter` — the elements that only one queue has come in that queue's order.
-/

/-- A rotation of queues over a bounded number of slots. -/
structure RoundRobin (ε : Type*) where
  /-- The queues in the slots. -/
  slots : List (List ε)
  /-- The slot whose turn it is; beyond the slots it stands for the first one. -/
  cursor : ℕ
  /-- The queues that wait for a slot. -/
  waiting : List (List ε)

namespace RoundRobin

open List

variable {ε : Type*}

/-- All queues, those in the slots first. -/
def queues (r : RoundRobin ε) : List (List ε) := r.slots ++ r.waiting

/-- Waiting queues take the free ones of `n` slots, in order. -/
def fill (n : ℕ) (r : RoundRobin ε) : RoundRobin ε :=
  { r with
    slots := r.slots ++ r.waiting.take (n - r.slots.length)
    waiting := r.waiting.drop (n - r.slots.length) }

/-- No queue waits while a slot is free. -/
def Full (n : ℕ) (r : RoundRobin ε) : Prop := n ≤ r.slots.length ∨ r.waiting = []

/-- The slot whose turn it is. -/
def index (r : RoundRobin ε) : ℕ := if r.cursor < r.slots.length then r.cursor else 0

/-- The rotation without the slot whose turn it is. -/
def drop (r : RoundRobin ε) : RoundRobin ε :=
  { r with
    slots := r.slots.eraseIdx r.index
    cursor := if r.index < (r.slots.eraseIdx r.index).length then r.index else 0 }

/-- The rotation after the slot whose turn it is kept the queue `rest`. -/
def advance (r : RoundRobin ε) (rest : List ε) : RoundRobin ε :=
  { r with
    slots := r.slots.set r.index rest
    cursor := (r.index + 1) % r.slots.length }

/-- One turn: the head of the queue whose turn it is, or its removal when it is exhausted. There
is no turn without slots. -/
def turn (n : ℕ) (r : RoundRobin ε) : Option (Option ε × RoundRobin ε) :=
  match r.slots[r.index]? with
  | none => none
  | some [] => some (none, r.drop.fill n)
  | some (e :: rest) => some (some e, r.advance rest)

/-- A bound on the turns that are left. -/
def size (r : RoundRobin ε) : ℕ := (r.queues.map (·.length + 1)).sum

/-! ## Slots -/

/-- Filling the slots keeps the queues. -/
@[simp] lemma queues_fill (n : ℕ) (r : RoundRobin ε) : (r.fill n).queues = r.queues := by
  simp [fill, queues, List.append_assoc]

/-- Filling the slots keeps whose turn it is. -/
@[simp] lemma cursor_fill (n : ℕ) (r : RoundRobin ε) : (r.fill n).cursor = r.cursor := rfl

/-- After filling, no queue waits while a slot is free. -/
lemma full_fill (n : ℕ) (r : RoundRobin ε) : (r.fill n).Full n := by
  simp only [Full, fill, List.length_append, List.length_take, List.drop_eq_nil_iff]
  omega

/-- Filling changes nothing when no queue waits while a slot is free. -/
lemma fill_of_full {n : ℕ} {r : RoundRobin ε} (h : r.Full n) : r.fill n = r := by
  obtain ⟨slots, cursor, waiting⟩ := r
  obtain h | rfl := h
  · simp [fill, Nat.sub_eq_zero_of_le h]
  · simp [fill]

/-- Letting one queue in first makes no difference to filling. -/
lemma fill_cons {n : ℕ} {r : RoundRobin ε} {queue : List ε} {waiting : List (List ε)}
    (hwaiting : r.waiting = queue :: waiting) (hfree : r.slots.length < n) :
    fill n { r with slots := r.slots ++ [queue], waiting := waiting } = r.fill n := by
  obtain ⟨slots, cursor, _⟩ := r
  subst hwaiting
  obtain ⟨k, hk⟩ : ∃ k, n - slots.length = k + 1 := ⟨n - slots.length - 1, by grind⟩
  have hk' : n - (slots.length + 1) = k := by omega
  simp [fill, hk, hk']

/-- There is a turn exactly when a slot is taken. -/
lemma index_lt {r : RoundRobin ε} (h : r.slots ≠ []) : r.index < r.slots.length := by
  have hpos := List.length_pos_iff.mpr h
  unfold index
  split <;> assumption

/-- No turn is left when no slot is taken, and only then. -/
lemma turn_eq_none {n : ℕ} {r : RoundRobin ε} : r.turn n = none ↔ r.slots = [] := by
  constructor
  · intro h
    by_contra hslots
    rw [turn, List.getElem?_eq_getElem (index_lt hslots)] at h
    have hindex := index_lt hslots
    cases hq : r.slots[r.index] <;> simp [hq] at h
  · intro h
    simp [turn, h]

/-! ## One turn -/

/-- A turn without an element removes an empty queue. -/
lemma queues_of_turn_none {n : ℕ} {r r' : RoundRobin ε} (h : r.turn n = some (none, r')) :
    ∃ before after, r.queues = before ++ [] :: after ∧ r'.queues = before ++ after := by
  rw [turn] at h
  split at h
  · cases h
  · rename_i hslot
    simp only [Option.some.injEq, Prod.mk.injEq, true_and] at h
    obtain ⟨hlt, hget⟩ := List.getElem?_eq_some_iff.mp hslot
    refine ⟨r.slots.take r.index, r.slots.drop (r.index + 1) ++ r.waiting, ?_, ?_⟩
    · rw [queues, ← hget, ← List.cons_append, List.getElem_cons_drop, ← List.append_assoc,
        List.take_append_drop]
    · rw [← h, queues_fill, queues, drop, List.eraseIdx_eq_take_drop_succ, List.append_assoc]
  · simp at h

/-- A turn with an element takes it from the head of a queue. -/
lemma queues_of_turn_some {n : ℕ} {r r' : RoundRobin ε} {e : ε}
    (h : r.turn n = some (some e, r')) :
    ∃ before rest after, r.queues = before ++ (e :: rest) :: after ∧
      r'.queues = before ++ rest :: after := by
  rw [turn] at h
  split at h
  · cases h
  · simp at h
  · rename_i e' rest hslot
    simp only [Option.some.injEq, Prod.mk.injEq] at h
    obtain ⟨rfl, rfl⟩ := h
    obtain ⟨hlt, hget⟩ := List.getElem?_eq_some_iff.mp hslot
    refine ⟨r.slots.take r.index, rest, r.slots.drop (r.index + 1) ++ r.waiting, ?_, ?_⟩
    · rw [queues, ← hget, ← List.cons_append, List.getElem_cons_drop, ← List.append_assoc,
        List.take_append_drop]
    · simp [queues, advance, List.set_eq_take_append_cons_drop, hlt]

/-- After a turn, no queue waits while a slot is free. -/
lemma full_of_turn {n : ℕ} {r r' : RoundRobin ε} {o : Option ε} (hfull : r.Full n)
    (h : r.turn n = some (o, r')) : r'.Full n := by
  rw [turn] at h
  split at h
  · cases h
  · simp only [Option.some.injEq, Prod.mk.injEq] at h
    exact h.2 ▸ full_fill n _
  · simp only [Option.some.injEq, Prod.mk.injEq] at h
    rw [← h.2]
    simpa [Full, advance] using hfull

/-- Every turn brings the end nearer. -/
lemma size_of_turn {n : ℕ} {r r' : RoundRobin ε} {o : Option ε} (h : r.turn n = some (o, r')) :
    r'.size < r.size := by
  cases o with
  | none =>
    obtain ⟨before, after, hr, hr'⟩ := queues_of_turn_none h
    simp [size, hr, hr']
  | some e =>
    obtain ⟨before, rest, after, hr, hr'⟩ := queues_of_turn_some h
    simp [size, hr, hr']

/-! ## The order of everything -/

/-- The order in which the rotation gives what it holds. -/
def order (n : ℕ) (r : RoundRobin ε) : List ε :=
  match h : r.turn n with
  | none => []
  | some (none, r') =>
    have := size_of_turn h
    order n r'
  | some (some e, r') =>
    have := size_of_turn h
    e :: order n r'
termination_by r.size

/-- The order in which queues that all wait are given, over `n` slots. -/
def merge (n : ℕ) (queues : List (List ε)) : List ε := order n (fill n ⟨[], 0, queues⟩)

/-- A rotation without slots gives nothing. -/
lemma order_of_nil {n : ℕ} {r : RoundRobin ε} (h : r.slots = []) : r.order n = [] := by
  rw [order]
  split
  · rfl
  · rename_i h'
    rw [turn_eq_none.mpr h] at h'
    cases h'
  · rename_i h'
    rw [turn_eq_none.mpr h] at h'
    cases h'

/-- A removal gives nothing. -/
lemma order_of_turn_none {n : ℕ} {r r' : RoundRobin ε} (h : r.turn n = some (none, r')) :
    r.order n = r'.order n := by
  rw [order]
  split
  all_goals simp_all

/-- A turn gives the head of the order. -/
lemma order_of_turn_some {n : ℕ} {r r' : RoundRobin ε} {e : ε}
    (h : r.turn n = some (some e, r')) : r.order n = e :: r'.order n := by
  rw [order]
  split
  all_goals simp_all

/-- A cursor on the slot it stands for stands for that slot. -/
lemma index_normalize (r : RoundRobin ε) : index { r with cursor := r.index } = r.index := by
  unfold index
  split <;> simp_all

/-- The cursor counts only through the slot it stands for. -/
lemma turn_normalize (n : ℕ) (r : RoundRobin ε) :
    turn n { r with cursor := r.index } = r.turn n := by
  simp only [turn, drop, advance, index_normalize]

/-- A cursor that is put on the slot it stands for changes nothing. -/
lemma order_normalize (n : ℕ) (r : RoundRobin ε) :
    order n { r with cursor := r.index } = r.order n := by
  have hnorm := turn_normalize n r
  cases hturn : r.turn n with
  | none =>
    exact (order_of_nil (turn_eq_none.mp (hnorm.trans hturn))).trans
      (order_of_nil (turn_eq_none.mp hturn)).symm
  | some next =>
    obtain ⟨_ | e, r'⟩ := next
    · rw [order_of_turn_none hturn, order_of_turn_none (hnorm.trans hturn)]
    · rw [order_of_turn_some hturn, order_of_turn_some (hnorm.trans hturn)]

/-- A rotation that is full and has no slot taken holds nothing. -/
lemma queues_of_nil {n : ℕ} {r : RoundRobin ε} (hn : 0 < n) (hfull : r.Full n)
    (h : r.slots = []) : r.queues = [] := by
  obtain hlen | hwait := hfull
  · simp [h] at hlen
    omega
  · simp [queues, h, hwait]

/-- **Everything once.** A full rotation gives everything its queues hold, exactly once. -/
theorem order_perm {n : ℕ} (hn : 0 < n) (r : RoundRobin ε) (hfull : r.Full n) :
    (r.order n).Perm r.queues.flatten := by
  induction r using order.induct n with
  | case1 r hturn =>
    have hslots := turn_eq_none.mp hturn
    simp [order_of_nil hslots, queues_of_nil hn hfull hslots]
  | case2 r r' hturn _ ih =>
    obtain ⟨before, after, hr, hr'⟩ := queues_of_turn_none hturn
    rw [order_of_turn_none hturn]
    simpa [hr, hr'] using ih (full_of_turn hfull hturn)
  | case3 r e r' hturn _ ih =>
    obtain ⟨before, rest, after, hr, hr'⟩ := queues_of_turn_some hturn
    rw [order_of_turn_some hturn, hr, List.flatten_append, List.flatten_cons]
    calc e :: r'.order n
      _ ~ e :: (before ++ rest :: after).flatten := (hr' ▸ ih (full_of_turn hfull hturn)).cons e
      _ = e :: (before.flatten ++ (rest ++ after.flatten)) := by simp
      _ ~ before.flatten ++ e :: (rest ++ after.flatten) := List.perm_middle.symm

/-- At most one of the queues has elements that satisfy `p`. -/
def Alone (p : ε → Bool) (queues : List (List ε)) : Prop :=
  queues.Pairwise fun a b => (∀ e ∈ a, p e = false) ∨ ∀ e ∈ b, p e = false

/-- What removes an empty queue keeps queues alone. -/
lemma Alone.of_removal {p : ε → Bool} {before after : List (List ε)}
    (h : Alone p (before ++ [] :: after)) : Alone p (before ++ after) :=
  List.Pairwise.sublist ((List.sublist_cons_self _ _).append_left before) h

/-- What takes the head of a queue keeps queues alone. -/
lemma Alone.of_head {p : ε → Bool} {before after : List (List ε)} {e : ε} {rest : List ε}
    (h : Alone p (before ++ (e :: rest) :: after)) : Alone p (before ++ rest :: after) := by
  simp only [Alone, List.pairwise_append, List.pairwise_cons, List.mem_cons, forall_eq_or_imp]
    at h ⊢
  obtain ⟨hbefore, ⟨hrest, hafter⟩, hcross⟩ := h
  refine ⟨hbefore, ⟨fun b hb => (hrest b hb).imp_left And.right, hafter⟩, fun a ha => ?_⟩
  exact ⟨(hcross a ha).1.imp_right And.right, (hcross a ha).2⟩

/-- An element of a queue that is alone comes first among its kind. -/
lemma Alone.filter_head {p : ε → Bool} {before after : List (List ε)} {e : ε} {rest : List ε}
    (h : Alone p (before ++ (e :: rest) :: after)) (hp : p e = true) :
    (before ++ (e :: rest) :: after).flatten.filter p =
      e :: (before ++ rest :: after).flatten.filter p := by
  have hbefore : before.flatten.filter p = [] := by
    rw [List.filter_eq_nil_iff]
    intro x hx
    obtain ⟨q, hq, hxq⟩ := List.mem_flatten.mp hx
    obtain hnone | hnone :=
      (List.pairwise_append.mp h).2.2 q hq (e :: rest) (List.mem_cons_self ..)
    · simp [hnone x hxq]
    · simp [hnone e (List.mem_cons_self ..)] at hp
  simp [hbefore, hp]

/-- **Order within a queue.** Elements that at most one queue has are given in the order in which
they stand there. -/
theorem order_filter {n : ℕ} (hn : 0 < n) (p : ε → Bool) (r : RoundRobin ε) (hfull : r.Full n)
    (halone : Alone p r.queues) : (r.order n).filter p = r.queues.flatten.filter p := by
  induction r using order.induct n with
  | case1 r hturn =>
    have hslots := turn_eq_none.mp hturn
    simp [order_of_nil hslots, queues_of_nil hn hfull hslots]
  | case2 r r' hturn _ ih =>
    obtain ⟨before, after, hr, hr'⟩ := queues_of_turn_none hturn
    rw [order_of_turn_none hturn, ih (full_of_turn hfull hturn) (hr' ▸ (hr ▸ halone).of_removal),
      hr, hr']
    simp
  | case3 r e r' hturn _ ih =>
    obtain ⟨before, rest, after, hr, hr'⟩ := queues_of_turn_some hturn
    have hrest := ih (full_of_turn hfull hturn) (hr' ▸ (hr ▸ halone).of_head)
    rw [order_of_turn_some hturn, List.filter_cons, hrest, hr, hr']
    split
    · rename_i hp
      exact ((hr ▸ halone).filter_head hp).symm
    · rename_i hp
      simp [hp]

/-- Queues that all wait are the queues of the filled rotation. -/
lemma queues_fill_waiting (n : ℕ) (queues : List (List ε)) :
    (fill n ⟨[], 0, queues⟩).queues = queues := queues_fill n _

/-- Merging queues gives everything they hold, exactly once. -/
lemma merge_perm {n : ℕ} (hn : 0 < n) (queues : List (List ε)) :
    (merge n queues).Perm queues.flatten := by
  have hperm := order_perm hn (fill n ⟨[], 0, queues⟩) (full_fill n _)
  rwa [queues_fill_waiting] at hperm

/-- Merging queues keeps the order of what only one of them has. -/
lemma merge_filter {n : ℕ} (hn : 0 < n) {p : ε → Bool} {queues : List (List ε)}
    (h : Alone p queues) : (merge n queues).filter p = queues.flatten.filter p := by
  have hqueues := queues_fill_waiting n queues
  rw [merge, order_filter hn p _ (full_fill n _) (hqueues.symm ▸ h), hqueues]

end RoundRobin
