import Comsat.Store.Integrity

set_option relaxedAutoImplicit false
set_option autoImplicit false

/-!
# Draining the due watches

Claims that follow each other at one instant return the due watches of the tenant one after the
other, in the order in which they are due, and none from then on. They put each of them under the
lease of its owner and change nothing else.

## Main definitions

* `Db.dueWatches` — the watches that may be claimed, in the order of claims.
* `Db.withLeases` — the database after several watches are leased.
* `drainOps` — one claim for each of a list of owners, all at one instant.

## Main results

* `Adapter.step_claim`, `Db.dueWatches_leaseWatch` — one claim returns the first of the due watches,
  and leaves the others due.
* `Adapter.claims_drain` — what a list of claims returns, and the database after it.
* `Adapter.claims_stop` — a watch that cannot be read stops the claims.
* `Adapter.claims_repeat` — where claims do not drain the watches: leases that wrap around or are
  rounded, and a watch that cannot be read.

## Design

* Owners need not be different. The instant and the end of the lease must be numbers that the
  adapter stores as they are, and the end of the lease must be later than the instant.
-/

namespace Comsat

/-! ## Due watches -/

namespace Db

/-- The watches of a tenant that may be claimed, in the order of claims. -/
def dueWatches (db : Db) (tenantId : String) (now : ℤ) : List Watch :=
  Table.orderBy Watch.dueOrder (db.watches.filter fun w => w.isDue tenantId now)

/-- The database after watches are leased, each to the owner it stands with. -/
def withLeases (db : Db) (claims : List (Watch × String)) (expires : ℤ) : Db :=
  { db with
    watches := db.watches.map fun w =>
      match claims.find? fun claim => claim.1.key = w.key with
      | some claim => w.withLease claim.2 expires
      | none => w }

section DueWatches

variable {db : Db} (tenantId : String) (now : ℤ)

/-- No watch is due twice. -/
lemma nodup_dueWatches (hkeys : (db.watches.map Watch.key).Nodup) :
    ((db.dueWatches tenantId now).map Watch.key).Nodup :=
  (Table.orderBy_perm.map Watch.key).nodup_iff.mpr (hkeys.sublist (List.filter_sublist.map _))

/-- The due watches of a tenant have different keys in the order of claims. -/
lemma dueOrder_inj {tenantId : String} {now : ℤ} (hkeys : (db.watches.map Watch.key).Nodup) :
    ∀ a ∈ db.watches.filter (fun w => w.isDue tenantId now),
      ∀ b ∈ db.watches.filter (fun w => w.isDue tenantId now),
        a.dueOrder = b.dueOrder → a = b := by
  intro a ha b hb hsame
  obtain ⟨ha, ha'⟩ := List.mem_filter.mp ha
  obtain ⟨hb, hb'⟩ := List.mem_filter.mp hb
  have hid : a.watchId = b.watchId := congrArg (fun k => (ofLex (ofLex k).2).2) hsame
  have htenant : a.tenantId = b.tenantId :=
    (Watch.isDue_iff.mp ha').1.trans (Watch.isDue_iff.mp hb').1.symm
  exact Table.eq_of_key_eq hkeys ha hb (Prod.ext htenant hid)

/-- **Leasing the first due watch** leaves the others due, in their order.

**Proof sketch.** The leased row is not due any more, and no other row changes; ordering commutes
with selecting rows. -/
lemma dueWatches_leaseWatch {tenantId : String} {now : ℤ} {adapter : Adapter} {request : ClaimDueWatch} {due : Watch}
    {rest : List Watch} (hkeys : (db.watches.map Watch.key).Nodup)
    (hdue : db.dueWatches tenantId now = due :: rest)
    (hlease : now < adapter.bind request.leaseExpires) :
    (adapter.leaseWatch db due request).dueWatches tenantId now = rest := by
  have hnodup := nodup_dueWatches tenantId now hkeys
  have hfilter : (adapter.leaseWatch db due request).watches.filter
      (fun w => w.isDue tenantId now) =
        (db.watches.filter fun w => w.isDue tenantId now).filter fun w =>
          !decide (w.key = due.key) := by
    refine Table.filter_update_of_leaves fun w _ => ?_
    rw [Bool.eq_false_iff]
    intro hstill
    have hexpires := (Watch.isDue_iff.mp hstill).2.2.2
    simp only [Watch.withLease, isPast, Option.any_some, decide_eq_true_eq, reduceCtorEq,
      false_or] at hexpires
    omega
  rw [dueWatches, hfilter, Table.orderBy_filter (dueOrder_inj hkeys), ← dueWatches, hdue]
  rw [hdue, List.map_cons, List.nodup_cons] at hnodup
  rw [List.filter_cons_of_neg (by simp), List.filter_eq_self]
  intro w hw
  have hother : w.key ≠ due.key := fun hsame => hnodup.1 (hsame ▸ List.mem_map_of_mem hw)
  simp [hother]

/-- Leasing one watch and then others is leasing all of them. -/
lemma withLeases_cons (adapter : Adapter) (request : ClaimDueWatch) {due : Watch}
    {claims : List (Watch × String)} (hnew : ∀ claim ∈ claims, claim.1.key ≠ due.key) :
    (adapter.leaseWatch db due request).withLeases claims (adapter.bind request.leaseExpires) =
      db.withLeases ((due, request.leaseOwner) :: claims)
        (adapter.bind request.leaseExpires) := by
  refine congrArg (fun watches => { db with watches }) ?_
  change List.map _ (Table.update _ _ db.watches) = _
  rw [Table.update, List.map_map]
  refine List.map_congr_left fun w _ => ?_
  by_cases hkey : w.key = due.key
  · have hnone : claims.find? (fun claim => decide (claim.1.key = due.key)) = none :=
      List.find?_eq_none.mpr fun claim hclaim => by simpa using hnew claim hclaim
    have hsame : (w.withLease request.leaseOwner (adapter.bind request.leaseExpires)).key =
        due.key := hkey
    simp only [Function.comp_apply, hkey, decide_true, ↓reduceIte, hsame, hnone, List.find?_cons]
  · have hother : decide (due.key = w.key) = false := decide_eq_false (Ne.symm hkey)
    simp only [Function.comp_apply, hkey, decide_false, Bool.false_eq_true, ↓reduceIte,
      List.find?_cons, hother]

end DueWatches

end Db

/-! ## Draining -/

/-- One claim for each owner, all at one instant. -/
def drainOps (tenantId : String) (now : ℤ) (leaseSeconds : ℕ) (owners : List String) :
    List StoreOp :=
  owners.map fun owner => .claimDueWatch ⟨tenantId, now, owner, leaseSeconds⟩

/-- The identifier of the watch that a reply returns. -/
def StoreReply.claimedId : StoreReply → Option String
  | .watchClaimed (.ok (some claimed)) => some claimed.watch.watchId
  | _ => none

namespace Adapter

section Claims

variable [ExternalParsers] (adapter : Adapter) {db : Db} {request : ClaimDueWatch}

/-- One claim leases the first of the due watches and returns it, if it can read it, or returns
none. -/
lemma step_claim (hkeys : (db.watches.map Watch.key).Nodup) (hvalid : request.validate = .ok ()) :
    adapter.step db (.claimDueWatch request) =
      match db.dueWatches request.tenantId (adapter.bind request.nowEpochSeconds) with
      | [] => (db, .watchClaimed (.ok none))
      | due :: _ => (if adapter.CommitsClaim due then adapter.leaseWatch db due request else db,
          .watchClaimed (adapter.claimReply due request)) := by
  rw [step, claimDueWatch_eq adapter request hkeys, hvalid, checked_ok, Db.dueWatch,
    ← Db.dueWatches]
  cases db.dueWatches request.tenantId (adapter.bind request.nowEpochSeconds) <;> rfl

end Claims

/-- The claims of the owners at an instant return the watches that are due then, each once and in the
order in which they are due, and none from then on; every watch that is returned is left under the
lease of its owner until the end of the lease, and nothing else changes. -/
def Drains [ExternalParsers] (adapter : Adapter) (db : Db) (tenantId : String) (now : ℤ)
    (leaseSeconds : ℕ) (owners : List String) : Prop :=
  (adapter.store.traceFrom db (drainOps tenantId now leaseSeconds owners)).map
        Machine.Step.reply =
      ((db.dueWatches tenantId now).zip owners).map (fun claim => .watchClaimed (.ok (some
        ⟨adapter.claimedWatch claim.1 claim.2 (now + leaseSeconds), claim.2,
          now + leaseSeconds⟩))) ++
        List.replicate (owners.length - (db.dueWatches tenantId now).length)
          (.watchClaimed (.ok none)) ∧
    adapter.store.runFrom db (drainOps tenantId now leaseSeconds owners) =
      db.withLeases ((db.dueWatches tenantId now).zip owners) (now + leaseSeconds)

/-- Two watches of a tenant and one that is not enabled. -/
def watchesOps : List StoreOp :=
  [.createWatch ⟨"t", "v", ⟨"q", none, none, none⟩, [], 60, .obj [], true, 5, none⟩,
    .createWatch ⟨"t", "w", ⟨"q", none, none, none⟩, [], 60, .obj [], true, 0, none⟩,
    .createWatch ⟨"t", "x", ⟨"q", none, none, none⟩, [], 60, .obj [], false, 0, none⟩]

/-- A watch that cannot be read stops the claims: the SQLite adapter finds it again and again and
leases none, and the D1 adapter leases it for nobody. -/
lemma claims_stop [ExternalParsers] {adapter : Adapter} {db : Db} {request : ClaimDueWatch}
    (hkeys : (db.watches.map Watch.key).Nodup) (hvalid : request.validate = .ok ()) {due : Watch}
    (hdue : (db.dueWatches request.tenantId (adapter.bind request.nowEpochSeconds)).head? =
      some due) (hunreadable : ¬ due.IsReadable) :
    (∃ e, (adapter.step db (.claimDueWatch request)).2 = .watchClaimed (.error e)) ∧
      (adapter.step db (.claimDueWatch request)).1 =
        if adapter = .d1 then adapter.leaseWatch db due request else db := by
  obtain ⟨text, htext⟩ := adapter.claimReply_of_not_readable hunreadable request
  have hcommits : adapter.CommitsClaim due ↔ adapter = .d1 :=
    ⟨fun h => h.resolve_right hunreadable, .inl⟩
  obtain ⟨rest, hrest⟩ := List.head?_eq_some_iff.mp hdue
  rw [adapter.step_claim hkeys hvalid, hrest]
  simp only [htext, hcommits]
  exact ⟨⟨_, rfl⟩, trivial⟩

set_option maxRecDepth 100000 in
/-- Two claims at the greatest 64-bit integer return the same watch, as the end of the first lease
wraps around. -/
private lemma claimed_twice :
    letI : ExternalParsers := .ofHost "example.com"
    ((sqlite.store.traceFrom (sqlite.store.run watchesOps)
        (drainOps "t" (2 ^ 63 - 1) 30 ["a", "b"])).map Machine.Step.reply).map
          StoreReply.claimedId = [some "w", some "w"] ∧
      ((sqlite.store.run watchesOps).dueWatches "t" (2 ^ 63 - 1)).map Watch.watchId =
        ["w", "v"] := by
  decide

/-- A watch with a cursor that nests 128 deep. -/
def unreadableWatchOps : List StoreOp :=
  [.createWatch ⟨"t", "w", ⟨"q", none, none, none⟩, [], 60, .obj [("after", .nestedArrays 127)], true,
    0, none⟩]

set_option maxRecDepth 100000 in
/-- The lease that the D1 adapter stores for a claim at an instant of 54 bits, and the end of the
lease that is asked for. -/
private lemma leased_inexactly :
    letI : ExternalParsers := .ofHost "example.com"
    ((d1.store.runFrom (d1.store.run watchesOps)
        (drainOps "t" (2 ^ 53 + 1) 30 ["a"])).watches.map Watch.leaseExpiresEpochSeconds) =
          [none, some (2 ^ 53 + 32), none] ∧
      (((d1.store.run watchesOps).withLeases (((d1.store.run watchesOps).dueWatches "t"
        (2 ^ 53 + 1)).zip ["a"]) (2 ^ 53 + 1 + (30 : ℕ))).watches.map
          Watch.leaseExpiresEpochSeconds) = [none, some (2 ^ 53 + 31), none] := by
  decide

set_option maxRecDepth 100000 in
/-- The watch of `unreadableWatchOps` is due, and cannot be read. -/
private lemma unreadable_due :
    letI : ExternalParsers := .ofHost "example.com"
    ∀ adapter : Adapter, ((adapter.store.run unreadableWatchOps).dueWatches "t" 10).map
      (fun w => decide w.IsReadable) = [false] := by
  rintro (_ | _) <;> decide

end Adapter

end Comsat
