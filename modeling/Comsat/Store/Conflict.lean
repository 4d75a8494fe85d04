import Comsat.Store.Integrity

set_option relaxedAutoImplicit false
set_option autoImplicit false

/-!
# Conflicts of the D1 adapter

The D1 adapter decodes the results of a completion batch after the batch has committed, so a
reported conflict is only harmless if every statement of the batch was a no-op. This file decides
when it is.

## Main results

* `D1Store.conflict_unchanged_iff` — a conflict leaves the database alone exactly when the state is
  not stale: when the worker does not hold the lease, or the run is not already finished under it
  at the instant of the request.
* `D1Store.conflict_changes_database` — a run that ends in a stale state.

## Implementation notes

* The last statement of the batch looks for a *finished* run, since the statement before it has
  just finished one. It cannot tell a run that was finished by this batch from one that an earlier
  batch finished at the same instant, and the lease it checks may belong to a later claim under
  the same owner. The SQLite adapter checks the run first and rolls back
  (`SqliteStore.completeWatchRun_eq`).
-/

namespace Comsat.D1Store

/-- Ending the lease of a leased watch changes the database. -/
private lemma watchesAfter_ne {db : Db} {request : CompleteWatchRun} {w : Watch}
    (hw : w ∈ db.watches) (hleased : w.isLeasedTo request.tenantId request.watchId
      request.leaseOwner (int request.finishedAtEpochSeconds) = true) :
    Adapter.d1.watchesAfter request db.watches ≠ db.watches := by
  intro heq
  obtain ⟨hkey, howner, -⟩ := Watch.isLeasedTo_iff.mp hleased
  -- no watch with the key of the request is leased afterwards
  have hfree : ∀ v ∈ Adapter.d1.watchesAfter request db.watches,
      v.key = (request.tenantId, request.watchId) → v.leaseOwner = none := by
    intro v hv hk
    rcases Table.mem_update.mp hv with ⟨-, hnot⟩ | ⟨old, -, -, rfl⟩
    · exact absurd hk (of_decide_eq_false hnot)
    · rfl
  rw [heq] at hfree
  rw [hfree w hw hkey] at howner
  exact absurd howner (by simp)

/-- **A conflict and the database**: in every reachable state of the D1 store, a completion that is
reported as a conflict leaves the database alone if and only if it does not meet a stale state.

**Proof sketch.** An open gate is decoded to a success. A closed gate is decoded to a conflict; then
no statement acts but possibly the last one, which acts exactly in a stale state and then ends a
lease. -/
theorem conflict_unchanged_iff [ExternalParsers] (ops : List StoreOp) (request : CompleteWatchRun)
    (hvalid : request.validate = .ok ()) :
    ((∃ message, (completeWatchRun (Adapter.d1.store.run ops) request).2 =
          .error (.conflict message)) →
        (completeWatchRun (Adapter.d1.store.run ops) request).1 = Adapter.d1.store.run ops) ↔
      ¬ (RecordsFit request ∧ IsStaleFinish (Adapter.d1.store.run ops) request) := by
  have hdb := Adapter.d1.wellFormed_run ops
  generalize Adapter.d1.store.run ops = db at hdb ⊢
  constructor
  · rintro h ⟨hfit, hstale⟩
    -- a stale state closes the gate, since its run is not running
    have hclosed : isOpen db request = false := by
      rw [Bool.eq_false_iff]
      intro hopen
      obtain ⟨-, r, hr, hrunning⟩ := isOpen_iff.mp hopen
      obtain ⟨-, q, hq, hfinished⟩ := hstale
      obtain ⟨hrkey, -, hstatus⟩ := WatchRun.isRunningUnder_iff.mp hrunning
      obtain ⟨hqkey, -, hnot, -⟩ := isFinishedUnder_iff.mp hfinished
      obtain rfl := Table.eq_of_key_eq hdb.watchRuns hr hq (hrkey.trans hqkey.symm)
      exact hnot hstatus
    obtain ⟨hconflict, -, hacts⟩ := batch_closed request hclosed
    rw [completeWatchRun_of_fit hvalid hfit] at h
    have hsame : { db with watches := Adapter.d1.watchesAfter request db.watches } = db :=
      (hacts hdb.watches hstale).symm.trans (h hconflict)
    obtain ⟨⟨w, hw, hleased⟩, -⟩ := hstale
    exact watchesAfter_ne hw hleased (congrArg Db.watches hsame)
  · rintro hnot ⟨message, hconflict⟩
    by_cases hfit : RecordsFit request
    · rw [completeWatchRun_of_fit hvalid hfit] at hconflict ⊢
      cases hopen : isOpen db request with
      | true =>
        obtain ⟨-, houtcome⟩ := batch_open request hdb.toKeysUnique
          (fun w hw => (hdb.intervals w hw).1) hopen
        exact absurd (houtcome.symm.trans hconflict) (by simp)
      | false => exact (batch_closed request hopen).2.1 fun hstale => hnot ⟨hfit, hstale⟩
    · have hjson : recordsJson request =
          .error (.validation "serialized D1 completion records exceed 1048576 bytes") := by
        unfold recordsJson
        exact if_neg hfit
      unfold completeWatchRun
      rw [hvalid, checked_ok, hjson]
      rfl

/-! ## A stale state -/

/-- A run that ends in a stale state: after a run is completed at second 20, its owner claims the
watch again at second 21. -/
def staleOps : List StoreOp :=
  [.createWatch ⟨"t", "w", ⟨"q", none, none, none⟩, [], 1, .obj [], true, 0, none⟩,
    .claimDueWatch ⟨"t", 10, "o", 30⟩,
    .startWatchRun ⟨"t", "w", "r", "k", "o", 10⟩,
    .completeWatchRun ⟨"t", "w", "r", "o", 20, [], .obj [], none, none⟩,
    .claimDueWatch ⟨"t", 21, "o", 30⟩]

/-- The completion of `staleOps`, repeated. -/
def staleRequest : CompleteWatchRun := ⟨"t", "w", "r", "o", 20, [], .obj [], none, none⟩

set_option maxRecDepth 100000 in
/-- The equivalence at `staleOps`. -/
theorem conflict_unchanged_iff_stale :
    letI : ExternalParsers := .ofHost "example.com"
    ((∃ message, (completeWatchRun (Adapter.d1.store.run staleOps) staleRequest).2 =
          .error (.conflict message)) →
        (completeWatchRun (Adapter.d1.store.run staleOps) staleRequest).1 =
          Adapter.d1.store.run staleOps) ↔
      ¬ (RecordsFit staleRequest ∧ IsStaleFinish (Adapter.d1.store.run staleOps) staleRequest) :=
  @conflict_unchanged_iff (.ofHost "example.com") staleOps staleRequest rfl

set_option maxRecDepth 100000 in
/-- The lease of the watch before and after the completion is repeated. -/
private lemma stale_leases :
    letI : ExternalParsers := .ofHost "example.com"
    (Adapter.d1.store.run staleOps).watches.map Watch.leaseOwner = [some "o"] ∧
      (completeWatchRun (Adapter.d1.store.run staleOps) staleRequest).1.watches.map
        Watch.leaseOwner = [none] := by
  decide

set_option maxRecDepth 100000 in
/-- A conflict does not always leave the database alone: the one that is reported for
`staleRequest` after `staleOps` has ended a lease. -/
theorem conflict_changes_database :
    letI : ExternalParsers := .ofHost "example.com"
    ¬ ∀ (ops : List StoreOp) (request : CompleteWatchRun), request.validate = .ok () →
      (∃ message, (completeWatchRun (Adapter.d1.store.run ops) request).2 =
        .error (.conflict message)) →
      (completeWatchRun (Adapter.d1.store.run ops) request).1 = Adapter.d1.store.run ops := by
  intro h
  have hsame := h staleOps staleRequest rfl ⟨"watch lease is not held by this worker", rfl⟩
  obtain ⟨hbefore, hafter⟩ := stale_leases
  rw [hsame, hbefore] at hafter
  exact absurd hafter (by simp)

end Comsat.D1Store
