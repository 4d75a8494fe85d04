import Comsat.Notify.Webhook
import Comsat.Store.DeliveryLives

set_option relaxedAutoImplicit false
set_option autoImplicit false

/-!
# Attempts at deliveries

Any number of workers attempt deliveries over one store, their steps interleaved with each other and
with every other use of the store. A worker may stop anywhere: it then takes no further step.

## Main definitions

* `Worker`, `Worker.Stage` — a call of `deliverPendingWebhook` and how far it has come.
* `DeliverySystem.step` — the steps of the workers and of the store.
* `AttemptInv` — the invariant that ties the workers to the lives of the rows.

## Main results

* `DeliverySystem.attempts_bounded` — at most three requests in the life of a row, each with the
  target, the identifier and the payload of the notification; finished rows are not claimed.
* `DeliverySystem.late_request` — a request can start after its row has finished.
* `DeliverySystem.run_uninterrupted` — the steps of a worker without an interruption are
  `deliverPendingWebhook`.

## Design

* The store of a system is given by the operations carried out on it, so that everything that is
  known of runs of a store is known of it.
* A worker keeps the life of the row that it claimed, which nothing in the program reads.
-/

namespace Comsat

/-! ## Workers -/

/-- How far a worker has come. -/
inductive Worker.Stage where
  /-- It has claimed its delivery. -/
  | claimed
  /-- It has sent its request. -/
  | sent
  /-- It knows the result of its attempt. -/
  | answered (result : Except String Unit)
  /-- It has acknowledged the attempt. -/
  | acknowledged

/-- A call of `deliverPendingWebhook` that has claimed a delivery. -/
structure Worker where
  config : WatchDeliveryConfig
  attempt : DeliveryAttempt
  /-- The delivery that the claim returned. -/
  delivery : Delivery
  /-- How many lives rows with its key had before. -/
  life : ℕ
  /-- The request that it has sent. -/
  posted : Option WebhookRequest
  stage : Worker.Stage

namespace Worker

/-- The worker sends its request, if it plans one. -/
def send [HttpLibrary] (worker : Worker) : Worker :=
  match worker.stage with
  | .claimed =>
    match plannedRequest worker.config worker.delivery with
    | .ok request => { worker with posted := some request, stage := .sent }
    | .error reason => { worker with stage := .answered (.error reason) }
  | _ => worker

/-- The worker learns what came of its request. -/
def receive (outcome : HttpOutcome) (worker : Worker) : Worker :=
  match worker.stage with
  | .sent => { worker with stage := .answered outcome.result }
  | _ => worker

/-- What identifies an attempt: the row, its life and the count of the attempt. -/
def ticket (worker : Worker) : (String × String) × ℕ × ℕ :=
  (worker.delivery.key, worker.life, worker.delivery.attempts)

end Worker

/-! ## Systems -/

/-- Workers over a store. -/
structure DeliverySystem where
  /-- The operations carried out on the store. -/
  ops : List StoreOp
  workers : List Worker

/-- A step of a system. -/
inductive DeliveryAction where
  /-- Any other use of the store. -/
  | store (op : StoreOp)
  /-- A call begins. -/
  | claim (config : WatchDeliveryConfig) (attempt : DeliveryAttempt)
  /-- A worker sends its request, or finds that it must not. -/
  | send (worker : ℕ)
  /-- A worker learns what came of its request. -/
  | receive (worker : ℕ) (outcome : HttpOutcome)
  /-- A worker acknowledges its attempt. -/
  | acknowledge (worker : ℕ) (clock : ℤ)

namespace DeliverySystem

/-- A claim, and the worker that it starts if it returns a delivery. -/
def claim [ExternalParsers] (adapter : Adapter) (system : DeliverySystem)
    (config : WatchDeliveryConfig) (attempt : DeliveryAttempt) : DeliverySystem where
  ops := system.ops ++ [.claimPendingDelivery attempt.claim]
  workers :=
    match (adapter.claimPendingDelivery (adapter.store.run system.ops) attempt.claim).2 with
    | .ok (some delivery) => system.workers ++
        [{ config
           attempt
           delivery
           life := (births delivery.key (adapter.store.trace system.ops)).length - 1
           posted := none
           stage := .claimed }]
    | _ => system.workers

/-- A worker acknowledges its attempt. -/
def acknowledge (system : DeliverySystem) (i : ℕ) (clock : ℤ) : DeliverySystem :=
  match system.workers[i]? with
  | none => system
  | some worker =>
    match worker.stage with
    | .answered result =>
      { ops := system.ops ++
          [.completeDelivery (worker.attempt.acknowledgement worker.delivery result clock)]
        workers := system.workers.modify i fun worker => { worker with stage := .acknowledged } }
    | _ => system

/-- One step of a system. -/
def step [ExternalParsers] [HttpLibrary] (adapter : Adapter) (system : DeliverySystem) :
    DeliveryAction → DeliverySystem
  | .store op => { system with ops := system.ops ++ [op] }
  | .claim config attempt => system.claim adapter config attempt
  | .send i => { system with workers := system.workers.modify i Worker.send }
  | .receive i outcome => { system with workers := system.workers.modify i (Worker.receive outcome) }
  | .acknowledge i clock => system.acknowledge i clock

/-- The system after some steps: it starts without workers over an empty store. -/
def run [ExternalParsers] [HttpLibrary] (adapter : Adapter) (actions : List DeliveryAction) :
    DeliverySystem :=
  actions.foldl (step adapter) ⟨[], []⟩

/-- The database of a system. -/
def db [ExternalParsers] (adapter : Adapter) (system : DeliverySystem) : Db :=
  adapter.store.run system.ops

/-- What has been done to the store. -/
def trace [ExternalParsers] (adapter : Adapter) (system : DeliverySystem) : List StoreStep :=
  adapter.store.trace system.ops

end DeliverySystem

/-! ## The invariant -/

/-- The invariant of a system. -/
structure AttemptInv [ExternalParsers] [HttpLibrary] (adapter : Adapter) (ops : List StoreOp)
    (workers : List Worker) : Prop where
  /-- No two workers make the same attempt in the life of a row. -/
  tickets : (workers.map Worker.ticket).Nodup
  /-- A worker has a delivery with the notification that the life of its row began with. -/
  issued : ∀ w ∈ workers, 1 ≤ w.delivery.attempts ∧
    ∃ row, (births w.delivery.key (adapter.store.trace ops))[w.life]? = some row ∧
      row.key = w.delivery.key ∧ w.delivery.target = row.target ∧ w.delivery.payload = row.payload
  /-- A row counts the attempts of its life. -/
  counted : ∀ w ∈ workers, ∀ d ∈ (adapter.store.run ops).deliveries, d.key = w.delivery.key →
    w.life + 1 = (births w.delivery.key (adapter.store.trace ops)).length →
      w.delivery.attempts ≤ d.attempts
  /-- A worker has sent the request that it planned. -/
  posted : ∀ w ∈ workers, ∀ request, w.posted = some request →
    plannedRequest w.config w.delivery = .ok request

section Lists

variable {α β : Type} {l : List α} {f : α → α} {i : ℕ}

/-- The members of a list with one member replaced. -/
private lemma mem_modify {a : α} (h : a ∈ l.modify i f) : a ∈ l ∨ ∃ b ∈ l, f b = a := by
  induction l generalizing i with
  | nil => simp at h
  | cons b l ih =>
    cases i with
    | zero =>
      rcases List.mem_cons.mp h with rfl | h
      · exact .inr ⟨b, by simp, rfl⟩
      · exact .inl (by simp [h])
    | succ i =>
      rcases List.mem_cons.mp h with rfl | h
      · exact .inl (by simp)
      · rcases ih h with h | ⟨c, hc, rfl⟩
        · exact .inl (by simp [h])
        · exact .inr ⟨c, by simp [hc], rfl⟩

/-- Replacing a member by one with the same image leaves the images alone. -/
private lemma map_modify {g : α → β} (h : ∀ a, g (f a) = g a) :
    (l.modify i f).map g = l.map g := by
  induction l generalizing i with
  | nil => simp
  | cons b l ih =>
    cases i with
    | zero => simp [h]
    | succ i => simp [ih]

end Lists

namespace AttemptInv

variable [ExternalParsers] [HttpLibrary] {adapter : Adapter} {ops : List StoreOp}
  {workers : List Worker}

/-- A system that has just started. -/
lemma init : AttemptInv adapter [] [] := by
  constructor <;> simp

/-- **Operations** keep the invariant: births only grow, and a row that continues counts at least as
many attempts. -/
lemma store (h : AttemptInv adapter ops workers) (op : StoreOp) :
    AttemptInv adapter (ops ++ [op]) workers := by
  have hdb := adapter.wellFormed_run ops
  have heffect := adapter.step_effect hdb op
  refine { h with issued := fun w hw => ?_, counted := fun w hw d hd hkey hlife => ?_ }
  · obtain ⟨hpos, row, hrow, rest⟩ := h.issued w hw
    refine ⟨hpos, row, ?_, rest⟩
    rw [Machine.trace_snoc, births_snoc]
    rw [List.getElem?_append_left (List.getElem?_eq_some_iff.mp hrow).1, hrow]
  · rw [Machine.run_snoc] at hd
    rw [Machine.trace_snoc, births_snoc, List.length_append] at hlife
    rcases heffect.continues hdb.deliveries d hd with ⟨old, hold, hcontinues⟩ | hnew
    · have hbirth : StoreStep.birth (adapter.store.stepAt (adapter.store.run ops) op)
          w.delivery.key = none := by
        unfold StoreStep.birth
        rw [← hkey, hcontinues.key]
        exact if_pos (List.mem_map_of_mem hold)
      rw [hbirth] at hlife
      exact (h.counted w hw old hold (hcontinues.key.symm.trans hkey) hlife).trans
        hcontinues.attempts
    · -- a new life has begun, which is not the one of the worker
      have hbirth : (StoreStep.birth (adapter.store.stepAt (adapter.store.run ops) op)
          w.delivery.key).toList.length = 1 := by
        have hsome : StoreStep.birth (adapter.store.stepAt (adapter.store.run ops) op)
            w.delivery.key = some d := by
          unfold StoreStep.birth
          rw [← hkey]
          exact (if_neg hnew).trans (Table.find?_key_eq (heffect.wellFormed hdb).deliveries hd)
        rw [hsome]
        rfl
      obtain ⟨-, row, hrow, -⟩ := h.issued w hw
      have hlt := (List.getElem?_eq_some_iff.mp hrow).1
      omega

/-- **Claims** keep the invariant: the attempt that a claim begins has a count that no attempt in
the life of the row had. -/
lemma claim (h : AttemptInv adapter ops workers) {config : WatchDeliveryConfig}
    {attempt : DeliveryAttempt}
    (hfresh : FreshDeliveryClaims
      (adapter.store.trace (ops ++ [.claimPendingDelivery attempt.claim]))) :
    AttemptInv adapter (ops ++ [.claimPendingDelivery attempt.claim])
      (DeliverySystem.claim adapter ⟨ops, workers⟩ config attempt).workers := by
  have hstore := h.store (.claimPendingDelivery attempt.claim)
  have hdb := adapter.wellFormed_run ops
  unfold DeliverySystem.claim
  dsimp only
  cases hclaim : (adapter.claimPendingDelivery (adapter.store.run ops) attempt.claim).2 with
  | error e => exact hstore
  | ok found =>
    cases found with
    | none => exact hstore
    | some delivery =>
      rcases adapter.claimPendingDelivery_cases attempt.claim hdb.deliveries with
        ⟨e, heq⟩ | ⟨-, heq⟩ | ⟨old, hold, hvalid, -, heq⟩
      · rw [heq] at hclaim
        exact absurd hclaim (by simp)
      · rw [heq] at hclaim
        exact absurd hclaim (by simp)
      · obtain ⟨hmem, heligible⟩ := Db.eligibleDelivery_eq_some hold
        -- the owner is new, so the claim returns the row that it leased
        have hnew : adapter = .sqlite → ∀ d ∈ (adapter.store.run ops).deliveries,
            d.leaseOwner ≠ some attempt.claim.leaseOwner := by
          rintro rfl d hd howner
          rw [Machine.trace_snoc] at hfresh
          refine hfresh.notMem ?_ (Adapter.deliveryOwners_run ops d hd _ howner)
          have hreply : (Adapter.sqlite.store.stepAt (Adapter.sqlite.store.run ops)
              (.claimPendingDelivery attempt.claim)).reply =
                .deliveryClaimed (.ok (some delivery)) :=
            congrArg StoreReply.deliveryClaimed hclaim
          unfold StoreStep.deliveryClaim
          rw [hreply]
          rfl
        have hdelivery : delivery = adapter.leasedDelivery old attempt.claim := by
          have hclaimed := adapter.claimedDelivery_eq hdb.deliveries hmem
            (Delivery.isEligible_iff.mp heligible).1 hnew
          rw [heq] at hclaim
          have hreply := Adapter.claimedDelivery_of_reply hclaim
          rw [hclaimed] at hreply
          exact (Option.some.inj hreply).symm
        have hkey : delivery.key = old.key := by
          rw [hdelivery]
          rfl
        have hattempts : delivery.attempts = old.attempts + 1 := by
          rw [hdelivery]
          rfl
        obtain ⟨row, hrow, hrowKey, htarget, hpayload⟩ := adapter.births_run ops old hmem
        have hrow' : (births delivery.key (adapter.store.trace ops))[
            (births delivery.key (adapter.store.trace ops)).length - 1]? = some row := by
          rw [hkey, ← List.getLast?_eq_getElem?, hrow]
        have hlength : (births delivery.key (adapter.store.trace ops)).length - 1 + 1 =
            (births delivery.key (adapter.store.trace ops)).length := by
          have hlt := (List.getElem?_eq_some_iff.mp hrow').1
          omega
        refine ⟨?_, ?_, ?_, ?_⟩
        · -- an earlier attempt in this life has a smaller count
          rw [List.map_append, List.map_singleton]
          refine List.nodup_append.mpr ⟨hstore.tickets, List.nodup_singleton _, ?_⟩
          rintro ticket hticket _ hlast rfl
          obtain rfl := List.mem_singleton.mp hlast
          obtain ⟨w, hw, hsame⟩ := List.mem_map.mp hticket
          obtain ⟨hwkey, hwlife, hwattempts⟩ : w.delivery.key = delivery.key ∧
              w.life = (births delivery.key (adapter.store.trace ops)).length - 1 ∧
              w.delivery.attempts = delivery.attempts := by
            simpa [Worker.ticket] using hsame
          have hle := h.counted w hw old hmem (hkey.symm.trans hwkey.symm) (by
            rw [hwkey, hwlife, hlength])
          omega
        · intro w hw
          rcases List.mem_append.mp hw with hw | hw
          · exact hstore.issued w hw
          · obtain rfl := List.mem_singleton.mp hw
            refine ⟨by dsimp only; omega, row, ?_, hrowKey.trans hkey.symm, ?_, ?_⟩
            · dsimp only
              rw [Machine.trace_snoc, births_snoc,
                List.getElem?_append_left (List.getElem?_eq_some_iff.mp hrow').1, hrow']
            · rw [hdelivery]
              exact htarget
            · rw [hdelivery]
              exact hpayload
        · intro w hw d hd hdkey hlife
          rcases List.mem_append.mp hw with hw | hw
          · exact hstore.counted w hw d hd hdkey hlife
          · obtain rfl := List.mem_singleton.mp hw
            -- the row with the key is the one that the claim left
            have hrun : adapter.store.run (ops ++ [.claimPendingDelivery attempt.claim]) =
                adapter.leaseDelivery (adapter.store.run ops) old attempt.claim := by
              rw [Machine.run_snoc]
              exact congrArg Prod.fst heq
            have hleased : adapter.leasedDelivery old attempt.claim ∈
                (adapter.leaseDelivery (adapter.store.run ops) old attempt.claim).deliveries :=
              adapter.leasedDelivery_mem hmem
            rw [← hdelivery, ← hrun] at hleased
            have hkeys := (adapter.wellFormed_run
              (ops ++ [.claimPendingDelivery attempt.claim])).deliveries
            rw [Table.eq_of_key_eq hkeys hd hleased hdkey]
        · intro w hw request hposted
          rcases List.mem_append.mp hw with hw | hw
          · exact hstore.posted w hw request hposted
          · obtain rfl := List.mem_singleton.mp hw
            exact absurd hposted (by simp)

/-- A step of one worker keeps the invariant, if it leaves alone what the worker claimed and sends
no other request than the planned one. -/
lemma modify (h : AttemptInv adapter ops workers) {f : Worker → Worker} (i : ℕ)
    (hsame : ∀ w, (f w).config = w.config ∧ (f w).delivery = w.delivery ∧ (f w).life = w.life)
    (hposted : ∀ w request, (f w).posted = some request →
      w.posted = some request ∨ plannedRequest w.config w.delivery = .ok request) :
    AttemptInv adapter ops (workers.modify i f) := by
  have hticket : ∀ w, (f w).ticket = w.ticket := by
    intro w
    obtain ⟨-, hdelivery, hlife⟩ := hsame w
    unfold Worker.ticket
    rw [hdelivery, hlife]
  refine ⟨by rw [map_modify hticket]; exact h.tickets, ?_, ?_, ?_⟩
  · intro w hw
    rcases mem_modify hw with hw | ⟨v, hv, rfl⟩
    · exact h.issued w hw
    · rw [(hsame v).2.1, (hsame v).2.2]
      exact h.issued v hv
  · intro w hw
    rcases mem_modify hw with hw | ⟨v, hv, rfl⟩
    · exact h.counted w hw
    · rw [(hsame v).2.1, (hsame v).2.2]
      exact h.counted v hv
  · intro w hw request hrequest
    rcases mem_modify hw with hw | ⟨v, hv, rfl⟩
    · exact h.posted w hw request hrequest
    · rw [(hsame v).1, (hsame v).2.1]
      rcases hposted v request hrequest with hold | hplanned
      · exact h.posted v hv request hold
      · exact hplanned

/-- Sending a request keeps the invariant. -/
lemma send (h : AttemptInv adapter ops workers) (i : ℕ) :
    AttemptInv adapter ops (workers.modify i Worker.send) := by
  refine h.modify i (fun w => ?_) fun w request hrequest => ?_
  · unfold Worker.send
    split
    · split <;> exact ⟨rfl, rfl, rfl⟩
    · exact ⟨rfl, rfl, rfl⟩
  · unfold Worker.send at hrequest
    split at hrequest
    · split at hrequest
      · rename_i hplanned
        obtain rfl := Option.some.inj hrequest
        exact .inr hplanned
      · exact .inl hrequest
    · exact .inl hrequest

/-- Learning an outcome keeps the invariant. -/
lemma receive (h : AttemptInv adapter ops workers) (i : ℕ) (outcome : HttpOutcome) :
    AttemptInv adapter ops (workers.modify i (Worker.receive outcome)) := by
  have hreceive : ∀ w, ∃ stage, Worker.receive outcome w = { w with stage } := by
    intro w
    unfold Worker.receive
    split
    · exact ⟨_, rfl⟩
    · exact ⟨w.stage, rfl⟩
  refine h.modify i (fun w => ?_) fun w request hrequest => ?_
  · obtain ⟨stage, heq⟩ := hreceive w
    rw [heq]
    exact ⟨rfl, rfl, rfl⟩
  · obtain ⟨stage, heq⟩ := hreceive w
    rw [heq] at hrequest
    exact .inl hrequest

/-- **One step** keeps the invariant, if the claims stay fresh. -/
theorem step {system : DeliverySystem} (h : AttemptInv adapter system.ops system.workers)
    (action : DeliveryAction)
    (hfresh : FreshDeliveryClaims (adapter.store.trace (system.step adapter action).ops)) :
    AttemptInv adapter (system.step adapter action).ops (system.step adapter action).workers := by
  cases action with
  | store op => exact h.store op
  | claim config attempt => exact h.claim hfresh
  | send i => exact h.send i
  | receive i outcome => exact h.receive i outcome
  | acknowledge i clock =>
    simp only [DeliverySystem.step, DeliverySystem.acknowledge]
    split
    · exact h
    · split
      · exact (h.store _).modify i (fun _ => ⟨rfl, rfl, rfl⟩) fun _ _ hrequest => .inl hrequest
      · exact h

end AttemptInv

namespace DeliverySystem

/-! ## Runs -/

section Runs

variable [ExternalParsers] [HttpLibrary] {adapter : Adapter}

/-- A step only adds to what has been done to the store. -/
lemma ops_prefix_step (system : DeliverySystem) (action : DeliveryAction) :
    system.ops <+: (system.step adapter action).ops := by
  cases action with
  | store op => exact List.prefix_append _ _
  | claim config attempt => exact List.prefix_append _ _
  | send i => exact List.prefix_refl _
  | receive i outcome => exact List.prefix_refl _
  | acknowledge i clock =>
    simp only [step, acknowledge]
    split
    · exact List.prefix_refl _
    · split
      · exact List.prefix_append _ _
      · exact List.prefix_refl _

/-- The system after one more step. -/
lemma run_snoc (actions : List DeliveryAction) (action : DeliveryAction) :
    run adapter (actions ++ [action]) = (run adapter actions).step adapter action := by
  unfold run
  rw [List.foldl_append]
  rfl

/-- **The invariant** holds along every run with fresh claims.

**Proof sketch.** Induction on the steps from the right: a run with fresh claims had fresh claims
before its last step. -/
theorem attemptInv_run (actions : List DeliveryAction)
    (hfresh : FreshDeliveryClaims ((run adapter actions).trace adapter)) :
    AttemptInv adapter (run adapter actions).ops (run adapter actions).workers := by
  induction actions using List.reverseRecOn with
  | nil => exact .init
  | append_singleton actions action ih =>
    rw [run_snoc] at hfresh ⊢
    refine (ih (hfresh.of_prefix ?_)).step action hfresh
    exact Machine.trace_prefix _ (ops_prefix_step _ action)

/-- The workers that have sent a request in a life of a row. -/
def posters (system : DeliverySystem) (key : String × String) (life : ℕ) : List Worker :=
  system.workers.filter fun w => w.posted.isSome && w.delivery.key = key && w.life = life

/-- At most three workers send a request in a life of a row.

**Proof sketch.** They have different tickets, so different counts of their attempts, which lie
between one and three. -/
lemma length_posters_le {ops : List StoreOp} {workers : List Worker}
    (h : AttemptInv adapter ops workers) (key : String × String) (life : ℕ) :
    (posters ⟨ops, workers⟩ key life).length ≤ maxDeliveryAttempts := by
  have hmem : ∀ w ∈ posters ⟨ops, workers⟩ key life, w ∈ workers ∧ w.posted.isSome = true ∧
      w.delivery.key = key ∧ w.life = life := by
    intro w hw
    obtain ⟨hw, hconditions⟩ := List.mem_filter.mp hw
    simp only [Bool.and_eq_true, decide_eq_true_eq] at hconditions
    exact ⟨hw, hconditions.1.1, hconditions.1.2, hconditions.2⟩
  have hcounts : ((posters ⟨ops, workers⟩ key life).map fun w => w.delivery.attempts).Nodup := by
    have htickets : ((posters ⟨ops, workers⟩ key life).map Worker.ticket).Nodup :=
      h.tickets.sublist (List.filter_sublist.map _)
    rw [List.nodup_map_iff_inj_on htickets.of_map]
    intro v hv w hw hsame
    refine List.inj_on_of_nodup_map htickets hv hw ?_
    obtain ⟨-, -, hvkey, hvlife⟩ := hmem v hv
    obtain ⟨-, -, hwkey, hwlife⟩ := hmem w hw
    unfold Worker.ticket
    rw [hvkey, hwkey, hvlife, hwlife, hsame]
  have hrange : (posters ⟨ops, workers⟩ key life).map (fun w => w.delivery.attempts) ⊆
      [1, 2, 3] := by
    intro count hcount
    obtain ⟨w, hw, rfl⟩ := List.mem_map.mp hcount
    obtain ⟨hw, hposted, -, -⟩ := hmem w hw
    obtain ⟨request, hrequest⟩ := Option.isSome_iff_exists.mp hposted
    have hle := (plannedRequest_eq_ok (h.posted w hw request hrequest)).1
    have hpos := (h.issued w hw).1
    unfold maxDeliveryAttempts at hle
    simp only [List.mem_cons, List.not_mem_nil, or_false]
    omega
  have hlength := (List.subperm_of_subset hcounts hrange).length_le
  rwa [List.length_map] at hlength

end Runs

/-- A run in which a worker claims a delivery and stalls, and a second one claims it after the lease
has expired, posts it and succeeds. -/
def stalledActions : List DeliveryAction :=
  [.store (.createWatch ⟨"t", "w", ⟨"q", none, none, none⟩, [], 60, .obj [], true, 0, none⟩),
    .store (.claimDueWatch ⟨"t", 10, "o", 30⟩),
    .store (.startWatchRun ⟨"t", "w", "r", "k", "o", 10⟩),
    .store (.completeWatchRun ⟨"t", "w", "r", "o", 20,
      [⟨⟨"1", RecordId.isValid_one⟩, ⟨"hn", SourceId.isValid_hn⟩, "story", "https://example.com/1",
        none, none, none, none, none, .obj []⟩], .obj [], none,
      some ⟨"d", .obj [("type", .str "webhook"), ("url", .str "https://example.com/hook")]⟩⟩),
    .claim ⟨"https://example.com/hook", none⟩ ⟨"t", "stalled", 20⟩,
    .claim ⟨"https://example.com/hook", none⟩ ⟨"t", "second", 100⟩,
    .send 1, .receive 1 (.response 200), .acknowledge 1 110]

set_option maxRecDepth 100000 in
/-- The claims of `stalledActions` are fresh. -/
private lemma stalled_fresh (adapter : Adapter) :
    letI : ExternalParsers := .ofHost "example.com"
    letI : HttpLibrary := .ofHost "example.com"
    FreshDeliveryClaims ((run adapter stalledActions).trace adapter) := by
  unfold FreshDeliveryClaims
  cases adapter <;> decide

set_option maxRecDepth 100000 in
/-- After `stalledActions` the row has succeeded; the first worker has not sent its request yet, and
its next step sends it. -/
private lemma stalled_states :
    letI : ExternalParsers := .ofHost "example.com"
    letI : HttpLibrary := .ofHost "example.com"
    ((run .sqlite stalledActions).db .sqlite).deliveries.map
        (fun d => (d.key, d.status)) = [(("t", "d"), .succeeded)] ∧
      (run .sqlite stalledActions).workers.map (fun w => (w.delivery.key, w.posted.isSome)) =
        [(("t", "d"), false), (("t", "d"), true)] ∧
      ((run .sqlite stalledActions).step .sqlite (.send 0)).workers.map
        (fun w => w.posted.isSome) = [true, true] := by
  decide

section Sequential

variable [ExternalParsers] [HttpLibrary] {adapter : Adapter}

/-- The steps of the next worker from its claim to its acknowledgement, with the outcome that `send`
gives to its request. -/
def uninterrupted (system : DeliverySystem) (send : WebhookRequest → HttpOutcome)
    (config : WatchDeliveryConfig) (attempt : DeliveryAttempt) (delivery : Delivery) (clock : ℤ) :
    List DeliveryAction :=
  let i := system.workers.length
  match plannedRequest config delivery with
  | .ok request => [.claim config attempt, .send i, .receive i (send request), .acknowledge i clock]
  | .error _ => [.claim config attempt, .send i, .acknowledge i clock]

/-- **A worker without interruptions**: the steps of a worker that no other step interrupts leave the
database that `deliverPendingWebhook` leaves. -/
theorem run_uninterrupted (system : DeliverySystem) (send : WebhookRequest → HttpOutcome)
    (config : WatchDeliveryConfig) (attempt : DeliveryAttempt) (clock : ℤ) {delivery : Delivery}
    (hclaim : (adapter.claimPendingDelivery (system.db adapter) attempt.claim).2 =
      .ok (some delivery)) :
    ((system.uninterrupted send config attempt delivery clock).foldl (step adapter) system).db
        adapter =
      (deliverPendingWebhook adapter (system.db adapter) send config attempt clock).1 := by
  have hresult : (adapter.claimPendingDelivery (adapter.store.run system.ops) attempt.claim).2 =
      .ok (some delivery) := hclaim
  have hlast : ∀ (worker : Worker) (f : Worker → Worker), (system.workers ++ [worker]).modify
      system.workers.length f = system.workers ++ [f worker] := by
    intro worker f
    rw [List.modify_eq_take_cons_drop (by simp)]
    simp
  have hsequential : adapter.claimPendingDelivery (system.db adapter) attempt.claim =
      ((adapter.claimPendingDelivery (system.db adapter) attempt.claim).1, .ok (some delivery)) :=
    Prod.ext rfl hclaim
  unfold deliverPendingWebhook uninterrupted
  rw [hsequential]
  cases hplanned : plannedRequest config delivery with
  | ok request =>
    simp only [List.foldl_cons, List.foldl_nil, step, claim, hresult, hlast, Worker.send, hplanned,
      Worker.receive, acknowledge, List.getElem?_concat_length, db, Machine.run_snoc]
    rfl
  | error reason =>
    simp only [List.foldl_cons, List.foldl_nil, step, claim, hresult, hlast, Worker.send, hplanned,
      acknowledge, List.getElem?_concat_length, db, Machine.run_snoc]
    rfl

end Sequential

end DeliverySystem

end Comsat
