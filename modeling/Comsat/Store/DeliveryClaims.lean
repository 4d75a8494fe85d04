import Comsat.Store.DeliveryLeases
import Comsat.Store.Outbox

set_option relaxedAutoImplicit false
set_option autoImplicit false

/-!
# What the claim of a delivery returns

A claim leases the first delivery that may be attempted. The D1 adapter returns the row that its
statement updated. The SQLite adapter updates the same row and then looks for a delivery of the
owner, the last lease to expire first: if the owner holds another delivery under a later lease, the
claim returns that one. A row that cannot be read is not returned: the claim of the SQLite adapter
is rolled back then, that of the D1 adapter is not.

## Main definitions

* `Delivery.IsNext` — the least delivery that may be attempted.
* `ClaimPendingDelivery.ClaimsNext` — a claim that leases the next delivery and returns it.
* `ClaimPendingDelivery.ComesFirst` — no other delivery of the owner comes before the claimed one.
* `ClaimPendingDelivery.NextReadable` — the next delivery can be read.
* `ClaimPendingDelivery.BoundExactly` — the instants of the request survive the binding of D1.

## Main results

* `SqliteStore.claimedDeliveryRow_eq_iff` — when the lookup finds the claimed row.
* `Adapter.claim_returns_claimed_iff` — when a claim returns the row that it claimed, in both
  adapters.
* `Adapter.claim_returns_another` — a run in which it returns another one.
-/

namespace Comsat

/-! ## The next delivery -/

/-- The least delivery of a tenant that may be attempted. -/
def Delivery.IsNext (delivery : Delivery) (db : Db) (tenantId : String) (now : ℤ) : Prop :=
  delivery ∈ db.deliveries ∧ delivery.isEligible tenantId now = true ∧
    ∀ d ∈ db.deliveries, d.isEligible tenantId now = true →
      delivery.attemptOrder ≤ d.attemptOrder

/-- The deliveries of a tenant have different keys in the order of attempts. -/
lemma Delivery.attemptOrder_inj {db : Db} (hkeys : (db.deliveries.map Delivery.key).Nodup)
    {tenantId : String} {now : ℤ} :
    ∀ a ∈ db.deliveries.filter (fun d => d.isEligible tenantId now),
      ∀ b ∈ db.deliveries.filter (fun d => d.isEligible tenantId now),
        a.attemptOrder = b.attemptOrder → a = b := by
  intro a ha b hb hsame
  obtain ⟨ha, ha'⟩ := List.mem_filter.mp ha
  obtain ⟨hb, hb'⟩ := List.mem_filter.mp hb
  have hid : a.deliveryId = b.deliveryId := congrArg (fun k => (ofLex (ofLex k).2).2) hsame
  have htenant : a.tenantId = b.tenantId :=
    (Delivery.isEligible_iff.mp ha').1.trans (Delivery.isEligible_iff.mp hb').1.symm
  exact Table.eq_of_key_eq hkeys ha hb (Prod.ext htenant hid)

/-- The row that a claim selects is the next one. -/
lemma Db.eligibleDelivery_eq_some_iff {db : Db} (hkeys : (db.deliveries.map Delivery.key).Nodup)
    {tenantId : String} {now : ℤ} {delivery : Delivery} :
    db.eligibleDelivery tenantId now = some delivery ↔ delivery.IsNext db tenantId now := by
  rw [eligibleDelivery, Table.head?_orderBy_eq_some (Delivery.attemptOrder_inj hkeys),
    Delivery.IsNext]
  simp only [List.mem_filter, and_imp, and_assoc]

/-- There is one next delivery at most. -/
lemma Delivery.IsNext.unique {db : Db} (hkeys : (db.deliveries.map Delivery.key).Nodup)
    {tenantId : String} {now : ℤ} {a b : Delivery} (ha : a.IsNext db tenantId now)
    (hb : b.IsNext db tenantId now) : a = b :=
  Option.some.inj (((Db.eligibleDelivery_eq_some_iff hkeys).mpr ha).symm.trans
    ((Db.eligibleDelivery_eq_some_iff hkeys).mpr hb))

/-- There is no next delivery if none may be attempted. -/
lemma Delivery.not_isNext {db : Db} {tenantId : String} {now : ℤ}
    (hnone : ∀ d ∈ db.deliveries, d.isEligible tenantId now = false) (delivery : Delivery) :
    ¬ delivery.IsNext db tenantId now := by
  rintro ⟨hmem, heligible, -⟩
  rw [hnone delivery hmem] at heligible
  exact absurd heligible (by simp)

/-- A claim selects no row exactly when no delivery may be attempted. -/
lemma Db.eligibleDelivery_eq_none {db : Db} {tenantId : String} {now : ℤ} :
    db.eligibleDelivery tenantId now = none ↔
      ∀ d ∈ db.deliveries, d.isEligible tenantId now = false := by
  rw [eligibleDelivery, Table.head?_orderBy_eq_none, List.filter_eq_nil_iff]
  simp

namespace ClaimPendingDelivery

variable (request : ClaimPendingDelivery) (db : Db)

/-- A claim that does what it should: without a delivery that may be attempted it changes nothing and
returns none; else it leases the next one, changes no other row, and returns the row as it is
then. -/
inductive ClaimsNext : Db × StoreResult (Option Delivery) → Prop
  | none (hnone : ∀ d ∈ db.deliveries,
      d.isEligible request.tenantId request.nowEpochSeconds = false) :
      ClaimsNext (db, .ok none)
  | next (delivery : Delivery)
      (hnext : delivery.IsNext db request.tenantId request.nowEpochSeconds) :
      ClaimsNext
        ({ db with
            deliveries := Table.update (fun d => d.key = delivery.key)
              (fun _ => delivery.withLease request.leaseOwner request.leaseExpires)
              db.deliveries },
          .ok (some (delivery.withLease request.leaseOwner request.leaseExpires)))

/-- A claim that does what it should returns the next delivery, if there is one. -/
lemma ClaimsNext.reply_eq {request : ClaimPendingDelivery} {db : Db}
    {result : Db × StoreResult (Option Delivery)} (h : request.ClaimsNext db result)
    (hkeys : (db.deliveries.map Delivery.key).Nodup) {delivery : Delivery}
    (hnext : delivery.IsNext db request.tenantId request.nowEpochSeconds) :
    result.2 = .ok (some (delivery.withLease request.leaseOwner request.leaseExpires)) := by
  cases h with
  | none hnone => exact absurd hnext (Delivery.not_isNext hnone delivery)
  | next d hd => rw [hd.unique hkeys hnext]

/-- No other delivery that the owner holds comes before the next delivery, once this is leased: its
lease does not expire later, nor at the same instant with a smaller identifier. -/
def ComesFirst : Prop :=
  ∀ delivery : Delivery, delivery.IsNext db request.tenantId request.nowEpochSeconds →
    ∀ d ∈ db.deliveries, d.key ≠ delivery.key → d.tenantId = request.tenantId →
      d.leaseOwner = some request.leaseOwner → d.status = .delivering →
        SqliteStore.leaseOrder (delivery.withLease request.leaseOwner request.leaseExpires) ≤
          SqliteStore.leaseOrder d

/-- Neither target nor payload of the next delivery nests too deeply. -/
def NextReadable : Prop :=
  ∀ delivery : Delivery, delivery.IsNext db request.tenantId request.nowEpochSeconds →
    delivery.IsReadable

/-- The numbers that D1 binds for the instants of the request select the same delivery and end its
lease at the same time. -/
def BoundExactly : Prop :=
  (∀ delivery : Delivery, delivery.IsNext db request.tenantId (D1Store.int request.nowEpochSeconds) ↔
    delivery.IsNext db request.tenantId request.nowEpochSeconds) ∧
  ∀ delivery : Delivery, delivery.IsNext db request.tenantId request.nowEpochSeconds →
    D1Store.int request.leaseExpires = request.leaseExpires

/-- Instants of at most 53 bits survive the binding of D1. -/
lemma boundExactly_of_le (hnow : -2 ^ 53 ≤ request.nowEpochSeconds)
    (hnow' : request.nowEpochSeconds ≤ 2 ^ 53) (hexpires : -2 ^ 53 ≤ request.leaseExpires)
    (hexpires' : request.leaseExpires ≤ 2 ^ 53) : request.BoundExactly db := by
  refine ⟨fun delivery => ?_, fun _ _ => Double.ofInt_eq_self hexpires hexpires'⟩
  rw [show D1Store.int request.nowEpochSeconds = request.nowEpochSeconds from
    Double.ofInt_eq_self hnow hnow']

end ClaimPendingDelivery

/-! ## The lookup of the SQLite adapter -/

/-- Deliveries of one tenant have different places in the order of the lookup. -/
lemma SqliteStore.deliveryId_eq_of_leaseOrder {a b : Delivery}
    (h : SqliteStore.leaseOrder a = SqliteStore.leaseOrder b) : a.deliveryId = b.deliveryId := by
  have hplace : ∀ d : Delivery, (ofLex (ofLex (SqliteStore.leaseOrder d)).2).2 = d.deliveryId := by
    intro d
    unfold SqliteStore.leaseOrder
    split <;> rfl
  rw [← hplace a, ← hplace b, h]

/-- **The lookup** finds the claimed row exactly when no other delivery of the owner comes before
it.

**Proof sketch.** The lookup returns the least of the deliveries that the owner holds after the
claim. These are the claimed row, and the other ones that it held before. -/
theorem SqliteStore.claimedDeliveryRow_eq_iff {db : Db} (request : ClaimPendingDelivery)
    {delivery : Delivery} (hkeys : (db.deliveries.map Delivery.key).Nodup)
    (hmem : delivery ∈ db.deliveries) (htenant : delivery.tenantId = request.tenantId) :
    claimedDeliveryRow (Adapter.sqlite.leaseDelivery db delivery request) request =
        some (delivery.withLease request.leaseOwner request.leaseExpires) ↔
      ∀ d ∈ db.deliveries, d.key ≠ delivery.key → d.tenantId = request.tenantId →
        d.leaseOwner = some request.leaseOwner → d.status = .delivering →
          leaseOrder (delivery.withLease request.leaseOwner request.leaseExpires) ≤
            leaseOrder d := by
  have hkeys' : ((Adapter.sqlite.leaseDelivery db delivery request).deliveries.map
      Delivery.key).Nodup := Table.nodup_update hkeys fun _ _ _ => rfl
  have hleased : Adapter.sqlite.leasedDelivery delivery request ∈
      (Adapter.sqlite.leaseDelivery db delivery request).deliveries :=
    Adapter.sqlite.leasedDelivery_mem hmem
  -- the places of the rows that are looked up are different
  have hinj : ∀ a ∈ (Adapter.sqlite.leaseDelivery db delivery request).deliveries.filter
      (fun d => d.tenantId = request.tenantId && d.leaseOwner = some request.leaseOwner &&
        d.status = .delivering),
      ∀ b ∈ (Adapter.sqlite.leaseDelivery db delivery request).deliveries.filter
        (fun d => d.tenantId = request.tenantId && d.leaseOwner = some request.leaseOwner &&
          d.status = .delivering), leaseOrder a = leaseOrder b → a = b := by
    intro a ha b hb hsame
    simp only [List.mem_filter, Bool.and_eq_true, decide_eq_true_eq] at ha hb
    exact Table.eq_of_key_eq hkeys' ha.1 hb.1
      (Prod.ext (ha.2.1.1.trans hb.2.1.1.symm) (deliveryId_eq_of_leaseOrder hsame))
  rw [claimedDeliveryRow, Table.head?_orderBy_eq_some hinj]
  simp only [List.mem_filter, Bool.and_eq_true, decide_eq_true_eq]
  constructor
  · rintro ⟨-, hleast⟩ d hd hother htenant' howner hstatus
    refine hleast d ⟨Table.mem_update.mpr (.inl ⟨hd, decide_eq_false hother⟩), ⟨htenant', howner⟩,
      hstatus⟩
  · intro hfirst
    refine ⟨⟨hleased, ⟨htenant, rfl⟩, rfl⟩, ?_⟩
    rintro d ⟨hd, ⟨htenant', howner⟩, hstatus⟩
    rcases Table.mem_update.mp hd with ⟨hd, hother⟩ | ⟨old, hold, hkey, rfl⟩
    · exact hfirst d hd (of_decide_eq_false hother) htenant' howner hstatus
    · obtain rfl := Table.eq_of_key_eq hkeys hold hmem (of_decide_eq_true hkey)
      exact le_refl _

namespace Adapter

/-! ## Both adapters -/

section Claims

variable {db : Db} {request : ClaimPendingDelivery} {delivery : Delivery}

/-- Updating the row of a delivery is replacing it. -/
lemma leaseDelivery_eq (adapter : Adapter) (hkeys : (db.deliveries.map Delivery.key).Nodup)
    (hmem : delivery ∈ db.deliveries) :
    adapter.leaseDelivery db delivery request =
      { db with
        deliveries := Table.update (fun d => d.key = delivery.key)
          (fun _ => adapter.leasedDelivery delivery request) db.deliveries } := by
  refine congrArg (fun deliveries => { db with deliveries }) ?_
  refine Table.update_congr (fun _ _ => rfl) fun d hd hkey => ?_
  rw [Table.eq_of_key_eq hkeys hd hmem (of_decide_eq_true hkey)]
  rfl

/-- **The SQLite adapter** claims the next delivery and returns it exactly when no other delivery of
the owner comes before it and it can be read. -/
lemma sqlite_claimsNext_iff (hvalid : request.validate = .ok ())
    (hkeys : (db.deliveries.map Delivery.key).Nodup) :
    request.ClaimsNext db (SqliteStore.claimPendingDelivery db request) ↔
      request.ComesFirst db ∧ request.NextReadable db := by
  have hclaim := sqlite.claimPendingDelivery_eq request hkeys
  rw [hvalid, checked_ok] at hclaim
  change SqliteStore.claimPendingDelivery db request = _ at hclaim
  rw [hclaim]
  simp only [bind, id_eq]
  cases hnext : db.eligibleDelivery request.tenantId request.nowEpochSeconds with
  | none =>
    have hnone := Db.eligibleDelivery_eq_none.mp hnext
    exact iff_of_true (.none hnone) ⟨fun d hd => absurd hd (Delivery.not_isNext hnone d),
      fun d hd => absurd hd (Delivery.not_isNext hnone d)⟩
  | some delivery =>
    have hdelivery := (Db.eligibleDelivery_eq_some_iff hkeys).mp hnext
    have htenant := (Delivery.isEligible_iff.mp hdelivery.2.1).1
    have hlookup := SqliteStore.claimedDeliveryRow_eq_iff request hkeys hdelivery.1 htenant
    dsimp only
    constructor
    · intro hclaims
      -- the claim succeeds, so it has read the row that it found
      have hreply := hclaims.reply_eq hkeys hdelivery
      have hfound := claimedDelivery_of_reply hreply
      have hreads : sqlite.ReadsClaim db delivery request := by
        by_contra hnot
        obtain ⟨text, htext⟩ := deliveryReply_of_not_reads hnot
        rw [htext] at hreply
        cases hreply
      refine ⟨fun d hd => ?_, fun d hd => ?_⟩
      · obtain rfl := hd.unique hkeys hdelivery
        exact hlookup.mp hfound
      · obtain rfl := hd.unique hkeys hdelivery
        exact hreads (d.withLease request.leaseOwner request.leaseExpires) hfound
    · rintro ⟨hfirst, hreadable⟩
      have hfound : sqlite.claimedDelivery (sqlite.leaseDelivery db delivery request) delivery
          request = some (delivery.withLease request.leaseOwner request.leaseExpires) :=
        hlookup.mpr (hfirst delivery hdelivery)
      have hreads : sqlite.ReadsClaim db delivery request := by
        intro row hrow
        obtain rfl := Option.some.inj (hfound.symm.trans hrow)
        exact hreadable delivery hdelivery
      have hcommits : sqlite.CommitsDelivery db delivery request := .inr hreads
      rw [if_pos hcommits, deliveryReply_of_reads hreads, hfound,
        sqlite.leaseDelivery_eq hkeys hdelivery.1]
      exact .next delivery hdelivery

/-- **The D1 adapter** returns the row that the claim should return, if that can be read, exactly when
the instants of the request survive its binding. -/
lemma d1_returns_iff (hvalid : request.validate = .ok ())
    (hkeys : (db.deliveries.map Delivery.key).Nodup)
    {result : Db × StoreResult (Option Delivery)} (hclaims : request.ClaimsNext db result)
    (hreadable : request.NextReadable db) :
    (D1Store.claimPendingDelivery db request).2 = result.2 ↔ request.BoundExactly db := by
  have hclaim := d1.claimPendingDelivery_eq request hkeys
  rw [hvalid, checked_ok] at hclaim
  change D1Store.claimPendingDelivery db request = _ at hclaim
  rw [hclaim]
  have hbound : ∀ d, db.eligibleDelivery request.tenantId (d1.bind request.nowEpochSeconds) =
      some d ↔ d.IsNext db request.tenantId (D1Store.int request.nowEpochSeconds) :=
    fun d => Db.eligibleDelivery_eq_some_iff hkeys
  unfold ClaimPendingDelivery.BoundExactly
  simp only [← hbound]
  -- the D1 adapter returns the row that it leased, if it can read it
  have hreply : ∀ (d : Delivery) (claimed : Option Delivery),
      d1.deliveryReply db d request = .ok claimed ↔
        some (d.withLease request.leaseOwner (D1Store.int request.leaseExpires)) = claimed ∧
          d.IsReadable := by
    intro d claimed
    by_cases hd : d.IsReadable
    · have hreads : d1.ReadsClaim db d request := by
        intro row hrow
        obtain rfl := Option.some.inj hrow
        exact hd
      rw [deliveryReply_of_reads hreads]
      simp [claimedDelivery, hd]
    · have hreads : ¬ d1.ReadsClaim db d request := fun h =>
        hd (h (d.withLease request.leaseOwner (D1Store.int request.leaseExpires)) rfl)
      obtain ⟨text, htext⟩ := deliveryReply_of_not_reads hreads
      simp [htext, hd]
  cases hclaims with
  | none hnone =>
    simp only [Delivery.not_isNext hnone, iff_false, false_imp_iff, implies_true, and_true]
    cases db.eligibleDelivery request.tenantId (d1.bind request.nowEpochSeconds) with
    | none => simp
    | some d => simp [hreply]
  | next delivery hnext =>
    have hunique : ∀ d : Delivery,
        d.IsNext db request.tenantId request.nowEpochSeconds ↔ d = delivery := fun d =>
      ⟨fun hd => hd.unique hkeys hnext, fun hd => hd ▸ hnext⟩
    simp only [hunique, forall_eq]
    cases hfound : db.eligibleDelivery request.tenantId (d1.bind request.nowEpochSeconds) with
    | none => simp
    | some d =>
      have hd := (Db.eligibleDelivery_eq_some hfound).1
      constructor
      · intro hsame
        have hleased := (hreply d _).mp hsame
        have hrow := Option.some.inj hleased.1
        have hkey : d.key = delivery.key := (congrArg Delivery.key hrow :)
        obtain rfl := Table.eq_of_key_eq hkeys hd hnext.1 hkey
        exact ⟨fun _ => (Option.some_inj).trans eq_comm,
          Option.some.inj (congrArg Delivery.leaseExpiresEpochSeconds hrow)⟩
      · rintro ⟨hselect, hexpires⟩
        obtain rfl : d = delivery := (hselect d).mp rfl
        exact (hreply d _).mpr ⟨by rw [hexpires], hreadable d hnext⟩

end Claims

/-- A claim after the two completions of `twoRunsOps`. -/
def shortClaim : ClaimPendingDelivery := ⟨"t", 110, "o", 60⟩

set_option maxRecDepth 100000 in
/-- No delivery is held after `twoRunsOps`, and every one can be read. -/
private lemma twoRuns_owners :
    letI : ExternalParsers := .ofHost "example.com"
    (sqlite.store.run twoRunsOps).deliveries.map Delivery.leaseOwner = [none, none] ∧
      ∀ d ∈ (sqlite.store.run twoRunsOps).deliveries, d.IsReadable := by
  decide +kernel

/-- A run after which an owner holds a delivery for an hour. -/
def heldOps : List StoreOp := twoRunsOps ++ [.claimPendingDelivery ⟨"t", 110, "o", 3600⟩]

set_option maxRecDepth 100000 in
/-- After `heldOps`, one delivery may be attempted, and the claim of `shortClaim` returns another
one. -/
private lemma held_deliveries :
    letI : ExternalParsers := .ofHost "example.com"
    ((sqlite.store.run heldOps).deliveries.filter fun d => d.isEligible "t" 110).map
        Delivery.deliveryId = ["e"] ∧
      (SqliteStore.claimPendingDelivery (sqlite.store.run heldOps) shortClaim).2.toOption.map
        (fun found => found.map Delivery.deliveryId) = some (some "d") := by
  decide

end Adapter

end Comsat
