import Dendri.Lib.Lease
import Dendri.Properties.RedisTables

/-!
What Redis knows about a client. `register_client` writes a record that expires, and adds
the id to a set that does not; `set_last_ping` moves the deadline of the record, and makes a
record without a token where the old one has expired; `remove_client` removes both.

* `leaseEvent`: what a call means for the lease on the record of an id;
* `leased_run`: the record after a sequence of calls is the place that the lease is in;
* `mem_clientIds_run_iff`: who is in the set after a sequence of calls;
* `client_token_leased`: the token is found just while the lease is unbroken, and the id
  until it is removed.
-/

namespace Dendri

open Keyspace Function

/-- What a call means for the record of the client `id`. -/
def leaseEvent (id : String) (c : TimedCall) : Option (ℕ × Lease.Event String) :=
  match c.call with
  | .registerClient id' token ttl =>
      if id' = id then some (c.now, .grant token (1000 * ttl)) else none
  | .setLastPing id' ttl => if id' = id then some (c.now, .renew (1000 * ttl)) else none
  | .removeClient id' => if id' = id then some (c.now, .drop) else none
  | _ => none

/-- The record of the client `id` is the place `p` of its lease. -/
def Leased (id : String) (t : Tables) (p : Lease.Place String) : Prop :=
  ((t .client).lookup id).map (fun r => (r.token, r.deadline)) = p.map fun x => (x.1, some x.2)

/-- The token that is found is the value that the place shows. -/
lemma Leased.token_eq {id : String} {t : Tables} {p : Lease.Place String} (h : Leased id t p)
    (now : ℕ) : (t.liveClient now id).bind ClientRecord.token = Lease.value now p := by
  rw [Leased] at h
  rw [Tables.liveClient]
  cases p with
  | none =>
      rw [Option.map_none, Option.map_eq_none_iff] at h
      rw [h]
      rfl
  | some x =>
      obtain ⟨r, hr, hx⟩ := Option.map_eq_some_iff.mp h
      obtain ⟨htoken, hdeadline⟩ := Prod.mk.inj hx
      have hlive : r.isLive now = decide (now < x.2) := by
        rw [ClientRecord.isLive, hdeadline]
        rfl
      rw [hr, Lease.value_some, Option.filter_some, hlive]
      by_cases hnow : now < x.2
      · simpa [hnow] using htoken
      · simp [hnow]

section Steps

variable (codec : Codec Tenant)

/-- The calls that change neither the records nor the set of clients. -/
lemma onTables_frame (c : TimedCall) (t : Tables)
    (hreg : ∀ id token ttl, c.call ≠ .registerClient id token ttl)
    (hping : ∀ id ttl, c.call ≠ .setLastPing id ttl) (hrem : ∀ id, c.call ≠ .removeClient id) :
    ((c.call.onTables codec c.order c.now t).1 .client = t .client) ∧
      (c.call.onTables codec c.order c.now t).1.clientIds = t.clientIds := by
  obtain ⟨now, order, call⟩ := c
  cases call with
  | registerClient id token ttl => exact absurd rfl (hreg id token ttl)
  | setLastPing id ttl => exact absurd rfl (hping id ttl)
  | removeClient id => exact absurd rfl (hrem id)
  | createTenant tenant hash =>
      rw [StoreCall.onTables]
      cases tenant.email with
      | none => exact ⟨rfl, rfl⟩
      | some email => exact ⟨rfl, rfl⟩
  | updateTenant tenant =>
      rw [StoreCall.onTables]
      cases (t .tenantId).lookup tenant.id with
      | none => exact ⟨rfl, rfl⟩
      | some hash => exact ⟨rfl, rfl⟩
  | rotateApiKey id newHash =>
      rw [StoreCall.onTables]
      cases (t .tenantId).lookup id with
      | none => exact ⟨rfl, rfl⟩
      | some oldHash =>
          dsimp only
          cases t.tenantByHash codec oldHash with
          | none => exact ⟨rfl, rfl⟩
          | some tenant => exact ⟨rfl, rfl⟩
  | deleteTenant id =>
      rw [StoreCall.onTables]
      cases (t .tenantId).lookup id with
      | none => exact ⟨rfl, rfl⟩
      | some hash =>
          dsimp only
          cases (t.tenantByHash codec hash).bind Tenant.email with
          | none => exact ⟨rfl, rfl⟩
          | some email => exact ⟨rfl, rfl⟩
  | acquireNoAccountSlot email =>
      rw [StoreCall.onTables]
      split_ifs <;> exact ⟨rfl, rfl⟩
  | _ => exact ⟨rfl, rfl⟩

/-- A call that means nothing for any record leaves the records and the set of clients
alone. -/
lemma frame_of_leaseEvent {c : TimedCall} (t : Tables) (h : ∀ id, leaseEvent id c = none) :
    ((c.call.onTables codec c.order c.now t).1 .client = t .client) ∧
      (c.call.onTables codec c.order c.now t).1.clientIds = t.clientIds := by
  refine onTables_frame codec c t (fun id token ttl hc => ?_) (fun id ttl hc => ?_)
    fun id hc => ?_
  · exact absurd (h id) (by simp [leaseEvent, hc])
  · exact absurd (h id) (by simp [leaseEvent, hc])
  · exact absurd (h id) (by simp [leaseEvent, hc])

/-- One call moves the lease on each record as it should. -/
lemma leased_onTables {id : String} {t : Tables} {p : Lease.Place String} (h : Leased id t p)
    (c : TimedCall) : Leased id (c.call.onTables codec c.order c.now t).1
      ((leaseEvent id c).elim p (Lease.step p)) := by
  -- a call on the record of another id
  have hother : ∀ t' : Tables, (t' .client).lookup id = (t .client).lookup id → Leased id t' p := by
    intro t' ht'
    rw [Leased, ht']
    exact h
  obtain ⟨now, order, call⟩ := c
  cases call with
  | registerClient i token ttl =>
      have hlookup : ((StoreCall.registerClient i token ttl).onTables codec order now t).1 .client =
          (t.put .client i ⟨some token, some now.val, some (now.val + 1000 * ttl)⟩) .client :=
        Tables.put_of_ne (F := .clients) (G := .client) _ (by decide) "" (insert i t.clientIds)
      simp only [leaseEvent]
      by_cases hi : i = id
      · rw [if_pos hi, Leased, hlookup, Tables.lookup_put, if_pos hi.symm]
        rfl
      · rw [if_neg hi]
        refine hother _ ?_
        rw [hlookup, Tables.lookup_put, if_neg (Ne.symm hi)]
  | setLastPing i ttl =>
      simp only [leaseEvent]
      by_cases hi : i = id
      · rw [if_pos hi, Leased, StoreCall.onTables, Tables.lookup_put, if_pos hi.symm, hi,
          h.token_eq now]
        rfl
      · rw [if_neg hi]
        refine hother _ ?_
        rw [StoreCall.onTables, Tables.lookup_put, if_neg (Ne.symm hi)]
  | removeClient i =>
      have hlookup : ((StoreCall.removeClient i).onTables codec order now t).1 .client =
          (t.drop .client i) .client :=
        Tables.put_of_ne (F := .clients) (G := .client) _ (by decide) "" (t.clientIds.erase i)
      simp only [leaseEvent]
      by_cases hi : i = id
      · rw [if_pos hi, Leased, hlookup, Tables.lookup_drop, if_pos hi.symm]
        rfl
      · rw [if_neg hi]
        refine hother _ ?_
        rw [hlookup, Tables.lookup_drop, if_neg (Ne.symm hi)]
  | _ =>
      refine hother _ ?_
      rw [(onTables_frame codec ⟨now, order, _⟩ t (by simp) (by simp) (by simp)).1]

/-- After a sequence of calls the record is where the lease is. -/
lemma leased_run {id : String} (calls : List TimedCall) {t : Tables} {p : Lease.Place String}
    (h : Leased id t p) : Leased id (runTables codec t calls).1
      ((calls.filterMap (leaseEvent id)).foldl Lease.step p) := by
  induction calls generalizing t p with
  | nil => exact h
  | cons c cs ih =>
      have hnext := ih (leased_onTables codec h c)
      rw [runTables]
      rw [List.filterMap_cons]
      cases hev : leaseEvent id c with
      | none =>
          rw [hev] at hnext
          exact hnext
      | some e =>
          rw [hev] at hnext
          exact hnext

/-! ### The set of clients -/

/-- Who is in the set of clients after one call. -/
lemma mem_clientIds_onTables (id : String) (c : TimedCall) (t : Tables) :
    id ∈ (c.call.onTables codec c.order c.now t).1.clientIds ↔
      (∃ token ttl, c.call = .registerClient id token ttl) ∨
        (id ∈ t.clientIds ∧ c.call ≠ .removeClient id) := by
  obtain ⟨now, order, call⟩ := c
  cases call with
  | registerClient i token ttl =>
      rw [StoreCall.onTables, Tables.clientIds_put_self, Finset.mem_insert]
      simp [eq_comm]
  | removeClient i =>
      rw [StoreCall.onTables, Tables.clientIds_put_self, Finset.mem_erase]
      simp [eq_comm, and_comm]
  | setLastPing i ttl =>
      rw [StoreCall.onTables, Tables.clientIds_put _ (by decide)]
      simp
  | _ =>
      rw [(onTables_frame codec ⟨now, order, _⟩ t (by simp) (by simp) (by simp)).2]
      simp

/-- The id was registered, and not removed since. -/
def Enlisted (id : String) (calls : List TimedCall) : Prop :=
  ∃ before c after, calls = before ++ c :: after ∧
    (∃ token ttl, c.call = .registerClient id token ttl) ∧
    ∀ c' ∈ after, c'.call ≠ .removeClient id

/-- Who is in the set of clients after a sequence of calls. -/
lemma mem_clientIds_run_iff (id : String) (calls : List TimedCall) (t : Tables) :
    id ∈ (runTables codec t calls).1.clientIds ↔ Enlisted id calls ∨
      (id ∈ t.clientIds ∧ ∀ c ∈ calls, c.call ≠ .removeClient id) := by
  induction calls generalizing t with
  | nil =>
      have hnone : ¬Enlisted id [] := by
        rintro ⟨before, c, after, heq, -⟩
        exact absurd heq (by simp)
      simp [runTables, hnone]
  | cons c cs ih =>
      have hcons : Enlisted id (c :: cs) ↔ Enlisted id cs ∨
          ((∃ token ttl, c.call = .registerClient id token ttl) ∧
            ∀ c' ∈ cs, c'.call ≠ .removeClient id) := by
        constructor
        · rintro ⟨before, c', after, heq, hreg, hkept⟩
          rcases before with _ | ⟨b, before⟩
          · obtain ⟨rfl, rfl⟩ := List.cons.inj heq
            exact Or.inr ⟨hreg, hkept⟩
          · exact Or.inl ⟨before, c', after, (List.cons.inj heq).2, hreg, hkept⟩
        · rintro (⟨before, c', after, rfl, hreg, hkept⟩ | ⟨hreg, hkept⟩)
          · exact ⟨c :: before, c', after, rfl, hreg, hkept⟩
          · exact ⟨[], c, cs, rfl, hreg, hkept⟩
      rw [runTables]
      rw [ih, mem_clientIds_onTables, hcons]
      simp only [List.forall_mem_cons, or_and_right, and_assoc, or_assoc]

/-! ### What the lookups answer -/

/-- After any calls on a database without the client, its token is found just while the lease
of its last registration is unbroken, that is while each refresh came before the deadline
that the one before it set. The id is found until it is removed, however long ago the token
went. -/
theorem client_token_leased (calls : List TimedCall) {db : Db} {t : Tables} (h : StoredAs db t)
    (id : String) (hrecord : (t .client).lookup id = none) (hids : id ∉ t.clientIds) (now : ℕ) :
    (∀ token, RedisRealm.getClientToken (runDb codec db calls).1 now id = some (some token) ↔
      Lease.Granted (calls.filterMap (leaseEvent id)) token now) ∧
    (RedisRealm.clientExists (runDb codec db calls).1 now id = some true ↔ Enlisted id calls) := by
  have hend := stored_calls codec calls h
  have hleased : Leased id (runTables codec t calls).1
      (Lease.run (calls.filterMap (leaseEvent id))) := by
    refine leased_run codec calls ?_
    rw [Leased, hrecord]
    rfl
  constructor
  · intro token
    rw [hend.getClientToken now id, hleased.token_eq now, Option.some.injEq, Lease.value_run_iff]
  · rw [hend.clientExists now id, Option.some.injEq, decide_eq_true_eq,
      mem_clientIds_run_iff codec id calls t]
    exact or_iff_left fun hold => hids hold.1

end Steps

/-- A client with an alive timeout of four seconds, whose record is refreshed every ten: the
refresh comes two seconds late. -/
def lateRefresh : List TimedCall :=
  [⟨1000, SetOrder.sorted String, .registerClient "a" "token" 8⟩,
    ⟨11000, SetOrder.sorted String, .setLastPing "a" 8⟩]

/-- The token is gone after the refresh, and the id is still in the set. -/
theorem client_token_leased_late :
    RedisRealm.getClientToken (runDb Codec.blank ∅ lateRefresh).1 11001 "a" ≠ some (some "token") ∧
      RedisRealm.clientExists (runDb Codec.blank ∅ lateRefresh).1 11001 "a" = some true := by
  obtain ⟨htoken, hexists⟩ := client_token_leased Codec.blank lateRefresh stored_empty "a" rfl
    (Finset.notMem_empty "a") 11001
  refine ⟨fun hfound => ?_, hexists.mpr ⟨[], _, _, rfl, ⟨"token", 8, rfl⟩, by simp⟩⟩
  have hnone : Lease.value 11001 (Lease.run (lateRefresh.filterMap (leaseEvent "a"))) = none := by
    decide
  have hsome := (Lease.value_run_iff _ _ _).mpr ((htoken "token").mp hfound)
  rw [hnone] at hsome
  exact absurd hsome (by simp)

end Dendri
