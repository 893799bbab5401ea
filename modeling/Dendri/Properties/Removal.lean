import Dendri.System
import Dendri.Properties.Admission

/-!
Complete removal. A client is unregistered on five paths, and only the close of
its current WebSocket and `cleanup_client` also remove its claims, its tenant,
its buckets and its rooms; the eviction loop, `LEAVE` and the discovery of a
dead receiver remove the sender and the record only.

* `Traceless`: nothing is kept for an id besides a sender;
* `FullyRemoved`: whoever is not registered has no sender and no trace;
* `RemovesAll`: the steps that keep it so, one condition for each kind of step
  that can leave a trace behind;
* `fullyRemoved_iff_of_step`, `fully_removed_iff`: exactly these do.
-/

namespace Dendri

open AppState Transition

/-- Nothing is kept for `id` besides a sender, and it is a member only of rooms
it waits to be removed from. -/
structure Traceless (s : AppState) (id : String) : Prop where
  claims : s.clientClaims.lookup id = none
  tenant : s.clientTenants.lookup id = none
  receiver : s.pollingReceivers.lookup id = none
  index : id ∉ s.clientRooms.keys
  buckets : ∀ bucket, (id, bucket) ∉ s.rateLimiter.buckets
  rooms : ∀ room, s.ledger.member id room → s.ledger.pending id room

/-- Whoever is not registered has no sender and no trace. -/
def FullyRemoved (s : AppState) : Prop :=
  ∀ id ∉ s.clients.keys, s.wsSenders.lookup id = none ∧ Traceless s id

/-! ### The steps that leave nothing behind -/

/-- A message charges buckets and joins rooms for registered clients only, and
removes only clients without a trace. -/
structure MessageComplete (env : Env) (cfg : Config) (s : AppState) (id : String) (msg : Message) :
    Prop where
  charged : msg.type_.bucket ≠ none → id ∈ s.clients.keys
  joined : allowed env id msg.type_ = true → joins cfg s id msg ≠ none → id ∈ s.clients.keys
  removed : ∀ d, allowed env id msg.type_ = true → removes s id msg = some d →
    Traceless s d ∧ (d = id → msg.type_.bucket = none)

/-- A cleanup finds every membership of `id` in the list it works on; a closing
WebSocket finds no polling receiver. -/
structure CleanupComplete (cfg : Config) (s : AppState) (ev : Event) (id : String) : Prop where
  receiver : (∃ k, ev = .wsClose k) → s.pollingReceivers.lookup id = none
  rooms : ∀ room, s.ledger.member id room → s.ledger.index id room ∨
    (s.ledger.pending id room ∧ (cfg.sessionTtl ≠ 0 → ¬∃ room', s.ledger.index id room'))

/-- The step leaves nothing behind for an id that is not registered after it. -/
structure RemovesAll (cfg : Config) (w : World) (l : Label) : Prop where
  /-- The claims of a refused request are those of a registered client. -/
  refused : ∀ r id claims, l.event = .connect r →
    (connect l.env cfg w.app r).isAdmitted = false →
    storedClaims l.env cfg r = some (id, claims) → id ∈ w.app.clients.keys
  message : ∀ id msg, incoming cfg w l.event = some (id, msg) →
    MessageComplete l.env cfg w.app id msg
  cleanup : ∀ k K, cleanedUp w l.event = some (k, K) → CleanupComplete cfg w.app l.event K.id
  /-- The evicted clients have no trace. -/
  eviction : l.event = .evictBroken → ∀ id ∈ toEvict l.env cfg w.app, Traceless w.app id

/-- A step of none of the four kinds. -/
lemma RemovesAll.of_none {cfg : Config} {w : World} {l : Label}
    (hconnect : ∀ r, l.event = .connect r → (connect l.env cfg w.app r).isAdmitted = true)
    (hin : incoming cfg w l.event = none) (hdown : cleanedUp w l.event = none)
    (hevict : l.event ≠ .evictBroken) : RemovesAll cfg w l where
  refused r id claims hev hadm := absurd (hadm.symm.trans (hconnect r hev)) (by decide)
  message id msg hmsg := absurd (hin.symm.trans hmsg) (by simp)
  cleanup k K hK := absurd (hdown.symm.trans hK) (by simp)
  eviction hev := absurd hev hevict

/-- A step with a message is about the message only. -/
lemma removesAll_iff_of_incoming {cfg : Config} {w : World} {l : Label} {id : String}
    {msg : Message} (hin : incoming cfg w l.event = some (id, msg)) :
    RemovesAll cfg w l ↔ MessageComplete l.env cfg w.app id msg := by
  obtain ⟨hdown, hconnect, hevict⟩ := only_of_incoming hin
  refine ⟨fun hall => hall.message id msg hin, fun hcomplete => ⟨?_, ?_, ?_, ?_⟩⟩
  · exact fun r _ _ hev => absurd hev (hconnect r)
  · intro id' msg' hin'
    obtain ⟨rfl, rfl⟩ := Prod.mk.inj (Option.some.inj (hin.symm.trans hin'))
    exact hcomplete
  · exact fun k K hK => absurd (hdown.symm.trans hK) (by simp)
  · exact fun hev => absurd hev hevict

/-- A cleanup is about its id only. -/
lemma removesAll_iff_of_cleanedUp {cfg : Config} {w : World} {l : Label} {k : ℕ} {K : Conn}
    (hdown : cleanedUp w l.event = some (k, K)) :
    RemovesAll cfg w l ↔ CleanupComplete cfg w.app l.event K.id := by
  obtain ⟨hin, hconnect, hevict⟩ := only_of_cleanedUp cfg hdown
  refine ⟨fun hall => hall.cleanup k K hdown, fun hcomplete => ⟨?_, ?_, ?_, ?_⟩⟩
  · exact fun r _ _ hev => absurd hev (hconnect r)
  · exact fun id msg hmsg => absurd (hin.symm.trans hmsg) (by simp)
  · intro k' K' hK'
    obtain ⟨-, rfl⟩ := Prod.mk.inj (Option.some.inj (hdown.symm.trans hK'))
    exact hcomplete
  · exact fun hev => absurd hev hevict

/-! ### What is kept for one id -/

/-- The registries keep the same for `id`, apart from its sender. -/
structure Registry.AgreesAt (id : String) (g g' : Registry) : Prop where
  claims : g'.claims.lookup id = g.claims.lookup id
  tenant : g'.tenants.lookup id = g.tenants.lookup id
  receiver : g'.receivers.lookup id = g.receivers.lookup id
  buckets : ∀ bucket, (id, bucket) ∈ g'.buckets → (id, bucket) ∈ g.buckets

namespace Registry.AgreesAt

variable {id k : String} {g g' g'' : Registry}

lemma refl (id : String) (g : Registry) : g.AgreesAt id g := ⟨rfl, rfl, rfl, fun _ h => h⟩

lemma trans (h : g.AgreesAt id g') (h' : g'.AgreesAt id g'') : g.AgreesAt id g'' :=
  ⟨h'.claims.trans h.claims, h'.tenant.trans h.tenant, h'.receiver.trans h.receiver,
    fun b hb => h.buckets b (h'.buckets b hb)⟩

lemma store (hne : id ≠ k) (claims : Option Value) : g.AgreesAt id (g.store k claims) :=
  ⟨(FinMap.lookup_insertOpt _ _ _ _).trans (if_neg hne), rfl, rfl, fun _ h => h⟩

lemma enroll (hne : id ≠ k) (tenant : Option String) : g.AgreesAt id (g.enroll k tenant) :=
  ⟨rfl, (FinMap.lookup_insertOpt _ _ _ _).trans (if_neg hne), rfl, fun _ h => h⟩

lemma pair (hne : id ≠ k) : g.AgreesAt id (g.pair k) := by
  refine ⟨rfl, rfl, ?_, fun _ h => h⟩
  rw [Registry.pair]
  dsimp only
  split_ifs
  · rfl
  · exact Finmap.lookup_insert_of_ne _ hne

lemma registerPoll (hne : id ≠ k) (tenant : Option String) :
    g.AgreesAt id (g.registerPoll k tenant) := by
  refine ⟨rfl, ?_, rfl, fun _ h => h⟩
  rw [Registry.registerPoll]
  dsimp only
  split_ifs
  · rfl
  · exact (FinMap.lookup_insertOpt _ _ _ _).trans (if_neg hne)

lemma forget (hne : id ≠ k) : g.AgreesAt id (g.forget k) :=
  ⟨Finmap.lookup_erase_ne hne, Finmap.lookup_erase_ne hne, rfl,
    fun _ h => Finset.mem_of_mem_filter _ h⟩

end Registry.AgreesAt

/-- What `s'` keeps for `id` in rooms and room lists, `s` kept as well. -/
structure KeepsRooms (id : String) (s s' : AppState) : Prop where
  index : id ∈ s'.entries.indexed → id ∈ s.entries.indexed
  member : ∀ room, s'.ledger.member id room → s.ledger.member id room
  pending : ∀ room, s.ledger.pending id room → s'.ledger.pending id room

lemma KeepsRooms.of_eq {s s' : AppState} (hl : s'.ledger = s.ledger) (he : s'.entries = s.entries)
    (id : String) : KeepsRooms id s s' := by
  refine ⟨fun hid => ?_, fun room hm => ?_, fun room hp => ?_⟩
  · rwa [he] at hid
  · rwa [hl] at hm
  · rwa [hl]

lemma KeepsRooms.of_roomMaps {s s' : AppState} (h : s'.roomMaps = s.roomMaps) (id : String) :
    KeepsRooms id s s' :=
  KeepsRooms.of_eq (memberships_of_roomMaps h).1 (memberships_of_roomMaps h).2.1 id

lemma Traceless.congr {id : String} {s s' : AppState} (h : Traceless s id)
    (hreg : s.registry.AgreesAt id s'.registry) (hrooms : KeepsRooms id s s') :
    Traceless s' id where
  claims := hreg.claims.trans h.claims
  tenant := hreg.tenant.trans h.tenant
  receiver := hreg.receiver.trans h.receiver
  index hid := h.index (hrooms.index hid)
  buckets bucket hb := h.buckets bucket (hreg.buckets bucket hb)
  rooms room hm := hrooms.pending room (h.rooms room (hrooms.member room hm))

/-- `id` is not newly unregistered, keeps its sender and gains no trace. -/
structure Leaves (id : String) (s s' : AppState) : Prop where
  ids : id ∉ s'.registry.ids → id ∉ s.registry.ids
  sender : s'.wsSenders.lookup id = s.wsSenders.lookup id
  registry : s.registry.AgreesAt id s'.registry
  rooms : KeepsRooms id s s'

/-- An id that a step leaves alone. -/
lemma FullyRemoved.at {s s' : AppState} {id : String} (h : FullyRemoved s)
    (hleaves : Leaves id s s') (hid : id ∉ s'.clients.keys) :
    s'.wsSenders.lookup id = none ∧ Traceless s' id := by
  obtain ⟨hsender, htrace⟩ := h id (hleaves.ids hid)
  exact ⟨hleaves.sender.trans hsender, htrace.congr hleaves.registry hleaves.rooms⟩

lemma Leaves.of_frame {s s' : AppState} (hreg : s'.registry = s.registry)
    (hmaps : s'.roomMaps = s.roomMaps) (id : String) : Leaves id s s' := by
  have hsenders : s'.wsSenders = s.wsSenders := congrArg Registry.senders hreg
  refine ⟨fun hid => ?_, by rw [hsenders], ?_, KeepsRooms.of_roomMaps hmaps id⟩
  · rwa [hreg] at hid
  · rw [hreg]
    exact Registry.AgreesAt.refl id _

/-- When a step unregisters `d` and leaves the others alone, all depends on
what it leaves of `d`. -/
lemma fullyRemoved_iff_traceless {s s' : AppState} {d : String} (h : FullyRemoved s)
    (hd : d ∉ s'.clients.keys) (hsender : s'.wsSenders.lookup d = none)
    (hother : ∀ id ≠ d, Leaves id s s') : FullyRemoved s' ↔ Traceless s' d := by
  refine ⟨fun h' => (h' d hd).2, fun htrace id hid => ?_⟩
  by_cases hne : id = d
  · rw [hne]
    exact ⟨hsender, htrace⟩
  · exact h.at (hother id hne) hid

/-! ### Connects -/

/-- A refused request may leave claims for an id that is not registered. -/
lemma fullyRemoved_withClaims_iff {s : AppState} (h : FullyRemoved s)
    (stored : Option (String × Value)) :
    FullyRemoved (s.withClaims stored) ↔
      ∀ id claims, stored = some (id, claims) → id ∈ s.clients.keys := by
  cases stored with
  | none => exact ⟨fun _ _ _ hc => absurd hc (by simp), fun _ => h⟩
  | some pair =>
      obtain ⟨k, claims⟩ := pair
      have hclaims : (s.withClaims (some (k, claims))).clientClaims.lookup k = some claims :=
        Finmap.lookup_insert _
      constructor
      · intro h' id claims' heq
        rw [Option.some.injEq, Prod.mk.injEq] at heq
        obtain ⟨rfl, rfl⟩ := heq
        by_contra hid
        have hnone := (h' k hid).2.claims
        rw [hclaims] at hnone
        exact absurd hnone (by simp)
      · intro hreg id hid
        have hne : id ≠ k := by
          rintro rfl
          exact hid (hreg id claims rfl)
        have hmaps : (s.withClaims (some (k, claims))).roomMaps = s.roomMaps := rfl
        refine h.at ⟨fun h => h, rfl, ?_, KeepsRooms.of_roomMaps hmaps id⟩ hid
        exact Registry.AgreesAt.store hne (some claims)

/-- A reconnect touches the memberships of its own id only. -/
lemma Restores.keepsRooms {id k : String} {s s' : AppState} (h : Restores k s s') (hne : id ≠ k) :
    KeepsRooms id s s' := by
  by_cases hp : HasPending s k
  · have hl := h.ledger
    have he := h.entries
    rw [if_pos hp] at hl he
    refine ⟨fun hid => ?_, fun room hm => ?_, fun room hpend => ?_⟩
    · rw [he] at hid
      exact Finset.mem_of_mem_insert_of_ne hid hne
    · rw [hl] at hm
      exact hm.resolve_right fun hk => hne hk.1
    · rw [hl]
      exact ⟨hpend, hne⟩
  · have hl := h.ledger
    have he := h.entries
    rw [if_neg hp] at hl he
    exact KeepsRooms.of_eq hl he id

/-- A request enrolled in a registry `g` that has the senders and the ids of
the state leaves other ids alone. -/
lemma Leaves.of_enroll {s s' : AppState} {g : Registry} {k : String} {claims : Option Value}
    {tenant : Option String} (hreg : s'.registry = (g.store k claims).enroll k tenant)
    (hsenders : g.senders = s.registry.senders) (hids : g.ids = s.registry.ids) {id : String}
    (hne : id ≠ k) (hagrees : s.registry.AgreesAt id g) (hrooms : KeepsRooms id s s') :
    Leaves id s s' := by
  refine ⟨fun hid hold => ?_, ?_, ?_, hrooms⟩
  · rw [hreg] at hid
    exact hid (Finset.mem_insert_of_mem (hids ▸ hold))
  · rw [show s'.wsSenders = _ from congrArg Registry.senders hreg]
    refine (Finmap.lookup_insert_of_ne _ hne).trans ?_
    rw [show (g.store k claims).senders = _ from hsenders]
    rfl
  · rw [hreg]
    exact hagrees.trans ((Registry.AgreesAt.store hne _).trans (Registry.AgreesAt.enroll hne _))

/-- An admitted request registers its id and leaves the others alone. -/
lemma leaves_of_admits {env : Env} {cfg : Config} {s s' : AppState} {r : Request} {K : Conn}
    (h : Admits env cfg s r K s') {id : String} (hne : id ≠ K.id) : Leaves id s s' := by
  have hreserve : s.registry.AgreesAt id (s.registry.reserve K.id) :=
    ⟨rfl, rfl, rfl, fun _ hb => hb⟩
  cases h with
  | reconnect q K s' hK htransport hchan htoken hreg hrest =>
      exact Leaves.of_enroll hreg rfl rfl hne (Registry.AgreesAt.refl id _) (hrest.keepsRooms hne)
  | register q K s' hK htransport hchan htoken hslot hreg hmaps =>
      exact Leaves.of_enroll hreg rfl rfl hne ⟨rfl, rfl, rfl, fun _ hb => hb⟩
        (KeepsRooms.of_roomMaps hmaps id)
  | stream q K s' hK htransport hchan hslot hreg hmaps =>
      exact Leaves.of_enroll hreg rfl rfl hne hreserve (KeepsRooms.of_roomMaps hmaps id)
  | poll q K s' hK htransport hchan hslot hreg hmaps =>
      refine ⟨fun hid hold => ?_, ?_, ?_, KeepsRooms.of_roomMaps hmaps id⟩
      · rw [hreg] at hid
        exact hid (Finset.mem_insert_of_mem hold)
      · rw [show s'.wsSenders = _ from congrArg Registry.senders hreg]
        have hpair : ∀ g : Registry,
            ((g.pair K.id).registerPoll K.id K.tenant).senders.lookup id = g.senders.lookup id := by
          intro g
          rw [Registry.registerPoll, Registry.pair]
          dsimp only
          split_ifs
          · rfl
          · exact Finmap.lookup_insert_of_ne _ hne
        exact hpair _
      · rw [hreg]
        exact hreserve.trans ((Registry.AgreesAt.store hne _).trans
          ((Registry.AgreesAt.pair hne).trans (Registry.AgreesAt.registerPoll hne _)))

/-! ### Messages -/

namespace Receives

variable {env : Env} {cfg : Config} {s s' : AppState} {id : String} {msg : Message}

/-- The claims, tenants and receivers are not touched by a message, and only
its sender's buckets are. -/
lemma agreesAt (h : Receives env cfg s id msg s') {x : String}
    (hx : x = id → msg.type_.bucket = none) : s.registry.AgreesAt x s'.registry := by
  have hkeeps := Registry.keepsAuth_afterMessage env s id msg s'.replayBuffer
  rw [← h.registry] at hkeeps
  refine ⟨by rw [hkeeps.claims], by rw [hkeeps.tenants], by rw [hkeeps.receivers], ?_⟩
  intro bucket hb
  rcases (h.mem_buckets_iff x bucket).mp hb with hold | ⟨hid, hbucket⟩
  · exact hold
  · rw [hx hid] at hbucket
    exact absurd hbucket (by simp)

end Receives

/-- A message moves its sender only, and adds a membership only by a join. -/
lemma Moves.keepsRooms {id x : String} {joined left : Option String} {s s' : AppState}
    (h : Moves id joined left s s') (hx : x = id → joined = none) : KeepsRooms x s s' := by
  obtain ⟨hl, he, -⟩ := h
  cases joined with
  | some key =>
      have hne : x ≠ id := fun hid => absurd (hx hid) (by simp)
      refine ⟨fun hid => ?_, fun room hm => ?_, fun room hp => ?_⟩
      · rw [he] at hid
        exact Finset.mem_of_mem_insert_of_ne hid hne
      · rw [hl] at hm
        exact hm.resolve_right fun hk => hne hk.1
      · rwa [hl]
  | none =>
      cases left with
      | some key =>
          refine ⟨fun hid => ?_, fun room hm => ?_, fun room hp => ?_⟩
          · rwa [he] at hid
          · rw [hl] at hm
            exact hm.1
          · rwa [hl]
      | none => exact KeepsRooms.of_eq hl he x

/-- A message that removes a client neither joins nor leaves a room. -/
lemma moves_none_of_removes (cfg : Config) {s : AppState} {id d : String} {msg : Message}
    (h : removes s id msg = some d) : joins cfg s id msg = none ∧ leaves s id msg = none := by
  rw [removes] at h
  split_ifs at h with htype
  have hj : msg.type_ ≠ .RoomJoin := by
    intro hc
    rw [hc] at htype
    exact absurd htype (by decide)
  have hl : msg.type_ ≠ .RoomLeave := by
    intro hc
    rw [hc] at htype
    exact absurd htype (by decide)
  exact ⟨if_neg hj, if_neg hl⟩

/-- A message leaves nothing behind just when it is complete. -/
lemma fullyRemoved_iff_of_receives {env : Env} {cfg : Config} {s s' : AppState} {id : String}
    {msg : Message} (hs : s.ledger.Sound) (h : FullyRemoved s)
    (hrec : Receives env cfg s id msg s') :
    FullyRemoved s' ↔ MessageComplete env cfg s id msg := by
  have hmoves := hrec.moves hs
  have hids := hrec.mem_clients_iff
  have hcharged : ∀ bucket, msg.type_.bucket = some bucket →
      (id, bucket) ∈ s'.rateLimiter.buckets := fun bucket hb =>
    (hrec.mem_buckets_iff id bucket).mpr (Or.inr ⟨rfl, hb⟩)
  constructor
  · intro h'
    refine ⟨fun hb => ?_, fun hall hj => ?_, fun d hall hd => ?_⟩
    · obtain ⟨bucket, hb⟩ := Option.ne_none_iff_exists'.mp hb
      by_contra hid
      exact (h' id fun hc => hid ((hids id).mp hc).1).2.buckets bucket (hcharged bucket hb)
    · obtain ⟨key, hj⟩ := Option.ne_none_iff_exists'.mp hj
      have hindexed : id ∈ s'.entries.indexed := by
        rw [hmoves.entries, if_pos hall, hj]
        exact Finset.mem_insert_self _ _
      by_contra hid
      exact (h' id fun hc => hid ((hids id).mp hc).1).2.index hindexed
    · have hremoval : removal env s id msg = some d := by rw [removal, if_pos hall, hd]
      have hgone := (h' d fun hc => ((hids d).mp hc).2 hremoval).2
      have hbucket : d = id → msg.type_.bucket = none := by
        rintro rfl
        by_contra hb
        obtain ⟨bucket, hb⟩ := Option.ne_none_iff_exists'.mp hb
        exact hgone.buckets bucket (hcharged bucket hb)
      refine ⟨?_, hbucket⟩
      obtain ⟨hj, hl⟩ := moves_none_of_removes cfg hd
      rw [hj, hl, ite_self] at hmoves
      -- back from the state after the message to the one before it
      have hagrees := hrec.agreesAt hbucket
      refine hgone.congr ⟨hagrees.claims.symm, hagrees.tenant.symm, hagrees.receiver.symm, ?_⟩
        (KeepsRooms.of_eq hmoves.ledger.symm hmoves.entries.symm d)
      exact fun bucket hb => (hrec.mem_buckets_iff d bucket).mpr (Or.inl hb)
  · rintro ⟨hbucket, hjoin, hremoved⟩ x hx
    by_cases hd : removal env s id msg = some x
    · obtain ⟨hall, hrem⟩ : allowed env id msg.type_ = true ∧ removes s id msg = some x := by
        rw [removal] at hd
        split_ifs at hd with hall
        exact ⟨hall, hd⟩
      obtain ⟨htrace, hb⟩ := hremoved x hall hrem
      obtain ⟨hj, -⟩ := moves_none_of_removes cfg hrem
      rw [hj, ite_self] at hmoves
      exact ⟨by rw [hrec.lookup_wsSenders, if_pos hd], htrace.congr (hrec.agreesAt hb)
        (hmoves.keepsRooms fun _ => rfl)⟩
    · have hold : x ∉ s.clients.keys := fun hc => hx ((hids x).mpr ⟨hc, hd⟩)
      have hb : x = id → msg.type_.bucket = none := by
        rintro rfl
        by_contra hb
        exact hold (hbucket hb)
      have hj : x = id → (if allowed env id msg.type_ = true then joins cfg s id msg else none) =
          none := by
        rintro rfl
        split_ifs with hall
        · by_contra hj
          exact hold (hjoin hall hj)
        · rfl
      refine h.at ⟨fun _ => hold, ?_, hrec.agreesAt hb, hmoves.keepsRooms hj⟩ hx
      rw [hrec.lookup_wsSenders, if_neg hd]

/-! ### Cleanups, evictions and expiries -/

/-- What a removal leaves of the memberships of its id. -/
lemma Unlists.rooms_iff {cfg : Config} {id : String} {s s' : AppState} (h : Unlists cfg id s s') :
    (∀ room, s'.ledger.member id room → s'.ledger.pending id room) ↔
      ∀ room, s.ledger.member id room → s.ledger.index id room ∨
        (s.ledger.pending id room ∧ (cfg.sessionTtl ≠ 0 → ¬∃ room', s.ledger.index id room')) := by
  refine forall_congr' fun room => ?_
  rw [h.ledger]
  split_ifs with httl
  · simp only [Ledger.removeAll, true_and, httl, ne_eq, not_true_eq_false, false_implies, and_true]
    tauto
  · simp only [Ledger.defer, true_and, httl, ne_eq, not_false_eq_true, forall_const]

/-- A removal keeps what the other ids have. -/
lemma Unlists.keepsRooms {cfg : Config} {id x : String} {s s' : AppState}
    (h : Unlists cfg id s s') (hne : x ≠ id) : KeepsRooms x s s' := by
  refine ⟨fun hx => ?_, fun room hm => ?_, fun room hp => ?_⟩
  · rw [h.indexed] at hx
    exact Finset.mem_of_mem_erase hx
  · rw [h.ledger] at hm
    split_ifs at hm
    · exact hm.1
    · exact hm
  · rw [h.ledger]
    split_ifs
    · exact hp
    · exact Or.inr ⟨hp, fun hk => hne hk.1⟩

/-- A complete removal leaves nothing behind just when it finds every
membership in the list it works on, and no polling receiver stays. -/
lemma fullyRemoved_iff_of_unlists {cfg : Config} {s s' : AppState} {id : String}
    {receivers : DashMap ℕ} (h : FullyRemoved s)
    (hreg : s'.registry = { (s.registry.drop id).forget id with receivers := receivers })
    (hreceivers : ∀ x ≠ id, receivers.lookup x = s.pollingReceivers.lookup x)
    (hun : Unlists cfg id s s') :
    FullyRemoved s' ↔ receivers.lookup id = none ∧
      ∀ room, s.ledger.member id room → s.ledger.index id room ∨
        (s.ledger.pending id room ∧ (cfg.sessionTtl ≠ 0 → ¬∃ room', s.ledger.index id room')) := by
  have hids : s'.clients.keys = s.clients.keys.erase id := congrArg Registry.ids hreg
  have hsenders : s'.wsSenders = s.wsSenders.erase id := congrArg Registry.senders hreg
  have hreceiver : s'.pollingReceivers = receivers := congrArg Registry.receivers hreg
  have hbuckets : s'.rateLimiter.buckets = s.rateLimiter.buckets.filter fun b => b.1 ≠ id :=
    congrArg Registry.buckets hreg
  rw [fullyRemoved_iff_traceless h (d := id), ← hun.rooms_iff]
  · refine ⟨fun ht => ⟨by rw [← hreceiver]; exact ht.receiver, ht.rooms⟩, fun hc => ?_⟩
    refine ⟨?_, ?_, by rw [hreceiver]; exact hc.1, ?_, ?_, hc.2⟩
    · rw [show s'.clientClaims = _ from congrArg Registry.claims hreg]
      exact Finmap.lookup_erase _ _
    · rw [show s'.clientTenants = _ from congrArg Registry.tenants hreg]
      exact Finmap.lookup_erase _ _
    · intro hid
      have hid' : id ∈ s'.entries.indexed := hid
      rw [hun.indexed] at hid'
      exact Finset.notMem_erase _ _ hid'
    · intro bucket hb
      rw [hbuckets] at hb
      simp at hb
  · rw [hids]
    exact Finset.notMem_erase _ _
  · rw [hsenders]
    exact Finmap.lookup_erase _ _
  · intro x hne
    refine ⟨fun hx hold => ?_, ?_, ?_, hun.keepsRooms hne⟩
    · rw [show s'.registry.ids = _ from hids] at hx
      exact hx (Finset.mem_erase.mpr ⟨hne, hold⟩)
    · rw [hsenders, Finmap.lookup_erase_ne hne]
    · rw [hreg]
      have hforget := Registry.AgreesAt.forget (g := s.registry.drop id) hne
      exact ⟨hforget.claims, hforget.tenant, hreceivers x hne, hforget.buckets⟩

/-- An eviction pass leaves nothing behind just when the evicted clients have
no trace. -/
lemma fullyRemoved_evictBroken_iff (env : Env) (cfg : Config) {s : AppState} (h : FullyRemoved s) :
    FullyRemoved (evictBroken env cfg s) ↔ ∀ id ∈ toEvict env cfg s, Traceless s id := by
  obtain ⟨hreg, hmaps⟩ := registry_evictBroken env cfg s
  have hkeeps := Registry.keepsAuth_foldl_drop (toEvict env cfg s) s.registry
  have hdrops := Registry.foldl_drop_drops (toEvict env cfg s) s.registry
  rw [← hreg] at hkeeps
  simp only [← hreg] at hdrops
  have hagrees : ∀ x, s.registry.AgreesAt x (evictBroken env cfg s).registry := fun x =>
    ⟨by rw [hkeeps.claims], by rw [hkeeps.tenants], by rw [hkeeps.receivers],
      fun b hb => (hdrops x).2.2 ▸ hb⟩
  have hback : ∀ x, (evictBroken env cfg s).registry.AgreesAt x s.registry := fun x =>
    ⟨(hagrees x).claims.symm, (hagrees x).tenant.symm, (hagrees x).receiver.symm,
      fun b hb => by rw [(hdrops x).2.2]; exact hb⟩
  constructor
  · intro h' id hid
    have hgone := (h' id fun hc => ((hdrops id).1.mp hc).2 hid).2
    exact hgone.congr (hback id) (KeepsRooms.of_roomMaps hmaps.symm id)
  · intro htrace id hid
    by_cases hevict : id ∈ toEvict env cfg s
    · refine ⟨?_, (htrace id hevict).congr (hagrees id) (KeepsRooms.of_roomMaps hmaps id)⟩
      exact (hdrops id).2.1.trans (if_pos hevict)
    · refine h.at ⟨fun hx hold => hx ((hdrops id).1.mpr ⟨hold, hevict⟩), ?_, hagrees id,
        KeepsRooms.of_roomMaps hmaps id⟩ hid
      exact (hdrops id).2.1.trans (if_neg hevict)

/-- The expiry of a session removes the memberships it was waiting for. -/
lemma fullyRemoved_expireSession {s : AppState} (hs : s.ledger.Sound) (h : FullyRemoved s)
    (k : String) : FullyRemoved (expireSession s k) := by
  have hreg := registry_expireSession s k
  have hids : (expireSession s k).clients.keys = s.clients.keys := congrArg Registry.ids hreg
  intro id hid
  rw [hids] at hid
  obtain ⟨hsender, ht⟩ := h id hid
  refine ⟨?_, ?_, ?_, ?_, ?_, ?_, fun room hm => ?_⟩
  · rwa [show (expireSession s k).wsSenders = _ from congrArg Registry.senders hreg]
  · rw [show (expireSession s k).clientClaims = _ from congrArg Registry.claims hreg]
    exact ht.claims
  · rw [show (expireSession s k).clientTenants = _ from congrArg Registry.tenants hreg]
    exact ht.tenant
  · rw [show (expireSession s k).pollingReceivers = _ from congrArg Registry.receivers hreg]
    exact ht.receiver
  · rw [show (expireSession s k).clientRooms.keys = _ from
      congrArg Entries.indexed (entries_expireSession s k)]
    exact ht.index
  · rw [show (expireSession s k).rateLimiter.buckets = _ from congrArg Registry.buckets hreg]
    exact ht.buckets
  · rw [ledger_expireSession hs k] at hm ⊢
    have hp : s.ledger.pending id room := ht.rooms room hm.1
    refine ⟨hp, ?_⟩
    rintro rfl
    exact hm.2 ⟨rfl, hp⟩

lemma fullyRemoved_cleanupExpiredSessions (env : Env) (cfg : Config) {s : AppState}
    (hs : s.ledger.Sound) (h : FullyRemoved s) :
    FullyRemoved (cleanupExpiredSessions env cfg s) := by
  refine (cleanupExpiredSessions_induction (P := fun t => t.ledger.Sound ∧ FullyRemoved t) env cfg
    ⟨hs, h⟩ fun t k ht => ⟨?_, fullyRemoved_expireSession ht.1 ht.2 k⟩).2
  rw [ledger_expireSession ht.1 k]
  exact ht.1.expire

/-! ### Whole runs -/

/-- One step leaves nothing behind just when it is of the kinds that do not. -/
lemma fullyRemoved_iff_of_step {cfg : Config} {w w' : World} {l : Label}
    (hs : w.app.ledger.Sound) (hw : FullyRemoved w.app) (h : step cfg w l = some w') :
    FullyRemoved w'.app ↔ RemovesAll cfg w l := by
  obtain ⟨env, ev⟩ := l
  have ht := step_trans h
  dsimp only at ht
  cases ht with
  | refused r why hout =>
      have hrefused : (connect env cfg w.app r).isAdmitted = false := by rw [hout]; rfl
      rw [fullyRemoved_withClaims_iff hw]
      constructor
      · intro hids
        refine ⟨fun r' id claims hev _ hstored => ?_, fun id msg hin => ?_, fun k K hK => ?_, ?_⟩
        · rw [← Event.connect.inj hev] at hstored
          exact hids id claims hstored
        · exact absurd hin (by simp [incoming])
        · exact absurd hK (by simp [cleanedUp])
        · exact fun hev => absurd hev (by simp)
      · exact fun hall id claims hstored => hall.refused r id claims rfl hrefused hstored
  | admitted r K s' hout hadm =>
      have hfull : FullyRemoved s' := by
        intro id hid
        have hne : id ≠ K.id := by
          rintro rfl
          exact hid hadm.mem_ids
        exact hw.at (leaves_of_admits hadm hne) hid
      refine ⟨fun _ => RemovesAll.of_none (fun r' hev => ?_) rfl rfl (by simp), fun _ => hfull⟩
      rw [← Event.connect.inj hev]
      dsimp only
      rw [hout]
      rfl
  | message ev id msg s' hin hrec =>
      rw [removesAll_iff_of_incoming hin]
      exact fullyRemoved_iff_of_receives hs hw hrec
  | socketClosed k K s' hdown hreg hun =>
      rw [removesAll_iff_of_cleanedUp hdown,
        fullyRemoved_iff_of_unlists hw hreg (fun _ _ => rfl) (hun hs)]
      exact ⟨fun hc => ⟨fun _ => hc.1, hc.2⟩, fun hc => ⟨hc.receiver ⟨k, rfl⟩, hc.rooms⟩⟩
  | streamCleaned ev k K s' f hev hdown hlater hclose hreg hun =>
      have hstream : ¬∃ k, ev = .wsClose k := by
        rintro ⟨k', rfl⟩
        exact absurd hev (by simp)
      rw [removesAll_iff_of_cleanedUp hdown,
        fullyRemoved_iff_of_unlists hw hreg (fun x hne => Finmap.lookup_erase_ne hne) (hun hs)]
      exact ⟨fun hc => ⟨fun hws => absurd hws hstream, hc.2⟩,
        fun hc => ⟨Finmap.lookup_erase _ _, hc.rooms⟩⟩
  | evicted =>
      rw [fullyRemoved_evictBroken_iff env cfg hw]
      constructor
      · intro htrace
        exact ⟨fun _ _ _ hev => absurd hev (by simp),
          fun _ _ hin => absurd hin (by simp [incoming]),
          fun _ _ hK => absurd hK (by simp [cleanedUp]), fun _ => htrace⟩
      · exact fun hall => hall.eviction rfl
  | reconciled =>
      refine ⟨fun _ => RemovesAll.of_none (by simp) rfl rfl (by simp), fun _ id hid => ?_⟩
      have hmaps : (reconcile w.app).roomMaps = w.app.roomMaps := rfl
      exact hw.at ⟨fun h => h, rfl, ⟨rfl, rfl, rfl, fun _ hb => hb⟩,
        KeepsRooms.of_roomMaps hmaps id⟩ hid
  | expired =>
      exact ⟨fun _ => RemovesAll.of_none (by simp) rfl rfl (by simp),
        fun _ => fullyRemoved_cleanupExpiredSessions env cfg hs hw⟩
  | replayEvicted =>
      refine ⟨fun _ => RemovesAll.of_none (by simp) rfl rfl (by simp), fun _ id hid => ?_⟩
      have hmaps : (replayEvict env w.app).roomMaps = w.app.roomMaps := rfl
      exact hw.at ⟨fun h => h, rfl, ⟨rfl, rfl, rfl, fun _ hb => hb⟩,
        KeepsRooms.of_roomMaps hmaps id⟩ hid
  | quiet ev w' hin hdown hconnect hevict hreg hmaps hconns =>
      refine ⟨fun _ => RemovesAll.of_none (fun r hev => absurd hev (hconnect r)) hin hdown hevict,
        fun _ id hid => hw.at (Leaves.of_frame hreg hmaps id) hid⟩

/-- In every run, whoever is not registered is fully removed in all its states
just when each of its steps leaves nothing behind. -/
theorem fully_removed_iff (cfg : Config) (redis : Redis) (ls : List Label) :
    AllSteps (step cfg) (fun _ _ w' => FullyRemoved w'.app) (World.init cfg redis) ls ↔
      AllSteps (step cfg) (fun w l _ => RemovesAll cfg w l) (World.init cfg redis) ls := by
  have hinit : (World.init cfg redis).app.ledger.Sound ∧
      FullyRemoved (World.init cfg redis).app := by
    refine ⟨sound_init cfg redis, fun id _ => ⟨rfl, rfl, rfl, rfl, ?_, ?_, ?_⟩⟩
    · exact Finset.notMem_empty id
    · exact fun bucket => Finset.notMem_empty _
    · rintro room ⟨members, hl, -⟩
      exact absurd hl (by simp [World.init, AppState.new])
  exact AllSteps.iff_of_invariant
    (I := fun w : World => w.app.ledger.Sound ∧ FullyRemoved w.app)
    (P := fun w l _ => RemovesAll cfg w l)
    (fun _ _ _ hw h => fullyRemoved_iff_of_step hw.1 hw.2 h)
    (fun _ _ _ hw h hG => ⟨sound_of_step hw.1 h, hG⟩) hinit

/-- A `LEAVE` without destination. -/
def leaveAll : Message := { type_ := .LEAVE }

/-- Not every run removes everything: `alice` joins a room and sends `LEAVE`,
and stays in the room and in the reverse index. -/
theorem leave_keeps_rooms :
    ¬∀ (cfg : Config) (redis : Redis) (ls : List Label),
      AllSteps (step cfg) (fun _ _ w' => FullyRemoved w'.app) (World.init cfg redis) ls := by
  intro hall
  let ls := [quietly (.connect (Params.plain "alice" "tok").ws),
    quietly (.say 0 (roomJoin "lobby"))]
  have hrun := hall {} Redis.empty (ls ++ [quietly (.say 0 leaveAll)])
  have heval : (run (step {}) (World.init {} Redis.empty) ls).bind (fun w =>
      (step {} w (quietly (.say 0 leaveAll))).map fun w' =>
        decide ("alice" ∉ w'.app.clients.keys ∧ "alice" ∈ w'.app.clientRooms.keys)) =
      some true := by decide +kernel
  obtain ⟨w, hw, hstep⟩ := Option.bind_eq_some_iff.mp heval
  obtain ⟨w', hw', hobs⟩ := Option.map_eq_some_iff.mp hstep
  obtain ⟨hgone, hindexed⟩ := of_decide_eq_true hobs
  exact (AllSteps.last hrun hw hw' "alice" hgone).2.index hindexed

end Dendri
