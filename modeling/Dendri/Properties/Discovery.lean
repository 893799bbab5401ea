import Dendri.Handlers.Api
import Dendri.Properties.FlatServer
import Dendri.Properties.Isolation

/-!
Peer discovery. `GET /:key/peers` reads a room of the server, or the set of clients in Redis,
and `GET /:key/id` avoids the ids of that set.

* `JoinsRoom`: a step in which a client joins a room that is stored under a key;
* `known_of_step`: memberships, also those of a session that waits to be restored, come from
  such steps only;
* `room_peers_joined`: in every run, the peers listed for a room have joined it. The room is
  looked up by its storage key, so that a name without the separator U+001F lists only peers
  that joined without tenant;
* `peers_are_registered`: while Redis is kept up to date, the peers listed without a room are
  the registered clients, and a generated id is the id of none of them.
-/

namespace Dendri

open AppState Transition

/-! ### Who is listed for a room -/

/-- `id` sends a `ROOM-JOIN` for a room stored under `key`, which passes the rate limit and which
`handle_room_join` does not deny: for the room's name, for the claims of `id`, or because a limit
is reached. -/
def JoinsRoom (cfg : Config) (id key : String) (w : World) (l : Label) : Prop :=
  ∃ msg, incoming cfg w l.event = some (id, msg) ∧ allowed l.env id msg.type_ = true ∧
    joins cfg w.app id msg = some key

/-- A step makes a client known to a room only by a join. -/
lemma known_of_step {cfg : Config} {w w' : World} {l : Label} {id key : String}
    (hsound : w.app.ledger.Sound) (h : step cfg w l = some w')
    (hknown : w'.app.ledger.Known id key) :
    w.app.ledger.Known id key ∨ JoinsRoom cfg id key w l := by
  have hframe : ∀ s : AppState, s.roomMaps = w.app.roomMaps → s.ledger.Known id key →
      w.app.ledger.Known id key := by
    intro s hmaps hs
    rwa [(memberships_of_roomMaps hmaps).1] at hs
  have hdown : ∀ (left : String) (s : AppState), Unlists cfg left w.app s →
      s.ledger.Known id key → w.app.ledger.Known id key := by
    intro left s hun hs
    rw [hun.ledger] at hs
    split_ifs at hs
    · exact hs.of_removeAll
    · exact hs.of_defer hsound
  obtain ⟨env, ev⟩ := l
  have ht := step_trans h
  dsimp only at ht
  cases ht with
  | refused r why hout => exact Or.inl (hframe _ (withClaims_frame _ _).2 hknown)
  | admitted r K s' hout hadm =>
      rcases hadm.ledger with heq | heq
      · exact Or.inl (heq ▸ hknown)
      · dsimp only at hknown
        rw [heq] at hknown
        exact Or.inl hknown.of_restore
  | message ev sender msg s' hin hrec =>
      have hmoves := (hrec.moves hsound).ledger
      dsimp only at hknown
      rw [hmoves] at hknown
      split_ifs at hknown with hallowed
      · cases hjoins : joins cfg w.app sender msg with
        | some joined =>
            rw [hjoins] at hknown
            rcases Ledger.known_join_iff.mp hknown with hold | ⟨rfl, rfl⟩
            · exact Or.inl hold
            · exact Or.inr ⟨msg, hin, hallowed, hjoins⟩
        | none =>
            rw [hjoins] at hknown
            cases hleaves : leaves w.app sender msg with
            | some left =>
                rw [hleaves] at hknown
                exact Or.inl hknown.of_leave
            | none =>
                rw [hleaves] at hknown
                exact Or.inl hknown
      · exact Or.inl hknown
  | socketClosed k K s' hdown' hreg hun => exact Or.inl (hdown K.id s' (hun hsound) hknown)
  | streamCleaned ev k K s' f hev hdown' hlater hclose hreg hun =>
      exact Or.inl (hdown K.id s' (hun hsound) hknown)
  | evicted => exact Or.inl (hframe _ (registry_evictBroken env cfg w.app).2 hknown)
  | reconciled => exact Or.inl (hframe _ rfl hknown)
  | expired =>
      refine Or.inl ((cleanupExpiredSessions_induction (P := fun t => t.ledger.Sound ∧
        (t.ledger.Known id key → w.app.ledger.Known id key)) env cfg ⟨hsound, fun h => h⟩
        fun t k ht => ?_).2 hknown)
      rw [ledger_expireSession ht.1 k]
      exact ⟨ht.1.expire, fun h => ht.2 h.of_expire⟩
  | replayEvicted => exact Or.inl (hframe _ rfl hknown)
  | quiet ev w' hin hdown' hconnect hevict hreg hmaps hconns =>
      exact Or.inl (hframe _ hmaps hknown)

/-- A client that is known to a room has joined it. -/
lemma joined_of_known {cfg : Config} {redis : Redis} {ls : List Label} {w : World}
    (hrun : run (step cfg) (World.init cfg redis) ls = some w) {id key : String}
    (hknown : w.app.ledger.Known id key) :
    Happened (step cfg) (JoinsRoom cfg id key) (World.init cfg redis) ls := by
  refine (run_happened_induction (I := fun joined w => w.app.ledger.Sound ∧
    (w.app.ledger.Known id key → joined)) ⟨sound_init cfg redis, ?_⟩
    (fun joined w l w' hw hstep => ?_) hrun).2 hknown
  · rintro (⟨members, hl, -⟩ | ⟨pending, hl, -⟩)
    · exact absurd hl (by simp [World.init, AppState.new])
    · exact absurd hl (by simp [World.init, AppState.new])
  · exact ⟨sound_of_step hw.1 hstep, fun hk => (known_of_step hw.1 hstep hk).imp_left hw.2⟩

/-- The request has the connection key, discovery is on, and the request has the discovery
token if there is one. -/
def Permitted (cfg : ApiConfig) (key : String) (params : PeersQuery) : Prop :=
  key = cfg.key ∧ cfg.allowDiscovery = true ∧
    ∀ expected, cfg.discoveryToken = some expected → params.token = some expected

/-- Only such requests get past the checks. -/
lemma getPeers_eq (order : SetOrder String) (cfg : ApiConfig) (s : AppState) (db : Keyspace.Db)
    (now : ℕ) (key : String) (params : PeersQuery) :
    (Permitted cfg key params → getPeers order cfg s db now key params =
      match params.room with
      | some room => .ok (order.toList ((s.rooms.lookup room).getD ∅))
      | none =>
          match RedisRealm.getAllClientIds db now with
          | some ids => .ok (order.toList ids)
          | none => .error 500) ∧
    (¬Permitted cfg key params → getPeers order cfg s db now key params = .error 401) := by
  have htoken : (cfg.discoveryToken.any fun expected => params.token != some expected) = true ↔
      ¬∀ expected, cfg.discoveryToken = some expected → params.token = some expected := by
    cases cfg.discoveryToken with
    | none => simp
    | some expected => simp
  rw [getPeers, Permitted]
  simp only [htoken]
  by_cases hkey : key = cfg.key
  · by_cases hallow : cfg.allowDiscovery = true
    · simp only [hkey, hallow, ne_eq, not_true_eq_false, if_false, Bool.true_eq_false, true_and]
      split_ifs with h
      · exact ⟨fun _ => rfl, fun h' => absurd h h'⟩
      · exact ⟨fun h' => absurd h' h, fun _ => rfl⟩
    · simp [hkey, hallow]
  · simp [hkey]

/-- A room that is asked for is answered with its members. -/
lemma mem_of_getPeers {order : SetOrder String} {cfg : ApiConfig} {s : AppState}
    {db : Keyspace.Db} {now : ℕ} {key room id : String} {params : PeersQuery} {ids : List String}
    (hroom : params.room = some room) (h : getPeers order cfg s db now key params = .ok ids)
    (hid : id ∈ ids) : s.ledger.member id room := by
  have heq := getPeers_eq order cfg s db now key params
  by_cases hpermitted : Permitted cfg key params
  · rw [heq.1 hpermitted, hroom] at h
    rw [← Except.ok.inj h, order.mem_toList] at hid
    cases hl : s.rooms.lookup room with
    | none => simp [hl] at hid
    | some members => exact ⟨members, hl, by simpa [hl] using hid⟩
  · rw [heq.2 hpermitted] at h
    exact absurd h (by simp)

/-- The storage key of a tenant's room contains the separator. -/
lemma JoinsRoom.untenanted {cfg : Config} {id key : String} {w : World} {l : Label}
    (h : JoinsRoom cfg id key w l) (hkey : tenantSep ∉ key.toList) :
    w.app.clientTenants.lookup id = none := by
  obtain ⟨msg, -, -, hjoins⟩ := h
  obtain ⟨room, -, hnamespace⟩ := room_of_joins hjoins
  rw [roomKey] at hnamespace
  cases htenant : w.app.clientTenants.lookup id with
  | none => rfl
  | some tenant =>
      rw [htenant] at hnamespace
      rw [hnamespace, toList_namespaceRoom_some] at hkey
      exact absurd (List.mem_append_right _ List.mem_cons_self) hkey

/-- In every run, the peers that are listed for a room have joined the room of this storage
key, through a message that was not denied. No tenant was recorded for them then, unless
the name that was asked for contains U+001F. -/
theorem room_peers_joined {cfg : ApiConfig} {redis : Redis} {ls : List Label} {w : World}
    (hrun : run (step cfg.toConfig) (World.init cfg.toConfig redis) ls = some w)
    {order : SetOrder String} {db : Keyspace.Db} {now : ℕ} {key : String} {params : PeersQuery}
    {room : String} {ids : List String} (hroom : params.room = some room)
    (hget : getPeers order cfg w.app db now key params = .ok ids) :
    ∀ id ∈ ids, Happened (step cfg.toConfig)
      (fun w l => JoinsRoom cfg.toConfig id room w l ∧
        (tenantSep ∉ room.toList → w.app.clientTenants.lookup id = none))
      (World.init cfg.toConfig redis) ls := by
  intro id hid
  have hmember := mem_of_getPeers hroom hget hid
  obtain ⟨before, l, after, u, hls, hu, hjoins⟩ := joined_of_known hrun (Or.inl hmember)
  exact ⟨before, l, after, u, hls, hu, hjoins, hjoins.untenanted⟩

/-- A server that gives out its peers. -/
def discovering : ApiConfig := { allowDiscovery := true }

/-- `alice` of the tenant `t1` joins its lobby. -/
def tenantJoins : List Label := [tenantConnects "alice", quietly (.say 0 (roomJoin "lobby"))]

theorem room_peers_joined_t1 :
    Happened (step {})
      (fun w l => JoinsRoom {} "alice" "t1\u001flobby" w l ∧
        (tenantSep ∉ "t1\u001flobby".toList → w.app.clientTenants.lookup "alice" = none))
      (World.init {} Redis.empty) tenantJoins :=
  @room_peers_joined discovering Redis.empty tenantJoins
    ((run (step {}) (World.init {} Redis.empty) tenantJoins).get (by decide))
    (Option.some_get _).symm (SetOrder.sorted String) ∅ 0 "dendri"
    { room := some "t1\u001flobby" } "t1\u001flobby" ["alice"] rfl (by decide) "alice" (by decide)

/-! ### Who is listed without a room -/

section Registered

variable {tenants : Codec Tenant} {messages : Codec Message}

/-- The server gives out ids that no client has, and lists all clients. -/
structure Registers (cfg : ApiConfig) (d : Deployment) (now : ℕ) : Prop where
  peers : ∀ (order : SetOrder String) key params, Permitted cfg key params → params.room = none →
    getPeers order cfg d.server.app d.db now key params =
      .ok (order.toList d.server.app.clients.keys)
  id : ∀ uuids, getId cfg d.db now uuids cfg.key =
    (uuids.find? fun id => decide (id ∉ d.server.app.clients.keys)).map .ok

lemma Deployment.Kept.registers {cfg : ApiConfig} {d : Deployment} (h : d.Kept cfg.toConfig)
    (now : ℕ) : Registers cfg d now := by
  have hall := h.getAllClientIds now
  refine ⟨fun order key params hpermitted hroom => ?_, fun uuids => ?_⟩
  · rw [(getPeers_eq order cfg _ _ now key params).1 hpermitted, hroom, hall]
  · rw [getId, RedisRealm.generateClientId_eq hall, if_neg (not_not.mpr rfl)]
    cases (uuids.find? fun id => decide (id ∉ d.server.app.clients.keys)) with
    | none => rfl
    | some id => rfl

end Registered

end Dendri
