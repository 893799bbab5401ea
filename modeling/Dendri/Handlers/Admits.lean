import Dendri.Handlers.Connect

/-!
What connecting and disconnecting does to the registry and to memberships,
handler by handler, so that no later proof opens a handler again.

* `connect_rejected`: a refused request leaves the state as it was, except for
  the claims its JWT check stored;
* `Admits`, `connect_admitted`: the four ways a request is admitted, each with
  the registry operations it amounts to (`store`, `reserve`, `enroll`, `pair`,
  `registerPoll`) and what it does to memberships;
* `registry_teardown`, `unlists_teardown`: a complete removal.
-/

namespace Dendri

open AppState

/-! ### What a refused request leaves -/

/-- The claims a request stored, if any. -/
def AppState.withClaims (s : AppState) : Option (String × Value) → AppState
  | some (id, claims) => s.storeClaims id (some claims)
  | none => s

lemma withClaims_map (s : AppState) (id : String) (claims : Option Value) :
    s.withClaims (claims.map fun c => (id, c)) = s.storeClaims id claims := by
  cases claims with
  | none => rfl
  | some claims => rfl

/-- A reservation that fails undoes its increment. -/
lemma tryReserveConnectionSlot_eq (s : AppState) (limit : UInt64) :
    s.tryReserveConnectionSlot limit =
      if limit ≤ s.activeConnections then (s, false)
      else ({ s with activeConnections := s.activeConnections + 1 }, true) := by
  have hundo : s.activeConnections + 1 - 1 = s.activeConnections := UInt64.add_sub_cancel _ _
  rw [tryReserveConnectionSlot]
  dsimp only
  rw [hundo]

lemma releaseConnectionSlot_reserved (s : AppState) :
    releaseConnectionSlot { s with activeConnections := s.activeConnections + 1 } = s := by
  have hundo : s.activeConnections + 1 - 1 = s.activeConnections := UInt64.add_sub_cancel _ _
  simp only [releaseConnectionSlot, hundo]

lemma admitSocket_rejected {env : Env} {cfg : Config} {s s' : AppState} {id token : String}
    {auth : Auth} {lastSeq : Option ℕ} {why : Refusal}
    (h : admitSocket env cfg s id token auth lastSeq = .rejected why s') : s' = s := by
  rw [admitSocket] at h
  cases htoken : existingToken env s id with
  | some storedToken =>
      rw [htoken] at h
      dsimp only at h
      split_ifs at h
      · rw [Outcome.rejected.injEq] at h
        exact h.2.symm
      · exact absurd h (by simp [runClient])
  | none =>
      rw [htoken, tryReserveConnectionSlot_eq] at h
      by_cases hfull : cfg.concurrentLimit ≤ s.activeConnections
      · rw [if_pos hfull] at h
        dsimp only at h
        rw [Outcome.rejected.injEq] at h
        exact h.2.symm
      · rw [if_neg hfull] at h
        dsimp only at h
        split_ifs at h
        · rw [Outcome.rejected.injEq] at h
          rw [← h.2]
          exact releaseConnectionSlot_reserved s
        · exact absurd h (by simp [runClient])

/-- The two branches of `handle_socket` that reach `run_client`. -/
lemma runClient_of_admitSocket {env : Env} {cfg : Config} {s s' : AppState} {id token : String}
    {auth : Auth} {lastSeq : Option ℕ} {K : Conn}
    (h : admitSocket env cfg s id token auth lastSeq = .admitted K s') :
    (existingToken env s id = some token ∧
        ∃ t restored, t = (s.insertClient env.now id token .WebSocket).insertTenant id
            auth.tenantId ∧
          runClient env (restoreSession t id) id token auth lastSeq restored = .admitted K s') ∨
      (existingToken env s id = none ∧ ¬cfg.concurrentLimit ≤ s.activeConnections ∧
        ∃ t, t = AppState.redisRegisterClient
            { s with activeConnections := s.activeConnections + 1 } env id token ∧
          runClient env ((t.insertClient env.now id token .WebSocket).insertTenant id
            auth.tenantId) id token auth lastSeq [] = .admitted K s') := by
  rw [admitSocket] at h
  cases htoken : existingToken env s id with
  | some storedToken =>
      rw [htoken] at h
      dsimp only at h
      split_ifs at h with hne
      rw [not_not] at hne
      exact Or.inl ⟨by rw [hne], _, _, rfl, h⟩
  | none =>
      rw [htoken, tryReserveConnectionSlot_eq] at h
      by_cases hfull : cfg.concurrentLimit ≤ s.activeConnections
      · rw [if_pos hfull] at h
        exact absurd h (by simp)
      · rw [if_neg hfull] at h
        dsimp only at h
        split_ifs at h
        exact Or.inr ⟨rfl, hfull, _, rfl, h⟩

/-- The ownership check changes the counter only. -/
lemma claimId_counter (cfg : Config) (s : AppState) (id token : String) :
    ∃ n, (claimId cfg s id token).1 = { s with activeConnections := n } := by
  rw [claimId, tryReserveConnectionSlot_eq]
  cases s.clients.lookup id with
  | some existing => exact ⟨s.activeConnections, rfl⟩
  | none =>
      by_cases hfull : cfg.concurrentLimit ≤ s.activeConnections
      · rw [if_pos hfull]
        exact ⟨s.activeConnections, rfl⟩
      · rw [if_neg hfull]
        exact ⟨s.activeConnections + 1, rfl⟩

lemma claimId_refused {cfg : Config} {s s' : AppState} {id token : String} {why : Refusal}
    (h : claimId cfg s id token = (s', some why)) : s' = s := by
  rw [claimId] at h
  cases hc : s.clients.lookup id with
  | some existing =>
      rw [hc, Prod.mk.injEq] at h
      exact h.1.symm
  | none =>
      rw [hc, tryReserveConnectionSlot_eq] at h
      split_ifs at h
      · rw [Prod.mk.injEq] at h
        exact h.1.symm
      · simp at h

/-- A WebSocket request is refused before its claims are stored, or goes on to
`admitSocket`. -/
lemma handleSocket_cases (env : Env) (cfg : Config) (s : AppState) (q : WsQuery) :
    (∃ why, handleSocket env cfg s q = .rejected why s ∧ storedClaims env cfg (.ws q) = none) ∨
      ∃ id token auth, q.id = some id ∧ q.token = some token ∧ isValidIdentifier id = true ∧
        isValidIdentifier token = true ∧ authenticate env cfg q.key q.apiKey q.jwt = .ok auth ∧
        storedClaims env cfg (.ws q) = auth.claims.map (fun c => (id, c)) ∧
        handleSocket env cfg s q =
          admitSocket env cfg (s.storeClaims id auth.claims) id token auth q.lastSeq := by
  obtain ⟨id, token, key, lastSeq, jwt, apiKey⟩ := q
  cases id with
  | none => exact Or.inl ⟨_, rfl, rfl⟩
  | some id =>
      cases token with
      | none => exact Or.inl ⟨_, rfl, rfl⟩
      | some token =>
          cases key with
          | none => exact Or.inl ⟨_, rfl, rfl⟩
          | some key =>
              rw [handleSocket, storedClaims]
              dsimp only
              by_cases hvalid : isValidIdentifier id = true ∧ isValidIdentifier token = true
              · have hpass : ¬(!isValidIdentifier id || !isValidIdentifier token) = true := by
                  simp [hvalid.1, hvalid.2]
                rw [if_neg hpass]
                cases authenticate env cfg (some key) apiKey jwt with
                | error why => exact Or.inl ⟨_, rfl, rfl⟩
                | ok auth =>
                    exact Or.inr ⟨id, token, auth, rfl, rfl, hvalid.1, hvalid.2, rfl,
                      if_pos hvalid, rfl⟩
              · have hfail : (!isValidIdentifier id || !isValidIdentifier token) = true := by
                  rw [Bool.or_eq_true_iff, Bool.not_eq_true', Bool.not_eq_true']
                  rw [not_and_or, Bool.not_eq_true, Bool.not_eq_true] at hvalid
                  exact hvalid
                rw [if_pos hfail]
                cases authenticate env cfg (some key) apiKey jwt with
                | error why => exact Or.inl ⟨_, rfl, rfl⟩
                | ok auth => exact Or.inl ⟨_, rfl, if_neg hvalid⟩

/-- The checks of the two HTTP handlers: the request is refused, with the state
as it was but for its claims, or its id is claimed and `f` goes on. -/
lemma http_cases (env : Env) (cfg : Config) (s : AppState) (q : HttpQuery)
    (f : Auth → AppState → Outcome) :
    let out := match authenticate env cfg q.key q.apiKey q.jwt with
      | .error why => Outcome.rejected why.httpRefusal s
      | .ok auth =>
          match claimId cfg (s.storeClaims q.id auth.claims) q.id q.token with
          | (s, some why) => .rejected why s
          | (s, none) => f auth s
    (∃ why, out = .rejected why (s.withClaims (storedClaims env cfg (.sse q)))) ∨
      ∃ auth t, storedClaims env cfg (.sse q) = auth.claims.map (fun c => (q.id, c)) ∧
        claimId cfg (s.storeClaims q.id auth.claims) q.id q.token = (t, none) ∧
        out = f auth t := by
  rw [storedClaims]
  cases authenticate env cfg q.key q.apiKey q.jwt with
  | error why => exact Or.inl ⟨_, rfl⟩
  | ok auth =>
      dsimp only
      cases hclaim : claimId cfg (s.storeClaims q.id auth.claims) q.id q.token with
      | mk t refusal =>
          cases refusal with
          | some why =>
              rw [withClaims_map, claimId_refused hclaim]
              exact Or.inl ⟨why, rfl⟩
          | none => exact Or.inr ⟨auth, t, rfl, hclaim, rfl⟩

lemma sseHandler_cases (env : Env) (cfg : Config) (s : AppState) (q : HttpQuery) :
    (∃ why, sseHandler env cfg s q =
        .rejected why (s.withClaims (storedClaims env cfg (.sse q)))) ∨
      ∃ auth t, storedClaims env cfg (.sse q) = auth.claims.map (fun c => (q.id, c)) ∧
        claimId cfg (s.storeClaims q.id auth.claims) q.id q.token = (t, none) ∧
        sseHandler env cfg s q = openStream env t q auth :=
  http_cases env cfg s q fun auth t => openStream env t q auth

lemma pollHandler_cases (env : Env) (cfg : Config) (s : AppState) (q : HttpQuery) :
    (∃ why, pollHandler env cfg s q =
        .rejected why (s.withClaims (storedClaims env cfg (.poll q)))) ∨
      ∃ auth t u, storedClaims env cfg (.poll q) = auth.claims.map (fun c => (q.id, c)) ∧
        claimId cfg (s.storeClaims q.id auth.claims) q.id q.token = (t, none) ∧
        u = registerPoll env (pollingPair t q.id).1 (s.clients.lookup q.id).isNone
          (pollingPair t q.id).2.1 q auth ∧
        pollHandler env cfg s q = .admitted
          { id := q.id, token := q.token, transport := .Polling, tenant := auth.tenantId,
            claims := auth.claims, chan := (pollingPair t q.id).2.2 }
          (u.send (pollingPair t q.id).2.1
            (gapFrames u q.id q.lastSeq ++ replayFrames env u q.id q.lastSeq)) := by
  rcases http_cases env cfg s q (fun auth t =>
    let u := registerPoll env (pollingPair t q.id).1 (s.clients.lookup q.id).isNone
      (pollingPair t q.id).2.1 q auth
    .admitted
      { id := q.id, token := q.token, transport := .Polling, tenant := auth.tenantId,
        claims := auth.claims, chan := (pollingPair t q.id).2.2 }
      (u.send (pollingPair t q.id).2.1
        (gapFrames u q.id q.lastSeq ++ replayFrames env u q.id q.lastSeq)))
    with hrejected | ⟨auth, t, hstored, hclaim, heq⟩
  · exact Or.inl hrejected
  · exact Or.inr ⟨auth, t, _, hstored, hclaim, rfl, heq⟩

/-- A refused request leaves the state as it was, except for the claims that
its JWT check stored. -/
lemma connect_rejected {env : Env} {cfg : Config} {s s' : AppState} {r : Request} {why : Refusal}
    (h : connect env cfg s r = .rejected why s') :
    s' = s.withClaims (storedClaims env cfg r) := by
  cases r with
  | ws q =>
      rcases handleSocket_cases env cfg s q with ⟨_, heq, hnone⟩ | ⟨id, token, auth, h'⟩
      · rw [connect, heq, Outcome.rejected.injEq] at h
        rw [hnone, ← h.2]
        rfl
      · obtain ⟨-, -, -, -, -, hstored, heq⟩ := h'
        rw [connect, heq] at h
        rw [hstored, withClaims_map]
        exact admitSocket_rejected h
  | sse q =>
      rcases sseHandler_cases env cfg s q with ⟨_, heq⟩ | ⟨_, _, -, -, heq⟩
      · rw [connect, heq] at h
        exact (Outcome.rejected.inj h).2.symm
      · rw [connect, heq] at h
        exact absurd h (by simp [openStream])
  | poll q =>
      rcases pollHandler_cases env cfg s q with ⟨_, heq⟩ | ⟨_, _, _, -, -, -, heq⟩
      · rw [connect, heq] at h
        exact (Outcome.rejected.inj h).2.symm
      · rw [connect, heq] at h
        exact absurd h (by simp)

/-! ### What an admitted request does -/

instance (s : AppState) (id : String) : Decidable (HasPending s id) :=
  inferInstanceAs (Decidable (_ = true))

namespace Registry

/-- The claims of `id` are replaced, if there are new ones. -/
def store (g : Registry) (id : String) (claims : Option Value) : Registry :=
  { g with claims := FinMap.insertOpt g.claims id claims }

/-- A WebSocket or an event stream is registered, and a new channel becomes the
id's. -/
def enroll (g : Registry) (id : String) (tenant : Option String) : Registry :=
  { g with
    senders := g.senders.insert id g.nextChan
    ids := insert id g.ids
    tenants := FinMap.insertOpt g.tenants id tenant
    nextChan := g.nextChan + 1 }

/-- The claims a refused request stored, if any. -/
def withClaims (g : Registry) : Option (String × Value) → Registry
  | some (id, claims) => g.store id (some claims)
  | none => g

/-- A slot is reserved for an id that is not registered. -/
def reserve (g : Registry) (id : String) : Registry :=
  { g with active := if id ∈ g.ids then g.active else g.active + 1 }

/-- The stored sender and receiver of a polling client are both there. -/
def hasPair (g : Registry) (id : String) : Bool :=
  (g.receivers.lookup id).isSome && (g.senders.lookup id).isSome

/-- The channel a poll receives on. -/
def pollChan (g : Registry) (id : String) : ℕ :=
  if g.hasPair id then (g.receivers.lookup id).getD 0 else g.nextChan

/-- The sender and the receiver of a polling client are replaced, unless both
are there. -/
def pair (g : Registry) (id : String) : Registry :=
  { g with
    senders := if g.hasPair id then g.senders else g.senders.insert id g.nextChan
    receivers := if g.hasPair id then g.receivers else g.receivers.insert id g.nextChan
    nextChan := if g.hasPair id then g.nextChan else g.nextChan + 1 }

/-- A polling client is registered; the tenant of a known one stays. -/
def registerPoll (g : Registry) (id : String) (tenant : Option String) : Registry :=
  { g with
    ids := insert id g.ids
    tenants := if id ∈ g.ids then g.tenants else FinMap.insertOpt g.tenants id tenant }

end Registry

namespace Request

/-- The id a request is for. -/
def id : Request → Option String
  | ws q => q.id
  | sse q | poll q => some q.id

/-- The token a request presents. -/
def token : Request → Option String
  | ws q => q.token
  | sse q | poll q => some q.token

end Request

/-- The connection `K` was admitted for the request `r`: it has the request's
id and token, and what it authenticated with is what the request stored. -/
structure Conn.AdmittedFor (env : Env) (cfg : Config) (r : Request) (K : Conn) : Prop where
  isOpen : K.isOpen = true
  id : r.id = some K.id
  token : r.token = some K.token
  stored : storedClaims env cfg r = K.claims.map fun c => (K.id, c)

/-- How a reconnect treats the session of `id`: a pending removal is undone. -/
structure Restores (id : String) (s t : AppState) : Prop where
  ledger : t.ledger = if HasPending s id then s.ledger.restore id else s.ledger
  entries : t.entries =
    if HasPending s id then ⟨insert id s.entries.indexed, s.entries.waiting.erase id⟩
    else s.entries
  noEmptyRoom : NoEmptyRoom s → NoEmptyRoom t

/-- The ways a request is admitted, with what each does to the state. -/
inductive Admits (env : Env) (cfg : Config) (s : AppState) : Request → Conn → AppState → Prop
  /-- A WebSocket whose token is the registered one. -/
  | reconnect (q : WsQuery) (K : Conn) (s' : AppState)
      (hK : K.AdmittedFor env cfg (.ws q)) (htransport : K.transport = .WebSocket)
      (hchan : K.chan = s.nextChan)
      (htoken : existingToken env s K.id = some K.token)
      (hreg : s'.registry = (s.registry.store K.id K.claims).enroll K.id K.tenant)
      (hrest : Restores K.id s s') : Admits env cfg s (.ws q) K s'
  /-- A WebSocket of an id that is not registered. -/
  | register (q : WsQuery) (K : Conn) (s' : AppState)
      (hK : K.AdmittedFor env cfg (.ws q)) (htransport : K.transport = .WebSocket)
      (hchan : K.chan = s.nextChan)
      (htoken : existingToken env s K.id = none)
      (hslot : ¬cfg.concurrentLimit ≤ s.activeConnections)
      (hreg : s'.registry =
        (({ s.registry with active := s.registry.active + 1 } : Registry).store K.id
          K.claims).enroll K.id K.tenant)
      (hmaps : s'.roomMaps = s.roomMaps) : Admits env cfg s (.ws q) K s'
  /-- An event stream. -/
  | stream (q : HttpQuery) (K : Conn) (s' : AppState)
      (hK : K.AdmittedFor env cfg (.sse q)) (htransport : K.transport = .Sse)
      (hchan : K.chan = s.nextChan)
      (hslot : K.id ∉ s.registry.ids → ¬cfg.concurrentLimit ≤ s.activeConnections)
      (hreg : s'.registry =
        ((s.registry.reserve K.id).store K.id K.claims).enroll K.id K.tenant)
      (hmaps : s'.roomMaps = s.roomMaps) : Admits env cfg s (.sse q) K s'
  /-- A poll. -/
  | poll (q : HttpQuery) (K : Conn) (s' : AppState)
      (hK : K.AdmittedFor env cfg (.poll q)) (htransport : K.transport = .Polling)
      (hchan : K.chan = s.registry.pollChan K.id)
      (hslot : K.id ∉ s.registry.ids → ¬cfg.concurrentLimit ≤ s.activeConnections)
      (hreg : s'.registry =
        (((s.registry.reserve K.id).store K.id K.claims).pair K.id).registerPoll K.id K.tenant)
      (hmaps : s'.roomMaps = s.roomMaps) : Admits env cfg s (.poll q) K s'

/-- No admitted request makes a client wait. -/
lemma waiting_of_admits {env : Env} {cfg : Config} {s s' : AppState} {r : Request} {K : Conn}
    (h : Admits env cfg s r K s') : s'.entries.waiting ⊆ s.entries.waiting := by
  have hmaps : s'.roomMaps = s.roomMaps → s'.entries.waiting ⊆ s.entries.waiting := by
    intro hmaps
    rw [(memberships_of_roomMaps hmaps).2.1]
  cases h with
  | reconnect q K s' hK htransport hchan htoken hreg hrest =>
      rw [hrest.entries]
      split_ifs
      · exact Finset.erase_subset _ _
      · exact Finset.Subset.refl _
  | register q K s' hK htransport hchan htoken hslot hreg hm => exact hmaps hm
  | stream q K s' hK htransport hchan hslot hreg hm => exact hmaps hm
  | poll q K s' hK htransport hchan hslot hreg hm => exact hmaps hm

lemma withClaims_frame (s : AppState) (stored : Option (String × Value)) :
    (s.withClaims stored).registry = s.registry.withClaims stored ∧
      (s.withClaims stored).roomMaps = s.roomMaps := by
  cases stored with
  | none => exact ⟨rfl, rfl⟩
  | some pair => exact ⟨rfl, rfl⟩

lemma deliverQueuedMessages_frame (env : Env) (s : AppState) (id : String) (c : ℕ) :
    (deliverQueuedMessages env s id c).registry = s.registry ∧
      (deliverQueuedMessages env s id c).roomMaps = s.roomMaps := by
  rw [deliverQueuedMessages]
  split_ifs
  · exact ⟨rfl, rfl⟩
  · exact ⟨rfl, rfl⟩

/-- The registry of a client that was inserted with its tenant. -/
lemma registry_insertClient (s : AppState) (now : ℕ) (id token : String) (transport : TransportKind)
    (tenant : Option String) :
    ((s.insertClient now id token transport).insertTenant id tenant).registry =
      { s.registry with
        ids := insert id s.registry.ids
        tenants := FinMap.insertOpt s.registry.tenants id tenant } := by
  simp only [AppState.registry, insertClient, insertTenant, FinMap.keys_insert]

/-- `run_client` opens a channel and makes it the id's. -/
lemma runClient_eq (env : Env) (s : AppState) (id token : String) (auth : Auth)
    (lastSeq : Option ℕ) (restored : List String) :
    ∃ s', runClient env s id token auth lastSeq restored =
        .admitted
          { id := id, token := token, transport := .WebSocket, tenant := auth.tenantId,
            claims := auth.claims, chan := s.nextChan } s' ∧
      s'.registry =
        { s.registry with
          senders := s.registry.senders.insert id s.nextChan
          nextChan := s.nextChan + 1 } ∧
      s'.roomMaps = s.roomMaps := by
  refine ⟨_, rfl, ?_, ?_⟩
  · rw [registry_send, (deliverQueuedMessages_frame env _ id s.nextChan).1]
    rfl
  · exact (deliverQueuedMessages_frame env _ id s.nextChan).2

/-- Restoring reads and writes the three membership maps only. -/
lemma restores_restoreSession {s t : AppState} (id : String) (h : t.roomMaps = s.roomMaps) :
    Restores id s (restoreSession t id) := by
  obtain ⟨hl, he, hn⟩ := memberships_of_roomMaps h
  have hpending : HasPending t id ↔ HasPending s id := by
    rw [← mem_waiting_iff, he, mem_waiting_iff]
  refine ⟨?_, ?_, fun hs => noEmptyRoom_restoreSession (hn hs) id⟩
  · split_ifs with hp
    · rw [ledger_restoreSession (hpending.mpr hp), hl]
    · rw [restoreSession_of_not_hasPending (fun hc => hp (hpending.mp hc)), hl]
  · split_ifs with hp
    · rw [entries_restoreSession (hpending.mpr hp), he]
    · rw [restoreSession_of_not_hasPending (fun hc => hp (hpending.mp hc)), he]

/-- Registering a client in the state `t` and running it enrols it. -/
lemma enroll_runClient {env : Env} {t u : AppState} {id token : String} {auth : Auth}
    {lastSeq : Option ℕ} {restored : List String} {K : Conn} {s' : AppState}
    (hu : u.registry =
      ((t.insertClient env.now id token .WebSocket).insertTenant id auth.tenantId).registry)
    (h : runClient env u id token auth lastSeq restored = .admitted K s') :
    K = { id := id, token := token, transport := .WebSocket, tenant := auth.tenantId,
          claims := auth.claims, chan := t.nextChan } ∧
      s'.registry = t.registry.enroll id auth.tenantId ∧ s'.roomMaps = u.roomMaps := by
  obtain ⟨s'', heq, hreg, hmaps⟩ := runClient_eq env u id token auth lastSeq restored
  rw [heq, Outcome.admitted.injEq] at h
  obtain ⟨rfl, rfl⟩ := h
  rw [registry_insertClient] at hu
  have hchan : u.nextChan = t.nextChan := congrArg Registry.nextChan hu
  rw [hchan] at hreg ⊢
  refine ⟨rfl, ?_, hmaps⟩
  rw [hreg, hu]
  rfl

/-- The two admitting branches of `handle_socket`. -/
lemma admitSocket_admitted {env : Env} {cfg : Config} {s s' : AppState} {id token : String}
    {auth : Auth} {lastSeq : Option ℕ} {K : Conn}
    (h : admitSocket env cfg s id token auth lastSeq = .admitted K s') :
    K = { id := id, token := token, transport := .WebSocket, tenant := auth.tenantId,
          claims := auth.claims, chan := s.nextChan } ∧
      ((existingToken env s id = some token ∧
          s'.registry = s.registry.enroll id auth.tenantId ∧ Restores id s s') ∨
        (existingToken env s id = none ∧ ¬cfg.concurrentLimit ≤ s.activeConnections ∧
          s'.registry = ({ s.registry with active := s.registry.active + 1 } : Registry).enroll id
            auth.tenantId ∧
          s'.roomMaps = s.roomMaps)) := by
  rcases runClient_of_admitSocket h with
    ⟨htoken, t, restored, rfl, hrun⟩ | ⟨htoken, hfull, t, rfl, hrun⟩
  · obtain ⟨hK, hreg, hmaps⟩ := enroll_runClient (t := s) (registry_restoreSession _ id) hrun
    have hrest := restores_restoreSession id (s := s)
      (t := (s.insertClient env.now id token .WebSocket).insertTenant id auth.tenantId) rfl
    obtain ⟨hl, he, hn⟩ := memberships_of_roomMaps hmaps
    refine ⟨hK, Or.inl ⟨htoken, hreg, ?_⟩⟩
    exact ⟨hl.trans hrest.ledger, he.trans hrest.entries, fun hs => hn (hrest.noEmptyRoom hs)⟩
  · obtain ⟨hK, hreg, hmaps⟩ := enroll_runClient
      (t := AppState.redisRegisterClient
        { s with activeConnections := s.activeConnections + 1 } env id token) rfl hrun
    exact ⟨hK, Or.inr ⟨htoken, hfull, hreg, hmaps⟩⟩

lemma admits_ws {env : Env} {cfg : Config} {s s' : AppState} {q : WsQuery} {K : Conn}
    (h : handleSocket env cfg s q = .admitted K s') : Admits env cfg s (.ws q) K s' := by
  rcases handleSocket_cases env cfg s q with ⟨_, heq, -⟩ | ⟨id, token, auth, h'⟩
  · rw [heq] at h
    exact absurd h (by simp)
  obtain ⟨hid, htoken, -, -, -, hstored, heq⟩ := h'
  rw [heq] at h
  obtain ⟨rfl, hbranch⟩ := admitSocket_admitted h
  rcases hbranch with ⟨hex, hreg, hrest⟩ | ⟨hex, hslot, hreg, hmaps⟩
  · exact Admits.reconnect q _ _ ⟨rfl, hid, htoken, hstored⟩ rfl rfl hex hreg
      ⟨hrest.ledger, hrest.entries, hrest.noEmptyRoom⟩
  · exact Admits.register q _ _ ⟨rfl, hid, htoken, hstored⟩ rfl rfl hex hslot hreg hmaps

/-- An id that is claimed is registered with the token, or has a reserved
slot. -/
lemma claimId_admitted {cfg : Config} {s t : AppState} {id token : String}
    (h : claimId cfg s id token = (t, none)) :
    (id ∉ s.registry.ids → ¬cfg.concurrentLimit ≤ s.activeConnections) ∧
      t.registry = s.registry.reserve id ∧ t.roomMaps = s.roomMaps := by
  rw [Registry.reserve]
  rw [claimId] at h
  cases hc : s.clients.lookup id with
  | some existing =>
      have hid : id ∈ s.registry.ids := Finmap.mem_keys.mpr (Finmap.mem_of_lookup_eq_some hc)
      rw [hc, Prod.mk.injEq] at h
      rw [if_pos hid, ← h.1]
      exact ⟨fun hn => absurd hid hn, rfl, rfl⟩
  | none =>
      have hid : id ∉ s.registry.ids := fun hm =>
        Finmap.lookup_eq_none.mp hc (Finmap.mem_keys.mp hm)
      rw [hc, tryReserveConnectionSlot_eq] at h
      rw [if_neg hid]
      by_cases hfull : cfg.concurrentLimit ≤ s.activeConnections
      · rw [if_pos hfull] at h
        simp at h
      · rw [if_neg hfull] at h
        dsimp only at h
        rw [Prod.mk.injEq] at h
        rw [← h.1]
        exact ⟨fun _ => hfull, rfl, rfl⟩

/-- `sse_handler` registers the client and opens a channel for it. -/
lemma openStream_eq (env : Env) (s : AppState) (q : HttpQuery) (auth : Auth) :
    ∃ s', openStream env s q auth =
        .admitted
          { id := q.id, token := q.token, transport := .Sse, tenant := auth.tenantId,
            claims := auth.claims, chan := s.nextChan, watchdog := true } s' ∧
      s'.registry = s.registry.enroll q.id auth.tenantId ∧ s'.roomMaps = s.roomMaps := by
  refine ⟨_, rfl, ?_, ?_⟩
  · rw [registry_send, (deliverQueuedMessages_frame env _ q.id _).1, registry_send]
    simp only [AppState.registry, insertClient, insertTenant, FinMap.keys_insert,
      Registry.enroll, AppState.newChannel, AppState.setSender, redisRegisterClient]
  · exact (deliverQueuedMessages_frame env _ q.id s.nextChan).2

lemma admits_sse {env : Env} {cfg : Config} {s s' : AppState} {q : HttpQuery} {K : Conn}
    (h : sseHandler env cfg s q = .admitted K s') : Admits env cfg s (.sse q) K s' := by
  rcases sseHandler_cases env cfg s q with ⟨_, hout⟩ | ⟨auth, t, hstored, hclaim, hout⟩
  · rw [hout] at h
    exact absurd h (by simp)
  obtain ⟨hslot, ht, htmaps⟩ := claimId_admitted hclaim
  obtain ⟨s'', heq, hreg, hmaps⟩ := openStream_eq env t q auth
  rw [hout, heq] at h
  obtain ⟨rfl, rfl⟩ := Outcome.admitted.inj h
  have hstore : t.registry = (s.registry.reserve q.id).store q.id auth.claims := ht
  refine Admits.stream q _ _ ⟨rfl, rfl, rfl, hstored⟩ rfl ?_ hslot ?_ (hmaps.trans htmaps)
  · exact congrArg Registry.nextChan hstore
  · rw [hreg, hstore]

/-- The pair of a polling client, as the registry sees it. -/
lemma pollingPair_eq (s : AppState) (id : String) :
    (pollingPair s id).1.registry = s.registry.pair id ∧
      (pollingPair s id).2.2 = s.registry.pollChan id ∧
      (pollingPair s id).1.roomMaps = s.roomMaps := by
  have hrx : s.registry.receivers = s.pollingReceivers := rfl
  have htx : s.registry.senders = s.wsSenders := rfl
  rw [pollingPair, Registry.pair, Registry.pollChan, Registry.hasPair, hrx, htx]
  cases s.pollingReceivers.lookup id with
  | none => exact ⟨rfl, rfl, rfl⟩
  | some rx =>
      cases s.wsSenders.lookup id with
      | none => exact ⟨rfl, rfl, rfl⟩
      | some tx => exact ⟨rfl, rfl, rfl⟩

/-- The registration of a poll, whose slot is already reserved. -/
lemma registerPoll_frame (env : Env) (s : AppState) (isNewClient : Bool) (tx : ℕ) (q : HttpQuery)
    (auth : Auth) :
    (registerPoll env s isNewClient tx q auth).registry =
        (if isNewClient then
          { s.registry with
            ids := insert q.id s.registry.ids
            tenants := FinMap.insertOpt s.registry.tenants q.id auth.tenantId }
        else s.registry) ∧
      (registerPoll env s isNewClient tx q auth).roomMaps = s.roomMaps := by
  rw [registerPoll]
  cases isNewClient with
  | false => exact ⟨registry_touch s env.now q.id, rfl⟩
  | true =>
      simp only [if_true]
      rw [(deliverQueuedMessages_frame env _ q.id tx).1,
        (deliverQueuedMessages_frame env _ q.id tx).2, registry_send, registry_insertClient]
      exact ⟨rfl, rfl⟩

/-- A client whose record is missing is the one that is not registered. -/
lemma registerPoll_eq {g : Registry} {s : AppState} {id : String} {tenant : Option String}
    (hg : g.ids = s.registry.ids) :
    (if (s.clients.lookup id).isNone then
        { g with ids := insert id g.ids, tenants := FinMap.insertOpt g.tenants id tenant }
      else g) = g.registerPoll id tenant := by
  have hids : id ∈ g.ids ↔ (s.clients.lookup id).isSome = true := by
    rw [hg, Finmap.lookup_isSome]
    exact Finmap.mem_keys
  rw [Registry.registerPoll]
  cases hc : s.clients.lookup id with
  | none =>
      have hid : id ∉ g.ids := by simp [hids, hc]
      rw [if_neg hid]
      rfl
  | some client =>
      have hid : id ∈ g.ids := by simp [hids, hc]
      rw [if_pos hid, Finset.insert_eq_of_mem hid]
      rfl

lemma admits_poll {env : Env} {cfg : Config} {s s' : AppState} {q : HttpQuery} {K : Conn}
    (h : pollHandler env cfg s q = .admitted K s') : Admits env cfg s (.poll q) K s' := by
  rcases pollHandler_cases env cfg s q with ⟨_, hout⟩ | ⟨auth, t, u, hstored, hclaim, hu, hout⟩
  · rw [hout] at h
    exact absurd h (by simp)
  obtain ⟨hslot, ht, htmaps⟩ := claimId_admitted hclaim
  obtain ⟨hpair, hrx, hmaps⟩ := pollingPair_eq t q.id
  obtain ⟨hreg, hregmaps⟩ := registerPoll_frame env (pollingPair t q.id).1
    (s.clients.lookup q.id).isNone (pollingPair t q.id).2.1 q auth
  rw [← hu] at hreg hregmaps
  rw [hout] at h
  obtain ⟨rfl, rfl⟩ := Outcome.admitted.inj h
  have hstore : t.registry = (s.registry.reserve q.id).store q.id auth.claims := ht
  refine Admits.poll q _ _ ⟨rfl, rfl, rfl, hstored⟩ rfl ?_ hslot ?_ ?_
  · rw [hrx, hstore]
    rfl
  · rw [registry_send, hreg, hpair, hstore]
    exact registerPoll_eq
      (g := ((s.registry.reserve q.id).store q.id auth.claims).pair q.id) rfl
  · exact hregmaps.trans (hmaps.trans htmaps)

/-- An admitted request is admitted in one of the four ways. -/
lemma connect_admitted {env : Env} {cfg : Config} {s s' : AppState} {r : Request} {K : Conn}
    (h : connect env cfg s r = .admitted K s') : Admits env cfg s r K s' := by
  cases r with
  | ws q => exact admits_ws h
  | sse q => exact admits_sse h
  | poll q => exact admits_poll h

lemma Admits.admittedFor {env : Env} {cfg : Config} {s s' : AppState} {r : Request} {K : Conn}
    (h : Admits env cfg s r K s') : K.AdmittedFor env cfg r := by
  cases h with
  | reconnect q K s' hK htransport hchan htoken hreg hrest => exact hK
  | register q K s' hK htransport hchan htoken hslot hreg hmaps => exact hK
  | stream q K s' hK htransport hchan hslot hreg hmaps => exact hK
  | poll q K s' hK htransport hchan hslot hreg hmaps => exact hK

/-- Whichever way a request is admitted, its claims are stored. -/
lemma Admits.claims {env : Env} {cfg : Config} {s s' : AppState} {r : Request} {K : Conn}
    (h : Admits env cfg s r K s') :
    s'.clientClaims = FinMap.insertOpt s.clientClaims K.id K.claims := by
  cases h with
  | reconnect q K s' hK htransport hchan htoken hreg hrest => exact congrArg Registry.claims hreg
  | register q K s' hK htransport hchan htoken hslot hreg hmaps =>
      exact congrArg Registry.claims hreg
  | stream q K s' hK htransport hchan hslot hreg hmaps => exact congrArg Registry.claims hreg
  | poll q K s' hK htransport hchan hslot hreg hmaps => exact congrArg Registry.claims hreg

/-- Whichever way a request is admitted, its id is registered. -/
lemma Admits.mem_ids {env : Env} {cfg : Config} {s s' : AppState} {r : Request} {K : Conn}
    (h : Admits env cfg s r K s') : K.id ∈ s'.registry.ids := by
  cases h with
  | reconnect q K s' hK htransport hchan htoken hreg hrest =>
      rw [hreg]
      exact Finset.mem_insert_self _ _
  | register q K s' hK htransport hchan htoken hslot hreg hmaps =>
      rw [hreg]
      exact Finset.mem_insert_self _ _
  | stream q K s' hK htransport hchan hslot hreg hmaps =>
      rw [hreg]
      exact Finset.mem_insert_self _ _
  | poll q K s' hK htransport hchan hslot hreg hmaps =>
      rw [hreg]
      exact Finset.mem_insert_self _ _

/-- No request touches the replay buffers. -/
lemma Admits.replayBuffer {env : Env} {cfg : Config} {s s' : AppState} {r : Request} {K : Conn}
    (h : Admits env cfg s r K s') : s'.replayBuffer = s.replayBuffer := by
  cases h with
  | reconnect q K s' hK htransport hchan htoken hreg hrest => exact congrArg Registry.replay hreg
  | register q K s' hK htransport hchan htoken hslot hreg hmaps =>
      exact congrArg Registry.replay hreg
  | stream q K s' hK htransport hchan hslot hreg hmaps => exact congrArg Registry.replay hreg
  | poll q K s' hK htransport hchan hslot hreg hmaps => exact congrArg Registry.replay hreg

/-- Only a reconnect touches memberships: it may restore a session. -/
lemma Admits.ledger {env : Env} {cfg : Config} {s s' : AppState} {r : Request} {K : Conn}
    (h : Admits env cfg s r K s') :
    s'.ledger = s.ledger ∨ s'.ledger = s.ledger.restore K.id := by
  cases h with
  | reconnect q K s' hK htransport hchan htoken hreg hrest =>
      rw [hrest.ledger]
      split_ifs
      · exact Or.inr rfl
      · exact Or.inl rfl
  | register q K s' hK htransport hchan htoken hslot hreg hmaps =>
      exact Or.inl (memberships_of_roomMaps hmaps).1
  | stream q K s' hK htransport hchan hslot hreg hmaps =>
      exact Or.inl (memberships_of_roomMaps hmaps).1
  | poll q K s' hK htransport hchan hslot hreg hmaps =>
      exact Or.inl (memberships_of_roomMaps hmaps).1

/-! ### What disconnecting does -/

/-- A complete removal forgets everything the registry has for the id, except
a polling receiver. -/
lemma registry_teardown (env : Env) (cfg : Config) (s : AppState) (id : String) :
    (teardown env cfg s id).registry = (s.registry.drop id).forget id := by
  rw [teardown]
  rw [registry_redisRemoveClient, registry_removeClientFromAllRooms, ← registry_dropClient]
  rfl

/-- How the removal of `id` changes memberships and entries. -/
structure Unlists (cfg : Config) (id : String) (s t : AppState) : Prop where
  ledger : t.ledger = if cfg.sessionTtl = 0 then s.ledger.removeAll id else s.ledger.defer id
  indexed : t.entries.indexed = s.entries.indexed.erase id
  waiting : t.entries.waiting ⊆
    if cfg.sessionTtl = 0 then s.entries.waiting else insert id s.entries.waiting
  noEmptyRoom : NoEmptyRoom s → NoEmptyRoom t

lemma Unlists.waiting_subset {cfg : Config} {id : String} {s t : AppState}
    (h : Unlists cfg id s t) : t.entries.waiting ⊆ insert id s.entries.waiting := by
  have hwait := h.waiting
  split_ifs at hwait
  · exact hwait.trans (Finset.subset_insert _ _)
  · exact hwait

lemma unlists_teardown (env : Env) (cfg : Config) {s : AppState} (hs : s.ledger.Sound)
    (id : String) : Unlists cfg id s (teardown env cfg s id) := by
  rw [teardown]
  have hentries := entries_removeClientFromAllRooms env cfg
    (((s.dropClient id).eraseAuth id).removeBuckets id) id
  have hledger := ledger_removeClientFromAllRooms env cfg
    (s := ((s.dropClient id).eraseAuth id).removeBuckets id) hs id
  have hnoEmpty := fun h => noEmptyRoom_removeClientFromAllRooms env cfg
    (s := ((s.dropClient id).eraseAuth id).removeBuckets id) h id
  exact ⟨hledger, hentries.1, hentries.2, hnoEmpty⟩

end Dendri
