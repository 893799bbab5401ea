import Dendri.Server.State

/-!
The registry of a state: what the server keeps for each client id outside the
rooms. Most statements of the handlers leave it alone, and the ones that do
not are the few operations below; every property of registrations, claims,
tenants, rate limiter buckets and slots is a property of the registry.

* `Registry.drop`: the statements all removal paths share;
* `Registry.forget`: the statements only the complete ones add;
* `registry_send`, `registry_touch` and so on: what the primitive operations
  of `AppState` do to the registry;
* `sendTo_of_some`, `sendTo_of_none`: sending to an id, with a sender or
  without.
-/

namespace Dendri

/-- What is kept for each client id outside the rooms. Of the client records
only the ids are here: their timestamps change with every message. -/
@[ext] structure Registry where
  senders : DashMap ℕ
  ids : Finset String
  claims : DashMap Value
  tenants : DashMap String
  receivers : DashMap ℕ
  buckets : Finset (String × String)
  active : UInt64
  replay : ReplayBuffer Frame
  nextChan : ℕ

/-- The registry of a state. -/
def AppState.registry (s : AppState) : Registry where
  senders := s.wsSenders
  ids := s.clients.keys
  claims := s.clientClaims
  tenants := s.clientTenants
  receivers := s.pollingReceivers
  buckets := s.rateLimiter.buckets
  active := s.activeConnections
  replay := s.replayBuffer
  nextChan := s.nextChan

namespace Registry

/-- The sender and the record of `id` go, and its slot with the record. -/
def drop (g : Registry) (id : String) : Registry :=
  { g with
    senders := g.senders.erase id
    ids := g.ids.erase id
    active := if id ∈ g.ids then g.active - 1 else g.active }

/-- The claims, the tenant, the buckets and the replay buffer of `id` go. -/
def forget (g : Registry) (id : String) : Registry :=
  { g with
    claims := g.claims.erase id
    tenants := g.tenants.erase id
    buckets := g.buckets.filter fun b => b.1 ≠ id
    replay := g.replay.removeClient id }

/-- Charging a bucket creates it. -/
def charge (g : Registry) (id bucket : String) : Registry :=
  { g with buckets := insert (id, bucket) g.buckets }

end Registry

namespace AppState

variable (s : AppState)

@[simp] lemma registry_send (c : ℕ) (frames : List Frame) :
    (s.send c frames).registry = s.registry := rfl

variable {s} in
/-- A client with a stored sender is sent to on its channel. -/
lemma sendTo_of_some {id : String} {c : ℕ} (h : s.wsSenders.lookup id = some c)
    (frames : List Frame) : s.sendTo id frames = s.send c frames := by
  simp only [sendTo, h]
  rfl

variable {s} in
lemma sendTo_of_none {id : String} (h : s.wsSenders.lookup id = none) (frames : List Frame) :
    s.sendTo id frames = s := by
  simp only [sendTo, h]

@[simp] lemma registry_touch (now : ℕ) (id : String) :
    (s.touch now id).registry = s.registry := by
  simp only [AppState.registry, touch, FinMap.keys_modify]

@[simp] lemma registry_recordMessage (now : ℕ) (id : String) :
    (s.recordMessage now id).registry = s.registry := by
  simp only [AppState.registry, recordMessage, FinMap.keys_modify]

@[simp] lemma registry_dropClient (id : String) :
    (s.dropClient id).registry = s.registry.drop id := by
  simp only [AppState.registry, dropClient, Registry.drop, Finmap.keys_erase, Finmap.mem_keys,
    Finmap.lookup_isSome]

@[simp] lemma registry_redisRemoveClient (env : Env) (id : String) :
    (s.redisRemoveClient env id).registry = s.registry := rfl

end AppState

end Dendri
