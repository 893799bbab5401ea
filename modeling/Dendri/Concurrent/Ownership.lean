import Dendri.Handlers.Connect
import Dendri.Lib.Interleave

/-!
Two WebSocket connects for one id at the same time. `handle_socket` looks the
id up in memory, then in Redis, reserves a slot, registers the id in Redis and
inserts it into `clients`; it is suspended at the Redis round trips, and the
lookups and the writes are not one step.

* `SocketPhase`, `socketStep`: `handle_socket` after authentication, one step
  for each access to memory or Redis;
* `admitSocket_eq_alone`: without interruption these steps are `admitSocket`;
* `Exclusive`: at most one of two connects is admitted, and the other gets
  `ID-TAKEN`;
* `Saw`, `id_exclusive_iff`: this is so just when one of them makes a lookup
  after the other's write to the same place, or no slot was free.
-/

namespace Dendri

open AppState Transition

/-! ### The steps of a connect -/

/-- How far a connect has come. -/
inductive SocketPhase where
  | start
  /-- The id is not in `clients`. -/
  | notInMemory
  /-- Nor is it in Redis. -/
  | unknown
  | reserved
  | registered
  /-- The id is registered with the same token. -/
  | known
  | admitted
  | refused (why : Refusal)
  deriving DecidableEq

/-- The comparison with the token an id is registered with. -/
def compareToken (token storedToken : String) : SocketPhase :=
  if token ≠ storedToken then .refused .idTaken else .known

/-- One access of `handle_socket` to the shared state; `none` when the connect
is refused or has reached `run_client`. -/
def socketStep (env : Env) (cfg : Config) (id token : String) (tenantId : Option String)
    (s : AppState) : SocketPhase → Option (AppState × SocketPhase)
  | .start =>
      match s.clients.lookup id with
      | some client => some (s, compareToken token client.token)
      | none => some (s, .notInMemory)
  | .notInMemory =>
      match s.redisClientToken env id with
      | some storedToken => some (s, compareToken token storedToken)
      | none => some (s, .unknown)
  | .unknown =>
      match s.tryReserveConnectionSlot cfg.concurrentLimit with
      | (s, false) => some (s, .refused (.error .ConnectionLimitExceed))
      | (s, true) => some (s, .reserved)
  | .reserved =>
      if !env.redisOk .registerClient id then
        some (s.releaseConnectionSlot, .refused (.error .InvalidWsParameters))
      else some (s.redisRegisterClient env id token, .registered)
  | .registered =>
      some ((s.insertClient env.now id token .WebSocket).insertTenant id tenantId, .admitted)
  | .known =>
      some (restoreSession ((s.insertClient env.now id token .WebSocket).insertTenant id tenantId)
        id, .admitted)
  | .admitted => none
  | .refused _ => none

/-- A connect that is not interrupted, for at most `n` steps. -/
def socketAlone (env : Env) (cfg : Config) (id token : String) (tenantId : Option String) :
    ℕ → AppState × SocketPhase → AppState × SocketPhase
  | 0, w => w
  | n + 1, w =>
      match socketStep env cfg id token tenantId w.1 w.2 with
      | some w' => socketAlone env cfg id token tenantId n w'
      | none => w

/-- The steps of a connect that is not interrupted end as `admitSocket` does:
with its refusal, or with the state it hands to `run_client`. -/
theorem admitSocket_eq_alone (env : Env) (cfg : Config) (s : AppState) (id token : String)
    (auth : Auth) (lastSeq : Option ℕ) :
    match socketAlone env cfg id token auth.tenantId 5 (s, .start) with
    | (t, .refused why) => admitSocket env cfg s id token auth lastSeq = .rejected why t
    | (t, .admitted) => ∃ rooms,
        admitSocket env cfg s id token auth lastSeq = runClient env t id token auth lastSeq rooms
    | _ => False := by
  have hstored : ∀ n storedToken, existingToken env s id = some storedToken →
      match socketAlone env cfg id token auth.tenantId (n + 2)
        (s, compareToken token storedToken) with
      | (t, .refused why) => admitSocket env cfg s id token auth lastSeq = .rejected why t
      | (t, .admitted) => ∃ rooms,
          admitSocket env cfg s id token auth lastSeq = runClient env t id token auth lastSeq rooms
      | _ => False := by
    intro n storedToken htoken
    rw [admitSocket, htoken, compareToken]
    dsimp only
    split_ifs with hne
    · rfl
    · cases n <;> exact ⟨_, rfl⟩
  cases hc : s.clients.lookup id with
  | some client =>
      have hstart : socketAlone env cfg id token auth.tenantId 5 (s, .start) =
          socketAlone env cfg id token auth.tenantId 4 (s, compareToken token client.token) := by
        simp only [socketAlone, socketStep, hc]
      rw [hstart]
      exact hstored 2 client.token (by rw [existingToken, hc])
  | none =>
      have hexisting : existingToken env s id = s.redisClientToken env id := by
        rw [existingToken, hc]
      cases hr : s.redisClientToken env id with
      | some storedToken =>
          have hstart : socketAlone env cfg id token auth.tenantId 5 (s, .start) =
              socketAlone env cfg id token auth.tenantId 3
                (s, compareToken token storedToken) := by
            simp only [socketAlone, socketStep, hc, hr]
          rw [hstart]
          exact hstored 1 storedToken (by rw [hexisting, hr])
      | none =>
          have hstart : socketAlone env cfg id token auth.tenantId 5 (s, .start) =
              socketAlone env cfg id token auth.tenantId 3 (s, .unknown) := by
            simp only [socketAlone, socketStep, hc, hr]
          rw [hstart, admitSocket, hexisting, hr]
          dsimp only
          rcases hslot : s.tryReserveConnectionSlot cfg.concurrentLimit with ⟨t, free⟩
          cases free with
          | false => simp only [socketAlone, socketStep, hslot]
          | true =>
              cases hok : env.redisOk .registerClient id with
              | false => simp [socketAlone, socketStep, hslot, hok]
              | true => simp [socketAlone, socketStep, hslot, hok]

/-! ### Two connects for one id -/

section Race

variable (cfg : Config) (id : String) (token : Bool → String) (tenantId : Bool → Option String)

/-- Two connects for the id `id`, told apart by a `Bool`. The event `(a, env)`
is the next step of connect `a`, with what the outside answers during it. -/
def connectStep : AppState × (Bool → SocketPhase) → Bool × Env →
    Option (AppState × (Bool → SocketPhase)) :=
  Interleave.step Prod.fst fun e s p => socketStep e.2 cfg id (token e.1) (tenantId e.1) s p

/-- The connect has ended: refused, or in `run_client`. -/
def SocketPhase.Ended : SocketPhase → Prop
  | .admitted | .refused _ => True
  | _ => False

/-- At most one of the two is admitted, and then the other gets `ID-TAKEN`. -/
def Exclusive (phases : Bool → SocketPhase) : Prop :=
  ∀ a, phases a = .admitted → phases (!a) = .refused .idTaken

/-- The number of steps connect `a` has made. -/
def stepsOf (a : Bool) (es : List (Bool × Env)) : ℕ := (es.map Prod.fst).count a

/-- The next step of connect `a` is its lookup in `clients` and the other has
inserted the id there, or it is its lookup in Redis and the other has
registered the id there. -/
def FindsOther (a : Bool) (es : List (Bool × Env)) : Prop :=
  (stepsOf a es = 0 ∧ 5 ≤ stepsOf (!a) es) ∨ (stepsOf a es = 1 ∧ 4 ≤ stepsOf (!a) es)

/-- Somewhere in the schedule connect `a` makes a lookup that finds the
other's write. -/
def Saw (a : Bool) (es : List (Bool × Env)) : Prop :=
  ∃ pre env post, es = pre ++ (a, env) :: post ∧ FindsOther a pre

lemma stepsOf_concat_self (a : Bool) (env : Env) (es : List (Bool × Env)) :
    stepsOf a (es ++ [(a, env)]) = stepsOf a es + 1 := by
  simp [stepsOf]

lemma stepsOf_concat_ne {a b : Bool} (hab : b ≠ a) (env : Env) (es : List (Bool × Env)) :
    stepsOf b (es ++ [(a, env)]) = stepsOf b es := by
  simp [stepsOf, hab.symm]

lemma saw_concat {a b : Bool} {env : Env} {es : List (Bool × Env)} :
    Saw b (es ++ [(a, env)]) ↔ Saw b es ∨ (b = a ∧ FindsOther b es) := by
  constructor
  · rintro ⟨pre, env', post, heq, hfinds⟩
    rcases post.eq_nil_or_concat with rfl | ⟨post', e', rfl⟩
    · obtain ⟨rfl, hlast⟩ := List.append_inj' heq rfl
      rw [List.cons.injEq, Prod.mk.injEq] at hlast
      exact .inr ⟨hlast.1.1.symm, hfinds⟩
    · rw [List.concat_eq_append, ← List.cons_append, ← List.append_assoc] at heq
      obtain ⟨rfl, -⟩ := List.append_inj' heq rfl
      exact .inl ⟨pre, env', post', rfl, hfinds⟩
  · rintro (⟨pre, env', post, rfl, hfinds⟩ | ⟨rfl, hfinds⟩)
    · exact ⟨pre, env', post ++ [(a, env)], by simp, hfinds⟩
    · exact ⟨es, env, [], rfl, hfinds⟩

/-- Where a connect that is not refused stands after `n` steps. -/
def phaseAfter : ℕ → SocketPhase
  | 0 => .start
  | 1 => .notInMemory
  | 2 => .unknown
  | 3 => .reserved
  | 4 => .registered
  | _ => .admitted

/-- Connect `a` has a connection slot. -/
def HoldsSlot (es : List (Bool × Env)) (phases : Bool → SocketPhase) (a : Bool) : Prop :=
  3 ≤ stepsOf a es ∧ phases a = phaseAfter (stepsOf a es)

/-- How connect `a` stands after the schedule `es`, which started with `slots`
connections. -/
inductive Stands (slots : UInt64) (es : List (Bool × Env)) (phases : Bool → SocketPhase)
    (a : Bool) : Prop where
  | going (hsaw : ¬Saw a es) (hphase : phases a = phaseAfter (stepsOf a es))
  | taken (hsaw : Saw a es) (hphase : phases a = .refused .idTaken) (hsteps : stepsOf a es ≤ 2)
  | full (hsaw : ¬Saw a es) (hphase : phases a = .refused (.error .ConnectionLimitExceed))
      (hsteps : stepsOf a es = 3)
      (hslots : cfg.concurrentLimit ≤ slots ∨ HoldsSlot es phases (!a))

/-- A place that a connect writes its token to with its step number `n` holds
the token of a connect that has come so far, or nothing if none has. -/
def Stored (n : ℕ) (es : List (Bool × Env)) (stored : Option String) : Prop :=
  (stored = none ∧ ∀ b, stepsOf b es < n) ∨ ∃ b, stored = some (token b) ∧ n ≤ stepsOf b es

/-- The state of a race after the schedule `es`. -/
structure Race (slots : UInt64) (es : List (Bool × Env))
    (w : AppState × (Bool → SocketPhase)) : Prop where
  stands : ∀ a, Stands cfg slots es w.2 a
  memory : Stored token 5 es ((w.1.clients.lookup id).map ClientMeta.token)
  redis : Stored token 4 es (w.1.redis.clientToken.lookup id)
  free : (∀ a, ¬HoldsSlot es w.2 a) → w.1.activeConnections = slots
  room : ∀ a, HoldsSlot es w.2 a → slots < cfg.concurrentLimit

/-- What a step of connect `a` from the state `s` can do. -/
inductive Advances (s : AppState) (es : List (Bool × Env)) (a : Bool) :
    AppState × SocketPhase → Prop where
  | found (h : FindsOther a es) (hsteps : stepsOf a es < 2) : Advances s es a (s, .refused .idTaken)
  | absent (h : ¬FindsOther a es) (hsteps : stepsOf a es < 2) :
      Advances s es a (s, phaseAfter (stepsOf a es + 1))
  | full {s' : AppState} (hsteps : stepsOf a es = 2)
      (hlimit : cfg.concurrentLimit ≤ s.activeConnections)
      (hs' : s' = { s with activeConnections := s'.activeConnections })
      (hactive : s'.activeConnections = s.activeConnections) :
      Advances s es a (s', .refused (.error .ConnectionLimitExceed))
  | reserve {s' : AppState} (hsteps : stepsOf a es = 2)
      (hlimit : s.activeConnections < cfg.concurrentLimit)
      (hs' : s' = { s with activeConnections := s'.activeConnections }) :
      Advances s es a (s', .reserved)
  | register {s' : AppState} (hsteps : stepsOf a es = 3)
      (hredis : s'.redis.clientToken = s.redis.clientToken.insert id (token a))
      (hclients : s'.clients = s.clients)
      (hactive : s'.activeConnections = s.activeConnections) : Advances s es a (s', .registered)
  | insert {s' : AppState} {client : ClientMeta} (hsteps : stepsOf a es = 4)
      (hclients : s'.clients = s.clients.insert id client) (htoken : client.token = token a)
      (hredis : s'.redis = s.redis)
      (hactive : s'.activeConnections = s.activeConnections) : Advances s es a (s', .admitted)

variable {cfg id token tenantId} {slots : UInt64} {es : List (Bool × Env)}
  {w w' : AppState × (Bool → SocketPhase)}

lemma findsOther_zero {a : Bool} (h : stepsOf a es = 0) :
    FindsOther a es ↔ 5 ≤ stepsOf (!a) es := by
  simp [FindsOther, h]

lemma findsOther_one {a : Bool} (h : stepsOf a es = 1) :
    FindsOther a es ↔ 4 ≤ stepsOf (!a) es := by
  simp [FindsOther, h]

/-- A token that another connect has stored is not the token of `a`. -/
lemma compareToken_ne (htoken : Function.Injective token) {a b : Bool} (hab : b ≠ a) :
    compareToken (token a) (token b) = .refused .idTaken := by
  rw [compareToken, if_pos fun h => hab (htoken h).symm]

lemma eq_not_of_stepsOf_lt {a b : Bool} (h : stepsOf a es < stepsOf b es) : b = !a := by
  have hne : b ≠ a := by
    rintro rfl
    omega
  revert hne
  cases a <;> cases b <;> simp

/-- The lookup in `clients`. -/
lemma Race.advances_start (h : Race cfg id token slots es w) (htoken : Function.Injective token)
    {a : Bool} {env : Env} (hn : stepsOf a es = 0) {r : AppState × SocketPhase}
    (hstep : socketStep env cfg id (token a) (tenantId a) w.1 .start = some r) :
    Advances cfg id token w.1 es a r := by
  rcases h.memory with ⟨hnone, hlt⟩ | ⟨b, hsome, hb⟩
  · rw [Option.map_eq_none_iff] at hnone
    simp only [socketStep, hnone, Option.some.injEq] at hstep
    subst hstep
    have hnot : ¬FindsOther a es := by
      rw [findsOther_zero hn]
      exact Nat.not_le.mpr (hlt _)
    have hadvance : Advances cfg id token w.1 es a (w.1, phaseAfter (stepsOf a es + 1)) :=
      .absent hnot (by omega)
    rwa [hn] at hadvance
  · have hlt : stepsOf a es < stepsOf b es := by omega
    obtain rfl := eq_not_of_stepsOf_lt hlt
    obtain ⟨client, hclient, htok⟩ := Option.map_eq_some_iff.mp hsome
    simp only [socketStep, hclient, htok, Option.some.injEq] at hstep
    rw [compareToken_ne htoken (by simp)] at hstep
    subst hstep
    exact .found ((findsOther_zero hn).mpr hb) (by omega)

/-- The lookup in Redis. -/
lemma Race.advances_notInMemory (h : Race cfg id token slots es w)
    (htoken : Function.Injective token) {a : Bool} {env : Env}
    (hget : env.redisOk .getClientToken id = true) (hn : stepsOf a es = 1)
    {r : AppState × SocketPhase}
    (hstep : socketStep env cfg id (token a) (tenantId a) w.1 .notInMemory = some r) :
    Advances cfg id token w.1 es a r := by
  rw [socketStep, redisClientToken, if_pos hget] at hstep
  rcases h.redis with ⟨hnone, hlt⟩ | ⟨b, hsome, hb⟩
  · simp only [hnone, Option.some.injEq] at hstep
    subst hstep
    have hnot : ¬FindsOther a es := by
      rw [findsOther_one hn]
      exact Nat.not_le.mpr (hlt _)
    have hadvance : Advances cfg id token w.1 es a (w.1, phaseAfter (stepsOf a es + 1)) :=
      .absent hnot (by omega)
    rwa [hn] at hadvance
  · have hlt : stepsOf a es < stepsOf b es := by omega
    obtain rfl := eq_not_of_stepsOf_lt hlt
    simp only [hsome, Option.some.injEq] at hstep
    rw [compareToken_ne htoken (by simp)] at hstep
    subst hstep
    exact .found ((findsOther_one hn).mpr hb) (by omega)

/-- The reservation of a slot. -/
lemma advances_unknown {s : AppState} {a : Bool} {env : Env} (hn : stepsOf a es = 2)
    {r : AppState × SocketPhase}
    (hstep : socketStep env cfg id (token a) (tenantId a) s .unknown = some r) :
    Advances cfg id token s es a r := by
  rw [socketStep, tryReserveConnectionSlot] at hstep
  by_cases hlimit : cfg.concurrentLimit ≤ s.activeConnections
  · simp only [if_pos hlimit, Option.some.injEq] at hstep
    subst hstep
    exact .full hn hlimit rfl (by simp)
  · simp only [if_neg hlimit, Option.some.injEq] at hstep
    subst hstep
    exact .reserve hn (by simpa using hlimit) rfl

/-- One step of a race: the connect that makes it was not refused, and it does
what its number of steps says. -/
lemma Race.advances (h : Race cfg id token slots es w) (htoken : Function.Injective token)
    {a : Bool} {env : Env} (hget : env.redisOk .getClientToken id = true)
    (hregister : env.redisOk .registerClient id = true) {r : AppState × SocketPhase}
    (hstep : socketStep env cfg id (token a) (tenantId a) w.1 (w.2 a) = some r) :
    Advances cfg id token w.1 es a r ∧ w.2 a = phaseAfter (stepsOf a es) ∧ ¬Saw a es := by
  rcases h.stands a with ⟨hsaw, hphase⟩ | ⟨-, hphase, -⟩ | ⟨-, hphase, -, -⟩
  · refine ⟨?_, hphase, hsaw⟩
    rw [hphase] at hstep
    match hn : stepsOf a es with
    | 0 =>
        rw [hn] at hstep
        exact h.advances_start htoken hn hstep
    | 1 =>
        rw [hn] at hstep
        exact h.advances_notInMemory htoken hget hn hstep
    | 2 =>
        rw [hn] at hstep
        exact advances_unknown hn hstep
    | 3 =>
        rw [hn, phaseAfter, socketStep, hregister, if_neg (by simp), Option.some.injEq] at hstep
        subst hstep
        exact .register hn (by simp [redisRegisterClient, hregister]) rfl rfl
    | 4 =>
        rw [hn, phaseAfter, socketStep, Option.some.injEq] at hstep
        subst hstep
        exact .insert hn rfl rfl rfl rfl
    | n + 5 =>
        rw [hn] at hstep
        exact absurd hstep (by simp [phaseAfter, socketStep])
  · rw [hphase] at hstep
    exact absurd hstep (by simp [socketStep])
  · rw [hphase] at hstep
    exact absurd hstep (by simp [socketStep])

lemma holdsSlot_concat {a : Bool} {env : Env} {phases : Bool → SocketPhase} {p' : SocketPhase}
    {b : Bool} :
    HoldsSlot (es ++ [(a, env)]) (Function.update phases a p') b ↔
      if b = a then 2 ≤ stepsOf a es ∧ p' = phaseAfter (stepsOf a es + 1)
      else HoldsSlot es phases b := by
  rw [HoldsSlot, HoldsSlot]
  split_ifs with hb
  · subst hb
    rw [stepsOf_concat_self, Function.update_self, Nat.succ_le_succ_iff]
  · rw [stepsOf_concat_ne hb, Function.update_of_ne hb]

/-- The other connect stands as it did. -/
lemma Stands.other {phases : Bool → SocketPhase} {a b : Bool} {env : Env} {p' : SocketPhase}
    (h : Stands cfg slots es phases b) (hb : b ≠ a)
    (hkeep : HoldsSlot es phases a →
      HoldsSlot (es ++ [(a, env)]) (Function.update phases a p') a) :
    Stands cfg slots (es ++ [(a, env)]) (Function.update phases a p') b := by
  have hsaw : Saw b (es ++ [(a, env)]) ↔ Saw b es := by simp [saw_concat, hb]
  have hsteps : stepsOf b (es ++ [(a, env)]) = stepsOf b es := stepsOf_concat_ne hb env es
  have hphase : Function.update phases a p' b = phases b := Function.update_of_ne hb _ _
  have ha : (!b) = a := by
    revert hb
    cases a <;> cases b <;> simp
  cases h with
  | going h₁ h₂ => exact .going (by rwa [hsaw]) (by rw [hphase, hsteps, h₂])
  | taken h₁ h₂ h₃ => exact .taken (by rwa [hsaw]) (by rw [hphase, h₂]) (by rwa [hsteps])
  | full h₁ h₂ h₃ h₄ =>
      refine .full (by rwa [hsaw]) (by rw [hphase, h₂]) (by rwa [hsteps]) ?_
      rw [ha] at h₄ ⊢
      exact h₄.imp_right hkeep

lemma Stored.same {n : ℕ} {stored : Option String} (h : Stored token n es stored) {a : Bool}
    (env : Env) (hn : stepsOf a es + 1 < n ∨ n ≤ stepsOf a es) :
    Stored token n (es ++ [(a, env)]) stored := by
  have hmono : ∀ b, stepsOf b es ≤ stepsOf b (es ++ [(a, env)]) := by
    intro b
    simp [stepsOf]
  rcases h with ⟨hnone, hlt⟩ | ⟨b, hsome, hb⟩
  · refine .inl ⟨hnone, fun b => ?_⟩
    by_cases hba : b = a
    · subst hba
      have hltb := hlt b
      rw [stepsOf_concat_self]
      omega
    · rw [stepsOf_concat_ne hba]
      exact hlt b
  · exact .inr ⟨b, hsome, hb.trans (hmono b)⟩

lemma Stored.write {n : ℕ} {a : Bool} (env : Env) (hn : n ≤ stepsOf a es + 1) :
    Stored token n (es ++ [(a, env)]) (some (token a)) :=
  .inr ⟨a, rfl, by rwa [stepsOf_concat_self]⟩

/-- A connect that advances keeps the slot it has. -/
lemma Advances.keeps {s : AppState} {a : Bool} {r : AppState × SocketPhase}
    (h : Advances cfg id token s es a r) (hsteps : 3 ≤ stepsOf a es) :
    r.2 = phaseAfter (stepsOf a es + 1) := by
  cases h with
  | found _ h₂ => omega
  | absent _ _ => rfl
  | full h₁ => omega
  | reserve h₁ => omega
  | register h₁ => simp [h₁, phaseAfter]
  | insert h₁ => simp [h₁, phaseAfter]

/-- The connect that advances stands as its new phase says. -/
lemma Race.stands_self (h : Race cfg id token slots es w) {a : Bool} {env : Env}
    {r : AppState × SocketPhase} (hadv : Advances cfg id token w.1 es a r) (hsaw : ¬Saw a es) :
    Stands cfg slots (es ++ [(a, env)]) (Function.update w.2 a r.2) a := by
  have hsteps : stepsOf a (es ++ [(a, env)]) = stepsOf a es + 1 := stepsOf_concat_self a env es
  have hnot : ¬FindsOther a es → ¬Saw a (es ++ [(a, env)]) := by
    intro hfinds
    rw [saw_concat]
    exact fun hor => hor.elim hsaw fun hand => hfinds hand.2
  have hlate : 2 ≤ stepsOf a es → ¬FindsOther a es := by
    intro hle
    rw [FindsOther]
    omega
  cases hadv with
  | found hfinds hlt =>
      exact .taken (saw_concat.mpr (.inr ⟨rfl, hfinds⟩)) (Function.update_self ..) (by omega)
  | absent hfinds hlt => exact .going (hnot hfinds) (by rw [Function.update_self, hsteps])
  | full hn hlimit _ _ =>
      refine .full (hnot (hlate hn.ge)) (Function.update_self ..) (by omega) ?_
      by_cases hother : HoldsSlot es w.2 (!a)
      · right
        rw [holdsSlot_concat, if_neg (by simp)]
        exact hother
      · left
        have hslots : w.1.activeConnections = slots := by
          refine h.free fun b hb => ?_
          have hba : b ≠ !a := fun heq => hother (heq ▸ hb)
          have hab : b = a := by
            revert hba
            cases a <;> cases b <;> simp
          subst hab
          have hthree := hb.1
          omega
        rwa [hslots] at hlimit
  | reserve hn _ _ =>
      exact .going (hnot (hlate (by omega))) (by simp [hsteps, hn, phaseAfter])
  | register hn _ _ _ =>
      exact .going (hnot (hlate (by omega))) (by simp [hsteps, hn, phaseAfter])
  | insert hn _ _ _ _ =>
      exact .going (hnot (hlate (by omega))) (by simp [hsteps, hn, phaseAfter])

/-- One step of either connect keeps the state of the race. -/
lemma Race.step (h : Race cfg id token slots es w) (htoken : Function.Injective token)
    {a : Bool} {env : Env} (hget : env.redisOk .getClientToken id = true)
    (hregister : env.redisOk .registerClient id = true)
    (hstep : connectStep cfg id token tenantId w (a, env) = some w') :
    Race cfg id token slots (es ++ [(a, env)]) w' := by
  obtain ⟨s', p', hact, rfl⟩ := Interleave.step_eq_some hstep
  obtain ⟨hadv, hphase, hsaw⟩ : Advances cfg id token w.1 es a (s', p') ∧
      w.2 a = phaseAfter (stepsOf a es) ∧ ¬Saw a es := h.advances htoken hget hregister hact
  have hkeep : HoldsSlot es w.2 a →
      HoldsSlot (es ++ [(a, env)]) (Function.update w.2 a p') a := by
    intro hholds
    have hthree := hholds.1
    rw [holdsSlot_concat, if_pos rfl]
    exact ⟨by omega, hadv.keeps hthree⟩
  constructor
  case stands =>
    intro b
    by_cases hb : b = a
    · subst hb
      exact h.stands_self hadv hsaw
    · exact (h.stands b).other hb hkeep
  case memory =>
    cases hadv with
    | found _ hlt => exact h.memory.same env (by omega)
    | absent _ hlt => exact h.memory.same env (by omega)
    | full hn _ hs' _ =>
        rw [hs']
        exact h.memory.same env (by omega)
    | reserve hn _ hs' =>
        rw [hs']
        exact h.memory.same env (by omega)
    | register hn _ hclients _ =>
        dsimp only
        rw [hclients]
        exact h.memory.same env (by omega)
    | @insert _ client hn hclients htok _ _ =>
        dsimp only
        rw [hclients, Finmap.lookup_insert, Option.map_some, htok]
        exact Stored.write env (by omega)
  case redis =>
    cases hadv with
    | found _ hlt => exact h.redis.same env (by omega)
    | absent _ hlt => exact h.redis.same env (by omega)
    | full hn _ hs' _ =>
        rw [hs']
        exact h.redis.same env (by omega)
    | reserve hn _ hs' =>
        rw [hs']
        exact h.redis.same env (by omega)
    | register hn hredis _ _ =>
        dsimp only
        rw [hredis, Finmap.lookup_insert]
        exact Stored.write env (by omega)
    | insert hn _ _ hredis _ =>
        dsimp only
        rw [hredis]
        exact h.redis.same env (by omega)
  case free =>
    intro hnone
    have hfree : w.1.activeConnections = slots := by
      refine h.free fun b hb => hnone b ?_
      by_cases hba : b = a
      · subst hba
        exact hkeep hb
      · rwa [holdsSlot_concat, if_neg hba]
    cases hadv with
    | found _ _ => exact hfree
    | absent _ _ => exact hfree
    | full _ _ _ hactive => exact hactive.trans hfree
    | reserve hn _ _ =>
        refine absurd (holdsSlot_concat.mpr ?_) (hnone a)
        rw [if_pos rfl, hn]
        exact ⟨le_rfl, rfl⟩
    | register _ _ _ hactive => exact hactive.trans hfree
    | insert _ _ _ _ hactive => exact hactive.trans hfree
  case room =>
    intro b hb
    rw [holdsSlot_concat] at hb
    split_ifs at hb with hba
    · cases hadv with
      | found _ hlt => omega
      | absent _ hlt => omega
      | full hn _ _ _ => exact absurd hb.2 (by simp [hn, phaseAfter])
      | reserve hn hlimit _ =>
          by_cases hheld : ∃ c, HoldsSlot es w.2 c
          · obtain ⟨c, hc⟩ := hheld
            exact h.room c hc
          · rwa [h.free fun c hc => hheld ⟨c, hc⟩] at hlimit
      | register hn _ _ _ => exact h.room a ⟨hn.ge, hphase⟩
      | insert hn _ _ _ _ => exact h.room a ⟨by omega, hphase⟩
    · exact h.room b hb

lemma phaseAfter_ne_refused (n : ℕ) (why : Refusal) : phaseAfter n ≠ .refused why := by
  match n with
  | 0 | 1 | 2 | 3 | 4 => simp [phaseAfter]
  | n + 5 => simp [phaseAfter]

lemma phaseAfter_of_ended {n : ℕ} (h : (phaseAfter n).Ended) : phaseAfter n = .admitted := by
  match n with
  | 0 | 1 | 2 | 3 | 4 => exact absurd h (by simp [phaseAfter, SocketPhase.Ended])
  | n + 5 => rfl

lemma five_le_of_admitted {n : ℕ} (h : phaseAfter n = .admitted) : 5 ≤ n := by
  match n with
  | 0 | 1 | 2 | 3 | 4 => exact absurd h (by simp [phaseAfter])
  | n + 5 => omega

/-- A connect gets `ID-TAKEN` just when it made a lookup that found the other. -/
lemma Race.idTaken_iff (h : Race cfg id token slots es w) (a : Bool) :
    w.2 a = .refused .idTaken ↔ Saw a es := by
  rcases h.stands a with ⟨hsaw, hphase⟩ | ⟨hsaw, hphase, -⟩ | ⟨hsaw, hphase, -, -⟩
  · simp [hphase, hsaw, phaseAfter_ne_refused]
  · simp [hphase, hsaw]
  · simp [hphase, hsaw]

/-- An admitted connect has a slot. -/
lemma Race.holdsSlot_of_admitted (h : Race cfg id token slots es w) {a : Bool}
    (ha : w.2 a = .admitted) : HoldsSlot es w.2 a := by
  rcases h.stands a with ⟨-, hphase⟩ | ⟨-, hphase, -⟩ | ⟨-, hphase, -, -⟩
  · have hfive := five_le_of_admitted (hphase.symm.trans ha)
    exact ⟨by omega, hphase⟩
  · exact absurd (ha.symm.trans hphase) (by simp)
  · exact absurd (ha.symm.trans hphase) (by simp)

/-- When both have ended, one was admitted, if there was a slot and neither
found the other. -/
lemma Race.exists_admitted (h : Race cfg id token slots es w) (hended : ∀ a, (w.2 a).Ended)
    (hsaw : ¬Saw true es) (hslots : slots < cfg.concurrentLimit) : ∃ a, w.2 a = .admitted := by
  have hadmitted : ∀ a n, w.2 a = phaseAfter n → w.2 a = .admitted := by
    intro a n hphase
    have hend := hended a
    rw [hphase] at hend ⊢
    exact phaseAfter_of_ended hend
  rcases h.stands true with ⟨-, hphase⟩ | ⟨htrue, -, -⟩ | ⟨-, -, -, hlimit | hholds⟩
  · exact ⟨true, hadmitted true _ hphase⟩
  · exact absurd htrue hsaw
  · exact absurd hslots (UInt64.not_lt.mpr hlimit)
  · exact ⟨false, hadmitted false _ hholds.2⟩

/-- Two connects that have not started. -/
lemma race_nil {s : AppState} (hmemory : s.clients.lookup id = none)
    (hredis : s.redis.clientToken.lookup id = none) :
    Race cfg id token s.activeConnections [] (s, fun _ => .start) where
  stands a := .going (by simp [Saw]) rfl
  memory := .inl ⟨by rw [hmemory, Option.map_none], fun b => by simp [stepsOf]⟩
  redis := .inl ⟨hredis, fun b => by simp [stepsOf]⟩
  free _ := rfl
  room a h := absurd h.1 (by simp [stepsOf])

/-- The state of a race after any schedule. -/
lemma race_of_run {s : AppState} (hmemory : s.clients.lookup id = none)
    (hredis : s.redis.clientToken.lookup id = none) (htoken : Function.Injective token)
    (hget : ∀ e ∈ es, e.2.redisOk .getClientToken id = true)
    (hregister : ∀ e ∈ es, e.2.redisOk .registerClient id = true)
    (hrun : run (connectStep cfg id token tenantId) (s, fun _ => .start) es = some w) :
    Race cfg id token s.activeConnections es w := by
  refine run_induction (I := fun es w => (∀ e ∈ es, e.2.redisOk .getClientToken id = true) →
    (∀ e ∈ es, e.2.redisOk .registerClient id = true) →
    Race cfg id token s.activeConnections es w) ?_ ?_ hrun hget hregister
  · intro _ _
    exact race_nil hmemory hredis
  · intro es t e u ih hstep hget' hregister'
    have hrace := ih (fun e' he' => hget' e' (by simp [he']))
      fun e' he' => hregister' e' (by simp [he'])
    exact hrace.step htoken (hget' e (by simp)) (hregister' e (by simp)) hstep

/-- Two connects with different tokens for an id that is not known yet, run in
any order to their ends with Redis answering: at most one is admitted and the
other gets `ID-TAKEN` just when one of them makes a lookup after the other's
write to the place it looks in, or there was no slot for either. -/
theorem id_exclusive_iff {s : AppState} (hmemory : s.clients.lookup id = none)
    (hredis : s.redis.clientToken.lookup id = none) (htoken : token true ≠ token false)
    (hget : ∀ e ∈ es, e.2.redisOk .getClientToken id = true)
    (hregister : ∀ e ∈ es, e.2.redisOk .registerClient id = true)
    (hrun : run (connectStep cfg id token tenantId) (s, fun _ => .start) es = some w)
    (hended : ∀ a, (w.2 a).Ended) :
    Exclusive w.2 ↔ Saw true es ∨ Saw false es ∨ cfg.concurrentLimit ≤ s.activeConnections := by
  have hinj : Function.Injective token := by
    intro a b
    cases a <;> cases b <;> simp [htoken, htoken.symm]
  have hrace := race_of_run hmemory hredis hinj hget hregister hrun
  constructor
  · intro hexcl
    by_contra hnone
    push Not at hnone
    obtain ⟨htrue, hfalse, hslots⟩ := hnone
    obtain ⟨a, ha⟩ := hrace.exists_admitted hended htrue (UInt64.not_le.mp hslots)
    have hother : Saw (!a) es := (hrace.idTaken_iff _).mp (hexcl a ha)
    cases a with
    | true => exact hfalse hother
    | false => exact htrue hother
  · intro hcond a ha
    have hself : ¬Saw a es := by
      rw [← hrace.idTaken_iff, ha]
      simp
    have hslot := hrace.room a (hrace.holdsSlot_of_admitted ha)
    rw [hrace.idTaken_iff]
    rcases hcond with htrue | hfalse | hlimit
    · cases a with
      | true => exact absurd htrue hself
      | false => exact htrue
    · cases a with
      | true => exact hfalse
      | false => exact absurd hfalse hself
    · exact absurd hslot (UInt64.not_lt.mpr hlimit)

end Race

/-- A schedule of two connects for `alice` with the tokens `yes` and `no`, on a
quiet server: how they end. -/
def aliceTwice (schedule : List Bool) : Option (AppState × (Bool → SocketPhase)) :=
  run (connectStep {} "alice" (fun a => if a then "yes" else "no") fun _ => none)
    (AppState.new {} ⟨∅, ∅, ∅, ∅⟩, fun _ => .start) (schedule.map fun a => (a, Env.quiet 0))

/-- The second connect starts when the first has registered in Redis. -/
theorem id_exclusive_alice : ∃ w, aliceTwice [true, true, true, true, false, false, true] = some w ∧
    Exclusive w.2 := by
  have hends : (aliceTwice [true, true, true, true, false, false, true]).map
      (fun w => (w.2 true, w.2 false)) = some (.admitted, .refused .idTaken) := by decide +kernel
  obtain ⟨w, hw, hphases⟩ := Option.map_eq_some_iff.mp hends
  rw [Prod.mk.injEq] at hphases
  refine ⟨w, hw, ?_⟩
  have hended : ∀ a, (w.2 a).Ended := by
    intro a
    cases a with
    | true => rw [hphases.1]; trivial
    | false => rw [hphases.2]; trivial
  refine (id_exclusive_iff rfl rfl (by decide) ?_ ?_ hw hended).mpr (.inr (.inl ?_))
  · simp [Env.quiet]
  · simp [Env.quiet]
  · exact ⟨[true, true, true, true, false].map fun a => (a, Env.quiet 0), Env.quiet 0,
      [(true, Env.quiet 0)], rfl, .inr (by decide)⟩

/-- An id can be given to two connects with different tokens: both look it up
before either has registered it. -/
theorem two_owners_of_one_id :
    ¬∀ (cfg : Config) (id : String) (token : Bool → String) (tenantId : Bool → Option String)
        (s : AppState) (es : List (Bool × Env)) (w : AppState × (Bool → SocketPhase)),
      s.clients.lookup id = none → s.redis.clientToken.lookup id = none →
      token true ≠ token false → (∀ e ∈ es, ∀ call, e.2.redisOk call id = true) →
      run (connectStep cfg id token tenantId) (s, fun _ => .start) es = some w →
      Exclusive w.2 := by
  intro hall
  have hends : (aliceTwice [true, true, false, false, true, true, true, false, false, false]).map
      (fun w => (w.2 true, w.2 false)) = some (.admitted, .admitted) := by decide +kernel
  obtain ⟨w, hw, hphases⟩ := Option.map_eq_some_iff.mp hends
  rw [Prod.mk.injEq] at hphases
  have htaken := hall _ _ _ _ _ _ w rfl rfl (by decide) (by simp [Env.quiet]) hw true hphases.1
  rw [Bool.not_true, hphases.2] at htaken
  exact absurd htaken (by simp)

end Dendri
