import Dendri.System
import Dendri.Properties.Admission

/-!
Session restore. A disconnect moves the rooms of a client to a pending list,
and a reconnect within the grace period is meant to take them back. Only the
branch of a registered id does: the disconnect itself removes the id from
memory and from Redis, so a plain reconnect takes the other branch, and the
pending list fires while the client is connected.

* `Resumes`: a run that disconnects a WebSocket client and admits it again in
  time;
* `SessionRestored`: the client is back in its rooms, nothing is pending, and
  no later expiry takes it out of a room while the connection lives;
* `Restorable`: the reconnect finds the token, and a pending list with all the
  rooms, or there is nothing to restore;
* `OwnCleanups`: no other connection of the client is cleaned up meanwhile;
* `settled_of_step`, `session_restored_iff`: with own cleanups only, sessions
  are restored just when they are restorable.
-/

namespace Dendri

open AppState Transition

/-! ### Expiry of the sessions of others -/

lemma not_pending_of_not_hasPending {s : AppState} {c : String} (h : ¬HasPending s c)
    (room : String) : ¬s.ledger.pending c room := by
  rintro ⟨pending, hl, -⟩
  exact h (by rw [HasPending, hl]; rfl)

/-- A pass over the sessions of other clients keeps the memberships of `c`. -/
lemma member_cleanupExpiredSessions (env : Env) (cfg : Config) {s : AppState} {c room : String}
    (hs : s.ledger.Sound) (hp : ¬HasPending s c) (hm : s.ledger.member c room) :
    (cleanupExpiredSessions env cfg s).ledger.member c room := by
  refine (cleanupExpiredSessions_induction
    (P := fun t => t.ledger.Sound ∧ ¬t.ledger.pending c room ∧ t.ledger.member c room) env cfg
    ⟨hs, not_pending_of_not_hasPending hp room, hm⟩ fun t k ht => ?_).2.2
  obtain ⟨hts, htp, htm⟩ := ht
  rw [ledger_expireSession hts k]
  refine ⟨hts.expire, fun hpend => htp hpend.1, htm, ?_⟩
  rintro ⟨rfl, hpend⟩
  exact htp hpend

/-! ### While a connection lives -/

/-- The connection at position `n` is open. -/
def Lives (w : World) (n : ℕ) : Prop := ∃ K, w.conns[n]? = some K ∧ K.isOpen = true

/-- While the connection at position `n` lives, the only cleanup of `c` is its
own. -/
def OwnCleanups (c : String) (n : ℕ) (w : World) (l : Label) : Prop :=
  Lives w n → ∀ k K, cleanedUp w l.event = some (k, K) → K.id = c → k = n

/-- The connection at position `n` was admitted, and nothing is pending for `c`
as long as it lives. -/
structure Settled (c : String) (n : ℕ) (w : World) : Prop where
  sound : w.app.ledger.Sound
  admitted : n < w.conns.length
  settled : Lives w n → ¬HasPending w.app c

/-- A connection that lives after a step lived before it. -/
lemma lives_of_later {w w' : World} {n : ℕ} (h : ConnsLater w.conns w'.conns) (hl : Lives w' n) :
    Lives w n := by
  obtain ⟨K', hK', hopen⟩ := hl
  obtain ⟨K, hK, hlater⟩ := h.back n K' hK'
  exact ⟨K, hK, hlater.isOpen hopen⟩

lemma length_of_later {conns conns' : List Conn} {n : ℕ} (h : ConnsLater conns conns')
    (hn : n < conns.length) : n < conns'.length := by
  obtain ⟨K', hK', -⟩ := h.forth n conns[n] (List.getElem?_eq_getElem hn)
  exact (List.getElem?_eq_some_iff.mp hK').1

/-- A step after which no more clients wait than before. -/
lemma Settled.of_waiting {c : String} {n : ℕ} {w w' : World} (h : Settled c n w)
    (hs : w'.app.ledger.Sound) (hwait : w'.app.entries.waiting ⊆ w.app.entries.waiting)
    (hconns : ConnsLater w.conns w'.conns) : Settled c n w' := by
  refine ⟨hs, length_of_later hconns h.admitted, fun hl hp => ?_⟩
  exact h.settled (lives_of_later hconns hl)
    (mem_waiting_iff.mp (hwait (mem_waiting_iff.mpr hp)))

/-- A cleanup of the connection at position `k`: of another client, or of the
connection at position `n` itself. -/
lemma Settled.of_cleanup {cfg : Config} {c : String} {n k : ℕ} {w : World} {K : Conn}
    {s' : AppState} {f : Conn → Conn} (h : Settled c n w) (hs : s'.ledger.Sound)
    (hlater : ∀ K : Conn, K.Later (f K)) (hclose : ∀ K : Conn, (f K).isOpen = false)
    (hun : Unlists cfg K.id w.app s') (hown : Lives w n → K.id = c → k = n) :
    Settled c n ⟨s', w.conns.modify k f⟩ := by
  have hconns := ConnsLater.modify w.conns k hlater
  refine ⟨hs, length_of_later hconns h.admitted, fun hl hp => ?_⟩
  have hold : Lives w n := lives_of_later hconns hl
  obtain ⟨K', hK', hopen⟩ := hl
  have hne : n ≠ k := (open_of_modify hclose hK' hopen).1
  have hid : c ≠ K.id := fun hc => hne (hown hold hc.symm).symm
  have hwait := hun.waiting_subset (mem_waiting_iff.mpr hp)
  exact h.settled hold (mem_waiting_iff.mp (Finset.mem_of_mem_insert_of_ne hwait hid))

/-- One step with own cleanups only keeps the session settled. -/
lemma settled_of_step {cfg : Config} {c : String} {n : ℕ} {w w' : World} {l : Label}
    (hw : Settled c n w) (hown : OwnCleanups c n w l) (h : step cfg w l = some w') :
    Settled c n w' := by
  have hs := sound_of_step hw.sound h
  obtain ⟨env, ev⟩ := l
  have ht := step_trans h
  dsimp only at ht
  cases ht with
  | refused r why hout =>
      refine hw.of_waiting hs ?_ (ConnsLater.refl _)
      rw [(memberships_of_roomMaps (withClaims_frame w.app _).2).2.1]
  | admitted r K s' hout hadm =>
      have hn := hw.admitted
      refine ⟨hs, by rw [List.length_append]; omega, fun hl hp => ?_⟩
      obtain ⟨K', hK', hopen⟩ := hl
      have hold : Lives w n := ⟨K', by rwa [List.getElem?_append_left hn] at hK', hopen⟩
      exact hw.settled hold (mem_waiting_iff.mp (waiting_of_admits hadm (mem_waiting_iff.mpr hp)))
  | message ev id msg s' hin hrec =>
      refine hw.of_waiting hs ?_ (ConnsLater.refl _)
      dsimp only
      rw [(hrec.moves hw.sound).entries]
      cases (if allowed env id msg.type_ = true then joins cfg w.app id msg else none) with
      | none => exact Finset.Subset.refl _
      | some key => exact Finset.Subset.refl _
  | socketClosed k K s' hdown hreg hun =>
      exact hw.of_cleanup hs Conn.later_close (fun _ => rfl) (hun hw.sound)
        fun hl hid => hown hl k K hdown hid
  | streamCleaned ev k K s' f hev hdown hlater hclose hreg hun =>
      exact hw.of_cleanup hs hlater hclose (hun hw.sound) fun hl hid => hown hl k K hdown hid
  | evicted =>
      refine hw.of_waiting hs ?_ (ConnsLater.refl _)
      dsimp only
      rw [(memberships_of_roomMaps (registry_evictBroken env cfg w.app).2).2.1]
  | reconciled => exact hw.of_waiting hs (Finset.Subset.refl _) (ConnsLater.refl _)
  | expired =>
      exact hw.of_waiting hs (waiting_cleanupExpiredSessions env cfg w.app) (ConnsLater.refl _)
  | replayEvicted => exact hw.of_waiting hs (Finset.Subset.refl _) (ConnsLater.refl _)
  | quiet ev w' hin hdown hconnect hevict hreg hmaps hconns =>
      refine hw.of_waiting hs ?_ hconns
      rw [(memberships_of_roomMaps hmaps).2.1]

/-! ### Disconnecting and coming back -/

/-- A WebSocket client with the id `c` and the token `token` is disconnected in
`w₀`, and a WebSocket connect with the same id and token is admitted in `w₂`,
before the session TTL has elapsed, and leads to `w₃`. -/
structure Resumes (cfg : Config) (redis : Redis) (c token : String) (w₀ w₂ : World) (env : Env)
    (w₃ : World) : Prop where
  ttl : cfg.sessionTtl ≠ 0
  reached : ∃ ls, run (step cfg) (World.init cfg redis) ls = some w₀
  disconnected : ∃ env₀ k K w₁ ls, cleanedUp w₀ (.wsClose k) = some (k, K) ∧ K.id = c ∧
    K.token = token ∧ step cfg w₀ ⟨env₀, .wsClose k⟩ = some w₁ ∧
    run (step cfg) w₁ ls = some w₂ ∧ env.now < env₀.now + cfg.sessionTtl
  reconnected : ∃ q, q.id = some c ∧ q.token = some token ∧
    (connect env cfg w₂.app (.ws q)).isAdmitted = true ∧
    step cfg w₂ ⟨env, .connect (.ws q)⟩ = some w₃

/-- The client is back in the rooms it had in `w₀`, nothing is pending for it,
and in the run of `ls` no expiry takes it out of a room while the connection
admitted in `w₂` lives. -/
structure SessionRestored (cfg : Config) (c : String) (w₀ w₂ w₃ : World) (ls : List Label) :
    Prop where
  rooms : ∀ room, w₀.app.ledger.member c room →
    w₃.app.ledger.member c room ∧ w₃.app.ledger.index c room
  settled : ¬HasPending w₃.app c
  lasting : AllSteps (step cfg) (fun w l w' => l.event = .expireSessions →
    Lives w w₂.conns.length → ∀ room, w.app.ledger.member c room → w'.app.ledger.member c room)
    w₃ ls

/-- In `w₂` the token of `c` is found, and the pending list of `c` names the
rooms it had in `w₀`; or nothing is pending, and its reverse index names
them. -/
def Restorable (c : String) (w₀ w₂ : World) (env : Env) : Prop :=
  (existingToken env w₂.app c ≠ none ∧ HasPending w₂.app c ∧
      ∀ room, w₀.app.ledger.member c room → w₂.app.ledger.pending c room) ∨
    (¬HasPending w₂.app c ∧
      ∀ room, w₀.app.ledger.member c room → w₂.app.ledger.index c room)

/-- Every reachable world is sound. -/
lemma sound_of_run {cfg : Config} {w w' : World} {ls : List Label} (hw : w.app.ledger.Sound)
    (h : run (step cfg) w ls = some w') : w'.app.ledger.Sound := by
  refine run_invariant (I := fun w : World => w.app.ledger.Sound) (P := fun _ _ _ => True)
    (fun _ _ _ hs hstep _ => sound_of_step hs hstep) hw ?_ h
  exact AllSteps.of_mem w fun _ _ _ _ _ => trivial

/-- What an admitted WebSocket finds in its rooms and leaves pending. -/
lemma restored_iff_of_admits {env : Env} {cfg : Config} {s s' : AppState} {q : WsQuery} {K : Conn}
    (hs : s.ledger.Sound) (h : Admits env cfg s (.ws q) K s') (R : String → Prop) :
    ((∀ room, R room → s'.ledger.member K.id room ∧ s'.ledger.index K.id room) ∧
        ¬HasPending s' K.id) ↔
      (existingToken env s K.id ≠ none ∧ HasPending s K.id ∧
          ∀ room, R room → s.ledger.pending K.id room) ∨
        (¬HasPending s K.id ∧ ∀ room, R room → s.ledger.index K.id room) := by
  -- a state with the memberships of `s` has the rooms just when the index has them
  have hsame : s'.ledger = s.ledger → s'.entries = s.entries →
      (existingToken env s K.id = none ∨ ¬HasPending s K.id) →
      (((∀ room, R room → s'.ledger.member K.id room ∧ s'.ledger.index K.id room) ∧
          ¬HasPending s' K.id) ↔
        (existingToken env s K.id ≠ none ∧ HasPending s K.id ∧
            ∀ room, R room → s.ledger.pending K.id room) ∨
          (¬HasPending s K.id ∧ ∀ room, R room → s.ledger.index K.id room)) := by
    intro hl he hbranch
    have hp : HasPending s' K.id ↔ HasPending s K.id := by
      rw [← mem_waiting_iff, he, mem_waiting_iff]
    have hno : ¬(existingToken env s K.id ≠ none ∧ HasPending s K.id ∧
        ∀ room, R room → s.ledger.pending K.id room) := by
      rintro ⟨htoken, hpend, -⟩
      exact hbranch.elim (fun hc => htoken hc) (fun hc => hc hpend)
    rw [hl, hp, or_iff_right hno]
    constructor
    · exact fun hc => ⟨hc.2, fun room hr => (hc.1 room hr).2⟩
    · exact fun hc => ⟨fun room hr => ⟨hs _ _ (hc.2 room hr), hc.2 room hr⟩, hc.1⟩
  cases h with
  | register q K s' hK htransport hchan htoken hslot hreg hmaps =>
      obtain ⟨hl, he, -⟩ := memberships_of_roomMaps hmaps
      exact hsame hl he (Or.inl htoken)
  | reconnect q K s' hK htransport hchan htoken hreg hrest =>
      by_cases hpend : HasPending s K.id
      · have hl := hrest.ledger
        have he := hrest.entries
        rw [if_pos hpend] at hl he
        have hgone : ¬HasPending s' K.id := by
          rw [← mem_waiting_iff, he]
          exact Finset.notMem_erase _ _
        have hfound : existingToken env s K.id ≠ none := by rw [htoken]; simp
        constructor
        · rintro ⟨hrooms, -⟩
          refine Or.inl ⟨hfound, hpend, fun room hr => ?_⟩
          have hi := (hrooms room hr).2
          rw [hl] at hi
          exact hi.elim (fun hp => hp.2) fun hn => absurd rfl hn.2
        · rintro (⟨-, -, hlist⟩ | ⟨hnp, -⟩)
          · refine ⟨fun room hr => ?_, hgone⟩
            rw [hl]
            exact ⟨Or.inr ⟨rfl, hlist room hr⟩, Or.inl ⟨rfl, hlist room hr⟩⟩
          · exact absurd hpend hnp
      · have hl := hrest.ledger
        have he := hrest.entries
        rw [if_neg hpend] at hl he
        exact hsame hl he (Or.inr hpend)

/-- An admitted step adds its connection at the end. -/
lemma admits_of_step {cfg : Config} {w w' : World} {env : Env} {r : Request}
    (hadm : (connect env cfg w.app r).isAdmitted = true)
    (h : step cfg w ⟨env, .connect r⟩ = some w') :
    ∃ K, Admits env cfg w.app r K w'.app ∧ w'.conns = w.conns ++ [K] := by
  have ht := step_trans h
  dsimp only at ht
  cases ht with
  | refused r why hout =>
      rw [hout] at hadm
      exact absurd hadm (by simp [Outcome.isAdmitted])
  | admitted r K s' hout hK => exact ⟨K, hK, rfl⟩
  | message ev id msg s' hin hrec => exact absurd hin (by simp [incoming])
  | streamCleaned ev k K s' f hev hdown hlater hclose hreg hun => exact absurd hev (by simp)
  | quiet ev w' hin hdown hconnect hevict hreg hmaps hconns => exact absurd rfl (hconnect r)

/-- In every run that disconnects a client and admits it again in time, and in
which meanwhile no other connection of the client is cleaned up, the session is
restored just when it is restorable. -/
theorem session_restored_iff {cfg : Config} {redis : Redis} {c token : String} {w₀ w₂ w₃ : World}
    {env : Env} {ls : List Label} (h : Resumes cfg redis c token w₀ w₂ env w₃)
    (hown : AllSteps (step cfg) (fun w l _ => OwnCleanups c w₂.conns.length w l) w₃ ls) :
    SessionRestored cfg c w₀ w₂ w₃ ls ↔ Restorable c w₀ w₂ env := by
  obtain ⟨ls₀, h₀⟩ := h.reached
  obtain ⟨env₀, k, K₀, w₁, ls₁, -, -, -, h₁, h₂, -⟩ := h.disconnected
  obtain ⟨q, hid, htoken, hadm, h₃⟩ := h.reconnected
  have hs₀ : w₀.app.ledger.Sound := sound_of_run (sound_init cfg redis) h₀
  have hs₂ : w₂.app.ledger.Sound := sound_of_run (sound_of_step hs₀ h₁) h₂
  have hs₃ : w₃.app.ledger.Sound := sound_of_step hs₂ h₃
  obtain ⟨K, hadmits, hconns⟩ := admits_of_step hadm h₃
  obtain rfl : K.id = c := Option.some.inj (hadmits.admittedFor.id.symm.trans hid)
  have hiff := restored_iff_of_admits hs₂ hadmits (w₀.app.ledger.member K.id)
  constructor
  · exact fun hrestored => hiff.mp ⟨hrestored.rooms, hrestored.settled⟩
  · intro hrestorable
    obtain ⟨hrooms, hsettled⟩ := hiff.mpr hrestorable
    have hinit : Settled K.id w₂.conns.length w₃ := by
      refine ⟨hs₃, ?_, fun _ => hsettled⟩
      rw [hconns, List.length_append, List.length_singleton]
      omega
    refine ⟨hrooms, hsettled, ?_⟩
    refine AllSteps.of_invariant (I := Settled K.id w₂.conns.length)
      (fun w l w' hw hstep hP => ?_) hinit hown
    refine ⟨settled_of_step hw hP hstep, fun hev hlives room hm => ?_⟩
    obtain ⟨env', ev⟩ := l
    dsimp only at hev
    subst hev
    rw [← Option.some.inj hstep]
    exact member_cleanupExpiredSessions env' cfg hw.sound (hw.settled hlives) hm

/-- `alice` connects and joins a room. -/
def aliceJoins : List Label :=
  [.connect (Params.plain "alice" "tok").ws, .say 0 (roomJoin "lobby")].map quietly

/-- `alice` connects again. -/
def aliceReturns : Event := .connect (Params.plain "alice" "tok").ws

/-- What the two runs below have in common: `alice` is disconnected from her
only room, under the environment `env₀`, and connects again at once. -/
lemma resumes_alice {env₀ : Env} {w₀ w₁ w₃ : World} (htime : env₀.now = 0)
    (h₀ : run (step {}) (World.init {} Redis.empty) aliceJoins = some w₀)
    (h₁ : step {} w₀ ⟨env₀, .wsClose 0⟩ = some w₁)
    (h₃ : step {} w₁ (quietly aliceReturns) = some w₃)
    (hK : (cleanedUp w₀ (.wsClose 0)).map (fun p => (p.1, p.2.id, p.2.token)) =
      some (0, "alice", "tok"))
    (hadm : (connect (Env.quiet 0) {} w₁.app (Params.plain "alice" "tok").ws).isAdmitted = true) :
    Resumes {} Redis.empty "alice" "tok" w₀ w₁ (Env.quiet 0) w₃ := by
  obtain ⟨⟨k, K⟩, hdown, hfields⟩ := Option.map_eq_some_iff.mp hK
  rw [Prod.mk.injEq, Prod.mk.injEq] at hfields
  obtain ⟨rfl, hid, htoken⟩ := hfields
  refine ⟨by decide, ⟨_, h₀⟩, ⟨env₀, 0, K, w₁, [], hdown, hid, htoken, h₁, rfl, ?_⟩, ?_⟩
  · rw [htime]
    decide
  · exact ⟨_, rfl, rfl, hadm, h₃⟩

/-- A world in which Redis cannot be reached for removals. -/
def stuckEnv : Env := { Env.quiet 0 with redisOk := fun call _ => call ≠ .removeClient }

/-- When the disconnect could not remove `alice` from Redis, her session is
restored, and a later expiry leaves her in the room. -/
theorem session_restored_alice :
    ∃ w₀ w₂ w₃, Resumes {} Redis.empty "alice" "tok" w₀ w₂ (Env.quiet 0) w₃ ∧
      SessionRestored {} "alice" w₀ w₂ w₃ [⟨Env.quiet 60000, .expireSessions⟩] := by
  have heval : (run (step {}) (World.init {} Redis.empty) aliceJoins).bind (fun w₀ =>
      (step {} w₀ ⟨stuckEnv, .wsClose 0⟩).bind fun w₁ =>
        (step {} w₁ (quietly aliceReturns)).map fun _ =>
          decide ((cleanedUp w₀ (.wsClose 0)).map (fun p => (p.1, p.2.id, p.2.token)) =
              some (0, "alice", "tok") ∧
            (connect (Env.quiet 0) {} w₁.app (Params.plain "alice" "tok").ws).isAdmitted = true ∧
            w₀.app.rooms.keys = {"lobby"} ∧
            existingToken (Env.quiet 0) w₁.app "alice" = some "tok" ∧
            w₁.app.pendingRemovals.lookup "alice" = some ⟨["lobby"], 0⟩)) = some true := by
    decide +kernel
  obtain ⟨w₀, h₀, hrest⟩ := Option.bind_eq_some_iff.mp heval
  obtain ⟨w₁, h₁, hrest⟩ := Option.bind_eq_some_iff.mp hrest
  obtain ⟨w₃, h₃, hobs⟩ := Option.map_eq_some_iff.mp hrest
  obtain ⟨hK, hadm, hkeys, htoken, hpending⟩ := of_decide_eq_true hobs
  have hresumes := resumes_alice rfl h₀ h₁ h₃ hK hadm
  refine ⟨w₀, w₁, w₃, hresumes, (session_restored_iff hresumes ?_).mpr (Or.inl ⟨?_, ?_, ?_⟩)⟩
  · exact AllSteps.of_mem (Q := fun w l _ => OwnCleanups "alice" w₁.conns.length w l) w₃
      fun l hl w _ _ _ k K hdown => by
        rw [List.mem_singleton.mp hl] at hdown
        exact absurd hdown (by simp [cleanedUp])
  · rw [htoken]
    simp
  · rw [HasPending, hpending]
    rfl
  · rintro room ⟨members, hl, -⟩
    have hroom : room ∈ w₀.app.rooms.keys := Finmap.mem_keys.mpr (Finmap.mem_of_lookup_eq_some hl)
    rw [hkeys, Finset.mem_singleton] at hroom
    exact ⟨_, hpending, by rw [hroom]; decide⟩

/-- Sessions are not restored in every run: `alice` disconnects and connects
again, and her removal from the room is still pending. -/
theorem plain_reconnect_not_restored :
    ¬∀ (cfg : Config) (redis : Redis) (c token : String) (w₀ w₂ w₃ : World) (env : Env)
      (ls : List Label), Resumes cfg redis c token w₀ w₂ env w₃ →
      SessionRestored cfg c w₀ w₂ w₃ ls := by
  intro hall
  have heval : (run (step {}) (World.init {} Redis.empty) aliceJoins).bind (fun w₀ =>
      (step {} w₀ ⟨Env.quiet 0, .wsClose 0⟩).bind fun w₁ =>
        (step {} w₁ (quietly aliceReturns)).map fun w₃ =>
          decide ((cleanedUp w₀ (.wsClose 0)).map (fun p => (p.1, p.2.id, p.2.token)) =
              some (0, "alice", "tok") ∧
            (connect (Env.quiet 0) {} w₁.app (Params.plain "alice" "tok").ws).isAdmitted = true ∧
            w₃.app.pendingRemovals.lookup "alice" = some ⟨["lobby"], 0⟩)) = some true := by
    decide +kernel
  obtain ⟨w₀, h₀, hrest⟩ := Option.bind_eq_some_iff.mp heval
  obtain ⟨w₁, h₁, hrest⟩ := Option.bind_eq_some_iff.mp hrest
  obtain ⟨w₃, h₃, hobs⟩ := Option.map_eq_some_iff.mp hrest
  obtain ⟨hK, hadm, hpending⟩ := of_decide_eq_true hobs
  have hresumes := resumes_alice rfl h₀ h₁ h₃ hK hadm
  have hrestored := hall {} Redis.empty "alice" "tok" w₀ w₁ w₃ (Env.quiet 0) [] hresumes
  exact hrestored.settled (by rw [HasPending, hpending]; rfl)

end Dendri
