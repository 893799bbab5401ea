import Dendri.System
import Dendri.Properties.Admission

/-!
The room list of a JWT. `ROOM-JOIN` reads the claims stored for the client id,
which any connect for the id that passes the JWT check replaces, admitted or
not, and which the cleanup of any connection of the id removes.

* `Guarded`: the stored claims of a connection's id let it into no room that
  its own claims refuse;
* `AclKept`: a step that writes the claims of an id, or removes them, keeps the
  open connections of the id guarded;
* `guarded_of_step`, `room_acl_sound_of_kept`: in every run of such steps, a
  `ROOM-JOIN` on behalf of a connection joins only rooms that the claims
  verified for this connection allow.
-/

namespace Dendri

open AppState Transition

/-- The claims stored for the id of `K` let it into no validly named room that
the claims verified for `K` refuse. -/
def Guarded (s : AppState) (K : Conn) : Prop :=
  ∀ claims, K.claims = some claims → ∀ room, isValidIdentifier room = true →
    claimsRefuse s K.id room = false → roomAllowed claims room = true

lemma Guarded.congr {s s' : AppState} {K K' : Conn} (h : Guarded s K) (hid : K'.id = K.id)
    (hclaims : K'.claims = K.claims)
    (hlookup : s'.clientClaims.lookup K.id = s.clientClaims.lookup K.id) : Guarded s' K' := by
  intro claims hK room hvalid hrefuse
  refine h claims (hclaims.symm.trans hK) room hvalid ?_
  rw [claimsRefuse, hid, hlookup] at hrefuse
  exact hrefuse

/-- `claims'` allow no validly named room that the claims of `K` refuse. -/
def Conn.Tolerates (K : Conn) (claims' : Value) : Prop :=
  ∀ claims, K.claims = some claims → ∀ room, isValidIdentifier room = true →
    roomAllowed claims' room = true → roomAllowed claims room = true

/-- The claims of `K`, if any, allow every validly named room. -/
def Conn.Unrestricted (K : Conn) : Prop :=
  ∀ claims, K.claims = some claims → ∀ room, isValidIdentifier room = true →
    roomAllowed claims room = true

/-- Stored claims guard the connections that tolerate them. -/
lemma guarded_of_tolerates {s : AppState} {K : Conn} {claims' : Value}
    (hlookup : s.clientClaims.lookup K.id = some claims') (h : K.Tolerates claims') :
    Guarded s K := by
  intro claims hK room hvalid hrefuse
  rw [claimsRefuse, hlookup] at hrefuse
  exact h claims hK room hvalid (by simpa using hrefuse)

/-- A step that writes or removes the claims of an id does so only when no open
connection of the id gains a room by it. -/
structure AclKept (cfg : Config) (w : World) (l : Label) : Prop where
  /-- The claims that a connect request stores, admitted or not. -/
  stored : ∀ r id claims, l.event = .connect r → storedClaims l.env cfg r = some (id, claims) →
    ∀ (j : ℕ) (K : Conn), w.conns[j]? = some K → K.isOpen = true → K.id = id → K.Tolerates claims
  /-- The claims that a cleanup removes. -/
  removed : ∀ k K, cleanedUp w l.event = some (k, K) →
    ∀ (j : ℕ) (K' : Conn), j ≠ k → w.conns[j]? = some K' → K'.isOpen = true → K'.id = K.id →
      K'.Unrestricted

/-- Every open connection is guarded. -/
def AclGuards (w : World) : Prop :=
  ∀ (j : ℕ) (K : Conn), w.conns[j]? = some K → K.isOpen = true → Guarded w.app K

/-- A step that leaves the stored claims alone. -/
lemma AclGuards.of_claims {w w' : World} (h : AclGuards w)
    (hclaims : w'.app.clientClaims = w.app.clientClaims) (hconns : ConnsLater w.conns w'.conns) :
    AclGuards w' := by
  intro j K' hK' hopen
  obtain ⟨K, hK, hlater⟩ := hconns.back j K' hK'
  exact (h j K hK (hlater.isOpen hopen)).congr hlater.id hlater.claims (by rw [hclaims])

/-- A cleanup of the connection at position `k`. -/
lemma AclGuards.of_cleanup {w : World} {s' : AppState} {k : ℕ} {K : Conn} {f : Conn → Conn}
    (h : AclGuards w) (hclose : ∀ K : Conn, (f K).isOpen = false)
    (hclaims : s'.clientClaims = w.app.clientClaims.erase K.id)
    (hremoved : ∀ (j : ℕ) (K' : Conn), j ≠ k → w.conns[j]? = some K' → K'.isOpen = true →
      K'.id = K.id → K'.Unrestricted) :
    AclGuards ⟨s', w.conns.modify k f⟩ := by
  intro j K' hK' hopen
  obtain ⟨hjk, hK⟩ := open_of_modify hclose hK' hopen
  by_cases hid : K'.id = K.id
  · exact fun claims hc room hvalid _ => hremoved j K' hjk hK hopen hid claims hc room hvalid
  · refine (h j K' hK hopen).congr rfl rfl ?_
    rw [hclaims, FinMap.lookup_erase_ite, if_neg hid]

/-- One step that keeps the room lists keeps the connections guarded. -/
lemma guarded_of_step {cfg : Config} {w w' : World} {l : Label} (hw : AclGuards w)
    (hkept : AclKept cfg w l) (h : step cfg w l = some w') : AclGuards w' := by
  obtain ⟨env, ev⟩ := l
  have ht := step_trans h
  dsimp only at ht
  cases ht with
  | refused r why hout =>
      intro j K hK hopen
      have hold := hw j K hK hopen
      cases hstored : storedClaims env cfg r with
      | none => exact hold
      | some pair =>
          obtain ⟨id, claims⟩ := pair
          by_cases hid : K.id = id
          · refine guarded_of_tolerates ?_
              (hkept.stored r id claims rfl hstored j K hK hopen hid)
            rw [hid]
            exact Finmap.lookup_insert _
          · exact hold.congr rfl rfl (Finmap.lookup_insert_of_ne _ hid)
  | admitted r K s' hout hadm =>
      have hclaims := hadm.claims
      have hstored := hadm.admittedFor.stored
      intro j K' hK' hopen
      rcases getElem?_append_singleton hK' with hold | rfl
      · by_cases hid : K'.id = K.id
        · cases hc : K.claims with
          | none =>
              refine (hw j K' hold hopen).congr rfl rfl ?_
              rw [hclaims, hc]
              rfl
          | some claims =>
              rw [hc, Option.map_some] at hstored
              refine guarded_of_tolerates ?_
                (hkept.stored r K.id claims rfl hstored j K' hold hopen hid)
              rw [hclaims, hc, hid]
              exact Finmap.lookup_insert _
        · refine (hw j K' hold hopen).congr rfl rfl ?_
          rw [hclaims, FinMap.lookup_insertOpt, if_neg hid]
      · intro claims hc room _ hrefuse
        have hlookup : s'.clientClaims.lookup K'.id = some claims := by
          rw [hclaims, hc]
          exact Finmap.lookup_insert _
        rw [claimsRefuse, hlookup] at hrefuse
        simpa using hrefuse
  | message ev id msg s' hin hrec =>
      have hkeeps := Registry.keepsAuth_afterMessage env w.app id msg s'.replayBuffer
      rw [← hrec.registry] at hkeeps
      exact hw.of_claims hkeeps.claims (ConnsLater.refl _)
  | socketClosed k K s' hdown hreg hun =>
      exact hw.of_cleanup (fun _ => rfl) (congrArg Registry.claims hreg) (hkept.removed k K hdown)
  | streamCleaned ev k K s' f hev hdown hlater hclose hreg hun =>
      exact hw.of_cleanup hclose (congrArg Registry.claims hreg) (hkept.removed k K hdown)
  | evicted =>
      have hkeeps := Registry.keepsAuth_foldl_drop (toEvict env cfg w.app) w.app.registry
      rw [← (registry_evictBroken env cfg w.app).1] at hkeeps
      exact hw.of_claims hkeeps.claims (ConnsLater.refl _)
  | reconciled => exact hw.of_claims rfl (ConnsLater.refl _)
  | expired =>
      exact hw.of_claims (congrArg Registry.claims (registry_cleanupExpiredSessions env cfg w.app))
        (ConnsLater.refl _)
  | replayEvicted => exact hw.of_claims rfl (ConnsLater.refl _)
  | quiet ev w' hin hdown hconnect hevict hreg hmaps hconns =>
      exact hw.of_claims (congrArg Registry.claims hreg) hconns

/-- If a `ROOM-JOIN` on behalf of `K` adds its id to the room, the claims
verified for `K` allow the room. -/
def JoinsAllowed (cfg : Config) (w : World) (l : Label) (w' : World) : Prop :=
  ∀ K claims msg room, Speaks w K l.event → K.claims = some claims →
    incoming cfg w l.event = some (K.id, msg) → msg.type_ = .RoomJoin → msg.room = some room →
    ¬w.app.ledger.member K.id (roomKey w.app K.id room) →
    w'.app.ledger.member K.id (roomKey w.app K.id room) → roomAllowed claims room = true

/-- A message that adds a membership of its sender joined a room. -/
lemma joins_of_member {env : Env} {cfg : Config} {s s' : AppState} {id key : String}
    {msg : Message} (hs : s.ledger.Sound) (hrec : Receives env cfg s id msg s')
    (hbefore : ¬s.ledger.member id key) (hafter : s'.ledger.member id key) :
    ∃ key', joins cfg s id msg = some key' := by
  rw [(hrec.moves hs).ledger] at hafter
  cases hjoins : joins cfg s id msg with
  | some key' => exact ⟨key', rfl⟩
  | none =>
      rw [hjoins, ite_self] at hafter
      cases hleft : (if allowed env id msg.type_ = true then leaves s id msg else none) with
      | none =>
          rw [hleft] at hafter
          exact absurd hafter hbefore
      | some left =>
          rw [hleft] at hafter
          exact absurd hafter.1 hbefore

/-- In a guarded world a join is allowed by the connection's own claims. -/
lemma joinsAllowed_of_step {cfg : Config} {w w' : World} {l : Label} (hs : w.app.ledger.Sound)
    (hw : AclGuards w) (h : step cfg w l = some w') : JoinsAllowed cfg w l w' := by
  intro K claims msg room hspeaks hclaims hin htype hroom hbefore hafter
  obtain ⟨-, hmem, hopen⟩ := hspeaks.incoming hin
  obtain ⟨j, hK⟩ := List.mem_iff_getElem?.mp hmem
  have hrec : Receives l.env cfg w.app K.id msg w'.app := receives_of_step h hin
  obtain ⟨key', hjoins⟩ := joins_of_member hs hrec hbefore hafter
  obtain ⟨hvalid, hrefuse⟩ := checks_of_joins hroom hjoins
  exact hw j K hK hopen claims hclaims room hvalid hrefuse

/-- In every run whose steps keep the room lists, whenever a `ROOM-JOIN` on
behalf of a connection that was admitted with claims adds its id to a room,
these claims allow the room. -/
theorem room_acl_sound_of_kept {cfg : Config} {redis : Redis} {ls : List Label}
    (hkept : AllSteps (step cfg) (fun w l _ => AclKept cfg w l) (World.init cfg redis) ls) :
    AllSteps (step cfg) (JoinsAllowed cfg) (World.init cfg redis) ls := by
  have hinit : (World.init cfg redis).app.ledger.Sound ∧ AclGuards (World.init cfg redis) :=
    ⟨sound_init cfg redis, fun j K hK => absurd hK (by simp [World.init])⟩
  refine AllSteps.of_invariant (I := fun w : World => w.app.ledger.Sound ∧ AclGuards w)
    (fun w l w' hw h hP => ?_) hinit hkept
  exact ⟨⟨sound_of_step hw.1 h, guarded_of_step hw.2 hP h⟩, joinsAllowed_of_step hw.1 hw.2 h⟩

/-- `alice` connects with a JWT for a room. -/
def aliceConnects (room : String) : Label :=
  ⟨jwtEnv, .connect (Params.ws { Params.plain "alice" "tok" with jwt := some ("jwt-" ++ room) })⟩

/-- `alice` joins the room of her JWT. -/
theorem room_acl_alice_lobby :
    AllSteps (step jwtConfig) (JoinsAllowed jwtConfig) (World.init jwtConfig Redis.empty)
      [aliceConnects "lobby", quietly (.say 0 (roomJoin "lobby"))] := by
  refine room_acl_sound_of_kept fun w hw => ⟨⟨?_, ?_⟩, fun w' hw' => ⟨⟨?_, ?_⟩, trivial⟩⟩
  · exact fun r id claims _ _ j K hK => absurd hK (by simp [World.init])
  · exact fun k K h => absurd h (by simp [aliceConnects, cleanedUp])
  · exact fun r id claims h => absurd h (by simp [quietly, Event.say])
  · exact fun k K h => absurd h (by simp [quietly, Event.say, cleanedUp])

/-- The room list does not bind every run: after a refused connect for `alice`
with a JWT for another room, she joins that room over her own connection. -/
theorem refused_connect_opens_room :
    ¬∀ (cfg : Config) (redis : Redis) (ls : List Label),
      AllSteps (step cfg) (JoinsAllowed cfg) (World.init cfg redis) ls := by
  intro hall
  have hrun := hall jwtConfig Redis.empty
    ([aliceConnects "lobby", ⟨jwtEnv, .connect (hijack "vip")⟩] ++
      [quietly (.say 0 (roomJoin "vip"))])
  have heval : (run (step jwtConfig) (World.init jwtConfig Redis.empty)
      [aliceConnects "lobby", ⟨jwtEnv, .connect (hijack "vip")⟩]).bind (fun w =>
      (step jwtConfig w (quietly (.say 0 (roomJoin "vip")))).map fun w' =>
        decide ((w.openConn 0 .WebSocket).map (fun K =>
            (K.id, K.claims.map (roomAllowed · "vip"))) = some ("alice", some false) ∧
          w.app.clientTenants.lookup "alice" = none ∧ w.app.rooms.lookup "vip" = none ∧
          w'.app.rooms.lookup "vip" = some {"alice"})) = some true := by decide +kernel
  obtain ⟨w, hw, hstep⟩ := Option.bind_eq_some_iff.mp heval
  obtain ⟨w', hw', hobs⟩ := Option.map_eq_some_iff.mp hstep
  obtain ⟨hconn, htenant, hbefore, hafter⟩ := of_decide_eq_true hobs
  obtain ⟨K, hK, hfields⟩ := Option.map_eq_some_iff.mp hconn
  obtain ⟨hid, hclaims⟩ := Prod.mk.inj hfields
  obtain ⟨claims, hclaims, hrefused⟩ := Option.map_eq_some_iff.mp hclaims
  have hkey : roomKey w.app K.id "vip" = "vip" := by
    rw [roomKey, hid, htenant]
    rfl
  have hin : incoming jwtConfig w (.say 0 (roomJoin "vip")) = some (K.id, roomJoin "vip") := by
    simp [incoming, Event.say, hK]
  have hallowed := AllSteps.last hrun hw hw' K claims (roomJoin "vip") "vip" hK hclaims hin rfl rfl
  rw [hkey, hid] at hallowed
  have hjoined := hallowed (by
    rintro ⟨_, hmembers, _⟩
    rw [hbefore] at hmembers
    exact absurd hmembers (by simp)) ⟨_, hafter, by decide⟩
  rw [hrefused] at hjoined
  exact absurd hjoined (by decide)

end Dendri
