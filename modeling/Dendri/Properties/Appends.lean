import Dendri.Properties.Channels
import Dendri.Properties.Supplies
import Dendri.Properties.Upkeep

/-!
What the steps of the server do to the channels that exist already: frames are
put behind those that are there, and taken off by the receiver only.

* `Appends s s'`: every channel of `s` is as open as before, and its frames are
  followed by new ones;
* `Appends.of_wire`, `Appends.trans`: how handlers are put together from
  statements;
* `appends_upkeep`: the handlers that register and remove nobody, and one lemma
  for each of the others;
* `Carries`, `carries_of_step`: the same for the steps of the server, with what
  a receiver takes off and which channels are closed.
-/

namespace Dendri

open AppState

/-- The channels of `s` are as open in `s'` as before, and have the same frames
with perhaps more behind them. -/
structure Appends (s s' : AppState) : Prop where
  next : s.nextChan ≤ s'.nextChan
  closed : ∀ c, c < s.nextChan → (s'.chans c).closed = (s.chans c).closed
  queue : ∀ c, c < s.nextChan → (s.chans c).queue <+: (s'.chans c).queue

/-- The channels of a state. -/
def AppState.wire (s : AppState) : (ℕ → Channel) × ℕ := (s.chans, s.nextChan)

section Rules

variable {s t u : AppState}

/-- A statement that touches no channel. -/
lemma Appends.of_wire (h : t.wire = s.wire) : Appends s t := by
  obtain ⟨hchans, hnext⟩ := Prod.mk.inj h
  refine ⟨hnext.ge, fun c _ => ?_, fun c _ => ?_⟩
  · rw [hchans]
  · rw [hchans]

lemma Appends.refl (s : AppState) : Appends s s := Appends.of_wire rfl

/-- One statement after the other. -/
lemma Appends.trans (h : Appends s t) (h' : Appends t u) : Appends s u where
  next := h.next.trans h'.next
  closed c hc := (h'.closed c (hc.trans_le h.next)).trans (h.closed c hc)
  queue c hc := (h.queue c hc).trans (h'.queue c (hc.trans_le h.next))

/-- A statement before or after that touches no channel does not count. -/
lemma Appends.then_wire (h : Appends s t) (hu : u.wire = t.wire) : Appends s u :=
  h.trans (Appends.of_wire hu)

lemma Appends.after_wire (h : Appends t u) (ht : t.wire = s.wire) : Appends s u :=
  (Appends.of_wire ht).trans h

end Rules

/-! ### Statements -/

lemma appends_send (s : AppState) (c : ℕ) (frames : List Frame) :
    Appends s (s.send c frames) := by
  refine ⟨le_refl _, fun i _ => ?_, fun i _ => ?_⟩
  · simp only [AppState.send]
    split_ifs with hi
    · rw [hi.1]
    · rfl
  · simp only [AppState.send]
    split_ifs with hi
    · rw [hi.1]
      exact List.prefix_append _ _
    · exact List.prefix_refl _

lemma appends_fanOut (s : AppState) (members : Finset String) (frame : Frame) :
    Appends s (s.fanOut members frame) := by
  refine ⟨le_refl _, fun i _ => ?_, fun i _ => ?_⟩
  · simp only [AppState.fanOut]
    split_ifs <;> rfl
  · simp only [AppState.fanOut]
    split_ifs
    · exact List.prefix_append _ _
    · exact List.prefix_refl _

/-- The new channel is none of those that exist. -/
lemma appends_newChannel (s : AppState) : Appends s s.newChannel := by
  have hchan : ∀ c, c < s.nextChan → s.newChannel.chans c = s.chans c := fun c hc =>
    if_neg (Nat.ne_of_lt hc)
  refine ⟨Nat.le_succ _, fun c hc => ?_, fun c hc => ?_⟩
  · rw [hchan c hc]
  · rw [hchan c hc]

/-- The handlers that only keep books and send. -/
lemma appends_upkeep : Upkeep Appends where
  trans := Appends.trans
  of_core {s t} hcore := by
    simp only [AppState.core, Prod.mk.injEq] at hcore
    obtain ⟨-, -, -, -, -, -, hchans, hnext⟩ := hcore
    exact Appends.of_wire (by rw [AppState.wire, AppState.wire, hchans, hnext])
  send := appends_send
  fanOut := appends_fanOut

/-! ### Messages -/

lemma appends_handleTransmission (env : Env) (s : AppState) (msg : Message) :
    Appends s (handleTransmission env s msg) := by
  rw [handleTransmission]
  by_cases hdst : msg.dst.getD "" ≠ ""
  · rw [if_pos hdst]
    cases s.wsSenders.lookup (msg.dst.getD "") with
    | none =>
        dsimp only
        split_ifs
        · exact Appends.refl s
        · exact Appends.of_wire rfl
    | some c =>
        dsimp only
        split_ifs
        · exact (appends_upkeep.sendTo _ _ _).after_wire rfl
        · exact appends_send s c _
  · rw [if_neg hdst]
    split_ifs
    · exact Appends.of_wire rfl
    · exact Appends.refl s

lemma appends_handleMessage (env : Env) (cfg : Config) (s : AppState) (id : String)
    (msg : Message) : Appends s (handleMessage env cfg s id msg) := by
  have hrec : ∀ u, Appends (recorded env s id msg.type_) u → Appends s u := by
    intro u hu
    refine hu.after_wire ?_
    rw [recorded]
    split_ifs <;> rfl
  exact handleMessage_induction (P := Appends s) (fun _ => Appends.of_wire rfl)
    (fun _ => hrec _ (appends_handleTransmission env _ _))
    (fun _ => hrec _ (appends_upkeep.handleData env cfg _ id _))
    (fun _ => hrec _ (appends_upkeep.handleRoomJoin env cfg _ id _))
    (fun _ => hrec _ (appends_upkeep.handleRoomLeave _ id _))
    (fun _ => hrec _ (appends_upkeep.handlePresenceUpdate _ id _))
    fun _ _ => hrec _ (Appends.refl _)

lemma appends_receive (env : Env) (cfg : Config) (s : AppState) (id : String) (msg : Message) :
    Appends s (receive env cfg s id msg).1 := by
  have hmeter : Appends s (meter env s id msg.type_).1 := appends_upkeep.meter env s id msg.type_
  rw [receive]
  dsimp only
  split_ifs
  · exact hmeter.trans (appends_handleMessage env cfg _ id msg)
  · exact hmeter

lemma appends_wsText (env : Env) (cfg : Config) (s : AppState) (c : ℕ) (id : String) (len : ℕ)
    (parsed : Option Message) : Appends s (wsText env cfg s c id len parsed) := by
  rw [wsText.eq_def]
  split_ifs
  · exact appends_send s c _
  · split
    · exact Appends.refl s
    · rename_i msg
      have hreceive := appends_receive env cfg s id msg
      dsimp only
      split_ifs
      · exact hreceive
      · exact hreceive.trans (appends_send _ c _)

lemma appends_sendHandler (env : Env) (cfg : Config) (s : AppState) (id token : String)
    (parsed : Option Message) : Appends s (sendHandler env cfg s id token parsed).1 := by
  rw [sendHandler.eq_def]
  split
  · exact Appends.refl s
  · split_ifs
    · dsimp only
      split
      · exact Appends.of_wire rfl
      · exact (appends_receive env cfg _ id _).after_wire rfl
    · exact Appends.refl s

/-! ### Connecting -/

lemma appends_runClient {env : Env} {s s' : AppState} {id token : String} {auth : Auth}
    {lastSeq : Option ℕ} {restored : List String} {K : Conn}
    (h : runClient env s id token auth lastSeq restored = .admitted K s') : Appends s s' := by
  rw [runClient] at h
  obtain ⟨-, rfl⟩ := Outcome.admitted.inj h
  have hopen : Appends s (s.newChannel.setSender id s.nextChan) :=
    (appends_newChannel s).then_wire rfl
  exact ((hopen.trans (appends_send _ _ _)).trans
    (appends_upkeep.deliverQueuedMessages env _ id _)).trans (appends_send _ _ _)

lemma appends_admitSocket {env : Env} {cfg : Config} {s s' : AppState} {id token : String}
    {auth : Auth} {lastSeq : Option ℕ} {K : Conn}
    (h : admitSocket env cfg s id token auth lastSeq = .admitted K s') : Appends s s' := by
  rcases runClient_of_admitSocket h with ⟨-, t, restored, rfl, hrun⟩ | ⟨-, -, t, rfl, hrun⟩
  · have hclient : Appends s
        ((s.insertClient env.now id token .WebSocket).insertTenant id auth.tenantId) :=
      Appends.of_wire rfl
    exact (hclient.trans (appends_upkeep.restoreSession _ id)).trans (appends_runClient hrun)
  · exact (appends_runClient hrun).after_wire rfl

lemma appends_openStream {env : Env} {s s' : AppState} {q : HttpQuery} {auth : Auth} {K : Conn}
    (h : openStream env s q auth = .admitted K s') : Appends s s' := by
  rw [openStream] at h
  obtain ⟨-, rfl⟩ := Outcome.admitted.inj h
  have hopen : Appends s (s.redisRegisterClient env q.id q.token).newChannel :=
    (appends_newChannel (s.redisRegisterClient env q.id q.token)).after_wire rfl
  refine (((hopen.then_wire ?_).trans (appends_send _ _ _)).trans
    (appends_upkeep.deliverQueuedMessages env _ q.id _)).trans (appends_send _ _ _)
  rfl

lemma appends_registerPoll (env : Env) (s : AppState) (isNewClient : Bool) (tx : ℕ)
    (q : HttpQuery) (auth : Auth) : Appends s (registerPoll env s isNewClient tx q auth) := by
  rw [registerPoll]
  split_ifs
  · refine Appends.trans (Appends.after_wire (appends_send _ tx _) ?_)
      (appends_upkeep.deliverQueuedMessages env _ q.id tx)
    rfl
  · exact Appends.of_wire rfl

/-- A poll leaves the channels as they are, or opens one; then it sends. -/
lemma appends_pollHandler {env : Env} {cfg : Config} {s s' : AppState} {q : HttpQuery} {K : Conn}
    (h : pollHandler env cfg s q = .admitted K s') :
    Appends (if s.registry.hasPair q.id then s else s.newChannel) s' := by
  rcases pollHandler_cases env cfg s q with ⟨_, heq⟩ | ⟨auth, t, u, -, hclaim, rfl, heq⟩
  · exact absurd (heq.symm.trans h) (by simp)
  obtain ⟨-, rfl⟩ := Outcome.admitted.inj (heq.symm.trans h)
  refine Appends.after_wire ((appends_registerPoll env _ _ _ q auth).trans (appends_send _ _ _)) ?_
  obtain ⟨hstores, hsenders, hreceivers, hnext⟩ := frame_of_claimId hclaim
  have hchans : t.chans = s.chans := congrArg Prod.fst hstores
  rw [Registry.hasPair, AppState.registry]
  dsimp only
  rw [← hsenders, ← hreceivers, pollingPair.eq_def]
  split
  · rename_i rx tx hrx htx
    rw [hrx, htx]
    simp only [AppState.wire, hchans, hnext, Option.isSome_some, Bool.and_self, if_true]
  · rename_i hnone
    rw [if_neg]
    · simp only [AppState.wire, AppState.setSender, AppState.newChannel, hchans, hnext]
    · intro hboth
      obtain ⟨hrx, htx⟩ := (Bool.and_eq_true _ _).mp hboth
      obtain ⟨rx, hrx⟩ := Option.isSome_iff_exists.mp hrx
      obtain ⟨tx, htx⟩ := Option.isSome_iff_exists.mp htx
      exact hnone rx tx hrx htx

lemma appends_connect {env : Env} {cfg : Config} {s s' : AppState} {r : Request} {K : Conn}
    (h : connect env cfg s r = .admitted K s') : Appends s s' := by
  cases r with
  | ws q =>
      rcases handleSocket_cases env cfg s q with ⟨_, heq, -⟩ | ⟨id, token, auth, h'⟩
      · exact absurd (heq.symm.trans h) (by simp)
      obtain ⟨-, -, -, -, -, -, heq⟩ := h'
      exact (appends_admitSocket (heq.symm.trans h)).after_wire rfl
  | sse q =>
      rcases sseHandler_cases env cfg s q with ⟨_, heq⟩ | ⟨auth, t, -, hclaim, heq⟩
      · exact absurd (heq.symm.trans h) (by simp)
      obtain ⟨hstores, -, -, hnext⟩ := frame_of_claimId hclaim
      refine (appends_openStream (heq.symm.trans h)).after_wire ?_
      have hchans : t.chans = s.chans := congrArg Prod.fst hstores
      rw [AppState.wire, AppState.wire, hnext, hchans]
  | poll q =>
      refine Appends.trans ?_ (appends_pollHandler h)
      split_ifs
      · exact Appends.refl s
      · exact appends_newChannel s

/-! ### Disconnecting and background passes -/

lemma appends_teardown (env : Env) (cfg : Config) (s : AppState) (id : String) :
    Appends s (teardown env cfg s id) := by
  have hrooms := appends_upkeep.removeClientFromAllRooms env cfg
    (((s.dropClient id).eraseAuth id).removeBuckets id) id
  exact (hrooms.after_wire (s := s) rfl).then_wire rfl

lemma appends_cleanupClient (env : Env) (cfg : Config) (s : AppState) (id : String) :
    Appends s (cleanupClient env cfg s id) := by
  rw [cleanupClient]
  exact (appends_teardown env cfg _ id).after_wire rfl

lemma appends_evictBroken (env : Env) (cfg : Config) (s : AppState) :
    Appends s (evictBroken env cfg s) := by
  refine appends_upkeep.foldl (fun t id => ?_) _ s
  exact Appends.of_wire rfl

/-! ### Steps -/

/-- What a step does to the channels that exist: what is on a channel is taken
off or stays in front, and a channel is closed for a connection that receives
on it, but not as long as it is the stored receiver of a poll. A closed channel
is never opened again. -/
structure Carries (w : World) (ev : Event) (s' : AppState) : Prop where
  queue : ∀ c, c < w.app.nextChan →
    (w.app.chans c).queue <+: taken w ev c ++ (s'.chans c).queue
  closed : ∀ c, c < w.app.nextChan → (s'.chans c).closed = true →
    (w.app.chans c).closed = true ∨
      ∃ K ∈ w.conns, K.chan = c ∧
        (K.transport = .Polling → w.app.pollingReceivers.lookup K.id ≠ some c)
  stays : ∀ c, c < w.app.nextChan → (w.app.chans c).closed = true → (s'.chans c).closed = true

/-- A step that only sends. -/
lemma Carries.of_appends {w : World} {ev : Event} {s' : AppState} (h : Appends w.app s')
    (hev : ∀ c, taken w ev c = []) : Carries w ev s' := by
  refine ⟨fun c hc => ?_, fun c hc hclosed => ?_, fun c hc hclosed => ?_⟩
  · rw [hev c]
    exact h.queue c hc
  · exact Or.inl ((h.closed c hc).symm.trans hclosed)
  · exact (h.closed c hc).trans hclosed

/-- A step that sends and then closes the channel of a connection. -/
lemma Carries.of_close {w : World} {ev : Event} {t : AppState} {K : Conn} (h : Appends w.app t)
    (hev : ∀ c, taken w ev c = []) (hK : K ∈ w.conns)
    (hpoll : K.transport = .Polling → w.app.pollingReceivers.lookup K.id ≠ some K.chan) :
    Carries w ev (t.closeChannel K.chan) := by
  refine ⟨fun c hc => ?_, fun c hc hclosed => ?_, fun c hc hclosed => ?_⟩
  · have hqueue : ((t.closeChannel K.chan).chans c).queue = (t.chans c).queue := by
      simp only [AppState.closeChannel]
      split_ifs with hck
      · rw [hck]
      · rfl
    rw [hev c, hqueue]
    exact h.queue c hc
  · by_cases hck : c = K.chan
    · exact Or.inr ⟨K, hK, hck.symm, hck ▸ hpoll⟩
    · rw [AppState.closeChannel] at hclosed
      dsimp only at hclosed
      rw [if_neg hck] at hclosed
      exact Or.inl ((h.closed c hc).symm.trans hclosed)
  · rw [AppState.closeChannel]
    dsimp only
    split_ifs
    · rfl
    · exact (h.closed c hc).trans hclosed

/-- What is taken off a channel leaves it as open as it was. -/
lemma closed_deliver (s : AppState) (c n i : ℕ) :
    ((s.deliver c n).chans i).closed = (s.chans i).closed := by
  simp only [AppState.deliver]
  split_ifs with hi
  · rw [hi]
  · rfl

lemma carries_deliver (w : World) (c n : ℕ) : Carries w (.deliver c n) (w.app.deliver c n) := by
  refine ⟨fun i hlt => ?_, fun i _ hclosed => Or.inl ?_, fun i _ hclosed => ?_⟩
  · simp only [taken, AppState.deliver]
    by_cases hi : i = c
    · rw [if_pos ⟨hi, hi ▸ hlt⟩, if_pos hi, hi, List.take_append_drop]
    · rw [if_neg fun h => hi h.1, if_neg hi]
      exact List.prefix_refl _
  · rwa [closed_deliver] at hclosed
  · rwa [closed_deliver]

/-- What every step does to the channels. -/
theorem carries_of_step {cfg : Config} {w w' : World} {l : Label}
    (hstep : step cfg w l = some w') : Carries w l.event w'.app := by
  have hreacts := reacts_of_step hstep
  obtain ⟨env, ev⟩ := l
  generalize w'.app = s' at hreacts ⊢
  dsimp only at hreacts ⊢
  cases hreacts with
  | refused r =>
      refine Carries.of_appends (Appends.of_wire ?_) fun _ => rfl
      cases storedClaims env cfg r with
      | none => rfl
      | some pair => rfl
  | admitted r K s' hout => exact Carries.of_appends (appends_connect hout) fun _ => rfl
  | wsText k len parsed K hK =>
      exact Carries.of_appends (appends_wsText env cfg w.app K.chan K.id len parsed) fun _ => rfl
  | httpSend id token parsed =>
      exact Carries.of_appends (appends_sendHandler env cfg w.app id token parsed) fun _ => rfl
  | wsClose k K hK =>
      obtain ⟨hmem, -, htransport⟩ := openConn_eq_some hK
      refine Carries.of_close ?_ (fun _ => rfl) (List.mem_of_getElem? hmem) fun hpoll => by
        simp [htransport] at hpoll
      split_ifs
      · exact appends_teardown env cfg w.app K.id
      · exact Appends.refl w.app
  | receiverDrop k K hK hpoll =>
      exact Carries.of_close (Appends.refl w.app) (fun _ => rfl) (List.mem_of_getElem? hK) hpoll
  | watchdogTick k K hK =>
      exact Carries.of_appends (appends_cleanupClient env cfg w.app K.id) fun _ => rfl
  | streamEnd k K hK =>
      obtain ⟨hmem, -, htransport⟩ := openConn_eq_some (Option.filter_eq_some_iff.mp hK).1
      exact Carries.of_close (appends_cleanupClient env cfg w.app K.id) (fun _ => rfl)
        (List.mem_of_getElem? hmem) fun hpoll => by simp [htransport] at hpoll
  | nothing ev k hev =>
      refine Carries.of_appends (Appends.refl w.app) fun _ => ?_
      rcases hev with rfl | rfl
      · rfl
      · rfl
  | deliver c n => exact carries_deliver w c n
  | evictBroken => exact Carries.of_appends (appends_evictBroken env cfg w.app) fun _ => rfl
  | expireSessions =>
      exact Carries.of_appends (appends_upkeep.cleanupExpiredSessions env cfg w.app) fun _ => rfl
  | expireMessages =>
      exact Carries.of_appends (appends_upkeep.messagesExpire env cfg w.app) fun _ => rfl
  | reconcile | evictReplay | redisChange =>
      exact Carries.of_appends (Appends.of_wire rfl) fun _ => rfl

end Dendri
