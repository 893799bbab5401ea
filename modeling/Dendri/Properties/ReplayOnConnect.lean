import Dendri.Properties.Polling

/-!
What a connect puts on the channel of the client, on the three transports. The
streams and the polls replay the buffered messages after the requested sequence
number; `run_client` looks at the sequence number for the gap notice only.

* `dataPut`: the `DATA` messages that a connect puts on the client's channel;
* `puts_ws`, `puts_sse`, `puts_poll`: where they come from;
* `replay_on_connect_iff`: the three transports replay the same messages just when
  there is none to replay;
* `noDataQueued_of_run`: no run puts a `DATA` message into a Redis queue;
* `ws_replays_nothing`: a client that reconnects over WebSocket misses a message
  that the other transports replay.
-/

namespace Dendri

open AppState Transition

/-! ### Frames on a channel -/

/-- The frame is a `DATA` message. -/
def Frame.isData : Frame → Bool
  | .relay msg => msg.type_ == .DATA
  | _ => false

/-- The channel before a connect; one that is not made yet is empty. -/
def AppState.chanBefore (s : AppState) (c : ℕ) : Channel := if c < s.nextChan then s.chans c else {}

/-- The frames that are on the channel `c` in `s'` and were not in `s`. -/
def framesPut (s s' : AppState) (c : ℕ) : List Frame :=
  (s'.chans c).queue.drop (s.chanBefore c).queue.length

/-- The `DATA` messages put on the channel that the sender of the client belongs
to. -/
def dataPut (s s' : AppState) (id : String) : List Frame :=
  match s'.wsSenders.lookup id with
  | some c => (framesPut s s' c).filter Frame.isData
  | none => []

/-- What the queue of the client in Redis is delivered as. -/
def queuedFrames (env : Env) (s : AppState) (id : String) : List Frame :=
  ((s.redisQueue env id).filterMap QueueEntry.parse).map .relay

lemma chans_deliverQueuedMessages (env : Env) (s : AppState) (id : String) (c : ℕ) :
    (deliverQueuedMessages env s id c).chans c = (s.chans c).push (queuedFrames env s id) := by
  rw [deliverQueuedMessages, queuedFrames]
  by_cases hempty : s.redisQueue env id = []
  · rw [if_pos hempty, hempty, List.filterMap_nil, List.map_nil, Channel.push_nil]
    rfl
  · rw [if_neg hempty]
    exact chans_send_self _ c _

lemma wsSenders_deliverQueuedMessages (env : Env) (s : AppState) (id : String) (c : ℕ) :
    (deliverQueuedMessages env s id c).wsSenders = s.wsSenders := by
  rw [deliverQueuedMessages]
  split_ifs <;> rfl

lemma queuedFrames_congr (env : Env) {s t : AppState} (h : t.redis.queue = s.redis.queue)
    (id : String) : queuedFrames env t id = queuedFrames env s id := by
  rw [queuedFrames, queuedFrames, redisQueue, redisQueue, h]

lemma isData_of_mem_gapFrames {s : AppState} {id : String} {lastSeq : Option ℕ} {f : Frame}
    (h : f ∈ gapFrames s id lastSeq) : f.isData = false := by
  rw [gapFrames.eq_def] at h
  split at h
  · split_ifs at h
    · rw [List.mem_singleton.mp h]
      rfl
    · exact absurd h List.not_mem_nil
  · exact absurd h List.not_mem_nil

lemma isData_of_mem_restoredFrames {s : AppState} {rooms : List String} {f : Frame}
    (h : f ∈ restoredFrames s rooms) : f.isData = false := by
  obtain ⟨key, -, hmap⟩ := List.mem_filterMap.mp h
  obtain ⟨members, -, rfl⟩ := Option.map_eq_some_iff.mp hmap
  rfl

/-- From `s` to `s'` frames are put on the channel `c`, and those of them that are
`DATA` messages are in `data`. -/
def Puts (data : Frame → Prop) (c : ℕ) (s s' : AppState) : Prop :=
  ∃ frames, s'.chans c = (s.chanBefore c).push frames ∧ ∀ f ∈ frames, f.isData = true → data f

namespace Puts

variable {data : Frame → Prop} {c : ℕ} {s t : AppState}

/-- Nothing is put on a channel that is left as it is. -/
lemma start (h : t.chans c = s.chanBefore c) : Puts data c s t := by
  refine ⟨[], ?_, fun f hf => absurd hf List.not_mem_nil⟩
  rw [h, Channel.push_nil]

lemma send (h : Puts data c s t) {frames : List Frame}
    (hdata : ∀ f ∈ frames, f.isData = true → data f) : Puts data c s (t.send c frames) := by
  obtain ⟨before, hchan, hbefore⟩ := h
  refine ⟨before ++ frames, ?_, fun f hf => ?_⟩
  · rw [chans_send_self, hchan, Channel.push_push]
  · rcases List.mem_append.mp hf with hf | hf
    · exact hbefore f hf
    · exact hdata f hf

/-- The queue of the client is delivered. -/
lemma deliver (h : Puts data c s t) {env : Env} {id : String}
    (hdata : ∀ f ∈ queuedFrames env t id, f.isData = true → data f) :
    Puts data c s (deliverQueuedMessages env t id c) := by
  obtain ⟨frames, hchan, hframes⟩ := h.send hdata
  exact ⟨frames, (chans_deliverQueuedMessages env t id c).trans
    ((chans_send_self t c _).symm.trans hchan), hframes⟩

lemma congr {t' : AppState} (h : Puts data c s t) (hchans : t'.chans = t.chans) :
    Puts data c s t' := by
  rw [Puts, hchans]
  exact h

lemma mem_dataPut {id : String} (h : Puts data c s t) (hsender : t.wsSenders.lookup id = some c)
    {f : Frame} (hf : f ∈ dataPut s t id) : data f := by
  obtain ⟨frames, hchan, hdata⟩ := h
  rw [dataPut, hsender] at hf
  obtain ⟨hput, hisData⟩ := List.mem_filter.mp hf
  refine hdata f ?_ hisData
  rw [framesPut, hchan, Channel.push] at hput
  split_ifs at hput
  · rwa [List.drop_left] at hput
  · rw [List.drop_length] at hput
    exact absurd hput List.not_mem_nil

end Puts

lemma chanBefore_nextChan (s : AppState) : s.chanBefore s.nextChan = {} := if_neg (lt_irrefl _)

lemma newChannel_chans_self (s : AppState) : s.newChannel.chans s.nextChan = {} := if_pos rfl

/-! ### The three transports -/

section Connect

variable {env : Env} {cfg : Config} {s s' t : AppState} {K : Conn} {data : Frame → Prop}

/-- `run_client` puts no `DATA` message on the channel but those that are queued. -/
lemma puts_runClient {id token : String} {auth : Auth} {lastSeq : Option ℕ}
    {restored : List String}
    (h : runClient env t id token auth lastSeq restored = .admitted K s')
    (hqueue : t.redis.queue = s.redis.queue) (hnext : t.nextChan = s.nextChan)
    (hqueued : ∀ f ∈ queuedFrames env s id, f.isData = true → data f) :
    s'.wsSenders.lookup id = some s.nextChan ∧ Puts data s.nextChan s s' := by
  rw [runClient] at h
  obtain ⟨-, rfl⟩ := Outcome.admitted.inj h
  rw [← hnext]
  constructor
  · dsimp only [AppState.send]
    rw [wsSenders_deliverQueuedMessages]
    exact Finmap.lookup_insert _
  · have hstart : Puts data t.nextChan s (t.newChannel.setSender id t.nextChan) := by
      refine Puts.start ?_
      rw [hnext, chanBefore_nextChan, ← hnext]
      exact newChannel_chans_self t
    refine ((hstart.send fun f hf hdata => ?_).deliver fun f hf hdata => ?_).send
      fun f hf hdata => ?_
    · rcases List.mem_cons.mp hf with rfl | hf
      · exact absurd hdata (by decide)
      · rw [isData_of_mem_gapFrames hf] at hdata
        cases hdata
    · rw [queuedFrames_congr env (s := s)] at hf
      · exact hqueued f hf hdata
      · exact hqueue
    · rw [isData_of_mem_restoredFrames hf] at hdata
      cases hdata

lemma puts_admitSocket {id token : String} {auth : Auth} {lastSeq : Option ℕ}
    (h : admitSocket env cfg s id token auth lastSeq = .admitted K s')
    (hqueued : ∀ f ∈ queuedFrames env s id, f.isData = true → data f) :
    s'.wsSenders.lookup id = some s.nextChan ∧ Puts data s.nextChan s s' := by
  rcases runClient_of_admitSocket h with ⟨-, t, restored, rfl, hrun⟩ | ⟨-, -, t, rfl, hrun⟩
  · obtain ⟨hstores, hnext⟩ := stores_restoreSession
      ((s.insertClient env.now id token .WebSocket).insertTenant id auth.tenantId) id
    exact puts_runClient hrun (congrArg (fun stores => stores.2.1) hstores) hnext hqueued
  · have hstores := stores_redisRegisterClient env
      { s with activeConnections := s.activeConnections + 1 } id token
    exact puts_runClient hrun (congrArg (fun stores => stores.2.1) hstores) rfl hqueued

lemma puts_ws {p : Params} (hqueued : ∀ f ∈ queuedFrames env s p.id, f.isData = true → data f)
    (h : connect env cfg s p.ws = .admitted K s') :
    ∃ c, s'.wsSenders.lookup p.id = some c ∧ Puts data c s s' := by
  rcases handleSocket_cases env cfg s _ with ⟨_, heq, -⟩ | ⟨id, token, auth, h'⟩
  · exact absurd (heq.symm.trans h) (by simp)
  obtain ⟨hid, -, -, -, -, -, heq⟩ := h'
  have hid' : p.id = id := Option.some.inj hid
  subst hid'
  have hputs := puts_admitSocket (heq.symm.trans h) hqueued
  exact ⟨s.nextChan, hputs⟩

lemma replayFrames_congr (env : Env) (h : t.replayBuffer = s.replayBuffer) (id : String)
    (lastSeq : Option ℕ) : replayFrames env t id lastSeq = replayFrames env s id lastSeq := by
  rw [replayFrames.eq_def, replayFrames.eq_def, h]

/-- The gap notice and the replay at the end of a connect over HTTP. -/
lemma Puts.replay {c : ℕ} (h : Puts data c s t) {id : String} {lastSeq : Option ℕ}
    (hbuffer : t.replayBuffer = s.replayBuffer)
    (hreplayed : ∀ f ∈ replayFrames env s id lastSeq, f.isData = true → data f) :
    Puts data c s (t.send c (gapFrames t id lastSeq ++ replayFrames env t id lastSeq)) := by
  refine h.send fun f hf hdata => ?_
  rcases List.mem_append.mp hf with hf | hf
  · rw [isData_of_mem_gapFrames hf] at hdata
    cases hdata
  · rw [replayFrames_congr env hbuffer] at hf
    exact hreplayed f hf hdata

lemma puts_sse {p : Params} (hqueued : ∀ f ∈ queuedFrames env s p.id, f.isData = true → data f)
    (hreplayed : ∀ f ∈ replayFrames env s p.id p.lastSeq, f.isData = true → data f)
    (h : connect env cfg s (.sse p.query) = .admitted K s') :
    ∃ c, s'.wsSenders.lookup p.id = some c ∧ Puts data c s s' := by
  refine ⟨s.nextChan, ?_⟩
  rcases sseHandler_cases env cfg s p.query with ⟨_, heq⟩ | ⟨auth, t, -, hclaim, heq⟩
  · exact absurd (heq.symm.trans h) (by simp)
  obtain ⟨hstores, -, -, hnext⟩ := frame_of_claimId hclaim
  have hopen := heq.symm.trans h
  rw [openStream] at hopen
  obtain ⟨-, rfl⟩ := Outcome.admitted.inj hopen
  have hregister := (stores_redisRegisterClient env t p.query.id p.query.token).trans hstores
  rw [← hnext]
  constructor
  · dsimp only [AppState.send]
    rw [wsSenders_deliverQueuedMessages]
    exact Finmap.lookup_insert _
  · have hstart : Puts data t.nextChan s ((((t.redisRegisterClient env p.id p.token).newChannel
        |>.insertClient env.now p.id p.token .Sse).setSender p.id t.nextChan).insertTenant p.id
          auth.tenantId) := by
      refine Puts.start ?_
      rw [hnext, chanBefore_nextChan, ← hnext]
      exact newChannel_chans_self _
    refine ((hstart.send fun f hf hdata => ?_).deliver fun f hf hdata => ?_).replay ?_ hreplayed
    · rw [List.mem_singleton.mp hf] at hdata
      exact absurd hdata (by decide)
    · rw [queuedFrames_congr env (s := s)] at hf
      · exact hqueued f hf hdata
      · exact congrArg (fun stores => stores.2.1) hregister
    · rw [replayBuffer_deliverQueuedMessages]
      exact congrArg (fun stores => stores.2.2.1) hregister

lemma lookup_pollingPair (s : AppState) (id : String) :
    (pollingPair s id).1.wsSenders.lookup id = some (pollingPair s id).2.1 := by
  rw [pollingPair.eq_def]
  split
  · assumption
  · exact Finmap.lookup_insert _

lemma puts_registerPoll (isNewClient : Bool) {tx : ℕ} {q : HttpQuery} (auth : Auth)
    (h : Puts data tx s t) (hqueue : t.redis.queue = s.redis.queue)
    (hqueued : ∀ f ∈ queuedFrames env s q.id, f.isData = true → data f) :
    Puts data tx s (registerPoll env t isNewClient tx q auth) ∧
      (registerPoll env t isNewClient tx q auth).wsSenders = t.wsSenders := by
  rw [registerPoll]
  split_ifs
  · constructor
    · have hregister := stores_redisRegisterClient env t q.id q.token
      refine Puts.deliver (Puts.send (h.congr ?_) fun f hf hdata => ?_) fun f hf hdata => ?_
      · exact congrArg Prod.fst hregister
      · rw [List.mem_singleton.mp hf] at hdata
        exact absurd hdata (by decide)
      · rw [queuedFrames_congr env (s := s)] at hf
        · exact hqueued f hf hdata
        · exact (congrArg (fun stores => stores.2.1) hregister).trans hqueue
    · exact wsSenders_deliverQueuedMessages env _ q.id tx
  · exact ⟨h.congr rfl, rfl⟩

lemma puts_poll {p : Params} (hmade : ∀ c, s.wsSenders.lookup p.id = some c → c < s.nextChan)
    (hqueued : ∀ f ∈ queuedFrames env s p.id, f.isData = true → data f)
    (hreplayed : ∀ f ∈ replayFrames env s p.id p.lastSeq, f.isData = true → data f)
    (h : connect env cfg s (.poll p.query) = .admitted K s') :
    ∃ c, s'.wsSenders.lookup p.id = some c ∧ Puts data c s s' := by
  rcases pollHandler_cases env cfg s p.query with ⟨_, heq⟩ | ⟨auth, t, u, -, hclaim, rfl, heq⟩
  · exact absurd (heq.symm.trans h) (by simp)
  obtain ⟨hstores, hsenders, -, hnext⟩ := frame_of_claimId hclaim
  have hsender := lookup_pollingPair t p.query.id
  have hpair := pollingPair_cases t p.query.id
  have hout := heq.symm.trans h
  generalize pollingPair t p.query.id = pair at hout hpair hsender
  obtain ⟨v, tx, rx⟩ := pair
  obtain ⟨-, rfl⟩ := Outcome.admitted.inj hout
  have hrest : v.stores.2 = s.stores.2 := by
    rcases hpair with ⟨-, -, hv⟩ | ⟨-, -, hv⟩
    · exact congrArg Prod.snd (hv.trans hstores)
    · exact (congrArg Prod.snd hv).trans (congrArg (fun stores => stores.2) hstores)
  have hstart : Puts data tx s v := by
    refine Puts.start ?_
    rcases hpair with ⟨-, htx, hv⟩ | ⟨-, htx, hv⟩
    · rw [hsenders] at htx
      rw [AppState.chanBefore, if_pos (hmade tx htx)]
      exact congrFun (congrArg Prod.fst (hv.trans hstores)) tx
    · dsimp only at htx
      rw [htx, hnext, chanBefore_nextChan, ← hnext]
      exact (congrFun (congrArg Prod.fst hv) _).trans (newChannel_chans_self t)
  obtain ⟨hbuffer, -, -⟩ := registerPoll_cases env v (s.clients.lookup p.query.id).isNone tx p.query
    auth
  have hqueued' : ∀ f ∈ queuedFrames env s p.query.id, f.isData = true → data f := hqueued
  obtain ⟨hputs, hsame⟩ := puts_registerPoll (s.clients.lookup p.query.id).isNone auth hstart
    (congrArg Prod.fst hrest) hqueued'
  refine ⟨tx, ?_, hputs.replay ?_ hreplayed⟩
  · exact (congrArg (Finmap.lookup p.id) hsame).trans hsender
  · exact hbuffer.trans (congrArg (fun stores => stores.2.1) hrest)

end Connect

/-! ### The replay -/

/-- Each transport that admits the connect puts on the channel of the client the
`DATA` messages of the replay, and no others. -/
def ReplaysOnConnect (env : Env) (cfg : Config) (s : AppState) (p : Params) : Prop :=
  ∀ r ∈ [p.ws, .sse p.query, .poll p.query], ∀ K s', connect env cfg s r = .admitted K s' →
    ∀ f, f ∈ dataPut s s' p.id ↔ f ∈ replayFrames env s p.id p.lastSeq ∧ f.isData = true

/-- A `DATA` message is buffered for the client that is newer than the requested
one and has not expired. -/
def HasReplay (env : Env) (s : AppState) (p : Params) : Prop :=
  ∃ requested m, p.lastSeq = some requested ∧ s.replayBuffer.Holds p.id m ∧ requested < m.seq ∧
    env.now - m.createdAt < s.replayBuffer.ttlMs ∧ m.data.isData = true

lemma isData_of_mem_queuedFrames {env : Env} {s : AppState} {id : String}
    (hqueue : NoDataQueued id s.redis) {f : Frame} (h : f ∈ queuedFrames env s id) :
    f.isData = false := by
  obtain ⟨msg, hmsg, rfl⟩ := List.mem_map.mp h
  obtain ⟨entry, hentry, hparse⟩ := List.mem_filterMap.mp hmsg
  cases entry with
  | malformed text => cases hparse
  | message queued =>
    obtain rfl := Option.some.inj hparse
    obtain ⟨entries, hentries, hmem⟩ := queued_of_mem_redisQueue hentry
    have hne := hqueue entries queued hentries hmem
    simpa [Frame.isData] using hne

lemma hasReplay_iff (env : Env) (s : AppState) (p : Params) :
    HasReplay env s p ↔ ∃ f ∈ replayFrames env s p.id p.lastSeq, f.isData = true := by
  constructor
  · rintro ⟨requested, m, hseq, ⟨msgs, hlookup, hm⟩, hnewer, hlive, hdata⟩
    refine ⟨m.data, ?_, hdata⟩
    rw [hseq, replayFrames, ReplayBuffer.replaySince, hlookup]
    refine List.mem_map_of_mem (List.mem_filter.mpr ⟨hm, ?_⟩)
    rw [decide_eq_true hnewer, decide_eq_true hlive]
    rfl
  · rintro ⟨f, hf, hdata⟩
    cases hseq : p.lastSeq with
    | none =>
      rw [hseq] at hf
      exact absurd hf List.not_mem_nil
    | some requested =>
      rw [hseq, replayFrames, ReplayBuffer.replaySince] at hf
      cases hlookup : s.replayBuffer.buffers.lookup p.id with
      | none =>
        rw [hlookup] at hf
        exact absurd hf List.not_mem_nil
      | some msgs =>
        rw [hlookup] at hf
        obtain ⟨m, hm, rfl⟩ := List.mem_map.mp hf
        obtain ⟨hm, hkept⟩ := List.mem_filter.mp hm
        obtain ⟨hnewer, hlive⟩ := Bool.and_eq_true_iff.mp hkept
        exact ⟨requested, m, hseq, ⟨msgs, hlookup, hm⟩, of_decide_eq_true hnewer,
          of_decide_eq_true hlive, hdata⟩

/-- The three transports replay the same messages, those of the buffer, just when
there is nothing to replay: a WebSocket is never replayed anything. -/
theorem replay_on_connect_iff (env : Env) (cfg : Config) (s : AppState) (p : Params)
    (hws : (connect env cfg s p.ws).isAdmitted = true)
    (hmade : ∀ c, s.wsSenders.lookup p.id = some c → c < s.nextChan)
    (hqueue : NoDataQueued p.id s.redis) :
    ReplaysOnConnect env cfg s p ↔ ¬HasReplay env s p := by
  have hqueued : ∀ data : Frame → Prop, ∀ f ∈ queuedFrames env s p.id,
      f.isData = true → data f := by
    intro data f hf hdata
    rw [isData_of_mem_queuedFrames hqueue hf] at hdata
    cases hdata
  rw [hasReplay_iff]
  constructor
  · rintro hreplays ⟨f, hf, hdata⟩
    cases hout : connect env cfg s p.ws with
    | rejected why s' =>
      rw [hout] at hws
      cases hws
    | admitted K s' =>
      -- nothing is put on the new channel that the replay could be
      obtain ⟨c, hsender, hputs⟩ := puts_ws (hqueued fun _ => False) hout
      have hput := (hreplays p.ws List.mem_cons_self K s' hout f).mpr ⟨hf, hdata⟩
      exact hputs.mem_dataPut hsender hput
  · intro hnone r hr K s' hout f
    have hreplayed : ∀ f ∈ replayFrames env s p.id p.lastSeq, f.isData = true → False :=
      fun f hf hdata => hnone ⟨f, hf, hdata⟩
    have hputs : ∃ c, s'.wsSenders.lookup p.id = some c ∧ Puts (fun _ => False) c s s' := by
      simp only [List.mem_cons, List.not_mem_nil, or_false] at hr
      rcases hr with rfl | rfl | rfl
      · exact puts_ws (hqueued _) hout
      · exact puts_sse (hqueued _) hreplayed hout
      · exact puts_poll hmade (hqueued _) hreplayed hout
    obtain ⟨c, hsender, hputs⟩ := hputs
    exact iff_of_false (fun hf => hputs.mem_dataPut hsender hf) fun hf => hreplayed f hf.1 hf.2

/-- Messages between peers are no `DATA` messages, so no run of the server queues
one. -/
lemma noDataQueued_of_run {cfg : Config} {redis : Redis} {ls : List Label} {w : World}
    (hstart : ∀ id, NoDataQueued id redis)
    (hredis : ∀ l ∈ ls, ∀ redis, l.event = .redisChange redis → ∀ id, NoDataQueued id redis)
    (hrun : run (step cfg) (World.init cfg redis) ls = some w) (id : String) :
    NoDataQueued id w.app.redis := by
  have hholds : QueuesHold (fun _ msg => msg.type_ ≠ .DATA) w.app := by
    refine queuesHold_of_run (fun id dst msg htype _ => ?_) ?_ (AllSteps.of_mem _ ?_) hrun
    · intro hdata
      dsimp only at hdata
      rw [hdata] at htype
      cases htype
    · rintro id msg ⟨entries, hentries, hmem⟩
      exact hstart id entries msg hentries hmem
    · intro l hl _ _ _ redis id entries msg hev hentries hmem
      exact hredis l hl redis hev id entries msg hentries hmem
  intro entries msg hentries hmem
  exact hholds id msg ⟨entries, hentries, hmem⟩

/-- The `DATA` messages that an admitted connect puts on the client's channel. -/
def replayed (cfg : Config) (s : AppState) (id : String) (r : Request) : Option (List Frame) :=
  match connect (Env.quiet 0) cfg s r with
  | .admitted _ s' => some (dataPut s s' id)
  | .rejected _ _ => none

/-- `bob` reconnects, and has seen no message yet. -/
def bobAgain : Params := { Params.plain "bob" "tok" with lastSeq := some 0 }

/-- `alice` and `bob` connect, and `alice` sends the messages to `bob`. -/
def aliceSends (msgs : List Message) : List Label :=
  (Event.connect (Params.plain "alice" "tok").ws :: Event.connect (Params.plain "bob" "tok").ws ::
    msgs.map (Event.say 0)).map quietly

/-- `bob` reconnects, and has seen the first message. -/
def bobUpToDate : Params := { Params.plain "bob" "tok" with lastSeq := some 1 }

/-- `bob` has seen the message in his buffer, and the transports agree. -/
theorem replay_on_connect_bob :
    ∃ w, run (step relayConfig) (World.init relayConfig Redis.empty) (aliceSends [dataTo "bob"]) =
        some w ∧
      w.app.replayBuffer.buffers.lookup "bob" ≠ none ∧
      ReplaysOnConnect (Env.quiet 0) relayConfig w.app bobUpToDate := by
  have heval : (run (step relayConfig) (World.init relayConfig Redis.empty)
      (aliceSends [dataTo "bob"])).map
      (fun w => ((connect (Env.quiet 0) relayConfig w.app bobUpToDate.ws).isAdmitted,
        w.app.wsSenders.lookup "bob", w.app.nextChan, (w.app.redis.queue.lookup "bob").isNone,
        (w.app.replayBuffer.buffers.lookup "bob").isNone,
        (replayFrames (Env.quiet 0) w.app bobUpToDate.id bobUpToDate.lastSeq).isEmpty)) =
      some (true, some 1, 2, true, false, true) := by decide +kernel
  obtain ⟨w, hw, hfacts⟩ := Option.map_eq_some_iff.mp heval
  obtain ⟨hws, hfacts⟩ := Prod.mk.inj hfacts
  obtain ⟨hsender, hfacts⟩ := Prod.mk.inj hfacts
  obtain ⟨hnext, hfacts⟩ := Prod.mk.inj hfacts
  obtain ⟨hqueue, hfacts⟩ := Prod.mk.inj hfacts
  obtain ⟨hbuffer, hreplay⟩ := Prod.mk.inj hfacts
  refine ⟨w, hw, fun hnone => ?_, (replay_on_connect_iff _ _ _ _ hws ?_ ?_).mpr ?_⟩
  · rw [hnone] at hbuffer
    cases hbuffer
  · intro c hc
    rw [← Option.some.inj (hsender.symm.trans hc), hnext]
    decide
  · intro entries msg hentries
    cases (Option.isNone_iff_eq_none.mp hqueue).symm.trans hentries
  · rw [hasReplay_iff, List.isEmpty_iff.mp hreplay]
    rintro ⟨f, hf, -⟩
    exact absurd hf List.not_mem_nil

/-- What a message of `alice` to `bob` is relayed as. -/
def dataForBob : Frame :=
  .relay { type_ := .DATA, src := some "alice", dst := some "bob", seq := some 1,
           timestamp := some 0 }

/-- A message that `alice` sends to `bob` is replayed to an event stream and to a
poll, and not to a WebSocket. -/
theorem ws_replays_nothing :
    ∃ w, run (step relayConfig) (World.init relayConfig Redis.empty) (aliceSends [dataTo "bob"]) =
        some w ∧
      replayed relayConfig w.app "bob" bobAgain.ws = some [] ∧
      replayed relayConfig w.app "bob" (.sse bobAgain.query) = some [dataForBob] ∧
      replayed relayConfig w.app "bob" (.poll bobAgain.query) = some [dataForBob] ∧
      ¬ReplaysOnConnect (Env.quiet 0) relayConfig w.app bobAgain := by
  have heval : (run (step relayConfig) (World.init relayConfig Redis.empty)
      (aliceSends [dataTo "bob"])).map (fun w => (replayed relayConfig w.app "bob" bobAgain.ws,
        replayed relayConfig w.app "bob" (.sse bobAgain.query),
        replayed relayConfig w.app "bob" (.poll bobAgain.query),
        replayFrames (Env.quiet 0) w.app bobAgain.id bobAgain.lastSeq)) =
      some (some [], some [dataForBob], some [dataForBob], [dataForBob]) := by decide +kernel
  obtain ⟨w, hw, hfacts⟩ := Option.map_eq_some_iff.mp heval
  obtain ⟨hws, hfacts⟩ := Prod.mk.inj hfacts
  obtain ⟨hsse, hfacts⟩ := Prod.mk.inj hfacts
  obtain ⟨hpoll, hbuffered⟩ := Prod.mk.inj hfacts
  refine ⟨w, hw, hws, hsse, hpoll, fun hreplays => ?_⟩
  rw [replayed.eq_def] at hws
  split at hws
  · rename_i K s' hout
    have hdata := (hreplays bobAgain.ws List.mem_cons_self K s' hout dataForBob).mpr
      ⟨by rw [hbuffered]; exact List.mem_cons_self, rfl⟩
    have hnone : dataPut w.app s' bobAgain.id = [] := Option.some.inj hws
    rw [hnone] at hdata
    exact absurd hdata List.not_mem_nil
  · cases hws

end Dendri
