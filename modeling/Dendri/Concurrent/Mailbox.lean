import Dendri.Services
import Dendri.Lib.Interleave

/-!
The message queue of one destination, used by many calls at the same time:
`handle_transmission` pushes to it when the destination has no sender,
`deliver_queued_messages` and `messages_expire` read it and clear it later,
in a second round trip.

* `Mailbox`: the Redis keys of the destination's queue, the senders, and what
  was put on channels, with every message told apart by the call that sent it;
* `callStep`: one Redis command, pipeline or channel send of a call;
* `Mailbox.Shows`, `shows_transmit`, `shows_deliver`, `shows_expire`: without
  interruption a call does what `handleTransmission`, `deliverQueuedMessages`
  and `expireQueue` do.
-/

namespace Dendri

open AppState Transition

/-! ### The calls and what they share -/

/-- What a call puts on a channel: the message of the call `j`, or an `EXPIRE`. -/
inductive Post (ι : Type) where
  | relay (j : ι)
  | expire (src dst : String)
  deriving DecidableEq

/-- The senders, the list `peer:queue:{dst}`, the time `peer:queue_meta:{dst}`,
whether `peer:queues` has the destination, and the frames put on channels so
far. A message is given by the call that sent it. -/
structure Mailbox (ι : Type) where
  wsSenders : DashMap ℕ
  queue : List ι
  queueMeta : Option ℤ
  listed : Bool
  posts : List (ℕ × Post ι)

namespace Mailbox

variable {ι : Type}

/-- `sender.send(..)`. -/
def post (m : Mailbox ι) (c : ℕ) (p : Post ι) : Mailbox ι :=
  { m with posts := m.posts ++ [(c, p)] }

/-- The pipeline of `add_message_to_queue`. -/
def addMessageToQueue (m : Mailbox ι) (now : ℤ) (j : ι) : Mailbox ι :=
  { m with queue := m.queue ++ [j], queueMeta := some now, listed := true }

/-- The `SET` of `read_all_messages`. -/
def touchQueue (m : Mailbox ι) (now : ℤ) : Mailbox ι := { m with queueMeta := some now }

/-- The pipeline of `clear_message_queue`. -/
def clearMessageQueue (m : Mailbox ι) : Mailbox ι :=
  { m with queue := [], queueMeta := none, listed := false }

end Mailbox

/-- The calls that work on one destination: a message to it, the delivery to
a new channel of it, the round of an expiry pass for it, and the connects and
disconnects around them. -/
inductive Call where
  | transmit (msg : Message)
  | deliver (c : ℕ)
  | expire
  | register (id : String) (c : ℕ)
  | unregister (id : String)

/-- How far a call has come. -/
inductive CallPhase (ι : Type) where
  | start
  /-- The destination has no sender: the message will be pushed. -/
  | offline
  | pushed
  /-- The expiry pass has listed the destination, at this time. -/
  | listed (now : ℤ)
  /-- The last read of the queue is long enough ago. -/
  | stale
  /-- The last-read time is set, the queue is not read yet. -/
  | touched
  /-- The delivery has sent a part of what it read. -/
  | relaying (sent rest : List ι)
  /-- The expiry pass has gone through a part of what it read; `told` has the
  senders it sent an `EXPIRE` to, with the channel. -/
  | expiring (done rest : List ι) (seen : List String) (told : List (String × ℕ))
  | expired (done : List ι) (told : List (String × ℕ))
  | ended
  deriving DecidableEq

section Steps

variable {ι : Type} (cfg : Config) (dstId : String) (call : ι → Call)

/-- The message a call sends, if it sends one. -/
def Call.message? : Call → Option Message
  | .transmit msg => some msg
  | _ => none

/-- The source of the message of a call. -/
def srcOf (j : ι) : String := ((call j).message?.bind Message.src).getD ""

/-- The destination of the message of a call. -/
def dstOf (j : ι) : String := ((call j).message?.bind Message.dst).getD ""

/-- The next step of the call `j`, at the time `now`: one Redis command or
pipeline, or one send. -/
def callStep (now : ℤ) (j : ι) (m : Mailbox ι) (p : CallPhase ι) :
    Option (Mailbox ι × CallPhase ι) :=
  match call j, p with
  -- `handle_transmission`
  | .transmit msg, .start =>
      match m.wsSenders.lookup dstId with
      | some c => some (m.post c (.relay j), .ended)
      | none =>
          if msg.type_ = .LEAVE ∨ msg.type_ = .EXPIRE then some (m, .ended)
          else some (m, .offline)
  | .transmit _, .offline => some (m.addMessageToQueue now j, .pushed)
  -- `deliver_queued_messages`
  | .deliver _, .start => some (m.touchQueue now, .touched)
  | .deliver _, .touched =>
      if m.queue = [] then some (m, .ended) else some (m, .relaying [] m.queue)
  | .deliver c, .relaying sent (i :: rest) =>
      some (m.post c (.relay i), .relaying (sent ++ [i]) rest)
  | .deliver _, .relaying _ [] => some (m.clearMessageQueue, .ended)
  -- `messages_expire`
  | .expire, .start => if m.listed then some (m, .listed now) else some (m, .ended)
  | .expire, .listed passNow =>
      if passNow - m.queueMeta.getD 0 < asI64 cfg.expireTimeout then some (m, .ended)
      else some (m, .stale)
  | .expire, .stale => some (m.touchQueue now, .touched)
  | .expire, .touched => some (m, .expiring [] m.queue [] [])
  | .expire, .expiring done (i :: rest) seen told =>
      let src := srcOf call i
      let dst := dstOf call i
      let seenKey := src ++ "_" ++ dst
      if seenKey ∈ seen then some (m, .expiring (done ++ [i]) rest seen told)
      else
        match m.wsSenders.lookup src with
        | some c =>
            some (m.post c (.expire dst src),
              .expiring (done ++ [i]) rest (seenKey :: seen) ((src, c) :: told))
        | none => some (m, .expiring (done ++ [i]) rest (seenKey :: seen) told)
  | .expire, .expiring done [] _ told => some (m.clearMessageQueue, .expired done told)
  -- `ws_senders.insert` and `ws_senders.remove`
  | .register id c, .start => some ({ m with wsSenders := m.wsSenders.insert id c }, .ended)
  | .unregister id, .start => some ({ m with wsSenders := m.wsSenders.erase id }, .ended)
  | _, _ => none

/-- Any number of calls on one destination. The event `(j, now)` is the next
step of call `j`, at the time `now`. -/
def queueStep [DecidableEq ι] : Mailbox ι × (ι → CallPhase ι) → ι × ℤ →
    Option (Mailbox ι × (ι → CallPhase ι)) :=
  Interleave.step Prod.fst fun e m p => callStep cfg dstId call e.2 e.1 m p

end Steps

/-! ### Calls that are not interrupted -/

section Alone

variable {ι : Type} (dstId : String) (call : ι → Call)

/-- The frame that is put on a channel. -/
def Post.frame : Post ι → Option Frame
  | .relay j => (call j).message?.map .relay
  | .expire src dst => some (.expire src dst)

/-- The frames put on channel `c`. -/
def Mailbox.framesOn (m : Mailbox ι) (c : ℕ) : List Frame :=
  m.posts.filterMap fun p => if p.1 = c then p.2.frame call else none

/-- The state `s` is as the mailbox says, with `before` on the channels first.
All channels are open and Redis answers. -/
structure Mailbox.Shows (before : ℕ → List Frame) (m : Mailbox ι) (s : AppState) : Prop where
  senders : s.wsSenders = m.wsSenders
  sends : ∀ j ∈ m.queue, ∃ msg, call j = .transmit msg
  queue : (s.redis.queue.lookup dstId).getD [] =
    m.queue.filterMap fun j => (call j).message?.map .message
  queueMeta : s.redis.queueMeta.lookup dstId = m.queueMeta
  listed : dstId ∈ s.redis.queues ↔ m.listed = true
  opened : ∀ c, (s.chans c).closed = false
  frames : ∀ c, (s.chans c).queue = before c ++ m.framesOn call c

variable {dstId call} {cfg : Config} {env : Env} {before : ℕ → List Frame} {m : Mailbox ι}
  {s : AppState} {j : ι}

lemma framesOn_post (m : Mailbox ι) (c i : ℕ) (p : Post ι) :
    (m.post c p).framesOn call i =
      m.framesOn call i ++ if c = i then (p.frame call).toList else [] := by
  rw [Mailbox.framesOn, Mailbox.post, List.filterMap_append, Mailbox.framesOn]
  split_ifs with h
  · cases hp : p.frame call <;> simp [h, hp]
  · simp [h]

/-- One frame on an open channel. -/
lemma Mailbox.Shows.post (h : m.Shows dstId call before s) (c : ℕ) {p : Post ι} {frame : Frame}
    (hframe : p.frame call = some frame) :
    (m.post c p).Shows dstId call before (s.send c [frame]) where
  senders := h.senders
  sends := h.sends
  queue := h.queue
  queueMeta := h.queueMeta
  listed := h.listed
  opened i := by
    simp only [AppState.send, h.opened c, and_true]
    split_ifs with hi
    · rfl
    · exact h.opened i
  frames i := by
    rw [framesOn_post, hframe, ← List.append_assoc, ← h.frames i]
    simp only [AppState.send, h.opened c, and_true]
    by_cases hi : i = c
    · simp [hi]
    · simp [hi, Ne.symm hi]

/-- A message at the end of the queue. -/
lemma Mailbox.Shows.push (h : m.Shows dstId call before s) {msg : Message}
    (hcall : call j = .transmit msg) (hredis : env.redisOk .addMessageToQueue dstId = true) :
    (m.addMessageToQueue env.now j).Shows dstId call before
      (s.redisAddMessageToQueue env dstId (.message msg)) where
  senders := h.senders
  sends i hi := by
    rcases List.mem_append.mp hi with hi | hi
    · exact h.sends i hi
    · rw [List.mem_singleton.mp hi]
      exact ⟨msg, hcall⟩
  queue := by
    simp [redisAddMessageToQueue, hredis, h.queue, Mailbox.addMessageToQueue, hcall, Call.message?]
  queueMeta := by simp [redisAddMessageToQueue, hredis, Mailbox.addMessageToQueue]
  listed := by simp [redisAddMessageToQueue, hredis, Mailbox.addMessageToQueue]
  opened := h.opened
  frames := h.frames

/-- The last-read time is set. -/
lemma Mailbox.Shows.touch (h : m.Shows dstId call before s)
    (hredis : env.redisOk .readAllMessages dstId = true) :
    (m.touchQueue env.now).Shows dstId call before (s.redisTouchQueue env dstId) where
  senders := h.senders
  sends := h.sends
  queue := by
    simp only [redisTouchQueue, hredis, if_true]
    exact h.queue
  queueMeta := by simp [redisTouchQueue, hredis, Mailbox.touchQueue]
  listed := by
    simp only [redisTouchQueue, hredis, if_true]
    exact h.listed
  opened := h.opened
  frames := h.frames

/-- The queue is cleared. -/
lemma Mailbox.Shows.clear (h : m.Shows dstId call before s)
    (hredis : env.redisOk .clearMessageQueue dstId = true) :
    m.clearMessageQueue.Shows dstId call before (s.redisClearMessageQueue env dstId) where
  senders := h.senders
  sends i hi := absurd hi List.not_mem_nil
  queue := by simp [redisClearMessageQueue, hredis, Mailbox.clearMessageQueue]
  queueMeta := by simp [redisClearMessageQueue, hredis, Mailbox.clearMessageQueue]
  listed := by simp [redisClearMessageQueue, hredis, Mailbox.clearMessageQueue]
  opened := h.opened
  frames := h.frames

/-- `handle_transmission` of a message to the destination. -/
theorem shows_transmit (h : m.Shows dstId call before s) {msg : Message}
    (hcall : call j = .transmit msg) (hdst : msg.dst = some dstId) (hne : dstId ≠ "")
    (hredis : env.redisOk .addMessageToQueue dstId = true) :
    ∃ m' p', Interleave.Alone (callStep cfg dstId call env.now j) (m, .start) (m', p') ∧
      (p' = .ended ∨ p' = .pushed) ∧
      m'.Shows dstId call before (handleTransmission env s msg) := by
  have hget : msg.dst.getD "" = dstId := by rw [hdst, Option.getD_some]
  have hlookup : s.wsSenders.lookup (msg.dst.getD "") = m.wsSenders.lookup dstId := by
    rw [hget, h.senders]
  cases hsender : m.wsSenders.lookup dstId with
  | some c =>
      refine ⟨m.post c (.relay j), .ended, .head ?_ (.refl _), .inl rfl, ?_⟩
      · simp only [callStep, hcall, hsender]
      · have hhandle : handleTransmission env s msg = s.send c [.relay msg] := by
          simp [handleTransmission, hget, hne, hlookup, hsender, h.opened c]
        rw [hhandle]
        exact h.post c (by simp [Post.frame, hcall, Call.message?])
  | none =>
      by_cases htype : msg.type_ = .LEAVE ∨ msg.type_ = .EXPIRE
      · refine ⟨m, .ended, .head ?_ (.refl _), .inl rfl, ?_⟩
        · simp only [callStep, hcall, hsender, if_pos htype]
        · have hhandle : handleTransmission env s msg = s := by
            simp [handleTransmission, hget, hne, hlookup, hsender, htype]
          rwa [hhandle]
      · have hoffline : callStep cfg dstId call env.now j m .start = some (m, .offline) := by
          simp only [callStep, hcall, hsender, if_neg htype]
        refine ⟨m.addMessageToQueue env.now j, .pushed, .head hoffline (.head ?_ (.refl _)),
          .inr rfl, ?_⟩
        · simp only [callStep, hcall]
        · have hhandle : handleTransmission env s msg =
              s.redisAddMessageToQueue env dstId (.message msg) := by
            simp [handleTransmission, hget, hne, hlookup, hsender, htype]
          rw [hhandle]
          exact h.push hcall hredis

lemma send_nil (s : AppState) (c : ℕ) : s.send c [] = s := by
  rw [AppState.send]
  congr 1
  funext i
  split_ifs with hi
  · rw [List.append_nil, hi.1]
  · rfl

lemma send_send (s : AppState) (c : ℕ) (xs ys : List Frame) :
    (s.send c xs).send c ys = s.send c (xs ++ ys) := by
  simp only [AppState.send]
  congr 1
  funext i
  by_cases hc : (s.chans c).closed = false
  · by_cases hi : i = c <;> simp [hc, hi]
  · simp [hc]

/-- The sends of a delivery, one after the other. -/
lemma alone_relaying (cfg : Config) (env : Env) {c : ℕ} (hcall : call j = .deliver c)
    (rest : List ι) :
    ∀ (sent : List ι) (m : Mailbox ι) (s : AppState), m.Shows dstId call before s →
      (∀ i ∈ rest, ∃ msg, call i = .transmit msg) →
      ∃ m', Interleave.Alone (callStep cfg dstId call env.now j) (m, .relaying sent rest)
          (m', .relaying (sent ++ rest) []) ∧
        m'.Shows dstId call before
          (s.send c (rest.filterMap fun i => (call i).message?.map .relay)) := by
  induction rest with
  | nil =>
      intro sent m s h _
      refine ⟨m, ?_, ?_⟩
      · rw [List.append_nil]
        exact .refl _
      · rw [List.filterMap_nil, send_nil]
        exact h
  | cons i rest ih =>
      intro sent m s h hrest
      obtain ⟨msg, hmsg⟩ := hrest i (by simp)
      have hframe : Post.frame call (.relay i) = some (.relay msg) := by
        simp [Post.frame, hmsg, Call.message?]
      obtain ⟨m', halone, hshows⟩ := ih (sent ++ [i]) _ _ (h.post c hframe)
        fun i' hi' => hrest i' (by simp [hi'])
      have hstep : callStep cfg dstId call env.now j m (.relaying sent (i :: rest)) =
          some (m.post c (.relay i), .relaying (sent ++ [i]) rest) := by
        simp only [callStep, hcall]
      refine ⟨m', .head hstep ?_, ?_⟩
      · rwa [List.append_assoc, List.singleton_append] at halone
      · rw [send_send] at hshows
        simpa [hmsg, Call.message?] using hshows

/-- The messages of a queue, as `deliver_queued_messages` sends them. -/
lemma relays_of_entries (queue : List ι) :
    ((queue.filterMap fun i => (call i).message?.map QueueEntry.message).filterMap
      QueueEntry.parse).map .relay =
      queue.filterMap fun i => (call i).message?.map Frame.relay := by
  rw [List.filterMap_filterMap, List.map_filterMap]
  congr 1
  funext i
  cases (call i).message? <;> rfl

/-- The answer to a read of the queue. -/
lemma Mailbox.Shows.redisQueue (h : m.Shows dstId call before s)
    (hread : env.redisOk .readAllMessages dstId = true) :
    s.redisQueue env dstId = m.queue.filterMap fun i => (call i).message?.map .message := by
  rw [AppState.redisQueue, if_pos hread, h.queue]

lemma Mailbox.Shows.queue_eq_nil (h : m.Shows dstId call before s) :
    (m.queue.filterMap fun i => (call i).message?.map QueueEntry.message) = [] ↔
      m.queue = [] := by
  constructor
  · intro hnil
    rw [List.filterMap_eq_nil_iff] at hnil
    refine List.eq_nil_iff_forall_not_mem.mpr fun i hi => ?_
    obtain ⟨msg, hmsg⟩ := h.sends i hi
    exact absurd (hnil i hi) (by simp [hmsg, Call.message?])
  · intro hnil
    rw [hnil, List.filterMap_nil]

/-- `deliver_queued_messages` to the channel `c`. -/
theorem shows_deliver (h : m.Shows dstId call before s) {c : ℕ} (hcall : call j = .deliver c)
    (hread : env.redisOk .readAllMessages dstId = true)
    (hclear : env.redisOk .clearMessageQueue dstId = true) :
    ∃ m', Interleave.Alone (callStep cfg dstId call env.now j) (m, .start) (m', .ended) ∧
      m'.Shows dstId call before (deliverQueuedMessages env s dstId c) := by
  have htouch : callStep cfg dstId call env.now j m .start =
      some (m.touchQueue env.now, .touched) := by
    simp only [callStep, hcall]
  have htouched := h.touch hread
  rw [deliverQueuedMessages, h.redisQueue hread]
  by_cases hqueue : m.queue = []
  · have hend : callStep cfg dstId call env.now j (m.touchQueue env.now) .touched =
        some (m.touchQueue env.now, .ended) := by
      simp only [callStep, hcall, Mailbox.touchQueue, hqueue, if_true]
    rw [if_pos (h.queue_eq_nil.mpr hqueue)]
    exact ⟨_, .head htouch (.head hend (.refl _)), htouched⟩
  · have hread' : callStep cfg dstId call env.now j (m.touchQueue env.now) .touched =
        some (m.touchQueue env.now, .relaying [] m.queue) := by
      simp only [callStep, hcall, Mailbox.touchQueue, hqueue, if_false]
    obtain ⟨m', hsends, hshows⟩ :=
      alone_relaying cfg env hcall m.queue [] _ _ htouched h.sends
    have hend : callStep cfg dstId call env.now j m' (.relaying ([] ++ m.queue) []) =
        some (m'.clearMessageQueue, .ended) := by
      simp only [callStep, hcall]
    rw [if_neg (mt h.queue_eq_nil.mp hqueue), relays_of_entries]
    exact ⟨_, .head htouch (.head hread' (hsends.trans (.head hend (.refl _)))),
      hshows.clear hclear⟩

/-- The loop of an expiry pass over what it read. -/
lemma alone_expiring (cfg : Config) (env : Env) (hcall : call j = .expire) (rest : List ι) :
    ∀ (done : List ι) (seen : List String) (told : List (String × ℕ)) (m : Mailbox ι)
      (s : AppState), m.Shows dstId call before s →
      (∀ i ∈ rest, ∃ msg, call i = .transmit msg) →
      ∃ m' seen' told', Interleave.Alone (callStep cfg dstId call env.now j)
          (m, .expiring done rest seen told) (m', .expiring (done ++ rest) [] seen' told') ∧
        m'.Shows dstId call before
          ((expireNotices seen (rest.filterMap fun i => (call i).message?.map .message)).foldl
            (fun s (src, dst) => s.sendTo src [.expire dst src]) s) := by
  induction rest with
  | nil =>
      intro done seen told m s h _
      refine ⟨m, seen, told, ?_, h⟩
      rw [List.append_nil]
      exact .refl _
  | cons i rest ih =>
      intro done seen told m s h hrest
      obtain ⟨msg, hmsg⟩ := hrest i (by simp)
      have hrest' : ∀ i' ∈ rest, ∃ msg, call i' = .transmit msg :=
        fun i' hi' => hrest i' (by simp [hi'])
      have hsrc : srcOf call i = msg.src.getD "" := by simp [srcOf, hmsg, Call.message?]
      have hdst : dstOf call i = msg.dst.getD "" := by simp [dstOf, hmsg, Call.message?]
      have hentries : ((i :: rest).filterMap fun i => (call i).message?.map QueueEntry.message) =
          .message msg :: rest.filterMap fun i => (call i).message?.map QueueEntry.message := by
        simp [hmsg, Call.message?]
      have happend : done ++ i :: rest = done ++ [i] ++ rest := by simp
      rw [hentries, happend, expireNotices_message, ← hsrc, ← hdst]
      by_cases hseen : srcOf call i ++ "_" ++ dstOf call i ∈ seen
      · have hstep : callStep cfg dstId call env.now j m (.expiring done (i :: rest) seen told) =
            some (m, .expiring (done ++ [i]) rest seen told) := by
          simp only [callStep, hcall, if_pos hseen]
        obtain ⟨m', seen', told', halone, hshows⟩ := ih (done ++ [i]) seen told m s h hrest'
        rw [if_pos hseen]
        exact ⟨m', seen', told', .head hstep halone, hshows⟩
      · rw [if_neg hseen, List.foldl_cons]
        cases hsender : m.wsSenders.lookup (srcOf call i) with
        | some c =>
            have hstep : callStep cfg dstId call env.now j m
                (.expiring done (i :: rest) seen told) =
                some (m.post c (.expire (dstOf call i) (srcOf call i)),
                  .expiring (done ++ [i]) rest ((srcOf call i ++ "_" ++ dstOf call i) :: seen)
                    ((srcOf call i, c) :: told)) := by
              simp only [callStep, hcall, if_neg hseen, hsender]
            have hlookup : s.wsSenders.lookup (srcOf call i) = some c := by rw [h.senders, hsender]
            have hposted :
                (m.post c (.expire (dstOf call i) (srcOf call i))).Shows dstId call before
                (s.send c [.expire (dstOf call i) (srcOf call i)]) := h.post c rfl
            obtain ⟨m', seen', told', halone, hshows⟩ := ih (done ++ [i]) _ _ _ _ hposted hrest'
            refine ⟨m', seen', told', .head hstep halone, ?_⟩
            dsimp only
            rw [sendTo_of_some hlookup]
            exact hshows
        | none =>
            have hstep : callStep cfg dstId call env.now j m
                (.expiring done (i :: rest) seen told) =
                some (m, .expiring (done ++ [i]) rest
                  ((srcOf call i ++ "_" ++ dstOf call i) :: seen) told) := by
              simp only [callStep, hcall, if_neg hseen, hsender]
            have hlookup : s.wsSenders.lookup (srcOf call i) = none := by rw [h.senders, hsender]
            obtain ⟨m', seen', told', halone, hshows⟩ := ih (done ++ [i]) _ _ _ _ h hrest'
            refine ⟨m', seen', told', .head hstep halone, ?_⟩
            dsimp only
            rw [sendTo_of_none hlookup]
            exact hshows

/-- The round of `messages_expire` for the destination, when it is listed. -/
theorem shows_expire (h : m.Shows dstId call before s) (hcall : call j = .expire)
    (hlisted : m.listed = true) (hread : env.redisOk .readAllMessages dstId = true)
    (hclear : env.redisOk .clearMessageQueue dstId = true)
    (hlast : env.redisOk .getQueueLastReadAt dstId = true) :
    ∃ m' p', Interleave.Alone (callStep cfg dstId call env.now j) (m, .start) (m', p') ∧
      (p' = .ended ∨ ∃ done told, p' = .expired done told) ∧
      m'.Shows dstId call before (expireQueue env cfg s dstId) := by
  have hlist : callStep cfg dstId call env.now j m .start = some (m, .listed env.now) := by
    simp only [callStep, hcall, hlisted, if_true]
  have hlastRead : queueLastReadAt env s dstId = m.queueMeta.getD 0 := by
    rw [queueLastReadAt, if_pos hlast, h.queueMeta]
  rw [expireQueue, hlastRead, h.redisQueue hread]
  by_cases hrecent : (env.now : ℤ) - m.queueMeta.getD 0 < asI64 cfg.expireTimeout
  · have hend : callStep cfg dstId call env.now j m (.listed env.now) = some (m, .ended) := by
      simp only [callStep, hcall, if_pos hrecent]
    rw [if_pos hrecent]
    exact ⟨m, .ended, .head hlist (.head hend (.refl _)), .inl rfl, h⟩
  · have hstale : callStep cfg dstId call env.now j m (.listed env.now) = some (m, .stale) := by
      simp only [callStep, hcall, if_neg hrecent]
    have htouch : callStep cfg dstId call env.now j m .stale =
        some (m.touchQueue env.now, .touched) := by
      simp only [callStep, hcall]
    have hread' : callStep cfg dstId call env.now j (m.touchQueue env.now) .touched =
        some (m.touchQueue env.now, .expiring [] m.queue [] []) := by
      simp only [callStep, hcall, Mailbox.touchQueue]
    obtain ⟨m', seen, told, hloop, hshows⟩ :=
      alone_expiring cfg env hcall m.queue [] [] [] _ _ (h.touch hread) h.sends
    have hend : callStep cfg dstId call env.now j m' (.expiring ([] ++ m.queue) [] seen told) =
        some (m'.clearMessageQueue, .expired ([] ++ m.queue) told) := by
      simp only [callStep, hcall]
    rw [if_neg hrecent]
    exact ⟨_, _, .head hlist (.head hstale (.head htouch (.head hread'
      (hloop.trans (.head hend (.refl _)))))), .inr ⟨_, _, rfl⟩, hshows.clear hclear⟩

end Alone

end Dendri
