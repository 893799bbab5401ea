import Dendri.Properties.Admission
import Dendri.Properties.Supplies

/-!
Who a message is from. `handle_message` overwrites the source a client wrote
with the id it speaks under, so whatever is on a channel, in a Redis queue, in
a replay buffer or in the presence map names its sender.

* `Calls`, `FindsClosed`, `ExpiresQueue`: the steps that make a message: a call
  of `handle_message`, a transmission to a closed channel, the expiry of a
  queue;
* `RelayedAs`: how the message of a call is passed on;
* `Authentic`: everything in the four places comes from such a step, and names
  the id of its call, of the closed channel or of the expired queue;
* `Causes.origin`, `ofStep_origin`: the same as an account of the places, which
  every step keeps;
* `sources_authentic`: the property for every run.
-/

namespace Dendri

open AppState Transition

/-! ### What makes a message -/

/-- The step calls `handle_message` under `id` with the message `written`. -/
def Calls (cfg : Config) (id : String) (written : Message) (w : World) (l : Label) : Prop :=
  incoming cfg w l.event = some (id, written) ∧ allowed l.env id written.type_ = true

/-- The step relays a message to `id` and finds its channel closed. -/
def FindsClosed (cfg : Config) (id : String) (w : World) (l : Label) : Prop :=
  ∃ sender msg c, Calls cfg sender msg w l ∧ msg.type_.isTransmission = true ∧
    msg.dst = some id ∧ w.app.wsSenders.lookup id = some c ∧ (w.app.chans c).closed = true

/-- The step is a pass of `messages_expire` in which the queue of `id` has
expired. -/
def ExpiresQueue (cfg : Config) (id : String) (w : World) (l : Label) : Prop :=
  l.event = .expireMessages ∧ QueueExpires l.env cfg w.app id

/-- What has happened: the calls of `handle_message`, the ids whose channel was
found closed, and the ids whose queue expired. -/
structure Causes where
  call : String → Message → Prop
  closed : String → Prop
  expired : String → Prop

/-- What has happened in a run. The calls that other processes on the same
Redis database have made are `foreign`. -/
def causes (cfg : Config) (redis : Redis) (foreign : String → Message → Prop)
    (ls : List Label) : Causes where
  call id written :=
    Happened (step cfg) (Calls cfg id written) (World.init cfg redis) ls ∨ foreign id written
  closed id := Happened (step cfg) (FindsClosed cfg id) (World.init cfg redis) ls
  expired id := Happened (step cfg) (ExpiresQueue cfg id) (World.init cfg redis) ls

/-- The message `out` is what a call under `id` with the message `written`
passes on: the source is the id, and a `DATA` message is stamped. -/
def RelayedAs (id : String) (written out : Message) : Prop :=
  out = { written with src := some id } ∨
    written.type_ = .DATA ∧ ∃ seq timestamp,
      out = { written with src := some id, seq := some seq, timestamp := some timestamp }

namespace Causes

variable (h : Causes)

/-- The message comes from a call of `handle_message`, and its source is the id
of the call. -/
def Sent (msg : Message) : Prop :=
  ∃ id written, h.call id written ∧ RelayedAs id written msg ∧ msg.src = some id

/-- The presence data comes from a `PRESENCE-UPDATE` under the id. -/
def Announced (id payload : String) : Prop :=
  ∃ written, h.call id written ∧ written.type_ = .PresenceUpdate ∧ written.payload = some payload

end Causes

/-- The types of the messages that only clients make. -/
def MessageType.isClients : MessageType → Bool
  | .OFFER | .ANSWER | .CANDIDATE | .ACK | .DATA | .PresenceUpdate => true
  | _ => false

/-- Every message in the four places names the id it is from. -/
structure Authentic (h : Causes) (s : AppState) : Prop where
  onChannel : ∀ c msg, .relay msg ∈ (s.chans c).queue → msg.type_.isClients = true → h.Sent msg
  /-- Stored presence data that is replayed to a joining client. -/
  replayedPresence : ∀ c src room payload, .presence src room payload ∈ (s.chans c).queue →
    h.Announced src payload
  inQueue : ∀ id msg, s.Queued id (.message msg) → h.Sent msg
  inBuffer : ∀ key, ∀ m ∈ s.replayBuffer.held key,
    ∃ msg, m.data = .relay msg ∧ msg.type_ = .DATA ∧ h.Sent msg
  inPresence : ∀ room id payload, s.Present room id payload → h.Announced id payload
  leave : ∀ c msg, .relay msg ∈ (s.chans c).queue → msg.type_ = .LEAVE →
    h.Sent msg ∨ ∃ src, msg.src = some src ∧ h.closed src
  expire : ∀ c msg, .relay msg ∈ (s.chans c).queue → msg.type_ = .EXPIRE → h.Sent msg
  expireNotice : ∀ c src dst, .expire src dst ∈ (s.chans c).queue → h.expired src

/-! ### The account -/

/-- The places hold what the causes explain. A queue holds messages for its own
id only. -/
def Causes.origin (h : Causes) : Origin where
  frame _ f :=
    match f with
    | .relay msg => msg.type_ = .OPEN ∨ h.Sent msg ∨
        msg.type_ = .LEAVE ∧ ∃ src, msg.src = some src ∧ h.closed src
    | .presence src _ payload => h.Announced src payload
    | .expire src _ => h.expired src
    | _ => True
  entry id entry := ∀ msg, entry = .message msg → msg.dst = some id ∧ h.Sent msg
  buffered _ m := ∃ msg, m.data = .relay msg ∧ msg.type_ = .DATA ∧ h.Sent msg
  presence _ id payload := h.Announced id payload

lemma Causes.plain_origin (h : Causes) : h.origin.Plain where
  open_ _ := Or.inl rfl
  error _ _ := trivial
  replayGap _ _ _ := trivial
  roomJoinDenied _ _ _ := trivial
  roomPeers _ _ _ := trivial

/-- An account in terms of causes is authenticity. -/
lemma Origin.Accounts.authentic {h : Causes} {s : AppState} (hs : h.origin.Accounts s) :
    Authentic h s where
  onChannel c msg hmem htype := by
    rcases hs.frame c _ hmem with hopen | hsent | ⟨hleave, -⟩
    · exact absurd htype (by simp [hopen, MessageType.isClients])
    · exact hsent
    · exact absurd htype (by simp [hleave, MessageType.isClients])
  replayedPresence c src room payload hmem := hs.frame c _ hmem
  inQueue id msg hq := (hs.entry id _ hq msg rfl).2
  inBuffer := hs.buffered
  inPresence := hs.presence
  leave c msg hmem htype := by
    rcases hs.frame c _ hmem with hopen | hsent | ⟨-, hclosed⟩
    · exact absurd (hopen.symm.trans htype) (by simp)
    · exact Or.inl hsent
    · exact Or.inr hclosed
  expire c msg hmem htype := by
    rcases hs.frame c _ hmem with hopen | hsent | ⟨hleave, -⟩
    · exact absurd (hopen.symm.trans htype) (by simp)
    · exact hsent
    · exact absurd (hleave.symm.trans htype) (by simp)
  expireNotice c src dst hmem := hs.frame c _ hmem

/-- The causes `h'` are at least those of `h`. -/
structure Causes.Le (h h' : Causes) : Prop where
  call : ∀ id written, h.call id written → h'.call id written
  closed : ∀ id, h.closed id → h'.closed id
  expired : ∀ id, h.expired id → h'.expired id

lemma Causes.Le.sent {h h' : Causes} (hle : h.Le h') {msg : Message} (hsent : h.Sent msg) :
    h'.Sent msg := by
  obtain ⟨id, written, hcall, hrest⟩ := hsent
  exact ⟨id, written, hle.call id written hcall, hrest⟩

lemma Causes.Le.announced {h h' : Causes} (hle : h.Le h') {id payload : String}
    (ha : h.Announced id payload) : h'.Announced id payload := by
  obtain ⟨written, hcall, hrest⟩ := ha
  exact ⟨written, hle.call id written hcall, hrest⟩

/-- An account stays one when more has happened. -/
lemma Causes.Le.accounts {h h' : Causes} (hle : h.Le h') {s : AppState}
    (hs : h.origin.Accounts s) : h'.origin.Accounts s where
  frame c f hf := by
    have hframe := hs.frame c f hf
    cases f with
    | relay msg =>
        rcases hframe with hopen | hsent | ⟨hleave, src, hsrc, hclosed⟩
        · exact Or.inl hopen
        · exact Or.inr (Or.inl (hle.sent hsent))
        · exact Or.inr (Or.inr ⟨hleave, src, hsrc, hle.closed src hclosed⟩)
    | presence src room payload => exact hle.announced hframe
    | expire src dst => exact hle.expired src hframe
    | error text => trivial
    | replayGap oldest requested => trivial
    | roomJoinDenied room reason => trivial
    | roomPeers room members => trivial
  entry id entry hq msg hmsg := (hs.entry id entry hq msg hmsg).imp_right hle.sent
  buffered key m hm := by
    obtain ⟨msg, hdata, htype, hsent⟩ := hs.buffered key m hm
    exact ⟨msg, hdata, htype, hle.sent hsent⟩
  presence room id payload hp := hle.announced (hs.presence room id payload hp)

/-! ### Steps -/

section Steps

variable {cfg : Config} {w : World} {l : Label} {h : Causes}

/-- What the handling of a message puts somewhere comes from its call. -/
lemma ofMessage_origin (hs : h.origin.Accounts w.app) {id : String} {msg : Message}
    (hcall : h.call id msg)
    (hclosed : ∀ dst c, msg.type_.isTransmission = true → msg.dst = some dst →
      w.app.wsSenders.lookup dst = some c → (w.app.chans c).closed = true → h.closed dst) :
    h.origin.OfMessage l.env w.app id msg := by
  have hplain : h.Sent { msg with src := some id } := ⟨id, msg, hcall, Or.inl rfl, rfl⟩
  have hstamped : msg.type_ = .DATA → h.Sent (stamped l.env w.app id msg) := fun htype =>
    ⟨id, msg, hcall, Or.inr ⟨htype, _, _, rfl⟩, rfl⟩
  refine ⟨fun _ _ => Or.inr (Or.inl hplain), fun _ dst hdst msg' hmsg' => ?_,
    fun htype dst c hdst hc hcl c' => ?_, fun htype c => Or.inr (Or.inl (hstamped htype)),
    fun htype key => ⟨_, rfl, htype, hstamped htype⟩,
    fun _ key peer payload hp c room => hs.presence key peer payload hp,
    fun htype room payload hroom hpayload => ⟨msg, hcall, htype, hpayload⟩,
    fun _ _ => Or.inr (Or.inl hplain)⟩
  · rw [← QueueEntry.message.inj hmsg']
    exact ⟨hdst, hplain⟩
  · exact Or.inr (Or.inr ⟨rfl, dst, rfl, hclosed dst c htype hdst hc hcl⟩)

/-- What a step puts somewhere is explained by what has happened, the step
itself included. -/
lemma ofStep_origin (hs : h.origin.Accounts w.app)
    (hcall : ∀ id msg, Calls cfg id msg w l → h.call id msg)
    (hclosed : ∀ id, FindsClosed cfg id w l → h.closed id)
    (hexpired : ∀ id, ExpiresQueue cfg id w l → h.expired id)
    (hredis : ∀ redis id entries entry, l.event = .redisChange redis →
      redis.queue.lookup id = some entries → entry ∈ entries →
      w.app.Queued id entry ∨ h.origin.entry id entry) :
    h.origin.OfStep cfg w l where
  message id msg hin hallowed :=
    ofMessage_origin hs (hcall id msg ⟨hin, hallowed⟩) fun dst c htype hdst hc hcl =>
      hclosed dst ⟨id, msg, c, ⟨hin, hallowed⟩, htype, hdst, hc, hcl⟩
  connect r K s' hev hout c hc := by
    refine ⟨fun entry msg hq hparse => ?_, fun m hm => ?_⟩
    · cases entry with
      | malformed text => exact absurd hparse (by simp [QueueEntry.parse])
      | message msg' =>
          rw [← Option.some.inj hparse]
          exact Or.inr (Or.inl (hs.entry K.id _ hq msg' rfl).2)
    · obtain ⟨msg, hdata, -, hsent⟩ := hs.buffered K.id m hm
      rw [hdata]
      exact Or.inr (Or.inl hsent)
  expiry hev id hexp entry msg hq hparse c := by
    cases entry with
    | malformed text => exact absurd hparse (by simp [QueueEntry.parse])
    | message msg' =>
        rw [← Option.some.inj hparse, (hs.entry id _ hq msg' rfl).1]
        exact hexpired id ⟨hev, hexp⟩
  redis := hredis

end Steps

/-! ### Runs -/

/-- The message was pushed to the queue of `id` by a call in another process. -/
def PushedElsewhere (foreign : String → Message → Prop) (id : String) (msg : Message) : Prop :=
  msg.dst = some id ∧
    ∃ sender written, foreign sender written ∧ msg = { written with src := some sender }

/-- What Redis changes on its own: a message that is in a queue afterwards was
there before, or was pushed by another process. -/
def RedisKeeps (foreign : String → Message → Prop) (w : World) (l : Label) (_ : World) : Prop :=
  ∀ redis id entries msg, l.event = .redisChange redis → redis.queue.lookup id = some entries →
    .message msg ∈ entries → w.app.Queued id (.message msg) ∨ PushedElsewhere foreign id msg

lemma entry_of_pushedElsewhere {cfg : Config} {redis : Redis} {foreign : String → Message → Prop}
    {ls : List Label} {id : String} {msg : Message} (h : PushedElsewhere foreign id msg) :
    msg.dst = some id ∧ (causes cfg redis foreign ls).Sent msg := by
  obtain ⟨hdst, sender, written, hforeign, rfl⟩ := h
  exact ⟨hdst, sender, written, Or.inr hforeign, Or.inl rfl, rfl⟩

lemma causes_le_concat (cfg : Config) (redis : Redis) (foreign : String → Message → Prop)
    (ls : List Label) (l : Label) :
    (causes cfg redis foreign ls).Le (causes cfg redis foreign (ls ++ [l])) where
  call _ _ hcall := hcall.imp_left Happened.concat
  closed _ hclosed := hclosed.concat
  expired _ hexpired := hexpired.concat

/-- An empty server accounts for what Redis holds. -/
lemma accounts_init (cfg : Config) {redis : Redis} {foreign : String → Message → Prop}
    (hstart : ∀ id entries msg, redis.queue.lookup id = some entries → .message msg ∈ entries →
      PushedElsewhere foreign id msg) :
    (causes cfg redis foreign []).origin.Accounts (World.init cfg redis).app where
  frame c f hf := absurd hf (by simp [World.init, AppState.new])
  entry id entry hq := by
    obtain ⟨entries, hentries, hmem⟩ := hq
    intro msg hmsg
    rw [hmsg] at hmem
    exact entry_of_pushedElsewhere (hstart id entries msg hentries hmem)
  buffered key m hm := absurd hm (by simp [World.init, AppState.new, ReplayBuffer.held])
  presence room id payload hp := by
    obtain ⟨entries, hentries, -⟩ := hp
    exact absurd hentries (by simp [World.init, AppState.new])

/-- In every run every message on a channel, in a queue, in a replay buffer or
in the presence map names the id it is from. -/
theorem sources_authentic {cfg : Config} {redis : Redis} {foreign : String → Message → Prop}
    {ls : List Label} {w : World}
    (hstart : ∀ id entries msg, redis.queue.lookup id = some entries → .message msg ∈ entries →
      PushedElsewhere foreign id msg)
    (hredis : AllSteps (step cfg) (RedisKeeps foreign) (World.init cfg redis) ls)
    (hrun : run (step cfg) (World.init cfg redis) ls = some w) :
    Authentic (causes cfg redis foreign ls) w.app := by
  refine Origin.Accounts.authentic ?_
  induction ls using List.reverseRecOn generalizing w with
  | nil =>
      rw [run, Option.some.injEq] at hrun
      rw [← hrun]
      exact accounts_init cfg hstart
  | append_singleton ls l ih =>
      obtain ⟨v, hv, hstep⟩ := run_concat.mp hrun
      have hkeeps := hredis.last hv hstep
      have hle := causes_le_concat cfg redis foreign ls l
      -- the causes of the longer run explain the state before the step, too
      have hs := hle.accounts (ih hredis.init hv)
      refine Supplies.accounts (supplies_step (Causes.plain_origin _) (ofStep_origin hs ?_ ?_ ?_ ?_)
        hstep) hs
      · exact fun id msg hcall => Or.inl (Happened.last hv hcall)
      · exact fun id hclosed => Happened.last hv hclosed
      · exact fun id hexpired => Happened.last hv hexpired
      · intro redis' id entries entry hev hentries hmem
        cases entry with
        | malformed text => exact Or.inr fun msg hmsg => absurd hmsg (by simp)
        | message msg =>
            refine (hkeeps redis' id entries msg hev hentries hmem).imp_right fun helse => ?_
            intro msg' hmsg'
            rw [← QueueEntry.message.inj hmsg']
            exact entry_of_pushedElsewhere helse

/-- `alice` writes `mallory` as the source of an `OFFER` to `bob`, who gets it
from `alice`. -/
def aliceForges : List Label :=
  [.connect (Params.plain "alice" "tok").ws, .connect (Params.plain "bob" "tok").ws,
    .say 0 { type_ := .OFFER, src := some "mallory", dst := some "bob" }].map quietly

theorem sources_authentic_alice :
    ∃ w, run (step {}) (World.init {} Redis.empty) aliceForges = some w ∧
      .relay { type_ := .OFFER, src := some "alice", dst := some "bob" } ∈
        (w.app.chans 1).queue ∧
      Authentic (causes {} Redis.empty (fun _ _ => False) aliceForges) w.app := by
  have heval : (run (step {}) (World.init {} Redis.empty) aliceForges).map
      (fun w => decide (.relay { type_ := .OFFER, src := some "alice", dst := some "bob" } ∈
        (w.app.chans 1).queue)) = some true := by decide +kernel
  obtain ⟨w, hw, hmem⟩ := Option.map_eq_some_iff.mp heval
  refine ⟨w, hw, of_decide_eq_true hmem, sources_authentic ?_ (AllSteps.of_mem _ ?_) hw⟩
  · intro id entries msg hentries
    exact absurd hentries (by simp [Redis.empty])
  · intro l hl w w' _ redis id entries msg hev
    fin_cases hl <;> exact absurd hev (by simp [quietly, Event.say])

end Dendri
