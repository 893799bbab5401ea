import Dendri.Properties.Admission
import Dendri.Properties.Supplies

/-!
The notices of `messages_expire`. The set of pairs that have been told is keyed by
`{src}_{dst}`, which two different pairs may share, since an id may have an
underscore. All messages in one queue have the id of the queue as destination,
though, and for one destination the key determines the source.

* `Addressed`: the destination of a queued message is the id of the queue, and it
  names its source; in every run all queued messages are (`addressed_of_run`);
* `mem_expireNotices`, `nodup_expireNotices`: one notice for each source;
* `chans_expireQueue`, `chans_foldl_expireQueue`: the notices on one channel, for
  one queue and for a whole pass;
* `expire_notices_exact`: in every run a pass puts one notice for each queue and
  each of its sources on the channel of the source, nothing else, and empties the
  queues.
-/

namespace Dendri

open AppState Transition

/-! ### The notices for one queue -/

/-- The message is for the client `d`, and names its source. -/
def Addressed (d : String) (msg : Message) : Prop := msg.dst = some d ∧ ∃ src, msg.src = some src

section Notices

variable {d : String} {entries : List QueueEntry}

/-- For one destination the key determines the source. -/
lemma key_inj {src src' : String} (h : src ++ "_" ++ d = src' ++ "_" ++ d) : src = src' :=
  (String.append_left_inj "_").mp ((String.append_left_inj d).mp h)

/-- There is a notice for each source that has not been told before. -/
lemma mem_expireNotices (hall : ∀ msg, .message msg ∈ entries → Addressed d msg)
    (seen : List String) (src dst : String) :
    (src, dst) ∈ expireNotices seen entries ↔
      dst = d ∧ src ++ "_" ++ d ∉ seen ∧ ∃ msg, .message msg ∈ entries ∧ msg.src = some src := by
  induction entries generalizing seen with
  | nil =>
    refine iff_of_false List.not_mem_nil ?_
    rintro ⟨-, -, msg, hmsg, -⟩
    exact absurd hmsg List.not_mem_nil
  | cons entry entries ih =>
    have hrest := ih fun msg hmsg => hall msg (List.mem_cons_of_mem _ hmsg)
    cases entry with
    | malformed text =>
      rw [expireNotices_malformed]
      simp only [hrest, List.mem_cons, reduceCtorEq, false_or]
    | message first =>
      obtain ⟨hdst, source, hsource⟩ := hall first List.mem_cons_self
      have hmem : (∃ msg, .message msg ∈ QueueEntry.message first :: entries ∧
          msg.src = some src) ↔
          src = source ∨ ∃ msg, .message msg ∈ entries ∧ msg.src = some src := by
        constructor
        · rintro ⟨msg, hmsg, hsrc⟩
          rcases List.mem_cons.mp hmsg with heq | hmsg
          · rw [QueueEntry.message.inj heq, hsource] at hsrc
            exact Or.inl (Option.some.inj hsrc).symm
          · exact Or.inr ⟨msg, hmsg, hsrc⟩
        · rintro (rfl | ⟨msg, hmsg, hsrc⟩)
          · exact ⟨first, List.mem_cons_self, hsource⟩
          · exact ⟨msg, List.mem_cons_of_mem _ hmsg, hsrc⟩
      rw [expireNotices_message, hmem, hsource, hdst, Option.getD_some, Option.getD_some]
      by_cases hseen : source ++ "_" ++ d ∈ seen
      · rw [if_pos hseen, hrest]
        refine and_congr_right fun _ => and_congr_right fun hnew => ?_
        refine (or_iff_right ?_).symm
        rintro rfl
        exact hnew hseen
      · rw [if_neg hseen, List.mem_cons, Prod.mk.injEq, hrest, List.mem_cons, not_or]
        by_cases hsrc : src = source
        · subst hsrc
          simp [hseen]
        · have hkey : src ++ "_" ++ d ≠ source ++ "_" ++ d := fun h => hsrc (key_inj h)
          simp [hsrc, hkey]

lemma nodup_expireNotices (hall : ∀ msg, .message msg ∈ entries → Addressed d msg)
    (seen : List String) : (expireNotices seen entries).Nodup := by
  induction entries generalizing seen with
  | nil => exact List.nodup_nil
  | cons entry entries ih =>
    have hall' : ∀ msg, .message msg ∈ entries → Addressed d msg := fun msg hmsg =>
      hall msg (List.mem_cons_of_mem _ hmsg)
    cases entry with
    | malformed text => exact ih hall' seen
    | message first =>
      obtain ⟨hdst, source, hsource⟩ := hall first List.mem_cons_self
      rw [expireNotices_message, hsource, hdst, Option.getD_some, Option.getD_some]
      by_cases hseen : source ++ "_" ++ d ∈ seen
      · rw [if_pos hseen]
        exact ih hall' seen
      · rw [if_neg hseen]
        refine List.nodup_cons.mpr ⟨fun hmem => ?_, ih hall' _⟩
        obtain ⟨-, hnew, -⟩ := (mem_expireNotices hall' _ source d).mp hmem
        exact hnew List.mem_cons_self

end Notices

/-! ### One pass -/

/-- The notices that go to the channel `c` when the queue of `d` is looked at. -/
def noticesOn (env : Env) (cfg : Config) (s : AppState) (c : ℕ) (d : String) : List Frame :=
  if env.now - queueLastReadAt env s d < asI64 cfg.expireTimeout then []
  else
    ((expireNotices [] (s.redisQueue env d)).filter fun n => s.wsSenders.lookup n.1 = some c).map
      fun n => .expire n.2 n.1

lemma chans_foldl_notices (notices : List (String × String)) (s : AppState) (c : ℕ) :
    (notices.foldl (fun s n => s.sendTo n.1 [.expire n.2 n.1]) s).chans c =
      (s.chans c).push ((notices.filter fun n => s.wsSenders.lookup n.1 = some c).map
        fun n => .expire n.2 n.1) := by
  induction notices generalizing s with
  | nil => exact (Channel.push_nil _).symm
  | cons n notices ih =>
    rw [List.foldl_cons, ih, chans_sendTo_push]
    have hsenders : (s.sendTo n.1 [.expire n.2 n.1]).wsSenders = s.wsSenders := rfl
    rw [hsenders]
    by_cases hn : s.wsSenders.lookup n.1 = some c
    · rw [if_pos hn, Channel.push_push, List.filter_cons, if_pos (decide_eq_true hn), List.map_cons,
        List.singleton_append]
    · rw [if_neg hn, List.filter_cons, if_neg fun h => hn (of_decide_eq_true h)]

/-- One queue. -/
lemma chans_expireQueue (env : Env) (cfg : Config) (s : AppState) (d : String) (c : ℕ) :
    (expireQueue env cfg s d).chans c = (s.chans c).push (noticesOn env cfg s c d) ∧
      (expireQueue env cfg s d).wsSenders = s.wsSenders := by
  rw [expireQueue, noticesOn]
  by_cases hfresh : env.now - queueLastReadAt env s d < asI64 cfg.expireTimeout
  · rw [if_pos hfresh, if_pos hfresh, Channel.push_nil]
    exact ⟨rfl, rfl⟩
  · rw [if_neg hfresh, if_neg hfresh]
    refine ⟨chans_foldl_notices _ _ c, ?_⟩
    exact List.foldlRecOn (motive := fun t : AppState => t.wsSenders = s.wsSenders) _ _ rfl
      fun t ht n _ => ht

/-- The notices for another queue are those of before. -/
lemma noticesOn_expireQueue (env : Env) (cfg : Config) (s : AppState) (c : ℕ) {d other : String}
    (hne : other ≠ d) :
    noticesOn env cfg (expireQueue env cfg s d) c other = noticesOn env cfg s c other := by
  obtain ⟨hqueue, hmeta⟩ := expireQueue_of_ne env cfg s hne
  rw [noticesOn, noticesOn, queueLastReadAt, queueLastReadAt, redisQueue, redisQueue, hqueue, hmeta,
    (chans_expireQueue env cfg s d c).2]

/-- The queues of a list, one after the other. -/
lemma chans_foldl_expireQueue (env : Env) (cfg : Config) (ids : List String) (hnodup : ids.Nodup)
    (s : AppState) (c : ℕ) :
    (ids.foldl (expireQueue env cfg) s).chans c =
      (s.chans c).push (ids.flatMap (noticesOn env cfg s c)) := by
  induction ids generalizing s with
  | nil => exact (Channel.push_nil _).symm
  | cons d ids ih =>
    obtain ⟨hd, hnodup⟩ := List.nodup_cons.mp hnodup
    have hsame : ids.flatMap (noticesOn env cfg (expireQueue env cfg s d) c) =
        ids.flatMap (noticesOn env cfg s c) := by
      refine List.flatMap_congr fun other hother => noticesOn_expireQueue env cfg s c ?_
      rintro rfl
      exact hd hother
    rw [List.foldl_cons, ih hnodup, (chans_expireQueue env cfg s d c).1, Channel.push_push, hsame,
      List.flatMap_cons]

/-- A queue that has expired is gone when its round is over. -/
lemma lookup_expireQueue {env : Env} {cfg : Config} {s : AppState} {d : String}
    (hold : ¬env.now - queueLastReadAt env s d < asI64 cfg.expireTimeout)
    (hclear : env.redisOk .clearMessageQueue d = true) :
    (expireQueue env cfg s d).redis.queue.lookup d = none := by
  rw [redis_expireQueue, if_neg hold, redisClearMessageQueue, if_pos hclear]
  exact Finmap.lookup_erase d _

lemma lookup_foldl_expireQueue {env : Env} {cfg : Config} (ids : List String)
    (hnodup : ids.Nodup) {s : AppState} {d : String} (hd : d ∈ ids)
    (hold : ¬env.now - queueLastReadAt env s d < asI64 cfg.expireTimeout)
    (hclear : env.redisOk .clearMessageQueue d = true) :
    (ids.foldl (expireQueue env cfg) s).redis.queue.lookup d = none := by
  induction ids generalizing s with
  | nil => exact absurd hd List.not_mem_nil
  | cons first ids ih =>
    obtain ⟨hfirst, hnodup⟩ := List.nodup_cons.mp hnodup
    rw [List.foldl_cons]
    by_cases heq : d = first
    · -- no later round is about this queue
      subst heq
      refine List.foldlRecOn (motive := fun t : AppState => t.redis.queue.lookup d = none) _ _
        (lookup_expireQueue hold hclear) fun t ht other hother => ?_
      have hne : d ≠ other := by
        rintro rfl
        exact hfirst hother
      rw [(expireQueue_of_ne env cfg t hne).1]
      exact ht
    · have hrest : d ∈ ids := (List.mem_cons.mp hd).resolve_left heq
      refine ih hnodup hrest ?_
      rw [queueLastReadAt, (expireQueue_of_ne env cfg s heq).2]
      exact hold

/-! ### Runs -/

/-- A message of `src` waits in the queue of `d`. -/
def AppState.QueuedBy (s : AppState) (d src : String) : Prop :=
  ∃ msg, s.Queued d (.message msg) ∧ msg.src = some src

/-- What a pass of `messages_expire` should do: the frames that a channel gets are
one notice for each expired queue and each client with a message in it that the
channel belongs to, and the expired queues are empty. -/
structure ExpiresExactly (env : Env) (cfg : Config) (s t : AppState) : Prop where
  notices : ∀ c, ∃ frames : List Frame, frames.Nodup ∧ t.chans c = (s.chans c).push frames ∧
    ∀ f, f ∈ frames ↔ ∃ d src, f = .expire d src ∧ QueueExpires env cfg s d ∧
      env.redisOk .readAllMessages d = true ∧ s.QueuedBy d src ∧ s.wsSenders.lookup src = some c
  emptied : ∀ d, QueueExpires env cfg s d → env.redisOk .clearMessageQueue d = true →
    t.redis.queue.lookup d = none

/-- The messages that are ever queued are addressed to the id of their queue. -/
lemma addressed_of_run {cfg : Config} {redis : Redis} {ls : List Label} {w : World}
    (hstart : QueuesHold Addressed (World.init cfg redis).app)
    (hredis : AllSteps (step cfg) (fun _ l _ => RedisHolds Addressed l) (World.init cfg redis) ls)
    (hrun : run (step cfg) (World.init cfg redis) ls = some w) : QueuesHold Addressed w.app :=
  queuesHold_of_run (fun id _ _ _ hdst => ⟨hdst, id, rfl⟩) hstart hredis hrun

section Pass

variable {env : Env} {cfg : Config} {s : AppState} {c : ℕ} {d : String}

lemma addressed_redisQueue (h : QueuesHold Addressed s) (env : Env) (d : String) (msg : Message)
    (hmsg : .message msg ∈ s.redisQueue env d) : Addressed d msg :=
  h d msg (queued_of_mem_redisQueue hmsg)

lemma mem_noticesOn (h : QueuesHold Addressed s) (f : Frame) :
    f ∈ noticesOn env cfg s c d ↔
      ∃ src, f = .expire d src ∧
        ¬env.now - queueLastReadAt env s d < asI64 cfg.expireTimeout ∧
        env.redisOk .readAllMessages d = true ∧ s.QueuedBy d src ∧
        s.wsSenders.lookup src = some c := by
  have hqueue : ∀ src, (∃ msg, .message msg ∈ s.redisQueue env d ∧ msg.src = some src) ↔
      env.redisOk .readAllMessages d = true ∧ s.QueuedBy d src := by
    intro src
    rw [redisQueue]
    by_cases hread : env.redisOk .readAllMessages d = true
    · rw [if_pos hread, and_iff_right hread, AppState.QueuedBy]
      simp only [AppState.Queued]
      cases s.redis.queue.lookup d <;> simp
    · rw [if_neg hread]
      simp [hread]
  rw [noticesOn]
  by_cases hfresh : env.now - queueLastReadAt env s d < asI64 cfg.expireTimeout
  · rw [if_pos hfresh]
    simp [hfresh]
  · rw [if_neg hfresh]
    constructor
    · intro hf
      obtain ⟨⟨src, dst⟩, hn, rfl⟩ := List.mem_map.mp hf
      obtain ⟨hn, hsender⟩ := List.mem_filter.mp hn
      obtain ⟨rfl, -, hmsg⟩ := (mem_expireNotices (addressed_redisQueue h env d) [] src dst).mp hn
      obtain ⟨hread, hqueued⟩ := (hqueue src).mp hmsg
      exact ⟨src, rfl, hfresh, hread, hqueued, of_decide_eq_true hsender⟩
    · rintro ⟨src, rfl, -, hread, hqueued, hsender⟩
      refine List.mem_map.mpr ⟨(src, d), List.mem_filter.mpr ⟨?_, decide_eq_true hsender⟩, rfl⟩
      exact (mem_expireNotices (addressed_redisQueue h env d) [] src d).mpr
        ⟨rfl, List.not_mem_nil, (hqueue src).mpr ⟨hread, hqueued⟩⟩

lemma nodup_noticesOn (h : QueuesHold Addressed s) : (noticesOn env cfg s c d).Nodup := by
  rw [noticesOn]
  split_ifs
  · exact List.nodup_nil
  · refine ((nodup_expireNotices (addressed_redisQueue h env d) []).filter _).map ?_
    rintro ⟨src, dst⟩ ⟨src', dst'⟩ heq
    obtain ⟨hdst, hsrc⟩ := Frame.expire.inj heq
    exact Prod.ext hsrc hdst

/-- A pass in a state whose queues hold only messages for their own id. -/
lemma expiresExactly_of_addressed (h : QueuesHold Addressed s) :
    ExpiresExactly env cfg s (messagesExpire env cfg s) := by
  rw [messagesExpire]
  have hnodup := env.order.nodup_toList s.redis.queues
  by_cases hlisted : env.redisOk .getClientIdsWithQueue "" = true
  · rw [if_pos hlisted]
    refine ⟨fun c => ⟨_, ?_, chans_foldl_expireQueue env cfg _ hnodup s c, fun f => ?_⟩,
      fun d hexpires hclear => ?_⟩
    · refine List.nodup_flatMap.mpr ⟨fun d _ => nodup_noticesOn h,
        hnodup.imp fun hne f hf hf' => ?_⟩
      obtain ⟨src, rfl, -⟩ := (mem_noticesOn h f).mp hf
      obtain ⟨src', heq, -⟩ := (mem_noticesOn h _).mp hf'
      exact hne (Frame.expire.inj heq).1
    · rw [List.mem_flatMap]
      constructor
      · rintro ⟨d, hd, hf⟩
        obtain ⟨src, hfsrc, hold, hrest⟩ := (mem_noticesOn h f).mp hf
        exact ⟨d, src, hfsrc, ⟨hlisted, env.order.mem_toList.mp hd, hold⟩, hrest⟩
      · rintro ⟨d, src, hfsrc, ⟨-, hd, hold⟩, hrest⟩
        exact ⟨d, env.order.mem_toList.mpr hd, (mem_noticesOn h f).mpr ⟨src, hfsrc, hold, hrest⟩⟩
    · obtain ⟨-, hd, hold⟩ := hexpires
      exact lookup_foldl_expireQueue _ hnodup (env.order.mem_toList.mpr hd) hold hclear
  · rw [if_neg hlisted]
    refine ⟨fun c => ⟨[], List.nodup_nil, (Channel.push_nil _).symm, fun f => ?_⟩,
      fun d hexpires => absurd hexpires.1 hlisted⟩
    refine iff_of_false List.not_mem_nil ?_
    rintro ⟨d, src, -, hexpires, -⟩
    exact hlisted hexpires.1

end Pass

/-- In every run that fills the queues through `handle_transmission`, a pass of
`messages_expire` tells each client with a message in an expired queue once, tells
nobody else anything, and empties the expired queues. -/
theorem expire_notices_exact {cfg : Config} {redis : Redis} {ls : List Label} {w : World}
    (hstart : QueuesHold Addressed (World.init cfg redis).app)
    (hredis : AllSteps (step cfg) (fun _ l _ => RedisHolds Addressed l) (World.init cfg redis) ls)
    (hrun : run (step cfg) (World.init cfg redis) ls = some w) (env : Env) :
    ExpiresExactly env cfg w.app (messagesExpire env cfg w.app) :=
  expiresExactly_of_addressed (addressed_of_run hstart hredis hrun)

/-- An offer to the client `d`. -/
def offerTo (d : String) : Message := { type_ := .OFFER, dst := some d }

/-- Two clients send to two others that are not there; the four ids give the same
key. -/
def sameKey : List Label :=
  [.connect (Params.plain "a" "tok").ws, .connect (Params.plain "a_b" "tok").ws,
    .say 0 (offerTo "b_c"), .say 0 (offerTo "b_c"), .say 1 (offerTo "c")].map quietly

theorem expire_notices_same_key :
    ∃ w, run (step {}) (World.init {} Redis.empty) sameKey = some w ∧
      ExpiresExactly (Env.quiet 5000) {} w.app (messagesExpire (Env.quiet 5000) {} w.app) ∧
      ((messagesExpire (Env.quiet 5000) {} w.app).chans 0).queue =
        [openFrame, .expire "b_c" "a"] ∧
      ((messagesExpire (Env.quiet 5000) {} w.app).chans 1).queue =
        [openFrame, .expire "c" "a_b"] := by
  have heval : (run (step {}) (World.init {} Redis.empty) sameKey).map (fun w =>
      (((messagesExpire (Env.quiet 5000) {} w.app).chans 0).queue,
        ((messagesExpire (Env.quiet 5000) {} w.app).chans 1).queue)) =
      some ([openFrame, .expire "b_c" "a"], [openFrame, .expire "c" "a_b"]) := by decide +kernel
  obtain ⟨w, hw, hfacts⟩ := Option.map_eq_some_iff.mp heval
  obtain ⟨hfirst, hsecond⟩ := Prod.mk.inj hfacts
  refine ⟨w, hw, expire_notices_exact ?_ (AllSteps.of_mem _ ?_) hw (Env.quiet 5000), hfirst,
    hsecond⟩
  · rintro id msg ⟨entries, hentries, -⟩
    exact absurd hentries (by simp [World.init, AppState.new, Redis.empty])
  · intro l hl _ _ _ redis id entries msg hev
    fin_cases hl <;> exact absurd hev (by simp [quietly, Event.say])

end Dendri
