import Dendri.Server.RateLimiter
import Dendri.Properties.Admission
import Dendri.System

/-!
The server with its rate limiter. In the transition system of the server the verdicts of the
rate limiter come from outside; here the server has the limiter itself, and the clock of its
buckets, and keeps a record of what the steps do to it.

* `LimitedServer.step`: the transitions, with the verdicts of the limiter;
* `Charge`, `charges`: the checks and removals of a step;
* `buckets_mirrored`: a run of it is a run of the server, and the limiter has just the buckets
  that the state of the server lists;
* `episode`, `KeepsApart`: the checks of one bucket since its client was last cleaned up, and the
  verdicts of a bucket of its own;
* `verdicts_private`: in every run a client gets the verdicts that its own messages earn;
* `windows_limited`: in every window without a cleanup of the client, over all its
  connections, at most so many of its messages pass as the governor promises.
-/

namespace Dendri

open Meter Transition

/-- The server with its rate limiter, and the time of the last step. -/
structure LimitedServer (G : Governor) where
  server : World
  limiter : Limiter G
  clock : ℕ

/-- The bucket that a step charges. -/
def metered (cfg : Config) (w : World) (ev : Event) : Option (String × String) :=
  (incoming cfg w ev).bind fun (id, msg) => msg.type_.bucket.map fun bucket => (id, bucket)

/-- What a step does to the limiter. -/
inductive Charge where
  /-- A message is checked, at a time, with this verdict. -/
  | check (id bucket : String) (now : ℕ) (allowed : Bool)
  /-- The buckets of a client are removed. -/
  | forget (id : String)
  deriving DecidableEq

namespace LimitedServer

variable {G : Governor} (limits : RateLimits) (cfg : Config)

/-- The verdict of the limiter. -/
def verdict (s : LimitedServer G) (now : ℕ) (id bucket : String) : Bool :=
  (s.limiter.checkAndConsume now id bucket (limits.of bucket)).2

/-- The environment of a step, with the verdicts of the limiter. -/
def env (s : LimitedServer G) (l : Label) : Env :=
  { l.env with governorCheck := s.verdict limits l.env.now }

/-- The limiter after a step. -/
def charged (s : LimitedServer G) (l : Label) : Limiter G :=
  match metered cfg s.server l.event, cleanedUp s.server l.event with
  | some (id, bucket), _ => (s.limiter.checkAndConsume l.env.now id bucket (limits.of bucket)).1
  | none, some (_, K) => s.limiter.removeClient K.id
  | none, none => s.limiter

/-- The checks and removals of a step. -/
def charges (s : LimitedServer G) (l : Label) : List Charge :=
  match metered cfg s.server l.event, cleanedUp s.server l.event with
  | some (id, bucket), _ => [.check id bucket l.env.now (s.verdict limits l.env.now id bucket)]
  | none, some (_, K) => [.forget K.id]
  | none, none => []

/-- The transition function. The clock of the buckets is monotonic. -/
def step (s : LimitedServer G) (l : Label) : Option (LimitedServer G) :=
  if l.env.now < s.clock then none
  else (Dendri.step cfg s.server ⟨s.env limits l, l.event⟩).map fun w =>
    ⟨w, s.charged limits cfg l, l.env.now⟩

/-- An empty server. -/
def init (redis : Redis) : LimitedServer G := ⟨World.init cfg redis, Limiter.new, 0⟩

variable {limits cfg}

lemma step_eq_some {s s' : LimitedServer G} {l : Label} (h : s.step limits cfg l = some s') :
    s.clock ≤ l.env.now ∧ Dendri.step cfg s.server ⟨s.env limits l, l.event⟩ = some s'.server ∧
      s'.limiter = s.charged limits cfg l ∧ s'.clock = l.env.now := by
  rw [step] at h
  split_ifs at h with hclock
  obtain ⟨w, hw, hs⟩ := Option.map_eq_some_iff.mp h
  rw [← hs]
  exact ⟨not_lt.mp hclock, hw, rfl, rfl⟩

end LimitedServer

/-! ### The buckets of the state -/

lemma metered_eq_none {cfg : Config} {w : World} {ev : Event} (h : incoming cfg w ev = none) :
    metered cfg w ev = none := by
  rw [metered, h]
  rfl

/-- The buckets in the state after a step. -/
lemma buckets_of_step {cfg : Config} {w w' : World} {l : Label} (h : step cfg w l = some w') :
    w'.app.rateLimiter.buckets =
      match metered cfg w l.event, cleanedUp w l.event with
      | some key, _ => insert key w.app.rateLimiter.buckets
      | none, some (_, K) => w.app.rateLimiter.buckets.filter fun key => key.1 ≠ K.id
      | none, none => w.app.rateLimiter.buckets := by
  have ht := step_trans h
  obtain ⟨env, ev⟩ := l
  dsimp only at ht ⊢
  -- the steps that keep them
  have hkeep : ∀ u : World, incoming cfg w ev = none → cleanedUp w ev = none →
      u.app.rateLimiter.buckets = w.app.rateLimiter.buckets →
      u.app.rateLimiter.buckets =
        match metered cfg w ev, cleanedUp w ev with
        | some key, _ => insert key w.app.rateLimiter.buckets
        | none, some (_, K) => w.app.rateLimiter.buckets.filter fun key => key.1 ≠ K.id
        | none, none => w.app.rateLimiter.buckets := by
    intro u hin hdown hu
    rw [metered_eq_none hin, hdown]
    exact hu
  cases ht with
  | refused r why hout =>
      refine hkeep _ rfl rfl ?_
      dsimp only
      cases storedClaims env cfg r with
      | none => rfl
      | some claims => rfl
  | admitted r K s' hout hadm =>
      refine hkeep _ rfl rfl ?_
      cases hadm with
      | reconnect q K s' hK htransport hchan htoken hreg hrest =>
          exact congrArg Registry.buckets hreg
      | register q K s' hK htransport hchan htoken hslot hreg hmaps =>
          exact congrArg Registry.buckets hreg
      | stream q K s' hK htransport hchan hslot hreg hmaps =>
          exact congrArg Registry.buckets hreg
      | poll q K s' hK htransport hchan hslot hreg hmaps =>
          exact congrArg Registry.buckets hreg
  | message ev id msg s' hin hrec =>
      obtain ⟨hdown, -⟩ := only_of_incoming hin
      have hmetered : metered cfg w ev = msg.type_.bucket.map fun bucket => (id, bucket) := by
        rw [metered, hin]
        rfl
      rw [hmetered, hdown]
      ext ⟨x, bucket⟩
      rw [hrec.mem_buckets_iff]
      cases msg.type_.bucket with
      | none => simp
      | some b =>
          simp only [Option.map_some, Option.some.injEq, Finset.mem_insert, Prod.mk.injEq]
          rw [or_comm, eq_comm (a := b)]
  | socketClosed k K s' hdown hreg hun =>
      rw [hdown, metered_eq_none rfl]
      exact congrArg Registry.buckets hreg
  | streamCleaned ev k K s' f hev hdown hlater hclose hreg hun =>
      rw [hdown, metered_eq_none (only_of_cleanedUp cfg hdown).1]
      exact congrArg Registry.buckets hreg
  | evicted =>
      refine hkeep _ rfl rfl ?_
      refine (congrArg Registry.buckets (registry_evictBroken env cfg w.app).1).trans ?_
      exact (Registry.foldl_drop_drops _ _ "").2.2
  | reconciled => exact hkeep _ rfl rfl rfl
  | expired =>
      exact hkeep _ rfl rfl
        (congrArg Registry.buckets (registry_cleanupExpiredSessions env cfg w.app))
  | replayEvicted => exact hkeep _ rfl rfl rfl
  | quiet ev w' hin hdown hconnect hevict hreg hmaps hconns =>
      exact hkeep _ hin hdown (congrArg Registry.buckets hreg)

/-- The limiter has just the buckets that the state of the server lists. -/
def BucketsMirrored {G : Governor} (s : LimitedServer G) : Prop :=
  s.server.app.rateLimiter.buckets = s.limiter.buckets.keys

lemma BucketsMirrored.step {G : Governor} {limits : RateLimits} {cfg : Config}
    {s s' : LimitedServer G} {l : Label} (hs : BucketsMirrored s)
    (h : s.step limits cfg l = some s') : BucketsMirrored s' := by
  obtain ⟨-, hw, hlimiter, -⟩ := LimitedServer.step_eq_some h
  have hbuckets := buckets_of_step hw
  dsimp only at hbuckets
  rw [BucketsMirrored, hbuckets, hlimiter, LimitedServer.charged, hs]
  cases metered cfg s.server l.event with
  | some key => exact (Limiter.keys_checkAndConsume _ _ _ _ _).symm
  | none =>
      cases cleanedUp s.server l.event with
      | some k => exact (Limiter.keys_removeClient _ _).symm
      | none => rfl

/-! ### A bucket of its own -/

/-- The answer of one check to the messages of `id` in `bucket`. -/
def Charge.own (id bucket : String) : Charge → Option (ℕ × Bool)
  | check i b now allowed => if i = id ∧ b = bucket then some (now, allowed) else none
  | forget _ => none

/-- The checks of one bucket since its client was last cleaned up, after one more charge. -/
def Charge.extend (id bucket : String) (es : List (ℕ × Bool)) : Charge → List (ℕ × Bool)
  | check i b now allowed => if i = id ∧ b = bucket then es ++ [(now, allowed)] else es
  | forget i => if i = id then [] else es

/-- The checks of one bucket since its client was last cleaned up. -/
def episode (id bucket : String) (hist : List Charge) : List (ℕ × Bool) :=
  hist.foldl (Charge.extend id bucket) []

/-- A bucket that is made at the first of some times, and asked at all of them. -/
def privately (G : Governor) (limit : ℕ) : List ℕ → Option G.Bucket × List (ℕ × Bool)
  | [] => (none, [])
  | t :: ts =>
      let r := attempts G.check (G.direct limit t) (t :: ts)
      (some r.1, r.2)

lemma privately_concat (G : Governor) (limit : ℕ) (ts : List ℕ) (t : ℕ) :
    privately G limit (ts ++ [t]) =
      let r := G.check t ((privately G limit ts).1.getD (G.direct limit t))
      (some r.1, (privately G limit ts).2 ++ [(t, r.2)]) := by
  cases ts with
  | nil => rfl
  | cons t' ts =>
      rw [List.cons_append, privately, ← List.cons_append, attempts_append]
      rfl

/-- Without a cleanup of the client, a window of the record is a window of the episode. -/
lemma episode_append {id bucket : String} (before : List Charge) {during : List Charge}
    (h : .forget id ∉ during) : episode id bucket (before ++ during) =
      episode id bucket before ++ during.filterMap (Charge.own id bucket) := by
  induction during using List.reverseRecOn with
  | nil => rw [List.append_nil, List.filterMap_nil, List.append_nil]
  | append_singleton during c ih =>
      rw [List.mem_append, not_or, List.mem_singleton] at h
      rw [← List.append_assoc, episode, List.foldl_concat, ← episode, ih h.1, List.filterMap_append,
        ← List.append_assoc]
      cases c with
      | check i b now allowed =>
          rw [Charge.extend, List.filterMap_cons, Charge.own]
          split_ifs
          · rfl
          · exact (List.append_nil _).symm
      | forget i =>
          have hi : i ≠ id := fun hi => h.2 (by rw [hi])
          rw [Charge.extend, if_neg hi]
          exact (List.append_nil _).symm

section KeepsApart

variable {G : Governor} {limits : RateLimits} {cfg : Config}

/-- The limiter and the record agree with buckets that each have one client. -/
structure KeepsApart (limits : RateLimits) (s : LimitedServer G) (hist : List Charge) : Prop where
  own : ∀ id bucket, (s.limiter.buckets.lookup (id, bucket), episode id bucket hist) =
    privately G (nonZeroLimit (limits.of bucket)) ((episode id bucket hist).map Prod.fst)
  sorted : ∀ id bucket, ((episode id bucket hist).map Prod.fst).Pairwise (· ≤ ·)
  past : ∀ id bucket, ∀ t ∈ (episode id bucket hist).map Prod.fst, t ≤ s.clock

lemma episode_concat (id bucket : String) (hist : List Charge) (c : Charge) :
    episode id bucket (hist ++ [c]) = Charge.extend id bucket (episode id bucket hist) c := by
  rw [episode, List.foldl_concat, ← episode]

/-- A check of one bucket. -/
lemma KeepsApart.check {s s' : LimitedServer G} {hist : List Charge} (h : KeepsApart limits s hist)
    {id bucket : String} (hclock : s.clock ≤ s'.clock)
    (hlimiter : s'.limiter = (s.limiter.checkAndConsume s'.clock id bucket (limits.of bucket)).1) :
    KeepsApart limits s'
      (hist ++ [.check id bucket s'.clock (s.verdict limits s'.clock id bucket)]) := by
  have hown := h.own id bucket
  set es := episode id bucket hist with hes
  have hsnd : es = (privately G (nonZeroLimit (limits.of bucket)) (es.map Prod.fst)).2 :=
    congrArg Prod.snd hown
  have hfst : s.limiter.buckets.lookup (id, bucket) =
      (privately G (nonZeroLimit (limits.of bucket)) (es.map Prod.fst)).1 := congrArg Prod.fst hown
  have hlookup : ∀ i b, s'.limiter.buckets.lookup (i, b) =
      if (i, b) = (id, bucket) then some (G.check s'.clock
        ((s.limiter.buckets.lookup (id, bucket)).getD
          (G.direct (nonZeroLimit (limits.of bucket)) s'.clock))).1
      else s.limiter.buckets.lookup (i, b) := by
    intro i b
    rw [hlimiter]
    exact FinMap.lookup_insert_ite _ _ _ _
  have hep : ∀ i b, episode i b
      (hist ++ [.check id bucket s'.clock (s.verdict limits s'.clock id bucket)]) =
      if (i, b) = (id, bucket) then es ++ [(s'.clock, s.verdict limits s'.clock id bucket)]
      else episode i b hist := by
    intro i b
    rw [episode_concat, Charge.extend]
    by_cases hib : (i, b) = (id, bucket)
    · obtain ⟨rfl, rfl⟩ := Prod.mk.inj hib
      rw [if_pos ⟨rfl, rfl⟩, if_pos rfl]
    · rw [if_neg hib, if_neg fun heq => hib (by rw [heq.1, heq.2])]
  refine ⟨fun i b => ?_, fun i b => ?_, fun i b => ?_⟩
  · rw [hlookup, hep]
    by_cases hib : (i, b) = (id, bucket)
    · obtain ⟨rfl, rfl⟩ := Prod.mk.inj hib
      rw [if_pos rfl, if_pos rfl, List.map_append, List.map_singleton, privately_concat, ← hfst,
        ← hsnd]
      rfl
    · rw [if_neg hib, if_neg hib]
      exact h.own i b
  · rw [hep]
    split_ifs
    · rw [List.map_append, List.map_singleton, List.pairwise_append]
      refine ⟨h.sorted id bucket, List.pairwise_singleton _ _, fun t ht t' ht' => ?_⟩
      rw [List.mem_singleton.mp ht']
      exact (h.past id bucket t ht).trans hclock
    · exact h.sorted i b
  · rw [hep]
    split_ifs
    · rw [List.map_append, List.map_singleton]
      intro t ht
      rcases List.mem_append.mp ht with ht | ht
      · exact (h.past id bucket t ht).trans hclock
      · exact (List.mem_singleton.mp ht).le
    · exact fun t ht => (h.past i b t ht).trans hclock

/-- A removal of the buckets of one client. -/
lemma KeepsApart.forget {s s' : LimitedServer G} {hist : List Charge} (h : KeepsApart limits s hist)
    {id : String} (hclock : s.clock ≤ s'.clock) (hlimiter : s'.limiter = s.limiter.removeClient id) :
    KeepsApart limits s' (hist ++ [.forget id]) := by
  have hlookup : ∀ i b, s'.limiter.buckets.lookup (i, b) =
      if i = id then none else s.limiter.buckets.lookup (i, b) := by
    intro i b
    rw [hlimiter, Limiter.removeClient, FinMap.lookup_retain]
    by_cases hi : i = id <;> simp [hi]
  have hep : ∀ i b, episode i b (hist ++ [.forget id]) =
      if i = id then [] else episode i b hist := by
    intro i b
    rw [episode_concat, Charge.extend]
    simp only [eq_comm (a := id)]
  refine ⟨fun i b => ?_, fun i b => ?_, fun i b => ?_⟩
  · rw [hlookup, hep]
    split_ifs
    · rfl
    · exact h.own i b
  · rw [hep]
    split_ifs
    · exact List.Pairwise.nil
    · exact h.sorted i b
  · rw [hep]
    split_ifs
    · exact fun t ht => absurd ht (by simp)
    · exact fun t ht => (h.past i b t ht).trans hclock

/-- Every step keeps the agreement. -/
lemma KeepsApart.step {s s' : LimitedServer G} {hist : List Charge} {l : Label}
    (h : KeepsApart limits s hist) (hstep : s.step limits cfg l = some s') :
    KeepsApart limits s' (hist ++ s.charges limits cfg l) := by
  obtain ⟨hle, -, hlimiter, hclock⟩ := LimitedServer.step_eq_some hstep
  rw [LimitedServer.charged] at hlimiter
  rw [LimitedServer.charges]
  rw [← hclock] at hle hlimiter ⊢
  cases hmetered : metered cfg s.server l.event with
  | some key =>
      rw [hmetered] at hlimiter
      exact h.check hle hlimiter
  | none =>
      rw [hmetered] at hlimiter
      cases hdown : cleanedUp s.server l.event with
      | some k =>
          rw [hdown] at hlimiter
          exact h.forget hle hlimiter
      | none =>
          rw [hdown] at hlimiter
          dsimp only
          rw [List.append_nil]
          exact ⟨fun i b => by rw [hlimiter]; exact h.own i b, h.sorted,
            fun i b t ht => (h.past i b t ht).trans hle⟩

/-- The server with a record of the charges. -/
abbrev LimitedServer.run (limits : RateLimits) (cfg : Config) :=
  Transition.run (Transition.withRecord (LimitedServer.step (G := G) limits cfg)
    (LimitedServer.charges limits cfg))

lemma keepsApart_of_run {redis : Redis} {ls : List Label} {s : LimitedServer G} {hist : List Charge}
    (hrun : LimitedServer.run limits cfg (LimitedServer.init cfg redis, []) ls = some (s, hist)) :
    KeepsApart limits s hist := by
  have hinit : KeepsApart limits (LimitedServer.init (G := G) cfg redis) [] :=
    ⟨fun id bucket => rfl, fun id bucket => List.Pairwise.nil, fun id bucket t ht => absurd ht (by
      simp [episode])⟩
  refine run_induction (I := fun _ (x : LimitedServer G × List Charge) => KeepsApart limits x.1 x.2)
    hinit (fun _ x l y hx hy => ?_) hrun
  obtain ⟨s', hs', rfl⟩ := Option.map_eq_some_iff.mp hy
  exact hx.step hs'

/-- The same event, and the same answers from outside but for the verdicts. -/
def SameButVerdicts (l l' : Label) : Prop :=
  l'.event = l.event ∧ ∃ check, l'.env = { l.env with governorCheck := check }

/-- A run of the server with its limiter is a run of the server, and the state of the server
lists just the buckets of the limiter. -/
theorem buckets_mirrored {redis : Redis} {ls : List Label} {s : LimitedServer G}
    {hist : List Charge}
    (hrun : LimitedServer.run limits cfg (LimitedServer.init cfg redis, []) ls = some (s, hist)) :
    (∃ ls', Transition.run (Dendri.step cfg) (World.init cfg redis) ls' = some s.server ∧
      List.Forall₂ SameButVerdicts ls ls') ∧ BucketsMirrored s := by
  have hinit : BucketsMirrored (LimitedServer.init (G := G) cfg redis) := Finmap.keys_empty.symm
  refine run_induction (I := fun ls (x : LimitedServer G × List Charge) =>
    (∃ ls', Transition.run (Dendri.step cfg) (World.init cfg redis) ls' = some x.1.server ∧
      List.Forall₂ SameButVerdicts ls ls') ∧ BucketsMirrored x.1)
    ⟨⟨[], rfl, .nil⟩, hinit⟩ (fun ls x l y hx hy => ?_) hrun
  obtain ⟨⟨ls', hls', hsame⟩, hmirrored⟩ := hx
  obtain ⟨s', hs', rfl⟩ := Option.map_eq_some_iff.mp hy
  obtain ⟨-, hw, -, -⟩ := LimitedServer.step_eq_some hs'
  refine ⟨⟨ls' ++ [⟨x.1.env limits l, l.event⟩], run_concat.mpr ⟨_, hls', hw⟩, ?_⟩,
    hmirrored.step hs'⟩
  have hlast : SameButVerdicts l ⟨x.1.env limits l, l.event⟩ := ⟨rfl, _, rfl⟩
  exact List.rel_append hsame (.cons hlast .nil)

/-- In every run, whatever else is sent by whomever, the verdicts on the messages of a client
since its last cleanup are those of a bucket that was made for its first such message and is
asked about nothing else. -/
theorem verdicts_private {redis : Redis} {ls : List Label} {s : LimitedServer G}
    {hist : List Charge}
    (hrun : LimitedServer.run limits cfg (LimitedServer.init cfg redis, []) ls = some (s, hist))
    (id bucket : String) :
    episode id bucket hist = (privately G (nonZeroLimit (limits.of bucket))
      ((episode id bucket hist).map Prod.fst)).2 :=
  congrArg Prod.snd ((keepsApart_of_run hrun).own id bucket)

/-- In every window of a run in which the client is not cleaned up, at most as many of its
messages pass, over both transports and all its connections, as the governor promises for the
length of the window. -/
theorem windows_limited {bucket : String} {bound : ℕ → ℕ}
    (hbound : ∀ t, Within G.check (G.direct (nonZeroLimit (limits.of bucket)) t) bound)
    {redis : Redis} {ls : List Label} {s : LimitedServer G} {before during : List Charge}
    (hrun : LimitedServer.run limits cfg (LimitedServer.init cfg redis, []) ls =
      some (s, before ++ during)) {id : String} (hkept : .forget id ∉ during) :
    let own := during.filterMap (Charge.own id bucket)
    passed own ≤ bound (span own) := by
  have hprivate := keepsApart_of_run hrun
  have hown := congrArg Prod.snd (hprivate.own id bucket)
  have hsorted := hprivate.sorted id bucket
  have hsplit := @episode_append id bucket before _ hkept
  dsimp only at hown ⊢
  cases hts : (episode id bucket (before ++ during)).map Prod.fst with
  | nil =>
      rw [List.map_eq_nil_iff, hsplit, List.append_eq_nil_iff] at hts
      rw [hts.2]
      exact Nat.zero_le _
  | cons t ts =>
      rw [hts] at hown hsorted
      exact hbound t (t :: ts) _ _ hsorted (hown.symm.trans hsplit)

end KeepsApart

/-! ### A governor -/

/-- The generic cell rate algorithm in nanoseconds: a bucket is its period, its burst and the
time at which the next cell is due. -/
def Governor.gcra : Governor where
  Bucket := ℕ × ℕ × ℕ
  direct limit now := (10 ^ 9 / limit, limit, 10 ^ 6 * now)
  check now b :=
    let r := Meter.gcra (10 ^ 6) b.1 b.2.1 now b.2.2
    ((b.1, b.2.1, r.1), r.2)

/-- A second lets as many cells pass as the limit says, beside a burst of them. -/
lemma gcra_keeps {limit : ℕ} (hpos : 0 < limit) (hle : limit ≤ 10 ^ 9) (now : ℕ) :
    Within Governor.gcra.check (Governor.gcra.direct limit now) fun length =>
      limit + 10 ^ 6 * length / (10 ^ 9 / limit) := by
  have hattempts : ∀ (due : ℕ) (ts : List ℕ),
      (attempts Governor.gcra.check (10 ^ 9 / limit, limit, due) ts).2 =
        (attempts (Meter.gcra (10 ^ 6) (10 ^ 9 / limit) limit) due ts).2 := by
    intro due ts
    induction ts generalizing due with
    | nil => rfl
    | cons t ts ih => exact congrArg ((t, _) :: ·) (ih _)
  intro ts before during hsorted hsplit
  have hsplit' := (hattempts (10 ^ 6 * now) ts).symm.trans hsplit
  exact gcra_within (10 ^ 6) (10 ^ 9 / limit) limit (Nat.div_pos hle hpos) hpos _ ts before during
    hsorted hsplit'

/-- One message a second. -/
def tight : RateLimits := { data := 1 }

/-- `alice` sends two messages within a millisecond, and one a second later. -/
def chatter : List Label :=
  let data : Message := { type_ := .DATA, dst := some "bob" }
  [⟨Env.quiet 1000, .connect (Params.plain "alice" "tok").ws⟩, ⟨Env.quiet 2000, .say 0 data⟩,
    ⟨Env.quiet 2001, .say 0 data⟩, ⟨Env.quiet 3000, .say 0 data⟩]

/-- The second message does not pass. -/
def chatterCharges : List Charge :=
  [.check "alice" "data" 2000 true, .check "alice" "data" 2001 false,
    .check "alice" "data" 3000 true]

/-- The run of it. -/
def chatterRun : Option (LimitedServer Governor.gcra × List Charge) :=
  LimitedServer.run tight {} (LimitedServer.init {} Redis.empty, []) chatter

lemma chatterRun_eq : ∃ s, chatterRun = some (s, chatterCharges) := by
  have hsome : chatterRun.isSome = true := by decide
  have hcharges : chatterRun.map Prod.snd = some chatterCharges := by decide
  rw [← Option.some_get hsome, Option.map_some, Option.some.injEq] at hcharges
  refine ⟨(chatterRun.get hsome).1, ?_⟩
  rw [← hcharges]
  exact (Option.some_get hsome).symm

theorem buckets_mirrored_alice : ∃ s, chatterRun = some (s, chatterCharges) ∧
    (∃ ls', Transition.run (Dendri.step {}) (World.init {} Redis.empty) ls' = some s.server ∧
      List.Forall₂ SameButVerdicts chatter ls') ∧ BucketsMirrored s := by
  obtain ⟨s, hs⟩ := chatterRun_eq
  exact ⟨s, hs, buckets_mirrored hs⟩

theorem verdicts_private_alice :
    episode "alice" "data" chatterCharges =
      (privately Governor.gcra 1 ((episode "alice" "data" chatterCharges).map Prod.fst)).2 := by
  obtain ⟨s, hs⟩ := chatterRun_eq
  exact verdicts_private hs "alice" "data"

theorem windows_limited_alice :
    passed (chatterCharges.filterMap (Charge.own "alice" "data")) ≤
      1 + 10 ^ 6 * span (chatterCharges.filterMap (Charge.own "alice" "data")) / 10 ^ 9 := by
  obtain ⟨s, hs⟩ := chatterRun_eq
  have hrun : LimitedServer.run tight {} (LimitedServer.init {} Redis.empty, []) chatter =
      some (s, [] ++ chatterCharges) := hs
  exact @windows_limited Governor.gcra tight {} "data" _ (gcra_keeps (by decide) (by decide)) _ _ _
    _ _ hrun "alice" (by decide)

end Dendri
