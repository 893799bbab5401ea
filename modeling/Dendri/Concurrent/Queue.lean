import Dendri.Concurrent.Mailbox

/-!
What becomes of a queued message when senders, deliveries and expiry passes
work on the queue at the same time.

* `SettledOnce`: a pushed message is in exactly one of the three situations:
  delivered once, still queued, or its sender told of the expiry;
* `Undisturbed`: the condition on a step: no push and no second read between a
  read of the queue and the clear that follows it, and senders that are there;
* `Acts`, `Kept`: what a step can do, and the state of the queue it keeps;
* `queued_settled`: in a run of undisturbed steps every pushed message is
  settled once.
-/

namespace Dendri

open AppState Transition

/-! ### Where a pushed message is -/

section Settled

variable {ι : Type} [DecidableEq ι] (dstId : String) (call : ι → Call)

/-- The channels the message of call `j` was put on, one for each time. -/
def Mailbox.relayedOn (m : Mailbox ι) (j : ι) : List ℕ :=
  m.posts.filterMap fun p => if p.2 = .relay j then some p.1 else none

/-- The message was put on a channel of the destination, once. -/
def Delivered (w : Mailbox ι × (ι → CallPhase ι)) (j : ι) : Prop :=
  ∃ c k, w.1.relayedOn j = [c] ∧ call k = .deliver c

/-- The senders told of an expiry include the sender of message `j`. -/
def Tells (m : Mailbox ι) (told : List (String × ℕ)) (j : ι) : Prop :=
  ∃ c, (srcOf call j, c) ∈ told ∧ (c, Post.expire dstId (srcOf call j)) ∈ m.posts

/-- An expiry pass that took the message off the queue has put an `EXPIRE` on
the channel of its sender. -/
def Covered (w : Mailbox ι × (ι → CallPhase ι)) (j : ι) : Prop :=
  ∃ k done told, w.2 k = .expired done told ∧ j ∈ done ∧ Tells dstId call w.1 told j

/-- The message is in exactly one of the three situations: put on one of the
destination's channels, once; in the queue; covered by an `EXPIRE`. -/
def SettledOnce (w : Mailbox ι × (ι → CallPhase ι)) (j : ι) : Prop :=
  (Delivered call w j ∧ j ∉ w.1.queue ∧ ¬Covered dstId call w j) ∨
    (w.1.relayedOn j = [] ∧ w.1.queue.count j = 1 ∧ ¬Covered dstId call w j) ∨
    (w.1.relayedOn j = [] ∧ j ∉ w.1.queue ∧ Covered dstId call w j)

/-- What a call has read from the queue and not cleared yet. -/
def CallPhase.holds : CallPhase ι → Option (List ι)
  | .relaying sent rest => some (sent ++ rest)
  | .expiring done rest _ _ => some (done ++ rest)
  | _ => none

/-- The call has sent the message of `j` and not cleared the queue yet. -/
def CallPhase.HasSent : CallPhase ι → ι → Prop
  | .relaying sent _, j => j ∈ sent
  | _, _ => False

/-- The call is in the middle of its work. -/
def CallPhase.InProgress : CallPhase ι → Prop
  | .start | .pushed | .expired _ _ | .ended => False
  | _ => True

/-- The condition on a step: a message is pushed, and messages are read, only
while no call is between its read of the queue and its clear, and the sender
of an expired message has a channel when it is to be told. -/
def Undisturbed (w : Mailbox ι × (ι → CallPhase ι)) (e : ι × ℤ) : Prop :=
  match w.2 e.1 with
  | .offline => ∀ k, (w.2 k).holds = none
  | .touched => w.1.queue ≠ [] → ∀ k, (w.2 k).holds = none
  | .expiring _ (i :: _) seen _ =>
      srcOf call i ++ "_" ++ dstOf call i ∈ seen ∨ (w.1.wsSenders.lookup (srcOf call i)).isSome
  | _ => True

instance [Fintype ι] (w : Mailbox ι × (ι → CallPhase ι)) (e : ι × ℤ) :
    Decidable (Undisturbed call w e) :=
  match h : w.2 e.1 with
  | .offline => decidable_of_iff (∀ k, (w.2 k).holds = none) (by rw [Undisturbed, h])
  | .touched =>
      decidable_of_iff (w.1.queue ≠ [] → ∀ k, (w.2 k).holds = none) (by rw [Undisturbed, h])
  | .expiring _ (i :: _) seen _ =>
      decidable_of_iff (srcOf call i ++ "_" ++ dstOf call i ∈ seen ∨
        (w.1.wsSenders.lookup (srcOf call i)).isSome) (by rw [Undisturbed, h])
  | .expiring _ [] _ _ => isTrue (by rw [Undisturbed, h]; trivial)
  | .start | .pushed | .listed _ | .stale | .relaying _ _ | .expired _ _ | .ended =>
      isTrue (by rw [Undisturbed, h]; trivial)

/-! ### What a step can do -/

/-- The call has neither read the queue nor found the destination absent. -/
def CallPhase.Early : CallPhase ι → Prop
  | .start | .listed _ | .stale | .touched => True
  | _ => False

/-- What the next step of the call `k` does to the queue and the channels. -/
inductive Acts (w : Mailbox ι × (ι → CallPhase ι)) (k : ι) :
    Mailbox ι × CallPhase ι → Prop where
  /-- A step that neither the queue nor a channel takes part in. -/
  | quiet {m' : Mailbox ι} {p' : CallPhase ι} (hqueue : m'.queue = w.1.queue)
      (hposts : m'.posts = w.1.posts) (hp : (w.2 k).Early)
      (hp' : (p' = .offline ∧ w.2 k = .start) ∨ p' = .ended ∨ (p'.Early ∧ p' ≠ .start)) :
      Acts w k (m', p')
  /-- The destination is there. -/
  | direct (c : ℕ) (hp : w.2 k = .start) : Acts w k (w.1.post c (.relay k), .ended)
  | push {msg : Message} (now : ℤ) (hcall : call k = .transmit msg) (hp : w.2 k = .offline) :
      Acts w k (w.1.addMessageToQueue now k, .pushed)
  | readDeliver (c : ℕ) (hcall : call k = .deliver c) (hp : w.2 k = .touched)
      (hqueue : w.1.queue ≠ []) : Acts w k (w.1, .relaying [] w.1.queue)
  | readExpire (hp : w.2 k = .touched) : Acts w k (w.1, .expiring [] w.1.queue [] [])
  | relay {c : ℕ} {sent rest : List ι} {i : ι} (hcall : call k = .deliver c)
      (hp : w.2 k = .relaying sent (i :: rest)) :
      Acts w k (w.1.post c (.relay i), .relaying (sent ++ [i]) rest)
  | tell {done rest : List ι} {i : ι} {seen : List String} {told : List (String × ℕ)} {c : ℕ}
      (hp : w.2 k = .expiring done (i :: rest) seen told)
      (hseen : srcOf call i ++ "_" ++ dstOf call i ∉ seen)
      (hsender : w.1.wsSenders.lookup (srcOf call i) = some c) :
      Acts w k (w.1.post c (.expire (dstOf call i) (srcOf call i)),
        .expiring (done ++ [i]) rest ((srcOf call i ++ "_" ++ dstOf call i) :: seen)
          ((srcOf call i, c) :: told))
  | skip {done rest : List ι} {i : ι} {seen : List String} {told : List (String × ℕ)}
      (hp : w.2 k = .expiring done (i :: rest) seen told)
      (hseen : srcOf call i ++ "_" ++ dstOf call i ∈ seen) :
      Acts w k (w.1, .expiring (done ++ [i]) rest seen told)
  | clearDeliver {sent : List ι} (hp : w.2 k = .relaying sent []) :
      Acts w k (w.1.clearMessageQueue, .ended)
  | clearExpire {done : List ι} {seen : List String} {told : List (String × ℕ)}
      (hp : w.2 k = .expiring done [] seen told) :
      Acts w k (w.1.clearMessageQueue, .expired done told)

variable {dstId call} {cfg : Config} {w w' : Mailbox ι × (ι → CallPhase ι)} {k : ι} {now : ℤ}

omit [DecidableEq ι] in
/-- Every step does one of these, if the senders to be told are there. -/
lemma acts_of_callStep {r : Mailbox ι × CallPhase ι} (hund : Undisturbed call w (k, now))
    (hstep : callStep cfg dstId call now k w.1 (w.2 k) = some r) : Acts call w k r := by
  rw [Undisturbed] at hund
  cases hcall : call k with
  | transmit msg =>
      cases hp : w.2 k <;> simp only [callStep, hcall, hp, reduceCtorEq] at hstep
      case start =>
        split at hstep
        · rename_i c hc
          obtain rfl := Option.some.inj hstep
          exact .direct c hp
        · split at hstep
          all_goals
            obtain rfl := Option.some.inj hstep
            exact .quiet rfl rfl (by simp [hp, CallPhase.Early]) (by simp [hp])
      case offline =>
        obtain rfl := Option.some.inj hstep
        exact .push now hcall hp
  | deliver c =>
      cases hp : w.2 k <;> simp only [callStep, hcall, hp, reduceCtorEq] at hstep
      case start =>
        obtain rfl := Option.some.inj hstep
        exact .quiet rfl rfl (by simp [hp, CallPhase.Early]) (by simp [CallPhase.Early])
      case touched =>
        split at hstep
        · obtain rfl := Option.some.inj hstep
          exact .quiet rfl rfl (by simp [hp, CallPhase.Early]) (by simp)
        · rename_i hqueue
          obtain rfl := Option.some.inj hstep
          exact .readDeliver c hcall hp hqueue
      case relaying sent rest =>
        cases rest with
        | nil =>
            obtain rfl := Option.some.inj hstep
            exact .clearDeliver hp
        | cons i rest =>
            obtain rfl := Option.some.inj hstep
            exact .relay hcall hp
  | expire =>
      cases hp : w.2 k <;> simp only [callStep, hcall, hp, reduceCtorEq] at hstep hund
      case start =>
        split at hstep
        all_goals
          obtain rfl := Option.some.inj hstep
          exact .quiet rfl rfl (by simp [hp, CallPhase.Early]) (by simp [CallPhase.Early])
      case listed =>
        split at hstep
        all_goals
          obtain rfl := Option.some.inj hstep
          exact .quiet rfl rfl (by simp [hp, CallPhase.Early]) (by simp [CallPhase.Early])
      case stale =>
        obtain rfl := Option.some.inj hstep
        exact .quiet rfl rfl (by simp [hp, CallPhase.Early]) (by simp [CallPhase.Early])
      case touched =>
        obtain rfl := Option.some.inj hstep
        exact .readExpire hp
      case expiring done rest seen told =>
        cases rest with
        | nil =>
            obtain rfl := Option.some.inj hstep
            exact .clearExpire hp
        | cons i rest =>
            dsimp only at hstep hund
            split at hstep
            · rename_i hseen
              obtain rfl := Option.some.inj hstep
              exact .skip hp hseen
            · rename_i hseen
              obtain ⟨c, hsender⟩ := Option.isSome_iff_exists.mp (hund.resolve_left hseen)
              rw [hsender] at hstep
              obtain rfl := Option.some.inj hstep
              exact .tell hp hseen hsender
  | register id c =>
      cases hp : w.2 k <;> simp only [callStep, hcall, hp, reduceCtorEq] at hstep
      obtain rfl := Option.some.inj hstep
      exact .quiet rfl rfl (by simp [hp, CallPhase.Early]) (by simp)
  | unregister id =>
      cases hp : w.2 k <;> simp only [callStep, hcall, hp, reduceCtorEq] at hstep
      obtain rfl := Option.some.inj hstep
      exact .quiet rfl rfl (by simp [hp, CallPhase.Early]) (by simp)

/-! ### The invariant -/

/-- An expiry pass took the message off the queue. -/
def TakenOff (w : Mailbox ι × (ι → CallPhase ι)) (j : ι) : Prop :=
  ∃ k done told, w.2 k = .expired done told ∧ j ∈ done

variable (dstId call)

/-- The account of one message: where it is while calls are at work. -/
inductive Account (w : Mailbox ι × (ι → CallPhase ι)) (j : ι) : Prop where
  | unsent (hphase : w.2 j = .start ∨ w.2 j = .offline) (hqueue : j ∉ w.1.queue)
      (hrelayed : w.1.relayedOn j = []) (hexpired : ¬TakenOff w j)
  /-- Not a message that was pushed. -/
  | other (hphase : w.2 j ≠ .start ∧ w.2 j ≠ .offline ∧ w.2 j ≠ .pushed)
  | waiting (hphase : w.2 j = .pushed) (hqueue : j ∈ w.1.queue)
      (hrelayed : w.1.relayedOn j = [])
      (hsent : ∀ k, ¬(w.2 k).HasSent j) (hexpired : ¬TakenOff w j)
  /-- Sent by a delivery that has not cleared the queue yet. -/
  | sent {k : ι} {c : ℕ} (hphase : w.2 j = .pushed) (hqueue : j ∈ w.1.queue)
      (hsent : (w.2 k).HasSent j) (hcall : call k = .deliver c)
      (hrelayed : w.1.relayedOn j = [c]) (hexpired : ¬TakenOff w j)
  | delivered {k : ι} {c : ℕ} (hphase : w.2 j = .pushed) (hqueue : j ∉ w.1.queue)
      (hcall : call k = .deliver c) (hrelayed : w.1.relayedOn j = [c]) (hexpired : ¬TakenOff w j)
  | expired (hphase : w.2 j = .pushed) (hqueue : j ∉ w.1.queue)
      (hrelayed : w.1.relayedOn j = []) (hexpired : TakenOff w j)

/-- The senders of the messages an expiry pass has gone through are told. -/
def ToldAll (m : Mailbox ι) : CallPhase ι → Prop
  | .expiring done _ seen told =>
      (∀ j ∈ done, Tells dstId call m told j) ∧
        ∀ j, srcOf call j ++ "_" ++ dstId ∈ seen → Tells dstId call m told j
  | .expired done told => ∀ j ∈ done, Tells dstId call m told j
  | _ => True

/-- The state of the queue while undisturbed calls are at work. -/
structure Kept (w : Mailbox ι × (ι → CallPhase ι)) : Prop where
  nodup : w.1.queue.Nodup
  queued : ∀ j ∈ w.1.queue, w.2 j = .pushed
  transmits : ∀ j, w.2 j = .pushed → ∃ msg, call j = .transmit msg
  held : ∀ k l, (w.2 k).holds = some l → w.1.queue = l
  alone : w.1.queue ≠ [] → ∀ k k', (w.2 k).holds ≠ none → (w.2 k').holds ≠ none → k = k'
  account : ∀ j, Account call w j
  told : ∀ k, ToldAll dstId call w.1 (w.2 k)

variable {dstId call}

@[simp] lemma relayedOn_post_relay_self (m : Mailbox ι) (c : ℕ) (j : ι) :
    (m.post c (.relay j)).relayedOn j = m.relayedOn j ++ [c] := by
  simp [Mailbox.relayedOn, Mailbox.post]

@[simp] lemma relayedOn_post_relay_ne (m : Mailbox ι) (c : ℕ) {i j : ι} (h : i ≠ j) :
    (m.post c (.relay i)).relayedOn j = m.relayedOn j := by
  simp [Mailbox.relayedOn, Mailbox.post, h]

@[simp] lemma relayedOn_post_expire (m : Mailbox ι) (c : ℕ) (src dst : String) (j : ι) :
    (m.post c (.expire src dst)).relayedOn j = m.relayedOn j := by
  simp [Mailbox.relayedOn, Mailbox.post]

omit [DecidableEq ι] in
lemma not_hasSent_of_holds {p : CallPhase ι} (h : p.holds = none) (j : ι) : ¬p.HasSent j := by
  cases p <;> simp_all [CallPhase.holds, CallPhase.HasSent]

/-- A step to and from phases other than `expired` expires nothing. -/
lemma expired_update {m' : Mailbox ι} {p' : CallPhase ι} {j : ι}
    (hp : ∀ done told, w.2 k ≠ .expired done told) (hp' : ∀ done told, p' ≠ .expired done told) :
    TakenOff (m', Function.update w.2 k p') j ↔ TakenOff w j := by
  constructor
  · rintro ⟨i, done, told, hi, hj⟩
    dsimp only at hi
    by_cases hik : i = k
    · subst hik
      rw [Function.update_self] at hi
      exact absurd hi (hp' done told)
    · rw [Function.update_of_ne hik] at hi
      exact ⟨i, done, told, hi, hj⟩
  · rintro ⟨i, done, told, hi, hj⟩
    have hik : i ≠ k := by
      rintro rfl
      exact hp done told hi
    exact ⟨i, done, told, (Function.update_of_ne hik _ _).trans hi, hj⟩

omit [DecidableEq ι] in
lemma Tells.mono {m m' : Mailbox ι} {told told' : List (String × ℕ)} {j : ι}
    (h : Tells dstId call m told j) (hposts : m.posts ⊆ m'.posts) (htold : told ⊆ told') :
    Tells dstId call m' told' j := by
  obtain ⟨c, hc, hpost⟩ := h
  exact ⟨c, htold hc, hposts hpost⟩

omit [DecidableEq ι] in
lemma ToldAll.mono {m m' : Mailbox ι} {p : CallPhase ι} (h : ToldAll dstId call m p)
    (hposts : m.posts ⊆ m'.posts) : ToldAll dstId call m' p := by
  cases p with
  | expiring done rest seen told =>
      exact ⟨fun j hj => (h.1 j hj).mono hposts (List.Subset.refl _),
        fun j hj => (h.2 j hj).mono hposts (List.Subset.refl _)⟩
  | expired done told => exact fun j hj => (h j hj).mono hposts (List.Subset.refl _)
  | start | offline | pushed | listed | stale | touched | relaying | ended => trivial

/-- The account of a message, after a step of another call that does not move
it. -/
lemma Account.frame {m' : Mailbox ι} {p' : CallPhase ι} {j : ι} (h : Account call w j)
    (hjk : j ≠ k) (hqueue : j ∈ m'.queue ↔ j ∈ w.1.queue)
    (hrelayed : m'.relayedOn j = w.1.relayedOn j) (hsent : p'.HasSent j ↔ (w.2 k).HasSent j)
    (hexp : TakenOff (m', Function.update w.2 k p') j ↔ TakenOff w j) :
    Account call (m', Function.update w.2 k p') j := by
  have hphase : (m', Function.update w.2 k p').2 j = w.2 j := Function.update_of_ne hjk _ _
  have hsame : ∀ i, ((m', Function.update w.2 k p').2 i).HasSent j ↔ (w.2 i).HasSent j :=
    Interleave.forall_update (P := fun i p => CallPhase.HasSent p j ↔ (w.2 i).HasSent j) hsent
      fun _ _ => Iff.rfl
  cases h with
  | unsent h₁ h₂ h₃ h₄ =>
      exact .unsent (by rwa [hphase]) (by rwa [hqueue]) (by rwa [hrelayed]) (by rwa [hexp])
  | other h₁ => exact .other (by rwa [hphase])
  | waiting h₁ h₂ h₃ h₄ h₅ =>
      refine .waiting (by rwa [hphase]) (by rwa [hqueue]) (by rwa [hrelayed]) (fun i => ?_)
        (by rwa [hexp])
      rw [hsame]
      exact h₄ i
  | @sent i c h₁ h₂ h₃ h₄ h₅ h₆ =>
      exact .sent (by rwa [hphase]) (by rwa [hqueue]) ((hsame i).mpr h₃) h₄ (by rwa [hrelayed])
        (by rwa [hexp])
  | delivered h₁ h₂ h₃ h₄ h₅ =>
      exact .delivered (by rwa [hphase]) (by rwa [hqueue]) h₃ (by rwa [hrelayed]) (by rwa [hexp])
  | expired h₁ h₂ h₃ h₄ =>
      exact .expired (by rwa [hphase]) (by rwa [hqueue]) (by rwa [hrelayed]) (by rwa [hexp])

/-- A message that is neither sent nor pushed yet. -/
lemma Kept.unsent (h : Kept dstId call w) {j : ι} (hphase : w.2 j = .start ∨ w.2 j = .offline) :
    j ∉ w.1.queue ∧ w.1.relayedOn j = [] ∧ ¬TakenOff w j := by
  rcases h.account j with ⟨-, h₁, h₂, h₃⟩ | ⟨h₁⟩ | ⟨h₁⟩ | ⟨h₁⟩ | ⟨h₁⟩ | ⟨h₁⟩
  · exact ⟨h₁, h₂, h₃⟩
  all_goals simp_all

/-- A step that leaves the queue as it is. -/
lemma Kept.update (h : Kept dstId call w) {m' : Mailbox ι} {p' : CallPhase ι}
    (hqueue : m'.queue = w.1.queue) (hposts : w.1.posts ⊆ m'.posts) (hpk : w.2 k ≠ .pushed)
    (hpk' : p' ≠ .pushed) (hheld : ∀ l, p'.holds = some l → w.1.queue = l)
    (halone : w.1.queue ≠ [] → ∀ i i', (Function.update w.2 k p' i).holds ≠ none →
      (Function.update w.2 k p' i').holds ≠ none → i = i')
    (haccount : ∀ j, Account call (m', Function.update w.2 k p') j)
    (htold : ToldAll dstId call m' p') :
    Kept dstId call (m', Function.update w.2 k p') where
  nodup := by
    rw [hqueue]
    exact h.nodup
  queued j hj := by
    rw [hqueue] at hj
    have hpushed := h.queued j hj
    have hjk : j ≠ k := by
      rintro rfl
      exact hpk hpushed
    exact (Function.update_of_ne hjk _ _).trans hpushed
  transmits j hj := by
    by_cases hjk : j = k
    · subst hjk
      exact absurd ((Function.update_self ..).symm.trans hj) hpk'
    · exact h.transmits j ((Function.update_of_ne hjk _ _).symm.trans hj)
  held := by
    rw [hqueue]
    exact Interleave.forall_update
      (P := fun _ p => ∀ l, CallPhase.holds p = some l → w.1.queue = l) hheld fun j _ => h.held j
  alone := by
    rw [hqueue]
    exact halone
  account := haccount
  told := Interleave.forall_update (P := fun _ p => ToldAll dstId call m' p) htold
    fun j _ => (h.told j).mono hposts

/-- A step that leaves the queue as it is, and what the call holds of it. -/
lemma Kept.same_queue (h : Kept dstId call w) {m' : Mailbox ι} {p' : CallPhase ι}
    (hqueue : m'.queue = w.1.queue) (hposts : w.1.posts ⊆ m'.posts)
    (hholds : p'.holds = (w.2 k).holds) (hpk : w.2 k ≠ .pushed) (hpk' : p' ≠ .pushed)
    (haccount : ∀ j, Account call (m', Function.update w.2 k p') j)
    (htold : ToldAll dstId call m' p') :
    Kept dstId call (m', Function.update w.2 k p') := by
  have hsame : ∀ i, (Function.update w.2 k p' i).holds = (w.2 i).holds :=
    Interleave.forall_update (P := fun i p => CallPhase.holds p = (w.2 i).holds) hholds
      fun _ _ => rfl
  refine h.update hqueue hposts hpk hpk' ?_ ?_ haccount htold
  · rw [hholds]
    exact h.held k
  · simp only [hsame]
    exact h.alone

/-- A step that neither the queue nor a channel takes part in. -/
lemma Kept.quiet (h : Kept dstId call w) {m' : Mailbox ι} {p' : CallPhase ι}
    (hqueue : m'.queue = w.1.queue) (hposts : m'.posts = w.1.posts) (hp : (w.2 k).Early)
    (hp' : (p' = .offline ∧ w.2 k = .start) ∨ p' = .ended ∨ (p'.Early ∧ p' ≠ .start)) :
    Kept dstId call (m', Function.update w.2 k p') := by
  have hrelayed : ∀ j, m'.relayedOn j = w.1.relayedOn j := fun j => by
    rw [Mailbox.relayedOn, hposts, Mailbox.relayedOn]
  have hfree : (w.2 k).holds = none ∧ w.2 k ≠ .pushed ∧
      (∀ done told, w.2 k ≠ .expired done told) ∧ ∀ j, ¬(w.2 k).HasSent j := by
    revert hp
    cases w.2 k <;> simp [CallPhase.Early, CallPhase.holds, CallPhase.HasSent]
  have hfree' : p'.holds = none ∧ p' ≠ .pushed ∧ p' ≠ .start ∧
      (∀ done told, p' ≠ .expired done told) ∧ ∀ j, ¬p'.HasSent j := by
    rcases hp' with ⟨rfl, -⟩ | rfl | ⟨hearly, hstart⟩
    · simp [CallPhase.holds, CallPhase.HasSent]
    · simp [CallPhase.holds, CallPhase.HasSent]
    · revert hearly hstart
      cases p' <;> simp [CallPhase.Early, CallPhase.holds, CallPhase.HasSent]
  refine h.same_queue hqueue (by rw [hposts]; exact List.Subset.refl _) (by rw [hfree.1, hfree'.1])
    hfree.2.1 hfree'.2.1 (fun j => ?_) ?_
  · by_cases hjk : j = k
    · subst hjk
      rcases hp' with ⟨rfl, hstart⟩ | hp'
      · obtain ⟨h₁, h₂, h₃⟩ := h.unsent (.inl hstart)
        refine .unsent (.inr (Function.update_self ..)) (by rwa [hqueue]) (by rwa [hrelayed]) ?_
        rwa [expired_update hfree.2.2.1 hfree'.2.2.2.1]
      · have hnot : p' ≠ .offline := by
          rcases hp' with rfl | ⟨hearly, -⟩
          · simp
          · rintro rfl
            exact hearly
        refine .other ?_
        simp only [Function.update_self]
        exact ⟨hfree'.2.2.1, hnot, hfree'.2.1⟩
    · exact (h.account j).frame hjk (by rw [hqueue]) (hrelayed j)
        (iff_of_false (hfree'.2.2.2.2 j) (hfree.2.2.2 j))
        (expired_update hfree.2.2.1 hfree'.2.2.2.1)
  · revert hfree'
    cases p' <;> simp [CallPhase.holds, ToldAll]

/-- The destination has a sender: the message is not queued. -/
lemma Kept.direct (h : Kept dstId call w) {c : ℕ} (hp : w.2 k = .start) :
    Kept dstId call (w.1.post c (.relay k), Function.update w.2 k .ended) := by
  refine h.same_queue rfl (List.subset_append_left _ _) (by rw [hp]; rfl) (by simp [hp]) (by simp)
    (fun j => ?_) trivial
  by_cases hjk : j = k
  · subst hjk
    exact .other (by simp)
  · exact (h.account j).frame hjk Iff.rfl (relayedOn_post_relay_ne _ _ (Ne.symm hjk))
      (by simp [hp, CallPhase.HasSent]) (expired_update (by simp [hp]) (by simp))

/-- A push while no call holds the queue. -/
lemma Kept.push (h : Kept dstId call w) {msg : Message} (hcall : call k = .transmit msg)
    (hp : w.2 k = .offline) (hfree : ∀ i, (w.2 i).holds = none) :
    Kept dstId call (w.1.addMessageToQueue now k, Function.update w.2 k .pushed) := by
  obtain ⟨hqueue, hrelayed, hexpired⟩ := h.unsent (.inr hp)
  have hfree' : ∀ i, (Function.update w.2 k .pushed i).holds = none :=
    Interleave.forall_update (P := fun _ p => CallPhase.holds p = none) rfl fun i _ => hfree i
  constructor
  case nodup =>
    refine List.Nodup.append h.nodup (List.nodup_singleton k) ?_
    rw [List.disjoint_singleton]
    exact hqueue
  case queued =>
    intro j hj
    rcases List.mem_append.mp hj with hold | hnew
    · have hjk : j ≠ k := by
        rintro rfl
        exact hqueue hold
      exact (Function.update_of_ne hjk _ _).trans (h.queued j hold)
    · rw [List.mem_singleton.mp hnew]
      exact Function.update_self ..
  case transmits =>
    intro j hj
    by_cases hjk : j = k
    · rw [hjk]
      exact ⟨msg, hcall⟩
    · exact h.transmits j ((Function.update_of_ne hjk _ _).symm.trans hj)
  case held =>
    intro i l hl
    rw [hfree' i] at hl
    exact absurd hl (by simp)
  case alone => exact fun _ i _ hi => absurd (hfree' i) hi
  case account =>
    intro j
    by_cases hjk : j = k
    · subst hjk
      refine .waiting (Function.update_self ..)
        (List.mem_append_right _ (List.mem_singleton_self _)) hrelayed
        (fun i => not_hasSent_of_holds (hfree' i) j)
        (by rwa [expired_update (by simp [hp]) (by simp)])
    · refine (h.account j).frame hjk ?_ rfl (by simp [hp, CallPhase.HasSent])
        (expired_update (by simp [hp]) (by simp))
      simp [Mailbox.addMessageToQueue, hjk]
  case told =>
    exact Interleave.forall_update (P := fun _ p => ToldAll dstId call _ p) trivial
      fun j _ => (h.told j).mono (List.Subset.refl _)

/-- A read of the queue by the call `k`, which now holds all of it. -/
lemma Kept.read (h : Kept dstId call w) {p' : CallPhase ι} (hp : w.2 k = .touched)
    (hp' : p' = .relaying [] w.1.queue ∨ p' = .expiring [] w.1.queue [] [])
    (hfree : w.1.queue ≠ [] → ∀ i, (w.2 i).holds = none) :
    Kept dstId call (w.1, Function.update w.2 k p') := by
  have hholds : p'.holds = some w.1.queue := by
    rcases hp' with rfl | rfl <;> rfl
  have hplain : p' ≠ .start ∧ p' ≠ .offline ∧ p' ≠ .pushed ∧
      ∀ done told, p' ≠ .expired done told := by
    rcases hp' with rfl | rfl <;> simp
  refine h.update rfl (List.Subset.refl _) (by simp [hp]) hplain.2.2.1 ?_ ?_ (fun j => ?_) ?_
  · intro l hl
    exact Option.some.inj (hholds.symm.trans hl)
  · intro hne
    have honly : ∀ i, (Function.update w.2 k p' i).holds ≠ none → i = k := by
      intro i hi
      by_contra hik
      rw [Function.update_of_ne hik] at hi
      exact hi (hfree hne i)
    exact fun i i' hi hi' => (honly i hi).trans (honly i' hi').symm
  · by_cases hjk : j = k
    · subst hjk
      refine .other ?_
      simp only [Function.update_self]
      exact ⟨hplain.1, hplain.2.1, hplain.2.2.1⟩
    · refine (h.account j).frame hjk Iff.rfl rfl ?_
        (expired_update (by simp [hp]) hplain.2.2.2)
      rcases hp' with rfl | rfl <;> simp [hp, CallPhase.HasSent]
  · rcases hp' with rfl | rfl <;> simp [ToldAll]

/-- The message a delivery sends next is waiting. -/
lemma Kept.waiting_of_relaying (h : Kept dstId call w) {sent rest : List ι} {i : ι}
    (hp : w.2 k = .relaying sent (i :: rest)) :
    w.2 i = .pushed ∧ i ∈ w.1.queue ∧ w.1.relayedOn i = [] ∧ ¬TakenOff w i := by
  have hqueue : w.1.queue = sent ++ i :: rest := h.held k _ (by rw [hp, CallPhase.holds])
  have hi : i ∈ w.1.queue := by simp [hqueue]
  have hnodup := h.nodup
  rw [hqueue, List.nodup_append] at hnodup
  have hnot : i ∉ sent := fun hsent => hnodup.2.2 i hsent i (by simp) rfl
  have hpushed := h.queued i hi
  cases h.account i with
  | unsent h₁ => simp_all
  | other h₁ => exact absurd hpushed h₁.2.2
  | waiting _ _ h₁ _ h₂ => exact ⟨hpushed, hi, h₁, h₂⟩
  | @sent k' _ _ _ h₁ =>
      have hkk : k' = k := h.alone (List.ne_nil_of_mem hi) k' k
        (fun hnone => not_hasSent_of_holds hnone i h₁) (by simp [hp, CallPhase.holds])
      rw [hkk, hp] at h₁
      exact absurd h₁ hnot
  | delivered _ h₁ => exact absurd hi h₁
  | expired _ h₁ => exact absurd hi h₁

/-- A delivery sends one message. -/
lemma Kept.relay (h : Kept dstId call w) {c : ℕ} {sent rest : List ι} {i : ι}
    (hcall : call k = .deliver c) (hp : w.2 k = .relaying sent (i :: rest)) :
    Kept dstId call
      (w.1.post c (.relay i), Function.update w.2 k (.relaying (sent ++ [i]) rest)) := by
  obtain ⟨hpushed, hqueue, hrelayed, hexpired⟩ := h.waiting_of_relaying hp
  have hik : i ≠ k := by
    rintro rfl
    exact absurd (hp.symm.trans hpushed) (by simp)
  refine h.same_queue rfl (List.subset_append_left _ _) ?_ (by simp [hp]) (by simp)
    (fun j => ?_) trivial
  · rw [hp, CallPhase.holds, CallPhase.holds, List.append_assoc, List.singleton_append]
  by_cases hjk : j = k
  · subst hjk
    exact .other (by simp)
  by_cases hji : j = i
  · subst hji
    have hsent : (Function.update w.2 k (.relaying (sent ++ [j]) rest) k).HasSent j := by
      rw [Function.update_self]
      exact List.mem_append_right _ (List.mem_singleton_self _)
    refine .sent ((Function.update_of_ne hjk _ _).trans hpushed) hqueue hsent hcall
      (by rw [relayedOn_post_relay_self, hrelayed, List.nil_append]) ?_
    rwa [expired_update (by simp [hp]) (by simp)]
  · refine (h.account j).frame hjk Iff.rfl (relayedOn_post_relay_ne _ _ (Ne.symm hji)) ?_
      (expired_update (by simp [hp]) (by simp))
    simp [hp, CallPhase.HasSent, hji]

/-- An expiry pass goes through one message. -/
lemma Kept.expiring (h : Kept dstId call w) {m' : Mailbox ι} {done rest : List ι} {i : ι}
    {seen seen' : List String} {told told' : List (String × ℕ)}
    (hp : w.2 k = .expiring done (i :: rest) seen told) (hqueue : m'.queue = w.1.queue)
    (hposts : w.1.posts ⊆ m'.posts) (hrelayed : ∀ j, m'.relayedOn j = w.1.relayedOn j)
    (htold : ToldAll dstId call m' (.expiring (done ++ [i]) rest seen' told')) :
    Kept dstId call
      (m', Function.update w.2 k (.expiring (done ++ [i]) rest seen' told')) := by
  refine h.same_queue hqueue hposts ?_ (by simp [hp]) (by simp) (fun j => ?_) htold
  · rw [hp, CallPhase.holds, CallPhase.holds, List.append_assoc, List.singleton_append]
  · by_cases hjk : j = k
    · subst hjk
      exact .other (by simp)
    · exact (h.account j).frame hjk (by rw [hqueue]) (hrelayed j)
        (by simp [hp, CallPhase.HasSent]) (expired_update (by simp [hp]) (by simp))

/-- The message an expiry pass goes through next is for this destination. -/
lemma Kept.dstOf_expiring (h : Kept dstId call w)
    (hdst : ∀ j msg, call j = .transmit msg → msg.dst = some dstId) {done rest : List ι} {i : ι}
    {seen : List String} {told : List (String × ℕ)}
    (hp : w.2 k = .expiring done (i :: rest) seen told) : dstOf call i = dstId := by
  have hqueue : w.1.queue = done ++ i :: rest := h.held k _ (by rw [hp, CallPhase.holds])
  obtain ⟨msg, hcall⟩ := h.transmits i (h.queued i (by simp [hqueue]))
  simp [dstOf, hcall, Call.message?, hdst i msg hcall]

/-- An expiry pass sends an `EXPIRE`. -/
lemma Kept.tell (h : Kept dstId call w)
    (hdst : ∀ j msg, call j = .transmit msg → msg.dst = some dstId) {done rest : List ι} {i : ι}
    {seen : List String} {told : List (String × ℕ)} {c : ℕ}
    (hp : w.2 k = .expiring done (i :: rest) seen told) :
    Kept dstId call (w.1.post c (.expire (dstOf call i) (srcOf call i)),
      Function.update w.2 k (.expiring (done ++ [i]) rest
        ((srcOf call i ++ "_" ++ dstOf call i) :: seen) ((srcOf call i, c) :: told))) := by
  rw [h.dstOf_expiring hdst hp]
  have hposts : w.1.posts ⊆ (w.1.post c (.expire dstId (srcOf call i))).posts :=
    List.subset_append_left _ _
  refine h.expiring hp rfl hposts (fun j => relayedOn_post_expire ..) ?_
  have hold := h.told k
  rw [hp] at hold
  have hnew : ∀ j, srcOf call j = srcOf call i → Tells dstId call
      (w.1.post c (.expire dstId (srcOf call i))) ((srcOf call i, c) :: told) j := by
    intro j hj
    refine ⟨c, ?_, ?_⟩
    · rw [hj]
      exact List.mem_cons_self
    · rw [hj]
      exact List.mem_append_right _ (List.mem_singleton_self _)
  constructor
  · intro j hj
    rcases List.mem_append.mp hj with hj | hj
    · exact (hold.1 j hj).mono hposts (List.subset_cons_self _ _)
    · rw [List.mem_singleton.mp hj]
      exact hnew i rfl
  · intro j hj
    rcases List.mem_cons.mp hj with heq | hj
    · rw [String.append_left_inj, String.append_left_inj] at heq
      exact hnew j heq
    · exact (hold.2 j hj).mono hposts (List.subset_cons_self _ _)

/-- An expiry pass has told the sender already. -/
lemma Kept.skip (h : Kept dstId call w)
    (hdst : ∀ j msg, call j = .transmit msg → msg.dst = some dstId) {done rest : List ι} {i : ι}
    {seen : List String} {told : List (String × ℕ)}
    (hp : w.2 k = .expiring done (i :: rest) seen told)
    (hseen : srcOf call i ++ "_" ++ dstOf call i ∈ seen) :
    Kept dstId call (w.1, Function.update w.2 k (.expiring (done ++ [i]) rest seen told)) := by
  rw [h.dstOf_expiring hdst hp] at hseen
  refine h.expiring hp rfl (List.Subset.refl _) (fun j => rfl) ?_
  have hold := h.told k
  rw [hp] at hold
  refine ⟨fun j hj => ?_, hold.2⟩
  rcases List.mem_append.mp hj with hj | hj
  · exact hold.1 j hj
  · rw [List.mem_singleton.mp hj]
    exact hold.2 i hseen

/-- A clear by the call `k`, which has gone through all it read. -/
lemma Kept.clear (h : Kept dstId call w) {p' : CallPhase ι} (hk : (w.2 k).holds ≠ none)
    (hp : w.2 k ≠ .pushed) (hp' : p'.holds = none) (hpk' : p' ≠ .pushed)
    (haccount : ∀ j, Account call (w.1.clearMessageQueue, Function.update w.2 k p') j)
    (htold : ToldAll dstId call w.1.clearMessageQueue p') :
    Kept dstId call (w.1.clearMessageQueue, Function.update w.2 k p') where
  nodup := List.nodup_nil
  queued j hj := absurd hj List.not_mem_nil
  transmits j hj := by
    by_cases hjk : j = k
    · subst hjk
      exact absurd ((Function.update_self ..).symm.trans hj) hpk'
    · exact h.transmits j ((Function.update_of_ne hjk _ _).symm.trans hj)
  held := by
    refine Interleave.forall_update (P := fun _ p => ∀ l, CallPhase.holds p = some l → [] = l) ?_ ?_
    · intro l hl
      rw [hp'] at hl
      exact absurd hl (by simp)
    · intro i hik l hl
      have hqueue := h.held i l hl
      by_contra hne
      rw [← hqueue] at hne
      exact hik (h.alone (Ne.symm hne) i k (by simp [hl]) hk)
  alone hne := absurd rfl hne
  account := haccount
  told := Interleave.forall_update (P := fun _ p => ToldAll dstId call _ p) htold
    fun j _ => (h.told j).mono (List.Subset.refl _)

/-- The clear of a delivery: all it read is sent. -/
lemma Kept.clearDeliver (h : Kept dstId call w) {sent : List ι}
    (hp : w.2 k = .relaying sent []) :
    Kept dstId call (w.1.clearMessageQueue, Function.update w.2 k .ended) := by
  have hqueue : w.1.queue = sent := by
    rw [h.held k (sent ++ []) (by rw [hp, CallPhase.holds]), List.append_nil]
  refine h.clear (by simp [hp, CallPhase.holds]) (by simp [hp]) rfl (by simp) (fun j => ?_) trivial
  have hexp : TakenOff (w.1.clearMessageQueue, Function.update w.2 k .ended) j ↔ TakenOff w j :=
    expired_update (by simp [hp]) (by simp)
  by_cases hjk : j = k
  · subst hjk
    exact .other (by simp)
  have hphase : (w.1.clearMessageQueue, Function.update w.2 k .ended).2 j = w.2 j :=
    Function.update_of_ne hjk _ _
  by_cases hj : j ∈ w.1.queue
  · cases h.account j with
    | unsent _ h₁ => exact absurd hj h₁
    | other h₁ => exact absurd (h.queued j hj) h₁.2.2
    | waiting _ _ _ h₁ _ =>
        refine absurd ?_ (h₁ k)
        rw [hp, CallPhase.HasSent, ← hqueue]
        exact hj
    | sent h₁ _ _ h₂ h₃ h₄ =>
        exact .delivered (hphase.trans h₁) List.not_mem_nil h₂ h₃ (by rwa [hexp])
    | delivered _ h₁ => exact absurd hj h₁
    | expired _ h₁ => exact absurd hj h₁
  · have hnot : ¬(w.2 k).HasSent j := by
      rw [hp, CallPhase.HasSent, ← hqueue]
      exact hj
    exact (h.account j).frame hjk (iff_of_false List.not_mem_nil hj) rfl (iff_of_false id hnot) hexp

lemma expired_update_expired {m' : Mailbox ι} {done : List ι} {told : List (String × ℕ)} {j : ι}
    (hp : ∀ done told, w.2 k ≠ .expired done told) :
    TakenOff (m', Function.update w.2 k (.expired done told)) j ↔ j ∈ done ∨ TakenOff w j := by
  constructor
  · rintro ⟨i, done', told', hi, hj⟩
    dsimp only at hi
    by_cases hik : i = k
    · subst hik
      rw [Function.update_self, CallPhase.expired.injEq] at hi
      rw [hi.1]
      exact .inl hj
    · rw [Function.update_of_ne hik] at hi
      exact .inr ⟨i, done', told', hi, hj⟩
  · rintro (hj | ⟨i, done', told', hi, hj⟩)
    · exact ⟨k, done, told, Function.update_self .., hj⟩
    · have hik : i ≠ k := by
        rintro rfl
        exact hp done' told' hi
      exact ⟨i, done', told', (Function.update_of_ne hik _ _).trans hi, hj⟩

/-- The clear of an expiry pass: the senders of all it read are told. -/
lemma Kept.clearExpire (h : Kept dstId call w) {done : List ι} {seen : List String}
    {told : List (String × ℕ)} (hp : w.2 k = .expiring done [] seen told) :
    Kept dstId call
      (w.1.clearMessageQueue, Function.update w.2 k (.expired done told)) := by
  have hqueue : w.1.queue = done := by
    rw [h.held k (done ++ []) (by rw [hp, CallPhase.holds]), List.append_nil]
  have htold := h.told k
  rw [hp] at htold
  have hk : (w.2 k).holds ≠ none := by simp [hp, CallPhase.holds]
  refine h.clear hk (by simp [hp]) rfl (by simp) (fun j => ?_) htold.1
  have hexp : TakenOff (w.1.clearMessageQueue, Function.update w.2 k (.expired done told)) j ↔
      j ∈ done ∨ TakenOff w j := expired_update_expired (by simp [hp])
  by_cases hjk : j = k
  · subst hjk
    exact .other (by simp)
  by_cases hj : j ∈ w.1.queue
  · cases h.account j with
    | unsent _ h₁ => exact absurd hj h₁
    | other h₁ => exact absurd (h.queued j hj) h₁.2.2
    | waiting h₁ _ h₂ _ _ =>
        exact .expired ((Function.update_of_ne hjk _ _).trans h₁) List.not_mem_nil h₂
          (hexp.mpr (.inl (hqueue ▸ hj)))
    | @sent k' _ _ _ h₁ =>
        have hkk : k' = k := h.alone (List.ne_nil_of_mem hj) k' k
          (fun hnone => not_hasSent_of_holds hnone j h₁) hk
        rw [hkk, hp] at h₁
        exact absurd h₁ id
    | delivered _ h₁ => exact absurd hj h₁
    | expired _ h₁ => exact absurd hj h₁
  · refine (h.account j).frame hjk (iff_of_false List.not_mem_nil hj) rfl ?_ ?_
    · rw [hp]
      exact Iff.rfl
    · rw [hexp, ← hqueue]
      exact or_iff_right hj

/-- One undisturbed step keeps the state of the queue. -/
lemma Kept.step (h : Kept dstId call w)
    (hdst : ∀ j msg, call j = .transmit msg → msg.dst = some dstId) {e : ι × ℤ}
    (hund : Undisturbed call w e) (hstep : queueStep cfg dstId call w e = some w') :
    Kept dstId call w' := by
  obtain ⟨k, now⟩ := e
  obtain ⟨m', p', hact, rfl⟩ := Interleave.step_eq_some hstep
  have hacts : Acts call w k (m', p') := acts_of_callStep hund hact
  rw [Undisturbed] at hund
  dsimp only at hund ⊢
  cases hacts with
  | quiet hqueue hposts hp hp' => exact h.quiet hqueue hposts hp hp'
  | direct c hp => exact h.direct hp
  | push now hcall hp =>
      rw [hp] at hund
      exact h.push hcall hp hund
  | readDeliver c hcall hp hqueue =>
      rw [hp] at hund
      exact h.read hp (.inl rfl) hund
  | readExpire hp =>
      rw [hp] at hund
      exact h.read hp (.inr rfl) hund
  | relay hcall hp => exact h.relay hcall hp
  | tell hp hseen hsender => exact h.tell hdst hp
  | skip hp hseen => exact h.skip hdst hp hseen
  | clearDeliver hp => exact h.clearDeliver hp
  | clearExpire hp => exact h.clearExpire hp

/-- A queue that no call has worked on yet. -/
lemma kept_start {m : Mailbox ι} (hqueue : m.queue = []) (hposts : m.posts = []) :
    Kept dstId call (m, fun _ => .start) where
  nodup := by simp [hqueue]
  queued := by simp [hqueue]
  transmits := by simp
  held := by simp [CallPhase.holds]
  alone := by simp [hqueue]
  account j := .unsent (.inl rfl) (by simp [hqueue]) (by simp [Mailbox.relayedOn, hposts])
    (by simp [TakenOff])
  told _ := trivial

/-- When no call is at work, a pushed message is in exactly one of the three
situations. -/
lemma Kept.settled (h : Kept dstId call w) (hidle : ∀ k, ¬(w.2 k).InProgress) {j : ι}
    (hj : w.2 j = .pushed) : SettledOnce dstId call w j := by
  have hcovered : ∀ {j}, Covered dstId call w j → TakenOff w j := by
    rintro j ⟨k, done, told, hk, hmem, -⟩
    exact ⟨k, done, told, hk, hmem⟩
  cases h.account j with
  | unsent h₁ => simp [hj] at h₁
  | other h₁ => exact absurd hj h₁.2.2
  | waiting _ h₁ h₂ _ h₃ =>
      exact .inr (.inl ⟨h₂, List.count_eq_one_of_mem h.nodup h₁, fun hc => h₃ (hcovered hc)⟩)
  | @sent k _ _ _ h₁ =>
      refine absurd ?_ (hidle k)
      revert h₁
      cases w.2 k <;> simp [CallPhase.HasSent, CallPhase.InProgress]
  | @delivered k c _ h₁ h₂ h₃ h₄ =>
      exact .inl ⟨⟨c, k, h₃, h₂⟩, h₁, fun hc => h₄ (hcovered hc)⟩
  | expired _ h₁ h₂ h₃ =>
      obtain ⟨k, done, told, hk, hmem⟩ := h₃
      have htold := h.told k
      rw [hk] at htold
      exact .inr (.inr ⟨h₂, h₁, ⟨k, done, told, hk, hmem, htold j hmem⟩⟩)

/-- Any number of senders, deliveries and expiry passes on one destination, in
any order: if every step is undisturbed, then every message that was pushed to
the queue is, when no call is at work any more, in exactly one of the three
situations. -/
theorem queued_settled (hdst : ∀ j msg, call j = .transmit msg → msg.dst = some dstId)
    {m : Mailbox ι} (hqueue : m.queue = []) (hposts : m.posts = []) {es : List (ι × ℤ)}
    (hund : AllSteps (queueStep cfg dstId call) (fun w e _ => Undisturbed call w e)
      (m, fun _ => .start) es)
    (hrun : run (queueStep cfg dstId call) (m, fun _ => .start) es = some w)
    (hidle : ∀ k, ¬(w.2 k).InProgress) :
    ∀ j, w.2 j = .pushed → SettledOnce dstId call w j := by
  have hkept : Kept dstId call w := by
    refine run_invariant ?_ (kept_start hqueue hposts) hund hrun
    intro w e w' hw hstep hund
    exact hw.step hdst hund hstep
  intro j hj
  exact hkept.settled hidle hj

end Settled

/-! ### Fixed calls -/

/-- `alice` and `carol` send `bob` an `OFFER` each; `bob` connects, with the
channel `0`. -/
def offersToBob : Fin 4 → Call
  | 0 => .transmit { type_ := .OFFER, src := some "alice", dst := some "bob" }
  | 1 => .transmit { type_ := .OFFER, src := some "carol", dst := some "bob" }
  | 2 => .register "bob" 0
  | 3 => .deliver 0

/-- A schedule of these calls, one millisecond a step. -/
def bobConnects (schedule : List (Fin 4)) :
    Option (Mailbox (Fin 4) × (Fin 4 → CallPhase (Fin 4))) :=
  run (queueStep {} "bob" offersToBob) (⟨∅, [], none, false, []⟩, fun _ => .start)
    (schedule.zipIdx.map fun e => (e.1, (e.2 : ℤ)))

lemma offersToBob_dst (j : Fin 4) (msg : Message) (h : offersToBob j = .transmit msg) :
    msg.dst = some "bob" := by
  fin_cases j <;> simp_all [offersToBob]
  all_goals simp [← h]

/-- When `bob` connects after both messages are pushed, both are settled. -/
theorem queued_settled_bob : ∃ w, bobConnects [0, 0, 1, 1, 2, 3, 3, 3, 3, 3] = some w ∧
    w.2 1 = .pushed ∧ SettledOnce "bob" offersToBob w 1 := by
  have hend : (bobConnects [0, 0, 1, 1, 2, 3, 3, 3, 3, 3]).map Prod.snd =
      some ![.pushed, .pushed, .ended, .ended] := by decide +kernel
  obtain ⟨w, hw, hphases⟩ := Option.map_eq_some_iff.mp hend
  have hpushed : w.2 1 = .pushed := by rw [hphases]; rfl
  refine ⟨w, hw, hpushed, ?_⟩
  refine queued_settled offersToBob_dst rfl rfl (by decide +kernel) hw ?_ 1 hpushed
  rw [hphases]
  intro k
  fin_cases k <;> simp [CallPhase.InProgress]

/-- A push that falls between the read of a delivery and its clear is lost:
`carol` looks `bob` up before he connects, and pushes after his read. -/
theorem push_before_clear_is_lost :
    ¬∀ (cfg : Config) (dstId : String) (call : Fin 4 → Call) (m : Mailbox (Fin 4))
        (es : List (Fin 4 × ℤ)) (w : Mailbox (Fin 4) × (Fin 4 → CallPhase (Fin 4))),
      (∀ j msg, call j = .transmit msg → msg.dst = some dstId) → m.queue = [] → m.posts = [] →
      run (queueStep cfg dstId call) (m, fun _ => .start) es = some w →
      (∀ k, ¬(w.2 k).InProgress) → ∀ j, w.2 j = .pushed → SettledOnce dstId call w j := by
  intro hall
  have hend : (bobConnects [0, 0, 1, 2, 3, 3, 1, 3, 3]).map
      (fun w => (w.2, w.1.relayedOn 1, w.1.queue)) =
      some (![.pushed, .pushed, .ended, .ended], [], []) := by decide +kernel
  obtain ⟨w, hw, hobs⟩ := Option.map_eq_some_iff.mp hend
  rw [Prod.mk.injEq, Prod.mk.injEq] at hobs
  obtain ⟨hphases, hrelayed, hqueue⟩ := hobs
  have hidle : ∀ k, ¬(w.2 k).InProgress := by
    rw [hphases]
    intro k
    fin_cases k <;> simp [CallPhase.InProgress]
  have hsettled := hall {} "bob" offersToBob _ _ w offersToBob_dst rfl rfl hw hidle 1
    (by rw [hphases]; rfl)
  rcases hsettled with ⟨⟨c, k, hput, -⟩, -, -⟩ | ⟨-, hcount, -⟩ | ⟨-, -, k, done, told, hk, -, -⟩
  · rw [hrelayed] at hput
    exact absurd hput (by simp)
  · rw [hqueue] at hcount
    exact absurd hcount (by simp)
  · rw [hphases] at hk
    fin_cases k <;> simp at hk

end Dendri
