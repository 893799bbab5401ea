import Dendri.Properties.Admission
import Dendri.Properties.Appends

/-!
The two ends of a polling client's channel. The sender is stored in
`ws_senders`, the receiver in `polling_receivers`; a poll uses the stored ends
if both are there, else it opens a channel and stores both. The other
transports replace the sender and leave the receiver, and so do all removals
except the cleanup of an event stream, which takes both.

* `Rewires`, `rewires_of_connect`: what an admitted connect does to both maps;
* `EndsLeft`, `ends_of_step`: what a step without one does to the ends of a
  client;
* `Halves`, `halves_of_step`: in every run a stored receiver belongs to an open
  channel that only polls of the id receive on, and next to it the stored
  sender is its other end or belongs to a WebSocket or an event stream;
* `Pick`, `pickStep`: a step of the server, with the channel that the polls of
  each client have picked and the frames they have returned from it;
* `EndsPaired`: the ends that a poll reuses are those of one channel, and no frame
  that is sent on a picked channel is lost;
* `paired_iff`: this holds along a run just when no poll finds the sender of
  another transport next to a receiver, and no removal other than an eviction
  takes away a picked channel with frames on it;
* `poll_reuses_other_sender`: a poll after a WebSocket connect does find one.
-/

namespace Dendri

open AppState Transition

/-! ### Connecting -/

/-- What an admitted connect does to the senders and the receivers. -/
inductive Rewires (s : AppState) (K : Conn) (s' : AppState) : Prop
  /-- A WebSocket or an event stream: the sender is new, the receiver stays. -/
  | stream (htransport : K.transport ≠ .Polling) (hchan : K.chan = s.nextChan)
      (hsenders : s'.wsSenders = s.wsSenders.insert K.id s.nextChan)
      (hreceivers : s'.pollingReceivers = s.pollingReceivers) : Rewires s K s'
  /-- A poll that misses one of the ends: both are new. -/
  | rebuilt (htransport : K.transport = .Polling) (hmissing : s.registry.hasPair K.id = false)
      (hchan : K.chan = s.nextChan) (hopen : (s'.chans s.nextChan).closed = false)
      (hsenders : s'.wsSenders = s.wsSenders.insert K.id s.nextChan)
      (hreceivers : s'.pollingReceivers = s.pollingReceivers.insert K.id s.nextChan) :
      Rewires s K s'
  /-- A poll that finds both. -/
  | reused (htransport : K.transport = .Polling) (tx : ℕ)
      (htx : s.wsSenders.lookup K.id = some tx)
      (hrx : s.pollingReceivers.lookup K.id = some K.chan)
      (hsenders : s'.wsSenders = s.wsSenders)
      (hreceivers : s'.pollingReceivers = s.pollingReceivers) : Rewires s K s'

lemma hasPair_iff {s : AppState} {id : String} :
    s.registry.hasPair id = true ↔
      ∃ rx tx, s.pollingReceivers.lookup id = some rx ∧ s.wsSenders.lookup id = some tx := by
  rw [Registry.hasPair, Bool.and_eq_true, Option.isSome_iff_exists, Option.isSome_iff_exists]
  constructor
  · rintro ⟨⟨rx, hrx⟩, tx, htx⟩
    exact ⟨rx, tx, hrx, htx⟩
  · rintro ⟨rx, tx, hrx, htx⟩
    exact ⟨⟨rx, hrx⟩, tx, htx⟩

/-- The channel that a poll opens is open after it. -/
lemma open_of_poll {env : Env} {cfg : Config} {s s' : AppState} {q : HttpQuery} {K : Conn}
    (h : connect env cfg s (.poll q) = .admitted K s')
    (hmissing : s.registry.hasPair q.id = false) : (s'.chans s.nextChan).closed = false := by
  have happends := appends_pollHandler h
  rw [hmissing] at happends
  have hclosed := happends.closed s.nextChan (Nat.lt_succ_self _)
  rw [hclosed]
  simp [AppState.newChannel]

lemma rewires_of_connect {env : Env} {cfg : Config} {s s' : AppState} {r : Request} {K : Conn}
    (h : connect env cfg s r = .admitted K s') : Rewires s K s' := by
  cases connect_admitted h with
  | reconnect q K s' hK htransport hchan htoken hreg hrest =>
      exact Rewires.stream (by simp [htransport]) hchan (congrArg Registry.senders hreg)
        (congrArg Registry.receivers hreg)
  | register q K s' hK htransport hchan htoken hslot hreg hmaps =>
      exact Rewires.stream (by simp [htransport]) hchan (congrArg Registry.senders hreg)
        (congrArg Registry.receivers hreg)
  | stream q K s' hK htransport hchan hslot hreg hmaps =>
      exact Rewires.stream (by simp [htransport]) hchan (congrArg Registry.senders hreg)
        (congrArg Registry.receivers hreg)
  | poll q K s' hK htransport hchan hslot hreg hmaps =>
      have hsenders : s'.wsSenders = if s.registry.hasPair K.id then s.wsSenders
          else s.wsSenders.insert K.id s.nextChan := congrArg Registry.senders hreg
      have hreceivers : s'.pollingReceivers = if s.registry.hasPair K.id then s.pollingReceivers
          else s.pollingReceivers.insert K.id s.nextChan := congrArg Registry.receivers hreg
      have hid : q.id = K.id := Option.some.inj hK.id
      rw [Registry.pollChan] at hchan
      cases hpair : s.registry.hasPair K.id with
      | true =>
          rw [hpair, if_pos rfl] at hchan hsenders hreceivers
          obtain ⟨rx, tx, hrx, htx⟩ := hasPair_iff.mp hpair
          rw [show s.registry.receivers.lookup K.id = some rx from hrx, Option.getD_some] at hchan
          exact Rewires.reused htransport tx htx (by rw [hchan]; exact hrx) hsenders hreceivers
      | false =>
          rw [hpair, if_neg (by simp)] at hchan hsenders hreceivers
          exact Rewires.rebuilt htransport hpair hchan (open_of_poll h (by rw [hid]; exact hpair))
            hsenders hreceivers

/-- Only the receiver of the admitted id changes. -/
lemma Rewires.lookup_of_ne {s s' : AppState} {K : Conn} (h : Rewires s K s') {m : String}
    (hm : m ≠ K.id) :
    s'.wsSenders.lookup m = s.wsSenders.lookup m ∧
      s'.pollingReceivers.lookup m = s.pollingReceivers.lookup m := by
  cases h with
  | stream htransport hchan hsenders hreceivers =>
      rw [hsenders, hreceivers, FinMap.lookup_insert_ite, if_neg hm]
      exact ⟨rfl, rfl⟩
  | rebuilt htransport hmissing hchan hopen hsenders hreceivers =>
      rw [hsenders, hreceivers, FinMap.lookup_insert_ite, FinMap.lookup_insert_ite, if_neg hm,
        if_neg hm]
      exact ⟨rfl, rfl⟩
  | reused htransport tx htx hrx hsenders hreceivers =>
      rw [hsenders, hreceivers]
      exact ⟨rfl, rfl⟩

/-- The connection a step admits, if any. -/
def admittedConn (cfg : Config) (w : World) (l : Label) : Option Conn :=
  match l.event with
  | .connect r =>
      match connect l.env cfg w.app r with
      | .admitted K _ => some K
      | .rejected _ _ => none
  | _ => none

lemma admittedConn_eq_some {cfg : Config} {w w' : World} {l : Label} {K : Conn}
    (hstep : step cfg w l = some w') :
    admittedConn cfg w l = some K ↔ ∃ r, AdmitsConn cfg w l w' r K := by
  obtain ⟨env, ev⟩ := l
  constructor
  · intro hK
    cases ev with
    | connect r =>
        rw [step] at hstep
        rw [admittedConn] at hK
        dsimp only at hstep hK
        cases hout : connect env cfg w.app r with
        | rejected why s =>
            rw [hout] at hK
            exact absurd hK (by simp)
        | admitted K' s =>
            rw [hout, Option.some.injEq] at hK hstep
            rw [← hK, ← hstep]
            exact ⟨r, rfl, hout, rfl⟩
    | _ => exact absurd hK (by simp [admittedConn])
  · rintro ⟨r, hev, hout, -⟩
    dsimp only at hev hout
    subst hev
    rw [admittedConn]
    dsimp only
    rw [hout]

/-! ### Losing the sender -/

/-- The eviction pass removes `p`. -/
def Evicts (cfg : Config) (w : World) (l : Label) (p : String) : Prop :=
  l.event = .evictBroken ∧ p ∈ toEvict l.env cfg w.app

/-- The step removes `p` otherwise: the cleanup of a connection of `p`, or a
message. -/
def RemovesClient (cfg : Config) (w : World) (l : Label) (p : String) : Prop :=
  (∃ k K, cleanedUp w l.event = some (k, K) ∧ K.id = p) ∨
    ∃ id msg, incoming cfg w l.event = some (id, msg) ∧ removal l.env w.app id msg = some p

/-- A removal is neither a connect nor an eviction pass. -/
lemma RemovesClient.other {cfg : Config} {w : World} {l : Label} {p : String}
    (h : RemovesClient cfg w l p) : admittedConn cfg w l = none ∧ ¬Evicts cfg w l p := by
  have hev : (∀ r, l.event ≠ .connect r) ∧ l.event ≠ .evictBroken := by
    rcases h with ⟨k, K, hdown, -⟩ | ⟨id, msg, hin, -⟩
    · exact (only_of_cleanedUp cfg hdown).2
    · exact (only_of_incoming hin).2
  obtain ⟨hconnect, hevict⟩ := hev
  refine ⟨?_, fun h => hevict h.1⟩
  rw [admittedConn]
  split
  · rename_i r hr
    exact absurd hr (hconnect r)
  · rfl

/-- What a step that admits nobody does to the ends of `p`: a removal or an
eviction takes the sender, and nothing else touches them. -/
structure EndsLeft (cfg : Config) (w : World) (l : Label) (s' : AppState) (p : String) : Prop where
  gone : RemovesClient cfg w l p ∨ Evicts cfg w l p → s'.wsSenders.lookup p = none
  kept : ¬RemovesClient cfg w l p → ¬Evicts cfg w l p →
    s'.wsSenders.lookup p = w.app.wsSenders.lookup p ∧
      s'.pollingReceivers.lookup p = w.app.pollingReceivers.lookup p

/-- A step that touches neither map. -/
lemma EndsLeft.of_frame {cfg : Config} {w : World} {l : Label} {s' : AppState}
    (hin : incoming cfg w l.event = none) (hdown : cleanedUp w l.event = none)
    (hevict : l.event ≠ .evictBroken) (hsenders : s'.wsSenders = w.app.wsSenders)
    (hreceivers : s'.pollingReceivers = w.app.pollingReceivers) (p : String) :
    EndsLeft cfg w l s' p := by
  refine ⟨?_, fun _ _ => by rw [hsenders, hreceivers]; exact ⟨rfl, rfl⟩⟩
  rintro ((⟨k, K, hK, -⟩ | ⟨id, msg, hmsg, -⟩) | ⟨hev, -⟩)
  · exact absurd (hdown.symm.trans hK) (by simp)
  · exact absurd (hin.symm.trans hmsg) (by simp)
  · exact absurd hev hevict

/-- The cleanup of a connection of `id`. -/
lemma EndsLeft.of_cleanup {cfg : Config} {w : World} {l : Label} {s' : AppState} {k : ℕ} {K : Conn}
    (hdown : cleanedUp w l.event = some (k, K))
    (hsenders : s'.wsSenders = w.app.wsSenders.erase K.id)
    (hreceivers : ∀ p, p ≠ K.id →
      s'.pollingReceivers.lookup p = w.app.pollingReceivers.lookup p) (p : String) :
    EndsLeft cfg w l s' p := by
  obtain ⟨hin, -, hevict⟩ := only_of_cleanedUp cfg hdown
  constructor
  · rintro ((⟨k', K', hK', hid⟩ | ⟨id, msg, hmsg, -⟩) | ⟨hev, -⟩)
    · obtain ⟨-, rfl⟩ := Prod.mk.inj (Option.some.inj (hdown.symm.trans hK'))
      rw [hsenders, ← hid]
      exact Finmap.lookup_erase _ _
    · exact absurd (hin.symm.trans hmsg) (by simp)
    · exact absurd hev hevict
  · intro hremoves _
    have hp : p ≠ K.id := fun hp => hremoves (Or.inl ⟨k, K, hdown, hp.symm⟩)
    rw [hsenders, FinMap.lookup_erase_ite, if_neg hp]
    exact ⟨rfl, hreceivers p hp⟩

lemma EndsLeft.of_message {cfg : Config} {w : World} {l : Label} {s' : AppState} {id : String}
    {msg : Message} (hin : incoming cfg w l.event = some (id, msg))
    (hrec : Receives l.env cfg w.app id msg s') (p : String) : EndsLeft cfg w l s' p := by
  obtain ⟨hdown, -, hevict⟩ := only_of_incoming hin
  have hkeeps := Registry.keepsAuth_afterMessage l.env w.app id msg s'.replayBuffer
  rw [← hrec.registry] at hkeeps
  have hreceivers : s'.pollingReceivers = w.app.pollingReceivers := hkeeps.receivers
  constructor
  · rintro ((⟨k, K, hK, -⟩ | ⟨id', msg', hmsg, hremoved⟩) | ⟨hev, -⟩)
    · exact absurd (hdown.symm.trans hK) (by simp)
    · obtain ⟨rfl, rfl⟩ := Prod.mk.inj (Option.some.inj (hin.symm.trans hmsg))
      rw [hrec.lookup_wsSenders, if_pos hremoved]
    · exact absurd hev hevict
  · intro hremoves _
    have hp : removal l.env w.app id msg ≠ some p := fun hp =>
      hremoves (Or.inr ⟨id, msg, hin, hp⟩)
    rw [hrec.lookup_wsSenders, if_neg hp, hreceivers]
    exact ⟨rfl, rfl⟩

lemma EndsLeft.of_eviction {cfg : Config} {w : World} {l : Label} (hev : l.event = .evictBroken)
    (p : String) : EndsLeft cfg w l (evictBroken l.env cfg w.app) p := by
  have hreg := (registry_evictBroken l.env cfg w.app).1
  have hdrops := (Registry.foldl_drop_drops (toEvict l.env cfg w.app) w.app.registry p).2.1
  have hkeeps := Registry.keepsAuth_foldl_drop (toEvict l.env cfg w.app) w.app.registry
  rw [← hreg] at hdrops hkeeps
  have hsender : (evictBroken l.env cfg w.app).wsSenders.lookup p =
      if p ∈ toEvict l.env cfg w.app then none else w.app.wsSenders.lookup p := hdrops
  have hreceivers : (evictBroken l.env cfg w.app).pollingReceivers = w.app.pollingReceivers :=
    hkeeps.receivers
  constructor
  · rintro (hremoves | ⟨-, hp⟩)
    · rcases hremoves with ⟨k, K, hK, -⟩ | ⟨id, msg, hmsg, -⟩
      · exact absurd hK (by simp [hev, cleanedUp])
      · exact absurd hmsg (by simp [hev, incoming])
    · rw [hsender, if_pos hp]
  · intro _ hevicts
    rw [hsender, if_neg fun hp => hevicts ⟨hev, hp⟩, hreceivers]
    exact ⟨rfl, rfl⟩

lemma ends_of_step {cfg : Config} {w w' : World} {l : Label} (hstep : step cfg w l = some w')
    (hadm : admittedConn cfg w l = none) (p : String) : EndsLeft cfg w l w'.app p := by
  obtain ⟨env, ev⟩ := l
  have ht := step_trans hstep
  dsimp only at ht
  cases ht with
  | refused r why hout =>
      have hends : (w.app.withClaims (storedClaims env cfg r)).wsSenders = w.app.wsSenders ∧
          (w.app.withClaims (storedClaims env cfg r)).pollingReceivers =
            w.app.pollingReceivers := by
        cases storedClaims env cfg r with
        | none => exact ⟨rfl, rfl⟩
        | some pair => exact ⟨rfl, rfl⟩
      exact EndsLeft.of_frame rfl rfl (by simp) hends.1 hends.2 p
  | admitted r K s' hout hK =>
      rw [admittedConn] at hadm
      dsimp only at hadm
      rw [hout] at hadm
      exact absurd hadm (by simp)
  | message ev id msg s' hin hrec => exact EndsLeft.of_message (l := ⟨env, ev⟩) hin hrec p
  | socketClosed k K s' hdown hreg hun =>
      refine EndsLeft.of_cleanup hdown (congrArg Registry.senders hreg) (fun p _ => ?_) p
      rw [show s'.pollingReceivers = w.app.pollingReceivers from congrArg Registry.receivers hreg]
  | streamCleaned ev k K s' f hev hdown hlater hclose hreg hun =>
      refine EndsLeft.of_cleanup (l := ⟨env, ev⟩) hdown (congrArg Registry.senders hreg)
        (fun p hp => ?_) p
      rw [show s'.pollingReceivers = w.app.pollingReceivers.erase K.id from
        congrArg Registry.receivers hreg, FinMap.lookup_erase_ite, if_neg hp]
  | evicted => exact EndsLeft.of_eviction (l := ⟨env, .evictBroken⟩) rfl p
  | reconciled =>
      have hsenders : (reconcile w.app).wsSenders = w.app.wsSenders := rfl
      exact EndsLeft.of_frame rfl rfl (by simp) hsenders rfl p
  | expired =>
      have hreg := registry_cleanupExpiredSessions env cfg w.app
      exact EndsLeft.of_frame rfl rfl (by simp) (congrArg Registry.senders hreg)
        (congrArg Registry.receivers hreg) p
  | replayEvicted =>
      have hsenders : (replayEvict env w.app).wsSenders = w.app.wsSenders := rfl
      exact EndsLeft.of_frame rfl rfl (by simp) hsenders rfl p
  | quiet ev w' hin hdown hconnect hevict hreg hmaps hconns =>
      exact EndsLeft.of_frame (l := ⟨env, ev⟩) hin hdown hevict (congrArg Registry.senders hreg)
        (congrArg Registry.receivers hreg) p

/-! ### Receivers and senders in every run -/

/-- A stored receiver belongs to an open channel that only polls of its id
receive on, and the sender next to it is its other end or that of a WebSocket
or an event stream. -/
structure Halves (w : World) : Prop where
  isOpen : ∀ m c, w.app.pollingReceivers.lookup m = some c → (w.app.chans c).closed = false
  polled : ∀ m c, w.app.pollingReceivers.lookup m = some c →
    ∀ K ∈ w.conns, K.chan = c → K.id = m ∧ K.transport = .Polling
  sender : ∀ m tx rx, w.app.wsSenders.lookup m = some tx →
    w.app.pollingReceivers.lookup m = some rx →
    tx = rx ∨ ∃ K ∈ w.conns, K.chan = tx ∧ K.transport ≠ .Polling

/-- No step closes the channel of a stored receiver. -/
lemma Halves.open_of_carries {w : World} {ev : Event} {s' : AppState} (h : Halves w) (hw : Wired w)
    (hcarries : Carries w ev s') {m : String} {c : ℕ}
    (hm : w.app.pollingReceivers.lookup m = some c) : (s'.chans c).closed = false := by
  by_contra hclosed
  rw [Bool.not_eq_false] at hclosed
  rcases hcarries.closed c (hw.receivers m c hm) hclosed with hold | ⟨K, hK, hc, hpoll⟩
  · rw [h.isOpen m c hm] at hold
    exact absurd hold (by simp)
  · obtain ⟨hid, htransport⟩ := h.polled m c hm K hK hc
    rw [hid] at hpoll
    exact hpoll htransport hm

lemma Halves.of_shrink {w w' : World} {ev : Event} (h : Halves w) (hw : Wired w)
    (hcarries : Carries w ev w'.app) (hs : Shrinks w w') : Halves w' := by
  refine ⟨fun m c hm => h.open_of_carries hw hcarries (hs.receivers m c hm),
    fun m c hm K' hK' hc => ?_, fun m tx rx htx hrx => ?_⟩
  · obtain ⟨K, hK, hlater⟩ := hs.conns.mem_back hK'
    rw [hlater.id, hlater.transport]
    exact h.polled m c (hs.receivers m c hm) K hK (hlater.chan.symm.trans hc)
  · refine (h.sender m tx rx (hs.senders m tx htx).1 (hs.receivers m rx hrx)).imp_right ?_
    rintro ⟨K, hK, hc, htransport⟩
    obtain ⟨K', hK', hlater⟩ := hs.conns.mem_forth hK
    exact ⟨K', hK', hlater.chan.trans hc, by rwa [hlater.transport]⟩

/-- An old pair of ends next to a new connection. -/
lemma Halves.sender_append {w : World} (h : Halves w) (K : Conn) {m : String} {tx rx : ℕ}
    (htx : w.app.wsSenders.lookup m = some tx) (hrx : w.app.pollingReceivers.lookup m = some rx) :
    tx = rx ∨ ∃ K' ∈ w.conns ++ [K], K'.chan = tx ∧ K'.transport ≠ .Polling :=
  (h.sender m tx rx htx hrx).imp_right fun ⟨K', hK', hc, htransport⟩ =>
    ⟨K', List.mem_append_left _ hK', hc, htransport⟩

lemma Halves.of_rewires {w : World} {K : Conn} {s' : AppState} {ev : Event} (h : Halves w)
    (hw : Wired w) (ho : Owned w) (hcarries : Carries w ev s')
    (hrewires : Rewires w.app K s') : Halves ⟨s', w.conns ++ [K]⟩ := by
  -- the receivers that were stored before, when the new connection is none of theirs
  have hold : K.chan = w.app.nextChan → ∀ m c, w.app.pollingReceivers.lookup m = some c →
      ∀ K' ∈ w.conns ++ [K], K'.chan = c → K'.id = m ∧ K'.transport = .Polling := by
    intro hchan m c hm K' hK' hc
    rcases mem_append_conn hK' with hK' | rfl
    · exact h.polled m c hm K' hK' hc
    · have := hw.receivers m c hm
      omega
  cases hrewires with
  | stream htransport hchan hsenders hreceivers =>
      refine ⟨fun m c hm => ?_, fun m c hm => ?_, fun m tx rx htx hrx => ?_⟩
      · dsimp only at hm
        rw [hreceivers] at hm
        exact h.open_of_carries hw hcarries hm
      · dsimp only at hm
        rw [hreceivers] at hm
        exact hold hchan m c hm
      · dsimp only at hrx
        rw [hreceivers] at hrx
        rcases sender_cases hsenders htx with ⟨-, hc⟩ | ⟨-, htx⟩
        · exact Or.inr ⟨K, by simp, hchan.trans hc.symm, htransport⟩
        · exact h.sender_append K htx hrx
  | rebuilt htransport hmissing hchan hopen hsenders hreceivers =>
      have hcases : ∀ m c, s'.pollingReceivers.lookup m = some c →
          (m = K.id ∧ c = w.app.nextChan) ∨
            (m ≠ K.id ∧ w.app.pollingReceivers.lookup m = some c) := by
        intro m c hm
        rw [hreceivers, FinMap.lookup_insert_ite] at hm
        split_ifs at hm with hid
        · exact Or.inl ⟨hid, (Option.some.inj hm).symm⟩
        · exact Or.inr ⟨hid, hm⟩
      refine ⟨fun m c hm => ?_, fun m c hm => ?_, fun m tx rx htx hrx => ?_⟩
      · rcases hcases m c hm with ⟨-, rfl⟩ | ⟨-, hm⟩
        · exact hopen
        · exact h.open_of_carries hw hcarries hm
      · rcases hcases m c hm with ⟨rfl, rfl⟩ | ⟨-, hm⟩
        · intro K' hK' hc
          rcases mem_append_conn hK' with hK' | rfl
          · have := hw.chans K' hK'
            omega
          · exact ⟨rfl, htransport⟩
        · exact hold hchan m c hm
      · rcases hcases m rx hrx with ⟨hid, hc⟩ | ⟨hid, hrx⟩
        · rcases sender_cases hsenders htx with ⟨-, hc'⟩ | ⟨hne, -⟩
          · exact Or.inl (hc'.trans hc.symm)
          · exact absurd hid hne
        · rcases sender_cases hsenders htx with ⟨hid', -⟩ | ⟨-, htx⟩
          · exact absurd hid' hid
          · exact h.sender_append K htx hrx
  | reused htransport tx htx hrx hsenders hreceivers =>
      refine ⟨fun m c hm => ?_, fun m c hm K' hK' hc => ?_, fun m tx rx htx hrx => ?_⟩
      · dsimp only at hm
        rw [hreceivers] at hm
        exact h.open_of_carries hw hcarries hm
      · dsimp only at hm
        rw [hreceivers] at hm
        rcases mem_append_conn hK' with hK' | rfl
        · exact h.polled m c hm K' hK' hc
        · -- a connection that receives on the channel tells whose it is
          obtain ⟨J, hJ, hid, hJc⟩ := ho.receiver m c hm
          have hown := (h.polled K'.id K'.chan hrx J hJ (hJc.trans hc.symm)).1
          exact ⟨hown.symm.trans hid, htransport⟩
      · dsimp only at htx hrx
        rw [hsenders] at htx
        rw [hreceivers] at hrx
        exact h.sender_append K htx hrx

lemma halves_of_step {cfg : Config} {w w' : World} {l : Label} (h : Halves w) (hw : Wired w)
    (ho : Owned w) (hstep : step cfg w l = some w') : Halves w' := by
  have hcarries := carries_of_step hstep
  rcases shrinks_of_step hw hstep with hs | ⟨r, K, -, hout, hconns⟩
  · exact h.of_shrink hw hcarries hs
  · obtain ⟨s', conns⟩ := w'
    dsimp only at hout hconns
    subst hconns
    exact h.of_rewires hw ho hcarries (rewires_of_connect hout)

lemma halves_init (cfg : Config) (redis : Redis) : Halves (World.init cfg redis) where
  isOpen m c hm := absurd hm (by simp [World.init, AppState.new])
  polled m c hm := absurd hm (by simp [World.init, AppState.new])
  sender m tx rx hm := absurd hm (by simp [World.init, AppState.new])

/-! ### What the polls of a client return -/

/-- The channel that the polls of a client have picked, and the frames they
have returned from it since. -/
structure Pick where
  chan : ℕ
  returned : List Frame

/-- A world, and what the polls of each client have picked. -/
abbrev Picking := World × (String → Option Pick)

/-- What the polls of `p` have picked after a step to `w'`. A connect of another
transport and the loss of the sender end the pick, another poll goes on with
the frames that were returned before. -/
def follow (cfg : Config) (x : Picking) (l : Label) (w' : World) (p : String) : Option Pick :=
  match admittedConn cfg x.1 l with
  | some K =>
      if p = K.id then
        if K.transport = .Polling then some ⟨K.chan, ((x.2 p).map Pick.returned).getD []⟩ else none
      else x.2 p
  | none =>
      if w'.app.wsSenders.lookup p = none then none
      else (x.2 p).map fun P => ⟨P.chan, P.returned ++ taken x.1 l.event P.chan⟩

/-- A step, with what the polls have picked. -/
def pickStep (cfg : Config) (x : Picking) (l : Label) : Option Picking :=
  (step cfg x.1 l).map fun w' => (w', follow cfg x l w')

/-- An empty server, before any poll. -/
def pickInit (cfg : Config) (redis : Redis) : Picking := (World.init cfg redis, fun _ => none)

/-- The frames that were sent on the channel of a pick: those that polls have
returned, and those that wait. -/
def Pick.sent (P : Pick) (w : World) : List Frame := P.returned ++ (w.app.chans P.chan).queue

/-- The pairing of the ends, for one step. -/
structure EndsPaired (cfg : Config) (x : Picking) (l : Label) (x' : Picking) : Prop where
  /-- A poll that finds both ends finds those of one channel. -/
  reused : ∀ K tx rx, admittedConn cfg x.1 l = some K → K.transport = .Polling →
    x.1.app.wsSenders.lookup K.id = some tx → x.1.app.pollingReceivers.lookup K.id = some rx →
    tx = rx
  /-- What is sent to a client whose polls have picked a channel goes there. -/
  ends : ∀ p P, x'.2 p = some P → x'.1.app.wsSenders.lookup p = some P.chan ∧
    x'.1.app.pollingReceivers.lookup p = some P.chan ∧ (x'.1.app.chans P.chan).closed = false
  /-- Unless another transport connects or the client is evicted, what was sent
  on the picked channel stays sent there, or all of it has been returned. -/
  returned : ∀ p P, x.2 p = some P →
    (∀ K, admittedConn cfg x.1 l = some K → K.id = p → K.transport = .Polling) →
    ¬Evicts cfg x.1 l p →
    (∃ P', x'.2 p = some P' ∧ P'.chan = P.chan ∧ P.sent x.1 <+: P'.sent x'.1) ∨
      (x'.2 p = none ∧ (x.1.app.chans P.chan).queue = [])

/-- The condition on a step: a poll that is admitted while a receiver of its id
is stored does not find the sender of a WebSocket or an event stream, and a
client with a picked channel is removed, other than by an eviction, only when
nothing waits there. -/
structure KeepsPairs (cfg : Config) (x : Picking) (l : Label) (_ : Picking) : Prop where
  poll : ∀ q : Params, l.event = .connect (.poll q.query) → q.Authenticates l.env cfg →
    OwnsIdHttp cfg x.1.app q → q.id ∈ x.1.app.pollingReceivers.keys →
    ∀ S ∈ x.1.conns, S.transport ≠ .Polling → x.1.app.wsSenders.lookup q.id ≠ some S.chan
  removal : ∀ p P, x.2 p = some P → RemovesClient cfg x.1 l p →
    (x.1.app.chans P.chan).queue = []

/-- The invariant of every run whose steps meet the condition. -/
structure PicksPaired (x : Picking) : Prop where
  wired : Wired x.1
  owned : Owned x.1
  halves : Halves x.1
  ends : ∀ p P, x.2 p = some P → x.1.app.wsSenders.lookup p = some P.chan ∧
    x.1.app.pollingReceivers.lookup p = some P.chan

lemma pickStep_eq_some {cfg : Config} {x x' : Picking} {l : Label}
    (h : pickStep cfg x l = some x') :
    step cfg x.1 l = some x'.1 ∧ x'.2 = follow cfg x l x'.1 := by
  obtain ⟨w', hw', rfl⟩ := Option.map_eq_some_iff.mp h
  exact ⟨hw', rfl⟩

/-- An admitted poll, as a request with its parameters. -/
lemma poll_of_admittedConn {cfg : Config} {w w' : World} {l : Label} {K : Conn}
    (hstep : step cfg w l = some w') (hK : admittedConn cfg w l = some K)
    (htransport : K.transport = .Polling) :
    ∃ q : Params, l.event = .connect (.poll q.query) ∧ q.Authenticates l.env cfg ∧
      OwnsIdHttp cfg w.app q ∧ q.id = K.id := by
  obtain ⟨r, hev, hout, -⟩ := (admittedConn_eq_some hstep).mp hK
  have hadm := connect_admitted hout
  cases hadm with
  | reconnect q K s' hK' htr _ _ _ _ => exact absurd (htr.symm.trans htransport) (by simp)
  | register q K s' hK' htr _ _ _ _ _ => exact absurd (htr.symm.trans htransport) (by simp)
  | stream q K s' hK' htr _ _ _ _ => exact absurd (htr.symm.trans htransport) (by simp)
  | poll q K s' hK' htr _ _ _ _ =>
      let p : Params := ⟨q.id, q.token, q.key, q.lastSeq, q.apiKey, q.jwt⟩
      have hadmitted : (connect l.env cfg w.app (.poll p.query)).isAdmitted = true := by
        rw [show p.query = q from rfl, hout]
        rfl
      obtain ⟨hauth, howns⟩ := (isAdmitted_http_iff l.env cfg w.app p).2.mp hadmitted
      exact ⟨p, hev, hauth, howns, Option.some.inj hK'.id⟩

/-- A poll that passes the checks is admitted. -/
lemma admittedConn_of_poll {cfg : Config} {w : World} {l : Label} {q : Params}
    (hev : l.event = .connect (.poll q.query)) (hauth : q.Authenticates l.env cfg)
    (howns : OwnsIdHttp cfg w.app q) :
    ∃ K, admittedConn cfg w l = some K ∧ K.id = q.id ∧ K.transport = .Polling := by
  have hadmitted := (isAdmitted_http_iff l.env cfg w.app q).2.mpr ⟨hauth, howns⟩
  cases hout : connect l.env cfg w.app (.poll q.query) with
  | rejected why s =>
      rw [hout] at hadmitted
      exact absurd hadmitted (by simp [Outcome.isAdmitted])
  | admitted K s =>
      have hK : admittedConn cfg w l = some K := by
        rw [admittedConn, hev]
        dsimp only
        rw [hout]
      cases connect_admitted hout with
      | poll _ _ _ hK' htr _ _ _ _ => exact ⟨K, hK, (Option.some.inj hK'.id).symm, htr⟩

section Steps

variable {cfg : Config} {x x' : Picking} {l : Label}

/-- Under the condition a poll that finds both ends finds those of one
channel. -/
lemma KeepsPairs.reused (hkeeps : KeepsPairs cfg x l x') (h : PicksPaired x)
    (hstep : pickStep cfg x l = some x') {K : Conn} {tx rx : ℕ}
    (hK : admittedConn cfg x.1 l = some K) (htransport : K.transport = .Polling)
    (htx : x.1.app.wsSenders.lookup K.id = some tx)
    (hrx : x.1.app.pollingReceivers.lookup K.id = some rx) : tx = rx := by
  obtain ⟨q, hev, hauth, howns, hid⟩ :=
    poll_of_admittedConn (pickStep_eq_some hstep).1 hK htransport
  rcases h.halves.sender K.id tx rx htx hrx with heq | ⟨S, hS, hc, hstream⟩
  · exact heq
  · have hstored : q.id ∈ x.1.app.pollingReceivers.keys := by
      rw [hid]
      exact Finmap.mem_keys.mpr (Finmap.mem_of_lookup_eq_some hrx)
    refine absurd ?_ (hkeeps.poll q hev hauth howns hstored S hS hstream)
    rw [hid, htx, hc]

/-- A picked channel stays the client's in a step of another client. -/
lemma ends_of_ne (hstep : pickStep cfg x l = some x') {K : Conn}
    (hK : admittedConn cfg x.1 l = some K) {p : String} (hp : p ≠ K.id) :
    x'.1.app.wsSenders.lookup p = x.1.app.wsSenders.lookup p ∧
      x'.1.app.pollingReceivers.lookup p = x.1.app.pollingReceivers.lookup p := by
  obtain ⟨r, -, hout, -⟩ := (admittedConn_eq_some (pickStep_eq_some hstep).1).mp hK
  exact (rewires_of_connect hout).lookup_of_ne hp

/-- After a poll both ends are those of the channel it picked. -/
lemma KeepsPairs.ends_of_poll (hkeeps : KeepsPairs cfg x l x') (h : PicksPaired x)
    (hstep : pickStep cfg x l = some x') {K : Conn} (hK : admittedConn cfg x.1 l = some K)
    (htransport : K.transport = .Polling) :
    x'.1.app.wsSenders.lookup K.id = some K.chan ∧
      x'.1.app.pollingReceivers.lookup K.id = some K.chan := by
  obtain ⟨r, -, hout, -⟩ := (admittedConn_eq_some (pickStep_eq_some hstep).1).mp hK
  cases rewires_of_connect hout with
  | stream hother hchan hsenders hreceivers => exact absurd htransport hother
  | rebuilt _ hmissing hchan hopen hsenders hreceivers =>
      rw [hsenders, hreceivers, hchan]
      exact ⟨Finmap.lookup_insert _, Finmap.lookup_insert _⟩
  | reused _ tx htx hrx hsenders hreceivers =>
      rw [hsenders, hreceivers, htx, hkeeps.reused h hstep hK htransport htx hrx]
      exact ⟨rfl, hrx⟩

lemma KeepsPairs.ends (hkeeps : KeepsPairs cfg x l x') (h : PicksPaired x)
    (hstep : pickStep cfg x l = some x') (p : String) (P : Pick) (hP : x'.2 p = some P) :
    x'.1.app.wsSenders.lookup p = some P.chan ∧
      x'.1.app.pollingReceivers.lookup p = some P.chan := by
  obtain ⟨hworld, hpicks⟩ := pickStep_eq_some hstep
  rw [hpicks, follow] at hP
  cases hK : admittedConn cfg x.1 l with
  | some K =>
      rw [hK] at hP
      dsimp only at hP
      split_ifs at hP with hp htransport
      · rw [← Option.some.inj hP, hp]
        exact hkeeps.ends_of_poll h hstep hK htransport
      · obtain ⟨hsender, hreceiver⟩ := ends_of_ne hstep hK hp
        rw [hsender, hreceiver]
        exact h.ends p P hP
  | none =>
      rw [hK] at hP
      dsimp only at hP
      split_ifs at hP with hgone
      obtain ⟨P₀, hP₀, rfl⟩ := Option.map_eq_some_iff.mp hP
      have hleft := ends_of_step hworld hK p
      have hremoves : ¬RemovesClient cfg x.1 l p := fun hr => hgone (hleft.gone (Or.inl hr))
      have hevicts : ¬Evicts cfg x.1 l p := fun he => hgone (hleft.gone (Or.inr he))
      obtain ⟨hsender, hreceiver⟩ := hleft.kept hremoves hevicts
      rw [hsender, hreceiver]
      exact h.ends p P₀ hP₀

/-- The frames on a picked channel are taken off by polls only, in order. -/
lemma sent_prefix (h : PicksPaired x) (hstep : pickStep cfg x l = some x') {p : String} {P : Pick}
    (hP : x.2 p = some P) :
    P.sent x.1 <+: Pick.sent ⟨P.chan, P.returned ++ taken x.1 l.event P.chan⟩ x'.1 := by
  have hlt := h.wired.senders p P.chan (h.ends p P hP).1
  have hqueue := (carries_of_step (pickStep_eq_some hstep).1).queue P.chan hlt
  rw [Pick.sent, Pick.sent, List.append_assoc]
  exact (List.prefix_append_right_inj P.returned).mpr hqueue

lemma KeepsPairs.returned (hkeeps : KeepsPairs cfg x l x') (h : PicksPaired x)
    (hstep : pickStep cfg x l = some x') (p : String) (P : Pick) (hP : x.2 p = some P)
    (hother : ∀ K, admittedConn cfg x.1 l = some K → K.id = p → K.transport = .Polling)
    (hevicts : ¬Evicts cfg x.1 l p) :
    (∃ P', x'.2 p = some P' ∧ P'.chan = P.chan ∧ P.sent x.1 <+: P'.sent x'.1) ∨
      (x'.2 p = none ∧ (x.1.app.chans P.chan).queue = []) := by
  obtain ⟨hworld, hpicks⟩ := pickStep_eq_some hstep
  have hsent := sent_prefix h hstep hP
  rw [hpicks, follow]
  cases hK : admittedConn cfg x.1 l with
  | some K =>
      have htaken : taken x.1 l.event P.chan = [] := by
        obtain ⟨r, hev, -⟩ := (admittedConn_eq_some hworld).mp hK
        rw [hev]
        rfl
      rw [htaken, List.append_nil] at hsent
      refine Or.inl ⟨P, ?_, rfl, hsent⟩
      dsimp only
      split_ifs with hp htransport
      · -- another poll of the client picks the channel again
        rw [hP, Option.map_some, Option.getD_some]
        obtain ⟨r, -, hout, -⟩ := (admittedConn_eq_some hworld).mp hK
        obtain ⟨hsender, hreceiver⟩ := h.ends p P hP
        rw [hp] at hsender hreceiver
        cases rewires_of_connect hout with
        | stream hother hchan hsenders hreceivers => exact absurd htransport hother
        | rebuilt _ hmissing hchan hopen hsenders hreceivers =>
            rw [hasPair_iff.mpr ⟨P.chan, P.chan, hreceiver, hsender⟩] at hmissing
            exact absurd hmissing (by simp)
        | reused _ tx htx hrx hsenders hreceivers =>
            rw [Option.some.inj (hrx.symm.trans hreceiver)]
      · exact absurd (hother K hK hp.symm) htransport
      · exact hP
  | none =>
      have hleft := ends_of_step hworld hK p
      dsimp only
      by_cases hremoves : RemovesClient cfg x.1 l p
      · rw [if_pos (hleft.gone (Or.inl hremoves))]
        exact Or.inr ⟨rfl, hkeeps.removal p P hP hremoves⟩
      · have hsender := (hleft.kept hremoves hevicts).1.trans (h.ends p P hP).1
        rw [if_neg (by simp [hsender]), hP]
        exact Or.inl ⟨_, rfl, rfl, hsent⟩

/-- A step that meets the condition keeps the ends paired. -/
lemma KeepsPairs.paired (hkeeps : KeepsPairs cfg x l x') (h : PicksPaired x)
    (hstep : pickStep cfg x l = some x') : PicksPaired x' ∧ EndsPaired cfg x l x' := by
  have hworld := (pickStep_eq_some hstep).1
  have hhalves := halves_of_step h.halves h.wired h.owned hworld
  have hends := hkeeps.ends h hstep
  refine ⟨⟨wired_of_step h.wired hworld, owned_of_step h.owned h.wired hworld, hhalves, hends⟩,
    ⟨fun K tx rx hK htransport htx hrx => hkeeps.reused h hstep hK htransport htx hrx,
      fun p P hP => ?_, hkeeps.returned h hstep⟩⟩
  obtain ⟨hsender, hreceiver⟩ := hends p P hP
  exact ⟨hsender, hreceiver, hhalves.isOpen p P.chan hreceiver⟩

/-- A step that keeps the ends paired meets the condition. -/
lemma EndsPaired.keeps (hpaired : EndsPaired cfg x l x') (h : PicksPaired x)
    (hstep : pickStep cfg x l = some x') : KeepsPairs cfg x l x' := by
  obtain ⟨hworld, hpicks⟩ := pickStep_eq_some hstep
  refine ⟨fun q hev hauth howns hstored S hS hstream hsender => ?_, fun p P hP hremoves => ?_⟩
  · obtain ⟨K, hK, hid, htransport⟩ := admittedConn_of_poll hev hauth howns
    obtain ⟨rx, hrx⟩ := Option.isSome_iff_exists.mp
      (Finmap.lookup_isSome.mpr (Finmap.mem_keys.mp hstored))
    rw [← hid] at hrx hsender
    -- the sender of the stream would be the end of a channel that only polls receive on
    have heq := hpaired.reused K S.chan rx hK htransport hsender hrx
    exact hstream (h.halves.polled K.id rx hrx S hS heq).2
  · obtain ⟨hadm, hevicts⟩ := hremoves.other
    have hgone := (ends_of_step hworld hadm p).gone (Or.inl hremoves)
    have hnone : x'.2 p = none := by
      rw [hpicks, follow, hadm]
      exact if_pos hgone
    rcases hpaired.returned p P hP (fun K hK => absurd (hadm.symm.trans hK) (by simp)) hevicts with
      ⟨P', hP', -⟩ | ⟨-, hqueue⟩
    · exact absurd (hnone.symm.trans hP') (by simp)
    · exact hqueue

end Steps

lemma picksPaired_init (cfg : Config) (redis : Redis) : PicksPaired (pickInit cfg redis) where
  wired := wired_init cfg redis
  owned := owned_init cfg redis
  halves := halves_init cfg redis
  ends p P hP := absurd hP (by simp [pickInit])

/-- The ends stay paired along a run just when every step meets the
condition. -/
theorem paired_iff (cfg : Config) (redis : Redis) (ls : List Label) :
    AllSteps (pickStep cfg) (EndsPaired cfg) (pickInit cfg redis) ls ↔
      AllSteps (pickStep cfg) (KeepsPairs cfg) (pickInit cfg redis) ls := by
  have hinit := picksPaired_init cfg redis
  constructor
  · refine AllSteps.of_invariant (fun x l x' h hstep hpaired => ?_) hinit
    have hkeeps := hpaired.keeps h hstep
    exact ⟨(hkeeps.paired h hstep).1, hkeeps⟩
  · exact AllSteps.of_invariant (fun x l x' h hstep hkeeps => hkeeps.paired h hstep) hinit

/-- The requests of `pat`, always with the same token. -/
def patParams : Params := Params.plain "pat" "t"

/-- A poll of `pat`. -/
def patPoll : Label := quietly (.connect (.poll patParams.query))

/-- A poll that follows a WebSocket connect of its id reuses the receiver of the
polls before and the sender of the WebSocket. -/
theorem poll_reuses_other_sender :
    ¬∀ (cfg : Config) (redis : Redis) (ls : List Label),
      AllSteps (pickStep cfg) (EndsPaired cfg) (pickInit cfg redis) ls := by
  intro hall
  let before := [patPoll, quietly (.connect patParams.ws)]
  have heval : (run (pickStep {}) (pickInit {} Redis.empty) before).map (fun x =>
      (x.1.app.wsSenders.lookup "pat", x.1.app.pollingReceivers.lookup "pat",
        (admittedConn {} x.1 patPoll).map fun K => (K.id, K.transport),
        (pickStep {} x patPoll).isSome)) =
      some (some 1, some 0, some ("pat", .Polling), true) := by decide +kernel
  obtain ⟨x, hrun, heq⟩ := Option.map_eq_some_iff.mp heval
  obtain ⟨htx, heq⟩ := Prod.mk.inj heq
  obtain ⟨hrx, heq⟩ := Prod.mk.inj heq
  obtain ⟨hK, hstep⟩ := Prod.mk.inj heq
  obtain ⟨x', hstep⟩ := Option.isSome_iff_exists.mp hstep
  obtain ⟨K, hK, hpat⟩ := Option.map_eq_some_iff.mp hK
  obtain ⟨hid, htransport⟩ := Prod.mk.inj hpat
  have hpaired := (hall {} Redis.empty (before ++ [patPoll])).last hrun hstep
  rw [← hid] at htx hrx
  exact absurd (hpaired.reused K 1 0 hK htransport htx hrx) (by simp)

end Dendri
