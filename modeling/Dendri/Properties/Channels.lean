import Dendri.System

/-!
The channels behind the stored senders and polling receivers, in every run.

* `Wired`: channels are numbered below the next number, a stored sender belongs
  to a registered id, to that id alone, and to an admitted connection;
* `Wired.of_shrink`, `Wired.of_fresh`, `Wired.of_pair`: a step that opens no
  channel, a connection on a new channel, and a poll on a stored pair;
* `Wires`, `wires_of_admits`: how an admitted connection gets its channel;
* `shrinks_of_step`: a step admits a connection, or opens no channel and stores
  no sender;
* `wired_of_step`: every step keeps the channels wired;
* `taken`: the frames a step takes off a channel;
* `Owned`, `owned_of_step`: a stored sender or receiver of an id is the channel
  of connections of this id only.
-/

namespace Dendri

open AppState Transition

/-- The stored senders and receivers are wired to the connections. -/
structure Wired (w : World) : Prop where
  chans : ∀ K ∈ w.conns, K.chan < w.app.nextChan
  senders : ∀ m c, w.app.wsSenders.lookup m = some c → c < w.app.nextChan
  receivers : ∀ m c, w.app.pollingReceivers.lookup m = some c → c < w.app.nextChan
  registered : ∀ m c, w.app.wsSenders.lookup m = some c → m ∈ w.app.clients.keys
  /-- A channel that is some id's sender is no other id's sender or receiver. -/
  own : ∀ m m' c, w.app.wsSenders.lookup m = some c ∨ w.app.pollingReceivers.lookup m = some c →
    w.app.wsSenders.lookup m' = some c → m = m'
  served : ∀ m c, w.app.wsSenders.lookup m = some c → ∃ K ∈ w.conns, K.chan = c

lemma ConnsLater.mem_back {conns conns' : List Conn} (h : ConnsLater conns conns') {K' : Conn}
    (hK' : K' ∈ conns') : ∃ K ∈ conns, K.Later K' := by
  obtain ⟨j, hj⟩ := List.mem_iff_getElem?.mp hK'
  obtain ⟨K, hK, hlater⟩ := h.back j K' hj
  exact ⟨K, List.mem_of_getElem? hK, hlater⟩

lemma ConnsLater.mem_forth {conns conns' : List Conn} (h : ConnsLater conns conns') {K : Conn}
    (hK : K ∈ conns) : ∃ K' ∈ conns', K.Later K' := by
  obtain ⟨j, hj⟩ := List.mem_iff_getElem?.mp hK
  obtain ⟨K', hK', hlater⟩ := h.forth j K hj
  exact ⟨K', List.mem_of_getElem? hK', hlater⟩

lemma mem_append_conn {conns : List Conn} {K K' : Conn} (h : K' ∈ conns ++ [K]) :
    K' ∈ conns ∨ K' = K :=
  (List.mem_append.mp h).imp_right fun hnew => List.mem_singleton.mp hnew

/-- No channel is opened, and every stored sender or receiver is an old one; the
senders belong to registered ids. -/
structure Shrinks (w w' : World) : Prop where
  conns : ConnsLater w.conns w'.conns
  next : w'.app.nextChan = w.app.nextChan
  receivers : ∀ m c, w'.app.pollingReceivers.lookup m = some c →
    w.app.pollingReceivers.lookup m = some c
  senders : ∀ m c, w'.app.wsSenders.lookup m = some c →
    w.app.wsSenders.lookup m = some c ∧ m ∈ w'.app.clients.keys

lemma Wired.of_shrink {w w' : World} (h : Wired w) (hs : Shrinks w w') : Wired w' := by
  obtain ⟨hconns, hnext, hreceivers, hsenders⟩ := hs
  refine ⟨fun K' hK' => ?_, fun m c hm => ?_, fun m c hm => ?_, fun m c hm => (hsenders m c hm).2,
    fun m m' c hm hm' => ?_, fun m c hm => ?_⟩
  · obtain ⟨K, hK, hlater⟩ := hconns.mem_back hK'
    rw [hlater.chan, hnext]
    exact h.chans K hK
  · rw [hnext]
    exact h.senders m c (hsenders m c hm).1
  · rw [hnext]
    exact h.receivers m c (hreceivers m c hm)
  · refine h.own m m' c ?_ (hsenders m' c hm').1
    exact hm.imp (fun hm => (hsenders m c hm).1) (hreceivers m c)
  · obtain ⟨K, hK, hc⟩ := h.served m c (hsenders m c hm).1
    obtain ⟨K', hK', hlater⟩ := hconns.mem_forth hK
    exact ⟨K', hK', hlater.chan.trans hc⟩

/-- A step that leaves senders, receivers, ids and channel numbers alone. -/
lemma Shrinks.of_frame {w w' : World} (h : Wired w) (hconns : ConnsLater w.conns w'.conns)
    (hnext : w'.app.nextChan = w.app.nextChan)
    (hreceivers : w'.app.pollingReceivers = w.app.pollingReceivers)
    (hsenders : w'.app.wsSenders = w.app.wsSenders)
    (hids : w'.app.registry.ids = w.app.registry.ids) : Shrinks w w' := by
  refine ⟨hconns, hnext, fun m c hm => by rwa [hreceivers] at hm, fun m c hm => ?_⟩
  rw [hsenders] at hm
  have hid : m ∈ w.app.registry.ids := h.registered m c hm
  rw [← hids] at hid
  exact ⟨hm, hid⟩

/-- The senders after one was stored for `id` on a new channel. -/
lemma sender_cases {s s' : AppState} {id : String}
    (h : s'.wsSenders = s.wsSenders.insert id s.nextChan) {m : String} {c : ℕ}
    (hm : s'.wsSenders.lookup m = some c) :
    (m = id ∧ c = s.nextChan) ∨ (m ≠ id ∧ s.wsSenders.lookup m = some c) := by
  rw [h, FinMap.lookup_insert_ite] at hm
  split_ifs at hm with hid
  · exact Or.inl ⟨hid, (Option.some.inj hm).symm⟩
  · exact Or.inr ⟨hid, hm⟩

/-- A new connection on a new channel. -/
lemma Wired.of_fresh {w : World} {K : Conn} {s' : AppState} (h : Wired w)
    (hchan : K.chan = w.app.nextChan) (hnext : s'.nextChan = w.app.nextChan + 1)
    (hsenders : s'.wsSenders = w.app.wsSenders.insert K.id w.app.nextChan)
    (hreceivers : ∀ m c, s'.pollingReceivers.lookup m = some c →
      w.app.pollingReceivers.lookup m = some c ∨ (m = K.id ∧ c = w.app.nextChan))
    (hids : s'.clients.keys = insert K.id w.app.clients.keys) :
    Wired ⟨s', w.conns ++ [K]⟩ := by
  refine ⟨fun K' hK' => ?_, fun m c hm => ?_, fun m c hm => ?_, fun m c hm => ?_,
    fun m m' c hm hm' => ?_, fun m c hm => ?_⟩
  · dsimp only
    rw [hnext]
    rcases mem_append_conn hK' with hold | rfl
    · have := h.chans K' hold
      omega
    · omega
  · dsimp only
    rw [hnext]
    rcases sender_cases hsenders hm with ⟨-, hc⟩ | ⟨-, hold⟩
    · omega
    · have := h.senders m c hold
      omega
  · dsimp only
    rw [hnext]
    rcases hreceivers m c hm with hold | ⟨-, hc⟩
    · have := h.receivers m c hold
      omega
    · omega
  · dsimp only
    rw [hids, Finset.mem_insert]
    exact (sender_cases hsenders hm).imp (fun hnew => hnew.1) fun hold => h.registered m c hold.2
  · -- the new channel is above all old ones, so old and new entries never meet
    have hfirst : (m = K.id ∧ c = w.app.nextChan) ∨
        ((w.app.wsSenders.lookup m = some c ∨ w.app.pollingReceivers.lookup m = some c) ∧
          c < w.app.nextChan) := by
      rcases hm with hm | hm
      · exact (sender_cases hsenders hm).imp_right fun hold =>
          ⟨Or.inl hold.2, h.senders m c hold.2⟩
      · exact (hreceivers m c hm).symm.imp_right fun hold => ⟨Or.inr hold, h.receivers m c hold⟩
    rcases hfirst with ⟨hm, hc⟩ | ⟨hm, hlt⟩
    · rcases sender_cases hsenders hm' with ⟨hm', -⟩ | ⟨-, hold⟩
      · rw [hm, hm']
      · have := h.senders m' c hold
        omega
    · rcases sender_cases hsenders hm' with ⟨-, hc⟩ | ⟨-, hold⟩
      · omega
      · exact h.own m m' c hm hold
  · rcases sender_cases hsenders hm with ⟨-, hc⟩ | ⟨-, hold⟩
    · exact ⟨K, by simp, hchan.trans hc.symm⟩
    · obtain ⟨K', hK', hc⟩ := h.served m c hold
      exact ⟨K', List.mem_append_left _ hK', hc⟩

/-- A poll that uses the stored pair of its id. -/
lemma Wired.of_pair {w : World} {K : Conn} {s' : AppState} (h : Wired w)
    (hreceiver : w.app.pollingReceivers.lookup K.id = some K.chan)
    (hnext : s'.nextChan = w.app.nextChan) (hsenders : s'.wsSenders = w.app.wsSenders)
    (hreceivers : s'.pollingReceivers = w.app.pollingReceivers)
    (hids : s'.clients.keys = insert K.id w.app.clients.keys) :
    Wired ⟨s', w.conns ++ [K]⟩ := by
  refine ⟨fun K' hK' => ?_, fun m c hm => ?_, fun m c hm => ?_, fun m c hm => ?_,
    fun m m' c hm hm' => ?_, fun m c hm => ?_⟩
  · dsimp only
    rw [hnext]
    rcases mem_append_conn hK' with hold | rfl
    · exact h.chans K' hold
    · exact h.receivers K'.id K'.chan hreceiver
  · dsimp only at hm ⊢
    rw [hsenders] at hm
    rw [hnext]
    exact h.senders m c hm
  · dsimp only at hm ⊢
    rw [hreceivers] at hm
    rw [hnext]
    exact h.receivers m c hm
  · dsimp only at hm ⊢
    rw [hsenders] at hm
    rw [hids]
    exact Finset.mem_insert_of_mem (h.registered m c hm)
  · dsimp only at hm hm'
    rw [hsenders, hreceivers] at hm
    rw [hsenders] at hm'
    exact h.own m m' c hm hm'
  · dsimp only at hm
    rw [hsenders] at hm
    obtain ⟨K', hK', hc⟩ := h.served m c hm
    exact ⟨K', List.mem_append_left _ hK', hc⟩

/-! ### How a connection gets its channel -/

/-- An admitted connection has a new channel, which becomes its id's sender and
perhaps its receiver, or is a poll on the stored pair of its id. -/
inductive Wires (s : AppState) (r : Request) (K : Conn) (s' : AppState) : Prop
  | fresh (hchan : K.chan = s.nextChan) (hnext : s'.nextChan = s.nextChan + 1)
      (hsenders : s'.wsSenders = s.wsSenders.insert K.id s.nextChan)
      (hreceivers : ∀ m c, s'.pollingReceivers.lookup m = some c →
        s.pollingReceivers.lookup m = some c ∨ (m = K.id ∧ c = s.nextChan))
      (hids : s'.clients.keys = insert K.id s.clients.keys) : Wires s r K s'
  | pair (hpoll : ∃ q, r = .poll q)
      (hreceiver : s.pollingReceivers.lookup K.id = some K.chan)
      (hsender : ∃ tx, s.wsSenders.lookup K.id = some tx)
      (hnext : s'.nextChan = s.nextChan) (hsenders : s'.wsSenders = s.wsSenders)
      (hreceivers : s'.pollingReceivers = s.pollingReceivers)
      (hids : s'.clients.keys = insert K.id s.clients.keys) : Wires s r K s'

/-- An enrolled WebSocket or event stream has a new channel. -/
lemma Wires.of_enroll {s s' : AppState} {r : Request} {K : Conn} {g : Registry}
    (hchan : K.chan = s.nextChan) (hreg : s'.registry = g.enroll K.id K.tenant)
    (hsenders : g.senders = s.wsSenders) (hreceivers : g.receivers = s.pollingReceivers)
    (hids : g.ids = s.clients.keys) (hnext : g.nextChan = s.nextChan) : Wires s r K s' := by
  obtain ⟨senders, ids, claims, tenants, receivers, buckets, active, replay, nextChan⟩ := g
  dsimp only at hsenders hreceivers hids hnext
  subst hsenders hreceivers hids hnext
  refine Wires.fresh hchan (congrArg Registry.nextChan hreg) (congrArg Registry.senders hreg)
    (fun m c hm => ?_) (congrArg Registry.ids hreg)
  rw [show s'.pollingReceivers = _ from congrArg Registry.receivers hreg] at hm
  exact Or.inl hm

lemma wires_of_admits {env : Env} {cfg : Config} {s s' : AppState} {r : Request} {K : Conn}
    (hadm : Admits env cfg s r K s') : Wires s r K s' := by
  cases hadm with
  | reconnect q K s' hK htransport hchan htoken hreg hrest =>
      exact Wires.of_enroll hchan hreg rfl rfl rfl rfl
  | register q K s' hK htransport hchan htoken hslot hreg hmaps =>
      exact Wires.of_enroll hchan hreg rfl rfl rfl rfl
  | stream q K s' hK htransport hchan hslot hreg hmaps =>
      exact Wires.of_enroll hchan hreg rfl rfl rfl rfl
  | poll q K s' hK htransport hchan hslot hreg hmaps =>
      have hids : s'.clients.keys = insert K.id s.clients.keys := congrArg Registry.ids hreg
      have hsenders : s'.wsSenders = if s.registry.hasPair K.id then s.wsSenders
          else s.wsSenders.insert K.id s.nextChan := congrArg Registry.senders hreg
      have hreceivers : s'.pollingReceivers = if s.registry.hasPair K.id then s.pollingReceivers
          else s.pollingReceivers.insert K.id s.nextChan := congrArg Registry.receivers hreg
      have hnext : s'.nextChan = if s.registry.hasPair K.id then s.nextChan
          else s.nextChan + 1 := congrArg Registry.nextChan hreg
      rw [Registry.pollChan] at hchan
      by_cases hpair : s.registry.hasPair K.id = true
      · rw [if_pos hpair] at hchan hsenders hreceivers hnext
        obtain ⟨hrx, htx⟩ := (Bool.and_eq_true _ _).mp hpair
        obtain ⟨rx, hrx⟩ := Option.isSome_iff_exists.mp hrx
        rw [hrx, Option.getD_some] at hchan
        exact Wires.pair ⟨q, rfl⟩ (by rw [hchan]; exact hrx) (Option.isSome_iff_exists.mp htx) hnext
          hsenders hreceivers hids
      · rw [if_neg hpair] at hchan hsenders hreceivers hnext
        refine Wires.fresh hchan hnext hsenders (fun m c hm => ?_) hids
        rw [hreceivers, FinMap.lookup_insert_ite] at hm
        split_ifs at hm with hid
        · exact Or.inr ⟨hid, (Option.some.inj hm).symm⟩
        · exact Or.inl hm

/-- Only the sender of the admitted id changes. -/
lemma Wires.lookup_of_ne {s s' : AppState} {r : Request} {K : Conn} (h : Wires s r K s')
    {m : String} (hm : m ≠ K.id) : s'.wsSenders.lookup m = s.wsSenders.lookup m := by
  cases h with
  | fresh hchan hnext hsenders hreceivers hids =>
      rw [hsenders, FinMap.lookup_insert_ite, if_neg hm]
  | pair hpoll hreceiver hsender hnext hsenders hreceivers hids => rw [hsenders]

/-! ### Steps -/

/-- The removal of records takes senders away with the ids. -/
lemma senders_of_receives {env : Env} {cfg : Config} {w : World} {s' : AppState} {id : String}
    {msg : Message} (hw : Wired w) (hrec : Receives env cfg w.app id msg s') {m : String} {c : ℕ}
    (hm : s'.wsSenders.lookup m = some c) :
    w.app.wsSenders.lookup m = some c ∧ m ∈ s'.clients.keys := by
  rw [hrec.lookup_wsSenders] at hm
  split_ifs at hm with hremoved
  exact ⟨hm, (hrec.mem_clients_iff m).mpr ⟨hw.registered m c hm, hremoved⟩⟩

lemma senders_of_evictBroken {env : Env} {cfg : Config} {w : World} (hw : Wired w) {m : String}
    {c : ℕ} (hm : (evictBroken env cfg w.app).wsSenders.lookup m = some c) :
    w.app.wsSenders.lookup m = some c ∧ m ∈ (evictBroken env cfg w.app).clients.keys := by
  have hdrops := Registry.foldl_drop_drops (toEvict env cfg w.app) w.app.registry
  simp only [← (registry_evictBroken env cfg w.app).1] at hdrops
  have hsender := (hdrops m).2.1.symm.trans hm
  split_ifs at hsender with hevict
  exact ⟨hsender, (hdrops m).1.mpr ⟨hw.registered m c hsender, hevict⟩⟩

lemma senders_of_cleanup {w : World} {s' : AppState} {id : String} {receivers : DashMap ℕ}
    (hw : Wired w)
    (hreg : s'.registry = { (w.app.registry.drop id).forget id with receivers := receivers })
    {m : String} {c : ℕ} (hm : s'.wsSenders.lookup m = some c) :
    w.app.wsSenders.lookup m = some c ∧ m ∈ s'.clients.keys ∧ m ≠ id := by
  rw [show s'.wsSenders = w.app.wsSenders.erase id from congrArg Registry.senders hreg,
    FinMap.lookup_erase_ite] at hm
  split_ifs at hm with hid
  refine ⟨hm, ?_, hid⟩
  rw [show s'.clients.keys = w.app.clients.keys.erase id from congrArg Registry.ids hreg]
  exact Finset.mem_erase.mpr ⟨hid, hw.registered m c hm⟩

/-- A cleanup of the connection at position `k`. -/
lemma Shrinks.of_cleanup {w : World} {s' : AppState} {k : ℕ} {id : String} {f : Conn → Conn}
    {receivers : DashMap ℕ} (h : Wired w) (hlater : ∀ K : Conn, K.Later (f K))
    (hreg : s'.registry = { (w.app.registry.drop id).forget id with receivers := receivers })
    (hreceivers : ∀ m c, receivers.lookup m = some c → w.app.pollingReceivers.lookup m = some c) :
    Shrinks w ⟨s', w.conns.modify k f⟩ := by
  refine ⟨ConnsLater.modify _ k hlater, congrArg Registry.nextChan hreg, fun m c hm => ?_,
    fun m c hm => ?_⟩
  · dsimp only at hm
    rw [show s'.pollingReceivers = receivers from congrArg Registry.receivers hreg] at hm
    exact hreceivers m c hm
  · obtain ⟨hold, hid, -⟩ := senders_of_cleanup h hreg hm
    exact ⟨hold, hid⟩

/-- The step admits a connection. -/
def AdmitsConn (cfg : Config) (w : World) (l : Label) (w' : World) (r : Request) (K : Conn) :
    Prop :=
  l.event = .connect r ∧ connect l.env cfg w.app r = .admitted K w'.app ∧
    w'.conns = w.conns ++ [K]

/-- A step admits a connection, or opens no channel and stores no sender. -/
lemma shrinks_of_step {cfg : Config} {w w' : World} {l : Label} (hw : Wired w)
    (h : step cfg w l = some w') : Shrinks w w' ∨ ∃ r K, AdmitsConn cfg w l w' r K := by
  obtain ⟨env, ev⟩ := l
  have ht := step_trans h
  dsimp only at ht
  cases ht with
  | refused r why hout =>
      refine Or.inl (Shrinks.of_frame hw (ConnsLater.refl _) ?_ ?_ ?_ ?_)
      all_goals
        cases storedClaims env cfg r with
        | none => rfl
        | some pair => rfl
  | admitted r K s' hout hadm => exact Or.inr ⟨r, K, rfl, hout, rfl⟩
  | message ev id msg s' hin hrec =>
      have hkeeps := Registry.keepsAuth_afterMessage env w.app id msg s'.replayBuffer
      rw [← hrec.registry] at hkeeps
      have hreceivers : s'.pollingReceivers = w.app.pollingReceivers := hkeeps.receivers
      exact Or.inl ⟨ConnsLater.refl _, hkeeps.nextChan, fun m c hm => by rwa [hreceivers] at hm,
        fun m c hm => senders_of_receives hw hrec hm⟩
  | socketClosed k K s' hdown hreg hun =>
      exact Or.inl (Shrinks.of_cleanup hw Conn.later_close hreg fun _ _ hm => hm)
  | streamCleaned ev k K s' f hev hdown hlater hclose hreg hun =>
      refine Or.inl (Shrinks.of_cleanup hw hlater hreg fun m c hm => ?_)
      rw [FinMap.lookup_erase_ite] at hm
      split_ifs at hm
      exact hm
  | evicted =>
      have hkeeps := Registry.keepsAuth_foldl_drop (toEvict env cfg w.app) w.app.registry
      rw [← (registry_evictBroken env cfg w.app).1] at hkeeps
      have hreceivers : (evictBroken env cfg w.app).pollingReceivers = w.app.pollingReceivers :=
        hkeeps.receivers
      exact Or.inl ⟨ConnsLater.refl _, hkeeps.nextChan, fun m c hm => by rwa [hreceivers] at hm,
        fun m c hm => senders_of_evictBroken hw hm⟩
  | reconciled => exact Or.inl (Shrinks.of_frame hw (ConnsLater.refl _) rfl rfl rfl rfl)
  | expired =>
      have hreg := registry_cleanupExpiredSessions env cfg w.app
      exact Or.inl (Shrinks.of_frame hw (ConnsLater.refl _) (congrArg Registry.nextChan hreg)
        (congrArg Registry.receivers hreg) (congrArg Registry.senders hreg)
        (congrArg Registry.ids hreg))
  | replayEvicted => exact Or.inl (Shrinks.of_frame hw (ConnsLater.refl _) rfl rfl rfl rfl)
  | quiet ev w' hin hdown hconnect hevict hreg hmaps hconns =>
      exact Or.inl (Shrinks.of_frame hw hconns (congrArg Registry.nextChan hreg)
        (congrArg Registry.receivers hreg) (congrArg Registry.senders hreg)
        (congrArg Registry.ids hreg))

/-- Every step keeps the channels wired. -/
lemma wired_of_step {cfg : Config} {w w' : World} {l : Label} (hw : Wired w)
    (h : step cfg w l = some w') : Wired w' := by
  rcases shrinks_of_step hw h with hs | ⟨r, K, -, hout, hconns⟩
  · exact hw.of_shrink hs
  · obtain ⟨s', conns⟩ := w'
    dsimp only at hout hconns
    rw [hconns]
    cases wires_of_admits (connect_admitted hout) with
    | fresh hchan hnext hsenders hreceivers hids =>
        exact hw.of_fresh hchan hnext hsenders hreceivers hids
    | pair hpoll hreceiver hsender hnext hsenders hreceivers hids =>
        exact hw.of_pair hreceiver hnext hsenders hreceivers hids

lemma wired_init (cfg : Config) (redis : Redis) : Wired (World.init cfg redis) where
  chans K hK := absurd hK (by simp [World.init])
  senders m c hm := absurd hm (by simp [World.init, AppState.new])
  receivers m c hm := absurd hm (by simp [World.init, AppState.new])
  registered m c hm := absurd hm (by simp [World.init, AppState.new])
  own m m' c _ hm := absurd hm (by simp [World.init, AppState.new])
  served m c hm := absurd hm (by simp [World.init, AppState.new])

/-- The frames that a step takes off a channel. -/
def taken (w : World) : Event → ℕ → List Frame
  | .deliver c n, i => if i = c ∧ c < w.app.nextChan then (w.app.chans c).queue.take n else []
  | _, _ => []

/-! ### Whose channel it is -/

/-- The stored sender of an id belongs to connections of this id only, and its
polling receiver to one of them. -/
structure Owned (w : World) : Prop where
  sender : ∀ K ∈ w.conns, ∀ m, w.app.wsSenders.lookup m = some K.chan → m = K.id
  receiver : ∀ m c, w.app.pollingReceivers.lookup m = some c → ∃ K ∈ w.conns, K.id = m ∧ K.chan = c

lemma Owned.of_shrink {w w' : World} (h : Owned w) (hs : Shrinks w w') : Owned w' := by
  refine ⟨fun K' hK' m hm => ?_, fun m c hm => ?_⟩
  · obtain ⟨K, hK, hlater⟩ := hs.conns.mem_back hK'
    rw [hlater.chan] at hm
    rw [hlater.id]
    exact h.sender K hK m (hs.senders m _ hm).1
  · obtain ⟨K, hK, hid, hc⟩ := h.receiver m c (hs.receivers m c hm)
    obtain ⟨K', hK', hlater⟩ := hs.conns.mem_forth hK
    exact ⟨K', hK', hlater.id.trans hid, hlater.chan.trans hc⟩

/-- A new connection on a new channel, or on the pair of its id. -/
lemma Owned.of_wires {w : World} {r : Request} {K : Conn} {s' : AppState} (h : Owned w)
    (hw : Wired w) (hwires : Wires w.app r K s') : Owned ⟨s', w.conns ++ [K]⟩ := by
  cases hwires with
  | fresh hchan hnext hsenders hreceivers hids =>
      refine ⟨fun K' hK' m hm => ?_, fun m c hm => ?_⟩
      · rcases mem_append_conn hK' with hold | rfl
        · rcases sender_cases hsenders hm with ⟨-, hc⟩ | ⟨-, hm⟩
          · have := hw.chans K' hold
            omega
          · exact h.sender K' hold m hm
        · rcases sender_cases hsenders hm with ⟨hid, -⟩ | ⟨-, hm⟩
          · exact hid
          · have := hw.senders m _ hm
            omega
      · rcases hreceivers m c hm with hold | ⟨rfl, rfl⟩
        · obtain ⟨K', hK', hid, hc⟩ := h.receiver m c hold
          exact ⟨K', List.mem_append_left _ hK', hid, hc⟩
        · exact ⟨K, by simp, rfl, hchan⟩
  | pair hpoll hreceiver hsender hnext hsenders hreceivers hids =>
      refine ⟨fun K' hK' m hm => ?_, fun m c hm => ?_⟩
      · dsimp only at hm
        rw [hsenders] at hm
        rcases mem_append_conn hK' with hold | rfl
        · exact h.sender K' hold m hm
        · exact (hw.own K'.id m K'.chan (Or.inr hreceiver) hm).symm
      · dsimp only at hm
        rw [hreceivers] at hm
        obtain ⟨K', hK', hid, hc⟩ := h.receiver m c hm
        exact ⟨K', List.mem_append_left _ hK', hid, hc⟩

lemma owned_of_step {cfg : Config} {w w' : World} {l : Label} (h : Owned w) (hw : Wired w)
    (hstep : step cfg w l = some w') : Owned w' := by
  rcases shrinks_of_step hw hstep with hs | ⟨r, K, -, hout, hconns⟩
  · exact h.of_shrink hs
  · obtain ⟨s', conns⟩ := w'
    dsimp only at hout hconns
    rw [hconns]
    exact h.of_wires hw (wires_of_admits (connect_admitted hout))

lemma owned_init (cfg : Config) (redis : Redis) : Owned (World.init cfg redis) where
  sender K hK := absurd hK (by simp [World.init])
  receiver m c hm := absurd hm (by simp [World.init, AppState.new])

end Dendri
