import Dendri.Properties.Supplies

/-!
What the members of a room get to see of it, and two states of the server that
are alike for them.

* `Names n key`: the key is the storage key of a room named `n`, of some
  tenant;
* `Frame.scoped n`, `roomView n`: the `DATA`, `PRESENCE-UPDATE` and
  `ROOM-PEERS` frames of rooms named `n`, without what the server stamps on
  them;
* `Alike c n`: two states that differ only in what the client `c` has done
  outside the rooms named `n`;
* one lemma for each statement and handler: on one side, if it does nothing
  that shows in the rooms named `n`, and on both sides, if it does the same in
  both states.
-/

namespace Dendri

open AppState

/-! ### The frames of a room -/

/-- The key is the storage key of a room named `n`. -/
def Names (n key : String) : Prop := ∃ tenant, key = namespaceRoom tenant n

lemma names_iff {n key : String} :
    Names n key ↔ key = n ∨ (tenantSep :: n.toList) <:+ key.toList := by
  constructor
  · rintro ⟨tenant, rfl⟩
    cases tenant with
    | none => exact Or.inl rfl
    | some tenant =>
        right
        rw [toList_namespaceRoom_some]
        exact List.suffix_append _ _
  · rintro (rfl | ⟨tenant, htenant⟩)
    · exact ⟨none, rfl⟩
    · refine ⟨some (String.ofList tenant), ?_⟩
      rw [← String.toList_inj, toList_namespaceRoom_some, ← htenant, String.toList_ofList]

instance (n key : String) : Decidable (Names n key) := decidable_of_iff _ names_iff.symm

/-- A validly named room is named by its name only. -/
lemma names_namespaceRoom {n m : String} {tenant : Option String}
    (hn : isValidIdentifier n = true) (hm : isValidIdentifier m = true) :
    Names n (namespaceRoom tenant m) ↔ m = n := by
  constructor
  · rintro ⟨tenant', h⟩
    exact (namespaceRoom_inj hm hn h).2
  · rintro rfl
    exact ⟨tenant, rfl⟩

/-- A valid identifier names a room only if it is its name. -/
lemma names_of_valid {n m : String} (hn : isValidIdentifier n = true)
    (hm : isValidIdentifier m = true) : Names n m ↔ m = n := by
  have hnames : Names n (namespaceRoom none m) ↔ m = n := names_namespaceRoom hn hm
  exact hnames

/-- The name shown for a key names no room that the key does not. -/
lemma Names.of_roomDisplay {n key : String} (h : Names n (roomDisplay key)) : Names n key := by
  rw [roomDisplay] at h
  have hsplit := List.takeWhile_append_dropWhile (p := (· ≠ tenantSep)) (l := key.toList)
  cases hdrop : key.toList.dropWhile (· ≠ tenantSep) with
  | nil =>
      rw [hdrop] at h
      exact h
  | cons sep name =>
      have hsep : sep = tenantSep := by
        have := List.head?_dropWhile_not (fun c => decide (c ≠ tenantSep)) key.toList
        rw [hdrop] at this
        simpa using this
      rw [hdrop] at h hsplit
      rw [hsep] at hsplit
      rw [names_iff] at h ⊢
      right
      rw [← hsplit]
      rcases h with rfl | h
      · rw [String.toList_ofList]
        exact List.suffix_append _ _
      · rw [String.toList_ofList] at h
        exact (h.trans (List.suffix_cons _ _)).trans (List.suffix_append _ _)

/-- A frame of a room named `n`, without the sequence number and the timestamp
that `handle_data` sets. -/
def Frame.scoped (n : String) : Frame → Option Frame
  | .relay msg =>
      if (∃ room ∈ msg.room, Names n room) then
        match msg.type_ with
        | .DATA => some (.relay { msg with seq := none, timestamp := none })
        | .PresenceUpdate => some (.relay msg)
        | _ => none
      else none
  | .roomPeers room members => if Names n room then some (.roomPeers room members) else none
  | .presence src room payload => if Names n room then some (.presence src room payload) else none
  | _ => none

/-- The frames of the rooms named `n`. -/
def roomView (n : String) (frames : List Frame) : List Frame := frames.filterMap (Frame.scoped n)

lemma roomView_append (n : String) (l m : List Frame) :
    roomView n (l ++ m) = roomView n l ++ roomView n m :=
  List.filterMap_append

/-- Frames that belong to no room named `n` do not show. -/
lemma roomView_eq_nil {n : String} {frames : List Frame} (h : ∀ f ∈ frames, f.scoped n = none) :
    roomView n frames = [] :=
  List.filterMap_eq_nil_iff.mpr h

/-- A message between peers is of no room, whatever room it names. -/
lemma scoped_of_isTransmission {n : String} {msg : Message}
    (h : msg.type_.isTransmission = true) : (Frame.relay msg).scoped n = none := by
  rw [Frame.scoped]
  split_ifs
  · obtain ⟨type_, src, dst, payload, seq, room, timestamp, topicClass⟩ := msg
    cases type_ with
    | OFFER | ANSWER | CANDIDATE | ACK | LEAVE | EXPIRE => rfl
    | _ => exact absurd h (by simp [MessageType.isTransmission])
  · rfl

lemma scoped_of_room {n : String} {msg : Message} (h : ∀ room ∈ msg.room, ¬Names n room) :
    (Frame.relay msg).scoped n = none := by
  rw [Frame.scoped, if_neg]
  rintro ⟨room, hroom, hnames⟩
  exact h room hroom hnames

lemma scoped_roomPeers {n room : String} (members : Finset String) (h : ¬Names n room) :
    (Frame.roomPeers room members).scoped n = none := by
  rw [Frame.scoped, if_neg h]

lemma scoped_presence {n room : String} (src payload : String) (h : ¬Names n room) :
    (Frame.presence src room payload).scoped n = none := by
  rw [Frame.scoped, if_neg h]

/-- What the server stamps on a message does not show. -/
lemma scoped_stamp (n : String) {msg : Message} (htype : msg.type_ = .DATA) (seq : Option ℕ)
    (timestamp : Option ℤ) :
    (Frame.relay { msg with seq := seq, timestamp := timestamp }).scoped n =
      (Frame.relay { msg with seq := none, timestamp := none }).scoped n := by
  simp only [Frame.scoped, htype]

/-! ### States that are alike -/

/-- The members that a room map has for a key. -/
def membersAt (rooms : DashMap (Finset String)) (key : String) : Finset String :=
  (rooms.lookup key).getD ∅

/-- Two room maps that differ only in the memberships of `c`, and not at the
keys of rooms named `n`. -/
structure RoomsAlike (c n : String) (m m' : DashMap (Finset String)) : Prop where
  members : ∀ key, (membersAt m key).erase c = (membersAt m' key).erase c
  named : ∀ key, Names n key → m.lookup key = m'.lookup key

/-- Two states that differ only in what `c` has done outside the rooms named
`n`. The frames `p i` and `q i` were taken off the channel `i` before. -/
structure Alike (c n : String) (p q : ℕ → List Frame) (s t : AppState) : Prop where
  senders : s.wsSenders = t.wsSenders
  clients : ∀ id, id ≠ c → s.clients.lookup id = t.clients.lookup id
  /-- The record of `c` may differ in its two timestamps. -/
  owner : (s.clients.lookup c).map ClientMeta.token = (t.clients.lookup c).map ClientMeta.token
  rooms : RoomsAlike c n s.rooms t.rooms
  index : ∀ id, id ≠ c → s.clientRooms.lookup id = t.clientRooms.lookup id
  pending : ∀ id, id ≠ c → s.pendingRemovals.lookup id = t.pendingRemovals.lookup id
  presence : ∀ key, Names n key → s.presence.lookup key = t.presence.lookup key
  claims : s.clientClaims = t.clientClaims
  tenants : s.clientTenants = t.clientTenants
  slots : s.activeConnections = t.activeConnections
  receivers : s.pollingReceivers = t.pollingReceivers
  tokens : s.redis.clientToken = t.redis.clientToken
  next : s.nextChan = t.nextChan
  closed : ∀ i, (s.chans i).closed = (t.chans i).closed
  frames : ∀ i, i < s.nextChan →
    roomView n (p i ++ (s.chans i).queue) = roomView n (q i ++ (t.chans i).queue)
  fresh : ∀ i, s.nextChan ≤ i → roomView n (p i) = roomView n (q i)

section Alike

variable {c n : String} {p q r : ℕ → List Frame} {s t u v : AppState}
  {m m' m'' : DashMap (Finset String)}

lemma RoomsAlike.refl (c n : String) (m : DashMap (Finset String)) : RoomsAlike c n m m :=
  ⟨fun _ => rfl, fun _ _ => rfl⟩

lemma RoomsAlike.symm (h : RoomsAlike c n m m') : RoomsAlike c n m' m :=
  ⟨fun key => (h.members key).symm, fun key hkey => (h.named key hkey).symm⟩

lemma RoomsAlike.trans (h : RoomsAlike c n m m') (h' : RoomsAlike c n m' m'') :
    RoomsAlike c n m m'' :=
  ⟨fun key => (h.members key).trans (h'.members key),
    fun key hkey => (h.named key hkey).trans (h'.named key hkey)⟩

lemma Alike.refl (c n : String) (p : ℕ → List Frame) (s : AppState) : Alike c n p p s s := by
  have hrooms := RoomsAlike.refl c n s.rooms
  constructor <;> intros <;> first | rfl | exact hrooms

lemma Alike.symm (h : Alike c n p q s t) : Alike c n q p t s where
  senders := h.senders.symm
  clients id hid := (h.clients id hid).symm
  owner := h.owner.symm
  rooms := h.rooms.symm
  index id hid := (h.index id hid).symm
  pending id hid := (h.pending id hid).symm
  presence key hkey := (h.presence key hkey).symm
  claims := h.claims.symm
  tenants := h.tenants.symm
  slots := h.slots.symm
  receivers := h.receivers.symm
  tokens := h.tokens.symm
  next := h.next.symm
  closed i := (h.closed i).symm
  frames i hi := (h.frames i (h.next ▸ hi)).symm
  fresh i hi := (h.fresh i (h.next ▸ hi)).symm

lemma Alike.trans (h : Alike c n p q s t) (h' : Alike c n q r t u) : Alike c n p r s u where
  senders := h.senders.trans h'.senders
  clients id hid := (h.clients id hid).trans (h'.clients id hid)
  owner := h.owner.trans h'.owner
  rooms := h.rooms.trans h'.rooms
  index id hid := (h.index id hid).trans (h'.index id hid)
  pending id hid := (h.pending id hid).trans (h'.pending id hid)
  presence key hkey := (h.presence key hkey).trans (h'.presence key hkey)
  claims := h.claims.trans h'.claims
  tenants := h.tenants.trans h'.tenants
  slots := h.slots.trans h'.slots
  receivers := h.receivers.trans h'.receivers
  tokens := h.tokens.trans h'.tokens
  next := h.next.trans h'.next
  closed i := (h.closed i).trans (h'.closed i)
  frames i hi := (h.frames i hi).trans (h'.frames i (h.next ▸ hi))
  fresh i hi := (h.fresh i hi).trans (h'.fresh i (h.next ▸ hi))

/-- What both sides do apart from each other. -/
lemma Alike.square (h : Alike c n p q s t) (hs : Alike c n p p s u) (ht : Alike c n q q t v) :
    Alike c n p q u v :=
  (hs.symm.trans h).trans ht

/-- The part of a state that `Alike` speaks about. -/
def AppState.visible (s : AppState) : DashMap ℕ × DashMap ClientMeta × DashMap (Finset String) ×
    DashMap (Finset String) × DashMap PendingRemoval × DashMap (DashMap String) × DashMap Value ×
    DashMap String × UInt64 × DashMap ℕ × DashMap String × ℕ × (ℕ → Channel) :=
  (s.wsSenders, s.clients, s.rooms, s.clientRooms, s.pendingRemovals, s.presence, s.clientClaims,
    s.clientTenants, s.activeConnections, s.pollingReceivers, s.redis.clientToken, s.nextChan,
    s.chans)

/-- A statement on what no member of a room can see: sequence numbers, replay
buffers, message queues and rate-limit buckets. -/
lemma Alike.of_visible (h : t.visible = s.visible) : Alike c n p p s t := by
  simp only [AppState.visible, Prod.mk.injEq] at h
  obtain ⟨h₁, h₂, h₃, h₄, h₅, h₆, h₇, h₈, h₉, h₁₀, h₁₁, h₁₂, h₁₃⟩ := h
  have hrooms : RoomsAlike c n s.rooms t.rooms := h₃ ▸ RoomsAlike.refl c n s.rooms
  constructor <;> intros <;>
    first | exact hrooms | simp only [h₁, h₂, h₄, h₅, h₆, h₇, h₈, h₉, h₁₀, h₁₁, h₁₂, h₁₃]

/-- The channels of two alike states. -/
lemma Alike.of_chans (h : Alike c n p q s t) {chans chans' : ℕ → Channel}
    (hclosed : ∀ i, (chans i).closed = (chans' i).closed)
    (hframes : ∀ i, i < s.nextChan →
      roomView n (p i ++ (chans i).queue) = roomView n (q i ++ (chans' i).queue)) :
    Alike c n p q { s with chans := chans } { t with chans := chans' } :=
  { h with closed := hclosed, frames := hframes }

/-! ### Frames -/

/-- Frames that show alike are sent on both sides. -/
lemma Alike.send (h : Alike c n p q s t) (i : ℕ) {frames frames' : List Frame}
    (hview : roomView n frames = roomView n frames') :
    Alike c n p q (s.send i frames) (t.send i frames') := by
  refine h.of_chans (fun j => ?_) fun j hj => ?_
  · rw [← h.closed i]
    split_ifs
    · exact h.closed i
    · exact h.closed j
  · rw [← h.closed i]
    split_ifs with hi
    · have hframes := h.frames i (hi.1 ▸ hj)
      rw [hi.1, ← List.append_assoc, ← List.append_assoc, roomView_append, hframes, hview,
        ← roomView_append]
    · exact h.frames j hj

lemma Alike.sendTo (h : Alike c n p q s t) (id : String) {frames frames' : List Frame}
    (hview : roomView n frames = roomView n frames') :
    Alike c n p q (s.sendTo id frames) (t.sendTo id frames') := by
  cases hs : s.wsSenders.lookup id with
  | none =>
      rw [sendTo_of_none hs, sendTo_of_none (h.senders ▸ hs)]
      exact h
  | some i =>
      rw [sendTo_of_some hs, sendTo_of_some (h.senders ▸ hs)]
      exact h.send i hview

/-- The same members get frames that show alike. -/
lemma Alike.fanOut (h : Alike c n p q s t) (members : Finset String) {frame frame' : Frame}
    (hview : frame.scoped n = frame'.scoped n) :
    Alike c n p q (s.fanOut members frame) (t.fanOut members frame') := by
  refine h.of_chans (fun i => ?_) fun i hi => ?_
  · rw [← h.senders, ← h.closed i]
    split_ifs
    · exact h.closed i
    · exact h.closed i
  · have hone : roomView n [frame] = roomView n [frame'] := by
      simp only [roomView, List.filterMap_cons, hview]
    rw [← h.senders, ← h.closed i]
    split_ifs
    · rw [← List.append_assoc, ← List.append_assoc, roomView_append, h.frames i hi, hone,
        ← roomView_append]
    · exact h.frames i hi

/-- On one side the channels get frames of no room named `n`. -/
lemma alike_of_chans (s : AppState) {chans : ℕ → Channel}
    (hclosed : ∀ i, (chans i).closed = (s.chans i).closed)
    (hframes : ∀ i, roomView n (chans i).queue = roomView n (s.chans i).queue) :
    Alike c n p p s { s with chans := chans } := by
  refine (Alike.refl c n p s).of_chans (fun i => (hclosed i).symm) fun i _ => ?_
  rw [roomView_append, roomView_append, hframes i]

lemma alike_send (s : AppState) (i : ℕ) {frames : List Frame}
    (h : ∀ f ∈ frames, f.scoped n = none) : Alike c n p p s (s.send i frames) := by
  refine alike_of_chans s (fun j => ?_) fun j => ?_
  · split_ifs with hj
    · rw [hj.1]
    · rfl
  · split_ifs with hj
    · rw [hj.1, roomView_append, roomView_eq_nil h, List.append_nil]
    · rfl

lemma alike_sendTo (s : AppState) (id : String) {frames : List Frame}
    (h : ∀ f ∈ frames, f.scoped n = none) : Alike c n p p s (s.sendTo id frames) := by
  cases hs : s.wsSenders.lookup id with
  | none =>
      rw [sendTo_of_none hs]
      exact Alike.refl c n p s
  | some i =>
      rw [sendTo_of_some hs]
      exact alike_send s i h

lemma alike_fanOut (s : AppState) (members : Finset String) {frame : Frame}
    (h : frame.scoped n = none) : Alike c n p p s (s.fanOut members frame) := by
  have hone : ∀ f ∈ [frame], f.scoped n = none := by simpa using h
  refine alike_of_chans s (fun i => ?_) fun i => ?_
  · split_ifs <;> rfl
  · split_ifs
    · rw [roomView_append, roomView_eq_nil hone, List.append_nil]
    · rfl

/-! ### Channels and records -/

lemma Alike.newChannel (h : Alike c n p q s t) : Alike c n p q s.newChannel t.newChannel := by
  have hnext : s.newChannel.nextChan = s.nextChan + 1 := rfl
  refine { h with
    next := congrArg (· + 1) h.next
    closed := fun i => ?_
    frames := fun i hi => ?_
    fresh := fun i hi => h.fresh i (by omega) }
  · simp only [AppState.newChannel, ← h.next]
    split_ifs
    · rfl
    · exact h.closed i
  · simp only [AppState.newChannel, ← h.next]
    split_ifs with hnew
    · rw [roomView_append, roomView_append, h.fresh i hnew.ge]
    · exact h.frames i (by omega)

lemma Alike.closeChannel (h : Alike c n p q s t) (i : ℕ) :
    Alike c n p q (s.closeChannel i) (t.closeChannel i) := by
  refine h.of_chans (fun j => ?_) fun j hj => ?_
  · split_ifs
    · rfl
    · exact h.closed j
  · split_ifs with hi
    · rw [hi] at hj ⊢
      exact h.frames i hj
    · exact h.frames j hj

/-- A write of one entry of a map, on both sides. -/
lemma lookup_insert_congr {V : Type} {m m' : DashMap V} {P : String → Prop}
    (h : ∀ k, P k → m.lookup k = m'.lookup k) (k : String) (v : V) :
    ∀ a, P a → (m.insert k v).lookup a = (m'.insert k v).lookup a := by
  intro a ha
  rw [FinMap.lookup_insert_ite, FinMap.lookup_insert_ite, h a ha]

lemma lookup_erase_congr {V : Type} {m m' : DashMap V} {P : String → Prop}
    (h : ∀ k, P k → m.lookup k = m'.lookup k) (k : String) :
    ∀ a, P a → (m.erase k).lookup a = (m'.erase k).lookup a := by
  intro a ha
  rw [FinMap.lookup_erase_ite, FinMap.lookup_erase_ite, h a ha]

lemma Alike.insertClient (h : Alike c n p q s t) (now : ℕ) (id token : String)
    (transport : TransportKind) :
    Alike c n p q (s.insertClient now id token transport)
      (t.insertClient now id token transport) := by
  refine { h with clients := lookup_insert_congr h.clients id _, owner := ?_ }
  simp only [AppState.insertClient, FinMap.lookup_insert_ite]
  split_ifs
  · rfl
  · exact h.owner

/-- The ids that are registered, and the tokens they are registered with. -/
lemma Alike.token (h : Alike c n p q s t) (id : String) :
    (s.clients.lookup id).map ClientMeta.token = (t.clients.lookup id).map ClientMeta.token := by
  by_cases hid : id = c
  · rw [hid]
    exact h.owner
  · rw [h.clients id hid]

lemma Alike.registered (h : Alike c n p q s t) (id : String) :
    (s.clients.lookup id).isSome = (t.clients.lookup id).isSome := by
  have htoken := congrArg Option.isSome (h.token id)
  rwa [Option.isSome_map, Option.isSome_map] at htoken

lemma Alike.dropClient (h : Alike c n p q s t) (id : String) :
    Alike c n p q (s.dropClient id) (t.dropClient id) := by
  refine { h with
    senders := congrArg (Finmap.erase id) h.senders
    clients := lookup_erase_congr h.clients id
    owner := ?_
    slots := ?_ }
  · simp only [AppState.dropClient, FinMap.lookup_erase_ite]
    split_ifs
    · rfl
    · exact h.owner
  · simp only [AppState.dropClient, h.registered id, h.slots]

/-- The activity of `c` is recorded on one side. -/
lemma alike_modify_own (s : AppState) {f : ClientMeta → ClientMeta}
    (hf : ∀ m, (f m).token = m.token) :
    Alike c n p p s { s with clients := FinMap.modify s.clients c f } := by
  refine { Alike.refl c n p s with clients := fun id hid => ?_, owner := ?_ }
  · rw [FinMap.lookup_modify, if_neg hid]
  · rw [FinMap.lookup_modify, if_pos rfl]
    cases s.clients.lookup c with
    | none => rfl
    | some m => exact congrArg some (hf m).symm

/-- The activity of a client is recorded on both sides. -/
lemma Alike.modify (h : Alike c n p q s t) (id : String) {f : ClientMeta → ClientMeta}
    (hf : ∀ m, (f m).token = m.token) :
    Alike c n p q { s with clients := FinMap.modify s.clients id f }
      { t with clients := FinMap.modify t.clients id f } := by
  by_cases hid : id = c
  · rw [hid]
    exact h.square (alike_modify_own s hf) (alike_modify_own t hf)
  · refine { h with clients := fun d hd => ?_, owner := ?_ }
    · rw [FinMap.lookup_modify, FinMap.lookup_modify, h.clients id hid, h.clients d hd]
    · rw [FinMap.lookup_modify, FinMap.lookup_modify, if_neg (Ne.symm hid), if_neg (Ne.symm hid)]
      exact h.owner

lemma Alike.redisRegisterClient (h : Alike c n p q s t) (env : Env) (id token : String) :
    Alike c n p q (s.redisRegisterClient env id token) (t.redisRegisterClient env id token) := by
  refine { h with tokens := ?_ }
  simp only [AppState.redisRegisterClient]
  split_ifs
  · exact congrArg (Finmap.insert id token) h.tokens
  · exact h.tokens

lemma Alike.redisRemoveClient (h : Alike c n p q s t) (env : Env) (id : String) :
    Alike c n p q (s.redisRemoveClient env id) (t.redisRemoveClient env id) := by
  refine { h with tokens := ?_ }
  simp only [AppState.redisRemoveClient]
  split_ifs
  · exact congrArg (Finmap.erase id) h.tokens
  · exact h.tokens

/-! ### Rooms -/

lemma membersAt_insert (m : DashMap (Finset String)) (key k : String) (members : Finset String) :
    membersAt (m.insert key members) k = if k = key then members else membersAt m k := by
  rw [membersAt, FinMap.lookup_insert_ite]
  split_ifs
  · rfl
  · rfl

/-- A client is put into a room. -/
def putInto (id : String) (m : DashMap (Finset String)) (key : String) :
    DashMap (Finset String) :=
  m.insert key (insert id (membersAt m key))

lemma RoomsAlike.putInto (h : RoomsAlike c n m m') (id key : String) :
    RoomsAlike c n (putInto id m key) (putInto id m' key) := by
  rw [Dendri.putInto, Dendri.putInto]
  refine ⟨fun k => ?_, fun k hk => ?_⟩
  · rw [membersAt_insert, membersAt_insert]
    split_ifs
    · by_cases hid : id = c
      · rw [hid, Finset.erase_insert_eq_erase, Finset.erase_insert_eq_erase, h.members key]
      · rw [Finset.erase_insert_of_ne hid, Finset.erase_insert_of_ne hid, h.members key]
    · exact h.members k
  · rw [FinMap.lookup_insert_ite, FinMap.lookup_insert_ite]
    split_ifs with hkey
    · rw [membersAt, membersAt, h.named key (hkey ▸ hk)]
    · exact h.named k hk

/-- `c` is put into a room that is not named `n`. -/
lemma roomsAlike_putInto_own (m : DashMap (Finset String)) {key : String} (hkey : ¬Names n key) :
    RoomsAlike c n m (putInto c m key) := by
  rw [putInto]
  refine ⟨fun k => ?_, fun k hk => ?_⟩
  · rw [membersAt_insert]
    split_ifs with hk
    · rw [hk, Finset.erase_insert_eq_erase]
    · rfl
  · have hne : k ≠ key := fun heq => hkey (heq ▸ hk)
    rw [FinMap.lookup_insert_ite, if_neg hne]

lemma Alike.joinRoom (h : Alike c n p q s t) {id : String} (hid : id ≠ c) (key : String) :
    Alike c n p q (joinRoom s id key) (joinRoom t id key) := by
  refine { h with rooms := h.rooms.putInto id key, index := fun d hd => ?_ }
  simp only [Dendri.joinRoom, FinMap.lookup_insert_ite, h.index id hid, h.index d hd]

lemma alike_joinRoom_own (s : AppState) {key : String} (hkey : ¬Names n key) :
    Alike c n p p s (joinRoom s c key) := by
  refine { Alike.refl c n p s with
    rooms := roomsAlike_putInto_own s.rooms hkey, index := fun d hd => ?_ }
  simp only [Dendri.joinRoom, FinMap.lookup_insert_ite, if_neg hd]

/-- What `remove_client_from_room` does to the maps. -/
def struck (s : AppState) (id key : String) : AppState :=
  { s with
    rooms := (removeClientFromRoom s id key).rooms
    presence := (removeClientFromRoom s id key).presence
    clientRooms := (removeClientFromRoom s id key).clientRooms }

/-- The members of a room are told about it, if there are any. -/
def announce (s : AppState) (key : String) (members : Finset String) : AppState :=
  if members = ∅ then s else s.fanOut members (.roomPeers (roomDisplay key) members)

/-- The removal from a room is the change of the maps and the announcement to
those who stay. -/
lemma removeClientFromRoom_eq (s : AppState) (id key : String) :
    removeClientFromRoom s id key =
      announce (struck s id key) key ((membersAt s.rooms key).erase id) := by
  rw [struck, removeClientFromRoom, announce, membersAt]
  cases hmembers : s.rooms.lookup key with
  | none => rfl
  | some members =>
      dsimp only [Option.getD_some]
      split_ifs
      · rfl
      · rfl

lemma membersAt_removeClientFromRoom (s : AppState) (id key k : String) :
    membersAt (removeClientFromRoom s id key).rooms k =
      if k = key then (membersAt s.rooms key).erase id else membersAt s.rooms k := by
  rw [membersAt, lookup_rooms_removeClientFromRoom, membersAt]
  split_ifs
  · cases s.rooms.lookup key with
    | none => rfl
    | some members =>
        rw [Option.bind_some, Option.getD_some]
        split_ifs with hempty
        · exact hempty.symm
        · rfl
  · rfl

lemma presence_removeClientFromRoom {k key : String} (s : AppState) (id : String) (h : k ≠ key) :
    (removeClientFromRoom s id key).presence.lookup k = s.presence.lookup k := by
  rw [removeClientFromRoom]
  cases s.rooms.lookup key with
  | none => rfl
  | some members =>
      dsimp only
      split_ifs
      · simp only [FinMap.lookup_erase_ite, FinMap.lookup_modify, if_neg h]
      · simp only [AppState.fanOut, FinMap.lookup_modify, if_neg h]

/-- With a sound index the reverse index loses the room also when the early
return skips it. -/
lemma lookup_clientRooms_removeClientFromRoom (hs : s.ledger.Sound) (id key d : String) :
    (removeClientFromRoom s id key).clientRooms.lookup d =
      if d = id then (s.clientRooms.lookup id).map (Finset.erase · key)
      else s.clientRooms.lookup d := by
  rw [clientRooms_removeClientFromRoom]
  split_ifs with hkey hd hd
  · rw [hd, FinMap.lookup_modify, if_pos rfl]
  · rw [FinMap.lookup_modify, if_neg hd]
  · rw [hd]
    cases hrooms : s.clientRooms.lookup id with
    | none => rfl
    | some rooms =>
        have hnotin : key ∉ rooms := by
          intro hmem
          obtain ⟨members, hmembers, -⟩ := hs id key ⟨rooms, hrooms, hmem⟩
          exact hkey (Finmap.mem_of_lookup_eq_some hmembers)
        rw [Option.map_some, Finset.erase_eq_of_notMem hnotin]
  · rfl

lemma Alike.struck (h : Alike c n p q s t) (hs : s.ledger.Sound) (ht : t.ledger.Sound)
    {id : String} (hid : id ≠ c) (key : String) :
    Alike c n p q (struck s id key) (struck t id key) := by
  refine { h with
    rooms := ⟨fun k => ?_, fun k hk => ?_⟩
    index := fun d hd => ?_
    presence := fun k hk => ?_ }
  · simp only [Dendri.struck, membersAt_removeClientFromRoom]
    split_ifs
    · rw [Finset.erase_right_comm, h.rooms.members key, Finset.erase_right_comm]
    · exact h.rooms.members k
  · simp only [Dendri.struck, lookup_rooms_removeClientFromRoom]
    split_ifs with hkey
    · rw [h.rooms.named key (hkey ▸ hk)]
    · exact h.rooms.named k hk
  · simp only [Dendri.struck, lookup_clientRooms_removeClientFromRoom hs,
      lookup_clientRooms_removeClientFromRoom ht, h.index id hid, h.index d hd]
  · by_cases hkey : k = key
    · subst hkey
      have hrooms := h.rooms.named k hk
      simp only [Dendri.struck, removeClientFromRoom, hrooms]
      cases t.rooms.lookup k with
      | none => exact h.presence k hk
      | some members =>
          dsimp only
          split_ifs
          · simp only [FinMap.lookup_erase_ite, if_true]
          · simp only [AppState.fanOut, FinMap.lookup_modify, if_true, h.presence k hk]
    · simp only [Dendri.struck, presence_removeClientFromRoom _ _ hkey, h.presence k hk]

/-- `c` is taken out of a room that is not named `n`. -/
lemma alike_struck_own (s : AppState) {key : String} (hkey : ¬Names n key) :
    Alike c n p p s (struck s c key) := by
  have hne : ∀ k, Names n k → k ≠ key := fun k hk heq => hkey (heq ▸ hk)
  refine { Alike.refl c n p s with
    rooms := ⟨fun k => ?_, fun k hk => ?_⟩
    index := fun d hd => ?_
    presence := fun k hk => ?_ }
  · simp only [Dendri.struck, membersAt_removeClientFromRoom]
    split_ifs with hk
    · rw [hk, Finset.erase_idem]
    · rfl
  · simp only [Dendri.struck, lookup_rooms_removeClientFromRoom, if_neg (hne k hk)]
  · simp only [Dendri.struck, clientRooms_removeClientFromRoom]
    split_ifs
    · rw [FinMap.lookup_modify, if_neg hd]
    · rfl
  · exact (presence_removeClientFromRoom s c (hne k hk)).symm

lemma alike_announce (s : AppState) {key : String} (members : Finset String)
    (hkey : ¬Names n key) : Alike c n p p s (announce s key members) := by
  rw [announce]
  split_ifs
  · exact Alike.refl c n p s
  · exact alike_fanOut s members (scoped_roomPeers members fun h => hkey h.of_roomDisplay)

lemma Alike.announce (h : Alike c n p q s t) (key : String) (members : Finset String) :
    Alike c n p q (announce s key members) (announce t key members) := by
  rw [Dendri.announce, Dendri.announce]
  split_ifs
  · exact h
  · exact h.fanOut members rfl

/-- Another client is removed from a room on both sides. -/
lemma Alike.removeClientFromRoom (h : Alike c n p q s t) (hs : s.ledger.Sound)
    (ht : t.ledger.Sound) {id : String} (hid : id ≠ c) (key : String) :
    Alike c n p q (removeClientFromRoom s id key) (removeClientFromRoom t id key) := by
  have hstruck := h.struck hs ht hid key
  rw [removeClientFromRoom_eq, removeClientFromRoom_eq]
  by_cases hkey : Names n key
  · rw [membersAt, membersAt, h.rooms.named key hkey]
    exact hstruck.announce key _
  · exact hstruck.square (alike_announce _ _ hkey) (alike_announce _ _ hkey)

lemma alike_removeClientFromRoom_own (s : AppState) {key : String} (hkey : ¬Names n key) :
    Alike c n p p s (removeClientFromRoom s c key) := by
  rw [removeClientFromRoom_eq]
  exact (alike_struck_own s hkey).trans (alike_announce _ _ hkey)

lemma sound_removeClientFromRoom (hs : s.ledger.Sound) (id key : String) :
    (removeClientFromRoom s id key).ledger.Sound := by
  rw [ledger_removeClientFromRoom hs]
  exact hs.leave

lemma Alike.foldl_removeClientFromRoom (h : Alike c n p q s t) (hs : s.ledger.Sound)
    (ht : t.ledger.Sound) {id : String} (hid : id ≠ c) (l : List String) :
    Alike c n p q (l.foldl (fun s room => Dendri.removeClientFromRoom s id room) s)
      (l.foldl (fun s room => Dendri.removeClientFromRoom s id room) t) := by
  induction l generalizing s t with
  | nil => exact h
  | cons key l ih =>
      exact ih (h.removeClientFromRoom hs ht hid key) (sound_removeClientFromRoom hs id key)
        (sound_removeClientFromRoom ht id key)

lemma alike_foldl_removeClientFromRoom_own {l : List String} (hl : ∀ key ∈ l, ¬Names n key)
    (s : AppState) :
    Alike c n p p s (l.foldl (fun s room => Dendri.removeClientFromRoom s c room) s) := by
  induction l generalizing s with
  | nil => exact Alike.refl c n p s
  | cons key l ih =>
      exact (alike_removeClientFromRoom_own s (hl key (by simp))).trans
        (ih (fun k hk => hl k (List.mem_cons_of_mem key hk)) _)

/-! ### Removals and sessions -/

variable (c n) in
/-- `c` is in no room named `n`, and no removal from one is pending. -/
structure Apart (s : AppState) : Prop where
  sound : s.ledger.Sound
  member : ∀ key, Names n key → ¬s.ledger.member c key
  pending : ∀ key, Names n key → ¬s.ledger.pending c key

lemma Apart.of_ledger (h : Apart c n s) (heq : t.ledger = s.ledger) : Apart c n t := by
  obtain ⟨hsound, hmember, hpending⟩ := h
  rw [← heq] at hsound
  simp only [← heq] at hmember hpending
  exact ⟨hsound, hmember, hpending⟩

/-- The rooms that `c` is indexed for are not named `n`. -/
lemma Apart.not_names_of_index (h : Apart c n s) {rooms : Finset String}
    (hrooms : s.clientRooms.lookup c = some rooms) {key : String} (hkey : key ∈ rooms) :
    ¬Names n key :=
  fun hnames => h.member key hnames (h.sound c key ⟨rooms, hrooms, hkey⟩)

lemma Apart.not_names_of_pending (h : Apart c n s) {pending : PendingRemoval}
    (hpending : s.pendingRemovals.lookup c = some pending) {key : String}
    (hkey : key ∈ pending.rooms) : ¬Names n key :=
  fun hnames => h.pending key hnames ⟨pending, hpending, hkey⟩

/-- Without the index of a client the rest of the index is sound. -/
lemma sound_eraseIndex (hs : s.ledger.Sound) (id : String) :
    AppState.ledger { s with clientRooms := s.clientRooms.erase id } |>.Sound := by
  rintro d key ⟨rooms, hrooms, hkey⟩
  rw [FinMap.lookup_erase_ite] at hrooms
  split_ifs at hrooms
  exact hs d key ⟨rooms, hrooms, hkey⟩

lemma Alike.removeClientFromAllRooms (h : Alike c n p q s t) (hs : s.ledger.Sound)
    (ht : t.ledger.Sound) (env : Env) (cfg : Config) {id : String} (hid : id ≠ c) :
    Alike c n p q (removeClientFromAllRooms env cfg s id)
      (removeClientFromAllRooms env cfg t id) := by
  have hindex := h.index id hid
  rw [Dendri.removeClientFromAllRooms, Dendri.removeClientFromAllRooms]
  split_ifs
  · rw [immediateRemoveFromAllRooms.eq_def, immediateRemoveFromAllRooms.eq_def, hindex]
    cases t.clientRooms.lookup id with
    | none => exact h.square (Alike.of_visible rfl) (Alike.of_visible rfl)
    | some rooms =>
        have herase : Alike c n p q { s with clientRooms := s.clientRooms.erase id }
            { t with clientRooms := t.clientRooms.erase id } :=
          { h with index := lookup_erase_congr h.index id }
        have hfold := herase.foldl_removeClientFromRoom (sound_eraseIndex hs id)
          (sound_eraseIndex ht id) hid (env.order.toList rooms)
        exact hfold.square (Alike.of_visible rfl) (Alike.of_visible rfl)
  · rw [deferRemoveFromAllRooms.eq_def, deferRemoveFromAllRooms.eq_def, hindex]
    cases t.clientRooms.lookup id with
    | none => exact h.square (Alike.of_visible rfl) (Alike.of_visible rfl)
    | some rooms =>
        refine { h with index := lookup_erase_congr h.index id, pending := fun d hd => ?_ }
        dsimp only
        split_ifs
        · exact h.pending d hd
        · exact lookup_insert_congr h.pending id _ d hd

/-- The removal of `c` from its rooms. -/
lemma alike_removeClientFromAllRooms_own (hs : Apart c n s) (env : Env) (cfg : Config) :
    Alike c n p p s (removeClientFromAllRooms env cfg s c) := by
  have herase : Alike c n p p s { s with clientRooms := s.clientRooms.erase c } :=
    { Alike.refl c n p s with
      index := fun d hd => by rw [FinMap.lookup_erase_ite, if_neg hd] }
  rw [removeClientFromAllRooms]
  split_ifs
  · rw [immediateRemoveFromAllRooms.eq_def]
    cases hrooms : s.clientRooms.lookup c with
    | none => exact Alike.of_visible rfl
    | some rooms =>
        have hfold := herase.trans (alike_foldl_removeClientFromRoom_own (fun key hkey =>
          hs.not_names_of_index hrooms (env.order.mem_toList.mp hkey)) _)
        exact hfold.trans (Alike.of_visible rfl)
  · rw [deferRemoveFromAllRooms.eq_def]
    cases s.clientRooms.lookup c with
    | none => exact Alike.of_visible rfl
    | some rooms =>
        refine { herase with pending := fun d hd => ?_ }
        dsimp only
        split_ifs
        · rfl
        · rw [FinMap.lookup_insert_ite, if_neg hd]

/-- The disconnect of a client on both sides. -/
lemma Alike.teardown (h : Alike c n p q s t) (hs : Apart c n s) (ht : Apart c n t) (env : Env)
    (cfg : Config) (id : String) :
    Alike c n p q (teardown env cfg s id) (teardown env cfg t id) := by
  have hdrop := h.dropClient id
  have hauth : Alike c n p q (((s.dropClient id).eraseAuth id).removeBuckets id)
      (((t.dropClient id).eraseAuth id).removeBuckets id) :=
    { hdrop with
      claims := congrArg (Finmap.erase id) hdrop.claims
      tenants := congrArg (Finmap.erase id) hdrop.tenants }
  have hs' : Apart c n (((s.dropClient id).eraseAuth id).removeBuckets id) := hs.of_ledger rfl
  have ht' : Apart c n (((t.dropClient id).eraseAuth id).removeBuckets id) := ht.of_ledger rfl
  rw [Dendri.teardown, Dendri.teardown]
  refine Alike.redisRemoveClient ?_ env id
  by_cases hid : id = c
  · subst hid
    exact hauth.square (alike_removeClientFromAllRooms_own hs' env cfg)
      (alike_removeClientFromAllRooms_own ht' env cfg)
  · exact hauth.removeClientFromAllRooms hs'.sound ht'.sound env cfg hid

lemma Alike.cleanupClient (h : Alike c n p q s t) (hs : Apart c n s) (ht : Apart c n t)
    (env : Env) (cfg : Config) (id : String) :
    Alike c n p q (cleanupClient env cfg s id) (cleanupClient env cfg t id) := by
  have herase : Alike c n p q { s with pollingReceivers := s.pollingReceivers.erase id }
      { t with pollingReceivers := t.pollingReceivers.erase id } :=
    { h with receivers := congrArg (Finmap.erase id) h.receivers }
  rw [Dendri.cleanupClient, Dendri.cleanupClient]
  exact herase.teardown (hs.of_ledger rfl) (ht.of_ledger rfl) env cfg id

lemma Alike.closeSocket (h : Alike c n p q s t) (hs : Apart c n s) (ht : Apart c n t)
    (env : Env) (cfg : Config) (id : String) (i : ℕ) :
    Alike c n p q (closeSocket env cfg s id i) (closeSocket env cfg t id i) := by
  rw [Dendri.closeSocket, Dendri.closeSocket, h.senders]
  refine Alike.closeChannel ?_ i
  split_ifs
  · exact h.teardown hs ht env cfg id
  · exact h

lemma Alike.expireSession (h : Alike c n p q s t) (hs : s.ledger.Sound) (ht : t.ledger.Sound)
    {id : String} (hid : id ≠ c) :
    Alike c n p q (expireSession s id) (expireSession t id) := by
  rw [Dendri.expireSession, Dendri.expireSession, h.pending id hid]
  cases t.pendingRemovals.lookup id with
  | none => exact h
  | some pending =>
      have herase : Alike c n p q { s with pendingRemovals := s.pendingRemovals.erase id }
          { t with pendingRemovals := t.pendingRemovals.erase id } :=
        { h with pending := lookup_erase_congr h.pending id }
      exact herase.foldl_removeClientFromRoom hs ht hid pending.rooms

lemma alike_expireSession_own (hs : Apart c n s) : Alike c n p p s (expireSession s c) := by
  rw [expireSession]
  cases hpending : s.pendingRemovals.lookup c with
  | none => exact Alike.refl c n p s
  | some pending =>
      have herase : Alike c n p p s { s with pendingRemovals := s.pendingRemovals.erase c } :=
        { Alike.refl c n p s with
          pending := fun d hd => by rw [FinMap.lookup_erase_ite, if_neg hd] }
      exact herase.trans (alike_foldl_removeClientFromRoom_own (fun key hkey =>
        hs.not_names_of_pending hpending hkey) _)

lemma Apart.expireSession (hs : Apart c n s) (id : String) : Apart c n (expireSession s id) := by
  have hledger := ledger_expireSession hs.sound id
  refine ⟨?_, fun key hkey hm => ?_, fun key hkey hp => ?_⟩
  · rw [hledger]
    exact hs.sound.expire
  · rw [hledger] at hm
    exact hs.member key hkey hm.1
  · rw [hledger] at hp
    exact hs.pending key hkey hp.1

/-- The expiry of the sessions of a list, and of those that are not of `c`. -/
lemma Alike.foldl_expireSession (h : Alike c n p q s t) (hs : Apart c n s) (ht : Apart c n t)
    (ids : List String) :
    Alike c n p q (ids.foldl Dendri.expireSession s)
      ((ids.filter (· ≠ c)).foldl Dendri.expireSession t) := by
  induction ids generalizing s t with
  | nil => exact h
  | cons id ids ih =>
      by_cases hid : id = c
      · subst hid
        rw [List.filter_cons_of_neg (by simp)]
        exact ih ((alike_expireSession_own hs).symm.trans h) (hs.expireSession id) ht
      · rw [List.filter_cons_of_pos (by simpa using hid)]
        exact ih (h.expireSession hs.sound ht.sound hid) (hs.expireSession id)
          (ht.expireSession id)

/-- A pass that visits the sessions of the others in the same order on both
sides. -/
lemma Alike.cleanupExpiredSessions (h : Alike c n p q s t) (hs : Apart c n s) (ht : Apart c n t)
    (env : Env) (cfg : Config)
    (horder : (expiredSessions env cfg s).filter (· ≠ c) =
      (expiredSessions env cfg t).filter (· ≠ c)) :
    Alike c n p q (cleanupExpiredSessions env cfg s) (cleanupExpiredSessions env cfg t) := by
  rw [Dendri.cleanupExpiredSessions, Dendri.cleanupExpiredSessions]
  split_ifs
  · exact h
  · have hfirst := h.foldl_expireSession hs ht (expiredSessions env cfg s)
    have hsecond := (Alike.refl c n q t).foldl_expireSession ht ht (expiredSessions env cfg t)
    rw [horder] at hfirst
    exact hfirst.trans hsecond.symm

/-- Putting a client back into the rooms of a list. -/
lemma RoomsAlike.foldl_putInto (h : RoomsAlike c n m m') (id : String) (l : List String) :
    RoomsAlike c n (l.foldl (Dendri.putInto id) m) (l.foldl (Dendri.putInto id) m') := by
  induction l generalizing m m' with
  | nil => exact h
  | cons key l ih => exact ih (h.putInto id key)

lemma roomsAlike_foldl_putInto_own {l : List String} (hl : ∀ key ∈ l, ¬Names n key)
    (m : DashMap (Finset String)) : RoomsAlike c n m (l.foldl (putInto c) m) := by
  induction l generalizing m with
  | nil => exact RoomsAlike.refl c n m
  | cons key l ih =>
      exact (roomsAlike_putInto_own m (hl key (by simp))).trans
        (ih (fun k hk => hl k (List.mem_cons_of_mem key hk)) _)

lemma Alike.restoreSession (h : Alike c n p q s t) {id : String} (hid : id ≠ c) :
    Alike c n p q (restoreSession s id) (restoreSession t id) := by
  rw [Dendri.restoreSession, Dendri.restoreSession, h.pending id hid]
  cases t.pendingRemovals.lookup id with
  | none => exact h
  | some pending =>
      exact { h with
        pending := lookup_erase_congr h.pending id
        rooms := h.rooms.foldl_putInto id pending.rooms
        index := lookup_insert_congr h.index id _ }

lemma alike_restoreSession_own (hs : Apart c n s) : Alike c n p p s (restoreSession s c) := by
  rw [restoreSession]
  cases hpending : s.pendingRemovals.lookup c with
  | none => exact Alike.refl c n p s
  | some pending =>
      refine { Alike.refl c n p s with
        rooms := roomsAlike_foldl_putInto_own (fun key hkey =>
          hs.not_names_of_pending hpending hkey) s.rooms
        index := fun d hd => ?_
        pending := fun d hd => ?_ }
      · dsimp only
        rw [FinMap.lookup_insert_ite, if_neg hd]
      · dsimp only
        rw [FinMap.lookup_erase_ite, if_neg hd]

end Alike

end Dendri
