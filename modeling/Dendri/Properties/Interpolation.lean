import Dendri.Lib.Json
import Dendri.Properties.Presence
import Dendri.Properties.Supplies

/-!
Frames that are built by interpolation. `ROOM-PEERS`, `ROOM-JOIN-DENIED`, the
presence data replayed to a joining client and `EXPIRE` are not serialized but
put together from text, with names, ids and destinations between quotation marks
as they are.

* `Frame.handBuilt`, `Frame.serialized`: the text that the server sends, and the
  serialization of the object it means;
* `Frame.Plain`, `faithful_iff`: they are the same just when nothing that is
  interpolated has a character that JSON must escape;
* `RoomsPlain`: the room names in the shared maps and in frames are plain, in
  every run (`roomsPlain_of_step`);
* `Written`, `accounts_step`: ids and destinations are, if those that store
  presence data and those of queued messages are;
* `frames_faithful`: the property for the runs of such steps;
  `presence_injects`: others, in which a client writes fields of a frame that
  another receives.
-/

namespace Dendri

open AppState Transition

/-! ### The texts -/

namespace Frame

/-- `serde_json::to_string(&members)`, in the order in which they are visited. -/
def peersJson (order : SetOrder String) (members : Finset String) : String :=
  Json.array ((order.toList members).map Json.quote)

/-- The text of a frame that is built by interpolation. -/
def handBuilt (order : SetOrder String) : Frame → Option String
  | .roomPeers room members =>
      some ("\x7b\"type\":\"ROOM-PEERS\",\"room\":\"" ++ room ++ "\",\"payload\":" ++
        peersJson order members ++ "\x7d")
  | .roomJoinDenied room reason =>
      some ("\x7b\"type\":\"ROOM-JOIN-DENIED\",\"room\":\"" ++ room ++ "\",\"reason\":\"" ++
        reason ++ "\"\x7d")
  | .presence src room payload =>
      some ("\x7b\"type\":\"PRESENCE-UPDATE\",\"src\":\"" ++ src ++ "\",\"room\":\"" ++ room ++
        "\",\"payload\":" ++ payload ++ "\x7d")
  | .expire src dst =>
      some ("\x7b\"type\":\"EXPIRE\",\"src\":\"" ++ src ++ "\",\"dst\":\"" ++ dst ++ "\"\x7d")
  | _ => none

/-- The serialization of the object that such a frame stands for. A payload is
JSON text already. -/
def serialized (order : SetOrder String) : Frame → Option String
  | .roomPeers room members =>
      some (Json.object [("type", Json.quote "ROOM-PEERS"), ("room", Json.quote room),
        ("payload", peersJson order members)])
  | .roomJoinDenied room reason =>
      some (Json.object [("type", Json.quote "ROOM-JOIN-DENIED"), ("room", Json.quote room),
        ("reason", Json.quote reason)])
  | .presence src room payload =>
      some (Json.object [("type", Json.quote "PRESENCE-UPDATE"), ("src", Json.quote src),
        ("room", Json.quote room), ("payload", payload)])
  | .expire src dst =>
      some (Json.object [("type", Json.quote "EXPIRE"), ("src", Json.quote src),
        ("dst", Json.quote dst)])
  | _ => none

/-- What is sent is the serialization of what is meant. -/
def Faithful (f : Frame) : Prop := ∀ order, f.handBuilt order = f.serialized order

/-- Nothing that is interpolated has to be escaped. -/
def Plain : Frame → Prop
  | .roomPeers room _ => Json.Plain room
  | .roomJoinDenied room reason => Json.Plain room ∧ Json.Plain reason
  | .presence src room _ => Json.Plain src ∧ Json.Plain room
  | .expire src dst => Json.Plain src ∧ Json.Plain dst
  | _ => True

/-- The text of a frame with a given way to write its strings. -/
def template (q : String → String) (order : SetOrder String) : Frame → Option String
  | .roomPeers room members =>
      some ("\x7b\"type\":\"ROOM-PEERS\",\"room\":" ++ q room ++ ",\"payload\":" ++
        peersJson order members ++ "\x7d")
  | .roomJoinDenied room reason =>
      some ("\x7b\"type\":\"ROOM-JOIN-DENIED\",\"room\":" ++ q room ++ ",\"reason\":" ++
        q reason ++ "\x7d")
  | .presence src room payload =>
      some ("\x7b\"type\":\"PRESENCE-UPDATE\",\"src\":" ++ q src ++ ",\"room\":" ++ q room ++
        ",\"payload\":" ++ payload ++ "\x7d")
  | .expire src dst =>
      some ("\x7b\"type\":\"EXPIRE\",\"src\":" ++ q src ++ ",\"dst\":" ++ q dst ++ "\x7d")
  | _ => none

end Frame

lemma handBuilt_eq (order : SetOrder String) (f : Frame) :
    f.handBuilt order = f.template Json.bare order := by
  have hbare : ∀ s, Json.bare s = "\"" ++ s ++ "\"" := fun s => by
    rw [← String.toList_inj]
    simp [Json.bare, Json.mark]
  have hroom : "\",\"room\":\"" = "\"" ++ ",\"room\":" ++ "\"" := by decide
  have hpayload : "\",\"payload\":" = "\"" ++ ",\"payload\":" := by decide
  have hend : "\"\x7d" = "\"" ++ "\x7d" := by decide
  cases f with
  | roomPeers room members =>
      have hstart : "\x7b\"type\":\"ROOM-PEERS\",\"room\":\"" =
          "\x7b\"type\":\"ROOM-PEERS\",\"room\":" ++ "\"" := by decide
      simp only [Frame.handBuilt, Frame.template, hbare, hstart, hpayload, String.append_assoc]
  | roomJoinDenied room reason =>
      have hstart : "\x7b\"type\":\"ROOM-JOIN-DENIED\",\"room\":\"" =
          "\x7b\"type\":\"ROOM-JOIN-DENIED\",\"room\":" ++ "\"" := by decide
      have hreason : "\",\"reason\":\"" = "\"" ++ ",\"reason\":" ++ "\"" := by decide
      simp only [Frame.handBuilt, Frame.template, hbare, hstart, hreason, hend,
        String.append_assoc]
  | presence src room payload =>
      have hstart : "\x7b\"type\":\"PRESENCE-UPDATE\",\"src\":\"" =
          "\x7b\"type\":\"PRESENCE-UPDATE\",\"src\":" ++ "\"" := by decide
      simp only [Frame.handBuilt, Frame.template, hbare, hstart, hroom, hpayload,
        String.append_assoc]
  | expire src dst =>
      have hstart : "\x7b\"type\":\"EXPIRE\",\"src\":\"" =
          "\x7b\"type\":\"EXPIRE\",\"src\":" ++ "\"" := by decide
      have hdst : "\",\"dst\":\"" = "\"" ++ ",\"dst\":" ++ "\"" := by decide
      simp only [Frame.handBuilt, Frame.template, hbare, hstart, hdst, hend,
        String.append_assoc]
  | _ => rfl

/-- The text of an object with a type and two or three more fields. -/
lemma object_eq (type_ a b c x y z : String) :
    Json.object [("type", type_), (a, x), (b, y)] =
        "\x7b\"type\":" ++ type_ ++ "," ++ Json.quote a ++ ":" ++ x ++ "," ++ Json.quote b ++
          ":" ++ y ++ "\x7d" ∧
      Json.object [("type", type_), (a, x), (b, y), (c, z)] =
        "\x7b\"type\":" ++ type_ ++ "," ++ Json.quote a ++ ":" ++ x ++ "," ++ Json.quote b ++
          ":" ++ y ++ "," ++ Json.quote c ++ ":" ++ z ++ "\x7d" := by
  have htype : "\x7b\"type\":" = "\x7b" ++ Json.quote "type" ++ ":" := by decide
  have htwo : ∀ u v w : String, ",".intercalate [u, v, w] = u ++ "," ++ v ++ "," ++ w :=
    fun _ _ _ => rfl
  have hthree : ∀ t u v w : String,
      ",".intercalate [t, u, v, w] = t ++ "," ++ u ++ "," ++ v ++ "," ++ w := fun _ _ _ _ => rfl
  simp only [Json.object, List.map_cons, List.map_nil, htwo, hthree, htype, String.append_assoc,
    and_self]

lemma serialized_eq (order : SetOrder String) (f : Frame) :
    f.serialized order = f.template Json.quote order := by
  cases f with
  | roomPeers room members =>
      have hstart : "\x7b\"type\":\"ROOM-PEERS\",\"room\":" = "\x7b\"type\":" ++
          Json.quote "ROOM-PEERS" ++ "," ++ Json.quote "room" ++ ":" := by decide
      have hpayload : ",\"payload\":" = "," ++ Json.quote "payload" ++ ":" := by decide
      simp only [Frame.serialized, Frame.template, object_eq _ _ _ "" _ _ "", hstart, hpayload,
        String.append_assoc]
  | roomJoinDenied room reason =>
      have hstart : "\x7b\"type\":\"ROOM-JOIN-DENIED\",\"room\":" = "\x7b\"type\":" ++
          Json.quote "ROOM-JOIN-DENIED" ++ "," ++ Json.quote "room" ++ ":" := by decide
      have hreason : ",\"reason\":" = "," ++ Json.quote "reason" ++ ":" := by decide
      simp only [Frame.serialized, Frame.template, object_eq _ _ _ "" _ _ "", hstart, hreason,
        String.append_assoc]
  | presence src room payload =>
      have hstart : "\x7b\"type\":\"PRESENCE-UPDATE\",\"src\":" = "\x7b\"type\":" ++
          Json.quote "PRESENCE-UPDATE" ++ "," ++ Json.quote "src" ++ ":" := by decide
      have hroom : ",\"room\":" = "," ++ Json.quote "room" ++ ":" := by decide
      have hpayload : ",\"payload\":" = "," ++ Json.quote "payload" ++ ":" := by decide
      simp only [Frame.serialized, Frame.template, object_eq, hstart, hroom, hpayload,
        String.append_assoc]
  | expire src dst =>
      have hstart : "\x7b\"type\":\"EXPIRE\",\"src\":" = "\x7b\"type\":" ++
          Json.quote "EXPIRE" ++ "," ++ Json.quote "src" ++ ":" := by decide
      have hdst : ",\"dst\":" = "," ++ Json.quote "dst" ++ ":" := by decide
      simp only [Frame.serialized, Frame.template, object_eq _ _ _ "" _ _ "", hstart, hdst,
        String.append_assoc]
  | _ => rfl

/-- What is sent is the serialization of what is meant just when nothing that is
interpolated has to be escaped. -/
theorem faithful_iff (f : Frame) : f.Faithful ↔ f.Plain := by
  have htemplate : f.Faithful ↔ ∀ order, f.template Json.bare order = f.template Json.quote order :=
    forall_congr' fun order => by rw [handBuilt_eq, serialized_eq]
  rw [htemplate]
  constructor
  · intro h
    have hlength := congrArg (Option.map String.length) (h (SetOrder.sorted String))
    cases f with
    | roomPeers room members =>
        simp only [Frame.template, Option.map_some, String.length_append, Option.some.injEq]
          at hlength
        exact Json.plain_of_length_le (by omega)
    | roomJoinDenied room reason =>
        have hroom := Json.length_quote_le room
        have hreason := Json.length_quote_le reason
        simp only [Frame.template, Option.map_some, String.length_append, Option.some.injEq]
          at hlength
        exact ⟨Json.plain_of_length_le (by omega), Json.plain_of_length_le (by omega)⟩
    | presence src room payload =>
        have hsrc := Json.length_quote_le src
        have hroom := Json.length_quote_le room
        simp only [Frame.template, Option.map_some, String.length_append, Option.some.injEq]
          at hlength
        exact ⟨Json.plain_of_length_le (by omega), Json.plain_of_length_le (by omega)⟩
    | expire src dst =>
        have hsrc := Json.length_quote_le src
        have hdst := Json.length_quote_le dst
        simp only [Frame.template, Option.map_some, String.length_append, Option.some.injEq]
          at hlength
        exact ⟨Json.plain_of_length_le (by omega), Json.plain_of_length_le (by omega)⟩
    | _ => trivial
  · intro h order
    cases f with
    | roomPeers room members => rw [Frame.template, Frame.template, Json.quote_of_plain h]
    | roomJoinDenied room reason =>
        rw [Frame.template, Frame.template, Json.quote_of_plain h.1, Json.quote_of_plain h.2]
    | presence src room payload =>
        rw [Frame.template, Frame.template, Json.quote_of_plain h.1, Json.quote_of_plain h.2]
    | expire src dst =>
        rw [Frame.template, Frame.template, Json.quote_of_plain h.1, Json.quote_of_plain h.2]
    | _ => rfl

/-- A character that must be escaped is a single byte, and that of no identifier. -/
lemma not_isIdentifierByte_of_mustEscape {c : Char} (h : Json.mustEscape c = true) :
    ∃ b ∈ String.utf8EncodeChar c, isIdentifierByte b = false := by
  have hnat : c.toNat = 34 ∨ c.toNat = 92 ∨ c.toNat < 32 := by
    simp only [Json.mustEscape, Bool.or_eq_true, beq_iff_eq, decide_eq_true_eq] at h
    rcases h with (rfl | rfl) | h
    · exact Or.inl rfl
    · exact Or.inr (Or.inl rfl)
    · exact Or.inr (Or.inr h)
  have hsmall : c.val ≤ 127 := by
    rw [UInt32.le_iff_toNat_le]
    change c.toNat ≤ 127
    omega
  have hsize : c.utf8Size = 1 := Char.utf8Size_eq_one_iff.mpr hsmall
  have hbyte : c.val.toUInt8.toNat = c.toNat := by
    rw [UInt32.toNat_toUInt8]
    change c.toNat % 2 ^ 8 = c.toNat
    omega
  refine ⟨c.val.toUInt8, ?_, ?_⟩
  · rw [String.utf8EncodeChar_eq_singleton hsize]
    exact List.mem_singleton_self _
  · generalize c.val.toUInt8 = b at hbyte
    by_contra hid
    rw [Bool.not_eq_false] at hid
    simp only [isIdentifierByte, isAsciiAlphanumeric, Bool.or_eq_true, Bool.and_eq_true,
      decide_eq_true_eq, beq_iff_eq, UInt8.le_iff_toNat_le, ← UInt8.toNat_inj] at hid
    simp only [UInt8.reduceToNat] at hid
    omega

/-- Valid identifiers are plain. -/
lemma plain_of_isValidIdentifier {s : String} (h : isValidIdentifier s = true) : Json.Plain s := by
  intro c hc
  by_contra hmust
  obtain ⟨b, hb, hnot⟩ :=
    not_isIdentifierByte_of_mustEscape (Bool.eq_true_of_not_eq_false hmust)
  exact absurd (isIdentifierByte_of_mem h hc hb) (by simp [hnot])

/-! ### Room names -/

/-- The room names in a frame are plain. -/
def Frame.RoomPlain : Frame → Prop
  | .roomPeers room _ => Json.Plain room
  | .roomJoinDenied room reason => Json.Plain room ∧ Json.Plain reason
  | .presence _ room _ => Json.Plain room
  | _ => True

lemma roomPlain_singleton {f : Frame} (hf : f.RoomPlain) : ∀ g ∈ [f], g.RoomPlain := by
  intro g hg
  rw [List.mem_singleton.mp hg]
  exact hf

/-- All rooms that the server knows have plain names, and so have those in the
frames on channels and in buffers. -/
structure RoomsPlain (s : AppState) : Prop where
  tenants : ∀ id tenant, s.clientTenants.lookup id = some tenant → tenantSep ∉ tenant.toList
  rooms : ∀ key members, s.rooms.lookup key = some members → Json.Plain (roomDisplay key)
  index : ∀ id keys, s.clientRooms.lookup id = some keys →
    ∀ key ∈ keys, Json.Plain (roomDisplay key)
  pending : ∀ id p, s.pendingRemovals.lookup id = some p →
    ∀ key ∈ p.rooms, Json.Plain (roomDisplay key)
  frames : ∀ c, ∀ f ∈ (s.chans c).queue, f.RoomPlain
  buffered : ∀ key, ∀ m ∈ s.replayBuffer.held key, m.data.RoomPlain

/-- What the invariant is about. -/
def AppState.roomSide (s : AppState) :=
  (s.clientTenants, s.rooms, s.clientRooms, s.pendingRemovals, s.chans, s.replayBuffer)

namespace RoomsPlain

variable {s t : AppState}

/-- A statement that touches none of it. -/
lemma of_side (h : RoomsPlain s) (hside : t.roomSide = s.roomSide) : RoomsPlain t := by
  simp only [AppState.roomSide, Prod.mk.injEq] at hside
  obtain ⟨htenants, hrooms, hindex, hpending, hchans, hbuffer⟩ := hside
  constructor
  · rw [htenants]; exact h.tenants
  · rw [hrooms]; exact h.rooms
  · rw [hindex]; exact h.index
  · rw [hpending]; exact h.pending
  · rw [hchans]; exact h.frames
  · rw [hbuffer]; exact h.buffered

lemma init (cfg : Config) (redis : Redis) : RoomsPlain (AppState.new cfg redis) where
  tenants := by simp [AppState.new]
  rooms := by simp [AppState.new]
  index := by simp [AppState.new]
  pending := by simp [AppState.new]
  frames := by simp [AppState.new]
  buffered := by simp [AppState.new, ReplayBuffer.held]

/-- The key of a room that may be joined. -/
lemma roomKey (h : RoomsPlain s) (id : String) {room : String}
    (hroom : isValidIdentifier room = true) : Json.Plain (roomDisplay (roomKey s id room)) := by
  rw [Dendri.roomKey, roomDisplay_namespaceRoom (fun t ht => h.tenants id t ht) hroom]
  exact plain_of_isValidIdentifier hroom

/-! #### Frames -/

lemma send (h : RoomsPlain s) (c : ℕ) {frames : List Frame} (hframes : ∀ f ∈ frames, f.RoomPlain) :
    RoomsPlain (s.send c frames) := by
  refine { h with frames := fun i f hf => ?_ }
  simp only [AppState.send] at hf
  split_ifs at hf with hi
  · rcases List.mem_append.mp hf with hold | hnew
    · exact h.frames c f hold
    · exact hframes f hnew
  · exact h.frames i f hf

lemma sendTo (h : RoomsPlain s) (id : String) {frames : List Frame}
    (hframes : ∀ f ∈ frames, f.RoomPlain) : RoomsPlain (s.sendTo id frames) := by
  cases hc : s.wsSenders.lookup id with
  | none => exact h.of_side (by simp only [AppState.roomSide, AppState.sendTo, hc])
  | some c =>
      exact (h.send c hframes).of_side (by simp only [AppState.roomSide, AppState.sendTo, hc]; rfl)

lemma fanOut (h : RoomsPlain s) (members : Finset String) {frame : Frame}
    (hframe : frame.RoomPlain) : RoomsPlain (s.fanOut members frame) := by
  refine { h with frames := fun i f hf => ?_ }
  simp only [AppState.fanOut] at hf
  split_ifs at hf with hi
  · rcases List.mem_append.mp hf with hold | hnew
    · exact h.frames i f hold
    · rw [List.mem_singleton.mp hnew]
      exact hframe
  · exact h.frames i f hf

/-! #### Rooms -/

lemma removeClientFromRoom (h : RoomsPlain s) (id key : String) :
    RoomsPlain (removeClientFromRoom s id key) := by
  rw [removeClientFromRoom.eq_def]
  cases hmembers : s.rooms.lookup key with
  | none => exact h
  | some members =>
      have hkey := h.rooms key members hmembers
      have hindex : ∀ id' keys,
          (FinMap.modify s.clientRooms id fun rooms => rooms.erase key).lookup id' = some keys →
          ∀ key' ∈ keys, Json.Plain (roomDisplay key') := by
        intro id' keys hkeys key' hkey'
        rw [FinMap.lookup_modify] at hkeys
        split_ifs at hkeys
        · obtain ⟨old, hold, rfl⟩ := Option.map_eq_some_iff.mp hkeys
          exact h.index id old hold key' (Finset.mem_of_mem_erase hkey')
        · exact h.index id' keys hkeys key' hkey'
      dsimp only
      split_ifs
      · refine { h with index := hindex, rooms := fun key' members' hl => ?_ }
        dsimp only at hl
        rw [FinMap.lookup_erase_ite] at hl
        split_ifs at hl
        exact h.rooms key' members' hl
      · have hinsert : RoomsPlain
            { s with
              rooms := s.rooms.insert key (members.erase id)
              presence := FinMap.modify s.presence key fun p => p.erase id } := by
          refine { h with rooms := fun key' members' hl => ?_ }
          dsimp only at hl
          rw [FinMap.lookup_insert_ite] at hl
          split_ifs at hl with heq
          · rw [heq]
            exact hkey
          · exact h.rooms key' members' hl
        have hpeers : (Frame.roomPeers (roomDisplay key) (members.erase id)).RoomPlain := hkey
        have hfan := hinsert.fanOut (members.erase id) hpeers
        exact { hfan with index := hindex }

lemma eraseIndex (h : RoomsPlain s) (id : String) :
    RoomsPlain { s with clientRooms := s.clientRooms.erase id } := by
  refine { h with index := fun id' keys hl => ?_ }
  dsimp only at hl
  rw [FinMap.lookup_erase_ite] at hl
  split_ifs at hl
  exact h.index id' keys hl

lemma erasePending (h : RoomsPlain s) (id : String) :
    RoomsPlain { s with pendingRemovals := s.pendingRemovals.erase id } := by
  refine { h with pending := fun id' p hp => ?_ }
  dsimp only at hp
  rw [FinMap.lookup_erase_ite] at hp
  split_ifs at hp
  exact h.pending id' p hp

lemma removeClient (h : RoomsPlain s) (id : String) :
    RoomsPlain { s with replayBuffer := s.replayBuffer.removeClient id } := by
  refine { h with buffered := fun key m hm => ?_ }
  dsimp only at hm
  rw [ReplayBuffer.held_removeClient] at hm
  split_ifs at hm
  · exact absurd hm List.not_mem_nil
  · exact h.buffered key m hm

lemma removeClientFromAllRooms (h : RoomsPlain s) (env : Env) (cfg : Config) (id : String) :
    RoomsPlain (removeClientFromAllRooms env cfg s id) := by
  refine removeClientFromAllRooms_induction env cfg h (h.eraseIndex id)
    (fun t room ht => ht.removeClientFromRoom id room) (fun rooms hrooms => ?_)
    fun t ht => ht.removeClient id
  refine { h.eraseIndex id with pending := fun id' p hp => ?_ }
  dsimp only at hp
  split_ifs at hp
  · exact h.pending id' p hp
  · rw [FinMap.lookup_insert_ite] at hp
    split_ifs at hp
    · rw [← Option.some.inj hp]
      exact fun key hkey => h.index id rooms hrooms key (env.order.mem_toList.mp hkey)
    · exact h.pending id' p hp

lemma expireSession (h : RoomsPlain s) (id : String) : RoomsPlain (expireSession s id) := by
  exact expireSession_induction h (h.erasePending id) fun t room ht =>
    ht.removeClientFromRoom id room

lemma joinRoom (h : RoomsPlain s) (id : String) {key : String}
    (hkey : Json.Plain (roomDisplay key)) : RoomsPlain (joinRoom s id key) := by
  refine { h with rooms := fun key' members hl => ?_, index := fun id' keys hl key' hkey' => ?_ }
  · simp only [Dendri.joinRoom, FinMap.lookup_insert_ite] at hl
    split_ifs at hl with heq
    · rw [heq]
      exact hkey
    · exact h.rooms key' members hl
  · simp only [Dendri.joinRoom, FinMap.lookup_insert_ite] at hl
    split_ifs at hl
    · rw [← Option.some.inj hl] at hkey'
      rcases Finset.mem_insert.mp hkey' with rfl | hold
      · exact hkey
      · obtain ⟨old, hlookup, hmem⟩ := mem_getD_empty.mp hold
        exact h.index id old hlookup key' hmem
    · exact h.index id' keys hl key' hkey'

lemma handleRoomJoin (h : RoomsPlain s) (env : Env) (cfg : Config) (id : String) (msg : Message) :
    RoomsPlain (handleRoomJoin env cfg s id msg) := by
  rw [Dendri.handleRoomJoin]
  cases msg.room with
  | none => exact h
  | some roomName =>
      have hvalid : joinDenial cfg s id roomName ≠ some .invalidName →
          isValidIdentifier roomName = true := by
        intro hne
        by_contra hinvalid
        exact hne (by simp [joinDenial, hinvalid])
      dsimp only
      cases hdenial : joinDenial cfg s id roomName with
      | some denial =>
          refine h.sendTo id fun f hf => ?_
          rw [List.mem_singleton.mp hf]
          rw [hdenial] at hvalid
          cases denial with
          | invalidName => trivial
          | authDenied | clientRoomLimit | serverRoomLimit | roomFull =>
              exact ⟨plain_of_isValidIdentifier (hvalid (by simp)), by decide⟩
      | none =>
          have hroom := hvalid (by rw [hdenial]; simp)
          refine (h.joinRoom id (h.roomKey id hroom)).sendTo id fun f hf => ?_
          rcases List.mem_cons.mp hf with rfl | hf
          · exact plain_of_isValidIdentifier hroom
          · obtain ⟨peer, -, rfl⟩ := List.mem_map.mp hf
            exact plain_of_isValidIdentifier hroom

lemma handleRoomLeave (h : RoomsPlain s) (id : String) (msg : Message) :
    RoomsPlain (handleRoomLeave s id msg) := by
  obtain hs | ⟨room, -, -, hs⟩ := handleRoomLeave_cases s id msg
  · rw [hs]
    exact h
  · rw [hs]
    exact h.removeClientFromRoom id _

lemma lookup_foldl_insert (id : String) (l : List String) (rooms : DashMap (Finset String))
    {key : String} {members : Finset String}
    (h : (l.foldl (fun rooms room => rooms.insert room (insert id ((rooms.lookup room).getD ∅)))
      rooms).lookup key = some members) : key ∈ l ∨ ∃ members, rooms.lookup key = some members := by
  induction l generalizing rooms with
  | nil => exact Or.inr ⟨members, h⟩
  | cons room l ih =>
      rcases ih _ h with hmem | ⟨members', hl⟩
      · exact Or.inl (List.mem_cons_of_mem room hmem)
      · rw [FinMap.lookup_insert_ite] at hl
        split_ifs at hl with heq
        · exact Or.inl (heq ▸ List.mem_cons_self)
        · exact Or.inr ⟨members', hl⟩

lemma restoreSession (h : RoomsPlain s) (id : String) : RoomsPlain (restoreSession s id) := by
  rw [Dendri.restoreSession]
  cases hp : s.pendingRemovals.lookup id with
  | none => exact h
  | some p =>
      have hkeys := h.pending id p hp
      refine { h.erasePending id with
        rooms := fun key members hl => ?_, index := fun id' keys hl key hkey => ?_ }
      · rcases lookup_foldl_insert id p.rooms s.rooms hl with hmem | ⟨members', hl'⟩
        · exact hkeys key hmem
        · exact h.rooms key members' hl'
      · dsimp only at hl
        rw [FinMap.lookup_insert_ite] at hl
        split_ifs at hl
        · rw [← Option.some.inj hl, List.mem_toFinset] at hkey
          exact hkeys key hkey
        · exact h.index id' keys hl key hkey

/-! #### Messages -/

lemma handleTransmission (h : RoomsPlain s) (env : Env) (msg : Message) :
    RoomsPlain (handleTransmission env s msg) := by
  rw [Dendri.handleTransmission]
  by_cases hdst : msg.dst.getD "" ≠ ""
  · rw [if_pos hdst]
    cases s.wsSenders.lookup (msg.dst.getD "") with
    | none => dsimp only; split_ifs <;> exact h.of_side rfl
    | some c =>
        dsimp only
        split_ifs
        · have hdrop : RoomsPlain
              ((s.dropClient (msg.dst.getD "")).redisRemoveClient env (msg.dst.getD "")) :=
            h.of_side rfl
          exact hdrop.sendTo _ (roomPlain_singleton (f := .relay _) trivial)
        · exact h.send c (roomPlain_singleton (f := .relay _) trivial)
  · rw [if_neg hdst]
    split_ifs
    · exact h.of_side rfl
    · exact h

lemma bufferRelay (h : RoomsPlain s) (env : Env) (key : String) (seq : ℕ) (msg : Message) :
    RoomsPlain (bufferRelay env s key seq msg) := by
  refine { h with buffered := fun key' m hm => ?_ }
  simp only [Dendri.bufferRelay] at hm
  split_ifs at hm
  · exact h.buffered key' m hm
  · rw [ReplayBuffer.held_push] at hm
    split_ifs at hm
    · rcases List.mem_append.mp hm with hold | hnew
      · exact h.buffered key m
          (List.dropWhile_subset _ (List.mem_of_mem_tail hold))
      · rw [List.mem_singleton.mp hnew]
        trivial
    · rcases List.mem_append.mp hm with hold | hnew
      · exact h.buffered key m (List.dropWhile_subset _ hold)
      · rw [List.mem_singleton.mp hnew]
        trivial
    · exact h.buffered key' m hm

lemma roomFanOut (h : RoomsPlain s) (id key : String) (msg : Message) :
    RoomsPlain (roomFanOut s id key (.relay msg)) :=
  h.fanOut _ trivial

lemma handleData (h : RoomsPlain s) (env : Env) (cfg : Config) (id : String) (msg : Message) :
    RoomsPlain (handleData env cfg s id msg) := by
  have hcount : RoomsPlain { s with seqCounter := s.seqCounter + 1 } := h.of_side rfl
  refine handleData_induction (P := RoomsPlain) ?_ h ?_ ?_ hcount
  · exact h.sendTo id (roomPlain_singleton (f := .error _) trivial)
  · intro room _ _
    exact (hcount.roomFanOut id _ _).bufferRelay env _ _ _
  · intro dst _ _ _
    exact (hcount.sendTo dst (roomPlain_singleton (f := .relay _) trivial)).bufferRelay env _ _ _

lemma handlePresenceUpdate (h : RoomsPlain s) (id : String) (msg : Message) :
    RoomsPlain (handlePresenceUpdate s id msg) := by
  rw [Dendri.handlePresenceUpdate]
  split
  · exact h
  · split_ifs
    · exact h
    · have hstore : ∀ presence, RoomsPlain { s with presence := presence } :=
        fun presence => h.of_side rfl
      exact (hstore _).roomFanOut id _ msg

lemma recorded (h : RoomsPlain s) (env : Env) (id : String) (type_ : MessageType) :
    RoomsPlain (recorded env s id type_) := by
  rw [Dendri.recorded]
  split_ifs <;> exact h.of_side rfl

lemma receive (h : RoomsPlain s) (env : Env) (cfg : Config) (id : String) (msg : Message) :
    RoomsPlain (receive env cfg s id msg).1 := by
  have hmeter : RoomsPlain (meter env s id msg.type_).1 := by
    rw [meter]
    split <;> exact h.of_side rfl
  rw [Dendri.receive]
  dsimp only
  split_ifs
  · have hrec := hmeter.recorded env id msg.type_
    exact handleMessage_induction (P := RoomsPlain) (fun _ => hmeter.of_side rfl)
      (fun _ => hrec.handleTransmission env _) (fun _ => hrec.handleData env cfg id _)
      (fun _ => hrec.handleRoomJoin env cfg id _) (fun _ => hrec.handleRoomLeave id _)
      (fun _ => hrec.handlePresenceUpdate id _) fun _ _ => hrec
  · exact hmeter

/-! #### Connecting -/

lemma newChannel (h : RoomsPlain s) : RoomsPlain s.newChannel := by
  refine { h with frames := fun c f hf => ?_ }
  simp only [AppState.newChannel] at hf
  split_ifs at hf
  · exact absurd hf List.not_mem_nil
  · exact h.frames c f hf

lemma insertTenant (h : RoomsPlain s) (id : String) {tenant : Option String}
    (htenant : ∀ t ∈ tenant, tenantSep ∉ t.toList) : RoomsPlain (s.insertTenant id tenant) := by
  refine { h with tenants := fun id' t ht => ?_ }
  rw [AppState.insertTenant, FinMap.lookup_insertOpt] at ht
  split_ifs at ht
  · rcases Option.or_eq_some_iff.mp ht with hnew | ⟨-, hold⟩
    · exact htenant t hnew
    · exact h.tenants id t hold
  · exact h.tenants id' t ht

lemma deliverQueuedMessages (h : RoomsPlain s) (env : Env) (id : String) (c : ℕ) :
    RoomsPlain (deliverQueuedMessages env s id c) := by
  have htouch : RoomsPlain (s.redisTouchQueue env id) := h.of_side rfl
  rw [Dendri.deliverQueuedMessages]
  split_ifs
  · exact htouch
  · refine (htouch.send c fun f hf => ?_).of_side rfl
    obtain ⟨msg, -, rfl⟩ := List.mem_map.mp hf
    trivial

lemma gapFrames (s : AppState) (id : String) (lastSeq : Option ℕ) :
    ∀ f ∈ gapFrames s id lastSeq, f.RoomPlain := by
  intro f hf
  rw [Dendri.gapFrames.eq_def] at hf
  split at hf
  · split_ifs at hf
    · rw [List.mem_singleton.mp hf]
      trivial
    · exact absurd hf List.not_mem_nil
  · exact absurd hf List.not_mem_nil

/-- What is sent to a client that missed messages. -/
lemma missedFrames (h : RoomsPlain s) (env : Env) (id : String) (lastSeq : Option ℕ) :
    ∀ f ∈ Dendri.gapFrames s id lastSeq ++ replayFrames env s id lastSeq, f.RoomPlain := by
  intro f hf
  rcases List.mem_append.mp hf with hf | hf
  · exact gapFrames s id lastSeq f hf
  · rw [replayFrames.eq_def] at hf
    cases lastSeq with
    | none => exact absurd hf List.not_mem_nil
    | some requested =>
        dsimp only at hf
        rw [ReplayBuffer.replaySince_eq] at hf
        obtain ⟨m, hm, rfl⟩ := List.mem_map.mp hf
        exact h.buffered id m (List.mem_of_mem_filter hm)

lemma runClient {env : Env} {id token : String} {auth : Auth} {lastSeq : Option ℕ}
    {restored : List String} {K : Conn} (h : RoomsPlain s)
    (hrun : runClient env s id token auth lastSeq restored = .admitted K t) : RoomsPlain t := by
  rw [Dendri.runClient] at hrun
  rw [← (Outcome.admitted.inj hrun).2]
  have hsender : RoomsPlain (s.newChannel.setSender id s.nextChan) := h.newChannel.of_side rfl
  have hframes : ∀ f ∈ openFrame ::
      Dendri.gapFrames (s.newChannel.setSender id s.nextChan) id lastSeq, f.RoomPlain := by
    intro f hf
    rcases List.mem_cons.mp hf with rfl | hf
    · trivial
    · exact gapFrames _ id lastSeq f hf
  have hopen := hsender.send s.nextChan hframes
  have hqueued := hopen.deliverQueuedMessages env id s.nextChan
  refine hqueued.send s.nextChan fun f hf => ?_
  obtain ⟨key, -, hkey⟩ := List.mem_filterMap.mp hf
  obtain ⟨members, hmembers, rfl⟩ := Option.map_eq_some_iff.mp hkey
  exact hqueued.rooms key members hmembers

lemma admitSocket {env : Env} {cfg : Config} {id token : String} {auth : Auth}
    {lastSeq : Option ℕ} {K : Conn} (h : RoomsPlain s)
    (htenant : ∀ t ∈ auth.tenantId, tenantSep ∉ t.toList)
    (hopened : admitSocket env cfg s id token auth lastSeq = .admitted K t) : RoomsPlain t := by
  rcases runClient_of_admitSocket hopened with ⟨-, t, restored, rfl, hrun⟩ | ⟨-, -, t, rfl, hrun⟩
  · have hinsert : RoomsPlain (s.insertClient env.now id token .WebSocket) := h.of_side rfl
    exact ((hinsert.insertTenant id htenant).restoreSession id).runClient hrun
  · refine runClient (insertTenant (h.of_side ?_) id htenant) hrun
    rfl

lemma claimId {cfg : Config} {id token : String} {why : Option Refusal} (h : RoomsPlain s)
    (hclaim : claimId cfg s id token = (t, why)) : RoomsPlain t := by
  obtain ⟨n, hn⟩ := claimId_counter cfg s id token
  rw [hclaim] at hn
  rw [show t = _ from hn]
  exact h.of_side rfl

lemma openStream {env : Env} {q : HttpQuery} {auth : Auth} {K : Conn} (h : RoomsPlain s)
    (htenant : ∀ t ∈ auth.tenantId, tenantSep ∉ t.toList)
    (hopen : openStream env s q auth = .admitted K t) : RoomsPlain t := by
  rw [Dendri.openStream] at hopen
  rw [← (Outcome.admitted.inj hopen).2]
  have hregister : RoomsPlain (s.redisRegisterClient env q.id q.token) := h.of_side rfl
  have hinsert : RoomsPlain (((s.redisRegisterClient env q.id q.token).newChannel.insertClient
      env.now q.id q.token .Sse).setSender q.id s.nextChan) := hregister.newChannel.of_side rfl
  have hsent := (hinsert.insertTenant q.id htenant).send s.nextChan
    (roomPlain_singleton (f := openFrame) trivial)
  have hqueued := hsent.deliverQueuedMessages env q.id s.nextChan
  exact hqueued.send s.nextChan (hqueued.missedFrames env q.id q.lastSeq)

lemma registerPoll (h : RoomsPlain s) (env : Env) (isNew : Bool) (tx : ℕ) (q : HttpQuery)
    {auth : Auth} (htenant : ∀ t ∈ auth.tenantId, tenantSep ∉ t.toList) :
    RoomsPlain (registerPoll env s isNew tx q auth) := by
  rw [Dendri.registerPoll]
  split_ifs
  · have hinsert : RoomsPlain ((s.redisRegisterClient env q.id q.token).insertClient env.now q.id
        q.token .Polling) := h.of_side rfl
    exact ((hinsert.insertTenant q.id htenant).send tx
      (roomPlain_singleton (f := openFrame) trivial)).deliverQueuedMessages env q.id tx
  · exact h.of_side rfl

lemma pollingPair (h : RoomsPlain s) (id : String) : RoomsPlain (pollingPair s id).1 := by
  rw [Dendri.pollingPair]
  split
  · exact h
  · exact h.newChannel.of_side rfl

end RoomsPlain

/-- Tenants have ids of the identifier charset. -/
def TenantIdsValid (env : Env) : Prop :=
  ∀ key tenant, env.resolveApiKey key = some tenant → isValidIdentifier tenant.id = true

lemma sep_notMem_of_authenticate {env : Env} {cfg : Config} {key apiKey jwt : Option String}
    {auth : Auth} (henv : TenantIdsValid env)
    (h : authenticate env cfg key apiKey jwt = .ok auth) :
    ∀ t ∈ auth.tenantId, tenantSep ∉ t.toList := by
  have hresolve : ∀ tenant, resolveTenant env cfg apiKey = .ok (some tenant) →
      isValidIdentifier tenant.id = true := by
    intro tenant hr
    rw [resolveTenant.eq_def] at hr
    cases apiKey with
    | none =>
        dsimp only at hr
        split_ifs at hr
        exact absurd (Except.ok.inj hr) (by simp)
    | some apiKey =>
        dsimp only at hr
        cases hkey : env.resolveApiKey apiKey with
        | none =>
            rw [hkey] at hr
            exact absurd hr (by simp)
        | some tenant' =>
            rw [hkey] at hr
            rw [← Option.some.inj (Except.ok.inj hr)]
            exact henv apiKey tenant' hkey
  intro t ht
  obtain ⟨tenant, htenant, rfl⟩ := Option.map_eq_some_iff.mp ht
  refine sep_notMem_of_isValidIdentifier (hresolve tenant ?_)
  rw [authenticate.eq_def] at h
  cases key with
  | none => exact absurd h (by simp)
  | some key =>
      dsimp only at h
      split_ifs at h
      cases hr : resolveTenant env cfg apiKey with
      | error why =>
          rw [hr] at h
          exact absurd h (by simp)
      | ok tenant' =>
          rw [hr] at h
          dsimp only at h
          cases hjwt : verifyJwt env cfg tenant' jwt with
          | error why =>
              rw [hjwt] at h
              exact absurd h (by simp)
          | ok claims =>
              rw [hjwt] at h
              rw [← Except.ok.inj h] at htenant
              exact congrArg Except.ok htenant

lemma RoomsPlain.connect {env : Env} {cfg : Config} {s s' : AppState} {r : Request} {K : Conn}
    (h : RoomsPlain s) (henv : TenantIdsValid env)
    (hconnect : connect env cfg s r = .admitted K s') : RoomsPlain s' := by
  cases r with
  | ws q =>
      rcases handleSocket_cases env cfg s q with ⟨_, heq, -⟩ | ⟨id, token, auth, h'⟩
      · exact absurd (heq.symm.trans hconnect) (by simp)
      · obtain ⟨-, -, -, -, hauth, -, heq⟩ := h'
        have hstore : RoomsPlain (s.storeClaims id auth.claims) := h.of_side rfl
        exact hstore.admitSocket (sep_notMem_of_authenticate henv hauth)
          (heq.symm.trans hconnect)
  | sse q =>
      rw [Dendri.connect, sseHandler] at hconnect
      cases hauth : authenticate env cfg q.key q.apiKey q.jwt with
      | error why =>
          rw [hauth] at hconnect
          exact absurd hconnect (by simp)
      | ok auth =>
          have hstore : RoomsPlain (s.storeClaims q.id auth.claims) := h.of_side rfl
          rw [hauth] at hconnect
          dsimp only at hconnect
          cases hclaim : Dendri.claimId cfg (s.storeClaims q.id auth.claims) q.id q.token with
          | mk t refusal =>
              rw [hclaim] at hconnect
              cases refusal with
              | some why => exact absurd hconnect (by simp)
              | none =>
                  exact (hstore.claimId hclaim).openStream
                    (sep_notMem_of_authenticate henv hauth) hconnect
  | poll q =>
      rw [Dendri.connect, pollHandler] at hconnect
      cases hauth : authenticate env cfg q.key q.apiKey q.jwt with
      | error why =>
          rw [hauth] at hconnect
          exact absurd hconnect (by simp)
      | ok auth =>
          have hstore : RoomsPlain (s.storeClaims q.id auth.claims) := h.of_side rfl
          rw [hauth] at hconnect
          dsimp only at hconnect
          cases hclaim : Dendri.claimId cfg (s.storeClaims q.id auth.claims) q.id q.token with
          | mk t refusal =>
              rw [hclaim] at hconnect
              cases refusal with
              | some why => exact absurd hconnect (by simp)
              | none =>
                  rw [← (Outcome.admitted.inj hconnect).2]
                  have hpoll := ((hstore.claimId hclaim).pollingPair q.id).registerPoll env
                    ((s.storeClaims q.id auth.claims).clients.lookup q.id).isNone
                    (Dendri.pollingPair t q.id).2.1 q (sep_notMem_of_authenticate henv hauth)
                  exact hpoll.send _ (hpoll.missedFrames env q.id q.lastSeq)

/-! ### Background passes and steps -/

namespace RoomsPlain

variable {s : AppState}

lemma closeChannel (h : RoomsPlain s) (c : ℕ) : RoomsPlain (s.closeChannel c) := by
  refine { h with frames := fun i f hf => ?_ }
  simp only [AppState.closeChannel] at hf
  split_ifs at hf with hi
  · exact h.frames c f hf
  · exact h.frames i f hf

lemma teardown (h : RoomsPlain s) (env : Env) (cfg : Config) (id : String) :
    RoomsPlain (teardown env cfg s id) := by
  have hdrop : RoomsPlain (((s.dropClient id).eraseAuth id).removeBuckets id) := by
    refine { h with tenants := fun id' t ht => ?_ }
    have hlookup : (s.clientTenants.erase id).lookup id' = some t := ht
    rw [FinMap.lookup_erase_ite] at hlookup
    split_ifs at hlookup
    exact h.tenants id' t hlookup
  exact (hdrop.removeClientFromAllRooms env cfg id).of_side rfl

lemma cleanupClient (h : RoomsPlain s) (env : Env) (cfg : Config) (id : String) :
    RoomsPlain (cleanupClient env cfg s id) := by
  have herase : RoomsPlain { s with pollingReceivers := s.pollingReceivers.erase id } :=
    h.of_side rfl
  exact herase.teardown env cfg id

lemma messagesExpire (h : RoomsPlain s) (env : Env) (cfg : Config) :
    RoomsPlain (messagesExpire env cfg s) :=
  messagesExpire_induction env cfg h (fun _ _ ht => ht.of_side rfl)
    fun _ src _ ht => ht.sendTo src (roomPlain_singleton (f := .expire _ _) trivial)

lemma evictBroken (h : RoomsPlain s) (env : Env) (cfg : Config) :
    RoomsPlain (evictBroken env cfg s) := by
  rw [Dendri.evictBroken]
  generalize toEvict env cfg s = ids
  induction ids generalizing s with
  | nil => exact h
  | cons id ids ih => exact ih (s := evictClient env s id) (h.of_side rfl)

lemma replayEvict (h : RoomsPlain s) (env : Env) : RoomsPlain (replayEvict env s) := by
  refine { h with buffered := fun key m hm => ?_ }
  have hgrow := (supplies_replayEvict (o := ⟨fun _ _ => True, fun _ _ => True,
    fun _ _ => False, fun _ _ _ => True⟩) env s).buffer key
  exact (hgrow.mem hm).elim (h.buffered key m) False.elim

end RoomsPlain

/-- Room names stay plain. -/
lemma roomsPlain_of_step {cfg : Config} {w w' : World} {l : Label} (h : RoomsPlain w.app)
    (henv : TenantIdsValid l.env) (hstep : step cfg w l = some w') : RoomsPlain w'.app := by
  have hreacts := reacts_of_step hstep
  obtain ⟨env, ev⟩ := l
  generalize w'.app = s' at hreacts ⊢
  dsimp only at hreacts
  cases hreacts with
  | refused r =>
      cases storedClaims env cfg r with
      | none => exact h
      | some stored => exact h.of_side rfl
  | admitted r K s' hout => exact h.connect henv hout
  | wsText k len parsed K hK =>
      rw [wsText.eq_def]
      split_ifs
      · exact h.send K.chan (roomPlain_singleton (f := .error _) trivial)
      · split
        · exact h
        · rename_i msg
          have hreceive := h.receive env cfg K.id msg
          dsimp only
          split_ifs
          · exact hreceive
          · exact hreceive.send K.chan (roomPlain_singleton (f := .error _) trivial)
  | httpSend id token parsed =>
      rw [sendHandler]
      cases w.app.clients.lookup id with
      | none => exact h
      | some client =>
          have htouch : RoomsPlain (w.app.touch env.now id) := h.of_side rfl
          dsimp only
          split_ifs
          · cases parsed with
            | none => exact htouch
            | some msg => exact htouch.receive env cfg id msg
          · exact h
  | wsClose k K hK =>
      rw [closeSocket]
      split_ifs
      · exact (h.teardown env cfg K.id).closeChannel K.chan
      · exact h.closeChannel K.chan
  | receiverDrop k K hK hpoll => exact h.closeChannel K.chan
  | watchdogTick k K hK => exact h.cleanupClient env cfg K.id
  | streamEnd k K hK => exact (h.cleanupClient env cfg K.id).closeChannel K.chan
  | nothing ev k hev => exact h
  | deliver c n =>
      refine { h with frames := fun i f hf => ?_ }
      simp only [AppState.deliver] at hf
      split_ifs at hf
      · exact h.frames c f (List.mem_of_mem_drop hf)
      · exact h.frames i f hf
  | evictBroken => exact h.evictBroken env cfg
  | expireSessions =>
      exact cleanupExpiredSessions_induction (P := RoomsPlain) env cfg h
        fun t id ht => ht.expireSession id
  | expireMessages => exact h.messagesExpire env cfg
  | evictReplay => exact h.replayEvict env
  | reconcile | redisChange => exact h.of_side rfl

/-! ### Ids and destinations -/

/-- The ids and destinations in a frame are plain. -/
def Frame.SourcePlain : Frame → Prop
  | .presence src _ _ => Json.Plain src
  | .expire src dst => Json.Plain src ∧ Json.Plain dst
  | _ => True

lemma Frame.plain_iff (f : Frame) : f.Plain ↔ f.RoomPlain ∧ f.SourcePlain := by
  cases f <;> simp [Frame.Plain, Frame.RoomPlain, Frame.SourcePlain, and_comm]

/-- The source and the destination of a queued message are plain. -/
def QueueEntry.Plain (entry : QueueEntry) : Prop :=
  ∀ msg, entry.parse = some msg → Json.Plain (msg.src.getD "") ∧ Json.Plain (msg.dst.getD "")

/-- Presence data and queued messages with plain ids and destinations. -/
def plainOrigin : Origin where
  frame _ f := f.SourcePlain
  entry _ entry := entry.Plain
  buffered _ m := m.data.SourcePlain
  presence _ id _ := Json.Plain id

/-- The account, with other entries in the queues. -/
def plainOriginWith (entry : String → QueueEntry → Prop) : Origin :=
  { plainOrigin with entry := entry }

lemma plain_plainOriginWith (entry : String → QueueEntry → Prop) :
    (plainOriginWith entry).Plain where
  open_ _ := trivial
  error _ _ := trivial
  replayGap _ _ _ := trivial
  roomJoinDenied _ _ _ := trivial
  roomPeers _ _ _ := trivial

/-- The destination under which a message is put into a Redis queue. -/
def queuedTo (env : Env) (s : AppState) (msg : Message) : Option String :=
  if msg.type_.isTransmission ∧ msg.type_ ≠ .LEAVE ∧ msg.type_ ≠ .EXPIRE ∧ msg.dst.getD "" ≠ "" ∧
      s.wsSenders.lookup (msg.dst.getD "") = none ∧
      env.redisOk .addMessageToQueue (msg.dst.getD "") then msg.dst
  else none

/-- Who stores presence data has a plain id, and what is put into a Redis queue,
here or by another process, has a plain source and destination. The ids of
tenants are those that the server generates. -/
structure WritesPlain (cfg : Config) (w : World) (l : Label) : Prop where
  presence : ∀ id msg key, incoming cfg w l.event = some (id, msg) →
    allowed l.env id msg.type_ = true → presents w.app id msg = some key → Json.Plain id
  queued : ∀ id msg dst, incoming cfg w l.event = some (id, msg) →
    allowed l.env id msg.type_ = true → queuedTo l.env w.app msg = some dst →
    Json.Plain id ∧ Json.Plain dst
  redis : ∀ redis id entries entry, l.event = .redisChange redis →
    redis.queue.lookup id = some entries → entry ∈ entries →
    w.app.Queued id entry ∨ entry.Plain
  tenants : TenantIdsValid l.env

section Steps

variable {cfg : Config} {w w' : World} {l : Label}

/-- What a step can put somewhere, for any account of the queues. -/
lemma ofStep_plainOriginWith {entry : String → QueueEntry → Prop}
    (hs : plainOrigin.Accounts w.app)
    (hqueued : ∀ id msg, incoming cfg w l.event = some (id, msg) →
      allowed l.env id msg.type_ = true → msg.type_.isTransmission = true →
      ∀ dst, msg.dst = some dst → entry dst (.message { msg with src := some id }))
    (hstored : ∀ id msg, incoming cfg w l.event = some (id, msg) →
      allowed l.env id msg.type_ = true → msg.type_ = .PresenceUpdate → msg.room.isSome →
      msg.payload.isSome → Json.Plain id)
    (hredis : ∀ redis id entries e, l.event = .redisChange redis →
      redis.queue.lookup id = some entries → e ∈ entries → w.app.Queued id e ∨ entry id e) :
    (plainOriginWith entry).OfStep cfg w l where
  message id msg hin hallowed :=
    { relayed := fun _ _ => trivial
      queued := fun htype dst hdst => hqueued id msg hin hallowed htype dst hdst
      closed := fun _ _ _ _ _ _ _ => trivial
      data := fun _ _ => trivial
      buffered := fun _ _ => trivial
      joined := fun _ key peer payload hp _ _ => hs.presence key peer payload hp
      stored := fun htype _ _ hroom hpayload =>
        hstored id msg hin hallowed htype (by rw [hroom]; rfl) (by rw [hpayload]; rfl)
      announced := fun _ _ => trivial }
  connect _ K _ _ _ _ _ := ⟨fun _ _ _ _ => trivial, fun m hm => hs.buffered K.id m hm⟩
  expiry _ id _ e msg hq hparse _ := (hs.entry id e hq msg hparse).symm
  redis := hredis

/-- A message that is not queued leaves the queues alone. -/
lemma queue_handleTransmission {env : Env} {s : AppState} {msg : Message}
    (htype : msg.type_.isTransmission = true) (h : queuedTo env s msg = none)
    (hdst : msg.dst.isSome) : (handleTransmission env s msg).redis.queue = s.redis.queue := by
  have hremove : ∀ (t : AppState) id, (t.redisRemoveClient env id).redis.queue = t.redis.queue := by
    intro t id
    rw [redisRemoveClient]
    dsimp only
    split_ifs <;> rfl
  rw [handleTransmission]
  by_cases hempty : msg.dst.getD "" ≠ ""
  · rw [if_pos hempty]
    cases hc : s.wsSenders.lookup (msg.dst.getD "") with
    | some c =>
        dsimp only
        split_ifs
        · exact hremove _ _
        · rfl
    | none =>
        dsimp only
        split_ifs with hleave
        · rfl
        · rw [not_or] at hleave
          rw [redisAddMessageToQueue]
          dsimp only
          split_ifs with hok
          · rw [queuedTo, if_pos ⟨htype, hleave.1, hleave.2, hempty, hc, hok⟩] at h
            rw [h] at hdst
            exact absurd hdst (by simp)
          · rfl
  · rw [if_neg hempty]
    split_ifs
    · exact hremove _ _
    · rfl

lemma queue_handleMessage {env : Env} {s : AppState} {id : String} {msg : Message}
    (htype : msg.type_.isTransmission = true) (hdst : msg.dst.isSome)
    (hnone : queuedTo env s msg = none) :
    (handleMessage env cfg s id msg).redis.queue = s.redis.queue := by
  have hother : ∀ t, t.isTransmission = false → msg.type_ ≠ t := by
    rintro t ht rfl
    exact absurd htype (by simp [ht])
  refine handleMessage_induction (P := fun t => t.redis.queue = s.redis.queue)
    (fun h => absurd h (hother _ rfl)) (fun _ => ?_) (fun h => absurd h (hother _ rfl))
    (fun h => absurd h (hother _ rfl)) (fun h => absurd h (hother _ rfl))
    (fun h => absurd h (hother _ rfl)) fun _ hno => absurd htype (by simp [hno])
  have hsame : (recorded env s id msg.type_).wsSenders = s.wsSenders ∧
      (recorded env s id msg.type_).redis = s.redis := by
    rw [recorded]
    split_ifs <;> exact ⟨rfl, rfl⟩
  have hnone' : queuedTo env (recorded env s id msg.type_) { msg with src := some id } = none := by
    rw [queuedTo] at hnone ⊢
    rw [hsame.1]
    exact hnone
  have hqueue : (handleTransmission env (recorded env s id msg.type_)
      { msg with src := some id }).redis.queue = (recorded env s id msg.type_).redis.queue :=
    queue_handleTransmission htype hnone' hdst
  rw [hqueue, hsame.2]

/-- A step with a transmission that is not queued leaves the queues alone. -/
lemma queue_of_step {id : String} {msg : Message} (hstep : step cfg w l = some w')
    (hin : incoming cfg w l.event = some (id, msg)) (hallowed : allowed l.env id msg.type_ = true)
    (htype : msg.type_.isTransmission = true) (hdst : msg.dst.isSome)
    (hnone : queuedTo l.env w.app msg = none) : w'.app.redis.queue = w.app.redis.queue := by
  obtain ⟨clients, rateLimiter, rfl⟩ := handled_of_incoming hstep hin hallowed
  exact queue_handleMessage htype hdst hnone

/-- A step with presence data for no valid room stores nothing. -/
lemma stores_of_step {id : String} {msg : Message} (hstep : step cfg w l = some w')
    (hin : incoming cfg w l.event = some (id, msg)) (hallowed : allowed l.env id msg.type_ = true)
    (htype : msg.type_ = .PresenceUpdate) (hpayload : msg.payload.isSome)
    (hnone : presents w.app id msg = none) : w'.app.stores = w.app.stores := by
  obtain ⟨clients, rateLimiter, rfl⟩ := handled_of_incoming hstep hin hallowed
  have hinvalid : ∀ room, msg.room = some room → isValidIdentifier room = false := by
    intro room hroom
    rw [presents, if_pos ⟨htype, hpayload⟩, hroom, Option.bind_some] at hnone
    split_ifs at hnone with hvalid
    exact Bool.eq_false_of_not_eq_true hvalid
  obtain ⟨type_, src, dst, payload, seq, room, timestamp, topicClass⟩ := msg
  subst htype
  cases room with
  | none => rfl
  | some room =>
      have hv := hinvalid room rfl
      simp only [handleMessage, handlePresenceUpdate, hv, Bool.not_false, if_true]
      rfl

/-- The account of ids and destinations is kept. -/
lemma accounts_step (hs : plainOrigin.Accounts w.app) (hplain : WritesPlain cfg w l)
    (hstep : step cfg w l = some w') : plainOrigin.Accounts w'.app := by
  by_cases hunqueued : ∃ id msg, incoming cfg w l.event = some (id, msg) ∧
      allowed l.env id msg.type_ = true ∧ msg.type_.isTransmission = true ∧ msg.dst.isSome ∧
      queuedTo l.env w.app msg = none
  · -- nothing is queued, so the account of the queues does not matter
    obtain ⟨id, msg, hin, hallowed, htype, hdst, hnone⟩ := hunqueued
    have hqueue := queue_of_step hstep hin hallowed htype hdst hnone
    have hof : (plainOriginWith fun _ _ => True).OfStep cfg w l := by
      refine ofStep_plainOriginWith hs (fun _ _ _ _ _ _ _ => trivial) ?_
        fun _ _ _ _ _ _ _ => Or.inr trivial
      intro id' msg' hin' _ htype'
      obtain ⟨-, rfl⟩ := Prod.mk.inj (Option.some.inj (hin.symm.trans hin'))
      exact absurd htype (by simp [htype', MessageType.isTransmission])
    have hsup := supplies_step (plain_plainOriginWith _) hof hstep
    have hfree : (plainOriginWith fun _ _ => True).Accounts w.app :=
      ⟨hs.frame, fun _ _ _ => trivial, hs.buffered, hs.presence⟩
    have haccounts := hsup.accounts hfree
    refine ⟨haccounts.frame, fun id' e hq => ?_, haccounts.buffered, haccounts.presence⟩
    rw [AppState.Queued, hqueue] at hq
    exact hs.entry id' e hq
  by_cases hunstored : ∃ id msg, incoming cfg w l.event = some (id, msg) ∧
      allowed l.env id msg.type_ = true ∧ msg.type_ = .PresenceUpdate ∧ msg.payload.isSome ∧
      presents w.app id msg = none
  · obtain ⟨id, msg, hin, hallowed, htype, hpayload, hnone⟩ := hunstored
    exact (Supplies.of_stores (stores_of_step hstep hin hallowed htype hpayload hnone)).accounts hs
  refine Supplies.accounts (supplies_step (plain_plainOriginWith plainOrigin.entry)
    (ofStep_plainOriginWith hs ?_ ?_ hplain.redis) hstep) hs
  · intro id msg hin hallowed htype dst hdst
    cases hto : queuedTo l.env w.app msg with
    | none => exact absurd ⟨id, msg, hin, hallowed, htype, by rw [hdst]; rfl, hto⟩ hunqueued
    | some dst' =>
        have hdst' : dst' = dst := by
          rw [queuedTo] at hto
          split_ifs at hto
          exact Option.some.inj (hto.symm.trans hdst)
        obtain ⟨hid, hplaindst⟩ := hplain.queued id msg dst' hin hallowed hto
        intro out hout
        rw [← Option.some.inj hout]
        refine ⟨hid, ?_⟩
        rw [hdst, Option.getD_some, ← hdst']
        exact hplaindst
  · intro id msg hin hallowed htype hroom hpayload
    cases hkey : presents w.app id msg with
    | none => exact absurd ⟨id, msg, hin, hallowed, htype, hpayload, hkey⟩ hunstored
    | some key => exact hplain.presence id msg key hin hallowed hkey

end Steps

/-! ### Runs -/

lemma accounts_plain_init (cfg : Config) {redis : Redis}
    (hredis : ∀ id entries entry, redis.queue.lookup id = some entries → entry ∈ entries →
      entry.Plain) : plainOrigin.Accounts (World.init cfg redis).app where
  frame c f hf := absurd hf (by simp [World.init, AppState.new])
  entry id entry hq := by
    obtain ⟨entries, hentries, hmem⟩ := hq
    exact hredis id entries entry hentries hmem
  buffered key m hm := absurd hm (by simp [World.init, AppState.new, ReplayBuffer.held])
  presence room id payload hp := by
    obtain ⟨entries, hentries, -⟩ := hp
    exact absurd hentries (by simp [World.init, AppState.new])

/-- All frames on channels are the serializations of what they mean. -/
def FramesFaithful (s : AppState) : Prop := ∀ c, ∀ f ∈ (s.chans c).queue, f.Faithful

/-- In every run in which presence data is stored under plain ids only, and
messages are queued with plain sources and destinations only, every frame that
the server sends is the serialization of the object it means. -/
theorem frames_faithful {cfg : Config} {redis : Redis} {ls : List Label}
    (hredis : ∀ id entries entry, redis.queue.lookup id = some entries → entry ∈ entries →
      entry.Plain)
    (h : AllSteps (step cfg) (fun w l _ => WritesPlain cfg w l) (World.init cfg redis) ls) :
    AllSteps (step cfg) (fun _ _ w' => FramesFaithful w'.app) (World.init cfg redis) ls := by
  refine AllSteps.of_invariant
    (I := fun w => RoomsPlain w.app ∧ plainOrigin.Accounts w.app) ?_
    ⟨RoomsPlain.init cfg redis, accounts_plain_init cfg hredis⟩ h
  rintro w l w' ⟨hrooms, hs⟩ hstep hplain
  have hrooms' := roomsPlain_of_step hrooms hplain.tenants hstep
  have hs' := accounts_step hs hplain hstep
  refine ⟨⟨hrooms', hs'⟩, fun c f hf => ?_⟩
  rw [faithful_iff, Frame.plain_iff]
  exact ⟨hrooms'.frames c f hf, hs'.frame c f hf⟩

/-- A client stores presence data for a room, and `bob` joins it. -/
def bobGetsPresence (r : Request) (say : Event) : List Label :=
  [.connect r, say, .connect (Params.plain "bob" "b").ws, .say 1 (roomJoin "lobby")].map quietly

/-- `alice` stores presence data on a WebSocket. -/
def alicePresent : List Label :=
  bobGetsPresence (Params.plain "alice" "a").ws (.say 0 (presenceUpdate "lobby" "0"))

theorem frames_faithful_alice :
    ∃ w, run (step {}) (World.init {} Redis.empty) alicePresent = some w ∧
      .presence "alice" "lobby" "0" ∈ (w.app.chans 1).queue ∧
      AllSteps (step {}) (fun _ _ w' => FramesFaithful w'.app) (World.init {} Redis.empty)
        alicePresent := by
  have heval : (run (step {}) (World.init {} Redis.empty) alicePresent).map
      (fun w => decide (.presence "alice" "lobby" "0" ∈ (w.app.chans 1).queue)) = some true := by
    decide +kernel
  obtain ⟨w, hw, hmem⟩ := Option.map_eq_some_iff.mp heval
  refine ⟨w, hw, of_decide_eq_true hmem, frames_faithful (by simp [Redis.empty]) ?_⟩
  have hcheck : AllSteps (step {}) (fun w l _ => ∀ p ∈ incoming {} w l.event,
      Json.Plain p.1 ∧ Json.Plain (p.2.dst.getD "")) (World.init {} Redis.empty) alicePresent := by
    decide +kernel
  have hquiet : AllSteps (step {}) (fun _ l _ => TenantIdsValid l.env ∧
      ∀ redis, l.event ≠ .redisChange redis) (World.init {} Redis.empty) alicePresent := by
    refine AllSteps.of_mem _ fun l hl w w' _ => ?_
    fin_cases hl <;> exact ⟨fun _ _ h => absurd h (by simp [quietly, Env.quiet]), by
      simp [quietly, Event.say]⟩
  refine AllSteps.of_invariant (I := fun _ => True) (fun w l w' _ _ h => ⟨trivial, ?_⟩) trivial
    (hcheck.and hquiet)
  obtain ⟨hplain, htenants, hredis⟩ := h
  refine ⟨fun id msg key hin _ _ => (hplain _ hin).1, fun id msg dst hin _ hto => ?_,
    fun redis _ _ _ hev => absurd hev (hredis redis), htenants⟩
  refine ⟨(hplain _ hin).1, ?_⟩
  rw [queuedTo] at hto
  split_ifs at hto
  have hdst := (hplain _ hin).2
  rw [hto] at hdst
  exact hdst

/-- An id with a quotation mark, which a WebSocket would not be admitted with. -/
def forger : Params := Params.plain "eve\",\"admin\":\"1" "e"

/-- A client that connected over SSE with a quotation mark in its id stores
presence data, and the frame that `bob` gets has a field which it has written. -/
theorem presence_injects :
    ¬∀ (cfg : Config) (redis : Redis) (ls : List Label),
      (∀ id entries entry, redis.queue.lookup id = some entries → entry ∈ entries →
        entry.Plain) →
      AllSteps (step cfg) (fun _ _ w' => FramesFaithful w'.app) (World.init cfg redis) ls := by
  intro hall
  let ls := bobGetsPresence (.sse forger.query)
    (.httpSend forger.id "e" (some (presenceUpdate "lobby" "0")))
  have heval : (run (step {}) (World.init {} Redis.empty) ls).map
      (fun w => decide (.presence forger.id "lobby" "0" ∈ (w.app.chans 1).queue)) = some true := by
    decide +kernel
  obtain ⟨w, hrun, hmem⟩ := Option.map_eq_some_iff.mp heval
  have hfaithful := (hall {} Redis.empty ls (by simp [Redis.empty])).of_run
    (fun c f hf => absurd hf (by simp [World.init, AppState.new])) hrun 1 _
    (of_decide_eq_true hmem)
  rw [faithful_iff] at hfaithful
  exact absurd hfaithful.1 (by decide)

end Dendri
