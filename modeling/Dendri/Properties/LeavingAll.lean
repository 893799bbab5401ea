import Dendri.Concurrent.Ordering
import Dendri.Properties.Presence

/-!
The immediate removal of a client from all its rooms. The loop visits the set of
rooms in no fixed order; what it does to a room depends on that room only, so the
order is seen in nothing but the order of the notices.

* `LeftRooms`: the state when the rooms of a list are done, read off the state
  before the loop;
* `LeftRooms.step`, `leftRooms_foldl`: one more room, and the whole loop;
* `LeftAll`: the client is in no room, nobody else is affected, and each other
  member gets one notice for each room it shared with the client;
* `leaving_all_exact`: the removal ends in such a state, the same for all orders.
-/

namespace Dendri

open AppState

/-! ### The loop -/

/-- The other members of a room. -/
def AppState.othersIn (s : AppState) (id room : String) : Finset String :=
  ((s.rooms.lookup room).getD ∅).erase id

/-- What the other members of a room are told when a client has left it. -/
def leaveNotice (s : AppState) (id room : String) : Frame :=
  .roomPeers (roomDisplay room) (s.othersIn id room)

/-- The channel belongs to another member of the room. -/
def Hears (s : AppState) (id : String) (c : ℕ) (room : String) : Prop :=
  ∃ d ∈ s.othersIn id room, s.wsSenders.lookup d = some c

instance (s : AppState) (id : String) (c : ℕ) : DecidablePred (Hears s id c) := fun _ =>
  inferInstanceAs (Decidable (∃ d ∈ _, _))

/-- The rooms of `done` are left, and all else is as in `s`. -/
structure LeftRooms (s : AppState) (id : String) (done : List String) (t : AppState) : Prop where
  rooms : ∀ room, t.rooms.lookup room =
    if room ∈ done then if s.othersIn id room = ∅ then none else some (s.othersIn id room)
    else s.rooms.lookup room
  presence : ∀ room, t.presence.lookup room =
    if room ∈ done then
      if s.othersIn id room = ∅ then none
      else (s.presence.lookup room).map fun entries => entries.erase id
    else s.presence.lookup room
  chans : ∀ c, t.chans c =
    if (s.chans c).closed = false then
      { s.chans c with
        queue := (s.chans c).queue ++ (done.filter (Hears s id c)).map (leaveNotice s id) }
    else s.chans c
  frame : t = { s with rooms := t.rooms, presence := t.presence, chans := t.chans }

/-- The channels after the removal from one room that exists. -/
lemma chans_removeClientFromRoom {s : AppState} {id room : String} {members : Finset String}
    (h : s.rooms.lookup room = some members) (c : ℕ) :
    (removeClientFromRoom s id room).chans c =
      if (∃ d ∈ members.erase id, s.wsSenders.lookup d = some c) ∧ (s.chans c).closed = false then
        { s.chans c with
          queue := (s.chans c).queue ++ [.roomPeers (roomDisplay room) (members.erase id)] }
      else s.chans c := by
  rw [removeClientFromRoom, h]
  dsimp only
  by_cases hempty : members.erase id = ∅
  · have hnone : ¬∃ d ∈ members.erase id, s.wsSenders.lookup d = some c := by
      rintro ⟨d, hd, -⟩
      rw [hempty] at hd
      exact absurd hd (Finset.notMem_empty d)
    rw [if_pos hempty, if_neg fun h => hnone h.1]
  · rw [if_neg hempty]
    rfl

/-- A client without a reverse index is taken out of a room: only the members, the
presence data and the channels change. -/
lemma removeClientFromRoom_frame {s : AppState} {id : String}
    (h : s.clientRooms.lookup id = none) (room : String) :
    removeClientFromRoom s id room =
      { s with
        rooms := (removeClientFromRoom s id room).rooms
        presence := (removeClientFromRoom s id room).presence
        chans := (removeClientFromRoom s id room).chans } := by
  have hindex : ∀ f, FinMap.modify s.clientRooms id f = s.clientRooms := by
    intro f
    rw [FinMap.modify, h]
  rw [removeClientFromRoom]
  cases s.rooms.lookup room with
  | none => rfl
  | some members =>
    dsimp only
    by_cases hempty : members.erase id = ∅
    · rw [if_pos hempty]
      dsimp only
      rw [hindex]
    · rw [if_neg hempty]
      dsimp only [fanOut]
      rw [hindex]

namespace LeftRooms

variable {s t : AppState} {id room : String} {done : List String}

lemma nil (s : AppState) (id : String) : LeftRooms s id [] s where
  rooms _ := (if_neg List.not_mem_nil).symm
  presence _ := (if_neg List.not_mem_nil).symm
  chans c := by
    rw [List.filter_nil, List.map_nil, List.append_nil]
    exact (ite_self _).symm
  frame := rfl

/-- One more room. What is read in it is as before the loop, since no room is
visited twice. -/
lemma step (h : LeftRooms s id done t) (hindex : s.clientRooms.lookup id = none)
    (hroom : room ∈ s.rooms) (hnew : room ∉ done) :
    LeftRooms s id (done ++ [room]) (removeClientFromRoom t id room) := by
  obtain ⟨members, hmembers⟩ := Finmap.mem_iff.mp hroom
  have hothers : s.othersIn id room = members.erase id := by
    rw [AppState.othersIn, hmembers, Option.getD_some]
  have hread : t.rooms.lookup room = some members := by
    rw [h.rooms, if_neg hnew, hmembers]
  have hindex' : t.clientRooms.lookup id = none := by
    rw [h.frame]
    exact hindex
  have hsenders : t.wsSenders = s.wsSenders := by
    rw [h.frame]
  refine ⟨fun key => ?_, fun key => ?_, fun c => ?_, ?_⟩
  · rw [lookup_rooms_removeClientFromRoom, hread, Option.bind_some]
    by_cases hkey : key = room
    · subst hkey
      rw [if_pos rfl, if_pos (List.mem_append_right _ (List.mem_singleton_self _)), hothers]
    · rw [if_neg hkey, h.rooms]
      simp only [List.mem_append, List.mem_singleton, hkey, or_false]
  · rw [lookup_presence_removeClientFromRoom, hread]
    dsimp only
    by_cases hkey : key = room
    · subst hkey
      rw [if_pos rfl, if_pos (List.mem_append_right _ (List.mem_singleton_self _)), hothers,
        h.presence, if_neg hnew]
    · rw [if_neg hkey, h.presence]
      simp only [List.mem_append, List.mem_singleton, hkey, or_false]
  · rw [chans_removeClientFromRoom hread, h.chans, hsenders, ← hothers]
    by_cases hopen : (s.chans c).closed = false
    · have hlast : [room].filter (Hears s id c) = if Hears s id c room then [room] else [] := by
        simp [List.filter_cons]
      rw [if_pos hopen, if_pos hopen, List.filter_append, hlast, List.map_append,
        ← List.append_assoc]
      by_cases hhears : Hears s id c room
      · rw [if_pos ⟨hhears, hopen⟩, if_pos hhears]
        rfl
      · rw [if_neg fun h => hhears h.1, if_neg hhears, List.map_nil, List.append_nil]
    · rw [if_neg hopen, if_neg hopen, if_neg fun h => hopen h.2]
  · rw [removeClientFromRoom_frame hindex' room]
    dsimp only
    rw [h.frame]

end LeftRooms

/-- The whole loop. -/
lemma leftRooms_foldl {s : AppState} {id : String} (hindex : s.clientRooms.lookup id = none)
    (rooms : List String) (hnodup : rooms.Nodup) (hrooms : ∀ room ∈ rooms, room ∈ s.rooms) :
    LeftRooms s id rooms (rooms.foldl (fun s room => removeClientFromRoom s id room) s) := by
  induction rooms using List.reverseRecOn with
  | nil => exact LeftRooms.nil s id
  | append_singleton rooms room ih =>
    have hdisjoint := List.nodup_append.mp hnodup
    have hnew : room ∉ rooms := fun hmem =>
      hdisjoint.2.2 room hmem room (List.mem_singleton_self _) rfl
    have hbefore := ih hdisjoint.1 fun r hr => hrooms r (List.mem_append_left _ hr)
    rw [List.foldl_append, List.foldl_cons, List.foldl_nil]
    exact hbefore.step hindex (hrooms room (List.mem_append_right _ (List.mem_singleton_self _)))
      hnew

/-- The removal is the loop over a list of the client's rooms, and then its buffer
goes. -/
lemma immediateRemoveFromAllRooms_eq (env : Env) {s : AppState} {id : String}
    (hrooms : ∀ room, s.ledger.index id room → room ∈ s.rooms) :
    ∃ rooms t, rooms.Nodup ∧ (∀ room, room ∈ rooms ↔ s.ledger.index id room) ∧
      LeftRooms { s with clientRooms := s.clientRooms.erase id } id rooms t ∧
      immediateRemoveFromAllRooms env s id =
        { t with replayBuffer := t.replayBuffer.removeClient id } := by
  have hgone : (s.clientRooms.erase id).lookup id = none := Finmap.lookup_erase id s.clientRooms
  rw [immediateRemoveFromAllRooms]
  cases hlookup : s.clientRooms.lookup id with
  | none =>
    have hsame : { s with clientRooms := s.clientRooms.erase id } = s := by
      rw [FinMap.erase_eq_self hlookup]
    refine ⟨[], s, List.nodup_nil, fun room => ?_, ?_, rfl⟩
    · exact iff_of_false List.not_mem_nil (not_index_of_none hlookup room)
    · rw [hsame]
      exact LeftRooms.nil s id
  | some rooms =>
    have hmem : ∀ room, room ∈ env.order.toList rooms ↔ s.ledger.index id room := fun room =>
      (index_iff_mem_toList env hlookup room).symm
    exact ⟨env.order.toList rooms, _, env.order.nodup_toList rooms, hmem,
      leftRooms_foldl hgone _ (env.order.nodup_toList rooms)
        fun room hroom => hrooms room ((hmem room).mp hroom), rfl⟩

/-! ### What is left behind -/

/-- What the removal of a client from all its rooms should do. -/
structure LeftAll (s : AppState) (id : String) (t : AppState) : Prop where
  gone : ∀ room, ¬t.ledger.member id room ∧ ¬t.ledger.index id room
  absent : ∀ room payload, ¬t.Present room id payload
  emptied : ∀ room, s.rooms.lookup room = some {id} → room ∉ t.rooms ∧ room ∉ t.presence
  /-- Every other client keeps its memberships and its presence data. -/
  members : ∀ d ≠ id, ∀ room, (t.ledger.member d room ↔ s.ledger.member d room) ∧
    (t.ledger.index d room ↔ s.ledger.index d room)
  presence : ∀ d ≠ id, ∀ room payload, t.Present room d payload ↔ s.Present room d payload
  /-- Another client gets one notice for each room it shared with this one. -/
  notices : ∀ d ≠ id, ∀ c, s.wsSenders.lookup d = some c → (s.chans c).closed = false →
    ∃ shared : List String, shared.Nodup ∧
      (∀ room, room ∈ shared ↔ s.ledger.member id room ∧ s.ledger.member d room) ∧
      (t.chans c).queue = (s.chans c).queue ++ shared.map (leaveNotice s id)
  /-- A channel of nobody who shared a room with this client stays as it is. -/
  silent : ∀ c, (∀ d ≠ id, ∀ room, s.ledger.member id room → s.ledger.member d room →
    s.wsSenders.lookup d ≠ some c) → t.chans c = s.chans c
  rest : t = { s with
    rooms := t.rooms
    clientRooms := s.clientRooms.erase id
    presence := t.presence
    chans := t.chans
    replayBuffer := s.replayBuffer.removeClient id }

/-- The two states differ at most in the order of the frames in the channels. -/
structure SameUpToOrder (s t : AppState) : Prop where
  rest : t = { s with chans := t.chans }
  closed : ∀ c, (t.chans c).closed = (s.chans c).closed
  queue : ∀ c, (t.chans c).queue.Perm (s.chans c).queue

lemma mem_othersIn {s : AppState} {id d room : String} :
    d ∈ s.othersIn id room ↔ d ≠ id ∧ s.ledger.member d room := by
  rw [AppState.othersIn, Finset.mem_erase, mem_getD_empty]
  exact Iff.rfl

section Rooms

variable {s t t' : AppState} {id : String} {done done' : List String}

/-- A presence entry after the loop is one of another client. -/
lemma LeftRooms.present_iff (h : LeftRooms s id done t)
    (hdone : ∀ room, room ∈ done ↔ s.ledger.member id room)
    (hpresence : ∀ room d payload, s.Present room d payload → s.ledger.member d room)
    (room d payload : String) :
    t.Present room d payload ↔ d ≠ id ∧ s.Present room d payload := by
  by_cases hroom : room ∈ done
  · by_cases hempty : s.othersIn id room = ∅
    · refine iff_of_false ?_ ?_
      · rintro ⟨entries, hlookup, -⟩
        rw [h.presence, if_pos hroom, if_pos hempty] at hlookup
        cases hlookup
      · rintro ⟨hne, hpresent⟩
        have hother : d ∈ s.othersIn id room :=
          mem_othersIn.mpr ⟨hne, hpresence room d payload hpresent⟩
        rw [hempty] at hother
        exact absurd hother (Finset.notMem_empty d)
    · have hlookup : t.presence.lookup room =
          (s.presence.lookup room).map fun entries => entries.erase id := by
        rw [h.presence, if_pos hroom, if_neg hempty]
      have herase : ∀ entries : DashMap String, (entries.erase id).lookup d = some payload ↔
          d ≠ id ∧ entries.lookup d = some payload := by
        intro entries
        rw [FinMap.lookup_erase_ite]
        by_cases hd : d = id <;> simp [hd]
      constructor
      · rintro ⟨entries, hentries, hd⟩
        rw [hlookup] at hentries
        obtain ⟨before, hbefore, rfl⟩ := Option.map_eq_some_iff.mp hentries
        obtain ⟨hne, hd⟩ := (herase before).mp hd
        exact ⟨hne, before, hbefore, hd⟩
      · rintro ⟨hne, before, hbefore, hd⟩
        refine ⟨before.erase id, ?_, (herase before).mpr ⟨hne, hd⟩⟩
        rw [hlookup, hbefore]
        rfl
  · have hlookup : t.presence.lookup room = s.presence.lookup room := by
      rw [h.presence, if_neg hroom]
    have hsame : t.Present room d payload ↔ s.Present room d payload := by
      rw [AppState.Present, AppState.Present, hlookup]
    rw [hsame]
    refine (and_iff_right_of_imp ?_).symm
    rintro hpresent rfl
    exact hroom ((hdone room).mpr (hpresence room d payload hpresent))

/-- The notices on the channel of another client. -/
lemma LeftRooms.queue_of_sender (h : LeftRooms s id done t)
    (hdone : ∀ room, room ∈ done ↔ s.ledger.member id room) (hapart : SendersApart s)
    {d : String} {c : ℕ} (hne : d ≠ id) (hd : s.wsSenders.lookup d = some c)
    (hopen : (s.chans c).closed = false) (hnodup : done.Nodup) :
    ∃ shared : List String, shared.Nodup ∧
      (∀ room, room ∈ shared ↔ s.ledger.member id room ∧ s.ledger.member d room) ∧
      (t.chans c).queue = (s.chans c).queue ++ shared.map (leaveNotice s id) := by
  refine ⟨done.filter (Hears s id c), hnodup.filter _, fun room => ?_, ?_⟩
  · have hhears : Hears s id c room ↔ s.ledger.member d room := by
      constructor
      · rintro ⟨d', hother, hd'⟩
        rw [hapart d d' c hd hd']
        exact (mem_othersIn.mp hother).2
      · intro hmember
        exact ⟨d, mem_othersIn.mpr ⟨hne, hmember⟩, hd⟩
    rw [List.mem_filter, decide_eq_true_eq, hdone, hhears]
  · rw [h.chans, if_pos hopen]

lemma LeftRooms.chans_of_silent (h : LeftRooms s id done t)
    (hdone : ∀ room, room ∈ done ↔ s.ledger.member id room) {c : ℕ}
    (hsilent : ∀ d ≠ id, ∀ room, s.ledger.member id room → s.ledger.member d room →
      s.wsSenders.lookup d ≠ some c) : t.chans c = s.chans c := by
  have hnone : done.filter (Hears s id c) = [] := by
    refine List.filter_eq_nil_iff.mpr fun room hroom hhears => ?_
    obtain ⟨d, hother, hd⟩ := of_decide_eq_true hhears
    obtain ⟨hne, hmember⟩ := mem_othersIn.mp hother
    exact hsilent d hne room ((hdone room).mp hroom) hmember hd
  rw [h.chans, hnone, List.map_nil, List.append_nil]
  exact ite_self _

/-- The order of the rooms is seen in the order of the notices only. -/
lemma LeftRooms.sameUpToOrder (h : LeftRooms s id done t) (h' : LeftRooms s id done' t')
    (hperm : done'.Perm done) : SameUpToOrder t t' := by
  have hmem : ∀ room, room ∈ done' ↔ room ∈ done := fun room => hperm.mem_iff
  have hrooms : t'.rooms = t.rooms := by
    refine Finmap.ext_lookup fun room => ?_
    rw [h.rooms, h'.rooms]
    simp only [hmem]
  have hpresence : t'.presence = t.presence := by
    refine Finmap.ext_lookup fun room => ?_
    rw [h.presence, h'.presence]
    simp only [hmem]
  refine ⟨?_, fun c => ?_, fun c => ?_⟩
  · rw [h'.frame, h.frame]
    dsimp only
    rw [hrooms, hpresence]
  · rw [h.chans, h'.chans]
    split_ifs <;> rfl
  · rw [h.chans, h'.chans]
    split_ifs
    · exact ((hperm.filter _).map _).append_left _
    · exact List.Perm.refl _

end Rooms

/-! ### The removal -/

/-- When the reverse index agrees with the member sets and only members have
presence data, the removal takes the client out of all its rooms, tells each other
member once for each room, and leaves the same state for all orders of the loop. -/
theorem leaving_all_exact (s : AppState) (id : String)
    (hagree : ∀ d room, s.ledger.member d room ↔ s.ledger.index d room)
    (hpresence : ∀ room d payload, s.Present room d payload → s.ledger.member d room)
    (hapart : SendersApart s) (env : Env) :
    LeftAll s id (immediateRemoveFromAllRooms env s id) ∧
      ∀ env', SameUpToOrder (immediateRemoveFromAllRooms env s id)
        (immediateRemoveFromAllRooms env' s id) := by
  have hrooms : ∀ room, s.ledger.index id room → room ∈ s.rooms := by
    intro room hindex
    obtain ⟨members, hlookup, -⟩ := (hagree id room).mpr hindex
    exact Finmap.mem_of_lookup_eq_some hlookup
  have hledger := ledger_immediateRemoveFromAllRooms env
    (fun d room => (hagree d room).mpr) id
  obtain ⟨done, t, hnodup, hmem, hleft, heq⟩ := immediateRemoveFromAllRooms_eq env hrooms
  have hdone : ∀ room, room ∈ done ↔ s.ledger.member id room := fun room =>
    (hmem room).trans (hagree id room).symm
  have hpresent := hleft.present_iff hdone hpresence
  refine ⟨⟨fun room => ?_, fun room payload => ?_, fun room honly => ?_, fun d hne room => ?_,
    fun d hne room payload => ?_, fun d hne c hd hopen => ?_, fun c hsilent => ?_, ?_⟩,
    fun env' => ?_⟩
  · rw [hledger]
    exact ⟨fun h => h.2 ⟨rfl, (hagree id room).mp h.1⟩, fun h => h.2 rfl⟩
  · rw [heq]
    exact fun h => ((hpresent room id payload).mp h).1 rfl
  · have hroom : room ∈ done := (hdone room).mpr ⟨{id}, honly, Finset.mem_singleton_self id⟩
    have hempty : s.othersIn id room = ∅ := by
      rw [AppState.othersIn, honly, Option.getD_some, Finset.erase_singleton]
    rw [heq]
    constructor
    · refine Finmap.lookup_eq_none.mp ?_
      rw [hleft.rooms, if_pos hroom]
      exact if_pos hempty
    · refine Finmap.lookup_eq_none.mp ?_
      rw [hleft.presence, if_pos hroom]
      exact if_pos hempty
  · rw [hledger]
    exact ⟨and_iff_left fun h => hne h.1, and_iff_left hne⟩
  · rw [heq]
    exact (hpresent room d payload).trans (and_iff_right hne)
  · rw [heq]
    exact hleft.queue_of_sender hdone hapart hne hd hopen hnodup
  · rw [heq]
    exact hleft.chans_of_silent hdone hsilent
  · rw [heq, hleft.frame]
  · obtain ⟨done', t', hnodup', hmem', hleft', heq'⟩ := immediateRemoveFromAllRooms_eq env' hrooms
    have hperm : done'.Perm done := (List.perm_ext_iff_of_nodup hnodup' hnodup).mpr fun room =>
      (hmem' room).trans (hmem room).symm
    have hsame := hleft.sameUpToOrder hleft' hperm
    rw [heq, heq']
    refine ⟨?_, hsame.closed, hsame.queue⟩
    rw [hsame.rest]

/-- `alice` and `bob` are in `lobby`, and `alice` is in `solo`. -/
def aliceAndBob : AppState :=
  { AppState.new {} Redis.empty with
    wsSenders := (Finmap.insert "bob" 1 ∅).insert "alice" 0
    rooms := (Finmap.insert "solo" {"alice"} ∅).insert "lobby" {"alice", "bob"}
    clientRooms := (Finmap.insert "bob" {"lobby"} ∅).insert "alice" {"lobby", "solo"} }

lemma agree_aliceAndBob (d room : String) :
    aliceAndBob.ledger.member d room ↔ aliceAndBob.ledger.index d room := by
  simp only [AppState.ledger, aliceAndBob, FinMap.lookup_insert_ite, Finmap.lookup_empty]
  by_cases hlobby : room = "lobby"
  · by_cases halice : d = "alice" <;> by_cases hbob : d = "bob" <;> simp_all
  · by_cases hsolo : room = "solo" <;> by_cases halice : d = "alice" <;>
      by_cases hbob : d = "bob" <;> simp_all

theorem leaving_all_alice :
    LeftAll aliceAndBob "alice" (immediateRemoveFromAllRooms (Env.quiet 0) aliceAndBob "alice") ∧
      ((immediateRemoveFromAllRooms (Env.quiet 0) aliceAndBob "alice").chans 1).queue =
        [.roomPeers "lobby" {"bob"}] := by
  refine ⟨(leaving_all_exact aliceAndBob "alice" agree_aliceAndBob ?_ ?_ (Env.quiet 0)).1, ?_⟩
  · rintro room d payload ⟨entries, hentries, -⟩
    cases hentries
  · intro m m' c hm hm'
    simp only [aliceAndBob, FinMap.lookup_insert_ite, Finmap.lookup_empty] at hm hm'
    split_ifs at hm hm' <;> simp_all <;> omega
  · decide +kernel

end Dendri
