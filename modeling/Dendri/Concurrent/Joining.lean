import Dendri.Concurrent.Mailbox
import Dendri.System

/-!
A client joins a room while another one is removed from it. Both go through the
maps one access after the other: `remove_client_from_room` finds the member set
empty in one access and deletes the room in a later one, and `handle_room_join`
inserts its client into the set in between.

* `joinStep`, `removeStep`: `handle_room_join` and `remove_client_from_room`, one
  step for each access to a shared map or channel;
* `alone_join`, `alone_remove`: without interruption these steps are
  `handleRoomJoin` and `removeClientFromRoom`;
* `Interrupts`: the insertion of the joining client comes after the room was
  found empty and before it is deleted;
* `join_kept_iff`: when both have finished, the client is a member of the room
  and the room is in its reverse index, just when this did not happen.
-/

namespace Dendri

open AppState Transition Interleave

/-! ### The steps of a join -/

/-- How far a join has come. The key is that of the room. -/
inductive JoinPhase where
  | start
  /-- The name is valid and the claims allow the room. -/
  | permitted
  | keyed (key : String)
  /-- The room is not in the reverse index of the client. -/
  | newcomer (key : String)
  /-- The client has fewer rooms than the limit. -/
  | within (key : String)
  /-- The room does not exist. -/
  | newRoom (key : String)
  /-- Only the size of the room is left to check. -/
  | counted (key : String)
  | checked (key : String)
  | entered (key : String)
  | indexed (key : String)
  | listed (key : String) (members : Finset String)
  | answered (key : String)
  /-- The presence data that is still to send. -/
  | presenting (key : String) (rest : List Frame)
  | joined
  | refusing (denial : JoinDenial)
  | denied
  deriving DecidableEq

/-- The presence frames of a room, as `joinFrames` has them. -/
def presenceFrames (env : Env) (s : AppState) (roomStored roomName : String) : List Frame :=
  let presence := (s.presence.lookup roomStored).getD ∅
  (env.order.toList presence.keys).map fun peer =>
    .presence peer roomName ((presence.lookup peer).getD "")

/-- One access of `handle_room_join` to a shared map or channel. -/
def joinStep (env : Env) (cfg : Config) (clientId roomName : String) (s : AppState) :
    JoinPhase → Option (AppState × JoinPhase)
  | .start =>
      if !isValidIdentifier roomName then some (s, .refusing .invalidName)
      else if claimsRefuse s clientId roomName then some (s, .refusing .authDenied)
      else some (s, .permitted)
  | .permitted => some (s, .keyed (roomKey s clientId roomName))
  | .keyed key =>
      if key ∈ (s.clientRooms.lookup clientId).getD ∅ then some (s, .counted key)
      else some (s, .newcomer key)
  | .newcomer key =>
      if 0 < cfg.maxRoomsPerClient ∧
          cfg.maxRoomsPerClient ≤ ((s.clientRooms.lookup clientId).getD ∅).card then
        some (s, .refusing .clientRoomLimit)
      else some (s, .within key)
  | .within key =>
      if 0 < cfg.maxTotalRooms ∧ key ∉ s.rooms then some (s, .newRoom key)
      else some (s, .counted key)
  | .newRoom key =>
      if cfg.maxTotalRooms ≤ s.rooms.keys.card then some (s, .refusing .serverRoomLimit)
      else some (s, .counted key)
  | .counted key =>
      if 0 < cfg.maxRoomSize ∧ cfg.maxRoomSize ≤ ((s.rooms.lookup key).getD ∅).card then
        some (s, .refusing .roomFull)
      else some (s, .checked key)
  | .checked key =>
      some ({ s with
        rooms := s.rooms.insert key (insert clientId ((s.rooms.lookup key).getD ∅)) },
        .entered key)
  | .entered key =>
      some ({ s with
        clientRooms :=
          s.clientRooms.insert clientId (insert key ((s.clientRooms.lookup clientId).getD ∅)) },
        .indexed key)
  | .indexed key => some (s, .listed key ((s.rooms.lookup key).getD ∅))
  | .listed key members =>
      some (s.sendTo clientId [.roomPeers roomName members], .answered key)
  | .answered key => some (s, .presenting key (presenceFrames env s key roomName))
  | .presenting key (frame :: rest) => some (s.sendTo clientId [frame], .presenting key rest)
  | .presenting _ [] => some (s, .joined)
  | .refusing denial => some (s.sendTo clientId [denial.frame roomName], .denied)
  | .joined | .denied => none

/-! ### The steps of a removal -/

/-- How far a removal has come; `empty` says whether it found the room empty. -/
inductive RemovePhase where
  | start
  | removed (empty : Bool)
  | cleaned (empty : Bool)
  | deleted
  /-- Only the reverse index is left. -/
  | unlisting
  | ended
  deriving DecidableEq

/-- One access of `remove_client_from_room` to a shared map. -/
def removeStep (clientId storedKey : String) (s : AppState) :
    RemovePhase → Option (AppState × RemovePhase)
  | .start =>
      match s.rooms.lookup storedKey with
      | none => some (s, .ended)
      | some members =>
          some ({ s with rooms := s.rooms.insert storedKey (members.erase clientId) },
            .removed (decide (members.erase clientId = ∅)))
  | .removed empty =>
      some ({ s with presence := FinMap.modify s.presence storedKey fun p => p.erase clientId },
        .cleaned empty)
  | .cleaned true => some ({ s with rooms := s.rooms.erase storedKey }, .deleted)
  | .cleaned false =>
      match s.rooms.lookup storedKey with
      | none => some (s, .unlisting)
      | some members =>
          some (s.fanOut members (.roomPeers (roomDisplay storedKey) members), .unlisting)
  | .deleted => some ({ s with presence := s.presence.erase storedKey }, .unlisting)
  | .unlisting =>
      some ({ s with
        clientRooms := FinMap.modify s.clientRooms clientId fun rooms => rooms.erase storedKey },
        .ended)
  | .ended => none

/-! ### Without interruption -/

/-- A removal that is not interrupted is `removeClientFromRoom`. -/
theorem alone_remove (s : AppState) (clientId storedKey : String) :
    Alone (removeStep clientId storedKey) (s, .start)
      (removeClientFromRoom s clientId storedKey, .ended) := by
  rw [removeClientFromRoom]
  cases hm : s.rooms.lookup storedKey with
  | none =>
      have hstart : removeStep clientId storedKey s .start = some (s, .ended) := by
        simp only [removeStep, hm]
      exact .head hstart (.refl _)
  | some members =>
      have hstart : removeStep clientId storedKey s .start = some
          ({ s with rooms := s.rooms.insert storedKey (members.erase clientId) },
            .removed (decide (members.erase clientId = ∅))) := by
        simp only [removeStep, hm]
      dsimp only
      by_cases hempty : members.erase clientId = ∅
      · have herase : (s.rooms.insert storedKey (members.erase clientId)).erase storedKey =
            s.rooms.erase storedKey := FinMap.erase_insert s.rooms storedKey _
        rw [decide_eq_true hempty] at hstart
        rw [if_pos hempty, ← herase]
        exact .head hstart (.head rfl (.head rfl (.head rfl (.head rfl (.refl _)))))
      · have hlookup : (s.rooms.insert storedKey (members.erase clientId)).lookup storedKey =
            some (members.erase clientId) := Finmap.lookup_insert _
        have hnotify : removeStep clientId storedKey
            { s with
              rooms := s.rooms.insert storedKey (members.erase clientId)
              presence := FinMap.modify s.presence storedKey fun p => p.erase clientId }
            (.cleaned false) = some (fanOut
              { s with
                rooms := s.rooms.insert storedKey (members.erase clientId)
                presence := FinMap.modify s.presence storedKey fun p => p.erase clientId }
              (members.erase clientId)
              (.roomPeers (roomDisplay storedKey) (members.erase clientId)), .unlisting) := by
          simp only [removeStep, hlookup]
        rw [decide_eq_false hempty] at hstart
        rw [if_neg hempty]
        exact .head hstart (.head rfl (.head hnotify (.head rfl (.refl _))))

lemma sendTo_sendTo (s : AppState) (id : String) (xs ys : List Frame) :
    (s.sendTo id xs).sendTo id ys = s.sendTo id (xs ++ ys) := by
  cases hc : s.wsSenders.lookup id with
  | none => simp only [sendTo, hc]
  | some c =>
      have hchans := congrArg AppState.chans (send_send s c xs ys)
      simp only [sendTo, hc, ← hchans]
      rfl

/-- The checks of a join, in the order of the source. -/
lemma alone_checks (env : Env) (cfg : Config) (s : AppState) (clientId roomName : String) :
    Alone (joinStep env cfg clientId roomName) (s, .start)
      (s, match joinDenial cfg s clientId roomName with
        | some denial => .refusing denial
        | none => .checked (roomKey s clientId roomName)) := by
  let key := roomKey s clientId roomName
  have hsize : Alone (joinStep env cfg clientId roomName) (s, .counted key)
      (s, if 0 < cfg.maxRoomSize ∧ cfg.maxRoomSize ≤ ((s.rooms.lookup key).getD ∅).card then
        .refusing .roomFull else .checked key) := by
    by_cases hfull : 0 < cfg.maxRoomSize ∧ cfg.maxRoomSize ≤ ((s.rooms.lookup key).getD ∅).card
    · rw [if_pos hfull]
      exact .head (by rw [joinStep, if_pos hfull]) (.refl _)
    · rw [if_neg hfull]
      exact .head (by rw [joinStep, if_neg hfull]) (.refl _)
  rw [joinDenial]
  by_cases hname : (!isValidIdentifier roomName) = true
  · rw [if_pos hname]
    exact .head (by rw [joinStep, if_pos hname]) (.refl _)
  rw [if_neg hname]
  by_cases hclaims : claimsRefuse s clientId roomName = true
  · rw [if_pos hclaims]
    exact .head (by rw [joinStep, if_neg hname, if_pos hclaims]) (.refl _)
  rw [if_neg hclaims]
  refine .head (by rw [joinStep, if_neg hname, if_neg hclaims]) (.head rfl ?_)
  by_cases hmember : key ∈ (s.clientRooms.lookup clientId).getD ∅
  · have hskip : ∀ q : Prop, ¬(key ∉ (s.clientRooms.lookup clientId).getD ∅ ∧ q) :=
      fun q h => h.1 hmember
    rw [if_neg (hskip _), if_neg (hskip _)]
    refine .head (by rw [joinStep, if_pos hmember]) ?_
    split_ifs at hsize ⊢ <;> exact hsize
  refine .head (by rw [joinStep, if_neg hmember]) ?_
  by_cases hclient : 0 < cfg.maxRoomsPerClient ∧
      cfg.maxRoomsPerClient ≤ ((s.clientRooms.lookup clientId).getD ∅).card
  · rw [if_pos ⟨hmember, hclient⟩]
    exact .head (by rw [joinStep, if_pos hclient]) (.refl _)
  rw [if_neg fun h => hclient h.2]
  refine .head (by rw [joinStep, if_neg hclient]) ?_
  by_cases hnew : 0 < cfg.maxTotalRooms ∧ key ∉ s.rooms
  · refine .head (by rw [joinStep, if_pos hnew]) ?_
    by_cases htotal : cfg.maxTotalRooms ≤ s.rooms.keys.card
    · rw [if_pos ⟨hmember, hnew.1, hnew.2, htotal⟩]
      exact .head (by rw [joinStep, if_pos htotal]) (.refl _)
    · rw [if_neg fun h => htotal h.2.2.2]
      refine .head (by rw [joinStep, if_neg htotal]) ?_
      split_ifs at hsize ⊢ <;> exact hsize
  · rw [if_neg fun h => hnew ⟨h.2.1, h.2.2.1⟩]
    refine .head (by rw [joinStep, if_neg hnew]) ?_
    split_ifs at hsize ⊢ <;> exact hsize

/-- The presence data, frame by frame. -/
lemma alone_presenting (env : Env) (cfg : Config) (clientId roomName key : String)
    (rest : List Frame) (s : AppState) (sent : List Frame) :
    Alone (joinStep env cfg clientId roomName) (s.sendTo clientId sent, .presenting key rest)
      (s.sendTo clientId (sent ++ rest), .joined) := by
  induction rest generalizing sent with
  | nil =>
      rw [List.append_nil]
      exact .head rfl (.refl _)
  | cons frame rest ih =>
      have hsend : joinStep env cfg clientId roomName (s.sendTo clientId sent)
          (.presenting key (frame :: rest)) =
          some (s.sendTo clientId (sent ++ [frame]), .presenting key rest) := by
        rw [joinStep, sendTo_sendTo]
      have hrest := ih (sent ++ [frame])
      rw [List.append_assoc, List.singleton_append] at hrest
      exact .head hsend hrest

/-- A join that is not interrupted is `handleRoomJoin`. -/
theorem alone_join (env : Env) (cfg : Config) (s : AppState) (clientId roomName : String)
    (msg : Message) (hroom : msg.room = some roomName) :
    ∃ p, (p = .joined ∨ p = .denied) ∧
      Alone (joinStep env cfg clientId roomName) (s, .start)
        (handleRoomJoin env cfg s clientId msg, p) := by
  have hchecks := alone_checks env cfg s clientId roomName
  rw [handleRoomJoin, hroom]
  dsimp only
  cases hdenial : joinDenial cfg s clientId roomName with
  | some denial =>
      rw [hdenial] at hchecks
      exact ⟨.denied, Or.inr rfl, hchecks.trans (.head rfl (.refl _))⟩
  | none =>
      rw [hdenial] at hchecks
      refine ⟨.joined, Or.inl rfl, hchecks.trans ?_⟩
      let key := roomKey s clientId roomName
      have hpresent := alone_presenting env cfg clientId roomName key
        (presenceFrames env (joinRoom s clientId key) key roomName) (joinRoom s clientId key)
        [.roomPeers roomName (((joinRoom s clientId key).rooms.lookup key).getD ∅)]
      exact .head rfl (.head rfl (.head rfl (.head rfl (.head rfl hpresent))))

/-! ### What the steps do to memberships -/

/-- The key of the room, once the join has computed it. -/
def JoinPhase.key? : JoinPhase → Option String
  | .keyed key | .newcomer key | .within key | .newRoom key | .counted key | .checked key
  | .entered key | .indexed key | .listed key _ | .answered key | .presenting key _ => some key
  | _ => none

/-- The client has been put into the member set. -/
def JoinPhase.Entered : JoinPhase → Prop
  | .entered _ | .indexed _ | .listed _ _ | .answered _ | .presenting _ _ | .joined => True
  | _ => False

/-- The room has been put into the reverse index. -/
def JoinPhase.Indexed : JoinPhase → Prop
  | .indexed _ | .listed _ _ | .answered _ | .presenting _ _ | .joined => True
  | _ => False

/-- What a step of a join does to the member sets and the reverse index. -/
inductive JoinEffect (clientId roomName : String) (s : AppState) :
    JoinPhase → AppState → JoinPhase → Prop
  | enters (key : String) (s' : AppState)
      (hrooms : s'.rooms = s.rooms.insert key (insert clientId ((s.rooms.lookup key).getD ∅)))
      (hindex : s'.clientRooms = s.clientRooms) :
      JoinEffect clientId roomName s (.checked key) s' (.entered key)
  | indexes (key : String) (s' : AppState) (hrooms : s'.rooms = s.rooms)
      (hindex : s'.clientRooms =
        s.clientRooms.insert clientId (insert key ((s.clientRooms.lookup clientId).getD ∅))) :
      JoinEffect clientId roomName s (.entered key) s' (.indexed key)
  | passes (p p' : JoinPhase) (s' : AppState) (hrooms : s'.rooms = s.rooms)
      (hindex : s'.clientRooms = s.clientRooms) (hchecked : ∀ key, p ≠ .checked key)
      (hentered : p'.Entered ↔ p.Entered) (hindexed : p'.Indexed ↔ p.Indexed)
      (hkey : ∀ key, p'.key? = some key → p.key? = some key ∨ key = roomKey s clientId roomName) :
      JoinEffect clientId roomName s p s' p'

lemma joinEffect_of_step {env : Env} {cfg : Config} {clientId roomName : String} {s s' : AppState}
    {p p' : JoinPhase} (h : joinStep env cfg clientId roomName s p = some (s', p')) :
    JoinEffect clientId roomName s p s' p' ∧ s'.clientTenants = s.clientTenants := by
  have hkeep : ∀ key, p.key? = some key → p'.key? = some key ∨ p'.key? = none →
      ∀ k, p'.key? = some k → p.key? = some k ∨ k = roomKey s clientId roomName := by
    intro key hp hp' k hk
    rcases hp' with hp' | hp'
    · exact Or.inl (by rw [hp, ← hp', hk])
    · exact absurd (hp'.symm.trans hk) (by simp)
  cases p with
  | start =>
      rw [joinStep] at h
      split_ifs at h <;> obtain ⟨rfl, rfl⟩ := Prod.mk.inj (Option.some.inj h) <;>
        exact ⟨.passes _ _ _ rfl rfl (by simp) (by simp [JoinPhase.Entered])
          (by simp [JoinPhase.Indexed]) (by simp [JoinPhase.key?]), rfl⟩
  | permitted =>
      obtain ⟨rfl, rfl⟩ := Prod.mk.inj (Option.some.inj h)
      exact ⟨.passes _ _ _ rfl rfl (by simp) Iff.rfl Iff.rfl fun k hk =>
        Or.inr (Option.some.inj hk).symm, rfl⟩
  | keyed key | newcomer key | within key | newRoom key | counted key =>
      rw [joinStep] at h
      split_ifs at h <;> obtain ⟨rfl, rfl⟩ := Prod.mk.inj (Option.some.inj h) <;>
        exact ⟨.passes _ _ _ rfl rfl (by simp) (by simp [JoinPhase.Entered])
          (by simp [JoinPhase.Indexed]) (hkeep key rfl (by simp [JoinPhase.key?])), rfl⟩
  | checked key =>
      obtain ⟨rfl, rfl⟩ := Prod.mk.inj (Option.some.inj h)
      exact ⟨.enters key _ rfl rfl, rfl⟩
  | entered key =>
      obtain ⟨rfl, rfl⟩ := Prod.mk.inj (Option.some.inj h)
      exact ⟨.indexes key _ rfl rfl, rfl⟩
  | indexed key | listed key members | answered key =>
      obtain ⟨rfl, rfl⟩ := Prod.mk.inj (Option.some.inj h)
      exact ⟨.passes _ _ _ rfl rfl (by simp) Iff.rfl Iff.rfl (hkeep key rfl (Or.inl rfl)), rfl⟩
  | presenting key rest =>
      cases rest with
      | nil =>
          obtain ⟨rfl, rfl⟩ := Prod.mk.inj (Option.some.inj h)
          exact ⟨.passes _ _ _ rfl rfl (by simp) Iff.rfl Iff.rfl (hkeep key rfl (Or.inr rfl)), rfl⟩
      | cons frame rest =>
          obtain ⟨rfl, rfl⟩ := Prod.mk.inj (Option.some.inj h)
          exact ⟨.passes _ _ _ rfl rfl (by simp) Iff.rfl Iff.rfl (hkeep key rfl (Or.inl rfl)), rfl⟩
  | refusing denial =>
      obtain ⟨rfl, rfl⟩ := Prod.mk.inj (Option.some.inj h)
      exact ⟨.passes _ _ _ rfl rfl (by simp) Iff.rfl Iff.rfl (by simp [JoinPhase.key?]), rfl⟩
  | joined | denied => exact absurd h (by simp [joinStep])

/-- The removal has found the room empty, and has not deleted it. -/
def RemovePhase.Emptied : RemovePhase → Prop
  | .removed true | .cleaned true => True
  | _ => False

/-- What a step of a removal does to the member sets and the reverse index. -/
inductive RemoveEffect (clientId key : String) (s : AppState) :
    RemovePhase → AppState → RemovePhase → Prop
  | missing : RemoveEffect clientId key s .start s .ended
  | takes (members : Finset String) (s' : AppState) (hmembers : s.rooms.lookup key = some members)
      (hrooms : s'.rooms = s.rooms.insert key (members.erase clientId))
      (hindex : s'.clientRooms = s.clientRooms) :
      RemoveEffect clientId key s .start s' (.removed (decide (members.erase clientId = ∅)))
  | deletes (s' : AppState) (hrooms : s'.rooms = s.rooms.erase key)
      (hindex : s'.clientRooms = s.clientRooms) :
      RemoveEffect clientId key s (.cleaned true) s' .deleted
  | passes (p p' : RemovePhase) (s' : AppState) (hrooms : s'.rooms = s.rooms)
      (hindex : ∀ d, d ≠ clientId → s'.clientRooms.lookup d = s.clientRooms.lookup d)
      (hemptied : p'.Emptied ↔ p.Emptied) (hstart : p ≠ .start ∧ p' ≠ .start) :
      RemoveEffect clientId key s p s' p'

lemma removeEffect_of_step {clientId key : String} {s s' : AppState} {p p' : RemovePhase}
    (h : removeStep clientId key s p = some (s', p')) :
    RemoveEffect clientId key s p s' p' ∧ s'.clientTenants = s.clientTenants := by
  cases p with
  | start =>
      rw [removeStep] at h
      cases hm : s.rooms.lookup key with
      | none =>
          rw [hm] at h
          obtain ⟨rfl, rfl⟩ := Prod.mk.inj (Option.some.inj h)
          exact ⟨.missing, rfl⟩
      | some members =>
          rw [hm] at h
          obtain ⟨rfl, rfl⟩ := Prod.mk.inj (Option.some.inj h)
          exact ⟨.takes members _ hm rfl rfl, rfl⟩
  | removed empty =>
      obtain ⟨rfl, rfl⟩ := Prod.mk.inj (Option.some.inj h)
      refine ⟨.passes _ _ _ rfl (fun _ _ => rfl) ?_ (by simp), rfl⟩
      cases empty <;> exact Iff.rfl
  | cleaned empty =>
      cases empty with
      | true =>
          obtain ⟨rfl, rfl⟩ := Prod.mk.inj (Option.some.inj h)
          exact ⟨.deletes _ rfl rfl, rfl⟩
      | false =>
          rw [removeStep] at h
          cases hm : s.rooms.lookup key with
          | none =>
              rw [hm] at h
              obtain ⟨rfl, rfl⟩ := Prod.mk.inj (Option.some.inj h)
              exact ⟨.passes _ _ _ rfl (fun _ _ => rfl) Iff.rfl (by simp), rfl⟩
          | some members =>
              rw [hm] at h
              obtain ⟨rfl, rfl⟩ := Prod.mk.inj (Option.some.inj h)
              exact ⟨.passes _ _ _ rfl (fun _ _ => rfl) Iff.rfl (by simp), rfl⟩
  | deleted =>
      obtain ⟨rfl, rfl⟩ := Prod.mk.inj (Option.some.inj h)
      exact ⟨.passes _ _ _ rfl (fun _ _ => rfl) Iff.rfl (by simp), rfl⟩
  | unlisting =>
      obtain ⟨rfl, rfl⟩ := Prod.mk.inj (Option.some.inj h)
      refine ⟨.passes _ _ _ rfl (fun d hd => ?_) Iff.rfl (by simp), rfl⟩
      rw [FinMap.lookup_modify, if_neg hd]
  | ended => exact absurd h (by simp [removeStep])

/-! ### A join and a removal -/

section Race

variable (cfg : Config) (joiner roomName leaver key : String)

/-- The client `joiner` joins the room `roomName`, and `leaver` is removed from
the room with the key `key`. The event is the next step of the join, if it is
`true`, with what the outside answers, or of the removal. -/
def raceStep (w : AppState × JoinPhase × RemovePhase) :
    Bool × Env → Option (AppState × JoinPhase × RemovePhase)
  | (true, env) => (joinStep env cfg joiner roomName w.1 w.2.1).map fun r => (r.1, r.2, w.2.2)
  | (false, _) => (removeStep leaver key w.1 w.2.2).map fun r => (r.1, w.2.1, r.2)

/-- The step puts the joining client into the member set while the removal, which
has found the room empty, has not yet deleted it. -/
def Interrupts (w : AppState × JoinPhase × RemovePhase) (e : Bool × Env) : Prop :=
  e.1 = true ∧ (∃ key, w.2.1 = .checked key) ∧ w.2.2.Emptied

/-- The state of the race from `s`, in which the join was interrupted or not. -/
structure Raced (s : AppState) (lost : Prop) (w : AppState × JoinPhase × RemovePhase) : Prop where
  tenants : w.1.clientTenants = s.clientTenants
  keyed : ∀ k, w.2.1.key? = some k → k = roomKey s joiner roomName
  early : lost → w.2.1.Entered
  kept : w.2.1.Entered → ¬lost →
    w.1.ledger.member joiner (roomKey s joiner roomName) ∧ ¬w.2.2.Emptied
  gone : lost → w.2.2 ≠ .start ∧
    (w.2.2.Emptied ∨ ¬w.1.ledger.member joiner (roomKey s joiner roomName))
  indexed : w.2.1.Indexed → w.1.ledger.index joiner (roomKey s joiner roomName)

variable {cfg joiner roomName leaver key} {s : AppState} {lost : Prop}
  {w w' : AppState × JoinPhase × RemovePhase}

/-- A step of the join. -/
lemma Raced.join (h : Raced joiner roomName s lost w) {s' : AppState} {p' : JoinPhase}
    (heffect : JoinEffect joiner roomName w.1 w.2.1 s' p')
    (htenants : s'.clientTenants = w.1.clientTenants) :
    Raced joiner roomName s (lost ∨ ((∃ key, w.2.1 = .checked key) ∧ w.2.2.Emptied))
      (s', p', w.2.2) := by
  have hkey : roomKey w.1 joiner roomName = roomKey s joiner roomName := by
    rw [roomKey, h.tenants, roomKey]
  obtain ⟨hten, hkeyed, hearly, hkept, hgone, hindexed⟩ := h
  generalize hp : w.2.1 = p at heffect hkeyed hearly hkept hindexed
  cases heffect with
  | enters k s' hrooms hindex =>
      obtain rfl := hkeyed k rfl
      have hnotLost : ¬lost := fun hl => (hearly hl).elim
      refine ⟨htenants.trans hten, hkeyed, fun _ => trivial, fun _ hnone => ⟨?_, ?_⟩, ?_,
        fun hi => hi.elim⟩
      · refine ⟨insert joiner ((w.1.rooms.lookup (roomKey s joiner roomName)).getD ∅), ?_,
          Finset.mem_insert_self _ _⟩
        rw [hrooms, Finmap.lookup_insert]
      · exact fun hemptied => hnone (Or.inr ⟨⟨_, rfl⟩, hemptied⟩)
      · rintro (hl | ⟨-, hemptied⟩)
        · exact absurd hl hnotLost
        · refine ⟨fun hstart => ?_, Or.inl hemptied⟩
          rw [hstart] at hemptied
          exact hemptied
  | indexes k s' hrooms hindex =>
      obtain rfl := hkeyed k rfl
      have hmember : ∀ d room, s'.ledger.member d room ↔ w.1.ledger.member d room := by
        intro d room
        rw [AppState.ledger, AppState.ledger, hrooms]
      have hlost : (lost ∨ ((∃ key, JoinPhase.entered (roomKey s joiner roomName) = .checked key) ∧
          w.2.2.Emptied)) ↔ lost := by simp
      rw [hlost]
      refine ⟨htenants.trans hten, hkeyed, fun _ => trivial, fun _ hnone => ?_, fun hl => ?_, ?_⟩
      · rw [hmember]
        exact hkept trivial hnone
      · rw [hmember]
        exact hgone hl
      · intro _
        refine ⟨insert (roomKey s joiner roomName) ((w.1.clientRooms.lookup joiner).getD ∅), ?_,
          Finset.mem_insert_self _ _⟩
        rw [hindex, Finmap.lookup_insert]
  | passes p p' s' hrooms hindex hchecked hentered hindexed' hkey' =>
      have hledger : ∀ d room, (s'.ledger.member d room ↔ w.1.ledger.member d room) ∧
          (s'.ledger.index d room ↔ w.1.ledger.index d room) := by
        intro d room
        rw [AppState.ledger, AppState.ledger, hrooms, hindex]
        exact ⟨Iff.rfl, Iff.rfl⟩
      have hlost : (lost ∨ ((∃ key, p = .checked key) ∧ w.2.2.Emptied)) ↔ lost := by
        simp [hchecked]
      rw [hlost]
      refine ⟨htenants.trans hten, fun k hk => ?_, fun hl => hentered.mpr (hearly hl),
        fun hin hnone => ?_, fun hl => ?_, fun hin => ?_⟩
      · rcases hkey' k hk with hold | hnew
        · exact hkeyed k hold
        · rw [hnew, hkey]
      · rw [(hledger _ _).1]
        exact hkept (hentered.mp hin) hnone
      · rw [(hledger _ _).1]
        exact hgone hl
      · rw [(hledger _ _).2]
        exact hindexed (hindexed'.mp hin)

/-- A step of the removal of another client. -/
lemma Raced.remove (h : Raced joiner roomName s lost w) (hne : joiner ≠ leaver) {s' : AppState}
    {p' : RemovePhase}
    (heffect : RemoveEffect leaver (roomKey s joiner roomName) w.1 w.2.2 s' p')
    (htenants : s'.clientTenants = w.1.clientTenants) :
    Raced joiner roomName s lost (s', w.2.1, p') := by
  obtain ⟨hten, hkeyed, hearly, hkept, hgone, hindexed⟩ := h
  have hindex : ∀ t : AppState, t.clientRooms.lookup joiner = w.1.clientRooms.lookup joiner →
      w.2.1.Indexed → t.ledger.index joiner (roomKey s joiner roomName) := by
    intro t ht hin
    rw [AppState.ledger]
    dsimp only
    rw [ht]
    exact hindexed hin
  generalize hp : w.2.2 = p at heffect hkept hgone
  cases heffect with
  | missing =>
      refine ⟨htenants.trans hten, hkeyed, hearly, fun hin hnone => ?_, fun hl => ?_,
        hindex _ rfl⟩
      · exact ⟨(hkept hin hnone).1, fun hemptied => hemptied⟩
      · exact absurd rfl (hgone hl).1
  | takes members s' hmembers hrooms hclient =>
      refine ⟨htenants.trans hten, hkeyed, hearly, fun hin hnone => ?_, fun hl => ?_,
        hindex _ (by rw [hclient])⟩
      · -- the joining client is among the members that are left
        obtain ⟨members', hl, hmem⟩ := (hkept hin hnone).1
        obtain rfl := Option.some.inj (hmembers.symm.trans hl)
        have hleft : joiner ∈ members.erase leaver := Finset.mem_erase.mpr ⟨hne, hmem⟩
        have hnonempty : members.erase leaver ≠ ∅ := Finset.ne_empty_of_mem hleft
        refine ⟨⟨members.erase leaver, by rw [hrooms, Finmap.lookup_insert], hleft⟩, ?_⟩
        rw [decide_eq_false hnonempty]
        exact fun hemptied => hemptied
      · exact absurd rfl (hgone hl).1
  | deletes s' hrooms hclient =>
      refine ⟨htenants.trans hten, hkeyed, hearly, fun hin hnone => ?_, fun hl => ?_,
        hindex _ (by rw [hclient])⟩
      · exact absurd trivial (hkept hin hnone).2
      · refine ⟨by simp, Or.inr ?_⟩
        rintro ⟨members, hmembers, -⟩
        rw [hrooms, Finmap.lookup_erase] at hmembers
        exact absurd hmembers (by simp)
  | passes p p' s' hrooms hclient hemptied hstart =>
      have hmember : ∀ d room, s'.ledger.member d room ↔ w.1.ledger.member d room := by
        intro d room
        rw [AppState.ledger, AppState.ledger, hrooms]
      refine ⟨htenants.trans hten, hkeyed, hearly, fun hin hnone => ?_, fun hl => ?_,
        hindex _ (hclient joiner hne)⟩
      · rw [hmember, hemptied]
        exact hkept hin hnone
      · rw [hmember, hemptied]
        exact ⟨hstart.2, (hgone hl).2⟩

lemma Raced.step (hne : joiner ≠ leaver) (h : Raced joiner roomName s lost w) {e : Bool × Env}
    (hstep : raceStep cfg joiner roomName leaver (roomKey s joiner roomName) w e = some w') :
    Raced joiner roomName s (lost ∨ Interrupts w e) w' := by
  obtain ⟨b, env⟩ := e
  cases b with
  | true =>
      obtain ⟨⟨s', p'⟩, hjoin, rfl⟩ := Option.map_eq_some_iff.mp hstep
      obtain ⟨heffect, htenants⟩ := joinEffect_of_step hjoin
      have hlost : (lost ∨ Interrupts w (true, env)) ↔
          (lost ∨ ((∃ key, w.2.1 = .checked key) ∧ w.2.2.Emptied)) := by simp [Interrupts]
      rw [hlost]
      exact h.join heffect htenants
  | false =>
      obtain ⟨⟨s', p'⟩, hremove, rfl⟩ := Option.map_eq_some_iff.mp hstep
      obtain ⟨heffect, htenants⟩ := removeEffect_of_step hremove
      have hlost : (lost ∨ Interrupts w (false, env)) ↔ lost := by simp [Interrupts]
      rw [hlost]
      exact h.remove hne heffect htenants

/-- After any interleaving of a join, which is not denied, with the removal of
another client from the same room, the joining client is a member of the room
and the room is in its reverse index just when it was not put into the member
set between the removal's check for emptiness and its deletion of the room. -/
theorem join_kept_iff (cfg : Config) (s : AppState) {joiner leaver roomName : String}
    (hne : joiner ≠ leaver) {es : List (Bool × Env)} {w : AppState × JoinPhase × RemovePhase}
    (hrun : run (raceStep cfg joiner roomName leaver (roomKey s joiner roomName))
      (s, .start, .start) es = some w)
    (hjoined : w.2.1 = .joined) (hended : w.2.2 = .ended) :
    (w.1.ledger.member joiner (roomKey s joiner roomName) ∧
        w.1.ledger.index joiner (roomKey s joiner roomName)) ↔
      ¬Happened (raceStep cfg joiner roomName leaver (roomKey s joiner roomName)) Interrupts
        (s, .start, .start) es := by
  have hraced : Raced joiner roomName s
      (Happened (raceStep cfg joiner roomName leaver (roomKey s joiner roomName)) Interrupts
        (s, .start, .start) es) w := by
    refine run_happened_induction (I := fun lost w => Raced joiner roomName s lost w) ?_
      (fun _ _ _ _ h hstep => h.step hne hstep) hrun
    exact ⟨rfl, by simp [JoinPhase.key?], False.elim, False.elim, False.elim, False.elim⟩
  obtain ⟨-, -, -, hkept, hgone, hindexed⟩ := hraced
  rw [hjoined] at hkept hindexed
  constructor
  · rintro ⟨hmember, -⟩ hlost
    rcases (hgone hlost).2 with hemptied | hnot
    · rw [hended] at hemptied
      exact hemptied
    · exact hnot hmember
  · exact fun hnone => ⟨(hkept trivial hnone).1, hindexed trivial⟩

end Race

/-- A server whose room `lobby` has the single member `bob`. -/
def bobInLobby : AppState := joinRoom (AppState.new {} Redis.empty) "bob" "lobby"

/-- `alice` joins after `bob` was removed. -/
theorem join_kept_alice :
    ∃ w, run (raceStep {} "alice" "lobby" "bob" (roomKey bobInLobby "alice" "lobby"))
        (bobInLobby, .start, .start)
        ((List.replicate 5 false ++ List.replicate 13 true).map fun b => (b, Env.quiet 0)) =
          some w ∧
      ((w.1.ledger.member "alice" (roomKey bobInLobby "alice" "lobby") ∧
          w.1.ledger.index "alice" (roomKey bobInLobby "alice" "lobby")) ↔
        ¬Happened (raceStep {} "alice" "lobby" "bob" (roomKey bobInLobby "alice" "lobby"))
          Interrupts (bobInLobby, .start, .start)
          ((List.replicate 5 false ++ List.replicate 13 true).map fun b => (b, Env.quiet 0))) := by
  have heval : (run (raceStep {} "alice" "lobby" "bob" (roomKey bobInLobby "alice" "lobby"))
      (bobInLobby, .start, .start)
      ((List.replicate 5 false ++ List.replicate 13 true).map fun b => (b, Env.quiet 0))).map
      (fun w => w.2) = some (.joined, .ended) := by decide +kernel
  obtain ⟨w, hw, hphases⟩ := Option.map_eq_some_iff.mp heval
  obtain ⟨hjoined, hended⟩ := Prod.mk.inj hphases
  exact ⟨w, hw, join_kept_iff {} bobInLobby (by decide) hw hjoined hended⟩

/-- A join can get lost: `alice` is put into the room after it was found empty,
and the room is deleted. -/
theorem join_lost :
    ¬∀ (cfg : Config) (s : AppState) (joiner leaver roomName : String) (es : List (Bool × Env))
      (w : AppState × JoinPhase × RemovePhase), joiner ≠ leaver →
      s.rooms.lookup (roomKey s joiner roomName) = some {leaver} →
      run (raceStep cfg joiner roomName leaver (roomKey s joiner roomName)) (s, .start, .start) es =
        some w → w.2 = (.joined, .ended) →
      w.1.ledger.member joiner (roomKey s joiner roomName) ∧
        w.1.ledger.index joiner (roomKey s joiner roomName) := by
  intro hall
  have heval : (run (raceStep {} "alice" "lobby" "bob" (roomKey bobInLobby "alice" "lobby"))
      (bobInLobby, .start, .start)
      (([false, false] ++ List.replicate 7 true ++ List.replicate 3 false ++
        List.replicate 5 true).map fun b => (b, Env.quiet 0))).map
      (fun w => (w.2, w.1.rooms.keys)) = some ((.joined, .ended), ∅) := by decide +kernel
  obtain ⟨w, hw, hend⟩ := Option.map_eq_some_iff.mp heval
  obtain ⟨hphases, hrooms⟩ := Prod.mk.inj hend
  obtain ⟨⟨members, hl, -⟩, -⟩ := hall {} bobInLobby "alice" "bob" "lobby" _ w (by decide)
    (by decide +kernel) hw hphases
  have hkey := Finmap.mem_keys.mpr (Finmap.mem_of_lookup_eq_some hl)
  rw [hrooms] at hkey
  exact absurd hkey (Finset.notMem_empty _)

end Dendri
