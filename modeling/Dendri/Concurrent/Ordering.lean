import Dendri.Lib.Interleave
import Dendri.Properties.Polling

/-!
Data relayed by many senders at the same time. `handle_data` takes its number
from a counter, sends the message to one recipient after the other and pushes it
to the replay buffer, and nothing keeps two calls from overtaking each other in
between.

* `DataCall`, `dataAccess`: a call of `handle_data`, one step for each access to
  the shared state; alone it is `handleData` (`alone_data`);
* `Overtakes`: a step that sends to a channel, or pushes to a buffer, before a
  call with a smaller number that has still to do so;
* `InOrder`: numbers increase on all channels and in all buffers, the number at
  the front of a buffer is the least one, and what a client has received is
  below all it has not;
* `data_in_order`: in an interleaving in which no step overtakes, all states are
  in order; `data_overtaken`: in others they need not be.
-/

namespace Dendri

open AppState Transition Interleave

/-! ### The steps of a call -/

/-- A call of `handle_data`: the sender, and its message. -/
structure DataCall where
  clientId : String
  msg : Message
  isData : msg.type_ = .DATA

/-- How far a call has come, with the message as it is relayed and its number. -/
inductive DataPhase where
  | start
  | numbered (out : Message) (seq : ℕ)
  /-- The clients that are still to be sent to, and the key to push under. -/
  | sending (out : Message) (seq : ℕ) (key : String) (rest : List String)
  | ended
  deriving DecidableEq

/-- One access of `handle_data` to the shared state. -/
def dataAccess (env : Env) (cfg : Config) (d : DataCall) (s : AppState) :
    DataPhase → Option (AppState × DataPhase)
  | .start =>
      if !cfg.enableRelay then
        some (s.sendTo d.clientId [.error "Relay not enabled on this server"], .ended)
      else if !validIfPresent d.msg.room || !validIfPresent d.msg.dst then some (s, .ended)
      else
        some ({ s with seqCounter := s.seqCounter + 1 },
          .numbered (numbered env s d.msg) (s.seqCounter + 1))
  | .numbered out seq =>
      match out.room with
      | some roomName =>
          let key := roomKey s d.clientId roomName
          some (s, .sending out seq key
            (env.order.toList (((s.rooms.lookup key).getD ∅).erase d.clientId)))
      | none =>
          match out.dst with
          | some dstId => some (s, .sending out seq dstId [dstId])
          | none => some (s, .ended)
  | .sending out seq key (member :: rest) =>
      some (s.sendTo member [.relay out], .sending out seq key rest)
  | .sending out seq key [] => some (bufferRelay env s key seq out, .ended)
  | .ended => none

/-! ### Without interruption -/

/-- Different ids have different channels. -/
def SendersApart (s : AppState) : Prop :=
  ∀ m m' c, s.wsSenders.lookup m = some c → s.wsSenders.lookup m' = some c → m = m'

/-- A channel after one frame to a client. -/
lemma chans_sendTo (s : AppState) (member : String) (frame : Frame) (i : ℕ) :
    (s.sendTo member [frame]).chans i =
      if s.wsSenders.lookup member = some i ∧ (s.chans i).closed = false then
        { s.chans i with queue := (s.chans i).queue ++ [frame] }
      else s.chans i := by
  rw [AppState.chans_sendTo_push, Channel.push, ite_and]

/-- In every run of the server. -/
lemma Wired.sendersApart {w : World} (h : Wired w) : SendersApart w.app :=
  fun m m' c hm hm' => h.own m m' c (Or.inl hm) hm'

/-- Sending to one member and then to the others is sending to all, when no other
member has the channel of the one. -/
lemma fanOut_insert {s : AppState} (hapart : SendersApart s) {member : String}
    {members : Finset String} (hmember : member ∉ members) (frame : Frame) :
    s.fanOut (insert member members) frame = (s.sendTo member [frame]).fanOut members frame := by
  have hchans : ∀ i, (s.fanOut (insert member members) frame).chans i =
      ((s.sendTo member [frame]).fanOut members frame).chans i := by
    intro i
    have hsenders : (s.sendTo member [frame]).wsSenders = s.wsSenders := rfl
    rw [AppState.chans_fanOut_push, AppState.chans_fanOut_push, AppState.chans_sendTo_push,
      hsenders]
    by_cases hm : s.wsSenders.lookup member = some i
    · have hother : ¬∃ m ∈ members, s.wsSenders.lookup m = some i := by
        rintro ⟨m, hmem, hl⟩
        rw [← hapart member m i hm hl] at hmem
        exact hmember hmem
      rw [if_pos ⟨member, Finset.mem_insert_self _ _, hm⟩, if_neg hother, if_pos hm]
    · have hsame : (∃ m ∈ insert member members, s.wsSenders.lookup m = some i) ↔
          ∃ m ∈ members, s.wsSenders.lookup m = some i := by
        simp only [Finset.mem_insert, exists_eq_or_imp, hm, false_or]
      rw [if_neg hm]
      exact if_congr hsame rfl rfl
  calc s.fanOut (insert member members) frame
      = { s with chans := (s.fanOut (insert member members) frame).chans } := rfl
    _ = { s with chans := ((s.sendTo member [frame]).fanOut members frame).chans } := by
        rw [funext hchans]
    _ = (s.sendTo member [frame]).fanOut members frame := rfl

/-- The loop that sends to one member after the other is the fan-out. -/
lemma alone_sending (env : Env) (cfg : Config) (d : DataCall) (out : Message) (seq : ℕ)
    (key : String) {s : AppState} (hapart : SendersApart s) (rest : List String)
    (hnodup : rest.Nodup) :
    Alone (dataAccess env cfg d) (s, .sending out seq key rest)
      (s.fanOut rest.toFinset (.relay out), .sending out seq key []) := by
  induction rest generalizing s with
  | nil =>
      have hnone : s.fanOut ∅ (.relay out) = s := by simp [AppState.fanOut]
      rw [List.toFinset_nil, hnone]
      exact .refl _
  | cons member rest ih =>
      obtain ⟨hmember, hrest⟩ := List.nodup_cons.mp hnodup
      have hapart' : SendersApart (s.sendTo member [.relay out]) := hapart
      have hnew : member ∉ rest.toFinset := fun hmem => hmember (List.mem_toFinset.mp hmem)
      rw [List.toFinset_cons, fanOut_insert hapart hnew]
      exact .head rfl (ih hapart' hrest)

/-- A call that is not interrupted is `handleData`. -/
theorem alone_data (env : Env) (cfg : Config) (d : DataCall) {s : AppState}
    (hapart : SendersApart s) :
    Alone (dataAccess env cfg d) (s, .start) (handleData env cfg s d.clientId d.msg, .ended) := by
  rw [handleData]
  by_cases hrelay : (!cfg.enableRelay) = true
  · rw [if_pos hrelay]
    exact .head (by rw [dataAccess, if_pos hrelay]) (.refl _)
  rw [if_neg hrelay]
  by_cases hvalid : (!validIfPresent d.msg.room || !validIfPresent d.msg.dst) = true
  · rw [if_pos hvalid]
    exact .head (by rw [dataAccess, if_neg hrelay, if_pos hvalid]) (.refl _)
  rw [if_neg hvalid]
  have hapart' : SendersApart { s with seqCounter := s.seqCounter + 1 } := hapart
  refine .head (by rw [dataAccess, if_neg hrelay, if_neg hvalid]) ?_
  obtain ⟨clientId, ⟨type_, src, dst, payload, seq, room, timestamp, topicClass⟩, isData⟩ := d
  cases room with
  | some roomName =>
      let members := ((s.rooms.lookup (roomKey s clientId roomName)).getD ∅).erase clientId
      have hmembers : (env.order.toList members).toFinset = members := by
        ext m
        rw [List.mem_toFinset, env.order.mem_toList]
      have hsend := alone_sending env cfg
        ⟨clientId, ⟨type_, src, dst, payload, seq, some roomName, timestamp, topicClass⟩, isData⟩
        (numbered env s ⟨type_, src, dst, payload, seq, some roomName, timestamp, topicClass⟩)
        (s.seqCounter + 1) (roomKey s clientId roomName) hapart' (env.order.toList members)
        (env.order.nodup_toList _)
      rw [hmembers] at hsend
      exact .head rfl (hsend.trans (.head rfl (.refl _)))
  | none =>
      cases dst with
      | some dstId => exact .head rfl (.head rfl (.head rfl (.refl _)))
      | none => exact .head rfl (.refl _)

/-! ### What a call has still to do -/

namespace DataPhase

/-- The number of a call, while it has one and has not ended. -/
def seq? : DataPhase → Option ℕ
  | .numbered _ seq | .sending _ seq _ _ => some seq
  | _ => none

/-- The clients that the call has still to send to. -/
def targets (s : AppState) (clientId : String) : DataPhase → Finset String
  | .numbered out _ =>
      match out.room with
      | some roomName =>
          ((s.rooms.lookup (roomKey s clientId roomName)).getD ∅).erase clientId
      | none => out.dst.toFinset
  | .sending _ _ _ rest => rest.toFinset
  | _ => ∅

/-- The key that the call has still to push under. -/
def pushKey (s : AppState) (clientId : String) : DataPhase → Option String
  | .numbered out _ =>
      if out.topicClass = some "ephemeral" then none
      else
        match out.room with
        | some roomName => some (roomKey s clientId roomName)
        | none => out.dst
  | .sending out _ key _ => if out.topicClass = some "ephemeral" then none else some key
  | _ => none

/-- The call has still to send to the channel. -/
def WillSend (s : AppState) (clientId : String) (p : DataPhase) (c : ℕ) : Prop :=
  ∃ member ∈ p.targets s clientId, s.wsSenders.lookup member = some c

/-- The client that the next step sends to. -/
def nextSend : DataPhase → Option String
  | .sending _ _ _ (member :: _) => some member
  | _ => none

/-- The key that the next step pushes under. -/
def nextPush : DataPhase → Option String
  | .sending out _ key [] => if out.topicClass = some "ephemeral" then none else some key
  | _ => none

lemma pushKey_of_nextPush {p : DataPhase} {key : String} (h : p.nextPush = some key)
    (s : AppState) (clientId : String) : p.pushKey s clientId = some key := by
  cases p with
  | sending out seq key' rest =>
      cases rest with
      | nil => exact h
      | cons member rest => exact absurd h (by simp [nextPush])
  | _ => exact absurd h (by simp [nextPush])

end DataPhase

/-- What the handlers of other calls read and no call of `handle_data` changes. -/
def AppState.routes (s : AppState) :=
  (s.wsSenders, s.rooms, s.clientTenants)

lemma targets_congr {s t : AppState} (h : t.routes = s.routes) (clientId : String)
    (p : DataPhase) : p.targets t clientId = p.targets s clientId := by
  obtain ⟨-, h⟩ := Prod.mk.inj h
  obtain ⟨hrooms, htenants⟩ := Prod.mk.inj h
  have hkey : ∀ room, roomKey t clientId room = roomKey s clientId room := fun room => by
    rw [roomKey, htenants, roomKey]
  cases p with
  | numbered out seq =>
      simp only [DataPhase.targets]
      cases out.room with
      | some room =>
          dsimp only
          rw [hrooms, hkey]
      | none => rfl
  | _ => rfl

lemma pushKey_congr {s t : AppState} (h : t.routes = s.routes) (clientId : String)
    (p : DataPhase) : p.pushKey t clientId = p.pushKey s clientId := by
  obtain ⟨-, h⟩ := Prod.mk.inj h
  obtain ⟨-, htenants⟩ := Prod.mk.inj h
  have hkey : ∀ room, roomKey t clientId room = roomKey s clientId room := fun room => by
    rw [roomKey, htenants, roomKey]
  cases p with
  | numbered out seq => simp only [DataPhase.pushKey, hkey]
  | _ => rfl

lemma willSend_congr {s t : AppState} (h : t.routes = s.routes) (clientId : String)
    (p : DataPhase) (c : ℕ) : p.WillSend t clientId c ↔ p.WillSend s clientId c := by
  have hsenders : t.wsSenders = s.wsSenders := (Prod.mk.inj h).1
  rw [DataPhase.WillSend, targets_congr h, hsenders, DataPhase.WillSend]

/-- What a step of a call does: nothing that counts, or it takes the next number,
or it sends to a client, or it pushes. -/
inductive DataEffect (clientId : String) (s : AppState) (p : DataPhase) (s' : AppState)
    (p' : DataPhase) : Prop
  | passes (hchans : ∀ c, dataSeqs (s'.chans c).queue = dataSeqs (s.chans c).queue)
      (hbuffer : s'.replayBuffer = s.replayBuffer) (hcounter : s'.seqCounter = s.seqCounter)
      (hseq : ∀ n, p'.seq? = some n → p.seq? = some n)
      (htargets : p'.targets s clientId ⊆ p.targets s clientId)
      (hkey : ∀ key, p'.pushKey s clientId = some key → p.pushKey s clientId = some key)
  | numbers (hchans : s'.chans = s.chans) (hbuffer : s'.replayBuffer = s.replayBuffer)
      (hcounter : s'.seqCounter = s.seqCounter + 1) (hold : p.seq? = none)
      (hseq : p'.seq? = some (s.seqCounter + 1))
  | sends (seq : ℕ) (member : String) (frame : Frame) (hs' : s' = s.sendTo member [frame])
      (hnext : p.nextSend = some member) (hframe : frame.dataSeq = some seq)
      (hold : p.seq? = some seq) (hseq : p'.seq? = some seq)
      (hmember : member ∈ p.targets s clientId) (hleft : member ∉ p'.targets s clientId)
      (htargets : p'.targets s clientId ⊆ p.targets s clientId)
      (hkey : p'.pushKey s clientId = p.pushKey s clientId)
  | pushes (seq : ℕ) (hchans : s'.chans = s.chans) (hcounter : s'.seqCounter = s.seqCounter)
      (hold : p.seq? = some seq) (hseq : p'.seq? = none)
      (hheld : ∀ key, s'.replayBuffer.held key = s.replayBuffer.held key ∨
        (p.nextPush = some key ∧ ∃ kept m, kept.Sublist (s.replayBuffer.held key) ∧
          m.seq = seq ∧ s'.replayBuffer.held key = kept ++ [m]))

/-- The phase of a call fits: what is left is sent to each client once, and the
message has the number of the call. -/
structure PhaseFits (p : DataPhase) : Prop where
  frame : ∀ out seq key rest, p = .sending out seq key rest → (Frame.relay out).dataSeq = some seq
  numbered : ∀ out seq, p = .numbered out seq → (Frame.relay out).dataSeq = some seq
  nodup : ∀ out seq key rest, p = .sending out seq key rest → rest.Nodup

lemma held_bufferRelay (env : Env) (s : AppState) (key k : String) (seq : ℕ) (out : Message) :
    (bufferRelay env s key seq out).replayBuffer.held k = s.replayBuffer.held k ∨
      (out.topicClass ≠ some "ephemeral" ∧ k = key ∧ ∃ kept m,
        kept.Sublist (s.replayBuffer.held k) ∧ m.seq = seq ∧
        (bufferRelay env s key seq out).replayBuffer.held k = kept ++ [m]) := by
  rw [bufferRelay]
  dsimp only
  split_ifs with heph
  · exact Or.inl rfl
  · rw [ReplayBuffer.held_push]
    split_ifs with hk hfull
    · rw [hk]
      exact Or.inr ⟨heph, rfl, _, ⟨seq, .relay out, env.now⟩,
        (List.tail_sublist _).trans (List.dropWhile_sublist _), rfl, rfl⟩
    · rw [hk]
      exact Or.inr ⟨heph, rfl, _, ⟨seq, .relay out, env.now⟩, List.dropWhile_sublist _, rfl, rfl⟩
    · exact Or.inl rfl

lemma dataSeqs_sendTo_error (s : AppState) (id text : String) (c : ℕ) :
    dataSeqs ((s.sendTo id [.error text]).chans c).queue = dataSeqs (s.chans c).queue := by
  rw [chans_sendTo]
  split_ifs
  · rw [dataSeqs_append]
    exact List.append_nil _
  · rfl

/-- Every step has one of the effects. -/
lemma dataEffect_of_step {env : Env} {cfg : Config} {d : DataCall} {s s' : AppState}
    {p p' : DataPhase} (hfits : PhaseFits p) (h : dataAccess env cfg d s p = some (s', p')) :
    DataEffect d.clientId s p s' p' ∧ PhaseFits p' ∧ s'.routes = s.routes := by
  have hended : PhaseFits .ended := ⟨by simp, by simp, by simp⟩
  cases p with
  | start =>
      rw [dataAccess] at h
      split_ifs at h
      · obtain ⟨rfl, rfl⟩ := Prod.mk.inj (Option.some.inj h)
        exact ⟨.passes (dataSeqs_sendTo_error s _ _) rfl rfl (by simp [DataPhase.seq?])
          (by simp [DataPhase.targets]) (by simp [DataPhase.pushKey]), hended, rfl⟩
      · obtain ⟨rfl, rfl⟩ := Prod.mk.inj (Option.some.inj h)
        exact ⟨.passes (fun _ => rfl) rfl rfl (by simp [DataPhase.seq?])
          (by simp [DataPhase.targets]) (by simp [DataPhase.pushKey]), hended, rfl⟩
      · obtain ⟨rfl, rfl⟩ := Prod.mk.inj (Option.some.inj h)
        refine ⟨.numbers rfl rfl rfl rfl rfl, ⟨by simp, fun out seq hp => ?_, by simp⟩, rfl⟩
        obtain ⟨rfl, rfl⟩ := DataPhase.numbered.inj hp
        exact if_pos d.isData
  | numbered out seq =>
      have hframe := hfits.numbered out seq rfl
      rw [dataAccess] at h
      cases hroom : out.room with
      | some roomName =>
          rw [hroom] at h
          obtain ⟨rfl, rfl⟩ := Prod.mk.inj (Option.some.inj h)
          refine ⟨.passes (fun _ => rfl) rfl rfl (fun _ hn => hn) ?_ ?_, ⟨?_, by simp, ?_⟩, rfl⟩
          · intro m hm
            simpa only [DataPhase.targets, hroom, List.mem_toFinset, env.order.mem_toList] using hm
          · intro key hk
            simpa only [DataPhase.pushKey, hroom] using hk
          · intro out' seq' key' rest' hp
            obtain ⟨rfl, rfl, -, -⟩ := DataPhase.sending.inj hp
            exact hframe
          · intro out' seq' key' rest' hp
            obtain ⟨-, -, -, rfl⟩ := DataPhase.sending.inj hp
            exact env.order.nodup_toList _
      | none =>
          rw [hroom] at h
          cases hdst : out.dst with
          | some dstId =>
              rw [hdst] at h
              obtain ⟨rfl, rfl⟩ := Prod.mk.inj (Option.some.inj h)
              refine ⟨.passes (fun _ => rfl) rfl rfl (fun _ hn => hn) ?_ ?_, ⟨?_, by simp, ?_⟩, rfl⟩
              · intro m hm
                simpa [DataPhase.targets, hroom, hdst, eq_comm] using hm
              · intro key hk
                simpa only [DataPhase.pushKey, hroom, hdst] using hk
              · intro out' seq' key' rest' hp
                obtain ⟨rfl, rfl, -, -⟩ := DataPhase.sending.inj hp
                exact hframe
              · intro out' seq' key' rest' hp
                obtain ⟨-, -, -, rfl⟩ := DataPhase.sending.inj hp
                exact List.nodup_singleton _
          | none =>
              rw [hdst] at h
              obtain ⟨rfl, rfl⟩ := Prod.mk.inj (Option.some.inj h)
              exact ⟨.passes (fun _ => rfl) rfl rfl (by simp [DataPhase.seq?])
                (by simp [DataPhase.targets]) (by simp [DataPhase.pushKey]), hended, rfl⟩
  | sending out seq key rest =>
      have hframe := hfits.frame out seq key rest rfl
      have hnodup := hfits.nodup out seq key rest rfl
      cases rest with
      | cons member rest =>
          obtain ⟨rfl, rfl⟩ := Prod.mk.inj (Option.some.inj h)
          obtain ⟨hmember, hrest⟩ := List.nodup_cons.mp hnodup
          refine ⟨.sends seq member _ rfl rfl hframe rfl rfl ?_ ?_ ?_ rfl, ⟨?_, by simp, ?_⟩, rfl⟩
          · simp [DataPhase.targets]
          · simpa [DataPhase.targets] using hmember
          · intro m hm
            simp only [DataPhase.targets, List.mem_toFinset] at hm ⊢
            exact List.mem_cons_of_mem member hm
          · intro out' seq' key' rest' hp
            obtain ⟨rfl, rfl, -, -⟩ := DataPhase.sending.inj hp
            exact hframe
          · intro out' seq' key' rest' hp
            obtain ⟨-, -, -, rfl⟩ := DataPhase.sending.inj hp
            exact hrest
      | nil =>
          obtain ⟨rfl, rfl⟩ := Prod.mk.inj (Option.some.inj h)
          refine ⟨.pushes seq rfl rfl rfl rfl fun k => ?_, hended, rfl⟩
          rcases held_bufferRelay env s key k seq out with hsame | ⟨heph, rfl, hnew⟩
          · exact Or.inl hsame
          · exact Or.inr ⟨if_neg heph, hnew⟩
  | ended => exact absurd h (by simp [dataAccess])

/-! ### Many calls -/

section Calls

variable {ι : Type} (cfg : Config) (calls : ι → DataCall)

/-- Any number of calls. The event `(i, env)` is the next step of call `i`, with
what the outside answers during it. -/
def dataStep [DecidableEq ι] : AppState × (ι → DataPhase) → ι × Env →
    Option (AppState × (ι → DataPhase)) :=
  Interleave.step Prod.fst fun e s p => dataAccess e.2 cfg (calls e.1) s p

/-- The next step of `i` sends to an open channel, or pushes under a key, that a call
with a smaller number has still to send to or to push under. -/
def Overtakes (w : AppState × (ι → DataPhase)) (i : ι) : Prop :=
  ∃ j seq seq', (w.2 i).seq? = some seq ∧ (w.2 j).seq? = some seq' ∧ seq' < seq ∧
    ((∃ member c, (w.2 i).nextSend = some member ∧ w.1.wsSenders.lookup member = some c ∧
        (w.1.chans c).closed = false ∧ (w.2 j).WillSend w.1 (calls j).clientId c) ∨
      ∃ key, (w.2 i).nextPush = some key ∧ (w.2 j).pushKey w.1 (calls j).clientId = some key)

/-- Numbers increase on all channels and in all buffers. The number at the front
of a buffer is its least, and all numbers that a client has received are below
those that it has not: the rest of its channel, and what is still to be sent. -/
structure InOrder (w : AppState × (ι → DataPhase)) : Prop where
  channels : ∀ c, (dataSeqs (w.1.chans c).queue).Pairwise (· < ·)
  buffers : ∀ key, (w.1.replayBuffer.held key).Pairwise fun m m' => m.seq < m'.seq
  oldest : ∀ key n, w.1.replayBuffer.oldestSeq key = some n →
    ∀ m ∈ w.1.replayBuffer.held key, n ≤ m.seq
  watermark : ∀ c got rest, dataSeqs (w.1.chans c).queue = got ++ rest → ∀ n ∈ got,
    (∀ n' ∈ rest, n < n') ∧
      ∀ j n', (w.2 j).seq? = some n' → (w.2 j).WillSend w.1 (calls j).clientId c → n < n'

/-- A state that calls can start from: what is on channels and in buffers is in
order and was numbered by the counter. -/
structure Begins (s : AppState) : Prop where
  apart : SendersApart s
  channels : ∀ c, (dataSeqs (s.chans c).queue).Pairwise (· < ·)
  channelsBelow : ∀ c, ∀ n ∈ dataSeqs (s.chans c).queue, n ≤ s.seqCounter
  buffers : ∀ key, (s.replayBuffer.held key).Pairwise fun m m' => m.seq < m'.seq
  buffersBelow : ∀ key, ∀ m ∈ s.replayBuffer.held key, m.seq ≤ s.seqCounter

/-- What a call has still to send or to push is above what is there. -/
structure CallQueued (s : AppState) (clientId : String) (p : DataPhase) : Prop where
  fits : PhaseFits p
  below : ∀ n, p.seq? = some n → n ≤ s.seqCounter
  sendsAbove : ∀ n c, p.seq? = some n → p.WillSend s clientId c →
    ∀ k ∈ dataSeqs (s.chans c).queue, k < n
  pushesAbove : ∀ n key, p.seq? = some n → p.pushKey s clientId = some key →
    ∀ m ∈ s.replayBuffer.held key, m.seq < n

/-- The invariant: all calls are above what is there, and have different
numbers. -/
structure Queued (s : AppState) (ps : ι → DataPhase) : Prop extends Begins s where
  queued : ∀ j, CallQueued s (calls j).clientId (ps j)
  distinct : ∀ i j n, (ps i).seq? = some n → (ps j).seq? = some n → i = j

variable {cfg calls} {s s' : AppState} {ps : ι → DataPhase} {p' : DataPhase} {i : ι}

lemma oldest_le {b : ReplayBuffer Frame} {key : String} {n : ℕ}
    (hsorted : (b.held key).Pairwise fun m m' => m.seq < m'.seq)
    (h : b.oldestSeq key = some n) : ∀ m ∈ b.held key, n ≤ m.seq := by
  rw [ReplayBuffer.oldestSeq] at h
  obtain ⟨msgs, hmsgs, hhead⟩ := Option.bind_eq_some_iff.mp h
  have hheld : b.held key = msgs := by rw [ReplayBuffer.held, hmsgs, Option.getD_some]
  rw [hheld] at hsorted ⊢
  cases msgs with
  | nil => exact absurd hhead (by simp)
  | cons first msgs =>
      have hfirst : first.seq = n := Option.some.inj hhead
      intro m hm
      rcases List.mem_cons.mp hm with rfl | hm
      · exact hfirst.ge
      · exact hfirst ▸ ((List.pairwise_cons.mp hsorted).1 m hm).le

/-- What is ordered in this way is in order. -/
lemma Queued.inOrder (h : Queued calls s ps) : InOrder calls (s, ps) where
  channels := h.channels
  buffers := h.buffers
  oldest key _ hn := oldest_le (h.buffers key) hn
  watermark c got rest hsplit n hn := by
    have hsorted := h.channels c
    rw [hsplit] at hsorted
    refine ⟨fun n' hn' => (List.pairwise_append.mp hsorted).2.2 n hn n' hn', ?_⟩
    intro j n' hj hsend
    refine (h.queued j).sendsAbove n' c hj hsend n ?_
    rw [hsplit]
    exact List.mem_append_left rest hn

lemma queued_start (hs : Begins s) : Queued calls s fun _ => .start where
  toBegins := hs
  queued _ := ⟨⟨by simp, by simp, by simp⟩, by simp [DataPhase.seq?], by simp [DataPhase.seq?],
    by simp [DataPhase.seq?]⟩
  distinct := by simp [DataPhase.seq?]

/-- A call that neither gets a number nor anything to do, in a state with the same
channels and buffers. -/
lemma CallQueued.keep {clientId : String} {p p' : DataPhase} (h : CallQueued s clientId p)
    (hfits : PhaseFits p') (hroutes : s'.routes = s.routes)
    (hchans : ∀ c, dataSeqs (s'.chans c).queue = dataSeqs (s.chans c).queue)
    (hbuffer : s'.replayBuffer = s.replayBuffer) (hcounter : s.seqCounter ≤ s'.seqCounter)
    (hseq : ∀ n, p'.seq? = some n → p.seq? = some n)
    (htargets : p'.targets s clientId ⊆ p.targets s clientId)
    (hkey : ∀ key, p'.pushKey s clientId = some key → p.pushKey s clientId = some key) :
    CallQueued s' clientId p' where
  fits := hfits
  below n hn := (h.below n (hseq n hn)).trans hcounter
  sendsAbove n c hn hsend := by
    obtain ⟨member, hmember, hc⟩ := (willSend_congr hroutes clientId p' c).mp hsend
    rw [hchans c]
    exact h.sendsAbove n c (hseq n hn) ⟨member, htargets hmember, hc⟩
  pushesAbove n key hn hpush := by
    rw [pushKey_congr hroutes] at hpush
    rw [hbuffer]
    exact h.pushesAbove n key (hseq n hn) (hkey key hpush)

section Step

variable [DecidableEq ι]

/-- Numbers of calls after a step in which a call does not get one. -/
lemma distinct_update (h : Queued calls s ps)
    (hseq : ∀ n, p'.seq? = some n → (ps i).seq? = some n) :
    ∀ j k n, (Function.update ps i p' j).seq? = some n →
      (Function.update ps i p' k).seq? = some n → j = k := by
  have hold : ∀ j, ∀ n, (Function.update ps i p' j).seq? = some n → (ps j).seq? = some n :=
    forall_update (P := fun j (p : DataPhase) => ∀ n, p.seq? = some n → (ps j).seq? = some n) hseq
      fun _ _ _ hn => hn
  exact fun j k n hj hk => h.distinct j k n (hold j n hj) (hold k n hk)

/-- Numbers of calls after a step in which a call gets a new one. -/
lemma distinct_new {n₀ : ℕ} (h : Queued calls s ps) (hseq : p'.seq? = some n₀)
    (hnew : s.seqCounter < n₀) :
    ∀ j k n, (Function.update ps i p' j).seq? = some n →
      (Function.update ps i p' k).seq? = some n → j = k := by
  have hother : ∀ j, j ≠ i → (Function.update ps i p' j).seq? ≠ some n₀ := by
    intro j hj hn
    rw [Function.update_of_ne hj] at hn
    have := (h.queued j).below n₀ hn
    omega
  intro j k n hj hk
  by_cases hji : j = i
  · by_cases hki : k = i
    · rw [hji, hki]
    · subst hji
      rw [Function.update_self, hseq] at hj
      exact absurd (hk.trans hj.symm) (hother k hki)
  · by_cases hki : k = i
    · subst hki
      rw [Function.update_self, hseq] at hk
      exact absurd (hj.trans hk.symm) (hother j hji)
    · rw [Function.update_of_ne hji] at hj
      rw [Function.update_of_ne hki] at hk
      exact h.distinct j k n hj hk

/-- A step that takes a number: it is above all others. -/
lemma Queued.numbers (h : Queued calls s ps) (hfits : PhaseFits p')
    (hroutes : s'.routes = s.routes)
    (hchans : s'.chans = s.chans) (hbuffer : s'.replayBuffer = s.replayBuffer)
    (hcounter : s'.seqCounter = s.seqCounter + 1) (hseq : p'.seq? = some (s.seqCounter + 1)) :
    Queued calls s' (Function.update ps i p') := by
  have hsenders : s'.wsSenders = s.wsSenders := (Prod.mk.inj hroutes).1
  have hle : s.seqCounter ≤ s'.seqCounter := by rw [hcounter]; exact Nat.le_succ _
  refine ⟨⟨?_, ?_, ?_, ?_, ?_⟩, ?_, ?_⟩
  · intro m m' c
    rw [hsenders]
    exact h.apart m m' c
  · rw [hchans]
    exact h.channels
  · rw [hchans]
    exact fun c n hn => (h.channelsBelow c n hn).trans hle
  · rw [hbuffer]
    exact h.buffers
  · rw [hbuffer]
    exact fun key m hm => (h.buffersBelow key m hm).trans hle
  · refine forall_update (P := fun j p => CallQueued s' (calls j).clientId p) ?_ fun j _ => ?_
    · have hnew : ∀ n, p'.seq? = some n → n = s.seqCounter + 1 := fun n hn =>
        Option.some.inj (hn.symm.trans hseq)
      refine ⟨hfits, fun n hn => ?_, fun n c hn _ k hk => ?_, fun n key hn _ m hm => ?_⟩
      · rw [hnew n hn, hcounter]
      · rw [hchans] at hk
        rw [hnew n hn]
        exact Nat.lt_succ_of_le (h.channelsBelow c k hk)
      · rw [hbuffer] at hm
        rw [hnew n hn]
        exact Nat.lt_succ_of_le (h.buffersBelow key m hm)
    · exact (h.queued j).keep (h.queued j).fits hroutes (fun c => by rw [hchans]) hbuffer hle
        (fun _ hn => hn) (fun _ hm => hm) fun _ hk => hk
  · exact distinct_new h hseq (Nat.lt_succ_self _)

lemma dataSeqs_sendTo {s : AppState} {member : String} {frame : Frame} {seq : ℕ}
    (hframe : frame.dataSeq = some seq) (c : ℕ) :
    dataSeqs ((s.sendTo member [frame]).chans c).queue = dataSeqs (s.chans c).queue ∨
      (s.wsSenders.lookup member = some c ∧ (s.chans c).closed = false) ∧
        dataSeqs ((s.sendTo member [frame]).chans c).queue =
          dataSeqs (s.chans c).queue ++ [seq] := by
  rw [chans_sendTo]
  split_ifs with hc
  · refine Or.inr ⟨hc, ?_⟩
    rw [dataSeqs_append]
    simp [dataSeqs, hframe]
  · exact Or.inl rfl

/-- A step that sends, and overtakes no call. -/
lemma Queued.sends (h : Queued calls s ps) {seq : ℕ} {member : String} {frame : Frame}
    (hnot : ¬Overtakes calls (s, ps) i) (hfits : PhaseFits p')
    (hnext : (ps i).nextSend = some member) (hframe : frame.dataSeq = some seq)
    (hold : (ps i).seq? = some seq) (hseq : p'.seq? = some seq)
    (hmember : member ∈ (ps i).targets s (calls i).clientId)
    (hleft : member ∉ p'.targets s (calls i).clientId)
    (htargets : p'.targets s (calls i).clientId ⊆ (ps i).targets s (calls i).clientId)
    (hkey : p'.pushKey s (calls i).clientId = (ps i).pushKey s (calls i).clientId) :
    Queued calls (s.sendTo member [frame]) (Function.update ps i p') := by
  have hroutes : (s.sendTo member [frame]).routes = s.routes := rfl
  have habove : ∀ c, s.wsSenders.lookup member = some c →
      ∀ k ∈ dataSeqs (s.chans c).queue, k < seq :=
    fun c hc => (h.queued i).sendsAbove seq c hold ⟨member, hmember, hc⟩
  refine ⟨⟨h.apart, fun c => ?_, fun c n hn => ?_, h.buffers, h.buffersBelow⟩, ?_, ?_⟩
  · rcases dataSeqs_sendTo hframe c with hsame | ⟨hc, hnew⟩
    · rw [hsame]
      exact h.channels c
    · rw [hnew, List.pairwise_append]
      refine ⟨h.channels c, List.pairwise_singleton _ _, fun k hk n hn => ?_⟩
      rw [List.mem_singleton.mp hn]
      exact habove c hc.1 k hk
  · rcases dataSeqs_sendTo hframe c with hsame | ⟨-, hnew⟩
    · rw [hsame] at hn
      exact h.channelsBelow c n hn
    · rw [hnew] at hn
      rcases List.mem_append.mp hn with hn | hn
      · exact h.channelsBelow c n hn
      · rw [List.mem_singleton.mp hn]
        exact (h.queued i).below seq hold
  · refine forall_update
      (P := fun j p => CallQueued (s.sendTo member [frame]) (calls j).clientId p) ?_ fun j hj => ?_
    · refine ⟨hfits, fun n hn => ?_, fun n c hn hsend k hk => ?_, fun n key hn hpush => ?_⟩
      · exact (h.queued i).below n (hold.trans (hseq.symm.trans hn))
      · rw [willSend_congr hroutes] at hsend
        obtain ⟨m, hm, hmc⟩ := hsend
        have hsame : dataSeqs ((s.sendTo member [frame]).chans c).queue =
            dataSeqs (s.chans c).queue := by
          rcases dataSeqs_sendTo hframe c with hsame | ⟨hc, -⟩
          · exact hsame
          · -- the channel belongs to the member that has just been sent to
            rw [h.apart m member c hmc hc.1] at hm
            exact absurd hm hleft
        rw [hsame] at hk
        exact (h.queued i).sendsAbove n c (hold.trans (hseq.symm.trans hn))
          ⟨m, htargets hm, hmc⟩ k hk
      · rw [pushKey_congr hroutes, hkey] at hpush
        exact (h.queued i).pushesAbove n key (hold.trans (hseq.symm.trans hn)) hpush
    · refine ⟨(h.queued j).fits, (h.queued j).below, fun n c hn hsend k hk => ?_, ?_⟩
      · rw [willSend_congr hroutes] at hsend
        rcases dataSeqs_sendTo hframe c with hsame | ⟨hc, hnew⟩
        · rw [hsame] at hk
          exact (h.queued j).sendsAbove n c hn hsend k hk
        · rw [hnew] at hk
          rcases List.mem_append.mp hk with hk | hk
          · exact (h.queued j).sendsAbove n c hn hsend k hk
          · -- a call that has still to send there has a larger number
            rw [List.mem_singleton.mp hk]
            have hne : n ≠ seq := fun heq => hj (h.distinct j i seq (heq ▸ hn) hold)
            by_contra hlt
            exact hnot ⟨j, seq, n, hold, hn, by omega,
              Or.inl ⟨member, c, hnext, hc.1, hc.2, hsend⟩⟩
      · intro n key hn hpush
        rw [pushKey_congr hroutes] at hpush
        exact (h.queued j).pushesAbove n key hn hpush
  · exact distinct_update h fun n hn => hold.trans (hseq.symm.trans hn)

/-- A step that pushes, and overtakes no call. -/
lemma Queued.pushes (h : Queued calls s ps) {seq : ℕ} (hnot : ¬Overtakes calls (s, ps) i)
    (hfits : PhaseFits p') (hroutes : s'.routes = s.routes) (hchans : s'.chans = s.chans)
    (hcounter : s'.seqCounter = s.seqCounter) (hold : (ps i).seq? = some seq)
    (hseq : p'.seq? = none)
    (hheld : ∀ key, s'.replayBuffer.held key = s.replayBuffer.held key ∨
      ((ps i).nextPush = some key ∧ ∃ kept m, kept.Sublist (s.replayBuffer.held key) ∧
        m.seq = seq ∧ s'.replayBuffer.held key = kept ++ [m])) :
    Queued calls s' (Function.update ps i p') := by
  have hsenders : s'.wsSenders = s.wsSenders := (Prod.mk.inj hroutes).1
  have habove : ∀ key, (ps i).nextPush = some key → ∀ m ∈ s.replayBuffer.held key, m.seq < seq :=
    fun key hk => (h.queued i).pushesAbove seq key hold (DataPhase.pushKey_of_nextPush hk _ _)
  have hnone : ∀ n, p'.seq? ≠ some n := fun n hn => by rw [hseq] at hn; cases hn
  -- a message that is held now was held before, or is the one that was pushed
  have hmem : ∀ key, ∀ m ∈ s'.replayBuffer.held key, m ∈ s.replayBuffer.held key ∨
      ((ps i).nextPush = some key ∧ m.seq = seq) := by
    intro key m hm
    rcases hheld key with hsame | ⟨hk, kept, new, hkept, hnew, happend⟩
    · exact Or.inl (hsame ▸ hm)
    · rw [happend] at hm
      rcases List.mem_append.mp hm with hm | hm
      · exact Or.inl (hkept.subset hm)
      · rw [List.mem_singleton.mp hm]
        exact Or.inr ⟨hk, hnew⟩
  refine ⟨⟨?_, ?_, ?_, fun key => ?_, fun key m hm => ?_⟩, ?_, ?_⟩
  · intro m m' c
    rw [hsenders]
    exact h.apart m m' c
  · rw [hchans]
    exact h.channels
  · rw [hchans, hcounter]
    exact h.channelsBelow
  · rcases hheld key with hsame | ⟨hk, kept, new, hkept, hnew, happend⟩
    · rw [hsame]
      exact h.buffers key
    · rw [happend, List.pairwise_append]
      refine ⟨(h.buffers key).sublist hkept, List.pairwise_singleton _ _, fun m hm m' hm' => ?_⟩
      rw [List.mem_singleton.mp hm', hnew]
      exact habove key hk m (hkept.subset hm)
  · rw [hcounter]
    rcases hmem key m hm with hm | ⟨-, hm⟩
    · exact h.buffersBelow key m hm
    · rw [hm]
      exact (h.queued i).below seq hold
  · refine forall_update (P := fun j p => CallQueued s' (calls j).clientId p) ?_ fun j hj => ?_
    · exact ⟨hfits, fun n hn => absurd hn (hnone n), fun n _ hn => absurd hn (hnone n),
        fun n _ hn => absurd hn (hnone n)⟩
    · refine ⟨(h.queued j).fits, ?_, fun n c hn hsend => ?_, fun n key hn hpush m hm => ?_⟩
      · rw [hcounter]
        exact (h.queued j).below
      · rw [willSend_congr hroutes] at hsend
        rw [hchans]
        exact (h.queued j).sendsAbove n c hn hsend
      · rw [pushKey_congr hroutes] at hpush
        rcases hmem key m hm with hm | ⟨hk, hm⟩
        · exact (h.queued j).pushesAbove n key hn hpush m hm
        · -- a call that has still to push there has a larger number
          have hne : n ≠ seq := fun heq => hj (h.distinct j i seq (heq ▸ hn) hold)
          by_contra hlt
          exact hnot ⟨j, seq, n, hold, hn, by omega, Or.inr ⟨key, hk, hpush⟩⟩
  · exact distinct_update h fun n hn => absurd hn (hnone n)

/-- A step that overtakes no call keeps the order. -/
lemma Queued.step {w w' : AppState × (ι → DataPhase)} {e : ι × Env}
    (h : Queued calls w.1 w.2) (hnot : ¬Overtakes calls w e.1)
    (hw : dataStep cfg calls w e = some w') : Queued calls w'.1 w'.2 := by
  obtain ⟨s, ps⟩ := w
  obtain ⟨s', p', hact, rfl⟩ := step_eq_some hw
  obtain ⟨heffect, hfits, hroutes⟩ := dataEffect_of_step (h.queued e.1).fits hact
  cases heffect with
  | passes hchans hbuffer hcounter hseq htargets hkey =>
      have hsenders : s'.wsSenders = s.wsSenders := (Prod.mk.inj hroutes).1
      refine ⟨⟨?_, fun c => ?_, fun c => ?_, ?_, ?_⟩, ?_, distinct_update h hseq⟩
      · intro m m' c
        rw [hsenders]
        exact h.apart m m' c
      · rw [hchans c]
        exact h.channels c
      · rw [hchans c, hcounter]
        exact h.channelsBelow c
      · rw [hbuffer]
        exact h.buffers
      · rw [hbuffer, hcounter]
        exact h.buffersBelow
      · refine forall_update (P := fun j p => CallQueued s' (calls j).clientId p) ?_ fun j _ => ?_
        · exact (h.queued e.1).keep hfits hroutes hchans hbuffer hcounter.ge hseq htargets hkey
        · exact (h.queued j).keep (h.queued j).fits hroutes hchans hbuffer hcounter.ge
            (fun _ hn => hn) (fun _ hm => hm) fun _ hk => hk
  | numbers hchans hbuffer hcounter _ hseq =>
      exact h.numbers hfits hroutes hchans hbuffer hcounter hseq
  | sends seq member frame hs' hnext hframe hold hseq hmember hleft htargets hkey =>
      subst hs'
      exact h.sends hnot hfits hnext hframe hold hseq hmember hleft htargets hkey
  | pushes seq hchans hcounter hold hseq hheld =>
      exact h.pushes hnot hfits hroutes hchans hcounter hold hseq hheld

/-- In an interleaving in which no step overtakes a call, numbers increase on all
channels and in all buffers. -/
theorem data_in_order {es : List (ι × Env)} (hs : Begins s)
    (hnot : AllSteps (dataStep cfg calls) (fun w e _ => ¬Overtakes calls w e.1)
      (s, fun _ => .start) es) :
    AllSteps (dataStep cfg calls) (fun _ _ w' => InOrder calls w') (s, fun _ => .start) es := by
  refine AllSteps.of_invariant (I := fun w => Queued calls w.1 w.2) ?_ (queued_start hs) hnot
  intro w e w' h hstep hnot
  have hw' := h.step hnot hstep
  exact ⟨hw', hw'.inOrder⟩

/-- While no other call has a number, a call overtakes none. -/
lemma not_overtakes_of_alone {w : AppState × (ι → DataPhase)}
    (h : ∀ j, j ≠ i → (w.2 j).seq? = none) : ¬Overtakes calls w i := by
  rintro ⟨j, seq, seq', hi, hj, hlt, -⟩
  by_cases hji : j = i
  · rw [hji, hi] at hj
    exact absurd (Option.some.inj hj) hlt.ne'
  · rw [h j hji] at hj
    cases hj

end Step

end Calls

/-! ### Two senders in a room -/

/-- Three clients in a room, with nothing sent so far. -/
def threeInLobby : AppState :=
  { AppState.new {} Redis.empty with
    wsSenders := ((∅ : DashMap ℕ).insert "alice" 0).insert "bob" 1 |>.insert "carol" 2
    rooms := (∅ : DashMap (Finset String)).insert "lobby" {"alice", "bob", "carol"}
    nextChan := 3 }

/-- The one client and the other send to the room. -/
def twoSenders (first : Bool) : DataCall where
  clientId := if first then "alice" else "bob"
  msg := { type_ := .DATA, room := some "lobby" }
  isData := rfl

lemma begins_threeInLobby : Begins threeInLobby where
  apart := by
    intro m m' c hm hm'
    simp only [threeInLobby, FinMap.lookup_insert_ite, Finmap.lookup_empty] at hm hm'
    grind
  channels _ := List.Pairwise.nil
  channelsBelow _ _ hn := absurd hn List.not_mem_nil
  buffers _ := List.Pairwise.nil
  buffersBelow _ _ hm := absurd hm List.not_mem_nil

/-- One call after the other. -/
def oneByOne : List (Bool × Env) :=
  (List.replicate 5 true ++ List.replicate 5 false).map fun first => (first, Env.quiet 0)

theorem data_in_order_one_by_one :
    (run (dataStep { enableRelay := true } twoSenders) (threeInLobby, fun _ => .start)
        oneByOne).isSome ∧
      AllSteps (dataStep { enableRelay := true } twoSenders) (fun _ _ w' => InOrder twoSenders w')
        (threeInLobby, fun _ => .start) oneByOne := by
  refine ⟨by decide +kernel, data_in_order begins_threeInLobby ?_⟩
  have halone : AllSteps (dataStep { enableRelay := true } twoSenders)
      (fun w e _ => ∀ j, j ≠ e.1 → (w.2 j).seq? = none) (threeInLobby, fun _ => .start)
      oneByOne := by decide +kernel
  exact AllSteps.of_invariant (I := fun _ => True)
    (fun _ _ _ _ _ h => ⟨trivial, not_overtakes_of_alone h⟩) trivial halone

/-- `alice` takes her number first, but `bob` sends and pushes before her. -/
theorem data_overtaken :
    ¬∀ (cfg : Config) (calls : Bool → DataCall) (s : AppState) (es : List (Bool × Env))
      (w : AppState × (Bool → DataPhase)), Begins s →
      run (dataStep cfg calls) (s, fun _ => .start) es = some w → InOrder calls w := by
  intro hall
  have heval : (run (dataStep { enableRelay := true } twoSenders)
      (threeInLobby, fun _ => .start)
      (([true] ++ List.replicate 5 false ++ List.replicate 4 true).map
        fun first => (first, Env.quiet 0))).map
      (fun w => (dataSeqs (w.1.chans 2).queue,
        (w.1.replayBuffer.held "lobby").map BufferedMessage.seq,
        w.1.replayBuffer.oldestSeq "lobby")) = some ([2, 1], [2, 1], some 2) := by
    decide +kernel
  obtain ⟨w, hrun, hw⟩ := Option.map_eq_some_iff.mp heval
  have horder := (hall _ _ _ _ w begins_threeInLobby hrun).channels 2
  rw [(Prod.mk.inj hw).1] at horder
  exact absurd horder (by decide)

end Dendri
