import Dendri.Lib.FinMap

/-!
`replay_buffer.rs`: the ring buffers of recent messages, one for each key. A
key is a client id or the storage key of a room; both live in one map.

* `push`, `replaySince`, `oldestSeq`, `removeClient`, `evictExpired`: the five
  operations, with the clock as an argument;
* `holds_push`, `holds_removeClient`, `holds_evictExpired`: what a buffer holds
  after an operation was there before it or is the message just pushed;
* `holds_of_mem_replaySince`: a replayed message is in the buffer of its key.
-/

namespace Dendri

/-- `BufferedMessage`, over the type `δ` of the stored data. -/
structure BufferedMessage (δ : Type) where
  seq : ℕ
  data : δ
  createdAt : ℕ
  deriving DecidableEq

/-- `ReplayBuffer`. -/
structure ReplayBuffer (δ : Type) where
  buffers : Finmap fun _ : String => List (BufferedMessage δ)
  maxSize : ℕ
  ttlMs : ℕ

namespace ReplayBuffer

variable {δ : Type}

/-- Drop the messages older than the TTL from the front. -/
def dropExpired (ttlMs now : ℕ) (msgs : List (BufferedMessage δ)) : List (BufferedMessage δ) :=
  msgs.dropWhile fun m => decide (ttlMs ≤ now - m.createdAt)

/-- `push`: evict by age, then one message by capacity, then append. -/
def push (b : ReplayBuffer δ) (now : ℕ) (key : String) (seq : ℕ) (data : δ) : ReplayBuffer δ :=
  let msgs := dropExpired b.ttlMs now ((b.buffers.lookup key).getD [])
  let msgs := if b.maxSize ≤ msgs.length then msgs.tail else msgs
  { b with buffers := b.buffers.insert key (msgs ++ [⟨seq, data, now⟩]) }

/-- `replay_since`: the data of the messages with a larger sequence number
that are still within the TTL. -/
def replaySince (b : ReplayBuffer δ) (now : ℕ) (key : String) (sinceSeq : ℕ) : List δ :=
  match b.buffers.lookup key with
  | none => []
  | some msgs =>
      (msgs.filter fun m => decide (sinceSeq < m.seq) && decide (now - m.createdAt < b.ttlMs)).map
        BufferedMessage.data

/-- `oldest_seq`: the sequence number at the front of the buffer. -/
def oldestSeq (b : ReplayBuffer δ) (key : String) : Option ℕ :=
  (b.buffers.lookup key).bind fun msgs => msgs.head?.map BufferedMessage.seq

/-- `remove_client`. -/
def removeClient (b : ReplayBuffer δ) (key : String) : ReplayBuffer δ :=
  { b with buffers := b.buffers.erase key }

/-- One round of the loop of `evict_expired`. -/
def evictKey (now : ℕ) (b : ReplayBuffer δ) (key : String) : ReplayBuffer δ :=
  match b.buffers.lookup key with
  | none => b
  | some msgs =>
      let msgs := dropExpired b.ttlMs now msgs
      if msgs.isEmpty then { b with buffers := b.buffers.erase key }
      else { b with buffers := b.buffers.insert key msgs }

/-- `evict_expired`, over the keys in the order `order`. -/
def evictExpired (b : ReplayBuffer δ) (order : SetOrder String) (now : ℕ) : ReplayBuffer δ :=
  (order.toList b.buffers.keys).foldl (evictKey now) b

/-! ### What a buffer can hold -/

/-- The message `m` is buffered under `key`. -/
def Holds (b : ReplayBuffer δ) (key : String) (m : BufferedMessage δ) : Prop :=
  ∃ msgs, b.buffers.lookup key = some msgs ∧ m ∈ msgs

lemma mem_of_mem_dropExpired {ttlMs now : ℕ} {msgs : List (BufferedMessage δ)}
    {m : BufferedMessage δ} (h : m ∈ dropExpired ttlMs now msgs) : m ∈ msgs :=
  (List.dropWhile_sublist _).subset h

/-- After a push a buffer holds what it held before, and the message pushed. -/
lemma holds_push {b : ReplayBuffer δ} {now : ℕ} {key k : String} {seq : ℕ} {data : δ}
    {m : BufferedMessage δ} (h : (b.push now key seq data).Holds k m) :
    b.Holds k m ∨ (k = key ∧ m = ⟨seq, data, now⟩) := by
  obtain ⟨msgs, hl, hm⟩ := h
  simp only [push, FinMap.lookup_insert_ite] at hl
  split_ifs at hl with hk hcap
  · rw [Option.some.injEq] at hl
    subst hl hk
    rcases List.mem_append.mp hm with hold | hnew
    · have hmem := mem_of_mem_dropExpired (List.mem_of_mem_tail hold)
      cases hb : b.buffers.lookup k with
      | none => rw [hb] at hmem; exact absurd hmem (by simp)
      | some msgs => rw [hb] at hmem; exact Or.inl ⟨msgs, hb, hmem⟩
    · exact Or.inr ⟨rfl, List.mem_singleton.mp hnew⟩
  · rw [Option.some.injEq] at hl
    subst hl hk
    rcases List.mem_append.mp hm with hold | hnew
    · have hmem := mem_of_mem_dropExpired hold
      cases hb : b.buffers.lookup k with
      | none => rw [hb] at hmem; exact absurd hmem (by simp)
      | some msgs => rw [hb] at hmem; exact Or.inl ⟨msgs, hb, hmem⟩
    · exact Or.inr ⟨rfl, List.mem_singleton.mp hnew⟩
  · exact Or.inl ⟨msgs, hl, hm⟩

/-- Removing a client's buffer leaves every other buffer as it was. -/
lemma holds_removeClient {b : ReplayBuffer δ} {key k : String} {m : BufferedMessage δ} :
    (b.removeClient key).Holds k m ↔ b.Holds k m ∧ k ≠ key := by
  simp only [Holds, removeClient, FinMap.lookup_erase_ite]
  constructor
  · rintro ⟨msgs, hl, hm⟩
    split_ifs at hl with hk
    exact ⟨⟨msgs, hl, hm⟩, hk⟩
  · rintro ⟨⟨msgs, hl, hm⟩, hk⟩
    exact ⟨msgs, by rw [if_neg hk, hl], hm⟩

lemma holds_evictKey {b : ReplayBuffer δ} {now : ℕ} {key k : String} {m : BufferedMessage δ}
    (h : (evictKey now b key).Holds k m) : b.Holds k m := by
  rw [evictKey] at h
  cases hb : b.buffers.lookup key with
  | none => rw [hb] at h; exact h
  | some msgs =>
      obtain ⟨rest, hl, hm⟩ := h
      simp only [hb] at hl
      split_ifs at hl with hempty
      · rw [FinMap.lookup_erase_ite] at hl
        split_ifs at hl
        exact ⟨rest, hl, hm⟩
      · rw [FinMap.lookup_insert_ite] at hl
        split_ifs at hl with hk
        · rw [Option.some.injEq] at hl
          subst hl hk
          exact ⟨msgs, hb, mem_of_mem_dropExpired hm⟩
        · exact ⟨rest, hl, hm⟩

/-- The periodic eviction adds no message to any buffer. -/
lemma holds_evictExpired {b : ReplayBuffer δ} {order : SetOrder String} {now : ℕ} {k : String}
    {m : BufferedMessage δ} (h : (b.evictExpired order now).Holds k m) : b.Holds k m := by
  rw [evictExpired] at h
  generalize order.toList b.buffers.keys = keys at h
  induction keys generalizing b with
  | nil => exact h
  | cons key keys ih => exact holds_evictKey (ih h)

/-- A replayed datum belongs to a message in the buffer of its key. -/
lemma holds_of_mem_replaySince {b : ReplayBuffer δ} {now : ℕ} {key : String} {sinceSeq : ℕ}
    {d : δ} (h : d ∈ b.replaySince now key sinceSeq) :
    ∃ m, b.Holds key m ∧ m.data = d := by
  rw [replaySince] at h
  cases hb : b.buffers.lookup key with
  | none => rw [hb] at h; exact absurd h (by simp)
  | some msgs =>
      rw [hb] at h
      obtain ⟨m, hm, rfl⟩ := List.mem_map.mp h
      exact ⟨m, ⟨msgs, hb, List.mem_of_mem_filter hm⟩, rfl⟩

end ReplayBuffer

end Dendri
