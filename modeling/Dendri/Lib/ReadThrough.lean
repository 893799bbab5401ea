import Mathlib.Tactic

/-!
A cache in front of a store that others change. An answer of the store is put in the cache
some time after it was fetched, and is given out until it is too old.

* `Fetch`: an answer of the store;
* `Fresh bound log k v now`: the value was fetched for the key at most `bound` before `now`;
* `Fetched delay log cache`: the invariant of the cache. Every entry was fetched at most
  `delay` before it was put there;
* `Fetched.put`, `Fetched.empty`, `Fetched.mono`: what keeps it;
* `Fetched.get`: an entry that is not older than `ttl` is fresh up to `ttl + delay`.
-/

namespace ReadThrough

variable {K V : Type*}

/-- An answer of the store for a key. -/
structure Fetch (K V : Type*) where
  key : K
  value : V
  time : ℕ

/-- The value was fetched for the key, and not too long ago. -/
def Fresh (bound : ℕ) (log : List (Fetch K V)) (k : K) (v : V) (now : ℕ) : Prop :=
  ∃ f ∈ log, f.key = k ∧ f.value = v ∧ now ≤ f.time + bound

/-- Every entry was fetched shortly before it was stored. -/
def Fetched (delay : ℕ) (log : List (Fetch K V)) (cache : K → Option (V × ℕ)) : Prop :=
  ∀ k v storedAt, cache k = some (v, storedAt) → Fresh delay log k v storedAt

variable {bound delay : ℕ} {log log' : List (Fetch K V)} {cache : K → Option (V × ℕ)}

lemma Fresh.mono {k : K} {v : V} {now bound' : ℕ} (h : Fresh bound log k v now) (hlog : log ⊆ log')
    (hbound : bound ≤ bound') : Fresh bound' log' k v now := by
  obtain ⟨f, hf, hkey, hvalue, htime⟩ := h
  exact ⟨f, hlog hf, hkey, hvalue, by omega⟩

/-- A value that was fresh is so for some more time, up to a larger bound. -/
lemma Fresh.later {k : K} {v : V} {now now' age : ℕ} (h : Fresh bound log k v now)
    (hage : now' ≤ now + age) : Fresh (age + bound) log k v now' := by
  obtain ⟨f, hf, hkey, hvalue, htime⟩ := h
  exact ⟨f, hf, hkey, hvalue, by omega⟩

lemma Fetched.empty : Fetched delay log fun _ => none :=
  fun _ _ _ h => absurd h (by simp)

lemma Fetched.mono (h : Fetched delay log cache) (hlog : log ⊆ log') : Fetched delay log' cache :=
  fun k v storedAt hentry => (h k v storedAt hentry).mono hlog le_rfl

/-- A fresh value is stored. -/
lemma Fetched.put [DecidableEq K] {k : K} {v : V} {now : ℕ} (h : Fetched delay log cache)
    (hfresh : Fresh delay log k v now) : Fetched delay log (Function.update cache k (some (v, now))) := by
  intro j u storedAt hentry
  rw [Function.update_apply] at hentry
  split_ifs at hentry with hj
  · obtain ⟨rfl, rfl⟩ := Prod.mk.inj (Option.some.inj hentry)
    rw [hj]
    exact hfresh
  · exact h j u storedAt hentry

/-- An entry that is not too old is given out. -/
lemma Fetched.get {k : K} {v : V} {storedAt now ttl : ℕ} (h : Fetched delay log cache)
    (hentry : cache k = some (v, storedAt)) (hage : now - storedAt ≤ ttl) :
    Fresh (ttl + delay) log k v now :=
  (h k v storedAt hentry).later (by omega)

end ReadThrough
