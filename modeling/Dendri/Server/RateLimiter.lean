import Dendri.Lib.FinMap
import Dendri.Lib.Meter

/-!
`rate_limiter.rs`, with the buckets themselves. `AppState` keeps which buckets there are and
takes their verdicts from outside; here they are the buckets of the `governor` crate.

* `Governor`: what is used of that crate;
* `Limiter`, `checkAndConsume`, `removeClient`: the rate limiter;
* `RateLimits`: the limits of the configuration.
-/

namespace Dendri

/-- What is used of the `governor` crate: a bucket for a number of cells in a second, made at a
time in milliseconds, and its answer at a time. -/
structure Governor where
  Bucket : Type
  direct : (limit now : ℕ) → Bucket
  check : (now : ℕ) → Bucket → Bucket × Bool

/-- `RateLimiter`, the buckets by client and bucket type. -/
structure Limiter (G : Governor) where
  buckets : Finmap fun _ : String × String => G.Bucket

/-- `NonZeroU32::new(limit).unwrap_or(NonZeroU32::MIN)`. -/
def nonZeroLimit (limit : UInt32) : ℕ := max limit.toNat 1

namespace Limiter

variable {G : Governor}

/-- `RateLimiter::new`. -/
def new : Limiter G := ⟨∅⟩

/-- `RateLimiter::check_and_consume`. The limit counts when the bucket is made. -/
def checkAndConsume (r : Limiter G) (now : ℕ) (clientId bucketType : String) (limit : UInt32) :
    Limiter G × Bool :=
  let key := (clientId, bucketType)
  let entry := (r.buckets.lookup key).getD (G.direct (nonZeroLimit limit) now)
  let (entry, allowed) := G.check now entry
  (⟨r.buckets.insert key entry⟩, allowed)

/-- `RateLimiter::remove_client`. -/
def removeClient (r : Limiter G) (clientId : String) : Limiter G :=
  ⟨FinMap.retain (fun key => decide (key.1 ≠ clientId)) r.buckets⟩

lemma keys_checkAndConsume (r : Limiter G) (now : ℕ) (clientId bucketType : String)
    (limit : UInt32) : (r.checkAndConsume now clientId bucketType limit).1.buckets.keys =
      insert (clientId, bucketType) r.buckets.keys :=
  FinMap.keys_insert _ _ _

lemma keys_removeClient (r : Limiter G) (clientId : String) :
    (r.removeClient clientId).buckets.keys = r.buckets.keys.filter fun key => key.1 ≠ clientId := by
  ext key
  rw [Finset.mem_filter, Finmap.mem_keys, ← Finmap.lookup_isSome, removeClient,
    FinMap.lookup_retain, Finmap.mem_keys, ← Finmap.lookup_isSome]
  by_cases h : key.1 = clientId <;> simp [h]

end Limiter

/-- `Config::rate_limit_signaling` and `Config::rate_limit_data`. -/
structure RateLimits where
  signaling : UInt32 := 50
  data : UInt32 := 100

/-- The limit that a message is checked against, by its bucket. -/
def RateLimits.of (limits : RateLimits) (bucket : String) : UInt32 :=
  if bucket = "data" then limits.data else limits.signaling

end Dendri
