import Dendri.Handlers.Admin
import Dendri.Server.Email
import Dendri.Server.RedisRealm
import Dendri.Server.State

/-!
`handlers/api.rs`: the requests that give out a peer id, the ids of the peers and
credentials for a TURN server.

* `ApiConfig`: the configuration, with the fields these handlers read;
* `getId`, `getPeers`, `turnCredentials`: the handlers;
* `turnUsername_inj`: the expiry and the peer id in a TURN username cannot be mistaken for
  one another, whatever the peer id is.
-/

namespace Dendri

open Keyspace

/-- `Config`, with the fields that only these handlers read. -/
structure ApiConfig extends Config where
  allowDiscovery : Bool := false
  discoveryToken : Option String := none
  turnSecret : Option String := none
  turnServers : List String := []

/-! ### Peer ids -/

/-- `get_id`: the status of an error, or the id. `uuids` are the ids that `Uuid::new_v4` gives
in turn; while all of them are taken, the request has no answer. -/
def getId (cfg : ApiConfig) (db : Db) (now : ℕ) (uuids : List String) (key : String) :
    Option (Except ℕ String) :=
  if key ≠ cfg.key then some (.error 401)
  else
    match RedisRealm.generateClientId db now uuids with
    | none => some (.error 500)
    | some none => none
    | some (some id) => some (.ok id)

/-- `PeersQuery`. -/
structure PeersQuery where
  room : Option String := none
  token : Option String := none

/-- `get_peers`: the status of an error, or the ids. -/
def getPeers (order : SetOrder String) (cfg : ApiConfig) (s : AppState) (db : Db) (now : ℕ)
    (key : String) (params : PeersQuery) : Except ℕ (List String) :=
  if key ≠ cfg.key then .error 401
  else if cfg.allowDiscovery = false then .error 401
  else if (cfg.discoveryToken.any fun expected => params.token != some expected) = true then
    .error 401
  else
    match params.room with
    | some roomName => .ok (order.toList ((s.rooms.lookup roomName).getD ∅))
    | none =>
        match RedisRealm.getAllClientIds db now with
        | some ids => .ok (order.toList ids)
        | none => .error 500

/-! ### TURN credentials -/

/-- The TURN username of a peer, at `now` milliseconds. -/
def turnUsername (now : ℕ) (peerId : String) : String :=
  (now / 1000 + 86400).repr ++ ":" ++ peerId

/-- The digits before the first colon are the expiry, whatever the peer id is. -/
lemma turnUsername_split (now : ℕ) (peerId : String) :
    (turnUsername now peerId).toList.takeWhile (· ≠ ':') = Nat.toDigits 10 (now / 1000 + 86400) ∧
      (turnUsername now peerId).toList.dropWhile (· ≠ ':') = ':' :: peerId.toList := by
  have hdigits : ∀ c ∈ Nat.toDigits 10 (now / 1000 + 86400), decide (c ≠ ':') = true := by
    intro c hc
    rw [decide_eq_true_eq]
    rintro rfl
    exact absurd (Nat.isDigit_of_mem_toDigits (by decide) (by decide) hc) (by decide)
  have htext : (turnUsername now peerId).toList =
      Nat.toDigits 10 (now / 1000 + 86400) ++ ':' :: peerId.toList := by
    rw [turnUsername, String.toList_append, String.toList_append, Nat.toList_repr, List.append_assoc]
    rfl
  rw [htext, List.takeWhile_append_of_pos hdigits, List.dropWhile_append_of_pos hdigits]
  simp

/-- The username says when the credentials expire and for which peer they are. -/
theorem turnUsername_inj {now now' : ℕ} {peerId peerId' : String} :
    turnUsername now peerId = turnUsername now' peerId' ↔
      now / 1000 = now' / 1000 ∧ peerId = peerId' := by
  constructor
  · intro h
    obtain ⟨hexpiry, hpeer⟩ := turnUsername_split now peerId
    obtain ⟨hexpiry', hpeer'⟩ := turnUsername_split now' peerId'
    rw [h] at hexpiry hpeer
    have hnumber : now / 1000 + 86400 = now' / 1000 + 86400 := by
      calc now / 1000 + 86400 = Nat.ofDigitChars 10 (Nat.toDigits 10 (now / 1000 + 86400)) 0 :=
            Nat.ofDigitChars_ten_toDigits.symm
        _ = Nat.ofDigitChars 10 (Nat.toDigits 10 (now' / 1000 + 86400)) 0 := by
            rw [hexpiry.symm.trans hexpiry']
        _ = now' / 1000 + 86400 := Nat.ofDigitChars_ten_toDigits
    refine ⟨Nat.add_right_cancel hnumber, String.toList_inj.mp ?_⟩
    exact (List.cons.inj (hpeer.symm.trans hpeer')).2
  · rintro ⟨hnow, rfl⟩
    rw [turnUsername, turnUsername, hnow]

/-- `turn_credentials`. A key of any length is one for `HmacSha1`. -/
def turnCredentials (hmacSha1 : List UInt8 → List UInt8 → List UInt8)
    (base64Std : List UInt8 → String) (cfg : ApiConfig) (now : ℕ) (key : String)
    (peerId : Option String) : Response :=
  if key ≠ cfg.key then ⟨401, none⟩
  else
    match cfg.turnSecret with
    | none => .error 503 "TURN not configured"
    | some secret =>
        let username := turnUsername now (peerId.getD "dendri")
        let credential := base64Std (hmacSha1 (strBytes secret) (strBytes username))
        .json 200 [("iceServers", .array (cfg.turnServers.map fun url =>
            .object [("urls", .string url), ("username", .string username),
              ("credential", .string credential)])),
          ("ttl", .number (86400 : ℕ).repr)]

end Dendri
