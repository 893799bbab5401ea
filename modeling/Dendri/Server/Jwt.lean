import Mathlib.Tactic

/-!
`jwt.rs` without the signature check, which is the `jsonwebtoken` crate's: the
JSON values claims are made of, the room list, the `tid` rule and the choice
of the secret. `Tenant` is the record of `tenant.rs`.
-/

namespace Dendri

/-- `serde_json::Value`. Numbers are never looked at, so they stay text. -/
inductive Value where
  | null
  | bool (b : Bool)
  | number (text : String)
  | string (s : String)
  | array (xs : List Value)
  | object (fields : List (String × Value))

namespace Value

/-- `Value::get` with a string key. -/
def get (v : Value) (key : String) : Option Value :=
  match v with
  | object fields => fields.lookup key
  | _ => none

/-- `Value::as_array`. -/
def asArray : Value → Option (List Value)
  | array xs => some xs
  | _ => none

/-- `Value::as_str`. -/
def asStr : Value → Option String
  | string s => some s
  | _ => none

end Value

/-- `room_allowed`: a `rooms` claim that is an array must list the room. -/
def roomAllowed (claims : Value) (room : String) : Bool :=
  match (claims.get "rooms").bind Value.asArray with
  | none => true
  | some rooms => rooms.any fun r => r.asStr == some room

/-- `effective_jwt_secret`: the tenant's secret, else the global one. -/
def effectiveJwtSecret (tenantSecret globalSecret : Option String) : Option String :=
  tenantSecret.or globalSecret

/-- `tid_matches`: a `tid` claim must be the tenant's id. -/
def tidMatches (claims : Value) (tenantId : String) : Bool :=
  match (claims.get "tid").bind Value.asStr with
  | none => true
  | some tid => tid == tenantId

/-- `Tenant`. -/
structure Tenant where
  id : String
  name : String
  origins : List String := []
  active : Bool := true
  maxRooms : ℕ := 0
  maxPeers : ℕ := 0
  email : Option String := none
  jwtSecret : Option String := none
  deriving DecidableEq, Repr

end Dendri
