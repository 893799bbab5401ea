import Dendri.Lib.PercentEncoding

/-!
`email.rs`: the parameters of a mail request and their signature, and the timestamp
of a request. The HMAC and the base64 alphabet are those of the `hmac`, `sha1` and
`base64` crates.

* `rfc3986`, `stringToSign`, `Mailer.sign`: the signature;
* `civilFromDays`, `iso8601Utc`: the timestamp, in `i64` arithmetic.
-/

namespace Dendri

open PercentEncoding

/-- `str::bytes`. -/
def strBytes (s : String) : List UInt8 := s.toByteArray.data.toList

/-- `rfc3986`. -/
def rfc3986 (s : String) : String := String.ofList (encode (strBytes s))

/-- The fields of `Mailer` that go into a request. -/
structure Mailer where
  accessKeyId : String
  accessKeySecret : String
  region : String
  from_ : String
  fromAlias : String := "Dendri"

/-- `a.0.cmp(&b.0)`: names in the order of their bytes. -/
def nameLe (a b : String × String) : Bool :=
  decide ((strBytes a.1).map UInt8.toNat ≤ (strBytes b.1).map UInt8.toNat)

/-- The canonicalized query string of `sign`. -/
def canonical (params : List (String × String)) : String :=
  "&".intercalate ((params.mergeSort nameLe).map fun p => rfc3986 p.1 ++ "=" ++ rfc3986 p.2)

/-- The string-to-sign of `sign`. -/
def stringToSign (method : String) (params : List (String × String)) : String :=
  method ++ "&" ++ rfc3986 "/" ++ "&" ++ rfc3986 (canonical params)

/-- `Mailer::sign`. -/
def Mailer.sign (hmacSha1 : List UInt8 → List UInt8 → List UInt8)
    (base64Std : List UInt8 → String) (m : Mailer) (method : String)
    (params : List (String × String)) : String :=
  base64Std (hmacSha1 (strBytes (m.accessKeySecret ++ "&")) (strBytes (stringToSign method params)))

/-- The parameters of `Mailer::send`. -/
def Mailer.params (m : Mailer) (nonce ts toAddress subject html : String) :
    List (String × String) :=
  [("Format", "JSON"), ("Version", "2015-11-23"), ("AccessKeyId", m.accessKeyId),
    ("SignatureMethod", "HMAC-SHA1"), ("SignatureVersion", "1.0"), ("SignatureNonce", nonce),
    ("Timestamp", ts), ("RegionId", m.region), ("Action", "SingleSendMail"),
    ("AccountName", m.from_), ("AddressType", "1"), ("ReplyToAddress", "false"),
    ("FromAlias", m.fromAlias), ("ToAddress", toAddress), ("Subject", subject), ("HtmlBody", html)]

/-! ### The timestamp -/

/-- `civil_from_days`. -/
def civilFromDays (z : Int64) : Int64 × Int64 × Int64 :=
  let z := z + 719468
  let era := (if 0 ≤ z then z else z - 146096) / 146097
  let doe := z - era * 146097
  let yoe := (doe - doe / 1460 + doe / 36524 - doe / 146096) / 365
  let y := yoe + era * 400
  let doy := doe - (365 * yoe + yoe / 4 - yoe / 100)
  let mp := (5 * doy + 2) / 153
  let d := doy - (153 * mp + 2) / 5 + 1
  let m := if mp < 10 then mp + 3 else mp - 9
  (if m ≤ 2 then y + 1 else y, m, d)

/-- `i64::div_euclid`. -/
def divEuclid (a b : Int64) : Int64 :=
  if a % b < 0 then if 0 < b then a / b - 1 else a / b + 1 else a / b

/-- `i64::rem_euclid`. -/
def remEuclid (a b : Int64) : Int64 :=
  if a % b < 0 then a % b + (if b < 0 then -b else b) else a % b

/-- An integer with the format `{:0width}`: the zeros stand behind the sign. -/
def zeroPadded (width : ℕ) (n : Int64) : List Char :=
  let digits := Nat.toDigits 10 n.toInt.natAbs
  if n < 0 then '-' :: (List.replicate (width - 1 - digits.length) '0' ++ digits)
  else List.replicate (width - digits.length) '0' ++ digits

/-- `iso8601_utc` at a time in nanoseconds since the epoch. A time before the epoch
is taken for the epoch. -/
def iso8601Utc (t : ℤ) : String :=
  let secs := (UInt64.ofNat (t.toNat / 1000000000)).toInt64
  let days := divEuclid secs 86400
  let rem := remEuclid secs 86400
  let (h, mi, s) := (rem / 3600, (rem % 3600) / 60, rem % 60)
  let (y, m, d) := civilFromDays days
  String.ofList (zeroPadded 4 y ++ '-' :: (zeroPadded 2 m ++ '-' :: (zeroPadded 2 d ++ 'T' ::
    (zeroPadded 2 h ++ ':' :: (zeroPadded 2 mi ++ ':' :: (zeroPadded 2 s ++ 'Z' :: []))))))

end Dendri
