import Dendri.Lib.IpAddress
import Dendri.Server.Tenant

/-!
`is_safe_webhook_url` of `webhook.rs`. Parsing a URL is the `url` crate's; a
parsed URL has its scheme and, for most schemes, a host, whose text is that of
`Url::host_str`: an IP address in its normal form, one of version 6 in brackets,
or a domain in ASCII.
-/

namespace Dendri

open IpAddress

/-- `url::Host`. -/
inductive Host where
  | domain (name : String)
  | ipv4 (address : Ipv4)
  | ipv6 (address : Ipv6)

/-- `Url::host_str`. -/
def Host.str : Host → List Char
  | domain name => name.toList
  | ipv4 address => address.text
  | ipv6 address => '[' :: (address.text ++ [']'])

/-- What the filter reads of a parsed `Url`. -/
structure Url where
  scheme : String
  host : Option Host

/-- `str::eq_ignore_ascii_case`. -/
def eqIgnoreAsciiCase (s t : List Char) : Bool :=
  s.map toAsciiLowercase == t.map toAsciiLowercase

/-- `str::parse::<u8>`: an optional sign and digits, at most 255. -/
def parseU8 (s : List Char) : Option ℕ :=
  let digits :=
    match s with
    | '+' :: digits => digits
    | _ => s
  if digits ≠ [] ∧ digits.all Char.isDigit = true ∧ Nat.ofDigitChars 10 digits 0 ≤ 255 then
    some (Nat.ofDigitChars 10 digits 0)
  else none

/-- `BLOCKED_LITERALS`. -/
def blockedLiterals : List (List Char) :=
  ["localhost", "127.0.0.1", "0.0.0.0", "169.254.169.254", "::1", "fd00::", "fe80::"].map
    String.toList

/-- `prefix_blocks`. -/
def prefixBlocks : List (List Char) :=
  ["127.", "fc00:", "fd00:", "fe80:", "10.", "172.16.", "192.168."].map String.toList

/-- The host begins with one of the blocked prefixes. -/
def hasBlockedPrefix (host : List Char) : Bool :=
  prefixBlocks.any fun p => p.length ≤ host.length && eqIgnoreAsciiCase (host.take p.length) p

/-- The check of the range `172.16.0.0/12`. -/
def inPrivateTwelve (host : List Char) : Bool :=
  7 ≤ host.length && "172.".toList.isPrefixOf host &&
    match parseU8 ((host.drop 4).takeWhile (· ≠ '.')) with
    | some n => 16 ≤ n && n ≤ 31
    | none => false

/-- The checks of the host. -/
def hostBlocked (host : List Char) : Bool :=
  blockedLiterals.any (eqIgnoreAsciiCase host) || hasBlockedPrefix host || inPrivateTwelve host

/-- `is_safe_webhook_url`, with the parser of the `url` crate. -/
def isSafeWebhookUrl (parse : String → Option Url) (url : String) : Bool :=
  match parse url with
  | none => false
  | some parsed =>
      if parsed.scheme = "http" ∨ parsed.scheme = "https" then
        match parsed.host with
        | none => false
        | some host => !hostBlocked host.str
      else false

end Dendri
