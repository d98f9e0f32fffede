import Scproxy.ProxyConfig

namespace Scproxy

def Ipv4Addr.fmt (addr : Ipv4Addr) : String :=
  joinWith '.' (addr.octets.map fun octet => toString octet.toNat)

namespace Ipv6Addr

def hex (segment : UInt16) : String := String.ofList (Nat.toDigits 16 segment.toNat)

/-- The first of the longest runs of zero segments, as a start and a length. -/
def longestZeroes (segments : List UInt16) : Nat × Nat :=
  let step := fun (state : (Nat × Nat) × (Nat × Nat) × Nat) segment =>
    let (longest, current, i) := state
    if segment = 0 then
      let current := if current.2 = 0 then (i, 1) else (current.1, current.2 + 1)
      (if longest.2 < current.2 then current else longest, current, i + 1)
    else (longest, (0, 0), i + 1)
  (segments.foldl step ((0, 0), (0, 0), 0)).1

def toIpv4Mapped (addr : Ipv6Addr) : Option Ipv4Addr :=
  match addr.segments with
  | [0, 0, 0, 0, 0, 0xFFFF, hi, lo] => some ⟨UInt32.ofNat (hi.toNat * 2 ^ 16 + lo.toNat)⟩
  | _ => none

def fmt (addr : Ipv6Addr) : String :=
  match addr.toIpv4Mapped with
  | some mapped => "::ffff:" ++ mapped.fmt
  | none =>
    let (start, len) := longestZeroes addr.segments
    if 1 < len then
      joinWith ':' ((addr.segments.take start).map hex) ++ "::" ++
        joinWith ':' ((addr.segments.drop (start + len)).map hex)
    else joinWith ':' (addr.segments.map hex)

end Ipv6Addr

def IpAddr.fmt : IpAddr → String
  | .v4 addr => addr.fmt
  | .v6 addr => addr.fmt

def ProxyTarget.fmt : ProxyTarget → String
  | .domain host port => host ++ ":" ++ toString port.toNat
  | .ip addr port => addr.fmt ++ ":" ++ toString port.toNat

def b64Alphabet : List Char :=
  "ABCDEFGHIJKLMNOPQRSTUVWXYZabcdefghijklmnopqrstuvwxyz0123456789+/".toList

def b64Digit (combined shift : Nat) : Char :=
  b64Alphabet.get ⟨(combined >>> shift) &&& 0x3F, Nat.lt_of_le_of_lt Nat.and_le_right (by decide)⟩

def combine (b0 b1 b2 : Nat) : Nat := (b0 <<< 16) ||| (b1 <<< 8) ||| b2

def encodeChunks : List UInt8 → List Char
  | [] => []
  | [b0] =>
    let combined := combine b0.toNat 0 0
    [b64Digit combined 18, b64Digit combined 12, '=', '=']
  | [b0, b1] =>
    let combined := combine b0.toNat b1.toNat 0
    [b64Digit combined 18, b64Digit combined 12, b64Digit combined 6, '=']
  | b0 :: b1 :: b2 :: rest =>
    let combined := combine b0.toNat b1.toNat b2.toNat
    [b64Digit combined 18, b64Digit combined 12, b64Digit combined 6, b64Digit combined 0] ++
      encodeChunks rest

def base64Encode (input : List UInt8) : String := String.ofList (encodeChunks input)

def authorization : Option (String × String) → String
  | none => ""
  | some (user, pass) =>
    "Proxy-Authorization: Basic " ++ base64Encode (asBytes (user ++ ":" ++ pass)) ++ "\r\n"

/-- The request that `do_connect` writes to the proxy. -/
def connectRequest (target : ProxyTarget) (auth : Option (String × String)) : String :=
  "CONNECT " ++ target.fmt ++ " HTTP/1.1\r\nHost: " ++ target.fmt ++ "\r\n" ++
    authorization auth ++ "\r\n"

end Scproxy
