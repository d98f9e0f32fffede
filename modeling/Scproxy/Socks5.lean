import Scproxy.HttpConnect
import Scproxy.ProxyStream

namespace Scproxy

/-- What the operating system makes of the connection to the proxy server and of
each message written to it. -/
structure ProxyOs where
  connect : String → Except IoError (Source UInt8 IoError)
  write : List UInt8 → Except IoError Unit

/-- The format `{:02X}`. -/
def upperHex (byte : UInt8) : String :=
  String.ofList ([byte.toNat / 16, byte.toNat % 16].map fun digit => digit.digitChar.toUpper)

structure Socks5Connector where
  server : String
  auth : Option (String × String)

namespace Socks5

def version : UInt8 := 0x05
def methodNoAuth : UInt8 := 0x00
def methodUserPass : UInt8 := 0x02
def methodNoAcceptable : UInt8 := 0xFF
def cmdConnect : UInt8 := 0x01
def rsv : UInt8 := 0x00
def atypIpv4 : UInt8 := 0x01
def atypDomain : UInt8 := 0x03
def atypIpv6 : UInt8 := 0x04
def repSuccess : UInt8 := 0x00
def authVersion : UInt8 := 0x01
def authSuccess : UInt8 := 0x00

def greeting (hasAuth : Bool) : List UInt8 :=
  let methods := if hasAuth then [methodNoAuth, methodUserPass] else [methodNoAuth]
  [version, UInt8.ofNat methods.length] ++ methods

open Dialogue in
def negotiateMethod (os : ProxyOs) (hasAuth : Bool) : Dialogue UInt8 := do
  let resp ← ask os.write (greeting hasAuth) "SOCKS5: write greeting" 2
    "SOCKS5: read method response"
  if resp.getD 0 0 ≠ version then
    bail ("SOCKS5: server replied with unexpected version 0x" ++ upperHex (resp.getD 0 0))
  else if resp.getD 1 0 = methodNoAuth then
    pure (resp.getD 1 0)
  else if resp.getD 1 0 = methodUserPass then
    if hasAuth then pure (resp.getD 1 0)
    else bail "SOCKS5: server requires authentication but no credentials were provided"
  else if resp.getD 1 0 = methodNoAcceptable then
    bail "SOCKS5: server found no acceptable authentication method"
  else bail ("SOCKS5: server chose unknown auth method 0x" ++ upperHex (resp.getD 1 0))

def credentials (user pass : String) : List UInt8 :=
  [authVersion, UInt8.ofNat (asBytes user).length] ++ asBytes user ++
    [UInt8.ofNat (asBytes pass).length] ++ asBytes pass

open Dialogue in
def authenticate (os : ProxyOs) (user pass : String) : Dialogue Unit := do
  if 255 < (asBytes user).length then
    bail "SOCKS5 auth: username too long (max 255 bytes)"
  else if 255 < (asBytes pass).length then
    bail "SOCKS5 auth: password too long (max 255 bytes)"
  else
    let resp ← ask os.write (credentials user pass) "SOCKS5 auth: write request" 2
      "SOCKS5 auth: read response"
    if resp.getD 1 0 ≠ authSuccess then
      bail ("SOCKS5 auth: authentication failed (status 0x" ++ upperHex (resp.getD 1 0) ++ ")")
    else pure ()

/-- `ATYP DST.ADDR DST.PORT`. -/
def destination : ProxyTarget → Except AnyError (List UInt8)
  | .ip (.v4 addr) port => .ok ([atypIpv4] ++ addr.octets ++ be16 port)
  | .ip (.v6 addr) port => .ok ([atypIpv6] ++ addr.octets ++ be16 port)
  | .domain host port =>
    if 255 < (asBytes host).length then
      .error [.text "SOCKS5: target hostname too long (max 255 bytes)"]
    else .ok ([atypDomain, UInt8.ofNat (asBytes host).length] ++ asBytes host ++ be16 port)

def connectMessage (dest : List UInt8) : List UInt8 := [version, cmdConnect, rsv] ++ dest

def socks5ReplyMessage (rep : UInt8) : String :=
  match rep with
  | 0x01 => "general SOCKS server failure"
  | 0x02 => "connection not allowed by ruleset"
  | 0x03 => "network unreachable"
  | 0x04 => "host unreachable"
  | 0x05 => "connection refused"
  | 0x06 => "TTL expired"
  | 0x07 => "command not supported"
  | 0x08 => "address type not supported"
  | _ => "unknown error"

open Dialogue in
/-- Drains `BND.ADDR` and `BND.PORT`. -/
def skipAddr (atyp : UInt8) : Dialogue Unit := do
  if atyp = atypIpv4 then
    let _ ← readExact 6
  else if atyp = atypIpv6 then
    let _ ← readExact 18
  else if atyp = atypDomain then
    let len ← readExact 1
    let _ ← readExact ((len.getD 0 0).toNat + 2)
  else bail ("SOCKS5: unknown ATYP in reply 0x" ++ upperHex atyp)

open Dialogue in
def sendConnectRequest (os : ProxyOs) (target : ProxyTarget) : Dialogue Unit := do
  let dest ← Prog.ofExcept (destination target)
  let hdr ← ask os.write (connectMessage dest) "SOCKS5: write CONNECT request" 4
    "SOCKS5: read CONNECT reply header"
  if hdr.getD 0 0 ≠ version then
    bail ("SOCKS5: unexpected version in reply 0x" ++ upperHex (hdr.getD 0 0))
  else if hdr.getD 1 0 ≠ repSuccess then
    bail ("SOCKS5: CONNECT to " ++ target.fmt ++ " failed: " ++
      socks5ReplyMessage (hdr.getD 1 0) ++ " (0x" ++ upperHex (hdr.getD 1 0) ++ ")")
  else context "SOCKS5: skip BND address" (skipAddr (hdr.getD 3 0))

end Socks5

namespace Socks5Connector

open Socks5

/-- Steps 1 and 2 of `connect`. -/
def login (os : ProxyOs) (connector : Socks5Connector) : Dialogue Unit := do
  let method ← negotiateMethod os connector.auth.isSome
  if method = methodUserPass then
    match connector.auth with
    | none => Dialogue.bail "SOCKS5: missing credentials"
    | some (user, pass) => authenticate os user pass
  else pure ()

/-- `connect` once there is a connection to the server. -/
def handshake (os : ProxyOs) (connector : Socks5Connector) (target : ProxyTarget) :
    Dialogue ProxyStream := do
  login os connector
  sendConnectRequest os target
  let stream ← Prog.get
  pure (ProxyStream.new stream.inbound [])

/-- Together with what was written and read. -/
def connect (os : ProxyOs) (connector : Socks5Connector) (target : ProxyTarget) :
    Except AnyError ProxyStream × List ExchangeEvent :=
  match os.connect connector.server with
  | .error error =>
    (.error [.text ("TCP connect to SOCKS5 server " ++ connector.server), .io error], [])
  | .ok inbound =>
    let (result, stream) := handshake os connector target ⟨inbound, []⟩
    (result, stream.trace)

end Socks5Connector

end Scproxy
