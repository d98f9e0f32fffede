import Scproxy.DnsResponse
import Scproxy.Memory

namespace Scproxy

namespace Dns

def isDns (address : SocketAddrV4) : Bool := address.port == dnsPort

end Dns

def Resolver.target (mapping : FakeDns) (address : SocketAddrV4) : Except IoError ProxyTarget :=
  if FakeDns.isFakeIp address.ip then
    match mapping.lookup address.ip with
    | some domain => .ok (.domain domain address.port)
    | none => .error (.os Errno.enetunreach)
  else .ok (.ip (.v4 address.ip) address.port)

inductive Reply
  | continueSyscall
  | value (value : Int)
  | sent
  deriving DecidableEq

structure Peer where
  target : SocketAddrV4
  internal : SocketAddrV4
  created : Nat
  pending : Bool
  deriving DecidableEq

/-- What the task spawned for a connection serves. -/
inductive Service
  | dns
  | outbound (target : ProxyTarget) (route : ProxyConfig)
  deriving DecidableEq

/-- A spawned task with the source port of its registration. -/
structure RelayTask where
  cookie : UInt64
  port : UInt16
  service : Service
  deriving DecidableEq

/-- The broker's state as `connect_tcp` uses it; `pending` counts free permits. -/
structure Broker where
  mapping : FakeDns
  peers : HashMap UInt64 Peer
  pending : Nat
  relays : List RelayTask

/-- What the operating system answers during one call of `connect_tcp`. -/
structure ConnectOs where
  memory : Memory
  cookie : Except IoError UInt64
  valid : Nat → Except IoError Unit
  state : Except IoError UInt8
  register : Except IoError UInt16
  connect : Except IoError Unit
  now : Nat → Nat

namespace Broker

def removePeer (cookie : UInt64) (broker : Broker) : Broker :=
  { broker with peers := broker.peers.erase cookie }

def insertPeer (cookie : UInt64) (peer : Peer) (broker : Broker) : Broker :=
  { broker with peers := broker.peers.insert cookie peer }

def acquire (broker : Broker) : Broker := { broker with pending := broker.pending - 1 }

def release (broker : Broker) : Broker := { broker with pending := broker.pending + 1 }

def settlePeer (cookie : UInt64) (now : Nat) (broker : Broker) : Broker :=
  match broker.peers.lookup cookie with
  | some peer => broker.insertPeer cookie { peer with pending := false, created := now }
  | none => broker

def spawn (task : RelayTask) (broker : Broker) : Broker :=
  { broker with relays := broker.relays ++ [task] }

/-- `connect::run`. -/
def runConnect (os : ConnectOs) : Except IoError Unit := do
  os.valid 2
  os.connect

/-- The peer entry is settled and the relay task spawned. -/
def launch (os : ConnectOs) (task : RelayTask) (result : Except IoError Unit) :
    Prog Broker Fault (Except IoError Unit) := do
  Prog.modify (settlePeer task.cookie (os.now 1))
  Prog.modify (spawn task)
  pure result

/-- The part of `connect_tcp` that redirects the socket to the relay. A
failure before the task is spawned drops the permit and the peer entry. -/
def redirect (ingress : SocketAddrV4) (os : ConnectOs) (cookie : UInt64) (target : SocketAddrV4)
    (service : Service) : Prog Broker Fault Reply := do
  let broker ← .get
  if broker.pending = 0 then .fail (.io (.os Errno.eagain))
  else do
    Prog.modify acquire
    let result : Except IoError Unit ← Prog.onFail release do
      Prog.lift (os.valid 1)
      Prog.modify (insertPeer cookie ⟨target, ingress, os.now 0, true⟩)
      Prog.onFail (removePeer cookie) do
        let port ← Prog.lift os.register
        match runConnect os with
        | .error error =>
          if error ≠ .os Errno.einprogress then .fail (.io error)
          else launch os ⟨cookie, port, service⟩ (.error error)
        | .ok () => launch os ⟨cookie, port, service⟩ (.ok ())
    Prog.lift (result.map fun _ => .value 0)

/-- DNS interception precedes route selection, even for an unknown FakeIP. -/
def proxyTarget (mapping : FakeDns) (target : SocketAddrV4) : Except IoError ProxyTarget :=
  if Dns.isDns target then .ok (.ip (.v4 target.ip) target.port)
  else Resolver.target mapping target

def isNumeric : ProxyTarget → Bool
  | .domain _ _ => false
  | .ip _ _ => true

def connectTcp (config : Config) (ingress : SocketAddrV4) (notification : Notification)
    (os : ConnectOs) : Prog Broker Fault Reply := do
  let args := notification.data.args
  let family ← Prog.lift (os.memory.family notification.pid (args 1) (args 2))
  if family = Libc.afUnspec then pure .continueSyscall
  else do
    let target ← Prog.lift (os.memory.ipv4 notification.pid (args 1) (args 2))
    let cookie ← Prog.lift os.cookie
    Prog.lift (os.valid 0)
    let state ← Prog.lift os.state
    let broker ← .get
    if state ≠ 7 then
      match broker.peers.lookup cookie with
      | some _ => do
        Prog.lift (runConnect os)
        pure (.value 0)
      | none => pure .continueSyscall
    else do
      Prog.modify (removePeer cookie)
      let isDns := Dns.isDns target
      let proxyTarget ← Prog.lift (proxyTarget broker.mapping target)
      let route ← Prog.unwrap (config.proxyFor proxyTarget)
      if !isDns && isNumeric proxyTarget && route == .direct then pure .continueSyscall
      else redirect ingress os cookie target (if isDns then .dns else .outbound proxyTarget route)

end Broker

end Scproxy
