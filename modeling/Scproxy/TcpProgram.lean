import Scproxy.ConnectTcp
import Scproxy.Interaction

namespace Scproxy

/-- What a connect call asks of the kernel and of the shared state of the
broker. Between two operations every other task may run. `stop` is the end of a
task that is cancelled or panics. -/
inductive TcpOperation
  | cookie
  | getLock (cookie : UInt64)
  | lock (id : Nat)
  | valid
  | state
  | peer (cookie : UInt64)
  | removePeer (cookie : UInt64)
  | target (address : SocketAddrV4)
  | acquire
  | insertPeer (cookie : UInt64) (target internal : SocketAddrV4)
  | register
  | connect (address : SocketAddrV4)
  | settlePeer (cookie : UInt64)
  | spawn (task : RelayTask)
  | unlock (id : Nat)
  | forget (id : Nat)
  | stop

namespace TcpOperation

/-- The wait for the lock and the connect may be cancelled. -/
abbrev Ret : TcpOperation → Type
  | cookie => Except IoError UInt64
  | getLock _ => Nat
  | lock _ => Bool
  | valid => Except IoError Unit
  | state => Except IoError UInt8
  | peer _ => Option Peer
  | target _ => Except IoError ProxyTarget
  | acquire => Bool
  | register => Except IoError UInt16
  | connect _ => Option (Except IoError Unit)
  | removePeer _ | insertPeer .. | settlePeer _ | spawn _ | unlock _ | forget _ => Unit
  | stop => Empty

end TcpOperation

abbrev TcpProgram := Interaction TcpOperation TcpOperation.Ret (Except IoError Reply)

/-- What `connect_tcp` knows once it has the lock of the socket. -/
structure Locked where
  cookie : UInt64
  lock : Nat
  target : SocketAddrV4

namespace TcpProgram

def stop : TcpProgram := .perform .stop nofun

/-- The guard on the lock is dropped at the end. -/
def release (lock : Nat) (result : Except IoError Reply) : TcpProgram :=
  .perform (.unlock lock) fun _ => .done result

def releaseStopped (lock : Nat) : TcpProgram := .perform (.unlock lock) fun _ => stop

/-- `connect::run`. -/
def runConnect (address : SocketAddrV4) (next : Option (Except IoError Unit) → TcpProgram) :
    TcpProgram :=
  .perform .valid fun
    | .error error => next (some (.error error))
    | .ok () => .perform (.connect address) next

/-- The socket is not closed: a connect of the virtual peer is repeated. -/
def reconnect (locked : Locked) : TcpProgram :=
  .perform (.peer locked.cookie) fun
    | none => release locked.lock (.ok .continueSyscall)
    | some peer => runConnect peer.internal fun
      | none => releaseStopped locked.lock
      | some result => release locked.lock (result.map fun _ => .value 0)

/-- The peer entry is settled and the relay task spawned. -/
def launch (locked : Locked) (port : UInt16) (service : Service) (result : Except IoError Unit) :
    TcpProgram :=
  .perform (.settlePeer locked.cookie) fun _ =>
  .perform (.spawn ⟨locked.cookie, port, service⟩) fun _ =>
  release locked.lock (result.map fun _ => .value 0)

/-- `PendingPeer` is dropped before it is committed. -/
def rollback (locked : Locked) (next : TcpProgram) : TcpProgram :=
  .perform (.removePeer locked.cookie) fun _ => next

def failed : Except IoError Unit → Bool
  | .ok () => false
  | .error error => error != .os Errno.einprogress

/-- The part that redirects the socket to the relay, after the permit. -/
def redirect (relay : SocketAddrV4) (locked : Locked) (service : Service) : TcpProgram :=
  .perform (.insertPeer locked.cookie locked.target relay) fun _ =>
  .perform .register fun
    | .error error => rollback locked (release locked.lock (.error error))
    | .ok port => runConnect relay fun
      | none => rollback locked (releaseStopped locked.lock)
      | some result =>
        if failed result then
          rollback locked (release locked.lock (result.map fun _ => .value 0))
        else launch locked port service result

def acquire (relay : SocketAddrV4) (locked : Locked) (service : Service) : TcpProgram :=
  .perform .acquire fun
    | false => release locked.lock (.error (.os Errno.eagain))
    | true => .perform .valid fun
      | .error error => release locked.lock (.error error)
      | .ok () => redirect relay locked service

/-- The choice of the route; a panic in it ends the task. -/
def route (config : Config) (relay : SocketAddrV4) (locked : Locked) (proxyTarget : ProxyTarget) :
    TcpProgram :=
  let isDns := Dns.isDns locked.target
  match config.proxyFor proxyTarget with
  | .error _ => releaseStopped locked.lock
  | .ok route =>
    if !isDns && Broker.isNumeric proxyTarget && route == .direct then
      release locked.lock (.ok .continueSyscall)
    else acquire relay locked (if isDns then .dns else .outbound proxyTarget route)

/-- The socket is closed. -/
def connect (config : Config) (relay : SocketAddrV4) (locked : Locked) : TcpProgram :=
  .perform (.removePeer locked.cookie) fun _ =>
    if Dns.isDns locked.target then
      route config relay locked (.ip (.v4 locked.target.ip) locked.target.port)
    else .perform (.target locked.target) fun
      | .error error => release locked.lock (.error error)
      | .ok proxyTarget => route config relay locked proxyTarget

def checkState (config : Config) (relay : SocketAddrV4) (locked : Locked) : TcpProgram :=
  .perform .valid fun
    | .error error => release locked.lock (.error error)
    | .ok () => .perform .state fun
      | .error error => release locked.lock (.error error)
      | .ok state => if state ≠ 7 then reconnect locked else connect config relay locked

/-- The lock of the socket is taken. -/
def lockSocket (config : Config) (relay target : SocketAddrV4) : TcpProgram :=
  .perform .cookie fun
    | .error error => .done (.error error)
    | .ok cookie => .perform (.getLock cookie) fun lock => .perform (.lock lock) fun
      | false => .perform (.forget lock) fun _ => stop
      | true => checkState config relay ⟨cookie, lock, target⟩

/-- `connect_tcp` with its operations one by one. The memory of the caller is
not written while its notification is pending. -/
def connectTcp (config : Config) (relay : SocketAddrV4) (memory : Memory)
    (notification : Notification) : TcpProgram :=
  let args := notification.data.args
  match memory.family notification.pid (args 1) (args 2) with
  | .error error => .done (.error error)
  | .ok family =>
    if family = Libc.afUnspec then .done (.ok .continueSyscall)
    else
      match memory.ipv4 notification.pid (args 1) (args 2) with
      | .error error => .done (.error error)
      | .ok target => lockSocket config relay target

end TcpProgram

/-- `tcp_target`, with the entry of the socket and the kernel's answer. -/
def Broker.tcpTarget (peer : Option Peer) (actual : Except IoError SocketAddrV4) :
    Except IoError (Option SocketAddrV4) :=
  match peer with
  | none => .ok none
  | some peer =>
    match actual with
    | .ok actual => .ok (if actual = peer.internal then some peer.target else none)
    | .error error => if error = .os Errno.enotconn then .ok none else .error error

end Scproxy
