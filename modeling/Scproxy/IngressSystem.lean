import Mathlib.Logic.Function.Basic
import Scproxy.Ingress
import Scproxy.Transition

namespace Scproxy

/-- A TCP socket of an application as the kernel sees it. A connection carries
the connect call of the broker that made it, if one did. -/
inductive Phase
  | idle (bound : SocketAddrV4)
  | connecting (call : Option Nat) (source peer : SocketAddrV4)
  | connected (call : Option Nat) (source peer : SocketAddrV4)

namespace Phase

def localAddress : Phase → SocketAddrV4
  | idle bound => bound
  | connecting _ source _ => source
  | connected _ source _ => source

def peerAddress : Phase → Option SocketAddrV4
  | connected _ _ peer => some peer
  | _ => none

def endpoints : Phase → Option (SocketAddrV4 × SocketAddrV4)
  | idle _ => none
  | connecting _ source peer => some (source, peer)
  | connected _ source peer => some (source, peer)

/-- `tcp_bind::prepare`: the source port, reserved now if there is none yet. -/
def prepare (phase : Phase) (chosen : UInt16) : Option (Phase × UInt16) :=
  if phase.localAddress.port ≠ 0 then some (phase, phase.localAddress.port)
  else
    match phase with
    | idle bound => if chosen = 0 then none else some (idle ⟨bound.ip, chosen⟩, chosen)
    | _ => none

end Phase

/-- A stream at the shared listener, with the call whose connect made it. -/
structure IngressStream where
  source : SocketAddrV4
  call : Option Nat
  deriving DecidableEq

structure Registration where
  fd : Nat
  socket : Nat
  port : UInt16

/-- A stream in the hands of `deliver`. -/
structure Delivery where
  stream : IngressStream
  program : Interaction AddressOp AddressOp.Ret (Option Nat)

/-- `locks` are the locks of `connect_tcp`, one for a socket; `delivered` are
the streams handed out, with the call of the registration. The table is locked
while a stream is in hand. -/
structure IngressSystem where
  sockets : Nat → Phase
  locks : Nat → Option Nat
  next : Nat
  registrations : Nat → Option Registration
  waiting : Waiting
  queue : List IngressStream
  hand : Option Delivery
  delivered : List (Nat × IngressStream)

inductive IngressEvent
  | begin (socket : Nat)
  | register (socket fd : Nat) (chosen : UInt16)
  | dial (socket : Nat) (call : Option Nat) (source peer : SocketAddrV4)
  | establish (socket : Nat)
  | release (socket : Nat)
  | unregister (call : Nat)
  | disconnect (socket : Nat) (bound : SocketAddrV4)
  | accept
  | scan (answer : Option SocketAddrV4)
  | finish

namespace IngressSystem

def setSocket (s : IngressSystem) (socket : Nat) (phase : Phase) : IngressSystem :=
  { s with sockets := Function.update s.sockets socket phase }

def setLock (s : IngressSystem) (socket : Nat) (call : Option Nat) : IngressSystem :=
  { s with locks := Function.update s.locks socket call }

def addRegistration (s : IngressSystem) (call : Nat) (registration : Registration) :
    IngressSystem :=
  { s with
    registrations := Function.update s.registrations call (some registration)
    waiting := Ingress.push registration.port
      ⟨registration.fd, registration.socket, call, true⟩ s.waiting }

def dropRegistration (s : IngressSystem) (call : Nat) (registration : Registration) :
    IngressSystem :=
  { s with
    registrations := Function.update s.registrations call none
    waiting := Ingress.unregister registration.port registration.fd s.waiting }

def enqueue (s : IngressSystem) (stream : IngressStream) : IngressSystem :=
  { s with queue := s.queue ++ [stream] }

def candidates (s : IngressSystem) (port : UInt16) : List Pending :=
  (s.waiting.lookup port).getD []

/-- The kernel's answer to a question of `deliver`. -/
def answer (s : IngressSystem) : AddressOp → Option SocketAddrV4
  | .localAddress socket => some (s.sockets socket).localAddress
  | .peerAddress socket => (s.sockets socket).peerAddress

/-- The end of `deliver`: the stream is sent to the candidate found, or dropped. -/
def settle (s : IngressSystem) (stream : IngressStream) : Option Nat → IngressSystem
  | none => { s with hand := none }
  | some index => { s with
      hand := none
      waiting := Ingress.take stream.source.port index s.waiting
      delivered := ((s.candidates stream.source.port)[index]?.map fun pending =>
        (pending.call, stream)).toList ++ s.delivered }

/-- Steps of connect calls, of the applications' sockets and of the listener.
`begin` is `connect_tcp` up to its check that the socket is closed; a `dial`
without a call is a native connect. Live sockets have distinct address pairs,
and a duplicate has a descriptor of its own. -/
def Step (relay : SocketAddrV4) : IngressEvent → IngressSystem → IngressSystem → Prop
  | .begin socket, s, t => s.locks socket = none ∧ (∃ bound, s.sockets socket = .idle bound) ∧
      t = { s.setLock socket (some s.next) with next := s.next + 1 }
  | .register socket fd chosen, s, t => ∃ call phase port, s.locks socket = some call ∧
      s.registrations call = none ∧ s.hand = none ∧
      (∀ other registration, s.registrations other = some registration → registration.fd ≠ fd) ∧
      (s.sockets socket).prepare chosen = some (phase, port) ∧
      t = (s.setSocket socket phase).addRegistration call ⟨fd, socket, port⟩
  | .dial socket call source peer, s, t => (∃ bound, s.sockets socket = .idle bound) ∧
      (∀ c, call = some c → s.locks socket = some c ∧
        (∃ registration, s.registrations c = some registration) ∧ peer = relay) ∧
      (∀ other, other ≠ socket → (s.sockets other).endpoints ≠ some (source, peer)) ∧
      t = s.setSocket socket (.connecting call source peer)
  | .establish socket, s, t => ∃ call source peer,
      s.sockets socket = .connecting call source peer ∧
      t = if peer = relay then
          (s.setSocket socket (.connected call source peer)).enqueue ⟨source, call⟩
        else s.setSocket socket (.connected call source peer)
  | .release socket, s, t => t = s.setLock socket none
  | .unregister call, s, t => ∃ registration, s.registrations call = some registration ∧
      s.hand = none ∧ t = s.dropRegistration call registration
  | .disconnect socket bound, s, t => t = s.setSocket socket (.idle bound)
  | .accept, s, t => ∃ stream rest, s.hand = none ∧ s.queue = stream :: rest ∧
      t = { s with
        queue := rest
        hand := some ⟨stream, Ingress.deliver relay stream.source s.waiting⟩ }
  | .scan answer, s, t => ∃ stream op next, s.hand = some ⟨stream, .perform op next⟩ ∧
      (answer = s.answer op ∨ answer = none) ∧ t = { s with hand := some ⟨stream, next answer⟩ }
  | .finish, s, t => ∃ stream result, s.hand = some ⟨stream, .done result⟩ ∧
      t = s.settle stream result

/-- Nothing is connected, registered or accepted yet. -/
def Initial (s : IngressSystem) : Prop :=
  (∀ socket, ∃ bound, s.sockets socket = .idle bound) ∧ (∀ socket, s.locks socket = none) ∧
  (∀ call, s.registrations call = none) ∧ s.waiting = ∅ ∧ s.queue = [] ∧ s.hand = none ∧
  s.delivered = []

/-- The streams that are still to be delivered. -/
def streams (s : IngressSystem) : List IngressStream :=
  (s.hand.map Delivery.stream).toList ++ s.queue

/-- `deliver` has read the local address of a socket and not yet its peer. -/
def Reading (s : IngressSystem) (socket : Nat) : Prop :=
  ∃ stream next, s.hand = some ⟨stream, .perform (.peerAddress socket) next⟩

/-- When a socket's connection to the relay is made, no registration of another
connect of that socket waits, no stream with its source address is queued or in
hand, and `deliver` is not between its two reads of the socket; and a socket is
not registered while it is connected to the relay. -/
def Undisturbed (relay : SocketAddrV4) : IngressEvent → IngressSystem → Prop
  | .register socket _ _, s => ∀ call source, s.sockets socket ≠ .connected call source relay
  | .establish socket, s => ∀ call source, s.sockets socket = .connecting call source relay →
      (∀ pending, Ingress.Waits s.waiting pending → pending.socket = socket →
        call = some pending.call) ∧
      (∀ stream ∈ s.streams, stream.source ≠ source) ∧ ¬s.Reading socket
  | _, _ => True

theorem setSocket_self (s : IngressSystem) (socket : Nat) (phase : Phase) :
    (s.setSocket socket phase).sockets socket = phase :=
  Function.update_self _ _ _

theorem setSocket_of_ne (s : IngressSystem) {socket other : Nat} (h : other ≠ socket)
    (phase : Phase) : (s.setSocket socket phase).sockets other = s.sockets other :=
  Function.update_of_ne h _ _

end IngressSystem

def ingressSystem (relay : SocketAddrV4) : Transition IngressSystem IngressEvent where
  start := IngressSystem.Initial
  step := IngressSystem.Step relay

end Scproxy
