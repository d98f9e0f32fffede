import Scproxy.IngressMatching

namespace Scproxy

/-- What the kernel answers about a socket. An error is `none`. -/
structure Endpoints where
  localAddress : Option SocketAddrV4
  peerAddress : Option SocketAddrV4

/-- The questions of one `deliver` and their answers. -/
abbrev Reads := List (AddressOp × Option SocketAddrV4)

/-- An accepted stream in the hands of `deliver`. -/
structure Search where
  stream : Nat
  source : SocketAddrV4
  reads : Reads
  program : Interaction AddressOp AddressOp.Ret (Option Nat)

/-- A stream that was given to a registration, with the addresses that the
registration's socket had at that moment. -/
structure Given where
  call : Nat
  socket : Nat
  stream : Nat
  source : SocketAddrV4
  reads : Reads
  endpoints : Endpoints

/-- The table with everything that can happen to it. Registrations and accepted
streams are numbered, and `registrations` are the live ones. The table is locked
while a stream is in hand. -/
structure IngressTable where
  sockets : Nat → Endpoints
  next : Nat
  registrations : Nat → Option Registration
  waiting : Waiting
  accepted : Nat
  hand : Option Search
  given : List Given

inductive TableEvent
  | change (socket : Nat) (endpoints : Endpoints)
  | register (socket fd : Nat) (port : UInt16)
  | unregister (call : Nat)
  | accept (source : SocketAddrV4)
  | scan (answer : Option SocketAddrV4)
  | finish

namespace IngressTable

def answer (s : IngressTable) : AddressOp → Option SocketAddrV4
  | .localAddress socket => (s.sockets socket).localAddress
  | .peerAddress socket => (s.sockets socket).peerAddress

def candidates (s : IngressTable) (port : UInt16) : List Pending :=
  Ingress.candidates s.waiting port

def addRegistration (s : IngressTable) (registration : Registration) : IngressTable :=
  { s with
    next := s.next + 1
    registrations := Function.update s.registrations s.next (some registration)
    waiting := Ingress.push registration.port
      ⟨registration.fd, registration.socket, s.next, true⟩ s.waiting }

def dropRegistration (s : IngressTable) (call : Nat) (registration : Registration) :
    IngressTable :=
  { s with
    registrations := Function.update s.registrations call none
    waiting := Ingress.unregister registration.port registration.fd s.waiting }

/-- The end of `deliver`: the stream is sent to the candidate found, or dropped. -/
def settle (s : IngressTable) (search : Search) : Option Nat → IngressTable
  | none => { s with hand := none }
  | some index => { s with
      hand := none
      waiting := Ingress.take search.source.port index s.waiting
      given := ((s.candidates search.source.port)[index]?.map fun pending =>
        ⟨pending.call, pending.socket, search.stream, search.source, search.reads,
          s.sockets pending.socket⟩).toList ++ s.given }

/-- A socket's addresses may change at any time, a stream may come from
anywhere, and a question about a socket may fail. Descriptors that are open at
the same time are distinct. -/
def Step (relay : SocketAddrV4) : TableEvent → IngressTable → IngressTable → Prop
  | .change socket endpoints, s, t =>
      t = { s with sockets := Function.update s.sockets socket endpoints }
  | .register socket fd port, s, t => s.hand = none ∧
      (∀ call registration, s.registrations call = some registration → registration.fd ≠ fd) ∧
      t = s.addRegistration ⟨fd, socket, port⟩
  | .unregister call, s, t => ∃ registration, s.registrations call = some registration ∧
      s.hand = none ∧ t = s.dropRegistration call registration
  | .accept source, s, t => s.hand = none ∧
      t = { s with
        accepted := s.accepted + 1
        hand := some ⟨s.accepted, source, [], Ingress.deliver relay source s.waiting⟩ }
  | .scan answer, s, t => ∃ stream source reads op next,
      s.hand = some ⟨stream, source, reads, .perform op next⟩ ∧
      (answer = s.answer op ∨ answer = none) ∧
      t = { s with hand := some ⟨stream, source, (op, answer) :: reads, next answer⟩ }
  | .finish, s, t => ∃ search result, s.hand = some search ∧ search.program = .done result ∧
      t = s.settle search result

def Initial (s : IngressTable) : Prop :=
  (∀ call, s.registrations call = none) ∧ s.waiting = ∅ ∧ s.hand = none ∧ s.given = []

section

variable {s : IngressTable} {registration other : Registration} {call : Nat}

theorem registrations_add : (s.addRegistration registration).registrations call = some other ↔
    call = s.next ∧ other = registration ∨
      call ≠ s.next ∧ s.registrations call = some other := by
  change Function.update s.registrations s.next (some registration) call = some other ↔ _
  by_cases heq : call = s.next
  · subst heq
    rw [Function.update_self]
    simp [eq_comm]
  · rw [Function.update_of_ne heq]
    simp [heq]

theorem registrations_drop {call' : Nat} :
    (s.dropRegistration call registration).registrations call' = some other ↔
      call' ≠ call ∧ s.registrations call' = some other := by
  change Function.update s.registrations call none call' = some other ↔ _
  by_cases heq : call' = call
  · subst heq
    rw [Function.update_self]
    simp
  · rw [Function.update_of_ne heq]
    simp [heq]

theorem candidates_add (s : IngressTable) (registration : Registration) (port : UInt16) :
    (s.addRegistration registration).candidates port =
      if port = registration.port then
        s.candidates port ++ [⟨registration.fd, registration.socket, s.next, true⟩]
      else s.candidates port :=
  Ingress.candidates_push _ _ _ _

theorem candidates_settle (s : IngressTable) (search : Search) (index : Nat) (port : UInt16) :
    (s.settle search (some index)).candidates port =
      if port = search.source.port then
        (s.candidates port).modify index fun pending => { pending with sender := false }
      else s.candidates port :=
  Ingress.candidates_take _ _ _ _

end

/-- The sockets change only between whole operations. -/
def Whole : TableEvent → IngressTable → Prop
  | .change _ _, s => s.hand = none
  | _, _ => True

end IngressTable

def ingressTable (relay : SocketAddrV4) : Transition IngressTable TableEvent where
  start := IngressTable.Initial
  step := IngressTable.Step relay

end Scproxy
