import Mathlib.Logic.Function.Basic
import Scproxy.DispatchOutcome
import Scproxy.SeccompVerdict
import Scproxy.Transition

namespace Scproxy

namespace Libc

def msgErrqueue : UInt32 := 0x2000

end Libc

/-- A datagram that left a socket. `requested` is the address the application
named for it, in the send itself or in the connect before. -/
structure Packet where
  socket : Nat
  destination : SocketAddrV4
  requested : Option SocketAddrV4
  payload : List UInt8

/-- A datagram waiting in a socket, with the query it answers. -/
structure Arrival where
  source : SocketAddrV4
  payload : List UInt8
  answers : Option Packet

/-- A UDP socket of the application. `requested` is the address the application
gave to the connect that set the peer. -/
structure UdpSocket where
  peer : Option SocketAddrV4
  requested : Option SocketAddrV4
  inbox : List Arrival

def UdpSocket.arrive (socket : UdpSocket) (arrival : Arrival) : UdpSocket :=
  { socket with inbox := socket.inbox ++ [arrival] }

/-- The task of a pending notification. The memory and the socket behind the
descriptor stay as they are while it is pending. -/
structure UdpTask where
  notification : Notification
  memory : Memory
  socket : Nat
  asked : Option SocketAddrV4
  arrival : Option Arrival
  program : Interaction Operation Operation.Ret (Except IoError Reply)

/-- The source address stored for the application with a received datagram. -/
structure StoredSource where
  capacity : UInt32
  bytes : List UInt8
  arrival : Arrival

/-- The broker, its endpoints and the UDP sockets under the filter. -/
structure UdpSystem where
  servers : Servers
  mapping : FakeDns
  sockets : Nat → Option UdpSocket
  tasks : Nat → Option UdpTask
  sent : List Packet
  stored : List StoredSource

namespace UdpSystem

def setSocket (s : UdpSystem) (i : Nat) (socket : UdpSocket) : UdpSystem :=
  { s with sockets := Function.update s.sockets i (some socket) }

def setTask (s : UdpSystem) (id : Nat) (task : Option UdpTask) : UdpSystem :=
  { s with tasks := Function.update s.tasks id task }

def setMapping (s : UdpSystem) (mapping : FakeDns) : UdpSystem := { s with mapping := mapping }

def send (s : UdpSystem) (packets : List Packet) : UdpSystem :=
  { s with sent := packets ++ s.sent }

def store (s : UdpSystem) (capacity : UInt32) (bytes : List UInt8) : Option Arrival → UdpSystem
  | some arrival => { s with stored := ⟨capacity, bytes, arrival⟩ :: s.stored }
  | none => s

/-- How the kernel and the shared state answer an operation of a task, and what
it changes. An answer that changes nothing may be any. -/
def Answers (s : UdpSystem) (task : UdpTask) :
    (op : Operation) → op.Ret → UdpSystem → UdpTask → Prop
  | .domain, r, s', task' =>
    s' = s ∧ task' = task ∧ ∀ domain, r = .ok domain → domain = Libc.afInet.toUInt32
  | .protocol, r, s', task' =>
    s' = s ∧ task' = task ∧ ∀ protocol, r = .ok protocol → protocol = Libc.ipprotoUdp
  | .serverFor destination, r, s', task' =>
    task' = { task with asked := some destination } ∧
      ∃ os servers, FreshEndpoint os s.servers ∧
        Dns.serverFor destination os s.servers = (r, servers) ∧ s' = { s with servers := servers }
  | .originalServer localAddr, r, s', task' =>
    s' = s ∧ task' = task ∧ r = s.servers.originalServer localAddr
  | .connect address, r, s', task' =>
    task' = task ∧ ((∃ error, r = .error error ∧ s' = s) ∨
      ∃ socket, r = .ok () ∧ s.sockets task.socket = some socket ∧
        s' = s.setSocket task.socket { socket with peer := some address, requested := task.asked })
  | .peerAddress _, r, s', task' =>
    s' = s ∧ ((∃ error, r = .error error ∧ task' = task) ∨
      ∃ socket address, s.sockets task.socket = some socket ∧ socket.peer = some address ∧
        r = .ok address ∧ task' = { task with asked := socket.requested })
  | .sendmsg destination payload _ _, r, s', task' =>
    task' = task ∧ ((∃ error, r = .error error ∧ s' = s) ∨
      ∃ count, r = .ok count ∧ s' = s.send [⟨task.socket, destination, task.asked, payload⟩])
  | .recvmsg capacity _ flags, r, s', task' =>
    (∃ error, r = .error error ∧ s' = s ∧ task' = task) ∨
    (∃ received, r = .ok received ∧ flags &&& Libc.msgErrqueue ≠ 0 ∧ s' = s ∧
      task' = { task with arrival := none }) ∨
    ∃ received socket before arrival after, r = .ok received ∧
      s.sockets task.socket = some socket ∧ socket.inbox = before ++ arrival :: after ∧
      received.source = arrival.source ∧
      received.payload.take received.length = arrival.payload.take capacity ∧
      (s' = s ∨ s' = s.setSocket task.socket { socket with inbox := before ++ after }) ∧
      task' = { task with arrival := some arrival }
  | .write (.source capacity) _ _ bytes, r, s', task' =>
    task' = task ∧ ((∃ error, r = .error error ∧ s' = s) ∨
      (r = .ok () ∧ s' = s.store capacity bytes task.arrival))
  | _, _, s', task' => s' = s ∧ task' = task

end UdpSystem

/-- What the kernel may do for a call that it runs itself on a UDP socket: the
socket afterwards and the datagrams sent. A send without an address of its own
goes to the peer. -/
inductive KernelCall (arch : Arch) (notification : Notification) (memory : Memory) (i : Nat)
    (socket : UdpSocket) : UdpSocket → List Packet → Prop
  | quiet : KernelCall arch notification memory i socket socket []
  | disconnect : notification.data.nr.toUInt32 = arch.number .connect →
      Disconnects memory notification →
      KernelCall arch notification memory i socket
        { socket with peer := none, requested := none } []
  | connect (address : SocketAddrV4) : notification.data.nr.toUInt32 = arch.number .connect →
      ¬Disconnects memory notification →
      KernelCall arch notification memory i socket
        { socket with peer := some address, requested := some address } []
  | addressed (packets : List (SocketAddrV4 × List UInt8)) :
      AddressedSend arch notification.data →
      KernelCall arch notification memory i socket socket
        (packets.map fun packet => ⟨i, packet.1, some packet.1, packet.2⟩)
  | plain (peer : SocketAddrV4) (payloads : List (List UInt8)) : socket.peer = some peer →
      KernelCall arch notification memory i socket socket
        (payloads.map fun payload => ⟨i, peer, socket.requested, payload⟩)

/-- Steps of the system. Each call is decided by the filter; a notified one by
the program of its task, one operation at a time. -/
inductive UdpStep (arch : Arch) : UdpSystem → UdpSystem → Prop
  | native {s : UdpSystem} {notification : Notification} {memory : Memory} {i : Nat}
      {socket socket' : UdpSocket} {packets : List Packet} :
      Bpf.execute notification.data.word (Seccomp.filter arch) = some Seccomp.retAllow →
      s.sockets i = some socket →
      KernelCall arch notification memory i socket socket' packets →
      UdpStep arch s ((s.setSocket i socket').send packets)
  | notify {s : UdpSystem} {notification : Notification} {memory : Memory} {i id retries : Nat} :
      Bpf.execute notification.data.word (Seccomp.filter arch) = some Seccomp.retUserNotif →
      s.tasks id = none →
      UdpStep arch s (s.setTask id (some ⟨notification, memory, i, none, none,
        (Broker.dispatch arch retries memory notification).run⟩))
  | operate {s s' : UdpSystem} {id : Nat} {task task' : UdpTask} {op : Operation}
      {next : op.Ret → Interaction Operation Operation.Ret (Except IoError Reply)} {r : op.Ret} :
      s.tasks id = some task → task.program = .perform op next →
      s.Answers task op r s' task' →
      UdpStep arch s (s'.setTask id (some { task' with program := next r }))
  | proceed {s : UdpSystem} {id : Nat} {task : UdpTask} {socket socket' : UdpSocket}
      {packets : List Packet} :
      s.tasks id = some task → task.program = .done (.ok .continueSyscall) →
      task.notification.data.nr.toUInt32 ≠ arch.number .socket →
      s.sockets task.socket = some socket →
      KernelCall arch task.notification task.memory task.socket socket socket' packets →
      UdpStep arch s (((s.setSocket task.socket socket').send packets).setTask id none)
  | create {s : UdpSystem} {id i : Nat} {task : UdpTask} :
      s.tasks id = some task → task.program = .done (.ok .continueSyscall) →
      task.notification.data.nr.toUInt32 = arch.number .socket →
      Data.low (task.notification.data.args 0) = Libc.afInet.toUInt32 → s.sockets i = none →
      UdpStep arch s ((s.setSocket i ⟨none, none, []⟩).setTask id none)
  | finish {s : UdpSystem} {id : Nat} : UdpStep arch s (s.setTask id none)
  | serve {s : UdpSystem} {packet : Packet} {destination : SocketAddrV4} {mapping : FakeDns}
      {response : List UInt8} {socket : UdpSocket} :
      packet ∈ s.sent → s.servers.originalServer packet.destination = some destination →
      Resolver.answer s.mapping packet.payload = .ok (mapping, some response) →
      s.sockets packet.socket = some socket →
      UdpStep arch s ((s.setMapping mapping).setSocket packet.socket
        (socket.arrive ⟨packet.destination, response, some packet⟩))
  | stray {s : UdpSystem} {i : Nat} {socket : UdpSocket} {source : SocketAddrV4}
      {payload : List UInt8} : s.sockets i = some socket →
      UdpStep arch s (s.setSocket i (socket.arrive ⟨source, payload, none⟩))
  | lose {s : UdpSystem} {i : Nat} {socket : UdpSocket} {before after : List Arrival}
      {arrival : Arrival} : s.sockets i = some socket →
      socket.inbox = before ++ arrival :: after →
      UdpStep arch s (s.setSocket i { socket with inbox := before ++ after })

/-- `Dns::new` has registered the virtual server, and nothing else has happened. -/
def UdpSystem.Initial (s : UdpSystem) : Prop :=
  (∃ os localAddr, FreshEndpoint os .empty ∧
    Dns.serverFor Dns.virtualAddress os .empty = (.ok localAddr, s.servers)) ∧
  s.mapping = .new ∧ (∀ i, s.sockets i = none) ∧ (∀ id, s.tasks id = none) ∧ s.sent = [] ∧
  s.stored = []

def udpSystem (arch : Arch) : Transition UdpSystem Unit where
  start := UdpSystem.Initial
  step _ := UdpStep arch

end Scproxy
