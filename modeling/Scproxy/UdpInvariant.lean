import Scproxy.UdpSystem

namespace Scproxy

open Discipline

theorem update_eq_some {α : Type} {f : Nat → Option α} {i j : Nat} {x : Option α} {y : α}
    (h : Function.update f i x j = some y) : f j = some y ∨ x = some y := by
  by_cases hj : j = i
  · subst j
    rw [Function.update_self] at h
    exact .inr h
  · rw [Function.update_of_ne hj] at h
    exact .inl h

/-- An answer comes from where its query went. -/
def ArrivalOk (sent : List Packet) (arrival : Arrival) : Prop :=
  ∀ query, arrival.answers = some query → arrival.source = query.destination ∧ query ∈ sent

/-- The peer stands for the address that the application gave to connect. -/
def PeerOk (servers : Servers) (socket : UdpSocket) : Prop :=
  ∀ peer, socket.peer = some peer →
    ∃ r, socket.requested = some r ∧ servers.forward.lookup r = some peer

structure SocketOk (servers : Servers) (sent : List Packet) (socket : UdpSocket) : Prop where
  peer : PeerOk servers socket
  inbox : ∀ arrival ∈ socket.inbox, ArrivalOk sent arrival

def PacketOk (servers : Servers) (packet : Packet) : Prop :=
  ∃ r, packet.requested = some r ∧ servers.forward.lookup r = some packet.destination

def StoredOk (entry : StoredSource) : Prop :=
  ∀ query, entry.arrival.answers = some query → ∃ r, query.requested = some r ∧
    entry.bytes = (addressBytes r).take (min entry.capacity.toNat 16)

/-- What a task knows of the system. -/
def UdpTask.view (task : UdpTask) (servers : Servers) : View :=
  ⟨servers, task.asked, task.arrival.bind fun arrival => arrival.answers.bind Packet.requested⟩

structure TaskOk (arch : Arch) (servers : Servers) (sent : List Packet) (task : UdpTask) :
    Prop where
  program : datagramDiscipline.Spec
    (fun r _ => ∀ reply, r = .ok reply → Outcome arch task.memory task.notification reply)
    task.program (task.view servers)
  arrival : ∀ arrival, task.arrival = some arrival → ArrivalOk sent arrival

structure UdpOk (arch : Arch) (s : UdpSystem) : Prop where
  servers : ServersOk s.servers
  sockets : ∀ i socket, s.sockets i = some socket → SocketOk s.servers s.sent socket
  sent : ∀ packet ∈ s.sent, PacketOk s.servers packet
  tasks : ∀ id task, s.tasks id = some task → TaskOk arch s.servers s.sent task
  stored : ∀ entry ∈ s.stored, StoredOk entry

section

variable {arch : Arch} {servers next : Servers} {sent sent' : List Packet}

theorem ArrivalOk.grow {arrival : Arrival} (hsent : sent ⊆ sent') (h : ArrivalOk sent arrival) :
    ArrivalOk sent' arrival := by
  intro query hquery
  obtain ⟨hsource, hmem⟩ := h query hquery
  exact ⟨hsource, hsent hmem⟩

theorem SocketOk.grow {socket : UdpSocket} (hext : servers.Extends next) (hsent : sent ⊆ sent')
    (h : SocketOk servers sent socket) : SocketOk next sent' socket := by
  constructor
  · intro peer hpeer
    obtain ⟨r, hr, hlookup⟩ := h.peer peer hpeer
    exact ⟨r, hr, hext.1 r peer hlookup⟩
  · exact fun arrival harrival => (h.inbox arrival harrival).grow hsent

theorem PacketOk.grow {packet : Packet} (hext : servers.Extends next)
    (h : PacketOk servers packet) : PacketOk next packet := by
  obtain ⟨r, hr, hlookup⟩ := h
  exact ⟨r, hr, hext.1 r _ hlookup⟩

theorem TaskOk.grow {task : UdpTask} (hok : ServersOk next) (hext : servers.Extends next)
    (hsent : sent ⊆ sent') (h : TaskOk arch servers sent task) : TaskOk arch next sent' task := by
  have hrely : datagramDiscipline.rely (task.view servers) (task.view next) :=
    ⟨hok, hext, rfl, rfl⟩
  constructor
  · exact h.program.later (fun _ h => h) hrely
  · exact fun arrival harrival => (h.arrival arrival harrival).grow hsent

/-- A step keeps the invariant when what it adds is in order: everything else
only sees more servers and more datagrams. -/
theorem UdpOk.step {s t : UdpSystem} (h : UdpOk arch s) (hok : ServersOk t.servers)
    (hext : s.servers.Extends t.servers) (hsent : s.sent ⊆ t.sent)
    (hsockets : ∀ i socket, t.sockets i = some socket →
      s.sockets i = some socket ∨ SocketOk t.servers t.sent socket)
    (hpackets : ∀ packet ∈ t.sent, packet ∈ s.sent ∨ PacketOk t.servers packet)
    (htasks : ∀ id task, t.tasks id = some task →
      s.tasks id = some task ∨ TaskOk arch t.servers t.sent task)
    (hstored : ∀ entry ∈ t.stored, entry ∈ s.stored ∨ StoredOk entry) : UdpOk arch t := by
  refine ⟨hok, ?_, ?_, ?_, ?_⟩
  · intro i socket hi
    rcases hsockets i socket hi with hold | hnew
    · exact (h.sockets i socket hold).grow hext hsent
    · exact hnew
  · intro packet hp
    rcases hpackets packet hp with hold | hnew
    · exact (h.sent packet hold).grow hext
    · exact hnew
  · intro id task hid
    rcases htasks id task hid with hold | hnew
    · exact (h.tasks id task hold).grow hok hext hsent
    · exact hnew
  · intro entry he
    rcases hstored entry he with hold | hnew
    · exact h.stored entry hold
    · exact hnew

variable {s : UdpSystem}

/-- A datagram leaves the inbox. -/
theorem SocketOk.remove {servers : Servers} {sent : List Packet} {socket : UdpSocket}
    {before after : List Arrival} {arrival : Arrival} (h : SocketOk servers sent socket)
    (hinbox : socket.inbox = before ++ arrival :: after) :
    SocketOk servers sent { socket with inbox := before ++ after } := by
  refine ⟨h.peer, ?_⟩
  intro a ha
  apply h.inbox a
  rw [hinbox]
  rcases List.mem_append.mp ha with hb | hb
  · exact List.mem_append_left _ hb
  · exact List.mem_append_right _ (List.mem_cons_of_mem _ hb)

theorem UdpOk.setSocket {i : Nat} {socket : UdpSocket} (h : UdpOk arch s)
    (hsocket : SocketOk s.servers s.sent socket) : UdpOk arch (s.setSocket i socket) := by
  refine h.step h.servers (.refl _) (List.Subset.refl _) ?_ (fun _ hp => .inl hp)
    (fun _ _ ht => .inl ht) (fun _ he => .inl he)
  intro j socket' hj
  rcases update_eq_some hj with hold | hnew
  · exact .inl hold
  · cases hnew
    exact .inr hsocket

theorem UdpOk.setTask {id : Nat} {task : Option UdpTask} (h : UdpOk arch s)
    (htask : ∀ t, task = some t → TaskOk arch s.servers s.sent t) :
    UdpOk arch (s.setTask id task) := by
  refine h.step h.servers (.refl _) (List.Subset.refl _) (fun _ _ hs => .inl hs)
    (fun _ hp => .inl hp) ?_ (fun _ he => .inl he)
  intro j task' hj
  rcases update_eq_some hj with hold | hnew
  · exact .inl hold
  · exact .inr (htask task' hnew)

theorem UdpOk.send {packets : List Packet} (h : UdpOk arch s)
    (hpackets : ∀ packet ∈ packets, PacketOk s.servers packet) : UdpOk arch (s.send packets) := by
  refine h.step h.servers (.refl _) (List.subset_append_right _ _) (fun _ _ hs => .inl hs) ?_
    (fun _ _ ht => .inl ht) (fun _ he => .inl he)
  intro packet hp
  rcases List.mem_append.mp hp with hnew | hold
  · exact .inr (hpackets packet hnew)
  · exact .inl hold

theorem UdpOk.setServers {next : Servers} (h : UdpOk arch s) (hok : ServersOk next)
    (hext : s.servers.Extends next) : UdpOk arch { s with servers := next } :=
  h.step hok hext (List.Subset.refl _) (fun _ _ hs => .inl hs) (fun _ hp => .inl hp)
    (fun _ _ ht => .inl ht) (fun _ he => .inl he)

theorem UdpOk.setMapping {mapping : FakeDns} (h : UdpOk arch s) :
    UdpOk arch (s.setMapping mapping) :=
  h.step h.servers (.refl _) (List.Subset.refl _) (fun _ _ hs => .inl hs) (fun _ hp => .inl hp)
    (fun _ _ ht => .inl ht) (fun _ he => .inl he)

theorem UdpOk.store {capacity : UInt32} {bytes : List UInt8} {arrival : Option Arrival}
    (h : UdpOk arch s) (hentry : ∀ a, arrival = some a → StoredOk ⟨capacity, bytes, a⟩) :
    UdpOk arch (s.store capacity bytes arrival) := by
  cases arrival with
  | none => exact h
  | some arrival =>
    refine h.step h.servers (.refl _) (List.Subset.refl _) (fun _ _ hs => .inl hs)
      (fun _ hp => .inl hp) (fun _ _ ht => .inl ht) ?_
    intro entry he
    rcases List.mem_cons.mp he with hnew | hold
    · rw [hnew]
      exact .inr (hentry arrival rfl)
    · exact .inl hold

end

end Scproxy
