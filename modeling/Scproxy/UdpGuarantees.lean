import Scproxy.UdpExchange

namespace Scproxy

open Transition

theorem registered_of_lookup {servers : Servers} (hok : ServersOk servers)
    {server endpoint : SocketAddrV4} (h : servers.forward.lookup server = some endpoint) :
    servers.originalServer endpoint = some server ∧ server.port = 53 :=
  ⟨(hok.inverse server endpoint).mp h, hok.port server endpoint h⟩

/-- In every run, a UDP socket is connected to a registered endpoint or to
nothing, and every datagram goes to a registered endpoint of a DNS server that
the application named. A reply other than an error is never given to a connect
to another port, and to a send only for the messages before the first one that
names another port. -/
theorem udp_stays_registered {arch : Arch} {s : UdpSystem} (h : (udpSystem arch).Reachable s) :
    (∀ i socket, s.sockets i = some socket → socket.peer = none ∨
      ∃ peer server, socket.peer = some peer ∧ s.servers.originalServer peer = some server) ∧
    (∀ packet ∈ s.sent, ∃ server, packet.requested = some server ∧ server.port = 53 ∧
      s.servers.originalServer packet.destination = some server) ∧
    ∀ id task reply, s.tasks id = some task → task.program = .done (.ok reply) →
      Outcome arch task.memory task.notification reply := by
  have hok := udpOk_reachable h
  refine ⟨?_, ?_, ?_⟩
  · intro i socket hi
    cases hpeer : socket.peer with
    | none => exact .inl rfl
    | some peer =>
      obtain ⟨server, _, hlookup⟩ := (hok.sockets i socket hi).peer peer hpeer
      obtain ⟨horiginal, _⟩ := registered_of_lookup hok.servers hlookup
      exact .inr ⟨peer, server, rfl, horiginal⟩
  · intro packet hp
    obtain ⟨server, hrequested, hlookup⟩ := hok.sent packet hp
    obtain ⟨horiginal, hport⟩ := registered_of_lookup hok.servers hlookup
    exact ⟨server, hrequested, hport, horiginal⟩
  · intro id task reply hid hprogram
    have hspec := (hok.tasks id task hid).program
    rw [hprogram] at hspec
    exact hspec reply rfl

theorem udp_stays_registered_exchange : ∃ s, (udpSystem .x86_64).Reachable s ∧
    (∃ socket, s.sockets 0 = some socket ∧ socket.peer ≠ none) ∧ Exchange.packet ∈ s.sent ∧
    ∀ packet ∈ s.sent, ∃ server, packet.requested = some server ∧ server.port = 53 ∧
      s.servers.originalServer packet.destination = some server := by
  obtain ⟨mapping, response, h⟩ := Exchange.reachable_received
  refine ⟨_, h, ⟨_, rfl, ?_⟩, List.mem_singleton_self _, (udp_stays_registered h).2.1⟩
  exact Option.some_ne_none _

/-- In every run, the two maps stay inverse to each other, small and about port
53, and keep every entry; a call of `server_for` that fails changes nothing, and
one that succeeds can be repeated. Every answer that is handed to the
application comes from the address its query was sent to. -/
theorem dns_sources_kept {arch : Arch} {s t : UdpSystem} (hs : (udpSystem arch).Reachable s)
    (hsteps : (udpSystem arch).Steps s t) :
    ServersOk t.servers ∧ t.servers.reverse.len ≤ 128 ∧ s.servers.Extends t.servers ∧
    (∀ destination os error servers,
      Dns.serverFor destination os t.servers = (.error error, servers) → servers = t.servers) ∧
    (∀ destination os localAddr servers,
      Dns.serverFor destination os t.servers = (.ok localAddr, servers) →
      ∀ os', Dns.serverFor destination os' servers = (.ok localAddr, servers)) ∧
    ∀ entry ∈ t.stored, ∀ query, entry.arrival.answers = some query →
      ∃ requested, query.requested = some requested ∧
        entry.bytes = (addressBytes requested).take (min entry.capacity.toNat 16) := by
  have hok := udpOk_reachable (hs.steps hsteps)
  have hlen : t.servers.reverse.len ≤ 128 := by
    rw [hok.servers.reverse_len]
    exact hok.servers.forward_len
  refine ⟨hok.servers, hlen, extends_steps (udpOk_reachable hs) hsteps, ?_, ?_, hok.stored⟩
  · intro destination os error servers h
    exact serverFor_error h
  · intro destination os localAddr servers h os'
    exact serverFor_again h os'

theorem dns_sources_kept_exchange : ∃ s, (udpSystem .x86_64).Reachable s ∧
    ServersOk s.servers ∧ ∃ entry ∈ s.stored, entry.arrival.answers = some Exchange.packet ∧
      entry.bytes = addressBytes Exchange.server := by
  obtain ⟨mapping, response, h⟩ := Exchange.reachable_received
  have hkept := dns_sources_kept h .refl
  refine ⟨_, h, hkept.1, _, List.mem_singleton_self _, rfl, ?_⟩
  obtain ⟨requested, hrequested, hbytes⟩ :=
    hkept.2.2.2.2.2 _ (List.mem_singleton_self _) Exchange.packet rfl
  have hserver : Exchange.server = requested := Option.some.inj hrequested
  rw [hbytes, ← hserver]
  rfl

end Scproxy
