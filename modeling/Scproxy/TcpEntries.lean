import Scproxy.TcpConnections

namespace Scproxy

namespace TcpSystem

section

variable {config : Config} {relay : SocketAddrV4} {s t : TcpSystem} {id : Nat} {call : TcpCall}

theorem connectionsOk_initial (h : s.Initial) : ConnectionsOk relay s := by
  obtain ⟨hsockets, hcalls, _, _, _, hsnapshot, _⟩ := h
  refine ⟨?_, ?_, ?_, ?_⟩
  · intro socket id peer hsocket
    exact absurd hsocket (hsockets socket id peer)
  · intro id call hid
    rw [hcalls id] at hid
    cases hid
  · intro id call peer hid
    rw [hcalls id] at hid
    cases hid
  · intro snapshot hs
    rw [hsnapshot] at hs
    cases hs

theorem ConnectionsOk.begin (h : ConnectionsOk relay s) (hid : s.calls id = none)
    (hnew : call.record = .new) : ConnectionsOk relay (s.setCall id call) := by
  constructor
  · intro socket id' peer hsocket
    obtain ⟨hpeer, call', hid', hrest⟩ := h.relayed socket id' peer hsocket
    have hne : id' ≠ id := by
      rintro rfl
      rw [hid] at hid'
      cases hid'
    exact ⟨hpeer, call', (s.calls_setCall_of_ne _ hne).trans hid', hrest⟩
  · intro id' call' hid' hholding hopen
    rcases calls_setCall hid' with ⟨rfl, rfl⟩ | ⟨_, hid'⟩
    · rw [hnew] at hholding
      cases hholding
    · exact h.stays id' call' hid' hholding hopen
  · intro id' call' peer hid' hsettled hsocket
    rcases calls_setCall hid' with ⟨rfl, rfl⟩ | ⟨_, hid'⟩
    · rw [hnew] at hsettled
      cases hsettled
    · exact h.settled id' call' peer hid' hsettled hsocket
  · exact h.started

theorem connectionsOk_step (event : TcpEvent) (h : ConnectionsOk relay s) (hpeers : PeersOk relay s)
    (hallowed : ClosesUnheld event s) (hstep : Step config relay event s t) :
    ConnectionsOk relay t := by
  cases event with
  | begin id socket notification memory =>
    obtain ⟨hid, rfl⟩ := hstep
    exact h.begin hid rfl
  | operate id =>
    obtain ⟨call, op, next, r, u, hid, hphase, hr, rfl⟩ := hstep
    exact h.operate hpeers hid hphase hr
  | dial id =>
    obtain ⟨call, address, next, hid, hphase, hclosed, rfl⟩ := hstep
    exact h.dial hpeers hid hphase hclosed
  | reply id =>
    obtain ⟨call, result, hid, _, rfl⟩ := hstep
    exact h.setPhase hid
  | execute id =>
    obtain ⟨call, hid, _, ⟨hdisconnects, rfl⟩ | ⟨target, _, _, rfl⟩⟩ := hstep
    · exact (h.closeSocket (hallowed call hid hdisconnects)).setPhase hid
    · have hset : ConnectionsOk relay (s.setSocket call.socket (.native target)) :=
        h.setSocket (fun _ _ hs => nomatch hs) fun hs => nomatch hs
      have hphase : ConnectionsOk relay ((s.setSocket call.socket (.native target)).setCall id
          { call with phase := .returned (.ok .continueSyscall) }) := hset.setPhase hid
      exact ⟨hphase.relayed, hphase.stays, hphase.settled, hphase.started⟩
  | refuse id =>
    obtain ⟨call, hid, _, rfl⟩ := hstep
    exact h.setPhase hid
  | close socket =>
    cases hstep
    exact h.closeSocket hallowed
  | listen socket =>
    obtain ⟨_, rfl⟩ := hstep
    exact h.setSocket (fun _ _ hs => nomatch hs) fun hs => nomatch hs
  | sweep => exact h.sweep hstep
  | startDump => exact h.startDump hstep
  | endDump cookies => exact h.endDump hstep
  | retain => exact h.retain hstep
  | tick =>
    cases hstep
    exact ⟨h.relayed, h.stays, h.settled, fun snapshot hs => Nat.le_succ_of_le (h.started snapshot hs)⟩
  | failSnapshot =>
    cases hstep
    exact h.setSnapshot (fun _ hs => nomatch hs) fun _ _ _ _ _ _ => trivial

theorem peersOk_reachable {allowed : TcpEvent → TcpSystem → Prop}
    (h : (tcpSystem config relay).ReachableWith allowed s) : PeersOk relay s :=
  h.invariant (I := PeersOk relay) (fun _ => peersOk_initial) fun event _ _ hok _ =>
    peersOk_step event hok

theorem connectionsOk_reachable (h : (tcpSystem config relay).ReachableWith ClosesUnheld s) :
    ConnectionsOk relay s := by
  have hboth : PeersOk relay s ∧ ConnectionsOk relay s := by
    refine h.invariant (I := fun s => PeersOk relay s ∧ ConnectionsOk relay s)
      (fun _ hs => ⟨peersOk_initial hs, connectionsOk_initial hs⟩) ?_
    intro event u v hok hallowed hstep
    exact ⟨peersOk_step event hok.1 hstep, connectionsOk_step event hok.2 hok.1 hallowed hstep⟩
  exact hboth.2

/-- The entry of a socket that is connected for a call which was answered. -/
theorem entry_of_answered (h : (tcpSystem config relay).ReachableWith ClosesUnheld s)
    {socket : UInt64} {peer : SocketAddrV4} (hsocket : s.sockets socket = .relayed id peer)
    (hid : s.calls id = some call)
    (hphase : call.phase = .returned (.ok (.value 0)) ∨
      call.phase = .returned (.error (.os Errno.einprogress))) :
    peer = relay ∧ ∃ entry, s.peers.lookup socket = some entry ∧
      ConnectsTo call.memory call.notification entry.target ∧
      Broker.tcpTarget (s.peers.lookup socket) (.ok relay) = .ok (some entry.target) := by
  have hok := connectionsOk_reachable h
  obtain ⟨hpeer, call', hid', rfl, hregistered⟩ := hok.relayed socket id peer hsocket
  cases hid.symm.trans hid'
  have hcall := (peersOk_reachable h).calls id call hid
  have hsettled : call.record.settled = true := by
    rcases hphase with hphase | hphase
    · exact (hcall.returned _ hphase).settled hregistered (.inl rfl)
    · exact (hcall.returned _ hphase).settled hregistered (.inr rfl)
  obtain ⟨entry, hentry, hinternal, hconnects, _⟩ := hok.settled id call peer hid hsettled hsocket
  refine ⟨hpeer, entry, hentry, hconnects, ?_⟩
  rw [hentry]
  simp [Broker.tcpTarget, hinternal]

theorem left_of_failed {allowed : TcpEvent → TcpSystem → Prop}
    (h : (tcpSystem config relay).ReachableWith allowed s) (hid : s.calls id = some call)
    (hinserted : call.record.inserted = true)
    (hphase : (∃ next, call.phase = .running (.perform .stop next)) ∨
      ∃ error, call.phase = .returned (.error error) ∧ error ≠ .os Errno.einprogress) :
    call.record.left = some none := by
  have hcall := (peersOk_reachable h).calls id call hid
  rcases hphase with ⟨next, hphase⟩ | ⟨error, hphase, hne⟩
  · exact (hcall.running _ hphase _ (.refl _)).1 hinserted
  · exact (hcall.returned _ hphase).failed hinserted error rfl hne

theorem left_of_continued {allowed : TcpEvent → TcpSystem → Prop}
    (h : (tcpSystem config relay).ReachableWith allowed s) (hid : s.calls id = some call)
    {target : SocketAddrV4} (hconnects : ConnectsTo call.memory call.notification target)
    (hphase : call.phase = .continued ∨ call.phase = .returned (.ok .continueSyscall)) :
    call.record.left = some none := by
  have hcall := (peersOk_reachable h).calls id call hid
  have hends : Ends call.memory call.notification (.ok .continueSyscall) call.record := by
    rcases hphase with hphase | hphase
    · exact hcall.continued hphase
    · exact hcall.returned _ hphase
  rcases hends.continued rfl with hdisconnects | hleft
  · exact absurd hconnects (not_connectsTo_of_disconnects hdisconnects)
  · exact hleft

end

end TcpSystem

/-- A socket that a call has connected to the relay keeps the entry with the
destination of that call, a call that fails or is cancelled after its entry was
inserted leaves none, nor does a call to an address that is continued. -/
theorem peer_entries {config : Config} {relay : SocketAddrV4} {s : TcpSystem}
    (h : (tcpSystem config relay).Reachable s) :
    ((tcpSystem config relay).ReachableWith TcpSystem.ClosesUnheld s →
      ∀ socket id call peer, s.sockets socket = .relayed id peer → s.calls id = some call →
        call.phase = .returned (.ok (.value 0)) ∨
          call.phase = .returned (.error (.os Errno.einprogress)) →
        peer = relay ∧ ∃ entry, s.peers.lookup socket = some entry ∧
          ConnectsTo call.memory call.notification entry.target ∧
          Broker.tcpTarget (s.peers.lookup socket) (.ok relay) = .ok (some entry.target)) ∧
    (∀ id call, s.calls id = some call → call.record.inserted = true →
      (∃ next, call.phase = .running (.perform .stop next)) ∨
        (∃ error, call.phase = .returned (.error error) ∧ error ≠ .os Errno.einprogress) →
      call.record.left = some none) ∧
    ∀ id call target, s.calls id = some call → ConnectsTo call.memory call.notification target →
      call.phase = .continued ∨ call.phase = .returned (.ok .continueSyscall) →
      call.record.left = some none := by
  refine ⟨?_, ?_, ?_⟩
  · intro hunheld socket id call peer hsocket hid hphase
    exact TcpSystem.entry_of_answered hunheld hsocket hid hphase
  · intro id call hid hinserted hphase
    exact TcpSystem.left_of_failed h hid hinserted hphase
  · intro id call target hid hconnects hphase
    exact TcpSystem.left_of_continued h hid hconnects hphase

namespace TcpSystem

/-- A first call has been redirected to the relay and answered. -/
structure Redirected (s : TcpSystem) : Prop where
  socket : s.sockets 9 = .relayed 0 ingressAddress
  closed : ∀ socket, socket ≠ 9 → s.sockets socket = .closed
  call : s.calls 0 = some ⟨9, connecting 16, holding (addressBytes server),
    .returned (.ok (.value 0)), ⟨none, false, false, true, true, true,
      some (some ⟨server, ingressAddress, 0, false⟩)⟩⟩
  others : ∀ id, id ≠ 0 → s.calls id = none
  owners : ∀ lock, s.owners lock = none
  entry : s.peers.lookup 9 = some ⟨server, ingressAddress, 0, false⟩
  snapshot : s.snapshot = none

theorem reachable_redirected (allowed : TcpEvent → TcpSystem → Prop)
    (hallowed : ∀ s, allowed (.begin 0 9 (connecting 16) (holding (addressBytes server))) s ∧
      allowed (.operate 0) s ∧ allowed (.dial 0) s ∧ allowed (.reply 0) s) :
    ∃ s, (tcpSystem proxied ingressAddress).ReachableWith allowed s ∧ Redirected s := by
  have h0 : (tcpSystem proxied ingressAddress).ReachableWith allowed initial :=
    .start initial_initial
  have h1 := reachable_next (.begin 0 9 (connecting 16) (holding (addressBytes server))) h0
    (hallowed _).1 ⟨rfl, rfl⟩
  have h2 := reachable_operate 0 .cookie (.ok 9) h1 (hallowed _).2.1 rfl rfl
    ⟨rfl, fun _ h => (Except.ok.inj h).symm⟩
  have h3 := reachable_operate 0 (.getLock 9) 0 h2 (hallowed _).2.1 rfl rfl
    (.inr ⟨fun _ h => (nomatch h), rfl, rfl⟩)
  have h4 := reachable_operate 0 (.lock 0) true h3 (hallowed _).2.1 rfl rfl (.inr ⟨rfl, rfl, rfl⟩)
  have h5 := reachable_operate 0 .valid (.ok ()) h4 (hallowed _).2.1 rfl rfl rfl
  have h6 := reachable_operate 0 .state (.ok 7) h5 (hallowed _).2.1 rfl rfl
    ⟨rfl, fun _ h => ⟨fun _ => rfl, fun _ => (Except.ok.inj h).symm⟩⟩
  have h7 := reachable_operate 0 (.removePeer 9) () h6 (hallowed _).2.1 rfl rfl rfl
  have h8 := reachable_operate 0 (.target server) (Resolver.target .new server) h7
    (hallowed _).2.1 rfl rfl ⟨rfl, _, rfl⟩
  have h9 := reachable_operate 0 .acquire true h8 (hallowed _).2.1 rfl rfl rfl
  have h10 := reachable_operate 0 .valid (.ok ()) h9 (hallowed _).2.1 rfl rfl rfl
  have h11 := reachable_operate 0 (.insertPeer 9 server ingressAddress) () h10 (hallowed _).2.1
    rfl rfl rfl
  have h12 := reachable_operate 0 .register (.ok 5000) h11 (hallowed _).2.1 rfl rfl rfl
  have h13 := reachable_operate 0 .valid (.ok ()) h12 (hallowed _).2.1 rfl rfl rfl
  have h14 := reachable_next (.dial 0) h13 (hallowed _).2.2.1 ⟨_, _, _, rfl, rfl, rfl, rfl⟩
  have h15 := reachable_operate 0 (.connect ingressAddress) (some (.ok ())) h14 (hallowed _).2.1
    rfl rfl rfl
  have h16 := reachable_operate 0 (.settlePeer 9) () h15 (hallowed _).2.1 rfl rfl rfl
  have h17 := reachable_operate 0
    (.spawn ⟨9, 5000, .outbound (.ip (.v4 server.ip) server.port) (.socks5 "127.0.0.1:1080" none)⟩)
    () h16 (hallowed _).2.1 rfl rfl rfl
  have h18 := reachable_operate 0 (.unlock 0) () h17 (hallowed _).2.1 rfl rfl rfl
  have h19 := reachable_next (.reply 0) h18 (hallowed _).2.2.2 ⟨_, _, rfl, rfl, rfl⟩
  refine ⟨_, h19, rfl, ?_, rfl, ?_, ?_, rfl, rfl⟩
  · intro socket hne
    simp [setCall, setOwner, setPeers, setSocket, settlePeer, initial, hne]
  · intro id hne
    simp [setCall, setOwner, setPeers, setSocket, settlePeer, initial, hne]
  · intro lock
    by_cases hlock : lock = 0
    · subst hlock
      rfl
    · simp [setCall, setOwner, setPeers, setSocket, settlePeer, initial]

theorem Redirected.not_alive {s : TcpSystem} (h : Redirected s) (lock : Nat) : ¬s.Alive lock := by
  rintro ⟨id, call, hid, hlock⟩
  by_cases hzero : id = 0
  · subst hzero
    cases h.call.symm.trans hid
    cases hlock
  · cases (h.others id hzero).symm.trans hid

theorem not_alive_setCall {s : TcpSystem} {id lock : Nat} {call : TcpCall} (h : ¬s.Alive lock)
    (hcall : call.record.handle = none) : ¬(s.setCall id call).Alive lock := by
  rintro ⟨id', call', hid', hlock⟩
  rcases calls_setCall hid' with ⟨rfl, rfl⟩ | ⟨_, hid'⟩
  · cases hcall.symm.trans hlock
  · exact h ⟨id', call', hid', hlock⟩

def otherServer : SocketAddrV4 := ⟨.new 1 1 1 1, 443⟩

end TcpSystem

section

open TcpSystem

/-- The entry stays when the cleanup runs after the call. -/
theorem peer_entries_cleanup : ∃ s,
    (tcpSystem proxied ingressAddress).ReachableWith ClosesUnheld s ∧
      s.sockets 9 = .relayed 0 ingressAddress ∧ s.snapshot = none ∧
      ∃ entry, s.peers.lookup 9 = some entry ∧
        ConnectsTo (holding (addressBytes server)) (connecting 16) entry.target ∧
        Broker.tcpTarget (s.peers.lookup 9) (.ok ingressAddress) = .ok (some entry.target) := by
  obtain ⟨s, h0, hs⟩ := reachable_redirected ClosesUnheld
    fun _ => ⟨trivial, trivial, trivial, trivial⟩
  have hpeers : s.peers ≠ ∅ := by
    intro hempty
    have hentry := hs.entry
    rw [hempty] at hentry
    cases hentry
  have h1 := reachable_next .tick h0 trivial rfl
  have h2 := reachable_next .sweep h1 trivial ⟨∅, _, fun cookie lock =>
    ⟨fun h => (nomatch h), fun h => absurd h.2 (hs.not_alive lock)⟩,
    .inr ⟨hs.snapshot, hpeers, rfl⟩, rfl⟩
  have h3 := reachable_next .startDump h2 trivial ⟨_, rfl, rfl⟩
  have h4 := reachable_next (.endDump [9]) h3 trivial ⟨_, _, rfl, fun socket h => by
    by_contra hne
    rw [hs.closed socket (by simpa using hne)] at h
    exact h, rfl⟩
  have h5 := reachable_next .retain h4 trivial ⟨_, _, rfl, rfl⟩
  refine ⟨_, h5, hs.socket, rfl, ?_⟩
  exact ((peer_entries h5.reachable).1 h5 9 0 _ ingressAddress hs.socket hs.call (.inl rfl)).2

/-- A second call finds the socket open, with the entry of the first. Before it
connects again, a third call disconnects the socket, so that the second opens the
connection, and is answered, with the destination of the first on record. -/
theorem entry_of_first_call : ∃ s call, (tcpSystem proxied ingressAddress).Reachable s ∧
    s.sockets 9 = .relayed 1 ingressAddress ∧ s.calls 1 = some call ∧
    call.phase = .returned (.ok (.value 0)) ∧
    ConnectsTo call.memory call.notification otherServer ∧ otherServer ≠ server ∧
    Broker.tcpTarget (s.peers.lookup 9) (.ok ingressAddress) = .ok (some server) := by
  obtain ⟨s, h0, hs⟩ := reachable_redirected (fun _ _ => True)
    fun _ => ⟨trivial, trivial, trivial, trivial⟩
  have h1 := reachable_next (.begin 1 9 (connecting 16) (holding (addressBytes otherServer))) h0
    trivial ⟨hs.others 1 (by decide), rfl⟩
  have h2 := reachable_operate 1 .cookie (.ok 9) h1 trivial rfl rfl
    ⟨rfl, fun _ h => (Except.ok.inj h).symm⟩
  have h3 := reachable_operate 1 (.getLock 9) s.nextLock h2 trivial rfl rfl
    (.inr ⟨fun lock _ => not_alive_setCall (not_alive_setCall (hs.not_alive lock) rfl) rfl,
      rfl, rfl⟩)
  have h4 := reachable_operate 1 (.lock s.nextLock) true h3 trivial rfl rfl
    (.inr ⟨rfl, hs.owners _, rfl⟩)
  have h5 := reachable_operate 1 .valid (.ok ()) h4 trivial rfl rfl rfl
  have h6 := reachable_operate 1 .state (.ok 1) h5 trivial rfl rfl ⟨rfl, fun _ h => by
    cases h
    exact ⟨fun h => absurd h (by decide), fun h => nomatch hs.socket.symm.trans h⟩⟩
  have h7 := reachable_operate 1 (.peer 9) (some ⟨server, ingressAddress, 0, false⟩) h6 trivial
    rfl rfl ⟨rfl, hs.entry.symm⟩
  have h8 := reachable_next (.begin 2 9 (connecting 2) (holding [0, 0])) h7 trivial
    ⟨hs.others 2 (by decide), rfl⟩
  have h9 := reachable_next (.reply 2) h8 trivial ⟨_, _, rfl, rfl, rfl⟩
  have h10 := reachable_next (.execute 2) h9 trivial ⟨_, rfl, rfl, .inl ⟨rfl, rfl⟩⟩
  have h11 := reachable_operate 1 .valid (.ok ()) h10 trivial rfl rfl rfl
  have h12 := reachable_next (.dial 1) h11 trivial ⟨_, _, _, rfl, rfl, rfl, rfl⟩
  have h13 := reachable_operate 1 (.connect ingressAddress) (some (.ok ())) h12 trivial rfl rfl rfl
  have h14 := reachable_operate 1 (.unlock s.nextLock) () h13 trivial rfl rfl rfl
  have h15 := reachable_next (.reply 1) h14 trivial ⟨_, _, rfl, rfl, rfl⟩
  have hconnects : ConnectsTo (holding (addressBytes otherServer)) (connecting 16) otherServer := rfl
  refine ⟨_, _, h15, rfl, rfl, rfl, hconnects, by decide, ?_⟩
  exact congrArg (fun peer => Broker.tcpTarget peer (.ok ingressAddress)) hs.entry

end

end Scproxy
