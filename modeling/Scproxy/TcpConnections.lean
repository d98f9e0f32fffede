import Scproxy.TcpPeers

namespace Scproxy

def Snapshot.started : Snapshot → Nat
  | .requested started => started
  | .dumping started _ => started
  | .dumped started _ => started

/-- The cleanup will not drop the entry of a connected socket. -/
def Protected (socket : UInt64) (peer : Peer) : Option Snapshot → Prop
  | some (.dumping started connected) => started ≤ peer.created ∨ connected socket
  | some (.dumped started cookies) => started ≤ peer.created ∨ socket ∈ cookies
  | _ => True

theorem protected_of_started {socket : UInt64} {peer : Peer} {snapshot : Option Snapshot}
    (h : ∀ current, snapshot = some current → current.started ≤ peer.created) :
    Protected socket peer snapshot := by
  cases snapshot with
  | none => trivial
  | some current =>
    cases current with
    | requested started => trivial
    | dumping started connected => exact .inl (h _ rfl)
    | dumped started cookies => exact .inl (h _ rfl)

theorem Protected.forget {socket other : UInt64} {peer : Peer} {snapshot : Option Snapshot}
    (h : Protected socket peer snapshot) (hne : socket ≠ other) :
    Protected socket peer (snapshot.map (Snapshot.forget other)) := by
  cases snapshot with
  | none => trivial
  | some current =>
    cases current with
    | requested started => trivial
    | dumping started connected => exact h.imp_right fun hc => ⟨hc, hne⟩
    | dumped started cookies => exact h

theorem Snapshot.started_forget {socket : UInt64} {snapshot : Snapshot} :
    (snapshot.forget socket).started = snapshot.started := by
  cases snapshot <;> rfl

namespace TcpSystem

/-- A call that found the socket open holds its lock. -/
def HeldOpen (s : TcpSystem) (socket : UInt64) : Prop :=
  ∃ id call, s.calls id = some call ∧ call.socket = socket ∧ call.record.holding = true ∧
    call.record.foundOpen = true

/-- A socket is not disconnected or shut down under a call that found it open. -/
def ClosesUnheld : TcpEvent → TcpSystem → Prop
  | .close socket, s => ¬s.HeldOpen socket
  | .execute id, s => ∀ call, s.calls id = some call → Disconnects call.memory call.notification →
      ¬s.HeldOpen call.socket
  | _, _ => True

/-- The entry of the socket is that of the call. -/
def Registered (relay : SocketAddrV4) (s : TcpSystem) (call : TcpCall) : Prop :=
  ∃ entry, s.peers.lookup call.socket = some entry ∧ entry.internal = relay ∧
    ConnectsTo call.memory call.notification entry.target ∧
    Protected call.socket entry s.snapshot

structure ConnectionsOk (relay : SocketAddrV4) (s : TcpSystem) : Prop where
  relayed : ∀ socket id peer, s.sockets socket = .relayed id peer → peer = relay ∧
    ∃ call, s.calls id = some call ∧ call.socket = socket ∧ call.record.registered = true
  stays : ∀ id call, s.calls id = some call → call.record.holding = true →
    call.record.foundOpen = true → s.sockets call.socket ≠ .closed
  settled : ∀ id call peer, s.calls id = some call → call.record.settled = true →
    s.sockets call.socket = .relayed id peer → s.Registered relay call
  started : ∀ snapshot, s.snapshot = some snapshot → snapshot.started ≤ s.clock

section

variable {config : Config} {relay : SocketAddrV4} {s t : TcpSystem} {id : Nat} {call : TcpCall}

theorem Answers.registered {op : TcpOperation} {r : op.Ret} {entry : Option Peer}
    (hguard : (peerDiscipline relay call.socket call.memory call.notification).guard op
      (s.peerView id call)) (hregistered : call.record.registered = true) :
    (call.record.next entry op r).registered = true := by
  cases op with
  | register => exact absurd (hguard.symm.trans hregistered) (by decide)
  | _ => exact hregistered

theorem settled_next {record : CallRecord} {entry : Option Peer} {op : TcpOperation} {r : op.Ret}
    (h : (record.next entry op r).settled = true) :
    record.settled = true ∨ ∃ cookie, op = .settlePeer cookie := by
  cases op with
  | settlePeer cookie => exact .inr ⟨cookie, rfl⟩
  | _ => exact .inl h

theorem Answers.heldOpen {op : TcpOperation} {r : op.Ret} {entry : Option Peer}
    (hguard : (peerDiscipline relay call.socket call.memory call.notification).guard op
      (s.peerView id call))
    (hr : s.Answers id call op r t) (hholding : (call.record.next entry op r).holding = true)
    (hopen : (call.record.next entry op r).foundOpen = true) :
    call.record.holding = true ∧ call.record.foundOpen = true ∨
      s.sockets call.socket ≠ .closed := by
  rcases hr.foundOpen hopen with hold | hsocket
  · refine .inl ⟨?_, hold⟩
    cases op with
    | lock lock => exact absurd (hguard.2.symm.trans hold) (by decide)
    | unlock lock => cases hholding
    | _ => exact hholding
  · exact .inr hsocket

/-- The entry that a call settles is newer than any snapshot. -/
theorem ConnectionsOk.settle (h : ConnectionsOk relay s) {cookie : UInt64}
    (hguard : (peerDiscipline relay call.socket call.memory call.notification).guard
      (.settlePeer cookie) (s.peerView id call)) :
    (s.settlePeer cookie).Registered relay call := by
  obtain ⟨rfl, _, _, _, target, created, hconnects, hentry⟩ := hguard
  have hlookup : (s.settlePeer call.socket).peers.lookup call.socket =
      some ⟨target, relay, s.clock, false⟩ := by
    rw [lookup_settlePeer, if_pos rfl, show s.peers.lookup call.socket = _ from hentry]
    rfl
  refine ⟨_, hlookup, rfl, hconnects, protected_of_started ?_⟩
  have hsnapshot : (s.settlePeer call.socket).snapshot = s.snapshot := by
    unfold settlePeer
    split
    · rfl
    · rfl
  rw [hsnapshot]
  exact h.started

theorem ConnectionsOk.operate (h : ConnectionsOk relay s) (hpeers : PeersOk relay s)
    {op : TcpOperation} {next : op.Ret → TcpProgram} {r : op.Ret} (hid : s.calls id = some call)
    (hphase : call.phase = .running (.perform op next)) (hr : s.Answers id call op r t) :
    ConnectionsOk relay (t.setCall id { call with
      phase := .running (next r)
      record := call.record.next (s.peers.lookup call.socket) op r }) := by
  obtain ⟨hguard, _⟩ := (hpeers.calls id call hid).running _ hphase _ (.refl _)
  have hchanged := hr.peers_of_ne hguard
  obtain ⟨_, _, _, _, ht⟩ := hr.frame
  have hcalls : t.calls = s.calls := by rw [ht]
  have hsockets : t.sockets = s.sockets := by rw [ht]
  have hsnapshot : t.snapshot = s.snapshot := by rw [ht]
  have hclock : t.clock = s.clock := by rw [ht]
  constructor
  · intro socket id' peer hsocket
    rw [show (t.setCall id _).sockets = s.sockets from hsockets] at hsocket
    obtain ⟨hpeer, call', hid', hsocket', hregistered⟩ := h.relayed socket id' peer hsocket
    refine ⟨hpeer, ?_⟩
    by_cases heq : id' = id
    · subst heq
      rw [hid] at hid'
      cases hid'
      exact ⟨_, Function.update_self .., hsocket', Answers.registered hguard hregistered⟩
    · refine ⟨call', ?_, hsocket', hregistered⟩
      rw [t.calls_setCall_of_ne _ heq, hcalls]
      exact hid'
  · intro id' call' hid' hholding hopen
    change t.sockets call'.socket ≠ _
    rw [hsockets]
    rcases calls_setCall hid' with ⟨rfl, rfl⟩ | ⟨_, hid'⟩
    · rcases hr.heldOpen hguard hholding hopen with ⟨hold, hold'⟩ | hsocket
      · exact h.stays id' call hid hold hold'
      · exact hsocket
    · exact h.stays id' call' (hcalls ▸ hid') hholding hopen
  · intro id' call' peer hid' hsettled hsocket
    change t.sockets call'.socket = _ at hsocket
    rw [hsockets] at hsocket
    rcases calls_setCall hid' with ⟨rfl, rfl⟩ | ⟨hne, hid'⟩
    · rcases settled_next hsettled with hold | ⟨cookie, rfl⟩
      · obtain ⟨entry, hentry, hrest⟩ := h.settled id' call peer hid hold hsocket
        rcases hchanged with hsame | ⟨_, hunsettled, _⟩
        · refine ⟨entry, ?_, hsnapshot ▸ hrest⟩
          exact (congrArg (AList.lookup call.socket) hsame).trans hentry
        · rw [hunsettled] at hold
          cases hold
      · have hown := h.settle hguard
        cases hr
        exact hown
    · obtain ⟨entry, hentry, hrest⟩ := h.settled id' call' peer (hcalls ▸ hid') hsettled hsocket
      refine ⟨entry, Eq.trans ?_ hentry, hsnapshot ▸ hrest⟩
      rcases hchanged with hsame | ⟨_, _, hforeign, hothers⟩
      · exact congrArg (AList.lookup call'.socket) hsame
      · refine hothers _ fun heq => hforeign ⟨id', peer, heq ▸ hsocket, hne⟩
  · intro snapshot hs
    change t.snapshot = _ at hs
    change _ ≤ t.clock
    rw [hclock]
    exact h.started snapshot (hsnapshot ▸ hs)

/-- A call that found its socket open does not connect it, as the socket stays open. -/
theorem ConnectionsOk.dial (h : ConnectionsOk relay s) (hpeers : PeersOk relay s)
    {address : SocketAddrV4} {next : Option (Except IoError Unit) → TcpProgram}
    (hid : s.calls id = some call)
    (hphase : call.phase = .running (.perform (.connect address) next))
    (hclosed : s.sockets call.socket = .closed) :
    ConnectionsOk relay (s.setSocket call.socket (.relayed id address)) := by
  obtain ⟨⟨hholding, hunsettled, hfresh⟩, _⟩ :=
    (hpeers.calls id call hid).running _ hphase _ (.refl _)
  have hregistered : call.record.registered = true ∧ address = relay := by
    rcases hfresh with hopen | hfresh
    · exact absurd hclosed (h.stays id call hid hholding hopen)
    · exact hfresh
  constructor
  · intro socket id' peer hsocket
    rw [sockets_setSocket] at hsocket
    split at hsocket
    · next heq =>
      cases hsocket
      exact ⟨hregistered.2, call, hid, heq.symm, hregistered.1⟩
    · exact h.relayed socket id' peer hsocket
  · intro id' call' hid' hheld hopen hsocket
    rw [sockets_setSocket] at hsocket
    split at hsocket
    · cases hsocket
    · exact h.stays id' call' hid' hheld hopen hsocket
  · intro id' call' peer hid' hsettled hsocket
    rw [sockets_setSocket] at hsocket
    split at hsocket
    · cases hsocket
      cases hid.symm.trans hid'
      exact absurd (hunsettled.symm.trans hsettled) (by decide)
    · exact h.settled id' call' peer hid' hsettled hsocket
  · exact h.started

/-- A call that goes to another phase. -/
theorem ConnectionsOk.setPhase (h : ConnectionsOk relay s) {phase : CallPhase}
    (hid : s.calls id = some call) :
    ConnectionsOk relay (s.setCall id { call with phase := phase }) := by
  constructor
  · intro socket id' peer hsocket
    obtain ⟨hpeer, call', hid', hrest⟩ := h.relayed socket id' peer hsocket
    refine ⟨hpeer, ?_⟩
    by_cases heq : id' = id
    · subst heq
      rw [hid] at hid'
      cases hid'
      exact ⟨_, Function.update_self .., hrest⟩
    · exact ⟨call', (s.calls_setCall_of_ne _ heq).trans hid', hrest⟩
  · intro id' call' hid' hholding hopen
    rcases calls_setCall hid' with ⟨rfl, rfl⟩ | ⟨_, hid'⟩
    · exact h.stays id' call hid hholding hopen
    · exact h.stays id' call' hid' hholding hopen
  · intro id' call' peer hid' hsettled hsocket
    rcases calls_setCall hid' with ⟨rfl, rfl⟩ | ⟨_, hid'⟩
    · exact h.settled id' call peer hid hsettled hsocket
    · exact h.settled id' call' peer hid' hsettled hsocket
  · exact h.started

/-- A socket that is not connected by the broker. -/
theorem ConnectionsOk.setSocket (h : ConnectionsOk relay s) {socket : UInt64} {state : TcpSocket}
    (hstate : ∀ other peer, state ≠ .relayed other peer)
    (hclosed : state = .closed → ¬s.HeldOpen socket) : ConnectionsOk relay (s.setSocket socket state) := by
  constructor
  · intro other id peer hsocket
    rw [sockets_setSocket] at hsocket
    split at hsocket
    · exact absurd hsocket (hstate id peer)
    · exact h.relayed other id peer hsocket
  · intro id call hid hholding hopen hsocket
    rw [sockets_setSocket] at hsocket
    split at hsocket
    · next heq => exact hclosed hsocket ⟨id, call, hid, heq, hholding, hopen⟩
    · exact h.stays id call hid hholding hopen hsocket
  · intro id call peer hid hsettled hsocket
    rw [sockets_setSocket] at hsocket
    split at hsocket
    · exact absurd hsocket (hstate id peer)
    · exact h.settled id call peer hid hsettled hsocket
  · exact h.started

theorem ConnectionsOk.closeSocket (h : ConnectionsOk relay s) {socket : UInt64}
    (hallowed : ¬s.HeldOpen socket) : ConnectionsOk relay (s.closeSocket socket) := by
  have hset : ConnectionsOk relay (s.setSocket socket .closed) :=
    h.setSocket (fun _ _ hs => nomatch hs) fun _ => hallowed
  refine ⟨hset.relayed, hset.stays, ?_, ?_⟩
  · intro id call peer hid hsettled hsocket
    obtain ⟨entry, hentry, hinternal, hconnects, hprotected⟩ :=
      hset.settled id call peer hid hsettled hsocket
    refine ⟨entry, hentry, hinternal, hconnects, hprotected.forget fun heq => ?_⟩
    change (s.setSocket socket .closed).sockets call.socket = _ at hsocket
    rw [sockets_setSocket, if_pos heq] at hsocket
    cases hsocket
  · intro snapshot hs
    obtain ⟨current, hcurrent, rfl⟩ := Option.map_eq_some_iff.mp hs
    rw [Snapshot.started_forget]
    exact h.started current hcurrent

/-- A cleanup step that changes the snapshot only. -/
theorem ConnectionsOk.setSnapshot (h : ConnectionsOk relay s) {snapshot : Option Snapshot}
    (hstarted : ∀ current, snapshot = some current → current.started ≤ s.clock)
    (hprotected : ∀ socket id peer entry, s.sockets socket = .relayed id peer →
      Protected socket entry s.snapshot → Protected socket entry snapshot) :
    ConnectionsOk relay { s with snapshot := snapshot } := by
  refine ⟨h.relayed, h.stays, ?_, hstarted⟩
  intro id call peer hid hsettled hsocket
  obtain ⟨entry, hentry, hinternal, hconnects, hp⟩ := h.settled id call peer hid hsettled hsocket
  exact ⟨entry, hentry, hinternal, hconnects, hprotected _ id peer entry hsocket hp⟩

theorem ConnectionsOk.sweep (h : ConnectionsOk relay s) (hstep : Step config relay .sweep s t) :
    ConnectionsOk relay t := by
  obtain ⟨locks, snapshot, _, hsnapshot, rfl⟩ := hstep
  have hset : ConnectionsOk relay { s with snapshot := snapshot } := by
    rcases hsnapshot with rfl | ⟨_, _, rfl⟩
    · exact h
    · refine h.setSnapshot ?_ fun _ _ _ _ _ _ => trivial
      rintro _ ⟨⟩
      exact Nat.le_refl _
  exact ⟨hset.relayed, hset.stays, hset.settled, hset.started⟩

theorem ConnectionsOk.startDump (h : ConnectionsOk relay s)
    (hstep : Step config relay .startDump s t) : ConnectionsOk relay t := by
  obtain ⟨started, hrequested, rfl⟩ := hstep
  refine h.setSnapshot ?_ ?_
  · rintro _ ⟨⟩
    exact h.started (.requested started) hrequested
  · intro socket id peer entry hsocket _
    refine .inr ?_
    change (s.sockets socket).Connected
    rw [hsocket]
    trivial

theorem ConnectionsOk.endDump (h : ConnectionsOk relay s) {cookies : List UInt64}
    (hstep : Step config relay (.endDump cookies) s t) : ConnectionsOk relay t := by
  obtain ⟨started, connected, hdumping, hcookies, rfl⟩ := hstep
  refine h.setSnapshot ?_ ?_
  · rintro _ ⟨⟩
    exact h.started (.dumping started connected) hdumping
  · intro socket id peer entry _ hprotected
    rw [hdumping] at hprotected
    exact hprotected.imp_right (hcookies socket)

theorem ConnectionsOk.retain (h : ConnectionsOk relay s) (hstep : Step config relay .retain s t) :
    ConnectionsOk relay t := by
  obtain ⟨started, cookies, hdumped, rfl⟩ := hstep
  refine ⟨h.relayed, h.stays, ?_, fun _ hs => (nomatch hs)⟩
  intro id call peer hid hsettled hsocket
  obtain ⟨entry, hentry, hinternal, hconnects, hprotected⟩ :=
    h.settled id call peer hid hsettled hsocket
  refine ⟨entry, ?_, hinternal, hconnects, trivial⟩
  rw [hdumped] at hprotected
  have hkept : (entry.pending || decide (started ≤ entry.created) ||
      decide (call.socket ∈ cookies)) = true := by
    rcases hprotected with hcreated | hmem
    · simp [hcreated]
    · simp [hmem]
  rw [HashMap.lookup_retain, hentry]
  exact Option.filter_some_pos hkept

end

end TcpSystem

end Scproxy
