import Scproxy.TcpDiscipline

namespace Scproxy

namespace TcpSystem

def peerView (s : TcpSystem) (id : Nat) (call : TcpCall) : PeerView :=
  ⟨call.record, s.peers.lookup call.socket,
    ∃ other peer, s.sockets call.socket = .relayed other peer ∧ other ≠ id⟩

/-- The lock of a socket is found as long as a call refers to it, and a call that
holds it is its owner. -/
structure LocksOk (s : TcpSystem) : Prop where
  handles : ∀ id call lock, s.calls id = some call → call.record.handle = some lock →
    s.locks.lookup call.socket = some lock
  owners : ∀ id call, s.calls id = some call → call.record.holding = true →
    ∃ lock, call.record.handle = some lock ∧ s.owners lock = some id

/-- A call keeps to the discipline until it ends. -/
structure CallOk (relay : SocketAddrV4) (s : TcpSystem) (id : Nat) (call : TcpCall) : Prop where
  running : ∀ program, call.phase = .running program → TcpProgram.Keeps relay call.socket
    call.memory call.notification program (s.peerView id call)
  continued : call.phase = .continued →
    Ends call.memory call.notification (.ok .continueSyscall) call.record
  returned : ∀ result, call.phase = .returned result →
    Ends call.memory call.notification result call.record

structure PeersOk (relay : SocketAddrV4) (s : TcpSystem) : Prop where
  locks : LocksOk s
  calls : ∀ id call, s.calls id = some call → CallOk relay s id call

section

variable {config : Config} {relay : SocketAddrV4} {s t : TcpSystem} {id : Nat} {call : TcpCall}

/-- Two calls do not hold the lock of one socket. -/
theorem LocksOk.unique (h : LocksOk s) {id' : Nat} {call' : TcpCall} (hid : s.calls id = some call)
    (hid' : s.calls id' = some call') (hsocket : call'.socket = call.socket)
    (hholding : call.record.holding = true) (hholding' : call'.record.holding = true) : id' = id := by
  obtain ⟨lock, hlock, howner⟩ := h.owners id call hid hholding
  obtain ⟨lock', hlock', howner'⟩ := h.owners id' call' hid' hholding'
  have hlookup := h.handles id call lock hid hlock
  rw [← hsocket, h.handles id' call' lock' hid' hlock'] at hlookup
  cases hlookup
  rw [howner] at howner'
  exact (Option.some.inj howner').symm

theorem LocksOk.setCall (h : LocksOk s) (hcalls : t.calls = s.calls)
    (hhandle : ∀ lock, call.record.handle = some lock → t.locks.lookup call.socket = some lock)
    (howner : call.record.holding = true →
      ∃ lock, call.record.handle = some lock ∧ t.owners lock = some id)
    (hhandles : ∀ id' call' lock, id' ≠ id → s.calls id' = some call' →
      call'.record.handle = some lock → t.locks.lookup call'.socket = some lock)
    (howners : ∀ id' lock, id' ≠ id → s.owners lock = some id' → t.owners lock = some id') :
    LocksOk (t.setCall id call) := by
  constructor
  · intro id' call' lock hid' hlock
    rcases calls_setCall hid' with ⟨rfl, rfl⟩ | ⟨hne, hid'⟩
    · exact hhandle lock hlock
    · exact hhandles id' call' lock hne (hcalls ▸ hid') hlock
  · intro id' call' hid' hholding
    rcases calls_setCall hid' with ⟨rfl, rfl⟩ | ⟨hne, hid'⟩
    · exact howner hholding
    · obtain ⟨lock, hlock, ho⟩ := h.owners id' call' (hcalls ▸ hid') hholding
      exact ⟨lock, hlock, howners id' lock hne ho⟩

/-- A call that neither takes nor gives back a lock. -/
theorem LocksOk.keep (h : LocksOk s) {call' : TcpCall} (hid : s.calls id = some call)
    (hcalls : t.calls = s.calls) (hlocks : t.locks = s.locks) (howners : t.owners = s.owners)
    (hsocket : call'.socket = call.socket) (hhandle : call'.record.handle = call.record.handle)
    (hholding : call'.record.holding = call.record.holding) : LocksOk (t.setCall id call') := by
  refine h.setCall hcalls ?_ ?_ ?_ ?_
  · intro lock hlock
    rw [hlocks, hsocket]
    exact h.handles id call lock hid (hhandle ▸ hlock)
  · rw [hholding, hhandle, howners]
    exact h.owners id call hid
  · intro id' call' lock _ hid' hlock
    rw [hlocks]
    exact h.handles id' call' lock hid' hlock
  · intro id' lock _ ho
    rw [howners]
    exact ho

theorem LocksOk.getLock (h : LocksOk s) {cookie : UInt64} {r : Nat} {record : CallRecord}
    (hcookie : cookie = call.socket) (hholding : record.holding = false)
    (hr : s.Answers id call (.getLock cookie) r t) {phase : CallPhase} :
    LocksOk (t.setCall id { call with
      phase := phase
      record := { record with handle := some r } }) := by
  subst hcookie
  have hfree : record.holding = true → ∃ lock, some r = some lock ∧ t.owners lock = some id := by
    intro hh
    rw [hholding] at hh
    cases hh
  rcases hr with ⟨hlookup, _, rfl⟩ | ⟨hdead, rfl, rfl⟩
  · refine h.setCall rfl ?_ hfree ?_ ?_
    · rintro _ ⟨⟩
      exact hlookup
    · exact fun id' call' lock _ => h.handles id' call' lock
    · exact fun _ _ _ ho => ho
  · refine h.setCall rfl ?_ hfree ?_ ?_
    · rintro _ ⟨⟩
      exact AList.lookup_insert _
    · intro id' call' lock _ hid' hlock
      have hlookup := h.handles id' call' lock hid' hlock
      by_cases hsocket : call'.socket = call.socket
      · rw [hsocket] at hlookup
        exact absurd ⟨id', call', hid', hlock⟩ (hdead lock hlookup)
      · rw [HashMap.lookup_insert_eq_ite, if_neg hsocket]
        exact hlookup
    · exact fun _ _ _ ho => ho

theorem LocksOk.lock (h : LocksOk s) {lock : Nat} {r : Bool} (hid : s.calls id = some call)
    (hhandle : call.record.handle = some lock) (hr : s.Answers id call (.lock lock) r t)
    {phase : CallPhase} :
    LocksOk (t.setCall id { call with
      phase := phase
      record := { call.record with holding := call.record.holding || r } }) := by
  rcases hr with ⟨rfl, rfl⟩ | ⟨rfl, hfree, rfl⟩
  · exact h.keep hid rfl rfl rfl rfl rfl (Bool.or_false _)
  · refine h.setCall rfl ?_ ?_ ?_ ?_
    · exact fun l hl => h.handles id call l hid hl
    · exact fun _ => ⟨lock, hhandle, Function.update_self ..⟩
    · exact fun id' call' l _ => h.handles id' call' l
    · intro id' l _ ho
      have hne : l ≠ lock := by
        intro heq
        rw [heq, hfree] at ho
        cases ho
      simpa [setOwner, hne] using ho

theorem LocksOk.unlock (h : LocksOk s) {lock : Nat} {entry : Option Peer} {phase : CallPhase}
    (hid : s.calls id = some call) (hhandle : call.record.handle = some lock)
    (hholding : call.record.holding = true) :
    LocksOk ((s.setOwner lock none).setCall id { call with
      phase := phase
      record := { call.record with handle := none, holding := false, left := some entry } }) := by
  obtain ⟨own, hown, howner⟩ := h.owners id call hid hholding
  rw [hhandle] at hown
  cases hown
  refine h.setCall rfl (fun _ hl => (nomatch hl)) (fun hh => (nomatch hh)) ?_ ?_
  · exact fun id' call' l _ => h.handles id' call' l
  · intro id' l hne ho
    have hother : l ≠ lock := by
      intro heq
      rw [heq, howner] at ho
      exact hne (Option.some.inj ho).symm
    simpa [setOwner, hother] using ho

/-- The locks after an operation that is made under its guard. -/
theorem LocksOk.operate (h : LocksOk s) {op : TcpOperation} {r : op.Ret}
    (hid : s.calls id = some call)
    (hguard : (peerDiscipline relay call.socket call.memory call.notification).guard op
      (s.peerView id call))
    (hr : s.Answers id call op r t) {entry : Option Peer} {phase : CallPhase} :
    LocksOk (t.setCall id { call with
      phase := phase
      record := call.record.next entry op r }) := by
  cases op with
  | getLock cookie => exact h.getLock hguard.1 hguard.2.2 hr
  | lock lock => exact h.lock hid hguard.1 hr
  | unlock lock =>
    cases hr
    exact h.unlock hid hguard.1 hguard.2
  | forget lock =>
    cases hr
    refine h.setCall rfl (fun _ hl => (nomatch hl)) ?_ ?_ fun _ _ _ ho => ho
    · intro hh
      exact absurd (hguard.symm.trans hh) (by decide)
    · exact fun id' call' l _ => h.handles id' call' l
  | settlePeer cookie =>
    cases hr
    have hsame : (s.settlePeer cookie).calls = s.calls ∧ (s.settlePeer cookie).locks = s.locks ∧
        (s.settlePeer cookie).owners = s.owners := by
      unfold settlePeer
      split
      · exact ⟨rfl, rfl, rfl⟩
      · exact ⟨rfl, rfl, rfl⟩
    exact h.keep hid hsame.1 hsame.2.1 hsame.2.2 rfl rfl rfl
  | cookie | state | peer cookie | target address =>
    obtain ⟨rfl, _⟩ := hr
    exact h.keep hid rfl rfl rfl rfl rfl rfl
  | _ =>
    cases hr
    exact h.keep hid rfl rfl rfl rfl rfl rfl

/-- What an operation tells the call that makes it. -/
theorem Answers.peers {op : TcpOperation} {r : op.Ret} {phase : CallPhase}
    (hguard : (peerDiscipline relay call.socket call.memory call.notification).guard op
      (s.peerView id call))
    (hr : s.Answers id call op r t) :
    (peerDiscipline relay call.socket call.memory call.notification).after op r (s.peerView id call)
      (t.peerView id { call with
        phase := phase
        record := call.record.next (s.peers.lookup call.socket) op r }) := by
  cases op with
  | cookie =>
    obtain ⟨rfl, hcookie⟩ := hr
    exact ⟨rfl, hcookie⟩
  | state =>
    obtain ⟨rfl, hstate⟩ := hr
    refine ⟨rfl, rfl, ?_⟩
    rintro hclosed ⟨other, peer, hsocket, _⟩
    rw [(hstate 7 hclosed).mp rfl] at hsocket
    cases hsocket
  | peer cookie =>
    obtain ⟨rfl, hpeer⟩ := hr
    obtain rfl : cookie = call.socket := hguard
    exact ⟨rfl, hpeer⟩
  | removePeer cookie =>
    cases hr
    obtain ⟨rfl, _⟩ := hguard
    simp [peerDiscipline, peerView, setPeers, CallRecord.next]
  | insertPeer cookie target internal =>
    cases hr
    obtain ⟨rfl, _⟩ := hguard
    refine ⟨s.clock, ?_⟩
    simp [peerView, setPeers, CallRecord.next]
  | getLock cookie | lock lock | settlePeer cookie | unlock lock | forget lock => rfl
  | target address =>
    obtain ⟨rfl, _⟩ := hr
    rfl
  | _ =>
    cases hr
    rfl

/-- A call changes the entry of its own socket only, under the lock. -/
theorem Answers.peers_of_ne {op : TcpOperation} {r : op.Ret}
    (hguard : (peerDiscipline relay call.socket call.memory call.notification).guard op
      (s.peerView id call))
    (hr : s.Answers id call op r t) :
    t.peers = s.peers ∨ call.record.holding = true ∧ call.record.settled = false ∧
      ¬(s.peerView id call).foreign ∧
      ∀ socket, socket ≠ call.socket → t.peers.lookup socket = s.peers.lookup socket := by
  cases op with
  | removePeer cookie =>
    cases hr
    obtain ⟨rfl, hholding, hsettled, hforeign⟩ := hguard
    exact .inr ⟨hholding, hsettled, hforeign, fun socket hne => AList.lookup_erase_ne hne⟩
  | insertPeer cookie target internal =>
    cases hr
    obtain ⟨rfl, hholding, hsettled, hforeign⟩ := hguard
    exact .inr ⟨hholding, hsettled, hforeign, fun socket hne => AList.lookup_insert_ne hne⟩
  | settlePeer cookie =>
    cases hr
    obtain ⟨rfl, hholding, hsettled, hforeign, _⟩ := hguard
    refine .inr ⟨hholding, hsettled, hforeign, fun socket hne => ?_⟩
    rw [lookup_settlePeer, if_neg hne]
  | getLock cookie =>
    rcases hr with ⟨_, _, rfl⟩ | ⟨_, _, rfl⟩
    · exact .inl rfl
    · exact .inl rfl
  | lock lock =>
    rcases hr with ⟨_, rfl⟩ | ⟨_, _, rfl⟩
    · exact .inl rfl
    · exact .inl rfl
  | cookie | state | peer cookie | target address =>
    obtain ⟨rfl, _⟩ := hr
    exact .inl rfl
  | _ =>
    cases hr
    exact .inl rfl

theorem CallOk.later (h : CallOk relay s id call)
    (hlater : (s.peerView id call).Later (t.peerView id call)) : CallOk relay t id call := by
  refine ⟨fun program hphase => ?_, h.continued, h.returned⟩
  exact Discipline.Spec.later (w := s.peerView id call) (fun _ hends => hends) hlater
    (h.running program hphase)

theorem PeersOk.setCall (h : PeersOk relay s) (hcalls : t.calls = s.calls)
    (hlocks : LocksOk (t.setCall id call)) (hcall : CallOk relay t id call)
    (hothers : ∀ id' call', id' ≠ id → s.calls id' = some call' →
      (s.peerView id' call').Later (t.peerView id' call')) : PeersOk relay (t.setCall id call) := by
  refine ⟨hlocks, ?_⟩
  intro id' call' hid'
  rcases calls_setCall hid' with ⟨rfl, rfl⟩ | ⟨hne, hid'⟩
  · exact ⟨hcall.running, hcall.continued, hcall.returned⟩
  · rw [hcalls] at hid'
    have hkept := (h.calls id' call' hid').later (hothers id' call' hne hid')
    exact ⟨hkept.running, hkept.continued, hkept.returned⟩

/-- What leaves the calls and the locks alone. -/
theorem PeersOk.frame (h : PeersOk relay s) (hcalls : t.calls = s.calls) (hlocks : t.locks = s.locks)
    (howners : t.owners = s.owners)
    (hlater : ∀ id call, s.calls id = some call →
      (s.peerView id call).Later (t.peerView id call)) : PeersOk relay t := by
  refine ⟨⟨?_, ?_⟩, ?_⟩
  · rw [hcalls, hlocks]
    exact h.locks.handles
  · rw [hcalls, howners]
    exact h.locks.owners
  · rw [hcalls]
    intro id call hid
    exact (h.calls id call hid).later (hlater id call hid)

/-- A socket that gets a state which is not a connection for another call. -/
theorem later_setSocket {socket : UInt64} {state : TcpSocket}
    (hstate : call.socket = socket → call.record.holding = true →
      ∀ other peer, state = .relayed other peer → other = id) :
    (s.peerView id call).Later ((s.setSocket socket state).peerView id call) := by
  refine ⟨rfl, fun hholding => ⟨.inl rfl, ?_⟩⟩
  rintro ⟨other, peer, hsocket, hother⟩
  change (s.setSocket socket state).sockets call.socket = _ at hsocket
  rw [sockets_setSocket] at hsocket
  split at hsocket
  · next heq => exact absurd (hstate heq hholding other peer hsocket) hother
  · exact ⟨other, peer, hsocket, hother⟩

theorem PeersOk.operate (h : PeersOk relay s) {op : TcpOperation} {next : op.Ret → TcpProgram}
    {r : op.Ret} (hid : s.calls id = some call)
    (hphase : call.phase = .running (.perform op next)) (hr : s.Answers id call op r t) :
    PeersOk relay (t.setCall id { call with
      phase := .running (next r)
      record := call.record.next (s.peers.lookup call.socket) op r }) := by
  obtain ⟨hguard, hnext⟩ := (h.calls id call hid).running _ hphase _ (.refl _)
  obtain ⟨_, _, _, _, ht⟩ := hr.frame
  have hcalls : t.calls = s.calls := by rw [ht]
  have hsockets : t.sockets = s.sockets := by rw [ht]
  refine h.setCall hcalls (h.locks.operate hid hguard hr) ?_ ?_
  · refine ⟨?_, fun hc => (nomatch hc), fun _ hc => (nomatch hc)⟩
    rintro _ ⟨⟩
    exact hnext r _ (hr.peers hguard)
  · intro id' call' hne hid'
    refine ⟨rfl, fun hholding' => ⟨.inl ?_, ?_⟩⟩
    · rcases hr.peers_of_ne hguard with hsame | ⟨hholding, _, _, hothers⟩
      · exact congrArg (AList.lookup call'.socket) hsame
      · refine hothers _ fun hsocket => ?_
        exact hne (h.locks.unique hid hid' hsocket hholding hholding')
    · simp only [peerView, hsockets]
      exact fun hforeign => hforeign

theorem PeersOk.dial (h : PeersOk relay s) {address : SocketAddrV4}
    {next : Option (Except IoError Unit) → TcpProgram} (hid : s.calls id = some call)
    (hphase : call.phase = .running (.perform (.connect address) next)) :
    PeersOk relay (s.setSocket call.socket (.relayed id address)) := by
  obtain ⟨⟨hholding, _⟩, _⟩ := (h.calls id call hid).running _ hphase _ (.refl _)
  refine h.frame rfl rfl rfl fun id' call' hid' => later_setSocket ?_
  rintro hsocket hholding' _ _ ⟨⟩
  exact (h.locks.unique hid hid' hsocket hholding hholding').symm

/-- A call that goes to another phase. -/
theorem PeersOk.setPhase (h : PeersOk relay s) {phase : CallPhase} (hid : s.calls id = some call)
    (hcall : CallOk relay s id { call with phase := phase }) :
    PeersOk relay (s.setCall id { call with phase := phase }) :=
  h.setCall rfl (h.locks.keep hid rfl rfl rfl rfl rfl rfl) hcall fun _ _ _ _ => .refl _

theorem callOk_returned {result : Except IoError Reply}
    (hends : Ends call.memory call.notification result call.record) :
    CallOk relay s id { call with phase := .returned result } := by
  refine ⟨fun _ hc => (nomatch hc), fun hc => (nomatch hc), ?_⟩
  rintro _ ⟨⟩
  exact hends

theorem PeersOk.reply (h : PeersOk relay s) {result : Except IoError Reply}
    (hid : s.calls id = some call) (hphase : call.phase = .running (.done result)) :
    PeersOk relay (s.setCall id { call with
      phase := if result = .ok .continueSyscall then .continued else .returned result }) := by
  have hends : Ends call.memory call.notification result call.record :=
    (h.calls id call hid).running _ hphase
  apply h.setPhase hid
  split
  · next hresult =>
    subst hresult
    exact ⟨fun _ hc => (nomatch hc), fun _ => hends, fun _ hc => (nomatch hc)⟩
  · exact callOk_returned hends

theorem PeersOk.setSocket (h : PeersOk relay s) {socket : UInt64} {state : TcpSocket}
    (hstate : ∀ other peer, state ≠ .relayed other peer) : PeersOk relay (s.setSocket socket state) :=
  h.frame rfl rfl rfl fun _ _ _ =>
    later_setSocket fun _ _ other peer hs => absurd hs (hstate other peer)

theorem PeersOk.closeSocket (h : PeersOk relay s) {socket : UInt64} :
    PeersOk relay (s.closeSocket socket) :=
  h.frame rfl rfl rfl fun _ _ _ => later_setSocket fun _ _ _ _ hs => (nomatch hs)

theorem PeersOk.execute (h : PeersOk relay s) (hstep : Step config relay (.execute id) s t) :
    PeersOk relay t := by
  obtain ⟨call, hid, hphase, hrun⟩ := hstep
  have hends := (h.calls id call hid).continued hphase
  rcases hrun with ⟨_, rfl⟩ | ⟨target, _, _, rfl⟩
  · exact h.closeSocket.setPhase hid (callOk_returned hends)
  · have hsocket : PeersOk relay (s.setSocket call.socket (.native target)) :=
      h.setSocket fun _ _ hs => nomatch hs
    exact (hsocket.setPhase hid (callOk_returned hends)).frame rfl rfl rfl fun _ _ _ => .refl _

theorem PeersOk.sweep (h : PeersOk relay s) (hstep : Step config relay .sweep s t) :
    PeersOk relay t := by
  obtain ⟨locks, snapshot, hlocks, _, rfl⟩ := hstep
  refine ⟨⟨?_, h.locks.owners⟩, fun id call hid => (h.calls id call hid).later (.refl _)⟩
  intro id call lock hid hlock
  exact (hlocks call.socket lock).mpr
    ⟨h.locks.handles id call lock hid hlock, id, call, hid, hlock⟩

theorem PeersOk.retain (h : PeersOk relay s) (hstep : Step config relay .retain s t) :
    PeersOk relay t := by
  obtain ⟨started, cookies, _, rfl⟩ := hstep
  refine h.frame rfl rfl rfl fun id call _ => ⟨rfl, fun _ => ⟨?_, fun hforeign => hforeign⟩⟩
  simp only [peerView, HashMap.lookup_retain]
  cases hentry : s.peers.lookup call.socket with
  | none => exact .inl rfl
  | some peer =>
    rw [Option.filter_some]
    split
    · exact .inl rfl
    · next hdropped =>
      refine .inr ⟨rfl, ?_⟩
      rintro _ ⟨⟩
      simp only [Bool.or_eq_true, not_or, Bool.not_eq_true] at hdropped
      exact hdropped.1.1

theorem peersOk_initial (h : s.Initial) : PeersOk relay s := by
  obtain ⟨_, hcalls, _⟩ := h
  refine ⟨⟨?_, ?_⟩, ?_⟩
  · intro id call lock hid
    rw [hcalls id] at hid
    cases hid
  · intro id call hid
    rw [hcalls id] at hid
    cases hid
  · intro id call hid
    rw [hcalls id] at hid
    cases hid

theorem peersOk_step (event : TcpEvent) (h : PeersOk relay s) (hstep : Step config relay event s t) :
    PeersOk relay t := by
  cases event with
  | begin id socket notification memory =>
    obtain ⟨_, rfl⟩ := hstep
    refine h.setCall rfl (h.locks.setCall rfl (fun _ hl => (nomatch hl)) (fun hh => (nomatch hh)) ?_ ?_)
      ?_ fun _ _ _ _ => .refl _
    · exact fun id' call' lock _ => h.locks.handles id' call' lock
    · exact fun _ _ _ ho => ho
    · refine ⟨?_, fun hc => (nomatch hc), fun _ hc => (nomatch hc)⟩
      rintro _ ⟨⟩
      exact TcpProgram.peers_connectTcp rfl
  | operate id =>
    obtain ⟨call, op, next, r, u, hid, hphase, hr, rfl⟩ := hstep
    exact h.operate hid hphase hr
  | dial id =>
    obtain ⟨call, address, next, hid, hphase, _, rfl⟩ := hstep
    exact h.dial hid hphase
  | reply id =>
    obtain ⟨call, result, hid, hphase, rfl⟩ := hstep
    exact h.reply hid hphase
  | execute id => exact h.execute hstep
  | refuse id =>
    obtain ⟨call, hid, hphase, rfl⟩ := hstep
    exact h.setPhase hid (callOk_returned ((h.calls id call hid).continued hphase))
  | close socket =>
    cases hstep
    exact h.closeSocket
  | listen socket =>
    obtain ⟨_, rfl⟩ := hstep
    exact h.setSocket fun _ _ hs => nomatch hs
  | sweep => exact h.sweep hstep
  | startDump =>
    obtain ⟨_, _, rfl⟩ := hstep
    exact h.frame rfl rfl rfl fun _ _ _ => .refl _
  | endDump cookies =>
    obtain ⟨_, _, _, _, rfl⟩ := hstep
    exact h.frame rfl rfl rfl fun _ _ _ => .refl _
  | retain => exact h.retain hstep
  | tick =>
    cases hstep
    exact h.frame rfl rfl rfl fun _ _ _ => .refl _
  | failSnapshot =>
    cases hstep
    exact h.frame rfl rfl rfl fun _ _ _ => .refl _

end

end TcpSystem

end Scproxy
