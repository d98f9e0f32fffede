import Mathlib.Logic.Function.Basic
import Scproxy.DispatchOutcome
import Scproxy.TcpProgram
import Scproxy.Transition

namespace Scproxy

/-- A TCP socket of an application. A connection that the broker made carries the
call it was made for. -/
inductive TcpSocket
  | closed
  | listening
  | native (peer : SocketAddrV4)
  | relayed (call : Nat) (peer : SocketAddrV4)

/-- Connected or connecting. -/
def TcpSocket.Connected : TcpSocket → Prop
  | .native _ => True
  | .relayed _ _ => True
  | _ => False

/-- What a call has done so far. `handle` is its reference to a lock, `left` the
peer entry of its socket at the moment it gave the lock back. -/
structure CallRecord where
  handle : Option Nat
  holding : Bool
  foundOpen : Bool
  inserted : Bool
  registered : Bool
  settled : Bool
  left : Option (Option Peer)

def CallRecord.new : CallRecord := ⟨none, false, false, false, false, false, none⟩

/-- The record after an operation with its answer. `entry` is the peer entry of
the socket before it. -/
def CallRecord.next (record : CallRecord) (entry : Option Peer) :
    (op : TcpOperation) → op.Ret → CallRecord
  | .getLock _, r => { record with handle := some r }
  | .lock _, r => { record with holding := record.holding || r }
  | .state, r => { record with foundOpen := r.toOption.any (· != 7) }
  | .insertPeer .., _ => { record with inserted := true }
  | .register, r => { record with registered := r.isOk }
  | .settlePeer _, _ => { record with settled := true }
  | .unlock _, _ => { record with handle := none, holding := false, left := some entry }
  | .forget _, _ => { record with handle := none }
  | _, _ => record

inductive CallPhase
  | running (program : TcpProgram)
  | continued
  | returned (result : Except IoError Reply)

/-- A connect call on a socket, named by its cookie. The memory of the caller and
the socket behind the descriptor stay as they are while the call is pending. -/
structure TcpCall where
  socket : UInt64
  notification : Notification
  memory : Memory
  phase : CallPhase
  record : CallRecord

/-- `diagnostics::snapshot` in progress: requested, with the sockets that have
been connected since the dump began, and done. -/
inductive Snapshot
  | requested (started : Nat)
  | dumping (started : Nat) (connected : UInt64 → Prop)
  | dumped (started : Nat) (cookies : List UInt64)

/-- A socket that is closed need not be in the dump. -/
def Snapshot.forget (socket : UInt64) : Snapshot → Snapshot
  | .dumping started connected => .dumping started fun other => connected other ∧ other ≠ socket
  | snapshot => snapshot

/-- `owners` are the holders of the locks, `natives` the connections that the
kernel has started for calls that were continued. -/
structure TcpSystem where
  sockets : UInt64 → TcpSocket
  calls : Nat → Option TcpCall
  locks : HashMap UInt64 Nat
  nextLock : Nat
  owners : Nat → Option Nat
  peers : HashMap UInt64 Peer
  clock : Nat
  snapshot : Option Snapshot
  natives : List (UInt64 × SocketAddrV4)

inductive TcpEvent
  | begin (call : Nat) (socket : UInt64) (notification : Notification) (memory : Memory)
  | operate (call : Nat)
  | dial (call : Nat)
  | reply (call : Nat)
  | execute (call : Nat)
  | refuse (call : Nat)
  | close (socket : UInt64)
  | listen (socket : UInt64)
  | tick
  | sweep
  | startDump
  | endDump (cookies : List UInt64)
  | retain
  | failSnapshot

/-- The address the kernel connects to. It reads a length of 32 bits. -/
def ConnectsTo (memory : Memory) (notification : Notification) (target : SocketAddrV4) : Prop :=
  memory.ipv4 notification.pid (notification.data.args 1)
    (Data.low (notification.data.args 2)).toUInt64 = .ok target

theorem not_connectsTo_of_disconnects {memory : Memory} {notification : Notification}
    {target : SocketAddrV4} (h : Disconnects memory notification) :
    ¬ConnectsTo memory notification target := by
  intro hconnects
  have hfamily := family_of_ipv4 hconnects
  rw [h] at hfamily
  exact absurd (Except.ok.inj hfamily) (by decide)

namespace TcpSystem

def setSocket (s : TcpSystem) (socket : UInt64) (state : TcpSocket) : TcpSystem :=
  { s with sockets := Function.update s.sockets socket state }

def closeSocket (s : TcpSystem) (socket : UInt64) : TcpSystem :=
  { s.setSocket socket .closed with snapshot := s.snapshot.map (Snapshot.forget socket) }

def setCall (s : TcpSystem) (id : Nat) (call : TcpCall) : TcpSystem :=
  { s with calls := Function.update s.calls id (some call) }

def setPeers (s : TcpSystem) (peers : HashMap UInt64 Peer) : TcpSystem := { s with peers := peers }

def setOwner (s : TcpSystem) (lock : Nat) (owner : Option Nat) : TcpSystem :=
  { s with owners := Function.update s.owners lock owner }

theorem sockets_setSocket (s : TcpSystem) (socket other : UInt64) (state : TcpSocket) :
    (s.setSocket socket state).sockets other = if other = socket then state else s.sockets other :=
  Function.update_apply ..

theorem calls_setCall {s : TcpSystem} {id id' : Nat} {call call' : TcpCall}
    (h : (s.setCall id call).calls id' = some call') :
    id' = id ∧ call' = call ∨ id' ≠ id ∧ s.calls id' = some call' := by
  simp only [setCall, Function.update_apply] at h
  split at h
  · next heq => exact .inl ⟨heq, (Option.some.inj h).symm⟩
  · next hne => exact .inr ⟨hne, h⟩

theorem calls_setCall_of_ne (s : TcpSystem) {id id' : Nat} (call : TcpCall) (h : id' ≠ id) :
    (s.setCall id call).calls id' = s.calls id' :=
  Function.update_of_ne h _ _

def settlePeer (s : TcpSystem) (cookie : UInt64) : TcpSystem :=
  match s.peers.lookup cookie with
  | some peer =>
    s.setPeers (s.peers.insert cookie { peer with pending := false, created := s.clock })
  | none => s

theorem lookup_settlePeer (s : TcpSystem) (cookie other : UInt64) :
    (s.settlePeer cookie).peers.lookup other = if other = cookie then
      (s.peers.lookup cookie).map fun peer => { peer with pending := false, created := s.clock }
    else s.peers.lookup other := by
  unfold settlePeer
  split
  · next peer hpeer =>
    rw [hpeer]
    exact HashMap.lookup_insert_eq_ite _ _ _ _
  · next hnone =>
    rw [hnone]
    split
    · next heq => rw [heq, hnone]; rfl
    · rfl

/-- A reference to the lock is held, so that its weak reference can be upgraded. -/
def Alive (s : TcpSystem) (lock : Nat) : Prop :=
  ∃ id call, s.calls id = some call ∧ call.record.handle = some lock

/-- How the kernel and the shared state answer an operation of a call, and what
it changes. An answer that changes nothing may be any. -/
def Answers (s : TcpSystem) (id : Nat) (call : TcpCall) :
    (op : TcpOperation) → op.Ret → TcpSystem → Prop
  | .cookie, r, t => t = s ∧ ∀ cookie, r = .ok cookie → cookie = call.socket
  | .getLock cookie, r, t => (s.locks.lookup cookie = some r ∧ s.Alive r ∧ t = s) ∨
      ((∀ lock, s.locks.lookup cookie = some lock → ¬s.Alive lock) ∧ r = s.nextLock ∧
        t = { s with locks := s.locks.insert cookie r, nextLock := r + 1 })
  | .lock lock, r, t => (r = false ∧ t = s) ∨
      (r = true ∧ s.owners lock = none ∧ t = s.setOwner lock (some id))
  | .state, r, t => t = s ∧
      ∀ state, r = .ok state → (state = 7 ↔ s.sockets call.socket = .closed)
  | .peer cookie, r, t => t = s ∧ r = s.peers.lookup cookie
  | .removePeer cookie, _, t => t = s.setPeers (s.peers.erase cookie)
  | .target address, r, t => t = s ∧ ∃ mapping, r = Resolver.target mapping address
  | .insertPeer cookie target internal, _, t =>
      t = s.setPeers (s.peers.insert cookie ⟨target, internal, s.clock, true⟩)
  | .settlePeer cookie, _, t => t = s.settlePeer cookie
  | .unlock lock, _, t => t = s.setOwner lock none
  | _, _, t => t = s

/-- An operation of a call changes the locks and the peers only. -/
theorem Answers.frame {s t : TcpSystem} {id : Nat} {call : TcpCall} {op : TcpOperation} {r : op.Ret}
    (h : s.Answers id call op r t) :
    ∃ locks nextLock owners peers, t = { s with
      locks := locks
      nextLock := nextLock
      owners := owners
      peers := peers } := by
  cases op with
  | getLock cookie =>
    rcases h with ⟨_, _, rfl⟩ | ⟨_, _, rfl⟩
    · exact ⟨_, _, _, _, rfl⟩
    · exact ⟨_, _, _, _, rfl⟩
  | lock lock =>
    rcases h with ⟨_, rfl⟩ | ⟨_, _, rfl⟩
    · exact ⟨_, _, _, _, rfl⟩
    · exact ⟨_, _, _, _, rfl⟩
  | settlePeer cookie =>
    cases h
    unfold settlePeer
    split
    · exact ⟨_, _, _, _, rfl⟩
    · exact ⟨_, _, _, _, rfl⟩
  | cookie | state | peer cookie | target address =>
    obtain ⟨rfl, _⟩ := h
    exact ⟨_, _, _, _, rfl⟩
  | _ =>
    cases h
    exact ⟨_, _, _, _, rfl⟩

/-- A call that has found its socket open has done so at some operation. -/
theorem Answers.foundOpen {s t : TcpSystem} {id : Nat} {call : TcpCall} {op : TcpOperation}
    {r : op.Ret} (h : s.Answers id call op r t) {entry : Option Peer}
    (hopen : (call.record.next entry op r).foundOpen = true) :
    call.record.foundOpen = true ∨ s.sockets call.socket ≠ .closed := by
  cases op with
  | state =>
    refine .inr fun hclosed => ?_
    cases r with
    | error error => cases hopen
    | ok state =>
      simp [CallRecord.next, Except.toOption, (h.2 state rfl).mpr hclosed] at hopen
  | _ => exact .inl hopen

/-- Steps of the broker's calls, of the kernel and of the cleanup task. While a
call is at its `connect`, the worker may start the connection; a connect of a
socket that is not closed starts nothing. -/
def Step (config : Config) (relay : SocketAddrV4) : TcpEvent → TcpSystem → TcpSystem → Prop
  | .begin id socket notification memory, s, t => s.calls id = none ∧
      t = s.setCall id ⟨socket, notification, memory,
        .running (TcpProgram.connectTcp config relay memory notification), .new⟩
  | .operate id, s, t => ∃ call op next r u, s.calls id = some call ∧
      call.phase = .running (.perform op next) ∧ s.Answers id call op r u ∧
      t = u.setCall id { call with
        phase := .running (next r)
        record := call.record.next (s.peers.lookup call.socket) op r }
  | .dial id, s, t => ∃ call address next, s.calls id = some call ∧
      call.phase = .running (.perform (.connect address) next) ∧
      s.sockets call.socket = .closed ∧ t = s.setSocket call.socket (.relayed id address)
  | .reply id, s, t => ∃ call result, s.calls id = some call ∧
      call.phase = .running (.done result) ∧
      t = s.setCall id { call with
        phase := if result = .ok .continueSyscall then .continued else .returned result }
  | .execute id, s, t => ∃ call, s.calls id = some call ∧ call.phase = .continued ∧
      ((Disconnects call.memory call.notification ∧
        t = (s.closeSocket call.socket).setCall id
          { call with phase := .returned (.ok .continueSyscall) }) ∨
      ∃ target, ConnectsTo call.memory call.notification target ∧
        s.sockets call.socket = .closed ∧
        t = { (s.setSocket call.socket (.native target)).setCall id
            { call with phase := .returned (.ok .continueSyscall) } with
          natives := (call.socket, target) :: s.natives })
  | .refuse id, s, t => ∃ call, s.calls id = some call ∧ call.phase = .continued ∧
      t = s.setCall id { call with phase := .returned (.ok .continueSyscall) }
  | .close socket, s, t => t = s.closeSocket socket
  | .listen socket, s, t => s.sockets socket = .closed ∧ t = s.setSocket socket .listening
  | .tick, s, t => t = { s with clock := s.clock + 1 }
  | .sweep, s, t => ∃ locks snapshot,
      (∀ cookie lock, locks.lookup cookie = some lock ↔
        s.locks.lookup cookie = some lock ∧ s.Alive lock) ∧
      (snapshot = s.snapshot ∨ s.snapshot = none ∧ s.peers ≠ ∅ ∧
        snapshot = some (.requested s.clock)) ∧
      t = { s with locks := locks, snapshot := snapshot }
  | .startDump, s, t => ∃ started, s.snapshot = some (.requested started) ∧
      t = { s with snapshot := some (.dumping started fun socket => (s.sockets socket).Connected) }
  | .endDump cookies, s, t => ∃ started connected,
      s.snapshot = some (.dumping started connected) ∧
      (∀ socket, connected socket → socket ∈ cookies) ∧
      t = { s with snapshot := some (.dumped started cookies) }
  | .retain, s, t => ∃ started cookies, s.snapshot = some (.dumped started cookies) ∧
      t = { s with
        peers := s.peers.retain fun cookie peer =>
          peer.pending || decide (started ≤ peer.created) || decide (cookie ∈ cookies)
        snapshot := none }
  | .failSnapshot, s, t => t = { s with snapshot := none }

/-- No call has been made, and no socket is connected to the relay. -/
def Initial (s : TcpSystem) : Prop :=
  (∀ socket id peer, s.sockets socket ≠ .relayed id peer) ∧ (∀ id, s.calls id = none) ∧
    s.locks = ∅ ∧ (∀ lock, s.owners lock = none) ∧ s.peers = ∅ ∧ s.snapshot = none ∧ s.natives = []

end TcpSystem

def tcpSystem (config : Config) (relay : SocketAddrV4) : Transition TcpSystem TcpEvent where
  start := TcpSystem.Initial
  step := TcpSystem.Step config relay

namespace TcpSystem

variable {config : Config} {relay : SocketAddrV4} {allowed : TcpEvent → TcpSystem → Prop}
  {s t : TcpSystem}

theorem reachable_next (event : TcpEvent) (h : (tcpSystem config relay).ReachableWith allowed s)
    (hallowed : allowed event s) (hstep : Step config relay event s t) :
    (tcpSystem config relay).ReachableWith allowed t :=
  .next event h hallowed hstep

theorem reachable_operate (id : Nat) (op : TcpOperation) (r : op.Ret) {call : TcpCall}
    {next : op.Ret → TcpProgram} (h : (tcpSystem config relay).ReachableWith allowed s)
    (hallowed : allowed (.operate id) s) (hid : s.calls id = some call)
    (hphase : call.phase = .running (.perform op next)) (hr : s.Answers id call op r t) :
    (tcpSystem config relay).ReachableWith allowed (t.setCall id { call with
      phase := .running (next r)
      record := call.record.next (s.peers.lookup call.socket) op r }) :=
  .next (.operate id) h hallowed ⟨call, op, next, r, t, hid, hphase, hr, rfl⟩

/-- Every destination but the local ones goes through one proxy. -/
def proxied : Config := ⟨.socks5 "127.0.0.1:1080" none, [], ⟨none, [], .empty⟩⟩

def ingressAddress : SocketAddrV4 := ⟨.new 127 0 0 1, 4000⟩

def server : SocketAddrV4 := ⟨.new 93 184 216 34, 443⟩

def localServer : SocketAddrV4 := ⟨.new 127 0 0 1, 80⟩

/-- A memory with an address at 4096. -/
def holding (bytes : List UInt8) : Memory := fun address => bytes[address.toNat - 4096]?

/-- A connect call with an address at 4096. -/
def connecting (length : UInt64) : Notification :=
  ⟨0, 1, ⟨42, 0, 0, fun i => if i = 1 then 4096 else if i = 2 then length else 3⟩⟩

def initial : TcpSystem := ⟨fun _ => .closed, fun _ => none, ∅, 0, fun _ => none, ∅, 0, none, []⟩

theorem initial_initial : Initial initial :=
  ⟨fun _ _ _ h => (nomatch h), fun _ => rfl, rfl, fun _ => rfl, rfl, rfl, rfl⟩

end TcpSystem

end Scproxy
