import Scproxy.UdpInvariant

namespace Scproxy

open Discipline

/-- The answer to an operation performed under its guard keeps the invariant
and tells the task what its discipline says. -/
def Answered (arch : Arch) (s' : UdpSystem) (task task' : UdpTask) (after : Prop) : Prop :=
  UdpOk arch s' ∧ after ∧ task'.memory = task.memory ∧ task'.notification = task.notification ∧
    ∀ arrival, task'.arrival = some arrival → ArrivalOk s'.sent arrival

section

variable {arch : Arch} {s s' : UdpSystem} {task task' : UdpTask}

theorem answered_same (h : UdpOk arch s) (htask : TaskOk arch s.servers s.sent task)
    {after : Prop} (hafter : after) : Answered arch s task task after :=
  ⟨h, hafter, rfl, rfl, htask.arrival⟩

theorem answered_serverFor {destination : SocketAddrV4} {r : Except IoError SocketAddrV4}
    (h : UdpOk arch s) (htask : TaskOk arch s.servers s.sent task)
    (hr : s.Answers task (.serverFor destination) r s' task') :
    Answered arch s' task task'
      (View.After (.serverFor destination) r (task.view s.servers) (task'.view s'.servers)) := by
  obtain ⟨htask', os, servers, hfresh, hcall, hs'⟩ := hr
  obtain ⟨hok, hext, hlookup⟩ := serverFor_preserves h.servers hfresh hcall
  subst htask' hs'
  exact ⟨h.setServers hok hext, ⟨hok, hext, rfl, rfl, hlookup⟩, rfl, rfl, htask.arrival⟩

theorem answered_connect {address : SocketAddrV4} {r : Except IoError Unit} (h : UdpOk arch s)
    (htask : TaskOk arch s.servers s.sent task) (hguard : (task.view s.servers).Aimed address)
    (hr : s.Answers task (.connect address) r s' task') :
    Answered arch s' task task'
      (View.After (.connect address) r (task.view s.servers) (task'.view s'.servers)) := by
  obtain ⟨htask', hr⟩ := hr
  subst htask'
  rcases hr with ⟨error, _, hs'⟩ | ⟨socket, _, hsocket, hs'⟩
  · subst hs'
    exact answered_same h htask rfl
  · subst hs'
    have hold := h.sockets _ socket hsocket
    refine ⟨h.setSocket ⟨?_, hold.inbox⟩, rfl, rfl, rfl, htask.arrival⟩
    intro peer hpeer
    cases hpeer
    exact hguard

theorem answered_peerAddress {socketOption : Bool} {r : Except IoError SocketAddrV4}
    (h : UdpOk arch s) (htask : TaskOk arch s.servers s.sent task)
    (hr : s.Answers task (.peerAddress socketOption) r s' task') :
    Answered arch s' task task'
      (View.After (.peerAddress socketOption) r (task.view s.servers) (task'.view s'.servers)) := by
  obtain ⟨hs', hr⟩ := hr
  subst hs'
  rcases hr with ⟨error, hr, htask'⟩ | ⟨socket, address, hsocket, hpeer, hr, htask'⟩
  · subst hr htask'
    exact answered_same h htask ⟨rfl, rfl, fun _ hf => nomatch hf⟩
  · subst hr htask'
    refine ⟨h, ⟨rfl, rfl, ?_⟩, rfl, rfl, htask.arrival⟩
    intro address' haddress
    cases haddress
    exact (h.sockets _ socket hsocket).peer address hpeer

theorem answered_sendmsg {destination : SocketAddrV4} {payload control : List UInt8}
    {flags : UInt32} {r : Except IoError Nat} (h : UdpOk arch s)
    (htask : TaskOk arch s.servers s.sent task) (hguard : (task.view s.servers).Aimed destination)
    (hr : s.Answers task (.sendmsg destination payload control flags) r s' task') :
    Answered arch s' task task' (View.After (.sendmsg destination payload control flags) r
      (task.view s.servers) (task'.view s'.servers)) := by
  obtain ⟨htask', hr⟩ := hr
  subst htask'
  rcases hr with ⟨error, _, hs'⟩ | ⟨count, _, hs'⟩
  · subst hs'
    exact answered_same h htask rfl
  · subst hs'
    have hsend : UdpOk arch (s.send [⟨task'.socket, destination, task'.asked, payload⟩]) := by
      apply h.send
      intro packet hp
      rw [List.mem_singleton.mp hp]
      exact hguard
    refine ⟨hsend, rfl, rfl, rfl, ?_⟩
    intro arrival harrival
    exact (htask.arrival arrival harrival).grow (List.subset_append_right _ _)

/-- A datagram from the inbox is an answer to a query whose destination is
registered, or from elsewhere. -/
theorem answered_of_inbox {source : SocketAddrV4} {arrival : Arrival} (h : UdpOk arch s)
    (hok : ArrivalOk s.sent arrival) (hsource : source = arrival.source) (task : UdpTask) :
    ({ task with arrival := some arrival }.view s.servers).Answered source := by
  intro e he
  obtain ⟨query, hquery, hrequested⟩ := Option.bind_eq_some_iff.mp he
  obtain ⟨hdestination, hsent⟩ := hok query hquery
  obtain ⟨r, hr, hlookup⟩ := h.sent query hsent
  rw [hr] at hrequested
  cases hrequested
  rw [hsource, hdestination]
  exact (h.servers.inverse _ _).mp hlookup

/-- The datagram is in the hands of the task, whether or not it stays in the inbox. -/
theorem answered_arrival {capacity controlCapacity : Nat} {flags : UInt32} {received : Received}
    {arrival : Arrival} (h : UdpOk arch s) (harrival : ArrivalOk s.sent arrival)
    (hanswered : ({ task with arrival := some arrival }.view s.servers).Answered
      received.source) :
    Answered arch s task { task with arrival := some arrival }
      (View.After (.recvmsg capacity controlCapacity flags) (.ok received)
        (task.view s.servers) ({ task with arrival := some arrival }.view s.servers)) := by
  refine ⟨h, ⟨rfl, rfl, ?_⟩, rfl, rfl, ?_⟩
  · intro _ hreceived
    cases hreceived
    exact hanswered
  · intro a ha
    cases ha
    exact harrival

theorem answered_recvmsg {capacity controlCapacity : Nat} {flags : UInt32}
    {r : Except IoError Received} (h : UdpOk arch s) (htask : TaskOk arch s.servers s.sent task)
    (hr : s.Answers task (.recvmsg capacity controlCapacity flags) r s' task') :
    Answered arch s' task task' (View.After (.recvmsg capacity controlCapacity flags) r
      (task.view s.servers) (task'.view s'.servers)) := by
  rcases hr with ⟨error, hr, hs', htask'⟩ | ⟨received, hr, _, hs', htask'⟩ |
    ⟨received, socket, before, arrival, after, hr, hsocket, hinbox, hsource, _, hs', htask'⟩
  · subst hr hs' htask'
    exact answered_same h htask ⟨rfl, rfl, fun _ hf => nomatch hf⟩
  · subst hr hs' htask'
    refine ⟨h, ⟨rfl, rfl, ?_⟩, rfl, rfl, ?_⟩
    · intro _ _ e he
      cases he
    · intro arrival harrival
      cases harrival
  · have hold := h.sockets _ socket hsocket
    have harrival : ArrivalOk s.sent arrival := hold.inbox arrival (by simp [hinbox])
    have hanswered := answered_of_inbox h harrival hsource task
    subst hr htask'
    rcases hs' with hs' | hs'
    · subst hs'
      exact answered_arrival h harrival hanswered
    · subst hs'
      exact answered_arrival (h.setSocket (hold.remove hinbox)) harrival hanswered

theorem answered_source {capacity tid : UInt32} {pointer : UInt64} {bytes : List UInt8}
    {r : Except IoError Unit} (h : UdpOk arch s) (htask : TaskOk arch s.servers s.sent task)
    (hguard : View.Guard (.write (.source capacity) tid pointer bytes) (task.view s.servers))
    (hr : s.Answers task (.write (.source capacity) tid pointer bytes) r s' task') :
    Answered arch s' task task' (View.After (.write (.source capacity) tid pointer bytes) r
      (task.view s.servers) (task'.view s'.servers)) := by
  obtain ⟨htask', hr⟩ := hr
  subst htask'
  rcases hr with ⟨error, _, hs'⟩ | ⟨_, hs'⟩
  · subst hs'
    exact answered_same h htask rfl
  · subst hs'
    have hstore : UdpOk arch (s.store capacity bytes task'.arrival) := by
      apply h.store
      intro arrival harrival query hquery
      obtain ⟨_, hsent⟩ := htask.arrival arrival harrival query hquery
      obtain ⟨requested, hrequested, _⟩ := h.sent query hsent
      refine ⟨requested, hrequested, hguard requested ?_⟩
      replace hquery : arrival.answers = some query := hquery
      simp [UdpTask.view, harrival, hquery, hrequested]
    cases harrival : task'.arrival with
    | none =>
      rw [harrival] at hstore
      exact answered_same hstore htask rfl
    | some arrival =>
      rw [harrival] at hstore
      exact ⟨hstore, rfl, rfl, rfl, htask.arrival⟩

theorem answers_quiet {op : Operation} (hop : op.quiet = true) {r : op.Ret}
    (hr : s.Answers task op r s' task') : s' = s ∧ task' = task := by
  unfold Operation.quiet at hop
  split at hop <;> simp_all [UdpSystem.Answers]

theorem after_quiet {op : Operation} (hop : op.quiet = true) (r : op.Ret) (v : View) :
    View.After op r v v := by
  unfold Operation.quiet at hop
  split at hop <;> simp_all [View.After]

/-- One operation of one task. -/
theorem answered_operation {op : Operation} {r : op.Ret} (h : UdpOk arch s)
    (htask : TaskOk arch s.servers s.sent task) (hguard : View.Guard op (task.view s.servers))
    (hr : s.Answers task op r s' task') :
    Answered arch s' task task' (View.After op r (task.view s.servers) (task'.view s'.servers)) := by
  cases hquiet : op.quiet with
  | true =>
    obtain ⟨hs', htask'⟩ := answers_quiet hquiet hr
    subst hs' htask'
    exact answered_same h htask (after_quiet hquiet r _)
  | false =>
    unfold Operation.quiet at hquiet
    split at hquiet
    next =>
      obtain ⟨hs', htask', hr⟩ := hr
      subst hs' htask'
      exact answered_same h htask ⟨rfl, hr⟩
    next =>
      obtain ⟨hs', htask', hr⟩ := hr
      subst hs' htask'
      exact answered_same h htask ⟨rfl, hr⟩
    next => exact answered_serverFor h htask hr
    next =>
      obtain ⟨hs', htask', hr⟩ := hr
      subst hs' htask'
      exact answered_same h htask ⟨rfl, hr⟩
    next => exact answered_connect h htask hguard hr
    next => exact answered_peerAddress h htask hr
    next => exact answered_sendmsg h htask hguard hr
    next => exact answered_recvmsg h htask hr
    next => exact answered_source h htask hguard hr
    next => cases hquiet

theorem extends_after {op : Operation} {r : op.Ret} {v v' : View} (h : View.After op r v v') :
    v.servers.Extends v'.servers := by
  unfold View.After at h
  split at h
  next => exact h.1 ▸ .refl _
  next => exact h.1 ▸ .refl _
  next => exact h.2.1
  next => exact h.1 ▸ .refl _
  next => exact h.1 ▸ .refl _
  next => exact h.1 ▸ .refl _
  next => exact h ▸ .refl _

/-- A task that performs its next operation keeps the system in order. -/
theorem udpOk_operate {id : Nat} {op : Operation}
    {next : op.Ret → Interaction Operation Operation.Ret (Except IoError Reply)} {r : op.Ret}
    (h : UdpOk arch s) (hid : s.tasks id = some task) (hprogram : task.program = .perform op next)
    (hr : s.Answers task op r s' task') :
    UdpOk arch (s'.setTask id (some { task' with program := next r })) ∧
      s.servers.Extends s'.servers := by
  have htask := h.tasks id task hid
  have hspec := htask.program
  rw [hprogram] at hspec
  have hrely : datagramDiscipline.rely (task.view s.servers) (task.view s.servers) :=
    ⟨h.servers, .refl _, rfl, rfl⟩
  obtain ⟨hguard, hnext⟩ := hspec _ hrely
  obtain ⟨hok, hafter, hmemory, hnotification, harrival⟩ := answered_operation h htask hguard hr
  refine ⟨hok.setTask ?_, extends_after hafter⟩
  intro t ht
  cases ht
  have hprogram' := hnext r _ hafter
  rw [← hmemory, ← hnotification] at hprogram'
  exact ⟨hprogram', harrival⟩

/-- A call that the kernel may run itself sends to a registered peer only. -/
theorem udpOk_kernelCall {notification : Notification} {memory : Memory} {i : Nat}
    {socket socket' : UdpSocket} {packets : List Packet} (h : UdpOk arch s)
    (hharmless : (notification.data.nr.toUInt32 = arch.number .connect →
      Disconnects memory notification) ∧ ¬AddressedSend arch notification.data)
    (hsocket : s.sockets i = some socket)
    (hcall : KernelCall arch notification memory i socket socket' packets) :
    UdpOk arch ((s.setSocket i socket').send packets) := by
  have hold := h.sockets i socket hsocket
  cases hcall with
  | quiet => exact (h.setSocket hold).send fun _ hp => nomatch hp
  | disconnect hnr hdisconnects =>
    have hclear : SocketOk s.servers s.sent { socket with peer := none, requested := none } := by
      refine ⟨?_, hold.inbox⟩
      intro peer hpeer
      cases hpeer
    exact (h.setSocket hclear).send fun _ hp => nomatch hp
  | connect address hnr hnot => exact absurd (hharmless.1 hnr) hnot
  | addressed packets haddressed => exact absurd haddressed hharmless.2
  | plain peer payloads hpeer =>
    apply (h.setSocket hold).send
    intro packet hp
    obtain ⟨payload, _, hpacket⟩ := List.mem_map.mp hp
    subst hpacket
    exact hold.peer peer hpeer

end

end Scproxy
