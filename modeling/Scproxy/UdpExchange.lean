import Scproxy.UdpRuns

namespace Scproxy

open Transition

/-- The system while a task is at a point of its program. -/
def UdpSystem.running (s : UdpSystem) (id : Nat) (task : UdpTask)
    (program : Interaction Operation Operation.Ret (Except IoError Reply)) : UdpSystem :=
  s.setTask id (some { task with program := program })

section

variable {arch : Arch} {base base' : UdpSystem} {id : Nat} {task task' : UdpTask}

/-- A run goes on with the next operation of a task. -/
theorem reachable_operate (op : Operation)
    {next : op.Ret → Interaction Operation Operation.Ret (Except IoError Reply)} (r : op.Ret)
    (h : (udpSystem arch).Reachable (base.running id task (.perform op next)))
    (hr : (base.running id task (.perform op next)).Answers { task with program := .perform op next }
      op r (base'.running id task (.perform op next)) { task' with program := .perform op next }) :
    (udpSystem arch).Reachable (base'.running id task' (next r)) := by
  have hid : (base.running id task (.perform op next)).tasks id =
      some { task with program := .perform op next } := by
    simp [UdpSystem.running, UdpSystem.setTask]
  have hstep := @UdpStep.operate arch _ _ id _ _ op next r hid rfl hr
  have hsame : (base'.running id task (.perform op next)).setTask id
      (some { task' with program := next r }) = base'.running id task' (next r) := by
    simp [UdpSystem.running, UdpSystem.setTask]
  rw [hsame] at hstep
  exact .next () h trivial hstep

theorem reachable_quiet (op : Operation)
    {next : op.Ret → Interaction Operation Operation.Ret (Except IoError Reply)} (r : op.Ret)
    (h : (udpSystem arch).Reachable (base.running id task (.perform op next)))
    (hop : op.quiet = true) :
    (udpSystem arch).Reachable (base.running id task (next r)) := by
  apply reachable_operate op r h
  unfold Operation.quiet at hop
  split at hop <;> simp_all [UdpSystem.Answers]

/-- Every notified call on a UDP socket gets to the handler of datagrams. -/
theorem reachable_datagram (arch : Arch) {notification : Notification} {memory : Memory}
    {i retries : Nat} (h : (udpSystem arch).Reachable base) (hid : base.tasks id = none)
    (hnotified : Bpf.execute notification.data.word (Seccomp.filter arch) =
      some Seccomp.retUserNotif)
    (hopen : Broker.isOpen arch notification.data.nr.toUInt32 = false)
    (hsocket : notification.data.nr.toUInt32 ≠ arch.number .socket)
    (hfastopen : Broker.isFastopen arch notification.data = false) :
    (udpSystem arch).Reachable (base.running id ⟨notification, memory, i, none, none, .done (.ok .sent)⟩
      (Datagram.dispatch arch retries memory notification).run) := by
  have hnotify : (udpSystem arch).Reachable (base.running id
      ⟨notification, memory, i, none, none, .done (.ok .sent)⟩
      (Broker.dispatch arch retries memory notification).run) :=
    .next () h trivial (UdpStep.notify hnotified hid)
  unfold Broker.dispatch at hnotify
  dsimp only at hnotify
  rw [if_neg (by simp [hopen]), if_neg hsocket, if_neg (by simp [hfastopen])] at hnotify
  have hvalid := reachable_quiet .valid (.ok ()) hnotify rfl
  have hget := reachable_quiet .get (.ok ()) hvalid rfl
  have hvalid := reachable_quiet .valid (.ok ()) hget rfl
  have hdomain := reachable_operate .domain (.ok Libc.afInet.toUInt32) hvalid
    ⟨rfl, rfl, fun _ hd => (Except.ok.inj hd).symm⟩
  have hprotocol := reachable_operate .protocol (.ok Libc.ipprotoUdp) hdomain
    ⟨rfl, rfl, fun _ hd => (Except.ok.inj hd).symm⟩
  exact hprotocol

theorem running_finish {program : Interaction Operation Operation.Ret (Except IoError Reply)}
    (h : base.tasks id = none) : (base.running id task program).setTask id none = base := by
  have htasks : Function.update base.tasks id none = base.tasks := by
    rw [← h, Function.update_eq_self]
  simp [UdpSystem.running, UdpSystem.setTask, htasks]

theorem reachable_finish {program : Interaction Operation Operation.Ret (Except IoError Reply)}
    (hid : base.tasks id = none) (h : (udpSystem arch).Reachable (base.running id task program)) :
    (udpSystem arch).Reachable base := by
  have hstep := @UdpStep.finish arch (base.running id task program) id
  rw [running_finish hid] at hstep
  exact .next () h trivial hstep

theorem reachable_create {i : Nat} (hid : base.tasks id = none) (hi : base.sockets i = none)
    (hnr : task.notification.data.nr.toUInt32 = arch.number .socket)
    (hfamily : Data.low (task.notification.data.args 0) = Libc.afInet.toUInt32)
    (h : (udpSystem arch).Reachable (base.running id task (.done (.ok .continueSyscall)))) :
    (udpSystem arch).Reachable (base.setSocket i ⟨none, none, []⟩) := by
  have hstep := @UdpStep.create arch (base.running id task (.done (.ok .continueSyscall))) id i _
    (Function.update_self id _ _) rfl hnr hfamily hi
  have hfinish := @running_finish (base.setSocket i ⟨none, none, []⟩) id task
    (.done (.ok .continueSyscall)) hid
  exact .next () h trivial (hfinish ▸ hstep)

end

/-! A query to a server over a connected socket and its answer. -/

namespace Exchange

def server : SocketAddrV4 := ⟨.new 8 8 8 8, 53⟩

def endpoint (port : UInt16) : SocketAddrV4 := ⟨.localhost, port⟩

def bindOs (port : UInt16) : BindOs := ⟨.ok (), .ok (endpoint port), .ok (), .ok ()⟩

def query : List UInt8 := [0x12, 0x34, 1, 0, 0, 1, 0, 0, 0, 0, 0, 0, 1, 97, 0, 0, 1, 0, 1]

/-- The socket address is at 4096 and the length of the source's buffer at 8192. -/
def memory : Memory := fun address =>
  if address < 8192 then (addressBytes server)[address.toNat - 4096]?
  else [16, 0, 0, 0][address.toNat - 8192]?

def call (nr : Int32) (args : List UInt64) : Notification :=
  ⟨0, 1000, ⟨nr, Arch.nativeArch .x86_64, 0, fun i => args.getD i 0⟩⟩

def started : UdpSystem :=
  ⟨Servers.empty.register Dns.virtualAddress (endpoint 40000), .new, fun _ => none, fun _ => none,
    [], []⟩

def created : UdpSystem := started.setSocket 0 ⟨none, none, []⟩

def connected : UdpSystem :=
  { created with servers := created.servers.register server (endpoint 40001) }.setSocket 0
    ⟨some (endpoint 40001), some server, []⟩

def packet : Packet := ⟨0, endpoint 40001, some server, query⟩

theorem reachable_started : (udpSystem .x86_64).Reachable started := by
  refine .start ⟨⟨bindOs 40000, endpoint 40000, ?_, rfl⟩, rfl, fun _ => rfl, fun _ => rfl, rfl, rfl⟩
  intro localAddr _
  rfl

theorem reachable_created : (udpSystem .x86_64).Reachable created := by
  have hnotified : Bpf.execute (call 41 [2, 2]).data.word (Seccomp.filter .x86_64) =
      some Seccomp.retUserNotif := by
    rw [Bpf.execute_eq_exec, exec_filter]
    decide
  have hnotify : (udpSystem .x86_64).Reachable (started.running 0
      ⟨call 41 [2, 2], memory, 0, none, none, .done (.ok .sent)⟩
      (Broker.dispatch .x86_64 1 memory (call 41 [2, 2])).run) :=
    .next () reachable_started trivial (UdpStep.notify hnotified rfl)
  have hcontinue := reachable_quiet .valid (.ok ()) hnotify rfl
  exact reachable_create rfl rfl rfl rfl hcontinue

def connectCall : Notification := call 42 [3, 4096, 16]

theorem dispatch_connectCall : Datagram.dispatch .x86_64 1 memory connectCall = (do
    let localAddr ← Act.serverFor server
    Act.valid
    Act.connect localAddr
    pure (.value 0)) := by
  have hfamily : memory.family connectCall.pid (connectCall.data.args 1)
      (connectCall.data.args 2) = .ok Libc.afInet := by decide +kernel
  have htarget : memory.ipv4 connectCall.pid (connectCall.data.args 1)
      (connectCall.data.args 2) = .ok server := by decide +kernel
  unfold Datagram.dispatch
  rw [if_pos (by decide)]
  unfold Datagram.connect
  dsimp only
  rw [hfamily, Act.ofExcept_ok_bind, if_neg (by decide), htarget, Act.ofExcept_ok_bind]

theorem reachable_connected : (udpSystem .x86_64).Reachable connected := by
  have hnotified : Bpf.execute connectCall.data.word (Seccomp.filter .x86_64) =
      some Seccomp.retUserNotif := by
    rw [Bpf.execute_eq_exec, exec_filter]
    decide
  have h : (udpSystem .x86_64).Reachable (created.running 0
      ⟨connectCall, memory, 0, none, none, .done (.ok .sent)⟩
      (Datagram.dispatch .x86_64 1 memory connectCall).run) :=
    reachable_datagram .x86_64 reachable_created rfl hnotified rfl (by decide) rfl
  rw [dispatch_connectCall] at h
  have hfresh : FreshEndpoint (bindOs 40001) created.servers := by
    intro localAddr hopen
    have hlocal : endpoint 40001 = localAddr := Except.ok.inj hopen
    rw [← hlocal]
    decide +kernel
  have hserver : (udpSystem .x86_64).Reachable
      ({ created with servers := created.servers.register server (endpoint 40001) }.running 0
        ⟨connectCall, memory, 0, some server, none, .done (.ok .sent)⟩ _) :=
    reachable_operate (.serverFor server) (.ok (endpoint 40001)) h
      ⟨rfl, bindOs 40001, _, hfresh, rfl, rfl⟩
  have hvalid := reachable_quiet .valid (.ok ()) hserver rfl
  have hconnect : (udpSystem .x86_64).Reachable (connected.running 0 _ _) :=
    reachable_operate (.connect (endpoint 40001)) (.ok ()) hvalid
      ⟨rfl, .inr ⟨⟨none, none, []⟩, rfl, rfl, rfl⟩⟩
  exact reachable_finish rfl hconnect

def asked : UdpSystem :=
  (connected.setSocket 0 ⟨some (endpoint 40001), some server, []⟩).send [packet]

/-- The query leaves by a `write` that the filter allows. -/
theorem reachable_asked : (udpSystem .x86_64).Reachable asked := by
  have hallowed : Bpf.execute (call 1 [3]).data.word (Seccomp.filter .x86_64) =
      some Seccomp.retAllow := by
    rw [Bpf.execute_eq_exec, exec_filter]
    decide
  have hcall : KernelCall .x86_64 (call 1 [3]) memory 0
      ⟨some (endpoint 40001), some server, []⟩ ⟨some (endpoint 40001), some server, []⟩ [packet] :=
    .plain (endpoint 40001) [query] rfl
  exact .next () reachable_connected trivial (UdpStep.native hallowed rfl hcall)

def answered (mapping : FakeDns) (response : List UInt8) : UdpSystem :=
  (asked.setMapping mapping).setSocket 0
    ⟨some (endpoint 40001), some server, [⟨endpoint 40001, response, some packet⟩]⟩

theorem reachable_answered : ∃ mapping response,
    (udpSystem .x86_64).Reachable (answered mapping response) := by
  have hparse : parseQuery query = .ok (some (0x1234, "a", 1)) := by decide +kernel
  have hanswer : Resolver.answer asked.mapping query = .ok
      ((FakeDns.new.resolve "a").1,
        some (buildAResponse 0x1234 "a" (FakeDns.new.resolve "a").2)) := by
    unfold Resolver.answer
    rw [hparse]
    rfl
  have hregistered : asked.servers.originalServer packet.destination = some server := by
    decide +kernel
  have hstep := @UdpStep.serve .x86_64 asked packet server _ _ _ (List.mem_singleton_self _)
    hregistered hanswer rfl
  exact ⟨_, _, .next () reachable_asked trivial hstep⟩

/-- Only the source is asked for. -/
def recvCall : Notification := call 45 [3, 12288, 0, 0, 16384, 8192]

def received (mapping : FakeDns) (response : List UInt8) : UdpSystem :=
  (answered mapping response).store 16 (addressBytes server)
    (some ⟨endpoint 40001, response, some packet⟩)

/-- `recvfrom` reports the answer from the address the query was sent to. -/
theorem reachable_received : ∃ mapping response,
    (udpSystem .x86_64).Reachable (received mapping response) := by
  obtain ⟨mapping, response, hanswered⟩ := reachable_answered
  have hnotified : Bpf.execute recvCall.data.word (Seccomp.filter .x86_64) =
      some Seccomp.retUserNotif := by
    rw [Bpf.execute_eq_exec, exec_filter]
    decide
  have h : (udpSystem .x86_64).Reachable ((answered mapping response).running 0
      ⟨recvCall, memory, 0, none, none, .done (.ok .sent)⟩
      (Datagram.dispatch .x86_64 1 memory recvCall).run) :=
    reachable_datagram .x86_64 hanswered rfl hnotified rfl (by decide) rfl
  have hasync := reachable_quiet .asyncFd (.ok ()) h rfl
  have htimeout := reachable_quiet (.timeout true) (.ok (0, 0)) hasync rfl
  have hvalid := reachable_quiet .valid (.ok ()) htimeout rfl
  have hrecv : (udpSystem .x86_64).Reachable ((answered mapping response).running 0
      ⟨recvCall, memory, 0, none, some ⟨endpoint 40001, response, some packet⟩, .done (.ok .sent)⟩
      _) :=
    reachable_operate (.recvmsg 0 0 0x40) (.ok ⟨0, [], endpoint 40001, [], 0⟩) hvalid
      (.inr (.inr ⟨_, _, [], _, [], rfl, rfl, rfl, rfl, rfl, .inl rfl, rfl⟩))
  have hvalid := reachable_quiet .valid (.ok ()) hrecv rfl
  have hpayload := reachable_quiet (.write .payload 1000 12288 []) (.ok ()) hvalid rfl
  have hregistered : (answered mapping response).servers.originalServer (endpoint 40001) =
      some server := by
    show asked.servers.originalServer (endpoint 40001) = some server
    decide +kernel
  have horiginal : (udpSystem .x86_64).Reachable ((answered mapping response).running 0
      ⟨recvCall, memory, 0, none, some ⟨endpoint 40001, response, some packet⟩, .done (.ok .sent)⟩
      _) :=
    reachable_operate (.originalServer (endpoint 40001)) (some server) hpayload
      ⟨rfl, rfl, hregistered.symm⟩
  have hsource : (udpSystem .x86_64).Reachable ((received mapping response).running 0
      ⟨recvCall, memory, 0, none, some ⟨endpoint 40001, response, some packet⟩, .done (.ok .sent)⟩
      _) :=
    reachable_operate (.write (.source 16) 1000 16384 (addressBytes server)) (.ok ()) horiginal
      ⟨rfl, .inr ⟨rfl, rfl⟩⟩
  exact ⟨mapping, response, reachable_finish rfl hsource⟩

end Exchange

end Scproxy
