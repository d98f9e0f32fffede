import Scproxy.TcpSystem

namespace Scproxy

/-- The destinations that the application may connect to without the relay. -/
def Native (config : Config) (target : SocketAddrV4) : Prop :=
  target.port ≠ 53 ∧ FakeDns.isFakeIp target.ip = false ∧
    config.proxyFor (.ip (.v4 target.ip) target.port) = .ok .direct

/-- Follows whether the call found its socket open. -/
def routeDiscipline : Discipline TcpOperation TcpOperation.Ret Bool where
  rely v v' := v' = v
  rely_trans _ _ _ huv hvw := hvw.trans huv
  guard _ _ := True
  after
    | .state, r, _, v' => v' = r.toOption.any (· != 7)
    | .target address, r, v, v' => v' = v ∧ ∃ mapping, r = Resolver.target mapping address
    | _, _, v, v' => v' = v

namespace TcpProgram

/-- The call is continued only on a native destination, or if the socket was open. -/
def Continues (config : Config) (target : SocketAddrV4) (result : Except IoError Reply)
    (foundOpen : Bool) : Prop :=
  result = .ok .continueSyscall → Native config target ∨ foundOpen = true

section

variable {config : Config} {relay target : SocketAddrV4} {locked : Locked} {v : Bool}

theorem continues_map {result : Except IoError Unit} :
    Continues config target (result.map fun _ => .value 0) v := by
  intro h
  cases result with
  | ok a => cases h
  | error e => cases h

theorem route_stop {Q : Except IoError Reply → Bool → Prop} : routeDiscipline.Spec Q stop v :=
  fun _ _ => ⟨trivial, nofun⟩

theorem route_release {lock : Nat} {result : Except IoError Reply}
    (h : Continues config target result v) :
    routeDiscipline.Spec (Continues config target) (release lock result) v := by
  rintro _ rfl
  refine ⟨trivial, ?_⟩
  rintro _ _ rfl
  exact h

theorem route_error {lock : Nat} {error : IoError} :
    routeDiscipline.Spec (Continues config target) (release lock (.error error)) v :=
  route_release nofun

theorem route_releaseStopped {lock : Nat} :
    routeDiscipline.Spec (Continues config target) (releaseStopped lock) v := by
  rintro _ rfl
  refine ⟨trivial, ?_⟩
  rintro _ _ rfl
  exact route_stop

theorem route_runConnect {address : SocketAddrV4}
    {next : Option (Except IoError Unit) → TcpProgram}
    (h : ∀ r, routeDiscipline.Spec (Continues config target) (next r) v) :
    routeDiscipline.Spec (Continues config target) (runConnect address next) v := by
  rintro _ rfl
  refine ⟨trivial, ?_⟩
  rintro r _ rfl
  cases r with
  | error error => exact h _
  | ok _ =>
    rintro _ rfl
    refine ⟨trivial, ?_⟩
    rintro r _ rfl
    exact h r

theorem route_reconnect (hopen : v = true) :
    routeDiscipline.Spec (Continues config target) (reconnect locked) v := by
  rintro _ rfl
  refine ⟨trivial, ?_⟩
  rintro r _ rfl
  cases r with
  | none => exact route_release fun _ => .inr hopen
  | some peer =>
    refine route_runConnect fun r => ?_
    cases r with
    | none => exact route_releaseStopped
    | some result => exact route_release continues_map

theorem route_rollback {next : TcpProgram}
    (h : routeDiscipline.Spec (Continues config target) next v) :
    routeDiscipline.Spec (Continues config target) (rollback locked next) v := by
  rintro _ rfl
  refine ⟨trivial, ?_⟩
  rintro _ _ rfl
  exact h

theorem route_launch {port : UInt16} {service : Service} {result : Except IoError Unit} :
    routeDiscipline.Spec (Continues config target) (launch locked port service result) v := by
  rintro _ rfl
  refine ⟨trivial, ?_⟩
  rintro _ _ rfl _ rfl
  refine ⟨trivial, ?_⟩
  rintro _ _ rfl
  exact route_release continues_map

theorem route_redirect {service : Service} :
    routeDiscipline.Spec (Continues config target) (redirect relay locked service) v := by
  rintro _ rfl
  refine ⟨trivial, ?_⟩
  rintro _ _ rfl _ rfl
  refine ⟨trivial, ?_⟩
  rintro r _ rfl
  cases r with
  | error error => exact route_rollback route_error
  | ok port =>
    refine route_runConnect fun r => ?_
    cases r with
    | none => exact route_rollback route_releaseStopped
    | some result =>
      dsimp only
      split
      · exact route_rollback (route_release continues_map)
      · exact route_launch

theorem route_acquire {service : Service} :
    routeDiscipline.Spec (Continues config target) (acquire relay locked service) v := by
  rintro _ rfl
  refine ⟨trivial, ?_⟩
  rintro r _ rfl
  cases r with
  | false => exact route_error
  | true =>
    rintro _ rfl
    refine ⟨trivial, ?_⟩
    rintro r _ rfl
    cases r with
    | error error => exact route_error
    | ok _ => exact route_redirect

theorem route_route {proxyTarget : ProxyTarget}
    (h : Broker.isNumeric proxyTarget = true → Dns.isDns locked.target = false →
      FakeDns.isFakeIp locked.target.ip = false ∧
        proxyTarget = .ip (.v4 locked.target.ip) locked.target.port) :
    routeDiscipline.Spec (Continues config locked.target) (route config relay locked proxyTarget)
      v := by
  unfold route
  dsimp only
  split
  · exact route_releaseStopped
  · next chosen hroute =>
    split
    · next hdirect =>
      simp only [Bool.and_eq_true, Bool.not_eq_true', beq_iff_eq] at hdirect
      obtain ⟨⟨hdns, hnumeric⟩, rfl⟩ := hdirect
      obtain ⟨hfake, rfl⟩ := h hnumeric hdns
      refine route_release fun _ => .inl ⟨?_, hfake, hroute⟩
      simpa [Dns.isDns, dnsPort] using hdns
    · exact route_acquire

theorem route_connect :
    routeDiscipline.Spec (Continues config locked.target) (connect config relay locked) v := by
  rintro _ rfl
  refine ⟨trivial, ?_⟩
  rintro _ _ rfl
  dsimp only
  split
  · next hdns => exact route_route fun _ h => by simp [hdns] at h
  · rintro _ rfl
    refine ⟨trivial, ?_⟩
    rintro r _ ⟨rfl, mapping, hr⟩
    cases r with
    | error error => exact route_error
    | ok proxyTarget =>
      refine route_route fun hnumeric _ => ?_
      unfold Resolver.target at hr
      split at hr
      · split at hr
        · cases hr
          cases hnumeric
        · cases hr
      · next hfake =>
        cases hr
        exact ⟨by simpa using hfake, rfl⟩

theorem route_checkState (locked : Locked) :
    routeDiscipline.Spec (Continues config locked.target) (checkState config relay locked) v := by
  rintro _ rfl
  refine ⟨trivial, ?_⟩
  rintro r _ rfl
  cases r with
  | error error => exact route_error
  | ok _ =>
    rintro _ rfl
    refine ⟨trivial, ?_⟩
    rintro r _ rfl
    cases r with
    | error error => exact route_error
    | ok state =>
      dsimp only
      split
      · next hstate => exact route_reconnect (by simpa [Except.toOption] using hstate)
      · exact route_connect

theorem route_lockSocket :
    routeDiscipline.Spec (Continues config target) (lockSocket config relay target) v := by
  rintro _ rfl
  refine ⟨trivial, ?_⟩
  rintro r _ rfl
  cases r with
  | error error => exact fun h => nomatch h
  | ok cookie =>
    rintro _ rfl
    refine ⟨trivial, ?_⟩
    rintro lock _ rfl _ rfl
    refine ⟨trivial, ?_⟩
    rintro r _ rfl
    cases r with
    | false =>
      rintro _ rfl
      refine ⟨trivial, ?_⟩
      rintro _ _ rfl
      exact route_stop
    | true => exact route_checkState ⟨cookie, lock, target⟩

/-- What the result of a connect call tells about its destination. -/
def Decides (config : Config) (memory : Memory) (notification : Notification)
    (result : Except IoError Reply) (foundOpen : Bool) : Prop :=
  result = .ok .continueSyscall → Disconnects memory notification ∨
    ∀ target, ConnectsTo memory notification target → Native config target ∨ foundOpen = true

theorem route_connectTcp {memory : Memory} {notification : Notification} :
    routeDiscipline.Spec (Decides config memory notification)
      (connectTcp config relay memory notification) v := by
  unfold connectTcp
  dsimp only
  split
  · exact fun h => nomatch h
  · next family hfamily =>
    split
    · next hunspec =>
      rw [hunspec] at hfamily
      exact fun _ => .inl (disconnects_of_family hfamily)
    · split
      · exact fun h => nomatch h
      · next target htarget =>
        refine route_lockSocket.weaken fun result foundOpen h hresult => .inr ?_
        intro kernelTarget hconnects
        unfold ConnectsTo at hconnects
        rw [low_of_family hfamily, htarget] at hconnects
        cases hconnects
        exact h hresult

end

end TcpProgram

/-- The call has not ended. -/
def TcpCall.Pending (call : TcpCall) : Prop := ∀ result, call.phase ≠ .returned result

namespace TcpSystem

/-- No pending call that found the socket open goes to a destination that needs
the relay. -/
def Unawaited (config : Config) (s : TcpSystem) (socket : UInt64) : Prop :=
  ∀ id call target, s.calls id = some call → call.socket = socket → call.Pending →
    call.record.foundOpen = true → ConnectsTo call.memory call.notification target →
      Native config target

/-- A socket is disconnected or shut down only while no call depends on it being open. -/
def ClosesUnawaited (config : Config) : TcpEvent → TcpSystem → Prop
  | .close socket, s => s.Unawaited config socket
  | .execute id, s => ∀ call, s.calls id = some call → Disconnects call.memory call.notification →
      s.Unawaited config call.socket
  | _, _ => True

/-- A call that is still running keeps to the discipline, a call that is
continued is native or will find its socket open. -/
structure Routed (config : Config) (s : TcpSystem) (call : TcpCall) : Prop where
  running : ∀ program, call.phase = .running program →
    routeDiscipline.Spec (TcpProgram.Decides config call.memory call.notification) program
      call.record.foundOpen
  continued : call.phase = .continued → TcpProgram.Decides config call.memory call.notification
    (.ok .continueSyscall) call.record.foundOpen
  stays : call.Pending → call.record.foundOpen = true →
    ∀ target, ConnectsTo call.memory call.notification target → ¬Native config target →
      s.sockets call.socket ≠ .closed

structure OnlyNative (config : Config) (s : TcpSystem) : Prop where
  calls : ∀ id call, s.calls id = some call → Routed config s call
  natives : ∀ connection ∈ s.natives, Native config connection.2

section

variable {config : Config} {s t : TcpSystem} {call : TcpCall} {id : Nat}

theorem routed_returned {result : Except IoError Reply} :
    Routed config s { call with phase := .returned result } :=
  ⟨fun _ h => (nomatch h), fun h => (nomatch h), fun h => absurd rfl (h result)⟩

theorem Routed.frame (h : Routed config s call)
    (hclosed : t.sockets call.socket = .closed → s.sockets call.socket = .closed) :
    Routed config t call :=
  ⟨h.running, h.continued, fun hpending hopen target hconnects hnative hc =>
    h.stays hpending hopen target hconnects hnative (hclosed hc)⟩

theorem OnlyNative.setCall (h : OnlyNative config s) (hcall : Routed config s call) :
    OnlyNative config (s.setCall id call) := by
  refine ⟨?_, h.natives⟩
  intro id' call' hid'
  rcases calls_setCall hid' with ⟨rfl, rfl⟩ | ⟨_, hid'⟩
  · exact hcall.frame fun hc => hc
  · exact (h.calls id' call' hid').frame fun hc => hc

/-- What changes no call and closes no socket. -/
theorem OnlyNative.frame (h : OnlyNative config s) (hcalls : t.calls = s.calls)
    (hnatives : t.natives = s.natives)
    (hclosed : ∀ socket, t.sockets socket = .closed → s.sockets socket = .closed) :
    OnlyNative config t := by
  refine ⟨?_, ?_⟩
  · rw [hcalls]
    intro id call hid
    exact (h.calls id call hid).frame (hclosed _)
  · rw [hnatives]
    exact h.natives

theorem OnlyNative.setSocket (h : OnlyNative config s) {socket : UInt64} {state : TcpSocket}
    (hstate : state ≠ .closed) : OnlyNative config (s.setSocket socket state) := by
  refine h.frame rfl rfl fun other hother => ?_
  rw [sockets_setSocket] at hother
  split at hother
  · exact absurd hother hstate
  · exact hother

theorem OnlyNative.closeSocket (h : OnlyNative config s) {socket : UInt64}
    (hallowed : s.Unawaited config socket) : OnlyNative config (s.closeSocket socket) := by
  refine ⟨?_, h.natives⟩
  intro id call hid
  have hcall := h.calls id call hid
  refine ⟨hcall.running, hcall.continued, ?_⟩
  intro hpending hopen target hconnects hnative hclosed
  by_cases hsocket : call.socket = socket
  · exact hnative (hallowed id call target hid hsocket hpending hopen hconnects)
  · refine hcall.stays hpending hopen target hconnects hnative ?_
    change (s.setSocket socket .closed).sockets call.socket = .closed at hclosed
    rwa [sockets_setSocket, if_neg hsocket] at hclosed

theorem Answers.route {op : TcpOperation} {r : op.Ret} (h : s.Answers id call op r t)
    {entry : Option Peer} : routeDiscipline.after op r call.record.foundOpen
      (call.record.next entry op r).foundOpen := by
  cases op with
  | target address => exact ⟨rfl, h.2⟩
  | _ => rfl

theorem OnlyNative.operate (h : OnlyNative config s) {op : TcpOperation}
    {next : op.Ret → TcpProgram} {r : op.Ret} (hid : s.calls id = some call)
    (hphase : call.phase = .running (.perform op next)) (hr : s.Answers id call op r t) :
    OnlyNative config (t.setCall id { call with
      phase := .running (next r)
      record := call.record.next (s.peers.lookup call.socket) op r }) := by
  have hframe : OnlyNative config t ∧ t.sockets = s.sockets := by
    obtain ⟨_, _, _, _, rfl⟩ := hr.frame
    exact ⟨h.frame rfl rfl fun _ hc => hc, rfl⟩
  obtain ⟨ht, hsockets⟩ := hframe
  have hcall := h.calls id call hid
  have hpending : call.Pending := by
    intro result hresult
    rw [hphase] at hresult
    cases hresult
  refine ht.setCall ⟨?_, fun hc => (nomatch hc), ?_⟩
  · rintro _ ⟨⟩
    exact (hcall.running _ hphase _ rfl).2 r _ hr.route
  · rw [hsockets]
    intro _ hnow target hconnects hnative
    rcases hr.foundOpen hnow with hold | hsocket
    · exact hcall.stays hpending hold target hconnects hnative
    · exact hsocket

theorem OnlyNative.reply (h : OnlyNative config s) {result : Except IoError Reply}
    (hid : s.calls id = some call) (hphase : call.phase = .running (.done result)) :
    OnlyNative config (s.setCall id { call with
      phase := if result = .ok .continueSyscall then .continued else .returned result }) := by
  have hcall := h.calls id call hid
  apply h.setCall
  split
  · next hresult =>
    subst hresult
    refine ⟨fun _ hc => (nomatch hc), fun _ => hcall.running _ hphase, ?_⟩
    intro _
    apply hcall.stays
    intro result hr
    rw [hphase] at hr
    cases hr
  · exact routed_returned

theorem OnlyNative.execute (h : OnlyNative config s) (hallowed : ClosesUnawaited config (.execute id) s)
    {relay : SocketAddrV4} (hstep : Step config relay (.execute id) s t) : OnlyNative config t := by
  obtain ⟨call, hid, hphase, ⟨hdisconnects, rfl⟩ | ⟨target, hconnects, hclosed, rfl⟩⟩ := hstep
  · exact (h.closeSocket (hallowed call hid hdisconnects)).setCall routed_returned
  · have hcall := h.calls id call hid
    have hnative : Native config target := by
      by_contra hnative
      rcases hcall.continued hphase rfl with hdisconnects | hdecided
      · exact not_connectsTo_of_disconnects hdisconnects hconnects
      · rcases hdecided target hconnects with hn | hopen
        · exact hnative hn
        · refine hcall.stays ?_ hopen target hconnects hnative hclosed
          intro result hr
          rw [hphase] at hr
          cases hr
    have hsocket : OnlyNative config (s.setSocket call.socket (.native target)) :=
      h.setSocket fun hc => nomatch hc
    refine ⟨fun id' call' hid' => ?_, ?_⟩
    · exact ((hsocket.setCall routed_returned).calls id' call' hid').frame fun hc => hc
    intro connection hmem
    rcases List.mem_cons.mp hmem with rfl | hmem
    · exact hnative
    · exact h.natives connection hmem

theorem onlyNative_initial (h : s.Initial) : OnlyNative config s := by
  obtain ⟨_, hcalls, _, _, _, _, hnatives⟩ := h
  refine ⟨?_, ?_⟩
  · intro id call hid
    rw [hcalls id] at hid
    cases hid
  · rw [hnatives]
    simp

theorem onlyNative_step {relay : SocketAddrV4} (event : TcpEvent) (h : OnlyNative config s)
    (hallowed : ClosesUnawaited config event s) (hstep : Step config relay event s t) :
    OnlyNative config t := by
  cases event with
  | begin id socket notification memory =>
    obtain ⟨_, rfl⟩ := hstep
    apply h.setCall
    refine ⟨?_, fun hc => (nomatch hc), fun _ hopen => (nomatch hopen)⟩
    rintro _ ⟨⟩
    exact TcpProgram.route_connectTcp
  | operate id =>
    obtain ⟨call, op, next, r, u, hid, hphase, hr, rfl⟩ := hstep
    exact h.operate hid hphase hr
  | dial id =>
    obtain ⟨call, address, next, _, _, _, rfl⟩ := hstep
    exact h.setSocket fun hc => nomatch hc
  | reply id =>
    obtain ⟨call, result, hid, hphase, rfl⟩ := hstep
    exact h.reply hid hphase
  | execute id => exact h.execute hallowed hstep
  | refuse id =>
    obtain ⟨call, hid, hphase, rfl⟩ := hstep
    exact h.setCall routed_returned
  | close socket =>
    cases hstep
    exact h.closeSocket hallowed
  | listen socket =>
    obtain ⟨_, rfl⟩ := hstep
    exact h.setSocket fun hc => nomatch hc
  | sweep =>
    obtain ⟨_, _, _, _, rfl⟩ := hstep
    exact h.frame rfl rfl fun _ hc => hc
  | startDump =>
    obtain ⟨_, _, rfl⟩ := hstep
    exact h.frame rfl rfl fun _ hc => hc
  | endDump cookies =>
    obtain ⟨_, _, _, _, rfl⟩ := hstep
    exact h.frame rfl rfl fun _ hc => hc
  | retain =>
    obtain ⟨_, _, _, rfl⟩ := hstep
    exact h.frame rfl rfl fun _ hc => hc
  | tick =>
    cases hstep
    exact h.frame rfl rfl fun _ hc => hc
  | failSnapshot =>
    cases hstep
    exact h.frame rfl rfl fun _ hc => hc

end

end TcpSystem

/-- The kernel connects a socket to a destination by itself only if the
destination is no DNS server, no FakeIP and has a direct route. -/
theorem native_connect_direct {config : Config} {relay : SocketAddrV4} {s : TcpSystem}
    (h : (tcpSystem config relay).ReachableWith (TcpSystem.ClosesUnawaited config) s) :
    ∀ connection ∈ s.natives, connection.2.port ≠ 53 ∧
      FakeDns.isFakeIp connection.2.ip = false ∧
      config.proxyFor (.ip (.v4 connection.2.ip) connection.2.port) = .ok .direct :=
  (h.invariant (I := TcpSystem.OnlyNative config) (fun _ => TcpSystem.onlyNative_initial)
    fun event _ _ => TcpSystem.onlyNative_step event).natives

section

open TcpSystem

/-- A call to a local server, which the kernel runs. -/
theorem native_connect_direct_local : ∃ s,
    (tcpSystem proxied ingressAddress).ReachableWith (ClosesUnawaited proxied) s ∧
      s.natives = [(9, localServer)] ∧ ∀ connection ∈ s.natives, connection.2.port ≠ 53 ∧
      FakeDns.isFakeIp connection.2.ip = false ∧
      proxied.proxyFor (.ip (.v4 connection.2.ip) connection.2.port) = .ok .direct := by
  have h0 : (tcpSystem proxied ingressAddress).ReachableWith (ClosesUnawaited proxied) initial :=
    .start initial_initial
  have h1 := reachable_next (.begin 0 9 (connecting 16) (holding (addressBytes localServer))) h0
    trivial ⟨rfl, rfl⟩
  have h2 := reachable_operate 0 .cookie (.ok 9) h1 trivial rfl rfl
    ⟨rfl, fun _ h => (Except.ok.inj h).symm⟩
  have h3 := reachable_operate 0 (.getLock 9) 0 h2 trivial rfl rfl
    (.inr ⟨fun _ h => (nomatch h), rfl, rfl⟩)
  have h4 := reachable_operate 0 (.lock 0) true h3 trivial rfl rfl (.inr ⟨rfl, rfl, rfl⟩)
  have h5 := reachable_operate 0 .valid (.ok ()) h4 trivial rfl rfl rfl
  have h6 := reachable_operate 0 .state (.ok 7) h5 trivial rfl rfl
    ⟨rfl, fun _ h => ⟨fun _ => rfl, fun _ => (Except.ok.inj h).symm⟩⟩
  have h7 := reachable_operate 0 (.removePeer 9) () h6 trivial rfl rfl rfl
  have h8 := reachable_operate 0 (.target localServer) (Resolver.target .new localServer) h7 trivial
    rfl rfl ⟨rfl, _, rfl⟩
  have h9 := reachable_operate 0 (.unlock 0) () h8 trivial rfl rfl rfl
  have h10 := reachable_next (.reply 0) h9 trivial ⟨_, _, rfl, rfl, rfl⟩
  have hconnects : ConnectsTo (holding (addressBytes localServer)) (connecting 16) localServer := rfl
  have h11 := reachable_next (.execute 0) h10 (by
    rintro _ ⟨⟩ hdisconnects
    exact absurd hconnects (not_connectsTo_of_disconnects hdisconnects))
    ⟨_, rfl, rfl, .inr ⟨localServer, hconnects, rfl, rfl⟩⟩
  exact ⟨_, h11, rfl, native_connect_direct h11⟩

/-- A call that finds its socket listening is continued. Before the kernel runs
it, another call disconnects the socket, so that it connects past the proxy. -/
theorem native_connect_proxied : ∃ s, (tcpSystem proxied ingressAddress).Reachable s ∧
    s.natives = [(9, server)] ∧
    proxied.proxyFor (.ip (.v4 server.ip) server.port) = .ok (.socks5 "127.0.0.1:1080" none) := by
  have h0 : (tcpSystem proxied ingressAddress).Reachable initial := .start initial_initial
  have h1 := reachable_next (.listen 9) h0 trivial ⟨rfl, rfl⟩
  have h2 := reachable_next (.begin 0 9 (connecting 16) (holding (addressBytes server))) h1 trivial
    ⟨rfl, rfl⟩
  have h3 := reachable_operate 0 .cookie (.ok 9) h2 trivial rfl rfl
    ⟨rfl, fun _ h => (Except.ok.inj h).symm⟩
  have h4 := reachable_operate 0 (.getLock 9) 0 h3 trivial rfl rfl
    (.inr ⟨fun _ h => (nomatch h), rfl, rfl⟩)
  have h5 := reachable_operate 0 (.lock 0) true h4 trivial rfl rfl (.inr ⟨rfl, rfl, rfl⟩)
  have h6 := reachable_operate 0 .valid (.ok ()) h5 trivial rfl rfl rfl
  have h7 := reachable_operate 0 .state (.ok 10) h6 trivial rfl rfl
    ⟨rfl, fun _ h => by cases h; exact ⟨fun h => absurd h (by decide), fun h => nomatch h⟩⟩
  have h8 := reachable_operate 0 (.peer 9) none h7 trivial rfl rfl ⟨rfl, rfl⟩
  have h9 := reachable_operate 0 (.unlock 0) () h8 trivial rfl rfl rfl
  have h10 := reachable_next (.reply 0) h9 trivial ⟨_, _, rfl, rfl, rfl⟩
  have h11 := reachable_next (.begin 1 9 (connecting 2) (holding [0, 0])) h10 trivial ⟨rfl, rfl⟩
  have h12 := reachable_next (.reply 1) h11 trivial ⟨_, _, rfl, rfl, rfl⟩
  have h13 := reachable_next (.execute 1) h12 trivial ⟨_, rfl, rfl, .inl ⟨rfl, rfl⟩⟩
  have h14 := reachable_next (.execute 0) h13 trivial
    ⟨_, rfl, rfl, .inr ⟨server, rfl, rfl, rfl⟩⟩
  exact ⟨_, h14, rfl, rfl⟩

end

end Scproxy
