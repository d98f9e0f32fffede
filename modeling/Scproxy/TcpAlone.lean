import Scproxy.ConnectOutcome
import Scproxy.TcpProgram

namespace Scproxy

/-- A connect call while no other task runs. `stage` counts its checks of the
notification, the last of which is made by `connect::run`, and `permit` is the
permit that it holds. -/
structure Alone where
  broker : Broker
  stage : Nat
  permit : Bool

namespace Alone

def setBroker (a : Alone) (broker : Broker) : Alone := { a with broker := broker }

def answer (os : ConnectOs) : (op : TcpOperation) → Alone → Option (op.Ret × Alone)
  | .cookie, a => some (os.cookie, a)
  | .getLock _, a => some (0, a)
  | .lock _, a => some (true, a)
  | .valid, a => some (os.valid a.stage, { a with stage := a.stage + 1 })
  | .state, a => some (os.state, a)
  | .peer cookie, a => some (a.broker.peers.lookup cookie, { a with stage := 2 })
  | .removePeer cookie, a => some ((), a.setBroker (a.broker.removePeer cookie))
  | .target address, a => some (Resolver.target a.broker.mapping address, a)
  | .acquire, a =>
    if a.broker.pending = 0 then some (false, a)
    else some (true, { a with broker := a.broker.acquire, permit := true })
  | .insertPeer cookie target internal, a =>
    some ((), a.setBroker (a.broker.insertPeer cookie ⟨target, internal, os.now 0, true⟩))
  | .register, a => some (os.register, a)
  | .connect _, a => some (some os.connect, a)
  | .settlePeer cookie, a => some ((), a.setBroker (a.broker.settlePeer cookie (os.now 1)))
  | .spawn task, a => some ((), { a with broker := a.broker.spawn task, permit := false })
  | .unlock _, a => some ((), a)
  | .forget _, a => some ((), a)
  | .stop, _ => none

/-- The permit is dropped at the end, unless the spawned task has it. -/
def finish (a : Alone) : Broker := if a.permit then a.broker.release else a.broker

def run (os : ConnectOs) (p : TcpProgram) (a : Alone) : Option (Except IoError Reply) × Broker :=
  let (result, last) := p.interpret (answer os) a
  (result, last.finish)

theorem run_perform (os : ConnectOs) {op : TcpOperation} {next : op.Ret → TcpProgram} {a b : Alone}
    {r : op.Ret} (h : answer os op a = some (r, b)) :
    run os (.perform op next) a = run os (next r) b := by
  simp only [run, Interaction.interpret, h]

/-- A panic stops the task. -/
def outcome : Except Fault Reply × Broker → Option (Except IoError Reply) × Broker
  | (.ok reply, broker) => (some (.ok reply), broker)
  | (.error (.io error), broker) => (some (.error error), broker)
  | (.error (.panic _), broker) => (none, broker)

theorem run_runConnect (os : ConnectOs) (address : SocketAddrV4)
    (next : Option (Except IoError Unit) → TcpProgram) {a : Alone} (h : a.stage = 2) :
    run os (TcpProgram.runConnect address next) a =
      run os (next (some (Broker.runConnect os))) { a with stage := 3 } := by
  have hvalid : answer os .valid a = some (os.valid 2, { a with stage := 3 }) := by
    rw [answer, h]
  unfold TcpProgram.runConnect
  rw [run_perform os hvalid]
  cases hresult : os.valid 2 with
  | error error =>
    rw [Broker.runConnect, hresult]
    rfl
  | ok _ =>
    rw [Broker.runConnect, hresult]
    exact run_perform os rfl

theorem run_redirect (os : ConnectOs) (relay : SocketAddrV4) (locked : Locked) (service : Service)
    (broker : Broker) :
    run os (TcpProgram.acquire relay locked service) ⟨broker, 1, false⟩ =
      outcome (Broker.redirect relay os locked.cookie locked.target service broker) := by
  unfold TcpProgram.acquire Broker.redirect
  rw [Prog.bind_of_ok (rfl : Prog.get broker = (.ok _, _))]
  by_cases hpending : broker.pending = 0
  · have hanswer : answer os .acquire ⟨broker, 1, false⟩ = some (false, ⟨broker, 1, false⟩) :=
      if_pos hpending
    rw [run_perform os hanswer, if_pos hpending]
    rfl
  · have hanswer : answer os .acquire ⟨broker, 1, false⟩ = some (true, ⟨broker.acquire, 1, true⟩) :=
      if_neg hpending
    rw [run_perform os hanswer, if_neg hpending]
    dsimp only
    rw [run_perform os (rfl : answer os .valid ⟨broker.acquire, 1, true⟩ =
      some (os.valid 1, ⟨broker.acquire, 2, true⟩))]
    cases os.valid 1 with
    | error error => rfl
    | ok _ =>
      unfold TcpProgram.redirect
      rw [run_perform os rfl, run_perform os rfl]
      cases os.register with
      | error error => rfl
      | ok port =>
        dsimp only
        rw [run_runConnect os _ _ rfl]
        cases Broker.runConnect os with
        | ok _ => rfl
        | error error =>
          by_cases herror : error = .os Errno.einprogress
          · subst herror
            rfl
          · have hfailed : TcpProgram.failed (.error error) = true := bne_iff_ne.mpr herror
            simp only [hfailed, ne_eq, herror, not_false_eq_true, if_true]
            rfl

theorem run_route (os : ConnectOs) (config : Config) (relay : SocketAddrV4) (locked : Locked)
    (proxyTarget : ProxyTarget) (broker : Broker) :
    run os (TcpProgram.route config relay locked proxyTarget) ⟨broker, 1, false⟩ =
      outcome (match config.proxyFor proxyTarget with
        | .error reason => (.error (.panic reason), broker)
        | .ok route =>
          if !Dns.isDns locked.target && Broker.isNumeric proxyTarget && route == .direct then
            (.ok .continueSyscall, broker)
          else Broker.redirect relay os locked.cookie locked.target
            (if Dns.isDns locked.target then .dns else .outbound proxyTarget route) broker) := by
  unfold TcpProgram.route
  cases config.proxyFor proxyTarget with
  | error reason => rfl
  | ok route =>
    dsimp only
    split
    next => rfl
    next => exact run_redirect os relay locked _ broker

theorem run_connect (os : ConnectOs) (config : Config) (relay : SocketAddrV4) (locked : Locked)
    (broker : Broker) :
    run os (TcpProgram.connect config relay locked) ⟨broker, 1, false⟩ =
      outcome (match Broker.proxyTarget broker.mapping locked.target with
        | .error error => (.error (.io error), broker.removePeer locked.cookie)
        | .ok proxyTarget =>
          match config.proxyFor proxyTarget with
          | .error reason => (.error (.panic reason), broker.removePeer locked.cookie)
          | .ok route =>
            if !Dns.isDns locked.target && Broker.isNumeric proxyTarget && route == .direct then
              (.ok .continueSyscall, broker.removePeer locked.cookie)
            else Broker.redirect relay os locked.cookie locked.target
              (if Dns.isDns locked.target then .dns else .outbound proxyTarget route)
              (broker.removePeer locked.cookie)) := by
  have hremove : answer os (.removePeer locked.cookie) ⟨broker, 1, false⟩ =
      some ((), ⟨broker.removePeer locked.cookie, 1, false⟩) := rfl
  have htarget : answer os (.target locked.target) ⟨broker.removePeer locked.cookie, 1, false⟩ =
      some (Resolver.target broker.mapping locked.target,
        ⟨broker.removePeer locked.cookie, 1, false⟩) := rfl
  unfold TcpProgram.connect Broker.proxyTarget
  rw [run_perform os hremove]
  by_cases hdns : Dns.isDns locked.target = true
  · rw [if_pos hdns, if_pos hdns]
    exact run_route os config relay locked _ (broker.removePeer locked.cookie)
  · rw [if_neg hdns, if_neg hdns, run_perform os htarget]
    cases Resolver.target broker.mapping locked.target with
    | error error => rfl
    | ok proxyTarget =>
      exact run_route os config relay locked proxyTarget (broker.removePeer locked.cookie)

theorem run_reconnect (os : ConnectOs) (locked : Locked) (broker : Broker) :
    run os (TcpProgram.reconnect locked) ⟨broker, 1, false⟩ =
      outcome (match broker.peers.lookup locked.cookie with
        | none => (.ok .continueSyscall, broker)
        | some _ =>
          match Broker.runConnect os with
          | .error error => (.error (.io error), broker)
          | .ok () => (.ok (.value 0), broker)) := by
  have hpeer : answer os (.peer locked.cookie) ⟨broker, 1, false⟩ =
      some (broker.peers.lookup locked.cookie, ⟨broker, 2, false⟩) := rfl
  unfold TcpProgram.reconnect
  rw [run_perform os hpeer]
  cases broker.peers.lookup locked.cookie with
  | none => rfl
  | some peer =>
    dsimp only
    rw [run_runConnect os _ _ rfl]
    cases Broker.runConnect os with
    | error error => rfl
    | ok _ => rfl

theorem run_checkState (os : ConnectOs) (config : Config) (relay : SocketAddrV4) (locked : Locked)
    (broker : Broker) :
    run os (TcpProgram.checkState config relay locked) ⟨broker, 0, false⟩ =
      match os.valid 0, os.state with
      | .error error, _ => (some (.error error), broker)
      | .ok (), .error error => (some (.error error), broker)
      | .ok (), .ok state =>
        if state ≠ 7 then run os (TcpProgram.reconnect locked) ⟨broker, 1, false⟩
        else run os (TcpProgram.connect config relay locked) ⟨broker, 1, false⟩ := by
  have hvalid : answer os .valid ⟨broker, 0, false⟩ = some (os.valid 0, ⟨broker, 1, false⟩) := rfl
  unfold TcpProgram.checkState
  rw [run_perform os hvalid]
  cases os.valid 0 with
  | error error => rfl
  | ok _ =>
    dsimp only
    rw [run_perform os rfl]
    cases os.state with
    | error error => rfl
    | ok state =>
      dsimp only
      split
      next => rfl
      next => rfl

theorem run_lockSocket (os : ConnectOs) (config : Config) (relay target : SocketAddrV4)
    (broker : Broker) :
    run os (TcpProgram.lockSocket config relay target) ⟨broker, 0, false⟩ =
      match os.cookie with
      | .error error => (some (.error error), broker)
      | .ok cookie =>
        run os (TcpProgram.checkState config relay ⟨cookie, 0, target⟩) ⟨broker, 0, false⟩ := by
  unfold TcpProgram.lockSocket
  rw [run_perform os rfl]
  cases os.cookie with
  | error error => rfl
  | ok cookie => rfl

/-- A connect call that runs alone computes what `Broker.connectTcp` does. -/
theorem run_connectTcp (config : Config) (relay : SocketAddrV4) (notification : Notification)
    (os : ConnectOs) (broker : Broker) :
    run os (TcpProgram.connectTcp config relay os.memory notification) ⟨broker, 0, false⟩ =
      outcome (Broker.connectTcp config relay notification os broker) := by
  unfold TcpProgram.connectTcp
  dsimp only
  cases htarget : os.memory.ipv4 notification.pid (notification.data.args 1)
    (notification.data.args 2) with
  | error error =>
    unfold Broker.connectTcp
    simp only [htarget]
    cases os.memory.family notification.pid (notification.data.args 1)
      (notification.data.args 2) with
    | error error => rfl
    | ok family =>
      dsimp only
      rw [Prog.bind_of_ok (rfl : Prog.lift (.ok family) broker = (.ok family, broker))]
      split
      next => rfl
      next => rfl
  | ok target =>
    have hfamily := ipv4_family htarget
    have hinet : ¬Libc.afInet = Libc.afUnspec := by decide
    rw [hfamily]
    dsimp only
    rw [if_neg hinet, run_lockSocket]
    cases hcookie : os.cookie with
    | error error =>
      unfold Broker.connectTcp
      simp only [hfamily, htarget, hcookie]
      rfl
    | ok cookie =>
      dsimp only
      rw [run_checkState]
      cases hvalid : os.valid 0 with
      | error error =>
        unfold Broker.connectTcp
        simp only [hfamily, htarget, hcookie, hvalid]
        rfl
      | ok _ =>
        cases hstate : os.state with
        | error error =>
          unfold Broker.connectTcp
          simp only [hfamily, htarget, hcookie, hvalid, hstate]
          rfl
        | ok state =>
          dsimp only
          by_cases hclosed : state = 7
          · rw [if_neg (not_not.mpr hclosed),
              connectTcp_eq htarget hcookie hvalid (hclosed ▸ hstate)]
            exact run_connect os config relay ⟨cookie, 0, target⟩ broker
          · rw [if_pos hclosed, run_reconnect]
            unfold Broker.connectTcp
            simp only [hfamily, htarget, hcookie, hvalid, hstate]
            show _ = outcome ((if Libc.afInet = Libc.afUnspec then _ else _ : Prog _ _ _) broker)
            rw [if_neg hinet]
            show _ = outcome ((if state ≠ 7 then _ else _ : Prog _ _ _) broker)
            rw [if_pos hclosed]
            cases broker.peers.lookup cookie with
            | none => rfl
            | some peer =>
              cases Broker.runConnect os with
              | error error => rfl
              | ok _ => rfl

end Alone

end Scproxy
