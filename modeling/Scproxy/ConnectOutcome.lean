import Scproxy.AnswerHistory
import Scproxy.ConnectTcp
import Scproxy.DomainMatch
import Scproxy.ResponseQuestion

namespace Scproxy

namespace Broker

/-- The outcome of relaying: the socket is registered and connected to the
relay, and once that has succeeded or is in progress a task serves it. -/
def relayed (ingress : SocketAddrV4) (os : ConnectOs) (cookie : UInt64) (target : SocketAddrV4)
    (service : Service) (broker : Broker) : Except Fault Reply × Broker :=
  let started := fun port : UInt16 =>
    { broker with
      peers := (broker.peers.erase cookie).insert cookie ⟨target, ingress, os.now 1, false⟩
      pending := broker.pending - 1
      relays := broker.relays ++ [⟨cookie, port, service⟩] }
  match os.register, os.connect with
  | .error error, _ => (.error (.io error), broker.removePeer cookie)
  | .ok port, .ok () => (.ok (.value 0), started port)
  | .ok port, .error error =>
    if error = .os Errno.einprogress then (.error (.io error), started port)
    else (.error (.io error), broker.removePeer cookie)

theorem settlePeer_insertPeer (cookie : UInt64) (peer : Peer) (now : Nat) (broker : Broker) :
    settlePeer cookie now (insertPeer cookie peer broker) =
      insertPeer cookie { peer with pending := false, created := now } broker := by
  have hlookup : (insertPeer cookie peer broker).peers.lookup cookie = some peer :=
    AList.lookup_insert _
  unfold settlePeer
  rw [hlookup]
  simp only [insertPeer, AList.insert_insert]

/-- A failure before the task is spawned leaves only the cleared peer entry. -/
theorem release_removePeer {cookie : UInt64} {peer : Peer} {broker : Broker}
    (hpending : 0 < broker.pending) :
    release (removePeer cookie (insertPeer cookie peer (acquire (broker.removePeer cookie)))) =
      broker.removePeer cookie := by
  have hpeers := HashMap.erase_insert_erase broker.peers cookie peer
  have hcount : broker.pending - 1 + 1 = broker.pending := by omega
  simp only [release, removePeer, insertPeer, acquire, hpeers, hcount]

theorem redirect_eq_relayed {ingress : SocketAddrV4} {os : ConnectOs} {cookie : UInt64}
    {target : SocketAddrV4} {service : Service} {broker : Broker}
    (hvalid : ∀ n, os.valid n = .ok ()) (hpending : 0 < broker.pending) :
    redirect ingress os cookie target service (broker.removePeer cookie) =
      relayed ingress os cookie target service broker := by
  have hconnect : runConnect os = os.connect := by
    unfold runConnect
    rw [hvalid 2]
    rfl
  have hne : ¬(broker.removePeer cookie).pending = 0 := Nat.ne_of_gt hpending
  have hsettle := settlePeer_insertPeer cookie ⟨target, ingress, os.now 0, true⟩ (os.now 1)
    (acquire (broker.removePeer cookie))
  have hundo : release (removePeer cookie (insertPeer cookie ⟨target, ingress, os.now 0, true⟩
      (acquire (broker.removePeer cookie)))) = broker.removePeer cookie :=
    release_removePeer hpending
  unfold redirect relayed
  rw [Prog.bind_of_ok (rfl : Prog.get (broker.removePeer cookie) = (.ok _, _))]
  simp only [if_neg hne, hvalid 1, hconnect]
  cases os.register with
  | error error => exact congrArg (Prod.mk (Except.error (Fault.io error))) hundo
  | ok port =>
    cases os.connect with
    | ok =>
      exact congrArg (fun b => (Except.ok (Reply.value 0), spawn ⟨cookie, port, service⟩ b)) hsettle
    | error error =>
      by_cases herror : error = .os Errno.einprogress
      · simp only [herror, ne_eq, not_true_eq_false, if_false, if_true]
        exact congrArg (fun b => (Except.error (Fault.io (.os Errno.einprogress)),
          spawn ⟨cookie, port, service⟩ b)) hsettle
      · simp only [ne_eq, herror, not_false_eq_true, if_true]
        exact congrArg (Prod.mk (Except.error (Fault.io error))) hundo

end Broker

/-- The range of synthetic addresses, 198.18.0.1 to 198.19.255.254. -/
def InPool (addr : Ipv4Addr) : Prop :=
  (Ipv4Addr.new 198 18 0 1).bits.toNat ≤ addr.bits.toNat ∧
    addr.bits.toNat ≤ (Ipv4Addr.new 198 19 255 254).bits.toNat

instance (addr : Ipv4Addr) : Decidable (InPool addr) := inferInstanceAs (Decidable (_ ∧ _))

theorem isFakeIp_iff_inPool (addr : Ipv4Addr) : FakeDns.isFakeIp addr = true ↔ InPool addr := by
  have hfirst : (Ipv4Addr.new 198 18 0 1).bits.toNat = 3323068417 := rfl
  have hlast : (Ipv4Addr.new 198 19 255 254).bits.toNat = 3323199486 := rfl
  have hdns : addr = dnsAddr ↔ addr.bits.toNat = 3323068417 :=
    ⟨fun h => congrArg (fun a : Ipv4Addr => a.bits.toNat) h, fun h => Ipv4Addr.eq_of_toNat_eq h⟩
  unfold InPool
  simp only [FakeDns.isFakeIp, Bool.or_eq_true, beq_iff_eq, Bool.and_eq_true, decide_eq_true_eq,
    UInt32.le_iff_toNat_le, poolStart_toNat, poolEnd_toNat, hfirst, hlast, hdns]
  omega

theorem ipv4_family {memory : Memory} {tid : UInt32} {address length : UInt64}
    {target : SocketAddrV4} (h : memory.ipv4 tid address length = .ok target) :
    memory.family tid address length = .ok Libc.afInet := by
  obtain ⟨family, hfamily, h⟩ := bind_eq_ok.mp h
  split at h
  next => cases h
  next hinet =>
    rw [hfamily, not_not.mp hinet]

section

variable {config : Config} {ingress : SocketAddrV4} {notification : Notification}
  {os : ConnectOs} {target : SocketAddrV4} {cookie : UInt64} {broker : Broker}

/-- The checks before the routing decision pass and clear the peer entry. -/
theorem connectTcp_eq (htarget : os.memory.ipv4 notification.pid (notification.data.args 1)
      (notification.data.args 2) = .ok target)
    (hcookie : os.cookie = .ok cookie) (hvalid : os.valid 0 = .ok ())
    (hstate : os.state = .ok 7) :
    Broker.connectTcp config ingress notification os broker =
      match Broker.proxyTarget broker.mapping target with
      | .error error => (.error (.io error), broker.removePeer cookie)
      | .ok proxyTarget =>
        match config.proxyFor proxyTarget with
        | .error reason => (.error (.panic reason), broker.removePeer cookie)
        | .ok route =>
          if !Dns.isDns target && Broker.isNumeric proxyTarget && route == .direct then
            (.ok .continueSyscall, broker.removePeer cookie)
          else Broker.redirect ingress os cookie target
            (if Dns.isDns target then .dns else .outbound proxyTarget route)
            (broker.removePeer cookie) := by
  have hunspec : Libc.afInet ≠ Libc.afUnspec := by decide
  unfold Broker.connectTcp
  simp only [ipv4_family htarget, htarget, hcookie, hvalid, hstate, Prog.lift]
  show (if Libc.afInet = Libc.afUnspec then _ else _ : Prog _ _ _) broker = _
  rw [if_neg hunspec]
  show (if (7 : UInt8) ≠ 7 then _ else _ : Prog _ _ _) broker = _
  rw [if_neg (by simp)]
  cases Broker.proxyTarget broker.mapping target with
  | error error => rfl
  | ok proxyTarget =>
    simp only
    show (Prog.unwrap (config.proxyFor proxyTarget) >>= _) (broker.removePeer cookie) = _
    cases config.proxyFor proxyTarget with
    | error reason => rfl
    | ok route =>
      simp only
      show (if _ then _ else _ : Prog _ _ _) (broker.removePeer cookie) = _
      split
      next => rfl
      next => rfl

end

theorem connectTcp_outcome {regex : RegexCrate} {specs : List String} {rules : RuleMatcher}
    {history : List (List UInt8)} {broker : Broker} {notification : Notification}
    {os : ConnectOs} {target : SocketAddrV4} {cookie : UInt64} {ipRoute : ProxyConfig}
    {defaultProxy : ProxyConfig} {command : List String} (law : regex.SetLaw)
    (hrules : RuleMatcher.fromSpecs regex specs = .ok rules)
    (hserve : Resolver.serve .new history = .ok broker.mapping)
    (htarget : os.memory.ipv4 notification.pid (notification.data.args 1)
      (notification.data.args 2) = .ok target)
    (hroute : Config.proxyFor ⟨defaultProxy, command, rules⟩
      (.ip (.v4 target.ip) target.port) = .ok ipRoute)
    (hcookie : os.cookie = .ok cookie) (hvalid : ∀ n, os.valid n = .ok ())
    (hstate : os.state = .ok 7) (hpending : 0 < broker.pending) (ingress : SocketAddrV4) :
    Broker.connectTcp ⟨defaultProxy, command, rules⟩ ingress notification os broker =
      (if target.port = 53 then broker.relayed ingress os cookie target .dns
      else if InPool target.ip then
        match broker.mapping.lookup target.ip with
        | some domain =>
          broker.relayed ingress os cookie target (.outbound (.domain domain target.port)
            (domainRoute regex specs defaultProxy domain))
        | none => (.error (.io (.os Errno.enetunreach)), broker.removePeer cookie)
      else if ipRoute = .direct then (.ok .continueSyscall, broker.removePeer cookie)
      else
        broker.relayed ingress os cookie target
          (.outbound (.ip (.v4 target.ip) target.port) ipRoute)) ∧
    ∀ earlier query later before id domain, history = earlier ++ query :: later →
      Resolver.serve .new earlier = .ok before →
      parseQuery query = .ok (some (id, domain, 1)) →
      ∃ ip after current, Resolver.answer before query =
          .ok (after, some (buildAResponse id domain ip)) ∧
        InPool ip ∧ broker.mapping.lookup ip = some current ∧
        (before.domainToIp.lookup domain = none →
          (after.allocations (later.filterMap queriedName)).length < poolSize.toNat →
          current = domain) := by
  refine ⟨?_, ?_⟩
  · by_cases hdns : target.port = 53
    · have hisDns : Dns.isDns target = true := beq_iff_eq.mpr hdns
      rw [connectTcp_eq htarget hcookie (hvalid 0) hstate, Broker.proxyTarget, if_pos hisDns]
      simp only [hroute, hisDns, Bool.not_true, Bool.false_and, Bool.false_eq_true, if_false,
        if_true, if_pos hdns]
      exact Broker.redirect_eq_relayed hvalid hpending
    · have hisDns : Dns.isDns target = false := beq_eq_false_iff_ne.mpr hdns
      rw [connectTcp_eq htarget hcookie (hvalid 0) hstate, Broker.proxyTarget,
        if_neg (by simp [hisDns]), if_neg hdns]
      unfold Resolver.target
      by_cases hpool : InPool target.ip
      · rw [if_pos ((isFakeIp_iff_inPool _).mpr hpool), if_pos hpool]
        cases broker.mapping.lookup target.ip with
        | none => rfl
        | some domain =>
          simp only [proxyFor_domain_eq_domainRoute hrules law, hisDns, Broker.isNumeric,
            Bool.not_false, Bool.and_false, Bool.false_and, Bool.false_eq_true, if_false]
          exact Broker.redirect_eq_relayed hvalid hpending
      · rw [if_neg (mt (isFakeIp_iff_inPool _).mp hpool), if_neg hpool]
        simp only [hroute, hisDns, Broker.isNumeric, Bool.not_false, Bool.true_and, beq_iff_eq,
          Bool.false_eq_true, if_false]
        by_cases hdirect : ipRoute = .direct
        · rw [if_pos hdirect, if_pos hdirect]
        · rw [if_neg hdirect, if_neg hdirect]
          exact Broker.redirect_eq_relayed hvalid hpending
  · intro earlier query later before id domain hsplit hbefore hquery
    rw [hsplit] at hserve
    obtain ⟨hfake, ⟨current, hcurrent⟩, hrecent⟩ := answered_address hbefore hquery hserve
    refine ⟨_, _, current, answer_a hquery before, (isFakeIp_iff_inPool _).mp hfake, hcurrent, ?_⟩
    intro hmiss hfew
    exact Option.some.inj (hcurrent.symm.trans (hrecent hmiss hfew))

def poolSpecs : List String :=
  ["cidr:198.18.0.0/15=direct", "domain:a.b=socks5://127.0.0.1:1080"]

def poolAddress : SocketAddrV4 := ⟨.new 198 18 0 2, 443⟩

/-- A connect whose socket address lies at 0x1000 and meets no obstacle. -/
def plainConnect : ConnectOs where
  memory address := (addressBytes poolAddress)[address.toNat - 0x1000]?
  cookie := .ok 7
  valid _ := .ok ()
  state := .ok 7
  register := .ok 40000
  connect := .ok ()
  now _ := 0

def plainNotification : Notification where
  id := 1
  pid := 100
  data := ⟨42, Arch.nativeArch .x86_64, 0, fun i => if i = 1 then 0x1000 else 16⟩

def answeredBroker : Broker := ⟨(FakeDns.new.resolve "a.b").1, ∅, 128, []⟩

theorem connectTcp_outcome_pool :
    ∃ rules, RuleMatcher.fromSpecs plainRegex poolSpecs = .ok rules ∧
      Broker.connectTcp ⟨.direct, [], rules⟩ ⟨.localhost, 4000⟩ plainNotification plainConnect
        answeredBroker = answeredBroker.relayed ⟨.localhost, 4000⟩ plainConnect 7 poolAddress
          (.outbound (.domain "a.b" 443) (.socks5 "127.0.0.1:1080" none)) := by
  have hserve : Resolver.serve .new [plainQuery] = .ok answeredBroker.mapping := by
    have hname : [plainQuery].filterMap queriedName = ["a.b"] := by decide +kernel
    rw [serve_eq_resolveAll, hname]
    rfl
  have htarget : plainConnect.memory.ipv4 plainNotification.pid (plainNotification.data.args 1)
      (plainNotification.data.args 2) = .ok poolAddress := by decide +kernel
  refine ⟨_, rfl, ?_⟩
  refine ((connectTcp_outcome plainRegex_setLaw
    (rfl : RuleMatcher.fromSpecs plainRegex poolSpecs = .ok _) hserve htarget rfl rfl
    (fun _ => rfl) rfl (by decide) ⟨.localhost, 4000⟩).1).trans ?_
  have hport : ¬poolAddress.port = 53 := by decide
  have hpool : InPool poolAddress.ip := by decide
  have hlookup : answeredBroker.mapping.lookup poolAddress.ip = some "a.b" := by decide
  have hroute : domainRoute plainRegex poolSpecs .direct "a.b" = .socks5 "127.0.0.1:1080" none := by
    decide +kernel
  rw [if_neg hport, if_pos hpool, hlookup]
  simp only [hroute]
  rfl

end Scproxy
