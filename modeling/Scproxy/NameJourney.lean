import Scproxy.ConnectOutcome
import Scproxy.OutboundTask
import Scproxy.RequestHead
import Scproxy.ResponseLayout
import Scproxy.Socks5Decode

namespace Scproxy

/-- The address that the application takes from an A answer: the data of its last record. -/
def lastAddress (response : List UInt8) : Option Ipv4Addr :=
  match response.drop (response.length - 4) with
  | [a, b, c, d] => some (.new a b c d)
  | _ => none

theorem lastAddress_append_octets (front : List UInt8) (ip : Ipv4Addr) :
    lastAddress (front ++ ip.octets) = some ip := by
  obtain ⟨a, b, c, d, hoctets⟩ : ∃ a b c d, ip.octets = [a, b, c, d] := ⟨_, _, _, _, rfl⟩
  have hlength : (front ++ ip.octets).length - 4 = front.length := by
    rw [hoctets, List.length_append]
    simp
  rw [lastAddress, hlength, List.drop_left, hoctets]
  exact congrArg some (new_of_octets hoctets)

theorem lastAddress_buildAResponse (id : UInt16) (domain : String) (ip : Ipv4Addr) :
    lastAddress (buildAResponse id domain ip) = some ip := by
  rw [buildAResponse_eq, answerRecord, ← List.append_assoc]
  exact lastAddress_append_octets _ ip

/-- The last message of a successful handshake is the one request, and it is decoded to its
target. -/
theorem Socks5Connector.connect_asks_target {os : ProxyOs} {connector : Socks5Connector}
    {target : ProxyTarget} {stream : ProxyStream} {trace : List ExchangeEvent}
    (hhost : ∀ host port, target = .domain host port → (asBytes host).length ≤ 255)
    (h : Socks5Connector.connect os connector target = (.ok stream, trace)) :
    ∃ earlier message, Socks5.written trace = earlier ++ [message] ∧
      Socks5.readConnect message = some (target, []) := by
  obtain ⟨dest, hdest⟩ := Socks5.destination_of_host hhost
  have hread := Socks5.readConnect_connectMessage hdest []
  rw [List.append_nil] at hread
  cases hinbound : os.connect connector.server with
  | error error =>
    unfold Socks5Connector.connect at h
    rw [hinbound] at h
    cases h
  | ok inbound =>
    have heq : Socks5Connector.connect os connector target =
        ((handshake os connector target ⟨inbound, []⟩).1,
          (handshake os connector target ⟨inbound, []⟩).2.trace) := by
      unfold Socks5Connector.connect
      rw [hinbound]
    rw [heq, Prod.mk.injEq] at h
    obtain ⟨reply, messages, hhandshake, _, _, _, hwritten, _, _⟩ :=
      (triple_handshake os connector hdest inbound).ok rfl (Prod.ext h.1 rfl)
    rw [h.2] at hwritten
    obtain ⟨hlogin, hbound⟩ := hhandshake
    exact ⟨_, _, hwritten, hread⟩

/-- What the connector of a route does with a name. An HTTP proxy gets a request head unless the
name has a blank or a line end in it. -/
def AsksFor (domain : String) (port : UInt16) : ProxyConfig → Prop
  | .direct => Connector.choose .direct (.domain domain port) = .direct domain port
  | .socks5 server auth => ∀ (proxy : ProxyOs) stream trace,
      Socks5Connector.connect proxy ⟨server, auth⟩ (.domain domain port) = (.ok stream, trace) →
      ∃ messages message, Socks5.written trace = messages ++ [message] ∧
        Socks5.readConnect message = some (.domain domain port, [])
  | .http _ auth =>
      32 ∉ asBytes domain → ¬HasCrlf (asBytes domain) →
      IsRequestHead (asBytes domain ++ asBytes ":" ++ asBytes (toString port.toNat))
        (asBytes (connectRequest (.domain domain port) auth))

theorem asksFor_of_parseQuery {query : List UInt8} {id qtype : UInt16} {domain : String}
    (hquery : parseQuery query = .ok (some (id, domain, qtype))) (port : UInt16)
    (route : ProxyConfig) : AsksFor domain port route := by
  have hhost : (asBytes domain).length ≤ 255 :=
    Nat.le_trans (length_of_parseQuery hquery) (by omega)
  cases route with
  | direct => rfl
  | socks5 server auth =>
    intro proxy stream trace hconnect
    refine Socks5Connector.connect_asks_target ?_ hconnect
    rintro host port heq
    cases heq
    exact hhost
  | http server auth =>
    intro hspace hcrlf
    rw [← asBytes_fmt_domain, connectRequest_isRequestHead_iff, space_mem_authority_iff,
      hasCrlf_authority_iff]
    exact ⟨hspace, hcrlf⟩

/-- From the query to the proxy. A name that has no address yet is answered with one. When the
application connects to the address that it reads from the answer, on a new socket and another
port than that of DNS, as long as fewer names than the pool holds were given addresses since
then and a connection may be pending, the proxy of the name's route is asked for this name and
for the port of the connect. -/
theorem name_reaches_proxy {regex : RegexCrate} {specs : List String} {rules : RuleMatcher}
    {earlier : List (List UInt8)} {query : List UInt8} {id : UInt16} {domain : String}
    {before : FakeDns} (law : regex.SetLaw) (hrules : RuleMatcher.fromSpecs regex specs = .ok rules)
    (hbefore : Resolver.serve .new earlier = .ok before)
    (hquery : parseQuery query = .ok (some (id, domain, 1)))
    (hfresh : before.domainToIp.lookup domain = none) (defaultProxy : ProxyConfig)
    (command : List String) (ingress : SocketAddrV4) :
    ∃ after response ip, Resolver.answer before query = .ok (after, some response) ∧
      lastAddress response = some ip ∧
      ∀ (later : List (List UInt8)) (broker : Broker) (notification : Notification)
        (os : ConnectOs) (port : UInt16) (cookie : UInt64),
        Resolver.serve .new (earlier ++ query :: later) = .ok broker.mapping →
        (after.allocations (later.filterMap queriedName)).length < poolSize.toNat →
        os.memory.ipv4 notification.pid (notification.data.args 1) (notification.data.args 2) =
          .ok ⟨ip, port⟩ →
        port ≠ 53 → os.cookie = .ok cookie → (∀ n, os.valid n = .ok ()) → os.state = .ok 7 →
        0 < broker.pending →
        Broker.connectTcp ⟨defaultProxy, command, rules⟩ ingress notification os broker =
          broker.relayed ingress os cookie ⟨ip, port⟩
            (.outbound (.domain domain port) (domainRoute regex specs defaultProxy domain)) ∧
        AsksFor domain port (domainRoute regex specs defaultProxy domain) := by
  refine ⟨_, _, _, answer_a hquery before, lastAddress_buildAResponse _ _ _, ?_⟩
  intro later broker notification os port cookie hserve hfew htarget hport hcookie hvalid hstate
    hpending
  obtain ⟨hfake, _, hrecent⟩ := answered_address hbefore hquery hserve
  have hlookup := hrecent hfresh hfew
  have hisDns : Dns.isDns ⟨(before.resolve domain).2, port⟩ = false :=
    beq_eq_false_iff_ne.mpr hport
  refine ⟨?_, asksFor_of_parseQuery hquery port _⟩
  rw [connectTcp_eq htarget hcookie (hvalid 0) hstate, Broker.proxyTarget,
    if_neg (by simp [hisDns])]
  unfold Resolver.target
  rw [if_pos hfake, hlookup]
  simp only [proxyFor_domain_eq_domainRoute hrules law, hisDns, Broker.isNumeric,
    Bool.not_false, Bool.and_false, Bool.false_and, Bool.false_eq_true, if_false]
  exact Broker.redirect_eq_relayed hvalid hpending

/-- The name `a.b` goes through a SOCKS5 server. -/
theorem name_reaches_proxy_plain :
    ∃ rules, RuleMatcher.fromSpecs plainRegex poolSpecs = .ok rules ∧
      Broker.connectTcp ⟨.direct, [], rules⟩ ⟨.localhost, 4000⟩ plainNotification plainConnect
        answeredBroker = answeredBroker.relayed ⟨.localhost, 4000⟩ plainConnect 7 poolAddress
          (.outbound (.domain "a.b" 443) (.socks5 "127.0.0.1:1080" none)) ∧
      ∀ (proxy : ProxyOs) stream trace,
        Socks5Connector.connect proxy ⟨"127.0.0.1:1080", none⟩ (.domain "a.b" 443) =
          (.ok stream, trace) →
        ∃ messages message, Socks5.written trace = messages ++ [message] ∧
          Socks5.readConnect message = some (.domain "a.b" 443, []) := by
  have hserve : Resolver.serve .new ([] ++ [plainQuery]) = .ok answeredBroker.mapping := by
    have hname : ([] ++ [plainQuery]).filterMap queriedName = ["a.b"] := by decide +kernel
    rw [serve_eq_resolveAll, hname]
    rfl
  have htarget : plainConnect.memory.ipv4 plainNotification.pid (plainNotification.data.args 1)
      (plainNotification.data.args 2) = .ok poolAddress := by decide +kernel
  have hquery : parseQuery plainQuery = .ok (some (0x1234, "a.b", 1)) := by decide +kernel
  have hread : lastAddress (buildAResponse 0x1234 "a.b" (FakeDns.new.resolve "a.b").2) =
      some poolAddress.ip := by decide +kernel
  have hroute : domainRoute plainRegex poolSpecs .direct "a.b" = .socks5 "127.0.0.1:1080" none := by
    decide +kernel
  obtain ⟨rules, hrules⟩ : ∃ rules, RuleMatcher.fromSpecs plainRegex poolSpecs = .ok rules :=
    ⟨_, rfl⟩
  have hbefore : Resolver.serve .new [] = .ok .new := rfl
  obtain ⟨after, response, ip, hanswer, hlast, hjourney⟩ := name_reaches_proxy plainRegex_setLaw
    hrules hbefore hquery rfl .direct [] ⟨.localhost, 4000⟩
  have hresolved := (answer_a hquery .new).symm.trans hanswer
  simp only [Except.ok.injEq, Prod.mk.injEq, Option.some.injEq] at hresolved
  obtain ⟨rfl, rfl⟩ := hresolved
  obtain rfl : poolAddress.ip = ip := Option.some.inj (hread.symm.trans hlast)
  obtain ⟨hconnect, hproxy⟩ := hjourney [] answeredBroker plainNotification plainConnect 443 7
    hserve (by decide) htarget (by decide) rfl (fun _ => rfl) rfl (by decide)
  rw [hroute] at hconnect hproxy
  exact ⟨rules, hrules, hconnect, hproxy⟩

end Scproxy
