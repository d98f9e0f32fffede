import Scproxy.AnswerHistory
import Scproxy.ConnectTcp
import Scproxy.Socks5Handshake

namespace Scproxy

namespace Socks5

/-- The next `n` bytes and what follows them. -/
def takeBytes (n : Nat) (bytes : List UInt8) : Option (List UInt8 × List UInt8) :=
  if n ≤ bytes.length then some (bytes.take n, bytes.drop n) else none

def readPort : List UInt8 → Option (UInt16 × List UInt8)
  | hi :: lo :: rest => some (fromBe16 hi lo, rest)
  | _ => none

/-- A byte with a length, then as many bytes of text. -/
def readText : List UInt8 → Option (String × List UInt8)
  | [] => none
  | n :: rest => do
    let (bytes, rest) ← takeBytes n.toNat rest
    let text ← fromUtf8 bytes
    some (text, rest)

def readSegments : Nat → List UInt8 → Option (List UInt16 × List UInt8)
  | 0, bytes => some ([], bytes)
  | n + 1, bytes => do
    let (segment, rest) ← readPort bytes
    let (segments, rest) ← readSegments n rest
    some (segment :: segments, rest)

/-- `ATYP DST.ADDR DST.PORT` of RFC 1928, with the bytes after it. -/
def readDestination : List UInt8 → Option (ProxyTarget × List UInt8)
  | 0x01 :: a :: b :: c :: d :: rest => do
    let (port, rest) ← readPort rest
    some (.ip (.v4 (.new a b c d)) port, rest)
  | 0x03 :: rest => do
    let (host, rest) ← readText rest
    let (port, rest) ← readPort rest
    some (.domain host port, rest)
  | 0x04 :: rest => do
    let (segments, rest) ← readSegments 8 rest
    let (port, rest) ← readPort rest
    if h : segments.length = 8 then some (.ip (.v6 ⟨segments, h⟩) port, rest) else none
  | _ => none

/-- A CONNECT request of RFC 1928. -/
def readConnect : List UInt8 → Option (ProxyTarget × List UInt8)
  | 0x05 :: 0x01 :: 0x00 :: rest => readDestination rest
  | _ => none

/-- A user and password request of RFC 1929. -/
def readLogin : List UInt8 → Option ((String × String) × List UInt8)
  | 0x01 :: rest => do
    let (user, rest) ← readText rest
    let (pass, rest) ← readText rest
    some ((user, pass), rest)
  | _ => none

theorem readPort_be16 (port : UInt16) (rest : List UInt8) :
    readPort (be16 port ++ rest) = some (port, rest) := by
  show some (fromBe16 _ _, rest) = _
  rw [fromBe16_be16]

theorem readText_asBytes {text : String} (h : (asBytes text).length ≤ 255) (rest : List UInt8) :
    readText (UInt8.ofNat (asBytes text).length :: (asBytes text ++ rest)) = some (text, rest) := by
  have hlen : (UInt8.ofNat (asBytes text).length).toNat = (asBytes text).length := by
    rw [UInt8.toNat_ofNat']
    omega
  have htake : takeBytes (asBytes text).length (asBytes text ++ rest) =
      some (asBytes text, rest) := by
    rw [takeBytes, if_pos (by simp), List.take_left, List.drop_left]
  simp only [readText, hlen, htake, Option.bind_eq_bind, Option.bind_some, fromUtf8_asBytes]

theorem readSegments_be16 (segments : List UInt16) (rest : List UInt8) :
    readSegments segments.length (segments.flatMap be16 ++ rest) = some (segments, rest) := by
  induction segments with
  | nil => rfl
  | cons segment segments ih =>
    rw [List.flatMap_cons, List.append_assoc, List.length_cons, readSegments, readPort_be16]
    simp only [Option.bind_eq_bind, Option.bind_some, ih]

theorem readDestination_v4 (addr : Ipv4Addr) (port : UInt16) (rest : List UInt8) :
    readDestination (0x01 :: (addr.octets ++ (be16 port ++ rest))) =
      some (.ip (.v4 addr) port, rest) := by
  obtain ⟨a, b, c, d, hoctets⟩ : ∃ a b c d, addr.octets = [a, b, c, d] := ⟨_, _, _, _, rfl⟩
  rw [hoctets]
  simp only [List.cons_append, List.nil_append, readDestination, readPort_be16,
    Option.bind_eq_bind, Option.bind_some, new_of_octets hoctets]

theorem readDestination_v6 (addr : Ipv6Addr) (port : UInt16) (rest : List UInt8) :
    readDestination (0x04 :: (addr.octets ++ (be16 port ++ rest))) =
      some (.ip (.v6 addr) port, rest) := by
  have hsegments := readSegments_be16 addr.segments (be16 port ++ rest)
  rw [addr.length_eq] at hsegments
  simp only [readDestination, Ipv6Addr.octets, hsegments, readPort_be16, Option.bind_eq_bind,
    Option.bind_some, dif_pos addr.length_eq]

theorem readDestination_domain {host : String} (h : (asBytes host).length ≤ 255) (port : UInt16)
    (rest : List UInt8) :
    readDestination (0x03 :: UInt8.ofNat (asBytes host).length ::
      (asBytes host ++ (be16 port ++ rest))) = some (.domain host port, rest) := by
  simp only [readDestination, readText_asBytes h, readPort_be16, Option.bind_eq_bind,
    Option.bind_some]

theorem readDestination_of_destination {target : ProxyTarget} {dest : List UInt8}
    (h : destination target = .ok dest) (rest : List UInt8) :
    readDestination (dest ++ rest) = some (target, rest) := by
  rcases target with ⟨host, port⟩ | ⟨addr | addr, port⟩
  · simp only [destination] at h
    split at h
    next => cases h
    next hlen =>
      cases Except.ok.inj h
      simp only [List.append_assoc]
      exact readDestination_domain (Nat.le_of_not_lt hlen) port rest
  · cases Except.ok.inj h
    simp only [List.append_assoc]
    exact readDestination_v4 addr port rest
  · cases Except.ok.inj h
    simp only [List.append_assoc]
    exact readDestination_v6 addr port rest

theorem readConnect_connectMessage {target : ProxyTarget} {dest : List UInt8}
    (h : destination target = .ok dest) (rest : List UInt8) :
    readConnect (connectMessage dest ++ rest) = some (target, rest) :=
  readDestination_of_destination h rest

theorem readLogin_credentials {user pass : String} (huser : (asBytes user).length ≤ 255)
    (hpass : (asBytes pass).length ≤ 255) (rest : List UInt8) :
    readLogin (credentials user pass ++ rest) = some ((user, pass), rest) := by
  simp only [credentials, authVersion, List.cons_append, List.nil_append, List.append_assoc,
    readLogin, readText_asBytes huser, readText_asBytes hpass, Option.bind_eq_bind,
    Option.bind_some]

theorem connectMessage_injective {a b : ProxyTarget} {first second : List UInt8}
    (ha : destination a = .ok first) (hb : destination b = .ok second)
    (h : connectMessage first = connectMessage second) : a = b := by
  have hread := readConnect_connectMessage ha []
  rw [h, readConnect_connectMessage hb] at hread
  cases hread
  rfl

theorem sendConnectRequest_asked {os : ProxyOs} {target : ProxyTarget} {dest : List UInt8}
    (h : destination target = .ok dest) (s : Exchange) :
    Dialogue.Asked s (connectMessage dest) (sendConnectRequest os target s).2 := by
  refine (triple_sendConnectRequest h s).final rfl ?_ fun _ _ h => h
  rintro _ t ⟨_, r, bound, replies, _, _, htrace, _⟩
  exact ⟨replies, htrace⟩

theorem authenticate_asked (os : ProxyOs) {user pass : String} (huser : (asBytes user).length ≤ 255)
    (hpass : (asBytes pass).length ≤ 255) (s : Exchange) :
    Dialogue.Asked s (credentials user pass) (authenticate os user pass s).2 := by
  refine (triple_authenticate os user pass s).final rfl ?_ ?_
  · rintro _ t ⟨v, _, _, _, _, htrace⟩
    exact ⟨[[v, 0]], htrace⟩
  · rintro _ t (⟨_, hlong⟩ | hasked)
    · omega
    · exact hasked

end Socks5

/-- Every name in the mapping was put there by a call. -/
theorem mem_of_lookup_resolve {dns : FakeDns} {domain name : String} {ip : Ipv4Addr}
    (h : (dns.resolve domain).1.lookup ip = some name) : name = domain ∨ dns.lookup ip = some name := by
  unfold FakeDns.resolve at h
  split at h
  next => exact Or.inr h
  next =>
    simp only [FakeDns.lookup, HashMap.lookup_insert_eq_ite, HashMap.lookup_erase_eq_ite] at h
    split at h
    next => exact Or.inl (Option.some.inj h).symm
    next => exact Or.inr h

theorem mem_of_lookup_resolveAll {dns : FakeDns} {calls : List String} {name : String}
    {ip : Ipv4Addr} (h : (dns.resolveAll calls).lookup ip = some name) :
    name ∈ calls ∨ dns.lookup ip = some name := by
  induction calls generalizing dns with
  | nil => exact Or.inr h
  | cons domain calls ih =>
    rcases ih h with hmem | hlookup
    · exact Or.inl (List.mem_cons_of_mem _ hmem)
    · rcases mem_of_lookup_resolve hlookup with rfl | hlookup
      · exact Or.inl (List.mem_cons_self ..)
      · exact Or.inr hlookup

theorem length_of_parseQuery {query : List UInt8} {id kind : UInt16} {domain : String}
    (h : parseQuery query = .ok (some (id, domain, kind))) : (asBytes domain).length ≤ 253 := by
  obtain ⟨q, _, _, rfl, _⟩ := parseQuery_sound h
  exact q.domain_length

theorem length_of_queriedName {query : List UInt8} {domain : String}
    (h : queriedName query = some domain) : (asBytes domain).length ≤ 253 := by
  unfold queriedName at h
  split at h
  next hparse =>
    split at h
    next =>
      cases Option.some.inj h
      exact length_of_parseQuery hparse
    next => cases h
  next => cases h

theorem length_of_target {history : List (List UInt8)} {mapping : FakeDns}
    (hserve : Resolver.serve .new history = .ok mapping) {address : SocketAddrV4} {host : String}
    {port : UInt16} (h : Resolver.target mapping address = .ok (.domain host port)) :
    (asBytes host).length ≤ 253 := by
  rw [serve_eq_resolveAll] at hserve
  unfold Resolver.target at h
  split at h
  next =>
    split at h
    next domain hlookup =>
      cases Except.ok.inj h
      rw [← Except.ok.inj hserve] at hlookup
      rcases mem_of_lookup_resolveAll hlookup with hmem | hnew
      · obtain ⟨query, _, hname⟩ := List.mem_filterMap.mp hmem
        exact length_of_queriedName hname
      · cases hnew
    next => cases h
  next => cases h

namespace Socks5

theorem requests_decodable :
    (∀ (os : ProxyOs) (target : ProxyTarget) (s : Exchange),
      (∀ host port, target = .domain host port → (asBytes host).length ≤ 255) →
      ∃ message, written (sendConnectRequest os target s).2.trace = written s.trace ++ [message] ∧
        readConnect message = some (target, []) ∧
        ∀ rest, readConnect (message ++ rest) = some (target, rest)) ∧
    (∀ (os : ProxyOs) (user pass : String) (s : Exchange), (asBytes user).length ≤ 255 →
      (asBytes pass).length ≤ 255 →
      ∃ message, written (authenticate os user pass s).2.trace = written s.trace ++ [message] ∧
        readLogin message = some ((user, pass), []) ∧
        ∀ rest, readLogin (message ++ rest) = some ((user, pass), rest)) ∧
    (∀ a b first second, destination a = .ok first → destination b = .ok second → a ≠ b →
      connectMessage first ≠ connectMessage second) ∧
    ∀ history mapping, Resolver.serve .new history = .ok mapping →
      ∀ address target, Resolver.target mapping address = .ok target →
        (∀ host port, target = .domain host port → (asBytes host).length ≤ 255) ∧
        ∃ dest, destination target = .ok dest := by
  refine ⟨?_, ?_, fun a b first second ha hb hne h => hne (connectMessage_injective ha hb h), ?_⟩
  · intro os target s hhost
    obtain ⟨dest, hdest⟩ := destination_of_host hhost
    obtain ⟨replies, htrace⟩ := sendConnectRequest_asked hdest s
    have hread := readConnect_connectMessage hdest
    refine ⟨connectMessage dest, ?_, ?_, hread⟩
    · rw [htrace, written_asked]
    · simpa using hread []
  · intro os user pass s huser hpass
    obtain ⟨replies, htrace⟩ := authenticate_asked os huser hpass s
    have hread := readLogin_credentials huser hpass
    refine ⟨credentials user pass, ?_, ?_, hread⟩
    · rw [htrace, written_asked]
    · simpa using hread []
  · intro history mapping hserve address target htarget
    have hhost : ∀ host port, target = .domain host port → (asBytes host).length ≤ 255 := by
      rintro host port rfl
      exact Nat.le_trans (length_of_target hserve htarget) (by omega)
    exact ⟨hhost, destination_of_host hhost⟩

end Socks5

end Scproxy
