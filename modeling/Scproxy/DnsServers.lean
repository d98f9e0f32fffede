import Scproxy.ConnectTcp

namespace Scproxy

/-- The two directions between requested servers and local endpoints. -/
structure Servers where
  forward : HashMap SocketAddrV4 SocketAddrV4
  reverse : HashMap SocketAddrV4 SocketAddrV4

/-- What the operating system answers while a new endpoint is opened. -/
structure BindOs where
  bind : Except IoError Unit
  localAddr : Except IoError SocketAddrV4
  setNonblocking : Except IoError Unit
  fromStd : Except IoError Unit

namespace Servers

def empty : Servers := ⟨∅, ∅⟩

def register (destination localAddr : SocketAddrV4) (servers : Servers) : Servers :=
  ⟨servers.forward.insert destination localAddr, servers.reverse.insert localAddr destination⟩

def originalServer (servers : Servers) (localAddr : SocketAddrV4) : Option SocketAddrV4 :=
  servers.reverse.lookup localAddr

/-- Every entry is kept as it was. -/
def Extends (servers next : Servers) : Prop :=
  (∀ destination localAddr, servers.forward.lookup destination = some localAddr →
    next.forward.lookup destination = some localAddr) ∧
  ∀ localAddr destination, servers.reverse.lookup localAddr = some destination →
    next.reverse.lookup localAddr = some destination

end Servers

namespace Dns

def virtualAddress : SocketAddrV4 := ⟨dnsAddr, dnsPort⟩

/-- A new endpoint; a socket that cannot be set up is dropped again. -/
def openEndpoint (os : BindOs) : Except IoError SocketAddrV4 := do
  os.bind
  let localAddr ← os.localAddr
  os.setNonblocking
  os.fromStd
  .ok localAddr

def serverFor (destination : SocketAddrV4) (os : BindOs) : Prog Servers IoError SocketAddrV4 := do
  if !isDns destination then .fail (.os Errno.enetunreach)
  else do
    let servers ← .get
    match servers.forward.lookup destination with
    | some localAddr => pure localAddr
    | none =>
      if 128 ≤ servers.forward.len then .fail (.os Errno.enobufs)
      else do
        let localAddr ← .ofExcept (openEndpoint os)
        Prog.modify (Servers.register destination localAddr)
        pure localAddr

end Dns

/-- The two maps are inverse to each other, small, and about port 53. -/
structure ServersOk (servers : Servers) : Prop where
  inverse : ∀ destination localAddr, servers.forward.lookup destination = some localAddr ↔
    servers.reverse.lookup localAddr = some destination
  forward_len : servers.forward.len ≤ 128
  reverse_len : servers.reverse.len = servers.forward.len
  port : ∀ destination localAddr, servers.forward.lookup destination = some localAddr →
    destination.port = 53

theorem Servers.Extends.refl (servers : Servers) : servers.Extends servers :=
  ⟨fun _ _ h => h, fun _ _ h => h⟩

theorem Servers.Extends.trans {a b c : Servers} (hab : a.Extends b) (hbc : b.Extends c) :
    a.Extends c :=
  ⟨fun d l h => hbc.1 d l (hab.1 d l h), fun l d h => hbc.2 l d (hab.2 l d h)⟩

theorem serversOk_empty : ServersOk .empty := by
  refine ⟨?_, Nat.zero_le _, rfl, ?_⟩
  · intro destination localAddr
    simp [Servers.empty]
  · intro destination localAddr h
    simp [Servers.empty] at h

theorem serverFor_dns {destination : SocketAddrV4} (hport : destination.port = 53) (os : BindOs)
    (servers : Servers) : Dns.serverFor destination os servers =
      match servers.forward.lookup destination with
      | some localAddr => (.ok localAddr, servers)
      | none =>
        if 128 ≤ servers.forward.len then (.error (.os Errno.enobufs), servers)
        else
          match Dns.openEndpoint os with
          | .ok localAddr => (.ok localAddr, servers.register destination localAddr)
          | .error error => (.error error, servers) := by
  have hdns : ¬(!Dns.isDns destination) = true := by simp [Dns.isDns, dnsPort, hport]
  have hget : (Prog.get : Prog Servers IoError Servers) servers = (.ok servers, servers) := rfl
  unfold Dns.serverFor
  rw [if_neg hdns, Prog.bind_of_ok hget]
  cases servers.forward.lookup destination with
  | some localAddr => rfl
  | none =>
    simp only
    split
    next => rfl
    next =>
      cases Dns.openEndpoint os with
      | ok localAddr => rfl
      | error error => rfl

theorem serverFor_refuses {destination : SocketAddrV4} (hport : destination.port ≠ 53)
    (os : BindOs) (servers : Servers) :
    Dns.serverFor destination os servers = (.error (.os Errno.enetunreach), servers) := by
  have hdns : (!Dns.isDns destination) = true := by simp [Dns.isDns, dnsPort, hport]
  unfold Dns.serverFor
  rw [if_pos hdns]
  rfl

/-- A call finds an entry, opens an endpoint, or fails and changes nothing. -/
theorem serverFor_cases (destination : SocketAddrV4) (os : BindOs) (servers : Servers) :
    (∃ localAddr, servers.forward.lookup destination = some localAddr ∧
      Dns.serverFor destination os servers = (.ok localAddr, servers)) ∨
    (∃ localAddr, servers.forward.lookup destination = none ∧ destination.port = 53 ∧
      servers.forward.len < 128 ∧ Dns.openEndpoint os = .ok localAddr ∧
      Dns.serverFor destination os servers =
        (.ok localAddr, servers.register destination localAddr)) ∨
    ∃ error, Dns.serverFor destination os servers = (.error error, servers) := by
  by_cases hport : destination.port = 53
  · rw [serverFor_dns hport]
    cases hlookup : servers.forward.lookup destination with
    | some localAddr => exact .inl ⟨localAddr, rfl, rfl⟩
    | none =>
      dsimp only
      split
      next => exact .inr (.inr ⟨_, rfl⟩)
      next hlen =>
        cases hopen : Dns.openEndpoint os with
        | error error => exact .inr (.inr ⟨error, rfl⟩)
        | ok localAddr =>
          exact .inr (.inl ⟨localAddr, rfl, hport, Nat.lt_of_not_le hlen, rfl, rfl⟩)
  · exact .inr (.inr ⟨_, serverFor_refuses hport os servers⟩)

/-- The operating system hands out no address that a registered endpoint holds. -/
def FreshEndpoint (os : BindOs) (servers : Servers) : Prop :=
  ∀ localAddr, Dns.openEndpoint os = .ok localAddr → servers.reverse.lookup localAddr = none

theorem extends_register {servers : Servers} {destination localAddr : SocketAddrV4}
    (hforward : servers.forward.lookup destination = none)
    (hreverse : servers.reverse.lookup localAddr = none) :
    servers.Extends (servers.register destination localAddr) := by
  constructor
  · intro d l h
    show (servers.forward.insert destination localAddr).lookup d = some l
    have hne : d ≠ destination := by
      intro hd
      rw [hd, hforward] at h
      cases h
    rwa [HashMap.lookup_insert_eq_ite, if_neg hne]
  · intro l d h
    show (servers.reverse.insert localAddr destination).lookup l = some d
    have hne : l ≠ localAddr := by
      intro hl
      rw [hl, hreverse] at h
      cases h
    rwa [HashMap.lookup_insert_eq_ite, if_neg hne]

theorem ServersOk.register {servers : Servers} {destination localAddr : SocketAddrV4}
    (hok : ServersOk servers) (hforward : servers.forward.lookup destination = none)
    (hreverse : servers.reverse.lookup localAddr = none) (hlen : servers.forward.len < 128)
    (hport : destination.port = 53) : ServersOk (servers.register destination localAddr) := by
  have hlenForward := HashMap.len_insert_of_fresh hforward localAddr
  have hlenReverse := HashMap.len_insert_of_fresh hreverse destination
  have heq := hok.reverse_len
  refine ⟨?_, ?_, ?_, ?_⟩
  · intro d l
    show (servers.forward.insert destination localAddr).lookup d = some l ↔
      (servers.reverse.insert localAddr destination).lookup l = some d
    rw [HashMap.lookup_insert_eq_ite, HashMap.lookup_insert_eq_ite]
    by_cases hd : d = destination
    · subst d
      by_cases hl : l = localAddr
      · subst l
        simp
      · rw [if_pos rfl, if_neg hl, ← hok.inverse, hforward]
        simp [Ne.symm hl]
    · rw [if_neg hd]
      by_cases hl : l = localAddr
      · subst l
        rw [if_pos rfl, hok.inverse, hreverse]
        simp [Ne.symm hd]
      · rw [if_neg hl]
        exact hok.inverse d l
  · show HashMap.len (servers.forward.insert destination localAddr) ≤ 128
    omega
  · show HashMap.len (servers.reverse.insert localAddr destination) =
      HashMap.len (servers.forward.insert destination localAddr)
    omega
  · intro d l h
    replace h : (servers.forward.insert destination localAddr).lookup d = some l := h
    rw [HashMap.lookup_insert_eq_ite] at h
    split at h
    next hd => rw [hd, hport]
    next => exact hok.port d l h

/-- One step of the registry: a call keeps the invariant and every entry. -/
theorem serverFor_preserves {destination : SocketAddrV4} {os : BindOs} {servers next : Servers}
    {result : Except IoError SocketAddrV4} (hok : ServersOk servers)
    (hfresh : FreshEndpoint os servers)
    (h : Dns.serverFor destination os servers = (result, next)) :
    ServersOk next ∧ servers.Extends next ∧
      ∀ localAddr, result = .ok localAddr → next.forward.lookup destination = some localAddr := by
  rcases serverFor_cases destination os servers with
    ⟨l, hlookup, heq⟩ | ⟨l, hlookup, hport, hlen, hopen, heq⟩ | ⟨e, heq⟩
  · rw [heq] at h
    cases h
    refine ⟨hok, .refl _, ?_⟩
    intro localAddr hl
    cases hl
    exact hlookup
  · rw [heq] at h
    cases h
    have hreverse := hfresh l hopen
    refine ⟨hok.register hlookup hreverse hlen hport, extends_register hlookup hreverse, ?_⟩
    intro localAddr hl
    cases hl
    exact AList.lookup_insert _
  · rw [heq] at h
    cases h
    exact ⟨hok, .refl _, fun localAddr hl => nomatch hl⟩

theorem serverFor_error {destination : SocketAddrV4} {os : BindOs} {servers next : Servers}
    {error : IoError} (h : Dns.serverFor destination os servers = (.error error, next)) :
    next = servers := by
  rcases serverFor_cases destination os servers with
    ⟨l, _, heq⟩ | ⟨l, _, _, _, _, heq⟩ | ⟨e, heq⟩
  · rw [heq] at h
    cases h
  · rw [heq] at h
    cases h
  · rw [heq] at h
    cases h
    rfl

/-- A server that was found once is found again, whatever the operating system
would answer. -/
theorem serverFor_again {destination localAddr : SocketAddrV4} {os : BindOs}
    {servers next : Servers}
    (h : Dns.serverFor destination os servers = (.ok localAddr, next)) (os' : BindOs) :
    Dns.serverFor destination os' next = (.ok localAddr, next) := by
  have hport : destination.port = 53 := by
    by_contra hport
    rw [serverFor_refuses hport] at h
    cases h
  have hlookup : next.forward.lookup destination = some localAddr := by
    rcases serverFor_cases destination os servers with
      ⟨l, hlookup, heq⟩ | ⟨l, _, _, _, _, heq⟩ | ⟨e, heq⟩
    · rw [heq] at h
      cases h
      exact hlookup
    · rw [heq] at h
      cases h
      exact AList.lookup_insert _
    · rw [heq] at h
      cases h
  rw [serverFor_dns hport, hlookup]

end Scproxy
