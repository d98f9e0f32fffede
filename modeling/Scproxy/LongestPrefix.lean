import Mathlib.Data.List.Infix
import Scproxy.Config

namespace Scproxy

/-- An address rule as the command line states it: an `ip` rule is a network
of prefix length 32, and the host bits of a network are arbitrary. -/
structure AddressRule where
  network : Ipv4Addr
  prefixLen : Nat
  route : ProxyConfig
  deriving DecidableEq

/-- The top bits of the network and of the address agree. -/
def AddressRule.covers (rule : AddressRule) (addr : Ipv4Addr) : Bool :=
  rule.network.bits.toNat >>> (32 - rule.prefixLen) == addr.bits.toNat >>> (32 - rule.prefixLen)

def addressRule : RuleMatch × MatchAction → Option AddressRule
  | (.ip addr, action) => some ⟨addr, 32, action.proxy⟩
  | (.cidr network prefixLen, action) => some ⟨network, prefixLen, action.proxy⟩
  | (.domain _, _) => none
  | (.domainRegex _, _) => none

/-- The address rules among accepted specs, in command-line order. -/
def addressRules (regex : RegexCrate) (specs : List String) : List AddressRule :=
  specs.filterMap fun spec =>
    match parseSpec regex spec with
    | .ok rule => addressRule rule
    | .error _ => none

/-- The covering rule with the longest prefix, the earliest among equally
long ones, then the local defaults, then the default route. -/
def naiveRoute (rules : List AddressRule) (defaultProxy : ProxyConfig) (addr : Ipv4Addr) :
    ProxyConfig :=
  match (rules.filter (·.covers addr)).argmax (·.prefixLen) with
  | some rule => rule.route
  | none =>
    if addr = .unspecified ∨ addr.bits.toNat / 2 ^ 24 = 127 then .direct else defaultProxy

def addressPath (value : UInt32) (n : Nat) : List Bool := (List.range n).map (addressBit value)

@[simp] theorem addressPath_length (value : UInt32) (n : Nat) :
    (addressPath value n).length = n := by
  simp [addressPath]

theorem addressBit_eq_testBit (value : UInt32) {i : Nat} (hi : i < 32) :
    addressBit value i = value.toNat.testBit (31 - i) := by
  have hshift : (UInt32.ofNat (31 - i)).toNat % 32 = 31 - i := by
    rw [UInt32.toNat_ofNat']
    omega
  have hne : ∀ x : UInt32, (x != 0) = (x.toNat != 0) := by
    intro x
    rw [Bool.eq_iff_iff, bne_iff_ne, bne_iff_ne, ne_eq, ne_eq, ← UInt32.toNat_inj]
    rfl
  rw [addressBit, hne, UInt32.toNat_and, UInt32.toNat_shiftRight, hshift, Nat.testBit, Nat.and_comm]
  rfl

theorem addressPath_prefix_iff {network addr : UInt32} {n : Nat} (hn : n ≤ 32) :
    addressPath network n <+: addressPath addr 32 ↔
      network.toNat >>> (32 - n) = addr.toNat >>> (32 - n) := by
  have hbits : addressPath network n <+: addressPath addr 32 ↔
      ∀ i, i < n → network.toNat.testBit (31 - i) = addr.toNat.testBit (31 - i) := by
    rw [List.prefix_iff_eq_take, addressPath_length]
    simp only [addressPath, ← List.map_take, List.take_range, Nat.min_eq_left hn,
      List.map_inj_left, List.mem_range]
    refine forall_congr' fun i => imp_congr_right fun hi => ?_
    rw [addressBit_eq_testBit _ (by omega), addressBit_eq_testBit _ (by omega)]
  rw [hbits]
  constructor
  · intro h
    apply Nat.eq_of_testBit_eq
    intro k
    rw [Nat.testBit_shiftRight, Nat.testBit_shiftRight]
    by_cases hk : k < n
    · have := h (n - 1 - k) (by omega)
      rwa [show 31 - (n - 1 - k) = 32 - n + k by omega] at this
    · have hbound := fun x : UInt32 => Nat.lt_of_lt_of_le x.toNat_lt
        (Nat.pow_le_pow_right (n := 2) (by omega) (show 32 ≤ 32 - n + k by omega))
      rw [Nat.testBit_lt_two_pow (hbound _), Nat.testBit_lt_two_pow (hbound _)]
  · intro h i hi
    have := congrArg (Nat.testBit · (n - 1 - i)) h
    simp only [Nat.testBit_shiftRight] at this
    rwa [show 32 - n + (n - 1 - i) = 31 - i by omega] at this

theorem insertFrom_eq_insertPath (value : UInt32) (action : MatchAction) (left i : Nat)
    (node : PrefixTrie) :
    PrefixTrie.insertFrom value action left i node =
      BitTrie.insertPath ((List.range' i left).map (addressBit value)) action node := by
  induction left generalizing i node with
  | zero => rfl
  | succ left ih => simp only [PrefixTrie.insertFrom, ih, List.range'_succ, List.map_cons,
      BitTrie.insertPath]

theorem getFrom_eq_walk (value : UInt32) (left i : Nat) (node : PrefixTrie)
    (best : Option MatchAction) :
    PrefixTrie.getFrom value left i node best =
      BitTrie.walk ((List.range' i left).map (addressBit value)) node best := by
  induction left generalizing i node best with
  | zero => rfl
  | succ left ih =>
    simp only [PrefixTrie.getFrom, List.range'_succ, List.map_cons, BitTrie.walk]
    cases node.child (addressBit value i) with
    | none => rfl
    | some child =>
      have hbest : (if child.payload.isSome then child.payload else best) =
          child.payload.or best := by
        cases child.payload <;> rfl
      simp only [ih, hbest]

theorem insert_eq_insertPath (trie : PrefixTrie) (value : UInt32) (n : Nat) (action : MatchAction) :
    trie.insert value n action = BitTrie.insertPath (addressPath value n) action trie := by
  rw [PrefixTrie.insert, insertFrom_eq_insertPath, addressPath, List.range_eq_range']

theorem get_eq_get (trie : PrefixTrie) (value : UInt32) :
    trie.get value = BitTrie.get (addressPath value 32) trie := by
  rw [PrefixTrie.get, getFrom_eq_walk, BitTrie.get, addressPath, List.range_eq_range']

theorem parseCidr_prefixLen_le {spec value : String} {network : Ipv4Addr} {n : Nat}
    (h : RuleMatch.parseCidr spec value = .ok (.cidr network n)) : n ≤ 32 := by
  obtain ⟨_, _, h⟩ := bind_eq_ok.mp h
  obtain ⟨_, _, h⟩ := bind_eq_ok.mp h
  obtain ⟨_, _, h⟩ := bind_eq_ok.mp h
  split at h
  next => simp at h
  next hle =>
    obtain ⟨_, rfl⟩ := RuleMatch.cidr.inj (Except.ok.inj h)
    omega

theorem ruleMatch_parse_prefixLen_le {regex : RegexCrate} {spec : String} {network : Ipv4Addr}
    {n : Nat} (h : RuleMatch.parse regex spec = .ok (.cidr network n)) : n ≤ 32 := by
  obtain ⟨⟨kind, value⟩, _, h⟩ := bind_eq_ok.mp h
  simp only at h
  split at h
  next =>
    obtain ⟨_, _, h⟩ := bind_eq_ok.mp h
    simp at h
  next =>
    split at h
    next => exact parseCidr_prefixLen_le h
    next =>
      split at h
      next => split at h <;> simp at h
      next =>
        split at h
        next =>
          obtain ⟨_, _, h⟩ := bind_eq_ok.mp h
          simp at h
        next => simp at h

theorem parseSpec_match {regex : RegexCrate} {spec : String} {rule : RuleMatch × MatchAction}
    (h : parseSpec regex spec = .ok rule) :
    ∃ matchSpec, RuleMatch.parse regex matchSpec = .ok rule.1 := by
  obtain ⟨⟨matchSpec, proxySpec⟩, _, h⟩ := bind_eq_ok.mp h
  simp only at h
  split at h
  next => simp at h
  next =>
    split at h
    next => simp at h
    next =>
      obtain ⟨_, _, h⟩ := bind_eq_ok.mp h
      obtain ⟨matched, hm, h⟩ := bind_eq_ok.mp h
      cases Except.ok.inj h
      exact ⟨matchSpec, hm⟩

theorem addressRules_prefixLen_le {regex : RegexCrate} {specs : List String} {rule : AddressRule}
    (h : rule ∈ addressRules regex specs) : rule.prefixLen ≤ 32 := by
  obtain ⟨spec, _, h⟩ := List.mem_filterMap.mp h
  split at h
  next parsed hp =>
    obtain ⟨matchSpec, hm⟩ := parseSpec_match hp
    obtain ⟨matched, action⟩ := parsed
    cases matched with
    | ip addr => cases Option.some.inj h; exact le_rfl
    | cidr network n => cases Option.some.inj h; exact ruleMatch_parse_prefixLen_le hm
    | domain name => simp [addressRule] at h
    | domainRegex pattern => simp [addressRule] at h
  next => simp at h

def AddressRule.path (rule : AddressRule) : List Bool :=
  addressPath rule.network.bits rule.prefixLen

def AddressRule.action (rule : AddressRule) : MatchAction := ⟨rule.route⟩

/-- Every accepted spec adds its address rule to the trie, or leaves it alone. -/
theorem builder_add_cidr (regex : RegexCrate) (b : RuleMatcher.Builder)
    (rule : RuleMatch × MatchAction) :
    (b.add regex rule.2 rule.1).cidr = (addressRule rule).toList.foldl
      (fun t r => BitTrie.insertPath r.path r.action t) b.cidr := by
  obtain ⟨matched, action⟩ := rule
  cases matched with
  | ip addr => exact insert_eq_insertPath _ _ _ _
  | cidr network n => exact insert_eq_insertPath _ _ _ _
  | domain name => rfl
  | domainRegex pattern => rfl

theorem builder_foldlM_cidr {regex : RegexCrate} {specs : List String}
    {b b' : RuleMatcher.Builder}
    (h : specs.foldlM (RuleMatcher.Builder.step regex) b = .ok b') :
    b'.cidr = (addressRules regex specs).foldl
      (fun t r => BitTrie.insertPath r.path r.action t) b.cidr := by
  induction specs generalizing b with
  | nil => cases Except.ok.inj h; rfl
  | cons spec specs ih =>
    rw [List.foldlM_cons] at h
    obtain ⟨next, hstep, h⟩ := bind_eq_ok.mp h
    obtain ⟨rule, hrule, hnext⟩ := bind_eq_ok.mp hstep
    cases Except.ok.inj hnext
    have hsplit : addressRules regex (spec :: specs) =
        (addressRule rule).toList ++ addressRules regex specs := by
      simp only [addressRules, List.filterMap_cons, hrule]
      cases addressRule rule <;> rfl
    rw [ih h, builder_add_cidr, hsplit, List.foldl_append]

theorem fromSpecs_cidr {regex : RegexCrate} {specs : List String} {rules : RuleMatcher}
    (h : RuleMatcher.fromSpecs regex specs = .ok rules) :
    rules.cidr = BitTrie.build AddressRule.path AddressRule.action (addressRules regex specs) := by
  obtain ⟨b, hb, h⟩ := bind_eq_ok.mp h
  obtain ⟨domains, _, h⟩ := bind_eq_ok.mp h
  cases Except.ok.inj h
  exact builder_foldlM_cidr hb

theorem covers_iff_path_prefix {rule : AddressRule} (hrule : rule.prefixLen ≤ 32)
    (addr : Ipv4Addr) : rule.covers addr ↔ rule.path <+: addressPath addr.bits 32 := by
  rw [AddressRule.covers, beq_iff_eq, AddressRule.path, addressPath_prefix_iff hrule]

theorem matchIp_eq_argmax {regex : RegexCrate} {specs : List String} {rules : RuleMatcher}
    (h : RuleMatcher.fromSpecs regex specs = .ok rules) (addr : Ipv4Addr) :
    rules.matchIp addr = (((addressRules regex specs).filter (·.covers addr)).argmax
      (·.prefixLen)).map (·.route) := by
  have hfilter : (addressRules regex specs).filter (·.covers addr) =
      (addressRules regex specs).filter (·.path <+: addressPath addr.bits 32) := by
    apply List.filter_congr
    intro rule hr
    rw [Bool.eq_iff_iff, covers_iff_path_prefix (addressRules_prefixLen_le hr), decide_eq_true_iff]
  have hlen : (fun rule : AddressRule => rule.path.length) = fun rule => rule.prefixLen := by
    funext rule
    exact addressPath_length _ _
  rw [RuleMatcher.matchIp, get_eq_get, fromSpecs_cidr h, BitTrie.get_build, hlen, hfilter,
    Option.map_map]
  rfl

theorem local_default_iff (addr : Ipv4Addr) :
    (addr.isLoopback || addr.isUnspecified) = true ↔
      addr = .unspecified ∨ addr.bits.toNat / 2 ^ 24 = 127 := by
  have hb := addr.bits.toNat_lt
  have hloop : addr.isLoopback = true ↔ addr.bits.toNat / 2 ^ 24 = 127 := by
    rw [Ipv4Addr.isLoopback, beq_iff_eq, Ipv4Addr.octets, be32, List.head?_cons,
      Option.some.injEq, ← UInt8.toNat_inj, UInt8.toNat_ofNat']
    show addr.bits.toNat / 2 ^ 24 % 2 ^ 8 = 127 ↔ _
    omega
  have hzero : addr.isUnspecified = true ↔ addr = .unspecified := by
    rw [Ipv4Addr.isUnspecified, beq_iff_eq]
    exact ⟨fun h => congrArg Ipv4Addr.mk h, fun h => congrArg Ipv4Addr.bits h⟩
  rw [Bool.or_eq_true, hloop, hzero, or_comm]

theorem proxyFor_ip_eq_naiveRoute {regex : RegexCrate} {specs : List String} {rules : RuleMatcher}
    (h : RuleMatcher.fromSpecs regex specs = .ok rules) (defaultProxy : ProxyConfig)
    (command : List String) (addr : Ipv4Addr) (port : UInt16) :
    Config.proxyFor ⟨defaultProxy, command, rules⟩ (.ip (.v4 addr) port) =
      .ok (naiveRoute (addressRules regex specs) defaultProxy addr) := by
  simp only [Config.proxyFor, matchIp_eq_argmax h, naiveRoute]
  cases ((addressRules regex specs).filter (·.covers addr)).argmax (·.prefixLen) with
  | some rule => rfl
  | none =>
    by_cases hlocal : addr = .unspecified ∨ addr.bits.toNat / 2 ^ 24 = 127
    · rw [if_pos hlocal, if_pos ((local_default_iff addr).mpr hlocal)]
      rfl
    · rw [if_neg hlocal, if_neg fun h => hlocal ((local_default_iff addr).mp h)]
      rfl

/-- A stand-in for the `regex` crate that agrees with it on patterns made of
letters and digits, with or without the anchors of a `domain` rule. -/
def plainRegex : RegexCrate where
  compile pattern := .ok (plainMatch pattern)
  escape name := name
  compileSet patterns := .ok fun host =>
    (List.range patterns.length).filter fun i => (patterns[i]?).any (plainMatch · host)
where
  plainMatch (pattern host : String) : Bool :=
    match stripPrefix "(?i)^" pattern with
    | some anchored => anchored.toList.map Char.toLower == (host.toList ++ ['$']).map Char.toLower
    | none => pattern.toList <:+: host.toList

/-- Unmasked host bits, a domain rule in between and a tie at length 32. -/
def overlappingSpecs : List String :=
  ["cidr:10.9.9.9/8=direct", "domain:localhost=direct", "cidr:10.1.0.0/16=socks5://127.0.0.1:1080",
    "ip:10.1.2.3=http://127.0.0.1:8080", "cidr:10.1.2.3/32=direct"]

theorem proxyFor_overlappingSpecs :
    ∃ rules, RuleMatcher.fromSpecs plainRegex overlappingSpecs = .ok rules ∧
      Config.proxyFor ⟨.direct, [], rules⟩ (.ip (.v4 (.new 10 1 2 3)) 443) =
        .ok (.http "127.0.0.1:8080" none) :=
  have hrules : RuleMatcher.fromSpecs plainRegex overlappingSpecs = .ok _ := rfl
  ⟨_, hrules,
    (proxyFor_ip_eq_naiveRoute hrules .direct [] (.new 10 1 2 3) 443).trans (by decide)⟩

end Scproxy
