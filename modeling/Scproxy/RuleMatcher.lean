import Scproxy.BitTrie
import Scproxy.ProxyConfig
import Scproxy.Slice

namespace Scproxy

structure MatchAction where
  proxy : ProxyConfig
  deriving DecidableEq

/-- The part of the `regex` crate the rules use. A compiled expression is
its match test, a compiled set yields the indices of `SetMatches::iter`. -/
structure RegexCrate where
  compile : String → Except String (String → Bool)
  escape : String → String
  compileSet : List String → Except String (String → List Nat)

/-- Bit `i` of an address, counted from the most significant one. -/
def addressBit (value : UInt32) (i : Nat) : Bool :=
  ((value >>> UInt32.ofNat (31 - i)) &&& 1) != 0

abbrev PrefixTrie := BitTrie MatchAction

namespace PrefixTrie

/-- The loop of `insert`, with `left` rounds to go at bit `i`. -/
def insertFrom (value : UInt32) (action : MatchAction) : Nat → Nat → PrefixTrie → PrefixTrie
  | 0, _, node => node.offer action
  | left + 1, i, node =>
    let bit := addressBit value i
    node.setChild bit (insertFrom value action left (i + 1) ((node.child bit).getD .empty))

def insert (trie : PrefixTrie) (value : UInt32) (prefixLen : Nat) (action : MatchAction) :
    PrefixTrie :=
  insertFrom value action prefixLen 0 trie

/-- The loop of `get`, with `left` rounds to go at bit `i`. -/
def getFrom (value : UInt32) : Nat → Nat → PrefixTrie → Option MatchAction → Option MatchAction
  | 0, _, _, best => best
  | left + 1, i, node, best =>
    match node.child (addressBit value i) with
    | none => best
    | some child =>
      getFrom value left (i + 1) child (if child.payload.isSome then child.payload else best)

def get (trie : PrefixTrie) (value : UInt32) : Option MatchAction :=
  getFrom value 32 0 trie trie.payload

end PrefixTrie

inductive RuleMatch
  | ip (addr : Ipv4Addr)
  | cidr (network : Ipv4Addr) (prefixLen : Nat)
  | domain (name : String)
  | domainRegex (pattern : String)
  deriving DecidableEq

namespace RuleMatch

def parseCidr (spec value : String) : Except ErrorChain RuleMatch := do
  let (network, prefixText) ← optionContext s!"rule '{spec}': CIDR must be 'addr/prefix'"
    (splitOnce '/' value)
  let network ← withContext
    s!"rule '{spec}': invalid IPv4 CIDR network (IPv6 is not supported)"
    (rootCause (parseIpv4Addr network))
  let prefixLen ← withContext s!"rule '{spec}': invalid CIDR prefix"
    (rootCause (parseUnsigned 255 prefixText))
  if 32 < prefixLen then
    .error [s!"rule '{spec}': prefix /{prefixLen} out of range (max /32)"]
  else .ok (cidr network prefixLen)

def parse (regex : RegexCrate) (spec : String) : Except ErrorChain RuleMatch := do
  let (kind, value) ← optionContext s!"rule '{spec}' is missing a '<kind>:' prefix"
    (splitOnce ':' spec)
  if kind = "ip" then
    let addr ← withContext s!"rule '{spec}': invalid IPv4 address (IPv6 is not supported)"
      (rootCause (parseIpv4Addr value))
    .ok (ip addr)
  else if kind = "cidr" then parseCidr spec value
  else if kind = "domain" then
    if value = "" then .error [s!"rule '{spec}': empty domain"] else .ok (domain value)
  else if kind = "domain-regex" then
    let _ ← withContext s!"rule '{spec}': invalid regex" (rootCause (regex.compile value))
    .ok (domainRegex value)
  else
    .error [s!"rule '{spec}': unknown kind '{kind}' (expected ip / cidr / domain / domain-regex)"]

end RuleMatch

/-- One `--rule` argument: what it matches and the route it selects. -/
def parseSpec (regex : RegexCrate) (fullSpec : String) :
    Except ErrorChain (RuleMatch × MatchAction) := do
  let (matchSpec, proxySpec) ← optionContext s!"rule '{fullSpec}' must use '<match>=<proxy>'"
    (splitOnce '=' fullSpec)
  if matchSpec = "" then .error [s!"rule '{fullSpec}': empty match"]
  else if proxySpec = "" then .error [s!"rule '{fullSpec}': empty proxy"]
  else do
    let proxy ← withContext s!"rule '{fullSpec}': invalid proxy" (ProxyConfig.parse proxySpec)
    let matched ← RuleMatch.parse regex matchSpec
    .ok (matched, ⟨proxy⟩)

structure RuleMatcher where
  domains : Option (String → List Nat)
  domainActions : List MatchAction
  cidr : PrefixTrie

namespace RuleMatcher

/-- The accumulators of the loop in `from_specs`. -/
structure Builder where
  domainPatterns : List String
  domainActions : List MatchAction
  cidr : PrefixTrie

def Builder.add (regex : RegexCrate) (b : Builder) (action : MatchAction) : RuleMatch → Builder
  | .ip addr => { b with cidr := b.cidr.insert addr.bits 32 action }
  | .cidr network prefixLen => { b with cidr := b.cidr.insert network.bits prefixLen action }
  | .domain name =>
    { b with
      domainPatterns := b.domainPatterns ++ ["(?i)^" ++ regex.escape name ++ "$"]
      domainActions := b.domainActions ++ [action] }
  | .domainRegex pattern =>
    { b with
      domainPatterns := b.domainPatterns ++ [pattern]
      domainActions := b.domainActions ++ [action] }

def Builder.step (regex : RegexCrate) (b : Builder) (fullSpec : String) :
    Except ErrorChain Builder := do
  let (matched, action) ← parseSpec regex fullSpec
  .ok (b.add regex action matched)

def compileDomains (regex : RegexCrate) (patterns : List String) :
    Except ErrorChain (Option (String → List Nat)) :=
  if patterns = [] then .ok none
  else do
    let set ← withContext "compile rule RegexSet" (rootCause (regex.compileSet patterns))
    .ok (some set)

def fromSpecs (regex : RegexCrate) (specs : List String) : Except ErrorChain RuleMatcher := do
  let b ← specs.foldlM (Builder.step regex) ⟨[], [], .empty⟩
  let domains ← compileDomains regex b.domainPatterns
  .ok ⟨domains, b.domainActions, b.cidr⟩

def matchDomain (rules : RuleMatcher) (host : String) : Except Panic (Option ProxyConfig) :=
  match rules.domains.bind fun domains => (domains host).head? with
  | none => .ok none
  | some i => do
    let action ← index rules.domainActions i
    .ok (some action.proxy)

def matchIp (rules : RuleMatcher) (ip : Ipv4Addr) : Option ProxyConfig :=
  (rules.cidr.get ip.bits).map MatchAction.proxy

end RuleMatcher

end Scproxy
