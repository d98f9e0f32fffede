import Scproxy.RuleMatcher

namespace Scproxy

structure Config where
  defaultProxy : ProxyConfig
  command : List String
  rules : RuleMatcher

/-- Explicit rules override local-address defaults, then fall back to `-x`. -/
def Config.proxyFor (config : Config) : ProxyTarget → Except Panic ProxyConfig
  | .domain host _ => do
    let matched ← config.rules.matchDomain host
    pure (matched.getD config.defaultProxy)
  | .ip (.v4 addr) _ =>
    let matched := (config.rules.matchIp addr).or
      (if addr.isLoopback || addr.isUnspecified then some .direct else none)
    pure (matched.getD config.defaultProxy)
  | .ip (.v6 _) _ => pure config.defaultProxy

def dnsAddr : Ipv4Addr := .new 198 18 0 1

def dnsPort : UInt16 := 53

end Scproxy
