import Scproxy.DnsMessage
import Scproxy.FakeDns

namespace Scproxy

def encodeName (domain : String) : List UInt8 :=
  (if domain = "" then [] else (splitChar '.' domain).flatMap encodeLabel) ++ [0]

def buildEmptyResponse (id : UInt16) (domain : String) (qtype : UInt16) : List UInt8 :=
  be16 id ++ be16 0x8180 ++ be16 1 ++ be16 0 ++ be16 0 ++ be16 0 ++ encodeName domain ++
    be16 qtype ++ be16 1

def buildAResponse (id : UInt16) (domain : String) (ip : Ipv4Addr) : List UInt8 :=
  let pkt := buildEmptyResponse id domain 1
  pkt.take 6 ++ be16 1 ++ pkt.drop 8 ++ be16 0xC00C ++ be16 1 ++ be16 1 ++ be32 300 ++ be16 4 ++
    ip.octets

namespace Resolver

/-- The resolver's answer, with the mapping its lock protects before and after. -/
def answer (mapping : FakeDns) (query : List UInt8) :
    Except Panic (FakeDns × Option (List UInt8)) := do
  match ← parseQuery query with
  | none => .ok (mapping, none)
  | some (id, domain, kind) =>
    if kind = 1 then
      let (mapping, ip) := mapping.resolve domain
      .ok (mapping, some (buildAResponse id domain ip))
    else .ok (mapping, some (buildEmptyResponse id domain kind))

end Resolver

end Scproxy
