import Scproxy.Net
import Scproxy.Slice

namespace Scproxy

/-- The loop over the labels of QNAME. On success it returns the labels and
the position after the terminating zero. -/
def parseLabels (data : List UInt8) (pos : Nat) (labels : List String) :
    Except Panic (Option (List String × Nat)) :=
  if _h : data.length ≤ pos then .ok none
  else do
    let labelLen := (← index data pos).toNat
    if labelLen = 0 then .ok (some (labels, pos + 1))
    else if labelLen &&& 0xC0 ≠ 0 then .ok none
    else if data.length < pos + 1 + labelLen then .ok none
    else do
      let bytes ← slice data (pos + 1) (pos + 1 + labelLen)
      match fromUtf8 bytes with
      | none => .ok none
      | some label => parseLabels data (pos + 1 + labelLen) (labels ++ [label])
termination_by data.length - pos

/-- The transaction id, the domain and the QTYPE of a query, or `none` if the
datagram is too short, malformed, or is itself a response. -/
def parseQuery (data : List UInt8) : Except Panic (Option (UInt16 × String × UInt16)) :=
  if data.length < 12 then .ok none
  else do
    let id := fromBe16 (← index data 0) (← index data 1)
    let flags := fromBe16 (← index data 2) (← index data 3)
    if flags &&& 0x8000 ≠ 0 then .ok none
    else do
      let qdcount := fromBe16 (← index data 4) (← index data 5)
      if qdcount = 0 then .ok none
      else do
        match ← parseLabels data 12 [] with
        | none => .ok none
        | some (labels, pos) =>
          if data.length < pos + 4 then .ok none
          else do
            let qtype := fromBe16 (← index data pos) (← index data (pos + 1))
            let domain := joinWith '.' labels
            if 253 < (asBytes domain).length then .ok none else .ok (some (id, domain, qtype))

end Scproxy
