import Scproxy.IoError
import Scproxy.Net
import Scproxy.Seccomp

namespace Scproxy

namespace Libc

def afUnspec : UInt16 := 0

def afInet : UInt16 := 2

end Libc

/-- The part of `struct seccomp_notif` that the broker reads. -/
structure Notification where
  id : UInt64
  pid : UInt32
  data : Data

/-- The readable bytes of an application. -/
abbrev Memory := UInt64 → Option UInt8

namespace Memory

def checkTid (tid : UInt32) : Except IoError Unit :=
  if tid = 0 ∨ 2 ^ 31 - 1 < tid.toNat then .error (.os Errno.esrch) else .ok ()

/-- `access::read_exact`, which fails unless the whole range can be read. -/
def read (memory : Memory) (tid : UInt32) (address : UInt64) (length : Nat) :
    Except IoError (List UInt8) :=
  if length = 0 then .ok []
  else do
    checkTid tid
    if address = 0 ∨ 2 ^ 64 ≤ address.toNat + length then .error (.os Errno.efault)
    else
      match (List.range length).mapM fun i => memory (address + UInt64.ofNat i) with
      | some bytes => .ok bytes
      | none => .error (.os Errno.efault)

def family (memory : Memory) (tid : UInt32) (address length : UInt64) : Except IoError UInt16 :=
  if length < 2 ∨ 2 ^ 31 - 1 < length.toNat then .error (.os Errno.einval)
  else do
    let bytes ← memory.read tid address 2
    .ok (fromBe16 (bytes.getD 1 0) (bytes.getD 0 0))

def ipv4 (memory : Memory) (tid : UInt32) (address length : UInt64) :
    Except IoError SocketAddrV4 := do
  let family ← memory.family tid address length
  if family ≠ Libc.afInet then .error (.os Errno.eafnosupport)
  else if length < 16 then .error (.os Errno.einval)
  else do
    let bytes ← memory.read tid address 16
    .ok ⟨.new (bytes.getD 4 0) (bytes.getD 5 0) (bytes.getD 6 0) (bytes.getD 7 0),
      fromBe16 (bytes.getD 2 0) (bytes.getD 3 0)⟩

end Memory

def addressBytes (address : SocketAddrV4) : List UInt8 :=
  [2, 0] ++ be16 address.port ++ address.ip.octets ++ List.replicate 8 0

end Scproxy
