import Mathlib.Algebra.Group.Nat.Defs
import Scproxy.Text

namespace Scproxy

structure Ipv4Addr where
  bits : UInt32
  deriving DecidableEq, Repr

structure Ipv6Addr where
  segments : List UInt16
  length_eq : segments.length = 8
  deriving DecidableEq

inductive IpAddr
  | v4 (addr : Ipv4Addr)
  | v6 (addr : Ipv6Addr)
  deriving DecidableEq

structure SocketAddrV4 where
  ip : Ipv4Addr
  port : UInt16
  deriving DecidableEq, Repr

def be16 (n : UInt16) : List UInt8 := [UInt8.ofNat (n.toNat / 256), UInt8.ofNat (n.toNat % 256)]

def be32 (n : UInt32) : List UInt8 :=
  [UInt8.ofNat (n.toNat / 2 ^ 24), UInt8.ofNat (n.toNat / 2 ^ 16 % 256),
    UInt8.ofNat (n.toNat / 2 ^ 8 % 256), UInt8.ofNat (n.toNat % 256)]

def fromBe16 (hi lo : UInt8) : UInt16 := UInt16.ofNat (hi.toNat * 256 + lo.toNat)

def fromBe32 (a b c d : UInt8) : UInt32 :=
  UInt32.ofNat (a.toNat * 2 ^ 24 + b.toNat * 2 ^ 16 + c.toNat * 2 ^ 8 + d.toNat)

namespace Ipv4Addr

/-- Most significant octet first. -/
def new (a b c d : UInt8) : Ipv4Addr := ⟨fromBe32 a b c d⟩

def octets (addr : Ipv4Addr) : List UInt8 := be32 addr.bits

def localhost : Ipv4Addr := new 127 0 0 1

def unspecified : Ipv4Addr := new 0 0 0 0

def isLoopback (addr : Ipv4Addr) : Bool := addr.octets.head? == some 127

def isUnspecified (addr : Ipv4Addr) : Bool := addr.bits == 0

theorem eq_of_toNat_eq {a b : Ipv4Addr} (h : a.bits.toNat = b.bits.toNat) : a = b :=
  congrArg Ipv4Addr.mk (UInt32.toNat_inj.mp h)

end Ipv4Addr

theorem new_of_octets {addr : Ipv4Addr} {a b c d : UInt8} (h : addr.octets = [a, b, c, d]) :
    Ipv4Addr.new a b c d = addr := by
  have hlt := addr.bits.toNat_lt
  simp only [Ipv4Addr.octets, be32, List.cons.injEq, and_true] at h
  obtain ⟨rfl, rfl, rfl, rfl⟩ := h
  apply Ipv4Addr.eq_of_toNat_eq
  simp only [Ipv4Addr.new, fromBe32, UInt32.toNat_ofNat', UInt8.toNat_ofNat']
  omega

def Ipv6Addr.octets (addr : Ipv6Addr) : List UInt8 := addr.segments.flatMap be16

theorem fromBe16_be16 (n : UInt16) :
    fromBe16 (UInt8.ofNat (n.toNat / 256)) (UInt8.ofNat (n.toNat % 256)) = n := by
  apply UInt16.toNat_inj.mp
  have := n.toNat_lt
  simp [fromBe16]
  omega

theorem toNat_fromBe16 (hi lo : UInt8) : (fromBe16 hi lo).toNat = hi.toNat * 256 + lo.toNat := by
  have := hi.toNat_lt
  have := lo.toNat_lt
  simp [fromBe16]
  omega

theorem be16_fromBe16 (hi lo : UInt8) : be16 (fromBe16 hi lo) = [hi, lo] := by
  have := hi.toNat_lt
  have := lo.toNat_lt
  have hdiv : (hi.toNat * 256 + lo.toNat) / 256 = hi.toNat := by omega
  have hmod : (hi.toNat * 256 + lo.toNat) % 256 = lo.toNat := by omega
  rw [be16, toNat_fromBe16, hdiv, hmod, UInt8.ofNat_toNat, UInt8.ofNat_toNat]

end Scproxy
