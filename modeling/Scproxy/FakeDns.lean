import Scproxy.Config
import Scproxy.Fifo
import Scproxy.HashMap

namespace Scproxy

/-- First domain address (198.18.0.2), after the reserved DNS address. -/
def poolStart : UInt32 := dnsAddr.bits + 1

/-- Last usable address in the pool (198.19.255.254). -/
def poolEnd : UInt32 := fromBe32 198 19 255 254

def poolSize : UInt32 := poolEnd - poolStart + 1

structure FakeDns where
  domainToIp : HashMap String Ipv4Addr
  ipToDomain : HashMap Ipv4Addr String
  nextOffset : UInt32

namespace FakeDns

def new : FakeDns := ⟨∅, ∅, 0⟩

/-- Drop the previous mapping of an address slot (wrap-around case). -/
def evict (dns : FakeDns) (ip : Ipv4Addr) : HashMap String Ipv4Addr :=
  match dns.ipToDomain.lookup ip with
  | some oldDomain => dns.domainToIp.erase oldDomain
  | none => dns.domainToIp

def resolve (dns : FakeDns) (domain : String) : FakeDns × Ipv4Addr :=
  match dns.domainToIp.lookup domain with
  | some ip => (dns, ip)
  | none =>
    let ip : Ipv4Addr := ⟨poolStart + dns.nextOffset⟩
    let nextOffset := (dns.nextOffset + 1) % poolSize
    (⟨(dns.evict ip).insert domain ip, (dns.ipToDomain.erase ip).insert ip domain, nextOffset⟩, ip)

def lookup (dns : FakeDns) (ip : Ipv4Addr) : Option String := dns.ipToDomain.lookup ip

def isFakeIp (ip : Ipv4Addr) : Bool :=
  ip == dnsAddr || (poolStart ≤ ip.bits && ip.bits ≤ poolEnd)

def resolveAll (dns : FakeDns) (calls : List String) : FakeDns :=
  calls.foldl (fun dns domain => (dns.resolve domain).1) dns

/-- The calls whose domain was not mapped, with the address each was given. -/
def allocations (dns : FakeDns) : List String → List (String × Ipv4Addr)
  | [] => []
  | domain :: calls =>
    let (next, ip) := dns.resolve domain
    if dns.domainToIp.lookup domain = none then (domain, ip) :: allocations next calls
    else allocations next calls

theorem resolveAll_cons (dns : FakeDns) (domain : String) (calls : List String) :
    dns.resolveAll (domain :: calls) = (dns.resolve domain).1.resolveAll calls := rfl

end FakeDns

theorem poolStart_toNat : poolStart.toNat = 3323068418 := rfl

theorem poolEnd_toNat : poolEnd.toNat = 3323199486 := rfl

theorem poolSize_toNat : poolSize.toNat = 131069 := rfl

/-- The address of allocation `k`. -/
def slotAddr (k : Nat) : Ipv4Addr := ⟨UInt32.ofNat (poolStart.toNat + k % poolSize.toNat)⟩

theorem slotAddr_toNat (k : Nat) : (slotAddr k).bits.toNat = 3323068418 + k % 131069 := by
  simp only [slotAddr, poolStart_toNat, poolSize_toNat, UInt32.toNat_ofNat']
  omega

theorem slotAddr_inj {j k : Nat} (h : slotAddr j = slotAddr k) :
    j % poolSize.toNat = k % poolSize.toNat := by
  have hb := congrArg (fun ip : Ipv4Addr => ip.bits.toNat) h
  simp only [slotAddr_toNat] at hb
  rw [poolSize_toNat]
  omega

theorem isFakeIp_slotAddr (k : Nat) : FakeDns.isFakeIp (slotAddr k) = true := by
  have hb := slotAddr_toNat k
  simp only [FakeDns.isFakeIp, Bool.or_eq_true, Bool.and_eq_true, decide_eq_true_eq,
    UInt32.le_iff_toNat_le, poolStart_toNat, poolEnd_toNat, hb]
  omega

theorem slotAddr_ne_dnsAddr (k : Nat) : slotAddr k ≠ dnsAddr := by
  intro h
  have hb := congrArg (fun ip : Ipv4Addr => ip.bits.toNat) h
  simp only [slotAddr_toNat] at hb
  have hd : dnsAddr.bits.toNat = 3323068417 := rfl
  omega

end Scproxy
