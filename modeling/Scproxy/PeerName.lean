import Scproxy.MessageFrame

namespace Scproxy

open Interaction

theorem fromNe_cons (b : UInt8) (bytes : List UInt8) :
    fromNe (b :: bytes) = b.toNat + 256 * fromNe bytes := by
  rw [fromNe, List.map_cons, Nat.ofDigits_cons]
  rfl

theorem toNe_succ (width n : Nat) : toNe (width + 1) n = UInt8.ofNat n :: toNe width (n / 256) := by
  rw [toNe, List.range_succ_eq_map, List.map_cons, List.map_map, Nat.pow_zero, Nat.div_one]
  congr 1
  apply List.map_congr_left
  intro i _
  rw [Function.comp_apply, Nat.pow_succ', Nat.div_div_eq_div_mul]

theorem fromNe_toNe {width n : Nat} (h : n < 256 ^ width) : fromNe (toNe width n) = n := by
  induction width generalizing n with
  | zero =>
    rw [Nat.lt_one_iff.mp h]
    rfl
  | succ width ih =>
    rw [Nat.pow_succ'] at h
    rw [toNe_succ, fromNe_cons, ih (Nat.div_lt_of_lt_mul h), UInt8.toNat_ofNat']
    exact Nat.mod_add_div n 256

namespace Memory

variable {memory : Memory} {tid : UInt32}

theorem u32At_of_holds {length : UInt64} {word : UInt32} (htid : checkTid tid = .ok ())
    (hrange : InRange length 4) (h : memory.Holds length (toNe 4 word.toNat)) :
    memory.u32At tid length = .ok word := by
  have hread := read_of_holds htid (by rwa [toNe_length]) h
  rw [toNe_length] at hread
  rw [u32At, hread]
  refine congrArg Except.ok ?_
  rw [fromNe_toNe word.toNat_lt, UInt32.ofNat_toNat]

theorem ipv4_of_holds {address : SocketAddrV4} (htid : checkTid tid = .ok ())
    (hrange : InRange pointer 16) (h : memory.Holds pointer (addressBytes address)) :
    memory.ipv4 tid pointer 16 = .ok address := by
  have hfamily : memory.read tid pointer 2 = .ok [2, 0] := by
    refine @read_of_holds memory tid pointer [2, 0] htid ⟨hrange.1, ?_⟩ ?_
    · have := hrange.2
      simp only [List.length_cons, List.length_nil]
      omega
    · rw [addressBytes, List.append_assoc, List.append_assoc] at h
      exact (holds_append.mp h).1
  have hread : memory.read tid pointer 16 = .ok (addressBytes address) :=
    read_of_holds htid hrange h
  have hinet : memory.family tid pointer 16 = .ok Libc.afInet := by
    rw [family, if_neg (by decide), hfamily]
    rfl
  rw [ipv4, hinet, hread]
  refine congrArg Except.ok ?_
  exact congrArg₂ SocketAddrV4.mk (new_of_octets rfl) (fromBe16_be16 _)

end Memory

namespace Notification

variable (arch : Arch) (notification : Notification)

/-- `getsockopt` with `SO_PEERNAME`, where `getpeername` is the other call. -/
def peerOption : Prop := notification.data.nr.toUInt32 = arch.number .getsockopt

instance : Decidable (notification.peerOption arch) :=
  inferInstanceAs (Decidable (notification.data.nr.toUInt32 = arch.number .getsockopt))

/-- Where the caller wants the address. -/
def peerBuffer : UInt64 :=
  if notification.peerOption arch then notification.data.args 3 else notification.data.args 1

/-- Where the caller says how much room there is. -/
def peerLength : UInt64 :=
  if notification.peerOption arch then notification.data.args 4 else notification.data.args 2

end Notification

/-- The caller's memory: the length word holds the capacity, the address can be
written, as far as it is wanted, and the length word apart from it. -/
structure PeerCall (arch : Arch) (memory : Memory) (region : UInt64 → Prop)
    (notification : Notification) (capacity : UInt32) : Prop where
  tid : Memory.checkTid notification.pid = .ok ()
  word : memory.Holds (notification.peerLength arch) (toNe 4 capacity.toNat)
  length : Memory.Room region (notification.peerLength arch) 4
  buffer : Memory.Room region (notification.peerBuffer arch) (min capacity.toNat 16)
  apart : ∀ address ∈ Memory.addresses (notification.peerBuffer arch) (min capacity.toNat 16),
    address ∉ Memory.addresses (notification.peerLength arch) 4

namespace PeerCall

variable {arch : Arch} {memory : Memory} {region : UInt64 → Prop} {notification : Notification}
  {capacity : UInt32} {address : SocketAddrV4} {trace : List (Event Operation Operation.Ret)}
  {result : Except IoError Unit} {stored : List (UInt64 × UInt8)}

/-- The room above which the kernel refuses the call. -/
def limit (arch : Arch) (notification : Notification) : Nat :=
  if notification.peerOption arch then 16 else 2 ^ 31 - 1

/-- What the length word is to be. -/
def returned (arch : Arch) (notification : Notification) (capacity : UInt32) : UInt32 :=
  if notification.peerOption arch then capacity else 16

theorem address_take_length (address : SocketAddrV4) (capacity : UInt32) :
    ((addressBytes address).take (min capacity.toNat 16)).length = min capacity.toNat 16 := by
  rw [List.length_take, addressBytes_length]
  omega

theorem peerName_eq (h : PeerCall arch memory region notification capacity)
    (address : SocketAddrV4) :
    memory.peerName arch notification address =
      if limit arch notification < capacity.toNat then throw (.os Errno.einval)
      else
        Act.write .peer notification.pid (notification.peerBuffer arch)
          ((addressBytes address).take (min capacity.toNat 16)) >>= fun _ =>
        Act.write .nameLength notification.pid (notification.peerLength arch)
          (toNe 4 (returned arch notification capacity).toNat) := by
  have hword := Memory.u32At_of_holds h.tid (h.length (by decide)).1 h.word
  unfold Memory.peerName Memory.putAddress limit returned Notification.peerBuffer
  unfold Notification.peerLength at hword ⊢
  by_cases hoption : notification.peerOption arch
  · have hbool : (notification.data.nr.toUInt32 == arch.number .getsockopt) = true :=
      beq_iff_eq.mpr hoption
    rw [if_pos hoption] at hword
    simp only [hbool, if_true, hword, if_pos hoption, Bool.true_and, decide_eq_true_eq,
      Act.ofExcept_ok_bind, UInt32.lt_iff_toNat_lt, show UInt32.toNat 16 = 16 from rfl]
    by_cases hlarge : 16 < capacity.toNat
    · rw [if_pos hlarge, if_pos hlarge]
    · rw [if_neg hlarge, if_neg hlarge, if_neg (by omega)]
  · have hbool : (notification.data.nr.toUInt32 == arch.number .getsockopt) = false :=
      beq_eq_false_iff_ne.mpr hoption
    rw [if_neg hoption] at hword
    simp only [hbool, Bool.false_eq_true, if_false, hword, if_neg hoption, Bool.false_and,
      Act.ofExcept_ok_bind]
    by_cases hlarge : 2 ^ 31 - 1 < capacity.toNat
    · rw [if_pos hlarge, if_pos hlarge]
      rfl
    · rw [if_neg hlarge, if_neg hlarge]

theorem writes_peerName (h : PeerCall arch memory region notification capacity) :
    (memory.peerName arch notification address).run.Performs
      (Operation.Within fun other =>
        other ∈ Memory.addresses (notification.peerBuffer arch) (min capacity.toNat 16) ∨
        other ∈ Memory.addresses (notification.peerLength arch) 4) := by
  rw [h.peerName_eq]
  split
  next => trivial
  next =>
    refine Performs.andThen (Message.within_write (List.length_take_le _ _) fun _ => Or.inl)
      fun _ => ?_
    exact Message.within_write (toNe_length _ _).le fun _ => Or.inr

/-- No more than the two ranges ever changes. -/
theorem peerName_frame (h : PeerCall arch memory region notification capacity)
    (hrun : Runs (memory.peerName arch notification address).run trace result)
    (hstored : Stored trace stored) (other : UInt64)
    (hne : memory.put stored other ≠ memory other) :
    other ∈ Memory.addresses (notification.peerBuffer arch) (min capacity.toNat 16) ∨
      other ∈ Memory.addresses (notification.peerLength arch) 4 := by
  by_contra hmem
  apply hne
  apply Memory.put_of_not_mem
  rintro store hstore rfl
  exact hmem (hstored.within (h.writes_peerName.runs hrun) store hstore)

theorem peerName_refused (h : PeerCall arch memory region notification capacity)
    (hlimit : limit arch notification < capacity.toNat)
    (hrun : Runs (memory.peerName arch notification address).run trace result) :
    trace = [] ∧ result = .error (.os Errno.einval) := by
  rw [h.peerName_eq, if_pos hlimit] at hrun
  exact runs_done_iff.mp hrun

/-- Both writes are carried out. -/
theorem peerName_stores (h : PeerCall arch memory region notification capacity)
    (hlimit : capacity.toNat ≤ limit arch notification)
    (hrun : Runs (memory.peerName arch notification address).run trace result)
    (hcopied : Copied region trace stored) :
    result = .ok () ∧ stored =
      Memory.stores (notification.peerBuffer arch)
        ((addressBytes address).take (min capacity.toNat 16)) ++
      Memory.stores (notification.peerLength arch)
        (toNe 4 (returned arch notification capacity).toNat) := by
  have hlength := address_take_length address capacity
  rw [h.peerName_eq, if_neg (Nat.not_lt.mpr hlimit)] at hrun
  rcases runs_andThen.mp hrun with ⟨e, hcall, rfl⟩ | ⟨front, back, _, rfl, hcall, hlast⟩
  · cases runs_single_iff.mp hcall
    obtain ⟨_, _, _, ⟨calls, hwrite, lawful, _⟩, _⟩ := hcopied
    cases Access.writeExact_complete hwrite lawful h.tid (by rw [hlength]; exact h.buffer)
  · cases runs_single_iff.mp hcall
    cases runs_single_iff.mp hlast
    have hok : result = .ok () := by
      obtain ⟨_, _, _, _, _, _, _, ⟨calls, hwrite, lawful, _⟩, _⟩ := hcopied
      exact Access.writeExact_complete hwrite lawful h.tid (by rw [toNe_length]; exact h.length)
    obtain ⟨first, _, rfl, hfirst, second, _, rfl, hsecond, rfl⟩ := hcopied.toStored
    rw [hfirst.2 rfl, hsecond.2 hok, List.append_nil]
    exact ⟨hok, rfl⟩

/-- What the caller finds when both writes are carried out. -/
theorem peerName_holds (h : PeerCall arch memory region notification capacity)
    (hlimit : capacity.toNat ≤ limit arch notification)
    (hrun : Runs (memory.peerName arch notification address).run trace result)
    (hcopied : Copied region trace stored) :
    result = .ok () ∧
    (memory.put stored).Holds (notification.peerBuffer arch)
      ((addressBytes address).take (min capacity.toNat 16)) ∧
    (memory.put stored).Holds (notification.peerLength arch)
      (toNe 4 (returned arch notification capacity).toNat) := by
  obtain ⟨hok, rfl⟩ := h.peerName_stores hlimit hrun hcopied
  have hlength := address_take_length address capacity
  rw [Memory.put_append]
  refine ⟨hok, (Memory.holds_put_stores memory (by omega)).put ?_, ?_⟩
  · intro store hstore hbuffer
    rw [hlength] at hbuffer
    have hword := Memory.mem_stores hstore
    rw [toNe_length] at hword
    exact h.apart _ hbuffer hword
  · exact Memory.holds_put_stores _ (by rw [toNe_length]; decide)

/-- An address that is not cut off is read back. -/
theorem peerName_ipv4 (h : PeerCall arch memory region notification capacity)
    (hlimit : capacity.toNat ≤ limit arch notification) (hfull : 16 ≤ capacity.toNat)
    (hrun : Runs (memory.peerName arch notification address).run trace result)
    (hcopied : Copied region trace stored) :
    (memory.put stored).ipv4 notification.pid (notification.peerBuffer arch) 16 = .ok address := by
  obtain ⟨_, hbytes, _⟩ := h.peerName_holds hlimit hrun hcopied
  have hroom := h.buffer
  rw [Nat.min_eq_right hfull] at hbytes hroom
  exact Memory.ipv4_of_holds h.tid (hroom (by decide)).1 hbytes

theorem exists_peerName (h : PeerCall arch memory region notification capacity) :
    ∃ trace result stored, Runs (memory.peerName arch notification address).run trace result ∧
      Copied region trace stored := by
  have hwrites : (memory.peerName arch notification address).run.Performs fun op =>
      ∃ field tid pointer bytes, op = .write field tid pointer bytes := by
    rw [h.peerName_eq]
    split
    next => trivial
    next =>
      exact Performs.andThen ⟨⟨_, _, _, _, rfl⟩, fun _ => trivial⟩ fun _ =>
        ⟨⟨_, _, _, _, rfl⟩, fun _ => trivial⟩
  have hanswer : ∀ op : Operation,
      (∃ field tid pointer bytes, op = .write field tid pointer bytes) →
      ∃ answer : op.Ret, ∃ stored, op.Copies region answer stored := by
    rintro _ ⟨field, tid, pointer, bytes, rfl⟩
    exact exists_copies region field tid pointer bytes
  obtain ⟨trace, result, hrun, hcopies⟩ := @Performs.exists_runs _ _ _ _
    (fun event => ∃ stored, event.op.Copies region event.answer stored) hanswer _ hwrites
  obtain ⟨stored, hcopied⟩ := exists_copied hcopies
  exact ⟨trace, result, stored, hrun, hcopied⟩

theorem peerName_like_kernel (h : PeerCall arch memory region notification capacity)
    (address : SocketAddrV4) :
    (∀ trace result stored, Runs (memory.peerName arch notification address).run trace result →
      Stored trace stored → ∀ other, memory.put stored other ≠ memory other →
      other ∈ Memory.addresses (notification.peerBuffer arch) (min capacity.toNat 16) ∨
      other ∈ Memory.addresses (notification.peerLength arch) 4) ∧
    (∃ trace result stored, Runs (memory.peerName arch notification address).run trace result ∧
      Copied region trace stored) ∧
    ∀ trace result stored, Runs (memory.peerName arch notification address).run trace result →
      Copied region trace stored →
      (¬notification.peerOption arch → 2 ^ 31 - 1 < capacity.toNat →
        result = .error (.os Errno.einval) ∧ memory.put stored = memory) ∧
      (notification.peerOption arch → 16 < capacity.toNat →
        result = .error (.os Errno.einval) ∧ memory.put stored = memory) ∧
      (¬notification.peerOption arch → capacity.toNat ≤ 2 ^ 31 - 1 → result = .ok () ∧
        (memory.put stored).Holds (notification.peerBuffer arch)
          ((addressBytes address).take (min capacity.toNat 16)) ∧
        (memory.put stored).u32At notification.pid (notification.peerLength arch) = .ok 16 ∧
        (16 ≤ capacity.toNat → (memory.put stored).ipv4 notification.pid
          (notification.peerBuffer arch) 16 = .ok address)) ∧
      (notification.peerOption arch → capacity.toNat ≤ 16 → result = .ok () ∧
        (memory.put stored).Holds (notification.peerBuffer arch)
          ((addressBytes address).take capacity.toNat) ∧
        (memory.put stored).u32At notification.pid (notification.peerLength arch) = .ok capacity ∧
        (capacity.toNat = 16 → (memory.put stored).ipv4 notification.pid
          (notification.peerBuffer arch) 16 = .ok address)) := by
  refine ⟨fun _ _ _ => h.peerName_frame, h.exists_peerName, ?_⟩
  intro trace result stored hrun hcopied
  have hrange := (h.length (by decide)).1
  have hrefused : limit arch notification < capacity.toNat →
      result = .error (.os Errno.einval) ∧ memory.put stored = memory := by
    intro hlimit
    obtain ⟨rfl, hresult⟩ := h.peerName_refused hlimit hrun
    rw [show stored = [] from hcopied]
    exact ⟨hresult, rfl⟩
  refine ⟨?_, ?_, ?_, ?_⟩
  · intro hname hlarge
    exact hrefused (by rwa [limit, if_neg hname])
  · intro hoption hlarge
    exact hrefused (by rwa [limit, if_pos hoption])
  · intro hname hfits
    have hlimit : capacity.toNat ≤ limit arch notification := by rwa [limit, if_neg hname]
    obtain ⟨hok, hbytes, hword⟩ := h.peerName_holds hlimit hrun hcopied
    rw [returned, if_neg hname] at hword
    exact ⟨hok, hbytes, Memory.u32At_of_holds h.tid hrange hword, fun hfull =>
      h.peerName_ipv4 hlimit hfull hrun hcopied⟩
  · intro hoption hfits
    have hlimit : capacity.toNat ≤ limit arch notification := by rwa [limit, if_pos hoption]
    obtain ⟨hok, hbytes, hword⟩ := h.peerName_holds hlimit hrun hcopied
    rw [returned, if_pos hoption] at hword
    rw [Nat.min_eq_left hfits] at hbytes
    exact ⟨hok, hbytes, Memory.u32At_of_holds h.tid hrange hword, fun hfull =>
      h.peerName_ipv4 hlimit hfull.ge hrun hcopied⟩

/-- `getpeername` with room for the whole address. -/
def peerCall : Notification :=
  ⟨1, 100, ⟨52, Arch.nativeArch .x86_64, 0, fun i => if i = 1 then 4096 else 8192⟩⟩

def peerMemory : Memory := Memory.put (fun _ => none) (Memory.stores 8192 (toNe 4 16))

theorem peerName_like_kernel_peerCall :
    ∃ trace stored,
      Runs (peerMemory.peerName .x86_64 peerCall ⟨.localhost, 443⟩).run trace (.ok ()) ∧
      Copied (fun _ => True) trace stored ∧
      (peerMemory.put stored).u32At 100 8192 = .ok 16 ∧
      (peerMemory.put stored).ipv4 100 4096 16 = .ok ⟨.localhost, 443⟩ := by
  have hapart : ∀ address ∈ Memory.addresses 4096 16, address ∉ Memory.addresses 8192 4 := by
    intro address hbuffer hlength
    obtain ⟨i, hi, rfl⟩ := Memory.mem_addresses.mp hbuffer
    obtain ⟨j, hj, heq⟩ := Memory.mem_addresses.mp hlength
    have hnat := congrArg UInt64.toNat heq
    simp only [UInt64.toNat_add, UInt64.toNat_ofNat', UInt64.reduceToNat] at hnat
    omega
  have hcall : PeerCall .x86_64 peerMemory (fun _ => True) peerCall 16 :=
    ⟨rfl, Memory.holds_put_stores _ (by rw [toNe_length]; decide),
      fun _ => ⟨⟨by decide, by decide⟩, fun _ _ => trivial⟩,
      fun _ => ⟨⟨by decide, by decide⟩, fun _ _ => trivial⟩, hapart⟩
  obtain ⟨_, ⟨trace, result, stored, hrun, hcopied⟩, hall⟩ :=
    peerName_like_kernel hcall ⟨.localhost, 443⟩
  obtain ⟨_, _, hname, _⟩ := hall trace result stored hrun hcopied
  obtain ⟨rfl, _, hword, hread⟩ := hname (by decide) (by decide)
  exact ⟨trace, stored, hrun, hcopied, hword, hread (by decide)⟩

end PeerCall

end Scproxy
