import Scproxy.InteractionRuns
import Scproxy.Memory

namespace Scproxy

theorem mapM_eq_some_iff {α β : Type} {f : α → Option β} {l : List α} {bs : List β} :
    l.mapM f = some bs ↔ l.map f = bs.map some := by
  induction l generalizing bs with
  | nil =>
    constructor
    · intro h
      cases Option.some.inj h
      rfl
    · intro h
      rw [List.map_eq_nil_iff.mp h.symm]
      rfl
  | cons a l ih =>
    rw [List.mapM_cons, List.map_cons]
    cases bs with
    | nil =>
      simp only [List.map_nil, reduceCtorEq, iff_false]
      intro h
      obtain ⟨b, _, h⟩ := Option.bind_eq_some_iff.mp h
      obtain ⟨rest, _, h⟩ := Option.bind_eq_some_iff.mp h
      cases Option.some.inj h
    | cons b bs =>
      rw [List.map_cons, List.cons.injEq, ← ih]
      constructor
      · intro h
        obtain ⟨b', hb, h⟩ := Option.bind_eq_some_iff.mp h
        obtain ⟨rest, hrest, h⟩ := Option.bind_eq_some_iff.mp h
        cases Option.some.inj h
        exact ⟨hb, hrest⟩
      · rintro ⟨hb, hrest⟩
        rw [hb, hrest]
        rfl

namespace Memory

/-- The bytes stand at the address. -/
def Holds (memory : Memory) (address : UInt64) (bytes : List UInt8) : Prop :=
  ∀ i b, bytes[i]? = some b → memory (address + UInt64.ofNat i) = some b

theorem holds_append {memory : Memory} {address : UInt64} {front back : List UInt8} :
    memory.Holds address (front ++ back) ↔ memory.Holds address front ∧
      memory.Holds (address + UInt64.ofNat front.length) back := by
  have hadd : ∀ i, address + UInt64.ofNat front.length + UInt64.ofNat i =
      address + UInt64.ofNat (front.length + i) := by
    intro i
    rw [UInt64.ofNat_add, UInt64.add_assoc]
  constructor
  · intro h
    refine ⟨fun i b hb => h i b ?_, fun i b hb => ?_⟩
    · rw [List.getElem?_append_left (List.getElem?_eq_some_iff.mp hb).1, hb]
    · rw [hadd]
      refine h _ b ?_
      rw [List.getElem?_append_right (Nat.le_add_right _ _), Nat.add_sub_cancel_left, hb]
  · rintro ⟨hfront, hback⟩ i b hb
    by_cases hi : i < front.length
    · rw [List.getElem?_append_left hi] at hb
      exact hfront i b hb
    · rw [List.getElem?_append_right (Nat.le_of_not_lt hi)] at hb
      have := hback _ b hb
      rwa [hadd, Nat.add_sub_cancel' (Nat.le_of_not_lt hi)] at this

theorem range_mapM_of_holds {memory : Memory} {address : UInt64} {bytes : List UInt8}
    (h : memory.Holds address bytes) :
    (List.range bytes.length).mapM (fun i => memory (address + UInt64.ofNat i)) = some bytes := by
  rw [mapM_eq_some_iff]
  apply List.ext_getElem?
  intro i
  rw [List.getElem?_map, List.getElem?_map]
  by_cases hi : i < bytes.length
  · have hb := List.getElem?_eq_getElem hi
    rw [List.getElem?_range hi, hb, Option.map_some, h i _ hb]
    rfl
  · rw [List.getElem?_eq_none (by simpa using hi), List.getElem?_eq_none (by omega)]
    rfl

theorem range_mapM_of_hole {memory : Memory} {address : UInt64} {length i : Nat} (hi : i < length)
    (h : memory (address + UInt64.ofNat i) = none) :
    (List.range length).mapM (fun i => memory (address + UInt64.ofNat i)) = none := by
  cases hm : (List.range length).mapM fun i => memory (address + UInt64.ofNat i) with
  | none => rfl
  | some bytes =>
    have hmap := congrArg (·[i]?) (mapM_eq_some_iff.mp hm)
    simp only [List.getElem?_map, List.getElem?_range hi, Option.map_some, h] at hmap
    cases hb : bytes[i]? with
    | none =>
      rw [hb] at hmap
      cases hmap
    | some b =>
      rw [hb] at hmap
      cases hmap

/-- A range that `copy_memory` accepts. -/
def InRange (address : UInt64) (length : Nat) : Prop :=
  address ≠ 0 ∧ address.toNat + length < 2 ^ 64

theorem read_of_inRange {memory : Memory} {tid : UInt32} {address : UInt64} {length : Nat}
    (htid : checkTid tid = .ok ()) (hlength : length ≠ 0) (h : InRange address length) :
    memory.read tid address length =
      match (List.range length).mapM fun i => memory (address + UInt64.ofNat i) with
      | some bytes => .ok bytes
      | none => .error (.os Errno.efault) := by
  have hrange : ¬(address = 0 ∨ 2 ^ 64 ≤ address.toNat + length) :=
    not_or.mpr ⟨h.1, Nat.not_le.mpr h.2⟩
  rw [read, if_neg hlength, htid]
  exact if_neg hrange

theorem read_of_holds {memory : Memory} {tid : UInt32} {address : UInt64} {bytes : List UInt8}
    (htid : checkTid tid = .ok ()) (h : InRange address bytes.length)
    (hbytes : memory.Holds address bytes) : memory.read tid address bytes.length = .ok bytes := by
  by_cases hlength : bytes.length = 0
  · rw [read, if_pos hlength, List.length_eq_zero_iff.mp hlength]
  · rw [read_of_inRange htid hlength h, range_mapM_of_holds hbytes]

theorem read_of_hole {memory : Memory} {tid : UInt32} {address : UInt64} {length i : Nat}
    (htid : checkTid tid = .ok ()) (h : InRange address length) (hi : i < length)
    (hhole : memory (address + UInt64.ofNat i) = none) :
    memory.read tid address length = .error (.os Errno.efault) := by
  rw [read_of_inRange htid (by omega) h, range_mapM_of_hole hi hhole]

/-- A range is read as a whole, or there is a byte in it that cannot be read. -/
theorem read_cases {memory : Memory} {tid : UInt32} {address : UInt64} {length : Nat}
    (htid : checkTid tid = .ok ()) (h : InRange address length) :
    (∃ bytes, memory.read tid address length = .ok bytes ∧ bytes.length = length ∧
      memory.Holds address bytes) ∨
    ∃ i < length, memory.read tid address length = .error (.os Errno.efault) ∧
      memory (address + UInt64.ofNat i) = none := by
  by_cases hole : ∃ i < length, memory (address + UInt64.ofNat i) = none
  · obtain ⟨i, hi, hhole⟩ := hole
    exact Or.inr ⟨i, hi, read_of_hole htid h hi hhole, hhole⟩
  · let bytes := (List.range length).map fun i => (memory (address + UInt64.ofNat i)).getD 0
    have hlength : bytes.length = length := by simp [bytes]
    have hholds : memory.Holds address bytes := by
      intro i b hb
      obtain ⟨hi, rfl⟩ := List.getElem?_eq_some_iff.mp hb
      rw [hlength] at hi
      cases hm : memory (address + UInt64.ofNat i) with
      | none => exact absurd ⟨i, hi, hm⟩ hole
      | some b => simp [bytes, hm]
    have hread := read_of_holds htid (by rw [hlength]; exact h) hholds
    rw [hlength] at hread
    exact Or.inl ⟨bytes, hread, hlength, hholds⟩

end Memory

/-- One call of `process_vm_readv`, repeated while it is interrupted. -/
structure ReadV where
  address : UInt64
  length : Nat

namespace ReadV

/-- The kernel may copy less than it is asked for. -/
abbrev Ret (call : ReadV) : Type := Except IoError { bytes : List UInt8 // bytes.length ≤ call.length }

def perform (address : UInt64) (length : Nat) :
    ExceptT IoError (Interaction ReadV Ret) { bytes : List UInt8 // bytes.length ≤ length } :=
  ExceptT.mk (.perform ⟨address, length⟩ .done)

/-- What the kernel answers for an application with this memory. -/
def Lawful (memory : Memory) (event : Interaction.Event ReadV Ret) : Prop :=
  match event.answer with
  | .error error => error = .os Errno.efault ∧ memory event.op.address = none
  | .ok bytes => memory.Holds event.op.address bytes.1 ∧
    (bytes.1 = [] → event.op.length ≠ 0 → memory event.op.address = none)

/-- Every call has a lawful answer, here the one of a kernel that copies byte by byte. -/
theorem exists_lawful (memory : Memory) (call : ReadV) :
    ∃ answer : call.Ret, Lawful memory ⟨call, answer⟩ := by
  by_cases hlength : call.length = 0
  · exact ⟨.ok ⟨[], Nat.zero_le _⟩, fun i b hb => by simp at hb, fun _ hne => absurd hlength hne⟩
  · cases hbyte : memory call.address with
    | none => exact ⟨.error (.os Errno.efault), rfl, hbyte⟩
    | some b =>
      refine ⟨.ok ⟨[b], Nat.one_le_iff_ne_zero.mpr hlength⟩, fun i c hc => ?_, nofun⟩
      obtain ⟨hi, rfl⟩ := List.getElem?_eq_some_iff.mp hc
      cases Nat.lt_one_iff.mp hi
      exact (congrArg memory (UInt64.add_zero _)).trans hbyte

end ReadV

namespace Access

open Interaction

/-- The loop of `copy_memory`. -/
def copyFrom (address : UInt64) (length : Nat) (copied : List UInt8)
    (h : copied.length ≤ length) :
    ExceptT IoError (Interaction ReadV ReadV.Ret) { bytes : List UInt8 // bytes.length = length } :=
  if hlt : copied.length < length then do
    let bytes ← ReadV.perform (address + UInt64.ofNat copied.length) (length - copied.length)
    if hempty : bytes.1 = [] then throw (.os Errno.efault)
    else copyFrom address length (copied ++ bytes.1) (by
      have := bytes.2
      rw [List.length_append]
      omega)
  else pure ⟨copied, by omega⟩
termination_by length - copied.length
decreasing_by
  have := List.length_pos_of_ne_nil hempty
  rw [List.length_append]
  omega

def readExact (tid : UInt32) (address : UInt64) (length : Nat) :
    ExceptT IoError (Interaction ReadV ReadV.Ret) { bytes : List UInt8 // bytes.length = length } :=
  if h : length = 0 then pure ⟨[], h.symm⟩
  else do
    ExceptT.mk (.done (Memory.checkTid tid))
    if address = 0 ∨ 2 ^ 64 ≤ address.toNat + length then throw (.os Errno.efault)
    else copyFrom address length [] (Nat.zero_le _)

/-- The copy is complete, or it stopped at a byte that cannot be read. -/
theorem runs_copyFrom {memory : Memory} {address : UInt64} {length : Nat} {copied : List UInt8}
    {h : copied.length ≤ length} {trace : List (Event ReadV ReadV.Ret)}
    {result : Except IoError { bytes : List UInt8 // bytes.length = length }}
    (hrun : Runs (copyFrom address length copied h).run trace result)
    (lawful : ∀ event ∈ trace, ReadV.Lawful memory event) (hcopied : memory.Holds address copied) :
    (∃ bytes, result = .ok bytes ∧ memory.Holds address bytes.1) ∨
    ∃ i < length, result = .error (.os Errno.efault) ∧
      memory (address + UInt64.ofNat i) = none := by
  fun_induction copyFrom address length copied h generalizing trace with
  | case1 copied h hlt ih =>
    rcases runs_andThen.mp hrun with ⟨e, hcall, rfl⟩ | ⟨front, back, bytes, rfl, hcall, hrest⟩
    · cases runs_single_iff.mp hcall
      obtain ⟨rfl, hhole⟩ := lawful _ (List.mem_singleton.mpr rfl)
      exact Or.inr ⟨copied.length, hlt, rfl, hhole⟩
    · cases runs_single_iff.mp hcall
      obtain ⟨hholds, hhole⟩ := lawful _ (List.mem_cons_self ..)
      split at hrest
      next hempty =>
        obtain ⟨_, rfl⟩ := runs_done_iff.mp hrest
        exact Or.inr ⟨copied.length, hlt, rfl, hhole hempty (Nat.sub_ne_zero_of_lt hlt)⟩
      next hempty =>
        exact ih bytes hempty hrest (fun event hevent => lawful event (List.mem_cons_of_mem _ hevent))
          (Memory.holds_append.mpr ⟨hcopied, hholds⟩)
  | case2 copied h hlt =>
    obtain ⟨_, rfl⟩ := runs_done_iff.mp hrun
    exact Or.inl ⟨_, rfl, hcopied⟩

theorem runs_readExact {memory : Memory} {tid : UInt32} {address : UInt64} {length : Nat}
    {trace : List (Event ReadV ReadV.Ret)}
    {result : Except IoError { bytes : List UInt8 // bytes.length = length }}
    (hrun : Runs (readExact tid address length).run trace result)
    (lawful : ∀ event ∈ trace, ReadV.Lawful memory event) :
    result.map Subtype.val = memory.read tid address length := by
  unfold readExact at hrun
  split at hrun
  next hzero =>
    obtain ⟨_, rfl⟩ := runs_done_iff.mp hrun
    rw [Memory.read, if_pos hzero]
    rfl
  next hpos =>
    rcases runs_andThen.mp hrun with ⟨e, htid, rfl⟩ | ⟨front, back, _, rfl, htid, hrest⟩
    · rw [Memory.read, if_neg hpos, ← (runs_done_iff.mp htid).2]
      rfl
    · obtain ⟨rfl, hok⟩ := runs_done_iff.mp htid
      split at hrest
      next hrange =>
        obtain ⟨_, rfl⟩ := runs_done_iff.mp hrest
        rw [Memory.read, if_neg hpos, ← hok]
        exact (if_pos hrange).symm
      next hrange =>
        rw [not_or, Nat.not_le] at hrange
        rcases runs_copyFrom hrest lawful (fun i b hb => by simp at hb) with
          ⟨bytes, rfl, hholds⟩ | ⟨i, hi, rfl, hhole⟩
        · have hlength := bytes.2
          have hread := Memory.read_of_holds hok.symm (by rw [hlength]; exact hrange) hholds
          rw [hlength] at hread
          exact hread.symm
        · exact (Memory.read_of_hole hok.symm hrange hi hhole).symm

theorem performs_copyFrom {address : UInt64} {length : Nat} {copied : List UInt8}
    {h : copied.length ≤ length} :
    (copyFrom address length copied h).run.Performs fun call =>
      ∃ k < length, call = ⟨address + UInt64.ofNat k, length - k⟩ := by
  fun_induction copyFrom address length copied h with
  | case1 copied h hlt ih =>
    refine Performs.andThen ⟨⟨copied.length, hlt, rfl⟩, fun _ => trivial⟩ fun bytes => ?_
    split
    next => trivial
    next hempty => exact ih bytes hempty
  | case2 copied h hlt => trivial

/-- Every call stays in the range that is asked for. -/
theorem performs_readExact (tid : UInt32) (address : UInt64) (length : Nat) :
    (readExact tid address length).run.Performs fun call =>
      ∃ k < length, call = ⟨address + UInt64.ofNat k, length - k⟩ := by
  unfold readExact
  split
  next => trivial
  next =>
    refine Performs.andThen trivial fun _ => ?_
    split
    next => trivial
    next => exact performs_copyFrom

end Access

end Scproxy
