import Mathlib.Logic.Function.Basic
import Scproxy.CopyMemory
import Scproxy.Message

namespace Scproxy

theorem zip_append_left {α β : Type} (xs ys : List α) (bs : List β) :
    (xs ++ ys).zip bs = xs.zip (bs.take xs.length) ++ ys.zip (bs.drop xs.length) := by
  induction xs generalizing bs with
  | nil => rfl
  | cons x xs ih =>
    cases bs with
    | nil => simp
    | cons b bs => simp [ih]

namespace Memory

/-- The addresses of a buffer. -/
def addresses (pointer : UInt64) (length : Nat) : List UInt64 :=
  (List.range length).map fun i => pointer + UInt64.ofNat i

/-- What is stored, byte by byte, when a buffer is filled. -/
def stores (pointer : UInt64) (bytes : List UInt8) : List (UInt64 × UInt8) :=
  (addresses pointer bytes.length).zip bytes

/-- The memory after a sequence of stores. -/
def put (memory : Memory) (stored : List (UInt64 × UInt8)) : Memory :=
  stored.foldl (fun memory store => Function.update memory store.1 (some store.2)) memory

@[simp] theorem addresses_length (pointer : UInt64) (length : Nat) :
    (addresses pointer length).length = length := by
  simp [addresses]

theorem mem_addresses {pointer address : UInt64} {length : Nat} :
    address ∈ addresses pointer length ↔ ∃ i < length, address = pointer + UInt64.ofNat i := by
  simp [addresses, eq_comm]

theorem addresses_add (pointer : UInt64) (front back : Nat) :
    addresses pointer (front + back) =
      addresses pointer front ++ addresses (pointer + UInt64.ofNat front) back := by
  rw [addresses, List.range_add, List.map_append, List.map_map]
  congr 1
  apply List.map_congr_left
  intro i _
  rw [Function.comp_apply, UInt64.ofNat_add, UInt64.add_assoc]

theorem mem_addresses_of_le {pointer address : UInt64} {length capacity : Nat}
    (h : length ≤ capacity) (hmem : address ∈ addresses pointer length) :
    address ∈ addresses pointer capacity := by
  obtain ⟨i, hi, heq⟩ := mem_addresses.mp hmem
  exact mem_addresses.mpr ⟨i, hi.trans_le h, heq⟩

theorem stores_append (pointer : UInt64) (front back : List UInt8) :
    stores pointer (front ++ back) =
      stores pointer front ++ stores (pointer + UInt64.ofNat front.length) back := by
  rw [stores, List.length_append, addresses_add, zip_append_left, addresses_length, List.take_left,
    List.drop_left]
  rfl

theorem stores_take_isPrefix (pointer : UInt64) (bytes : List UInt8) (count : Nat) :
    stores pointer (bytes.take count) <+: stores pointer bytes := by
  nth_rewrite 2 [← List.take_append_drop count bytes]
  rw [stores_append]
  exact List.prefix_append _ _

/-- A buffer that is larger than the bytes. -/
theorem zip_addresses {pointer : UInt64} {length : Nat} {bytes : List UInt8}
    (h : bytes.length ≤ length) : (addresses pointer length).zip bytes = stores pointer bytes := by
  obtain ⟨rest, rfl⟩ := Nat.exists_eq_add_of_le h
  rw [addresses_add, zip_append_left, addresses_length, List.take_length, List.drop_length,
    List.zip_nil_right, List.append_nil]
  rfl

theorem mem_stores {pointer : UInt64} {bytes : List UInt8} {store : UInt64 × UInt8}
    (h : store ∈ stores pointer bytes) : store.1 ∈ addresses pointer bytes.length :=
  (List.of_mem_zip h).1

/-- Nothing but the stored addresses changes. -/
theorem put_of_not_mem {stored : List (UInt64 × UInt8)} {address : UInt64}
    (h : ∀ store ∈ stored, store.1 ≠ address) (memory : Memory) :
    memory.put stored address = memory address := by
  induction stored generalizing memory with
  | nil => rfl
  | cons store stored ih =>
    obtain ⟨hfirst, hrest⟩ := List.forall_mem_cons.mp h
    exact (ih hrest _).trans (Function.update_of_ne (Ne.symm hfirst) _ _)

section Put

variable {memory : Memory} {pointer : UInt64} {bytes : List UInt8}

theorem put_append (memory : Memory) (first last : List (UInt64 × UInt8)) :
    memory.put (first ++ last) = (memory.put first).put last :=
  List.foldl_append

/-- The bytes of a buffer have different addresses. -/
theorem not_mem_addresses_end {length : Nat} (h : length < 2 ^ 64) :
    pointer + UInt64.ofNat length ∉ addresses pointer length := by
  intro hmem
  obtain ⟨i, hi, heq⟩ := mem_addresses.mp hmem
  have hoffset := congrArg UInt64.toNat ((UInt64.add_right_inj pointer).mp heq)
  rw [UInt64.toNat_ofNat_of_lt' h, UInt64.toNat_ofNat_of_lt' (hi.trans h)] at hoffset
  exact hi.ne' hoffset

/-- What is stored elsewhere leaves the bytes in place. -/
theorem Holds.put {stored : List (UInt64 × UInt8)} (h : memory.Holds pointer bytes)
    (hapart : ∀ store ∈ stored, store.1 ∉ addresses pointer bytes.length) :
    (memory.put stored).Holds pointer bytes := by
  intro i b hb
  rw [put_of_not_mem]
  · exact h i b hb
  · rintro store hstore heq
    apply hapart store hstore
    exact mem_addresses.mpr ⟨i, (List.getElem?_eq_some_iff.mp hb).1, heq⟩

theorem holds_put_stores (memory : Memory) (h : bytes.length < 2 ^ 64) :
    (memory.put (stores pointer bytes)).Holds pointer bytes := by
  induction bytes using List.reverseRecOn with
  | nil => exact fun i b hb => nomatch hb
  | append_singleton bytes b ih =>
    rw [List.length_append] at h
    have hlength : bytes.length < 2 ^ 64 := Nat.lt_of_succ_lt h
    have hlast : stores (pointer + UInt64.ofNat bytes.length) [b] =
        [(pointer + UInt64.ofNat bytes.length, b)] := by
      simp [stores, addresses]
    rw [stores_append, put_append, hlast, holds_append]
    refine ⟨(ih hlength).put ?_, ?_⟩
    · intro store hstore
      rw [List.mem_singleton.mp hstore]
      exact not_mem_addresses_end hlength
    · intro i c hc
      obtain ⟨hi, rfl⟩ := List.getElem?_eq_some_iff.mp hc
      cases Nat.lt_one_iff.mp hi
      exact (congrArg _ (UInt64.add_zero _)).trans (Function.update_self ..)

end Put

/-- A range that `copy_memory` accepts and the application may write to. -/
def Room (region : UInt64 → Prop) (pointer : UInt64) (length : Nat) : Prop :=
  length ≠ 0 → InRange pointer length ∧ ∀ address ∈ addresses pointer length, region address

end Memory

/-- One call of `process_vm_writev`, repeated while it is interrupted. -/
structure WriteV where
  address : UInt64
  bytes : List UInt8

namespace WriteV

/-- The kernel may copy less than it is given. -/
abbrev Ret (call : WriteV) : Type := Except IoError { count : Nat // count ≤ call.bytes.length }

def perform (address : UInt64) (bytes : List UInt8) :
    ExceptT IoError (Interaction WriteV Ret) { count : Nat // count ≤ bytes.length } :=
  ExceptT.mk (.perform ⟨address, bytes⟩ .done)

/-- A call that fails has copied nothing. -/
def stored (event : Interaction.Event WriteV Ret) : List (UInt64 × UInt8) :=
  match event.answer with
  | .ok count => Memory.stores event.op.address (event.op.bytes.take count.1)
  | .error _ => []

/-- The kernel copies at least one byte to where the application may write. -/
def Lawful (region : UInt64 → Prop) (event : Interaction.Event WriteV Ret) : Prop :=
  region event.op.address → event.op.bytes ≠ [] → ∃ count, event.answer = .ok count ∧ count.1 ≠ 0

end WriteV

namespace Access

open Interaction

/-- The loop of `copy_memory`. -/
def copyTo (address : UInt64) (bytes : List UInt8) (copied : Nat) :
    ExceptT IoError (Interaction WriteV WriteV.Ret) Unit :=
  if _hlt : copied < bytes.length then do
    let count ← WriteV.perform (address + UInt64.ofNat copied) (bytes.drop copied)
    if _hzero : count.1 = 0 then throw (.os Errno.efault)
    else copyTo address bytes (copied + count.1)
  else pure ()
termination_by bytes.length - copied

def writeExact (tid : UInt32) (address : UInt64) (bytes : List UInt8) :
    ExceptT IoError (Interaction WriteV WriteV.Ret) Unit :=
  if bytes.length = 0 then pure ()
  else do
    ExceptT.mk (.done (Memory.checkTid tid))
    if address = 0 ∨ 2 ^ 64 ≤ address.toNat + bytes.length then throw (.os Errno.efault)
    else copyTo address bytes 0

end Access

/-- What an operation leaves in the memory of the application. A write that
fails may have been carried out in part. -/
def Operation.Stores : (op : Operation) → op.Ret → List (UInt64 × UInt8) → Prop
  | .write _ _ pointer bytes, r, stored =>
    stored <+: Memory.stores pointer bytes ∧ (r = .ok () → stored = Memory.stores pointer bytes)
  | _, _, stored => stored = []

/-- What a run leaves there. -/
def Stored : List (Interaction.Event Operation Operation.Ret) → List (UInt64 × UInt8) → Prop
  | [], stored => stored = []
  | event :: trace, stored =>
    ∃ front back, stored = front ++ back ∧ event.op.Stores event.answer front ∧ Stored trace back

/-- An operation whose write is made by `write_exact`, call by call. -/
def Operation.Copies (region : UInt64 → Prop) :
    (op : Operation) → op.Ret → List (UInt64 × UInt8) → Prop
  | .write _ tid pointer bytes, r, stored =>
    ∃ calls, Interaction.Runs (Access.writeExact tid pointer bytes).run calls r ∧
      (∀ call ∈ calls, WriteV.Lawful region call) ∧ stored = calls.flatMap WriteV.stored
  | _, _, stored => stored = []

/-- A run whose writes are. -/
def Copied (region : UInt64 → Prop) :
    List (Interaction.Event Operation Operation.Ret) → List (UInt64 × UInt8) → Prop
  | [], stored => stored = []
  | event :: trace, stored => ∃ front back, stored = front ++ back ∧
    event.op.Copies region event.answer front ∧ Copied region trace back

namespace Access

open Interaction

theorem runs_copyTo {address : UInt64} {bytes : List UInt8} {copied : Nat}
    {trace : List (Event WriteV WriteV.Ret)} {result : Except IoError Unit}
    (hrun : Runs (copyTo address bytes copied).run trace result) (h : copied ≤ bytes.length) :
    ∃ count, Memory.stores address (bytes.take copied) ++ trace.flatMap WriteV.stored =
      Memory.stores address (bytes.take count) ∧ (result = .ok () → count = bytes.length) := by
  fun_induction copyTo address bytes copied generalizing trace with
  | case1 copied hlt ih =>
    rcases runs_andThen.mp hrun with ⟨e, hcall, rfl⟩ | ⟨front, back, count, rfl, hcall, hrest⟩
    · cases runs_single_iff.mp hcall
      exact ⟨copied, List.append_nil _, fun h => nomatch h⟩
    · cases runs_single_iff.mp hcall
      split at hrest
      next hzero =>
        obtain ⟨rfl, rfl⟩ := runs_done_iff.mp hrest
        refine ⟨copied, ?_, fun h => nomatch h⟩
        simp [WriteV.stored, hzero, Memory.stores]
      next hzero =>
        have hcount : count.1 ≤ bytes.length - copied := count.2.trans_eq List.length_drop
        obtain ⟨last, hstored, hok⟩ := ih count hzero hrest (by omega)
        refine ⟨last, ?_, hok⟩
        rw [← hstored, List.take_add, Memory.stores_append, List.length_take, Nat.min_eq_left h,
          List.append_assoc]
        rfl
  | case2 copied hlt =>
    obtain ⟨rfl, rfl⟩ := runs_done_iff.mp hrun
    exact ⟨copied, List.append_nil _, fun _ => by omega⟩

/-- The calls of `write_exact` store what the operation says. -/
theorem runs_writeExact {field : Field} {tid : UInt32} {address : UInt64} {bytes : List UInt8}
    {trace : List (Event WriteV WriteV.Ret)} {result : Except IoError Unit}
    (hrun : Runs (writeExact tid address bytes).run trace result) :
    (Operation.write field tid address bytes).Stores result (trace.flatMap WriteV.stored) := by
  have hstopped : ∀ {e}, (Operation.write field tid address bytes).Stores (.error e) [] :=
    ⟨List.nil_prefix, fun h => nomatch h⟩
  unfold writeExact at hrun
  split at hrun
  next hzero =>
    obtain ⟨rfl, rfl⟩ := runs_done_iff.mp hrun
    rw [List.length_eq_zero_iff] at hzero
    rw [hzero]
    exact ⟨List.nil_prefix, fun _ => rfl⟩
  next hpos =>
    rcases runs_andThen.mp hrun with ⟨e, htid, rfl⟩ | ⟨front, back, _, rfl, htid, hrest⟩
    · obtain ⟨rfl, _⟩ := runs_done_iff.mp htid
      exact hstopped
    · obtain ⟨rfl, _⟩ := runs_done_iff.mp htid
      split at hrest
      next =>
        obtain ⟨rfl, rfl⟩ := runs_done_iff.mp hrest
        exact hstopped
      next =>
        obtain ⟨count, hstored, hok⟩ := runs_copyTo hrest (Nat.zero_le _)
        have hstored : back.flatMap WriteV.stored = Memory.stores address (bytes.take count) :=
          hstored
        rw [List.nil_append, hstored]
        refine ⟨Memory.stores_take_isPrefix address bytes count, fun hresult => ?_⟩
        rw [hok hresult, List.take_length]

variable {region : UInt64 → Prop} {address : UInt64} {bytes : List UInt8}
  {trace : List (Event WriteV WriteV.Ret)} {result : Except IoError Unit}

theorem copyTo_complete {copied : Nat} (hrun : Runs (copyTo address bytes copied).run trace result)
    (lawful : ∀ event ∈ trace, WriteV.Lawful region event)
    (hregion : ∀ other ∈ Memory.addresses address bytes.length, region other) :
    result = .ok () := by
  fun_induction copyTo address bytes copied generalizing trace with
  | case1 copied hlt ih =>
    have hprogress : ∀ {r : (WriteV.mk (address + UInt64.ofNat copied) (bytes.drop copied)).Ret},
        WriteV.Lawful region ⟨_, r⟩ → ∃ count, r = .ok count ∧ count.1 ≠ 0 := by
      intro r hr
      refine hr (hregion _ (Memory.mem_addresses.mpr ⟨copied, hlt, rfl⟩)) ?_
      exact List.drop_eq_nil_iff.not.mpr (Nat.not_le.mpr hlt)
    rcases runs_andThen.mp hrun with ⟨e, hcall, rfl⟩ | ⟨front, back, count, rfl, hcall, hrest⟩
    · cases runs_single_iff.mp hcall
      obtain ⟨_, heq, _⟩ := hprogress (lawful _ (List.mem_singleton.mpr rfl))
      cases heq
    · cases runs_single_iff.mp hcall
      obtain ⟨_, heq, hzero⟩ := hprogress (lawful _ (List.mem_cons_self ..))
      cases heq
      rw [dif_neg hzero] at hrest
      exact ih count hzero hrest fun event hevent => lawful event (List.mem_cons_of_mem _ hevent)
  | case2 copied hlt => exact (runs_done_iff.mp hrun).2

/-- What there is room for is written. -/
theorem writeExact_complete {tid : UInt32}
    (hrun : Runs (writeExact tid address bytes).run trace result)
    (lawful : ∀ event ∈ trace, WriteV.Lawful region event)
    (htid : Memory.checkTid tid = .ok ()) (hroom : Memory.Room region address bytes.length) :
    result = .ok () := by
  unfold writeExact at hrun
  split at hrun
  next => exact (runs_done_iff.mp hrun).2
  next hpos =>
    obtain ⟨hrange, hregion⟩ := hroom hpos
    rw [htid] at hrun
    rcases runs_andThen.mp hrun with ⟨e, hdone, rfl⟩ | ⟨front, back, _, rfl, hdone, hrest⟩
    · cases (runs_done_iff.mp hdone).2
    · obtain ⟨rfl, _⟩ := runs_done_iff.mp hdone
      rw [if_neg (not_or.mpr ⟨hrange.1, Nat.not_le.mpr hrange.2⟩)] at hrest
      exact copyTo_complete hrest lawful hregion

end Access

section Stored

open Interaction

variable {trace : List (Event Operation Operation.Ret)} {stored : List (UInt64 × UInt8)}

/-- The operation writes to such addresses only. -/
def Operation.Within (region : UInt64 → Prop) : Operation → Prop
  | .write _ _ pointer bytes => ∀ address ∈ Memory.addresses pointer bytes.length, region address
  | _ => True

theorem Operation.Within.stores {region : UInt64 → Prop} {op : Operation} (h : op.Within region)
    {r : op.Ret} (hstores : op.Stores r stored) : ∀ store ∈ stored, region store.1 := by
  cases op with
  | write field tid pointer bytes =>
    intro store hstore
    exact h _ (Memory.mem_stores (hstores.1.subset hstore))
  | _ =>
    rw [show stored = [] from hstores]
    simp

theorem Stored.within {region : UInt64 → Prop} (h : Stored trace stored)
    (hwithin : ∀ event ∈ trace, event.op.Within region) : ∀ store ∈ stored, region store.1 := by
  induction trace generalizing stored with
  | nil =>
    rw [show stored = [] from h]
    simp
  | cons event trace ih =>
    obtain ⟨first, last, rfl, hevent, hrest⟩ := h
    obtain ⟨hfirst, hlater⟩ := List.forall_mem_cons.mp hwithin
    intro store hstore
    rcases List.mem_append.mp hstore with hstore | hstore
    · exact hfirst.stores hevent store hstore
    · exact ih hrest hlater store hstore

theorem Operation.Copies.stores {region : UInt64 → Prop} {op : Operation} {r : op.Ret}
    (h : op.Copies region r stored) : op.Stores r stored := by
  cases op with
  | write field tid pointer bytes =>
    obtain ⟨calls, hrun, _, rfl⟩ := h
    exact Access.runs_writeExact hrun
  | _ => exact h

theorem Copied.toStored {region : UInt64 → Prop} (h : Copied region trace stored) :
    Stored trace stored := by
  induction trace generalizing stored with
  | nil => exact h
  | cons event trace ih =>
    obtain ⟨front, back, rfl, hevent, hrest⟩ := h
    exact ⟨front, back, rfl, hevent.stores, ih hrest⟩

/-- `write_exact` always comes to an end. -/
theorem exists_copies (region : UInt64 → Prop) (field : Field) (tid : UInt32) (pointer : UInt64)
    (bytes : List UInt8) :
    ∃ r stored, (Operation.write field tid pointer bytes).Copies region r stored := by
  have hanswer : ∀ call : WriteV, True → ∃ answer, WriteV.Lawful region ⟨call, answer⟩ := by
    intro call _
    refine ⟨.ok ⟨call.bytes.length, le_rfl⟩, fun _ hbytes => ⟨_, rfl, ?_⟩⟩
    exact List.length_eq_zero_iff.not.mpr hbytes
  obtain ⟨calls, r, hrun, lawful⟩ := performs_true.exists_runs hanswer
  exact ⟨r, _, calls, hrun, lawful, rfl⟩

theorem exists_copied {region : UInt64 → Prop}
    (h : ∀ event ∈ trace, ∃ stored, event.op.Copies region event.answer stored) :
    ∃ stored, Copied region trace stored := by
  induction trace with
  | nil => exact ⟨[], rfl⟩
  | cons event trace ih =>
    obtain ⟨hfirst, hrest⟩ := List.forall_mem_cons.mp h
    obtain ⟨front, hfront⟩ := hfirst
    obtain ⟨back, hback⟩ := ih hrest
    exact ⟨front ++ back, front, back, rfl, hfront, hback⟩

end Stored

end Scproxy
