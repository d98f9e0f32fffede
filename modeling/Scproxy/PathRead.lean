import Scproxy.CopyMemory

namespace Scproxy

namespace Access

open Interaction

/-- How much of a pathname is read next: not past a page, since the next one
can be unmapped even when the pathname ends before it. -/
def pathChunk (done : Nat) (pointer : UInt64) : Nat :=
  min (min (4096 - done) 256) (4096 - (pointer.toNat &&& 4095))

theorem pathChunk_pos {done : Nat} (h : done < 4096) (pointer : UInt64) :
    0 < pathChunk done pointer := by
  have hmask : pointer.toNat &&& 4095 ≤ 4095 := Nat.and_le_right
  unfold pathChunk
  omega

/-- The loop of `path`, after `bytes`. -/
def pathFrom (tid : UInt32) (address : UInt64) (bytes : List UInt8) :
    ExceptT IoError (Interaction ReadV ReadV.Ret) (List UInt8) :=
  if h : bytes.length < 4096 then
    if 2 ^ 64 ≤ address.toNat + bytes.length then throw (.os Errno.efault)
    else do
      let pointer := address + UInt64.ofNat bytes.length
      let chunk ← readExact tid pointer (pathChunk bytes.length pointer)
      match chunk.1.findIdx? (· == 0) with
      | some last => pure (bytes ++ chunk.1.take last)
      | none => pathFrom tid address (bytes ++ chunk.1)
  else throw (.os Errno.enametoolong)
termination_by 4096 - bytes.length
decreasing_by
  have := chunk.2
  have := pathChunk_pos h pointer
  rw [List.length_append]
  omega

/-- `memory::path`. -/
def path (tid : UInt32) (address : UInt64) : ExceptT IoError (Interaction ReadV ReadV.Ret) (List UInt8) :=
  pathFrom tid address []

end Access

namespace Memory

/-- A C string of fewer than `left` bytes, read byte by byte. -/
def cString (memory : Memory) (address : UInt64) : Nat → Except IoError (List UInt8)
  | 0 => .error (.os Errno.enametoolong)
  | left + 1 =>
    match memory address with
    | none => .error (.os Errno.efault)
    | some b => if b = 0 then .ok [] else (cString memory (address + 1) left).map (b :: ·)

/-- Memory is mapped in pages of 4096 bytes. -/
def PageGranular (memory : Memory) : Prop :=
  ∀ a b : UInt64, a.toNat / 4096 = b.toNat / 4096 → (memory a).isSome = (memory b).isSome

variable {memory : Memory} {address : UInt64}

theorem holds_cons {b : UInt8} {bytes : List UInt8} :
    memory.Holds address (b :: bytes) ↔ memory address = some b ∧ memory.Holds (address + 1) bytes := by
  have hone : memory.Holds address [b] ↔ memory address = some b := by
    constructor
    · intro h
      exact (congrArg memory (UInt64.add_zero _)).symm.trans (h 0 b rfl)
    · intro h i c hc
      obtain ⟨hi, rfl⟩ := List.getElem?_eq_some_iff.mp hc
      cases Nat.lt_one_iff.mp hi
      exact (congrArg memory (UInt64.add_zero _)).trans h
  have happend : memory.Holds address ([b] ++ bytes) ↔ _ := holds_append
  rw [hone] at happend
  exact happend

theorem cString_succ_of_ne {b : UInt8} (h : memory address = some b) (hb : b ≠ 0) (left : Nat) :
    memory.cString address (left + 1) = (memory.cString (address + 1) left).map (b :: ·) := by
  simp only [cString, h, if_neg hb]

theorem cString_append {front : List UInt8} (hfront : memory.Holds address front) (hzero : 0 ∉ front)
    (left : Nat) :
    memory.cString address (front.length + left) =
      (memory.cString (address + UInt64.ofNat front.length) left).map (front ++ ·) := by
  induction front generalizing address with
  | nil =>
    have haddress : address + UInt64.ofNat 0 = address := UInt64.add_zero _
    rw [List.length_nil, Nat.zero_add, haddress]
    cases memory.cString address left with
    | error e => rfl
    | ok bytes => rfl
  | cons b front ih =>
    obtain ⟨hb, hfront⟩ := holds_cons.mp hfront
    rw [List.mem_cons, not_or] at hzero
    have haddress : address + 1 + UInt64.ofNat front.length =
        address + UInt64.ofNat (front.length + 1) := by
      rw [UInt64.ofNat_add, UInt64.add_assoc, UInt64.add_comm 1]
      rfl
    rw [List.length_cons, Nat.add_right_comm, cString_succ_of_ne hb (Ne.symm hzero.1),
      ih hfront hzero.2, haddress]
    cases memory.cString (address + UInt64.ofNat (front.length + 1)) left with
    | error e => rfl
    | ok bytes => rfl

theorem cString_of_hole (h : memory address = none) {left : Nat} (hleft : left ≠ 0) :
    memory.cString address left = .error (.os Errno.efault) := by
  obtain ⟨n, rfl⟩ := Nat.exists_eq_succ_of_ne_zero hleft
  simp only [cString, h]

theorem cString_of_nul (h : memory address = some 0) {left : Nat} (hleft : left ≠ 0) :
    memory.cString address left = .ok [] := by
  obtain ⟨n, rfl⟩ := Nat.exists_eq_succ_of_ne_zero hleft
  simp only [cString, h, if_pos]

/-- The text up to the first NUL. -/
theorem cString_of_text {text : List UInt8} (htext : memory.Holds address text) (hzero : 0 ∉ text)
    {left : Nat} (hleft : text.length < left)
    (hnul : memory (address + UInt64.ofNat text.length) = some 0) :
    memory.cString address left = .ok text := by
  obtain ⟨n, rfl⟩ := Nat.exists_eq_add_of_lt hleft
  rw [Nat.add_assoc, cString_append htext hzero, cString_of_nul hnul (Nat.succ_ne_zero n)]
  exact congrArg Except.ok (List.append_nil text)

/-- A byte that cannot be read comes before the first NUL. -/
theorem cString_of_fault {text : List UInt8} (htext : memory.Holds address text) (hzero : 0 ∉ text)
    {left : Nat} (hleft : text.length < left)
    (hhole : memory (address + UInt64.ofNat text.length) = none) :
    memory.cString address left = .error (.os Errno.efault) := by
  obtain ⟨n, rfl⟩ := Nat.exists_eq_add_of_lt hleft
  rw [Nat.add_assoc, cString_append htext hzero, cString_of_hole hhole (Nat.succ_ne_zero n)]
  rfl

theorem cString_of_long {text : List UInt8} (htext : memory.Holds address text)
    (hzero : 0 ∉ text) :
    memory.cString address text.length = .error (.os Errno.enametoolong) := by
  have h := cString_append htext hzero 0
  rwa [Nat.add_zero] at h

end Memory

namespace Access

open Interaction

variable {memory : Memory} {tid : UInt32} {address : UInt64}

theorem toNat_add_ofNat {address : UInt64} {n : Nat} (h : address.toNat + n < 2 ^ 64) :
    (address + UInt64.ofNat n).toNat = address.toNat + n := by
  rw [UInt64.toNat_add, UInt64.toNat_ofNat']
  omega

theorem pathChunk_page (done : Nat) (pointer : UInt64) :
    pointer.toNat % 4096 + pathChunk done pointer ≤ 4096 := by
  have hmask : pointer.toNat &&& 4095 = pointer.toNat % 4096 :=
    Nat.and_two_pow_sub_one_eq_mod _ 12
  unfold pathChunk
  rw [hmask]
  omega

theorem pathChunk_le (done : Nat) (pointer : UInt64) : pathChunk done pointer ≤ 4096 - done := by
  unfold pathChunk
  omega

theorem eq_take_append_of_findIdx? {chunk : List UInt8} {last : Nat}
    (h : chunk.findIdx? (· == 0) = some last) :
    0 ∉ chunk.take last ∧ (chunk.take last).length < chunk.length ∧
      ∃ rest, chunk = chunk.take last ++ 0 :: rest := by
  obtain ⟨hlast, hzero, hbefore⟩ := List.findIdx?_eq_some_iff_getElem.mp h
  refine ⟨?_, by rw [List.length_take]; omega, ?_⟩
  · intro hmem
    obtain ⟨j, hj, hjzero⟩ := List.mem_take_iff_getElem.mp hmem
    exact hbefore j (by omega) (beq_iff_eq.mpr hjzero)
  · refine ⟨chunk.drop (last + 1), ?_⟩
    rw [← beq_iff_eq.mp hzero, ← List.drop_eq_getElem_cons, List.take_append_drop]

/-- A chunk is read as a whole, or the page it lies in is not mapped. -/
theorem runs_readExact_page (hpages : memory.PageGranular) (htid : Memory.checkTid tid = .ok ())
    {length : Nat} (hrange : Memory.InRange address length)
    (hpage : address.toNat % 4096 + length ≤ 4096) {trace : List (Event ReadV ReadV.Ret)}
    {result : Except IoError { bytes : List UInt8 // bytes.length = length }}
    (hrun : Runs (readExact tid address length).run trace result)
    (lawful : ∀ event ∈ trace, ReadV.Lawful memory event) :
    (∃ chunk, result = .ok chunk ∧ memory.Holds address chunk.1) ∨
      result = .error (.os Errno.efault) ∧ memory address = none := by
  have hresult := runs_readExact hrun lawful
  rcases Memory.read_cases htid hrange with ⟨bytes, hread, _, hholds⟩ | ⟨i, hi, hread, hhole⟩
  · rw [hread] at hresult
    rcases result with e | chunk
    · cases hresult
    · cases Except.ok.inj hresult
      exact Or.inl ⟨chunk, rfl, hholds⟩
  · rw [hread] at hresult
    rcases result with e | chunk
    · cases Except.error.inj hresult
      have hnat := toNat_add_ofNat (show address.toNat + i < 2 ^ 64 by have := hrange.2; omega)
      have hsome := hpages address (address + UInt64.ofNat i) (by rw [hnat]; omega)
      rw [hhole, Option.isSome_none, Option.isSome_eq_false_iff, Option.isNone_iff_eq_none] at hsome
      exact Or.inr ⟨rfl, hsome⟩
    · cases hresult

theorem runs_pathFrom (hpages : memory.PageGranular) (hne : address ≠ 0)
    (hend : address.toNat + 4096 < 2 ^ 64) (htid : Memory.checkTid tid = .ok ())
    {bytes : List UInt8} {trace : List (Event ReadV ReadV.Ret)} {result : Except IoError (List UInt8)}
    (hrun : Runs (pathFrom tid address bytes).run trace result)
    (lawful : ∀ event ∈ trace, ReadV.Lawful memory event)
    (hbytes : memory.Holds address bytes) (hzero : 0 ∉ bytes) (hle : bytes.length ≤ 4096) :
    result = memory.cString address 4096 := by
  fun_induction pathFrom tid address bytes generalizing trace with
  | case1 bytes h hover => omega
  | case2 bytes h hover pointer =>
    rename_i ih
    have hpointer : pointer.toNat = address.toNat + bytes.length := toNat_add_ofNat (by omega)
    have hchunk := pathChunk_le bytes.length pointer
    have hrange : Memory.InRange pointer (pathChunk bytes.length pointer) := by
      refine ⟨fun heq => hne ?_, by omega⟩
      rw [heq] at hpointer
      have hzero : (0 : UInt64).toNat = 0 := rfl
      exact UInt64.toNat_inj.mp (by omega)
    rcases runs_andThen.mp hrun with ⟨e, hfail, rfl⟩ | ⟨front, back, chunk, rfl, hok, hrest⟩
    · rcases runs_readExact_page hpages htid hrange (pathChunk_page _ _) hfail lawful with
        ⟨chunk, hchunk, _⟩ | ⟨he, hhole⟩
      · cases hchunk
      · cases he
        exact (Memory.cString_of_fault hbytes hzero h hhole).symm
    · rcases runs_readExact_page hpages htid hrange (pathChunk_page _ _) hok
        (fun event hevent => lawful event (List.mem_append_left _ hevent)) with
        ⟨_, heq, hholds⟩ | ⟨he, _⟩
      · cases heq
        have hall := Memory.holds_append.mpr ⟨hbytes, hholds⟩
        split at hrest
        next last hlast =>
          obtain ⟨_, rfl⟩ := runs_done_iff.mp hrest
          obtain ⟨htake, hshort, rest, hsplit⟩ := eq_take_append_of_findIdx? hlast
          rw [hsplit, ← List.append_assoc] at hall
          obtain ⟨htext, hnul⟩ := Memory.holds_append.mp hall
          have hzeros : 0 ∉ bytes ++ chunk.1.take last := by simp [hzero, htake]
          have hlength : (bytes ++ chunk.1.take last).length < 4096 := by
            have := chunk.2
            rw [List.length_append]
            omega
          exact (Memory.cString_of_text htext hzeros hlength (Memory.holds_cons.mp hnul).1).symm
        next hnone =>
          have hzeros : 0 ∉ bytes ++ chunk.1 := by
            have := List.findIdx?_eq_none_iff.mp hnone
            simp only [List.mem_append, hzero, false_or]
            exact fun hmem => by simpa using this 0 hmem
          refine ih chunk hrest (fun event hevent => lawful event (List.mem_append_right _ hevent))
            hall hzeros ?_
          have := chunk.2
          rw [List.length_append]
          omega
      · cases he
  | case3 bytes h =>
    obtain ⟨_, rfl⟩ := runs_done_iff.mp hrun
    have hlong : bytes.length = 4096 := by omega
    have := Memory.cString_of_long hbytes hzero
    rw [hlong] at this
    exact this.symm

theorem runs_path (hpages : memory.PageGranular) (hne : address ≠ 0)
    (hend : address.toNat + 4096 < 2 ^ 64) {trace : List (Event ReadV ReadV.Ret)}
    {result : Except IoError (List UInt8)} (hrun : Runs (path tid address).run trace result)
    (lawful : ∀ event ∈ trace, ReadV.Lawful memory event) :
    result = (Memory.checkTid tid >>= fun _ => memory.cString address 4096) := by
  cases htid : Memory.checkTid tid with
  | error e =>
    rw [path, pathFrom, dif_pos (by simp), if_neg (by simp; omega)] at hrun
    rcases runs_andThen.mp hrun with ⟨e', hfail, rfl⟩ | ⟨front, back, chunk, rfl, hok, hrest⟩
    · have hread := runs_readExact hfail lawful
      rw [Memory.read, if_neg (pathChunk_pos (by simp) _).ne', htid] at hread
      exact hread
    · have hread := runs_readExact hok fun event hevent =>
        lawful event (List.mem_append_left _ hevent)
      rw [Memory.read, if_neg (pathChunk_pos (by simp) _).ne', htid] at hread
      cases hread
  | ok _ =>
    exact runs_pathFrom hpages hne hend htid hrun lawful (fun i b hb => by simp at hb)
      (by simp) (by simp)

/-- No call crosses the end of a page. -/
theorem performs_pathFrom (hend : address.toNat + 4096 < 2 ^ 64) (bytes : List UInt8) :
    (pathFrom tid address bytes).run.Performs fun call =>
      call.address.toNat % 4096 + call.length ≤ 4096 := by
  fun_induction pathFrom tid address bytes with
  | case1 bytes h hover => trivial
  | case2 bytes h hover pointer =>
    rename_i ih
    refine Performs.andThen ?_ fun chunk => ?_
    · have hpage := pathChunk_page bytes.length pointer
      have hpointer : pointer.toNat = address.toNat + bytes.length := toNat_add_ofNat (by omega)
      have hchunk := pathChunk_le bytes.length pointer
      refine (performs_readExact tid pointer _).mono ?_
      rintro call ⟨k, hk, rfl⟩
      have hcall := toNat_add_ofNat (show pointer.toNat + k < 2 ^ 64 by omega)
      show (pointer + UInt64.ofNat k).toNat % 4096 + (pathChunk bytes.length pointer - k) ≤ 4096
      omega
    · split
      next => trivial
      next => exact ih chunk
  | case3 bytes h => trivial

theorem path_reads_cString {memory : Memory} (hpages : memory.PageGranular) {address : UInt64}
    (hne : address ≠ 0) (hend : address.toNat + 4096 < 2 ^ 64) (tid : UInt32) :
    ((path tid address).run.Performs fun call =>
      call.address.toNat % 4096 + call.length ≤ 4096) ∧
    (∀ trace result, Runs (path tid address).run trace result →
      (∀ event ∈ trace, ReadV.Lawful memory event) →
      result = (Memory.checkTid tid >>= fun _ => memory.cString address 4096)) ∧
    (∃ trace, Runs (path tid address).run trace
        (Memory.checkTid tid >>= fun _ => memory.cString address 4096) ∧
      ∀ event ∈ trace, ReadV.Lawful memory event) ∧
    (∀ text, text.length < 4096 → 0 ∉ text → memory.Holds address text →
      memory (address + UInt64.ofNat text.length) = some 0 →
      memory.cString address 4096 = .ok text) ∧
    (∀ text, text.length < 4096 → 0 ∉ text → memory.Holds address text →
      memory (address + UInt64.ofNat text.length) = none →
      memory.cString address 4096 = .error (.os Errno.efault)) ∧
    ∀ text, text.length = 4096 → 0 ∉ text → memory.Holds address text →
      memory.cString address 4096 = .error (.os Errno.enametoolong) := by
  refine ⟨performs_pathFrom hend [], fun trace result => runs_path hpages hne hend, ?_, ?_, ?_, ?_⟩
  · have hperforms : (path tid address).run.Performs _ := performs_pathFrom hend []
    obtain ⟨trace, result, hrun, lawful⟩ :=
      hperforms.exists_runs fun call _ => ReadV.exists_lawful memory call
    rw [← runs_path hpages hne hend hrun lawful]
    exact ⟨trace, hrun, lawful⟩
  · exact fun text hlength hzero htext => Memory.cString_of_text htext hzero hlength
  · exact fun text hlength hzero htext => Memory.cString_of_fault htext hzero hlength
  · intro text hlength hzero htext
    rw [← hlength]
    exact Memory.cString_of_long htext hzero

/-- One mapped page whose last byte is a NUL. -/
def onePage : Memory := fun address =>
  if address.toNat / 4096 = 1 then some (if address.toNat = 8191 then 0 else 97) else none

/-- The pathname ends with the page and the next page is not mapped. -/
theorem path_onePage : ∃ trace, Runs (path 1 8189).run trace (.ok [97, 97]) := by
  have hpages : onePage.PageGranular := by
    intro a b h
    simp only [onePage, h]
    split <;> rfl
  have hholds : onePage.Holds 8189 [97, 97] := by
    rw [Memory.holds_cons, Memory.holds_cons]
    exact ⟨by decide, by decide, fun i b hb => by simp at hb⟩
  obtain ⟨_, _, ⟨trace, hrun, _⟩, htext, _⟩ :=
    path_reads_cString hpages (show (8189 : UInt64) ≠ 0 by decide) (by decide) 1
  refine ⟨trace, ?_⟩
  rwa [htext [97, 97] (by decide) (by decide) hholds (by decide)] at hrun

end Access

end Scproxy
