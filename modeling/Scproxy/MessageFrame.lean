import Scproxy.Datagram
import Scproxy.MemoryStores

namespace Scproxy

open Interaction

theorem toNe_length (width n : Nat) : (toNe width n).length = width := by
  simp [toNe]

theorem addressBytes_length (address : SocketAddrV4) : (addressBytes address).length = 16 := rfl

namespace Memory

variable {memory : Memory} {tid : UInt32}

theorem length_of_read {address : UInt64} {length : Nat} {bytes : List UInt8}
    (h : memory.read tid address length = .ok bytes) : bytes.length = length := by
  unfold read at h
  split at h
  next hzero =>
    cases h
    exact hzero.symm
  next =>
    obtain ⟨_, _, h⟩ := bind_eq_ok.mp h
    split at h
    next => cases h
    next =>
      split at h
      next bytes' hbytes =>
        cases h
        have hmap := congrArg List.length (mapM_eq_some_iff.mp hbytes)
        simpa using hmap.symm
      next => cases h

/-- The bytes of a vector that `read_exact` can read. -/
def Readable (memory : Memory) (tid : UInt32) (vector : UInt64 × Nat) (bytes : List UInt8) : Prop :=
  bytes.length = vector.2 ∧ (bytes ≠ [] → checkTid tid = .ok () ∧ InRange vector.1 vector.2 ∧
    memory.Holds vector.1 bytes)

theorem Readable.read {vector : UInt64 × Nat} {bytes : List UInt8}
    (h : memory.Readable tid vector bytes) : memory.read tid vector.1 vector.2 = .ok bytes := by
  obtain ⟨hlength, hreadable⟩ := h
  by_cases hempty : bytes = []
  · rw [hempty] at hlength ⊢
    exact if_pos hlength.symm
  · obtain ⟨htid, hrange, hholds⟩ := hreadable hempty
    rw [← hlength] at hrange ⊢
    exact read_of_holds htid hrange hholds

end Memory

namespace Message

/-- The bytes that the vectors hold together. -/
def size (vectors : List (UInt64 × Nat)) : Nat := (vectors.map Prod.snd).sum

/-- The addresses of the vectors, one after another. -/
def addresses (vectors : List (UInt64 × Nat)) : List UInt64 :=
  vectors.flatMap fun vector => Memory.addresses vector.1 vector.2

/-- The loop of `read_payload` over the slices of its buffer. -/
def fill (memory : Memory) (tid : UInt32) :
    List (UInt64 × Nat) → List UInt8 → Nat → Except Panic (Except IoError (List UInt8))
  | [], data, _ => .ok (.ok data)
  | (address, length) :: vectors, data, offset => do
    let target ← slice data offset (offset + length)
    match memory.read tid address target.length with
    | .error error => .ok (.error error)
    | .ok bytes =>
      fill memory tid vectors (data.take offset ++ bytes ++ data.drop (offset + length))
        (offset + length)

/-- `read_payload` with the buffer that it fills. -/
def readPayloadInto (message : Message) (memory : Memory) (tid : UInt32) :
    Except Panic (Except IoError (List UInt8)) :=
  match message.capacity with
  | .error error => .ok (.error error)
  | .ok size =>
    if 65507 < size then .ok (.error (.os Errno.emsgsize))
    else fill memory tid message.vectors (List.replicate size 0) 0

variable {memory : Memory} {tid : UInt32} {message : Message} {vectors : List (UInt64 × Nat)}

theorem size_cons (vector : UInt64 × Nat) (vectors : List (UInt64 × Nat)) :
    size (vector :: vectors) = vector.2 + size vectors := by
  rw [size, List.map_cons, List.sum_cons]
  rfl

theorem addresses_length (vectors : List (UInt64 × Nat)) :
    (addresses vectors).length = size vectors := by
  induction vectors with
  | nil => rfl
  | cons vector vectors ih =>
    rw [size_cons, addresses, List.flatMap_cons, List.length_append, Memory.addresses_length, ← ih]
    rfl

theorem capacity_fold (vectors : List (UInt64 × Nat)) {done : Nat} (hdone : done ≤ 2 ^ 63 - 1) :
    (vectors.foldlM (fun size vector =>
      if size + vector.2 ≤ 2 ^ 63 - 1 then .ok (size + vector.2)
      else .error (.os Errno.einval)) done : Except IoError Nat) =
    if done + size vectors ≤ 2 ^ 63 - 1 then .ok (done + size vectors)
    else .error (.os Errno.einval) := by
  induction vectors generalizing done with
  | nil => exact (if_pos hdone).symm
  | cons vector vectors ih =>
    rw [List.foldlM_cons, size_cons, ← Nat.add_assoc]
    by_cases hfits : done + vector.2 ≤ 2 ^ 63 - 1
    · rw [if_pos hfits]
      exact ih hfits
    · rw [if_neg hfits, if_neg (by omega)]
      rfl

theorem capacity_eq (message : Message) :
    message.capacity = if size message.vectors ≤ 2 ^ 63 - 1 then .ok (size message.vectors)
      else .error (.os Errno.einval) := by
  have h := capacity_fold message.vectors (Nat.zero_le _)
  rwa [Nat.zero_add] at h

/-- The bytes of vectors, one after another. -/
def readVectors (memory : Memory) (tid : UInt32) (done : List UInt8)
    (vectors : List (UInt64 × Nat)) : Except IoError (List UInt8) :=
  vectors.foldlM (fun data vector => do .ok (data ++ (← memory.read tid vector.1 vector.2))) done

theorem readPayload_eq (message : Message) (memory : Memory) (tid : UInt32) :
    message.readPayload memory tid =
      if 2 ^ 63 - 1 < size message.vectors then .error (.os Errno.einval)
      else if 65507 < size message.vectors then .error (.os Errno.emsgsize)
      else readVectors memory tid [] message.vectors := by
  rw [readPayload, capacity_eq]
  by_cases hfits : size message.vectors ≤ 2 ^ 63 - 1
  · rw [if_pos hfits, if_neg (by omega)]
    rfl
  · rw [if_neg hfits, if_pos (by omega)]
    rfl

/-- The slices of the buffer are taken in bounds, and filled one after another. -/
theorem fill_eq {done rest : List UInt8} (h : rest.length = size vectors) :
    fill memory tid vectors (done ++ rest) done.length = .ok (readVectors memory tid done vectors) := by
  induction vectors generalizing done rest with
  | nil =>
    rw [List.length_eq_zero_iff.mp h, List.append_nil]
    rfl
  | cons vector vectors ih =>
    obtain ⟨address, length⟩ := vector
    rw [size_cons] at h
    have hlength : (rest.take length).length = length := by
      rw [List.length_take]
      omega
    have hslice : slice (done ++ rest) done.length (done.length + length) = .ok (rest.take length) := by
      rw [slice_eq (Nat.le_add_right _ _) (by rw [List.length_append]; omega), List.drop_left,
        Nat.add_sub_cancel_left]
    rw [fill, hslice]
    refine bind_eq_ok.mpr ⟨_, rfl, ?_⟩
    rw [hlength, readVectors, List.foldlM_cons]
    cases hread : memory.read tid address length with
    | error error => rfl
    | ok bytes =>
      have hbytes := Memory.length_of_read hread
      have hnext := @ih (done ++ bytes) (rest.drop length) (by rw [List.length_drop]; omega)
      rw [List.length_append, hbytes] at hnext
      dsimp only
      rw [List.take_left, ← List.drop_drop, List.drop_left, hnext]
      rfl

theorem readPayloadInto_eq (message : Message) (memory : Memory) (tid : UInt32) :
    message.readPayloadInto memory tid = .ok (message.readPayload memory tid) := by
  rw [readPayload_eq, readPayloadInto, capacity_eq]
  by_cases hfits : size message.vectors ≤ 2 ^ 63 - 1
  · rw [if_pos hfits, if_neg (by omega)]
    dsimp only
    split
    next => rfl
    next => exact @fill_eq memory tid message.vectors [] _ List.length_replicate
  · rw [if_neg hfits, if_pos (by omega)]

theorem readVectors_of_readable {done : List UInt8} {parts : List (List UInt8)}
    (h : List.Forall₂ (memory.Readable tid) vectors parts) :
    readVectors memory tid done vectors = .ok (done ++ parts.flatten) := by
  induction h generalizing done with
  | nil => exact congrArg Except.ok (List.append_nil _).symm
  | @cons vector part vectors parts hpart _ ih =>
    rw [readVectors, List.foldlM_cons, hpart.read, List.flatten_cons, ← List.append_assoc]
    exact ih

theorem runs_writeVectors {bytes : List UInt8} {trace : List (Event Operation Operation.Ret)}
    {result : Except IoError Unit} {stored : List (UInt64 × UInt8)}
    (hrun : Runs (writeVectors tid vectors bytes).run trace result) (hstored : Stored trace stored) :
    stored <+: (addresses vectors).zip bytes ∧
      (result = .ok () → stored = (addresses vectors).zip bytes) := by
  induction vectors generalizing bytes trace stored with
  | nil =>
    obtain ⟨rfl, rfl⟩ := runs_done_iff.mp hrun
    rw [show stored = [] from hstored]
    exact ⟨List.nil_prefix, fun _ => rfl⟩
  | cons vector vectors ih =>
    obtain ⟨pointer, length⟩ := vector
    have hsplit : (addresses ((pointer, length) :: vectors)).zip bytes =
        Memory.stores pointer (bytes.take length) ++ (addresses vectors).zip (bytes.drop length) := by
      rw [addresses, List.flatMap_cons, zip_append_left, Memory.addresses_length,
        Memory.zip_addresses (List.length_take_le _ _)]
      rfl
    rw [hsplit]
    rcases runs_andThen.mp hrun with ⟨e, hwrite, rfl⟩ | ⟨front, back, _, rfl, hwrite, hrest⟩
    · cases runs_single_iff.mp hwrite
      obtain ⟨first, last, rfl, hfirst, rfl⟩ := hstored
      rw [List.append_nil]
      exact ⟨hfirst.1.trans (List.prefix_append _ _), fun h => nomatch h⟩
    · cases runs_single_iff.mp hwrite
      obtain ⟨first, last, rfl, hfirst, hlast⟩ := hstored
      obtain rfl := hfirst.2 rfl
      split at hrest
      next hempty =>
        obtain ⟨rfl, rfl⟩ := runs_done_iff.mp hrest
        rw [hempty, List.zip_nil_right, show last = [] from hlast]
        exact ⟨List.prefix_rfl, fun _ => rfl⟩
      next =>
        obtain ⟨hpre, hok⟩ := ih hrest hlast
        refine ⟨(List.prefix_append_right_inj _).mpr hpre, fun hresult => ?_⟩
        rw [hok hresult]

/-- What a receive may change. -/
def Writable (message : Message) (address : UInt64) : Prop :=
  address ∈ addresses message.vectors ∨
  address ∈ Memory.addresses message.name (min 16 message.nameLength.toNat) ∨
  (∃ pointer, message.lengthPointer = some pointer ∧ address ∈ Memory.addresses pointer 4) ∨
  address ∈ Memory.addresses message.control message.controlLength ∨
  ∃ header, message.header = some header ∧
    (address ∈ Memory.addresses (header + 8) 4 ∨ address ∈ Memory.addresses (header + 40) 8 ∨
      address ∈ Memory.addresses (header + 48) 4)

section Within

variable {region : UInt64 → Prop}

theorem within_write {field : Field} {pointer : UInt64} {bytes : List UInt8} {length : Nat}
    (hlength : bytes.length ≤ length) (h : ∀ address ∈ Memory.addresses pointer length, region address) :
    (Act.write field tid pointer bytes).run.Performs (Operation.Within region) :=
  ⟨fun address hmem => h address (Memory.mem_addresses_of_le hlength hmem), fun _ => trivial⟩

theorem within_writeVectors {bytes : List UInt8}
    (h : ∀ address ∈ addresses vectors, region address) :
    (writeVectors tid vectors bytes).run.Performs (Operation.Within region) := by
  induction vectors generalizing bytes with
  | nil => trivial
  | cons vector vectors ih =>
    rw [addresses, List.flatMap_cons, List.forall_mem_append] at h
    refine Performs.andThen (within_write (List.length_take_le _ _) h.1) fun _ => ?_
    split
    next => trivial
    next => exact ih h.2

end Within

theorem within_finishName (message : Message) (tid : UInt32) (source : SocketAddrV4) :
    (message.finishName tid source).run.Performs (Operation.Within message.Writable) := by
  unfold finishName Memory.putAddress
  split
  next =>
    split
    next => trivial
    next =>
      refine within_write ?_ fun address hmem => Or.inr (Or.inl hmem)
      rw [List.length_take, addressBytes_length]
      omega
  next => trivial

theorem within_finishLength (message : Message) (tid : UInt32) :
    (message.finishLength tid).run.Performs (Operation.Within message.Writable) := by
  unfold finishLength
  split
  next pointer hpointer =>
    refine within_write (toNe_length _ _).le fun address hmem => ?_
    exact Or.inr (Or.inr (Or.inl ⟨pointer, hpointer, hmem⟩))
  next => trivial

theorem within_finishHeader {header : UInt64} (hheader : message.header = some header)
    {control : List UInt8} (hcontrol : control.length ≤ message.controlLength) (flags : UInt32) :
    (message.finishHeader tid header control flags).run.Performs
      (Operation.Within message.Writable) := by
  have hfield : ∀ address, (address ∈ Memory.addresses (header + 8) 4 ∨
      address ∈ Memory.addresses (header + 40) 8 ∨ address ∈ Memory.addresses (header + 48) 4) →
      message.Writable address :=
    fun address hmem => Or.inr (Or.inr (Or.inr (Or.inr ⟨header, hheader, hmem⟩)))
  have hbuffer : ∀ address ∈ Memory.addresses message.control message.controlLength,
      message.Writable address :=
    fun address hmem => Or.inr (Or.inr (Or.inr (Or.inl hmem)))
  refine Performs.andThen (within_write (toNe_length _ _).le fun address hmem =>
    hfield address (Or.inl hmem)) fun _ => ?_
  refine Performs.andThen (within_write hcontrol hbuffer) fun _ => ?_
  refine Performs.andThen (within_write (toNe_length _ _).le fun address hmem =>
    hfield address (Or.inr (Or.inl hmem))) fun _ => ?_
  exact within_write (toNe_length _ _).le fun address hmem => hfield address (Or.inr (Or.inr hmem))

/-- A receive writes to the buffers of its message only, even one that fails on the way. -/
theorem within_deliver {received : Received}
    (hcontrol : received.control.length ≤ message.controlLength) :
    (Datagram.deliver tid message received).run.Performs (Operation.Within message.Writable) := by
  refine Performs.andThen ⟨trivial, fun _ => trivial⟩ fun _ => ?_
  refine Performs.andThen (within_writeVectors fun address hmem => Or.inl hmem) fun _ => ?_
  refine Performs.andThen ⟨trivial, fun _ => trivial⟩ fun original => ?_
  refine Performs.andThen (within_finishName message tid _) fun _ => ?_
  refine Performs.andThen (within_finishLength message tid) fun _ => ?_
  split
  next header hheader => exact within_finishHeader hheader hcontrol _
  next => trivial

theorem copies_within_buffers (memory : Memory) (tid : UInt32) (message : Message) :
    message.readPayloadInto memory tid = .ok (message.readPayload memory tid) ∧
    (2 ^ 63 - 1 < size message.vectors →
      message.readPayload memory tid = .error (.os Errno.einval)) ∧
    (65507 < size message.vectors → size message.vectors ≤ 2 ^ 63 - 1 →
      message.readPayload memory tid = .error (.os Errno.emsgsize)) ∧
    (∀ parts, size message.vectors ≤ 65507 →
      List.Forall₂ (memory.Readable tid) message.vectors parts →
      message.readPayload memory tid = .ok parts.flatten) ∧
    (∀ bytes trace result stored, bytes.length ≤ size message.vectors →
      Runs (message.writePayload tid bytes).run trace result → Stored trace stored →
      stored <+: (addresses message.vectors).zip bytes ∧
      (result = .ok () → stored.map Prod.fst = (addresses message.vectors).take bytes.length ∧
        stored.map Prod.snd = bytes)) ∧
    ∀ received trace result stored, received.control.length ≤ message.controlLength →
      Runs (Datagram.deliver tid message received).run trace result → Stored trace stored →
      ∀ address, memory.put stored address ≠ memory address → message.Writable address := by
  refine ⟨readPayloadInto_eq message memory tid, ?_, ?_, ?_, ?_, ?_⟩
  · intro h
    rw [readPayload_eq, if_pos h]
  · intro h hfits
    rw [readPayload_eq, if_neg (by omega), if_pos h]
  · intro parts h hparts
    rw [readPayload_eq, if_neg (by omega), if_neg (by omega), readVectors_of_readable hparts]
    rfl
  · intro bytes trace result stored hbytes hrun hstored
    obtain ⟨hpre, hok⟩ := runs_writeVectors hrun hstored
    refine ⟨hpre, fun hresult => ?_⟩
    rw [hok hresult]
    have hlength := addresses_length message.vectors
    refine ⟨?_, List.map_snd_zip (by omega)⟩
    nth_rewrite 1 [← List.take_append_drop bytes.length (addresses message.vectors)]
    rw [zip_append_left, List.length_take, Nat.min_eq_left (by omega), List.take_length,
      List.drop_length, List.zip_nil_right, List.append_nil, List.map_fst_zip (by simp)]
  · intro received trace result stored hcontrol hrun hstored address hne
    by_contra hwritable
    apply hne
    apply Memory.put_of_not_mem
    rintro store hstore rfl
    exact hwritable (hstored.within ((within_deliver hcontrol).runs hrun) store hstore)

end Message

end Scproxy
