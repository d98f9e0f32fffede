import Scproxy.DatagramTransfer

namespace Scproxy

open Interaction

namespace Datagram

section Dispatch

variable (arch : Arch) (attempted : Nat) (memory : Memory) (memoryAt : Nat → Memory)
  (notification : Notification)

/-- One entry of the loop: its message is decoded and transferred. -/
def entry (deadline : Option Nat) (index : Nat) (header : UInt64) : Act Nat := do
  let message ← Act.ofExcept (message arch memory notification header)
  transfer attempted memory notification.pid message (currentFlags arch notification index) deadline
    (receive arch notification)

/-- The loop over the messages, where the memory may change from one to the next. -/
def entries (deadline : Option Nat) : (remaining index : Nat) → Act (Reply ⊕ Progress)
  | 0, completed => pure (.inr ⟨completed, .ok (.value 0)⟩)
  | remaining + 1, index => do
    match headerPointer notification index with
    | none => throw (.os Errno.efault)
    | some header => do
      let operation ← Interaction.attempt
        (entry arch attempted (memoryAt index) notification deadline index header)
      match operation with
      | .error error => pure (.inr ⟨index, .error error⟩)
      | .ok length =>
        if !batch arch notification then pure (.inl (.value length))
        else do
          Act.valid
          let written ← Interaction.attempt
            (Act.write .messageLength notification.pid (header + 56) (toNe 4 length))
          match written with
          | .error error => pure (.inr ⟨index, .error error⟩)
          | .ok () => entries deadline remaining (index + 1)

/-- `transferAll`, where the timeout is read from `memory` and each message from its own one. -/
def transferEach : Act Reply := do
  Act.asyncFd
  let socketDeadline ← socketDeadline arch notification
  let batchDeadline ← batchDeadline arch memory notification
  match ← entries arch attempted memoryAt notification (earlier socketDeadline batchDeadline)
    (count arch notification) 0 with
  | .inl reply => pure reply
  | .inr progress => do
    let timedOut ← settleTimeout notification batchDeadline progress
    if timedOut then pure (.value 0)
    else if 0 < progress.completed then pure (.value progress.completed)
    else Act.ofExcept progress.result

theorem entries_const (deadline : Option Nat) (remaining index : Nat) :
    entries arch attempted (fun _ => memory) notification deadline remaining index =
      messages arch attempted memory notification deadline remaining index := by
  induction remaining generalizing index with
  | zero => rfl
  | succ remaining ih =>
    rw [entries]
    simp only [ih]
    rfl

/-- With one memory for the whole call this is the model of `dispatch`. -/
theorem transferEach_const :
    transferEach arch attempted memory (fun _ => memory) notification =
      transferAll arch attempted memory notification := by
  rw [transferEach]
  simp only [entries_const]
  rfl

end Dispatch

section Entries

/-- The batch is received, not sent. -/
def receives (arch : Arch) (notification : Notification) : Bool :=
  call notification == arch.number .recvmmsg

/-- The most entries of a batch. -/
def batchLength (notification : Notification) : Nat :=
  min (Data.low (notification.data.args 2)).toNat 1024

/-- The flags of a batch, without `MSG_WAITFORONE`. -/
def batchFlags (notification : Notification) : UInt32 :=
  Data.low (notification.data.args 3) &&& ~~~Libc.msgWaitforone

/-- The address of an entry. -/
def entryPointer (notification : Notification) (index : Nat) : UInt64 :=
  notification.data.args 1 + UInt64.ofNat (index * 64)

/-- With `MSG_WAITFORONE` only the first entry of a receive may wait. -/
def WaitsForOne (arch : Arch) (notification : Notification) (index : Nat)
    (trace : List (Event Operation Operation.Ret)) : Prop :=
  0 < index → receives arch notification = true →
    Data.low (notification.data.args 3) &&& Libc.msgWaitforone ≠ 0 →
    ∀ direction answer, ⟨.ready direction, answer⟩ ∉ trace

/-- The message of an entry was transferred, and its length was written. -/
structure EntryDone (arch : Arch) (memory : Memory) (notification : Notification) (index : Nat)
    (trace : List (Event Operation Operation.Ret)) (length : Nat) : Prop where
  moved : ∃ message moved,
    Message.headerAt memory notification.pid (entryPointer notification index) = .ok message ∧
    Moved memory notification.pid message (batchFlags notification) (receives arch notification)
      trace length moved ∧
    effects trace = moved ++
      [.recorded notification.pid (entryPointer notification index + 56) (toNe 4 length)]
  waits : WaitsForOne arch notification index trace

/-- An entry cannot be decoded, its message cannot be transferred, or its length cannot be
written. Nothing but its own message may have been moved. -/
structure EntryFails (arch : Arch) (memory : Memory) (notification : Notification) (index : Nat)
    (trace : List (Event Operation Operation.Ret)) (error : IoError) : Prop where
  cause :
    Message.headerAt memory notification.pid (entryPointer notification index) = .error error ∨
    ∃ message,
      Message.headerAt memory notification.pid (entryPointer notification index) = .ok message ∧
      TransferFails memory notification.pid message (receives arch notification) trace error
  begins : effects trace = [] ∨ ∃ message length moved,
    Message.headerAt memory notification.pid (entryPointer notification index) = .ok message ∧
    Moved memory notification.pid message (batchFlags notification) (receives arch notification)
      trace length moved ∧
    effects trace <+: moved
  waits : WaitsForOne arch notification index trace

/-- Entries that are done one after another, with the lengths of their datagrams. -/
inductive Completed (arch : Arch) (memoryAt : Nat → Memory) (notification : Notification) :
    Nat → List (Event Operation Operation.Ret) → List Nat → Prop
  | nil (index : Nat) : Completed arch memoryAt notification index [] []
  | cons {index length : Nat} {front back : List (Event Operation Operation.Ret)}
    {lengths : List Nat} (head : EntryDone arch (memoryAt index) notification index front length)
    (tail : Completed arch memoryAt notification (index + 1) back lengths) :
    Completed arch memoryAt notification index (front ++ back) (length :: lengths)

end Entries

variable {arch : Arch} {attempted : Nat} {memory : Memory} {memoryAt : Nat → Memory}
  {notification : Notification} {deadline : Option Nat} {index length : Nat}
  {trace : List (Event Operation Operation.Ret)}

theorem calls_of_batch (h : batch arch notification = true) :
    call notification = arch.number .sendmmsg ∨ call notification = arch.number .recvmmsg := by
  simpa [batch] using h

theorem receive_of_batch (h : batch arch notification = true) :
    receive arch notification = receives arch notification := by
  rcases calls_of_batch h with hcall | hcall
  · rw [receive, receives, hcall]
    cases arch <;> decide
  · rw [receive, receives, hcall]
    cases arch <;> decide

theorem flat_of_batch (h : batch arch notification = true) : flat arch notification = false := by
  rcases calls_of_batch h with hcall | hcall
  · rw [flat, hcall]
    cases arch <;> decide
  · rw [flat, hcall]
    cases arch <;> decide

theorem flags_of_batch (h : batch arch notification = true) :
    flags arch notification = Data.low (notification.data.args 3) := by
  rw [flags, h, Bool.or_true, if_pos rfl]

theorem count_of_batch (h : batch arch notification = true) :
    count arch notification = batchLength notification := by
  rw [count, h, if_pos rfl, batchLength]

theorem or_and_distrib_right (a b c : UInt32) : (a ||| b) &&& c = (a &&& c) ||| (b &&& c) := by
  apply UInt32.toNat_inj.mp
  simp only [UInt32.toNat_and, UInt32.toNat_or]
  exact Nat.and_or_distrib_right _ _ _

theorem currentFlags_waitforone (arch : Arch) (notification : Notification) (index : Nat) :
    currentFlags arch notification index &&& Libc.msgWaitforone = 0 := by
  unfold currentFlags
  rw [UInt32.and_assoc, show ~~~Libc.msgWaitforone &&& Libc.msgWaitforone = 0 from by decide,
    UInt32.and_zero]

theorem currentFlags_dontwait {index : Nat} (hindex : 0 < index)
    (hreceive : receive arch notification = true)
    (hflags : flags arch notification &&& Libc.msgWaitforone ≠ 0) :
    currentFlags arch notification index &&& Libc.msgDontwait ≠ 0 := by
  have hmask : ~~~Libc.msgWaitforone &&& Libc.msgDontwait = Libc.msgDontwait := by decide
  unfold currentFlags
  dsimp only
  rw [if_pos ⟨hindex, hreceive, hflags⟩, UInt32.and_assoc, hmask, or_and_distrib_right,
    UInt32.and_self]
  intro hzero
  exact absurd (UInt32.or_eq_zero_iff.mp hzero).2 (by decide)

/-- Whatever `MSG_WAITFORONE` does to the flags, the kernel is told not to wait. -/
theorem currentFlags_or_dontwait (h : batch arch notification = true) :
    currentFlags arch notification index ||| Libc.msgDontwait =
      batchFlags notification ||| Libc.msgDontwait := by
  have hmask : Libc.msgDontwait &&& ~~~Libc.msgWaitforone = Libc.msgDontwait := by decide
  unfold currentFlags batchFlags
  rw [flags_of_batch h]
  dsimp only
  split
  next => rw [or_and_distrib_right, hmask, UInt32.or_assoc, UInt32.or_self]
  next => rfl

theorem Moved.flags {tid : UInt32} {message : Message} {flags flags' : UInt32} {receive : Bool}
    {moved : List Effect} (h : Moved memory tid message flags receive trace length moved)
    (hflags : flags ||| Libc.msgDontwait = flags' ||| Libc.msgDontwait) :
    Moved memory tid message flags' receive trace length moved := by
  cases h with
  | sent length hreceive hpayload hlength hcontrol hdestination =>
    rw [hflags]
    exact .sent length hreceive hpayload hlength hcontrol hdestination
  | received datagram hreceive hcapacity =>
    rw [hflags]
    exact .received datagram hreceive hcapacity

theorem transfers_entry {header : UInt64} :
    (entry arch attempted memory notification deadline index header).run.Performs
      (Transfers (currentFlags arch notification index)) :=
  Performs.andThen trivial fun _ => transfers_transfer

/-- What an entry does before its length is written. -/
theorem runs_entry (hbatch : batch arch notification = true) {result : Except IoError Nat}
    (hrun : Runs (entry arch attempted memory notification deadline index
      (entryPointer notification index)).run trace result) :
    (∃ error, result = .error error ∧ effects trace = [] ∧
      Message.headerAt memory notification.pid (entryPointer notification index) = .error error) ∨
    ∃ message,
      Message.headerAt memory notification.pid (entryPointer notification index) = .ok message ∧
      Transferred memory notification.pid message (currentFlags arch notification index)
        (receives arch notification) trace result := by
  have hmessage : message arch memory notification (entryPointer notification index) =
      Message.headerAt memory notification.pid (entryPointer notification index) := by
    rw [message, flat_of_batch hbatch]
    rfl
  unfold entry at hrun
  rw [hmessage, receive_of_batch hbatch] at hrun
  rcases runs_andThen.mp hrun with ⟨error, hread, rfl⟩ | ⟨_, _, decoded, rfl, hread, htransfer⟩
  · obtain ⟨rfl, herror⟩ := runs_done_iff.mp hread
    exact .inl ⟨error, rfl, rfl, herror.symm⟩
  · obtain ⟨rfl, hdecoded⟩ := runs_done_iff.mp hread
    exact .inr ⟨decoded, hdecoded.symm, runs_transfer htransfer⟩

theorem waitsForOne_entry (hbatch : batch arch notification = true) {header : UInt64}
    {result : Except IoError Nat}
    (hrun : Runs (entry arch attempted memory notification deadline index header).run trace
      result) : WaitsForOne arch notification index trace := by
  intro hindex hreceives hflags direction answer hmem
  have htransfers := transfers_entry.runs hrun _ hmem
  rw [← receive_of_batch hbatch] at hreceives
  rw [← flags_of_batch hbatch] at hflags
  exact currentFlags_dontwait hindex hreceives hflags htransfers

/-- The length of an entry is written to its place. -/
def recording (notification : Notification) (index length : Nat) (answer : Except IoError Unit) :
    List (Event Operation Operation.Ret) :=
  [⟨.valid, .ok ()⟩, ⟨.write .messageLength notification.pid
    (entryPointer notification index + 56) (toNe 4 length), answer⟩]

theorem WaitsForOne.recording {answer : Except IoError Unit}
    (h : WaitsForOne arch notification index trace) :
    WaitsForOne arch notification index (trace ++ recording notification index length answer) := by
  intro hindex hreceives hflags direction given hmem
  rcases List.mem_append.mp hmem with hmem | hmem
  · exact h hindex hreceives hflags direction given hmem
  · simp [Datagram.recording] at hmem

theorem entryDone_of_runs (hbatch : batch arch notification = true)
    (hrun : Runs (entry arch attempted memory notification deadline index
      (entryPointer notification index)).run trace (.ok length)) :
    EntryDone arch memory notification index
      (trace ++ recording notification index length (.ok ())) length := by
  refine ⟨?_, (waitsForOne_entry hbatch hrun).recording⟩
  rcases runs_entry hbatch hrun with ⟨_, heq, _⟩ | ⟨message, hmessage, htransferred⟩
  · cases heq
  · have hmoved := (htransferred.ok length rfl).flags (currentFlags_or_dontwait hbatch)
    refine ⟨message, effects trace, hmessage, hmoved.mono (List.subset_append_left _ _), ?_⟩
    rw [effects_append]
    rfl

theorem entryFails_of_runs (hbatch : batch arch notification = true) {error : IoError}
    (hrun : Runs (entry arch attempted memory notification deadline index
      (entryPointer notification index)).run trace (.error error)) :
    EntryFails arch memory notification index trace error := by
  rcases runs_entry hbatch hrun with
    ⟨_, heq, heffects, hheader⟩ | ⟨message, hmessage, htransferred⟩
  · cases heq
    exact ⟨.inl hheader, .inl heffects, waitsForOne_entry hbatch hrun⟩
  · refine ⟨.inr ⟨message, hmessage, htransferred.error error rfl⟩, ?_,
      waitsForOne_entry hbatch hrun⟩
    refine htransferred.begins.imp_right fun ⟨length, moved, hmoved, hbegins⟩ => ?_
    exact ⟨message, length, moved, hmessage, hmoved.flags (currentFlags_or_dontwait hbatch), hbegins⟩

/-- The message of the entry was moved, but its length could not be written. -/
theorem entryFails_of_recording (hbatch : batch arch notification = true) {error : IoError}
    (hrun : Runs (entry arch attempted memory notification deadline index
      (entryPointer notification index)).run trace (.ok length)) :
    EntryFails arch memory notification index
      (trace ++ recording notification index length (.error error)) error := by
  rcases runs_entry hbatch hrun with ⟨_, heq, _⟩ | ⟨message, hmessage, htransferred⟩
  · cases heq
  · have hmoved := (htransferred.ok length rfl).flags (currentFlags_or_dontwait hbatch)
    refine ⟨.inr ⟨message, hmessage, .operation (getLast?_failures_append rfl)⟩,
      .inr ⟨message, length, effects trace, hmessage,
        hmoved.mono (List.subset_append_left _ _), ?_⟩,
      (waitsForOne_entry hbatch hrun).recording⟩
    have hsame : effects (trace ++ recording notification index length (.error error)) =
        effects trace := by
      rw [effects_append]
      exact List.append_nil _
    exact hsame ▸ List.prefix_rfl

/-- The notification stays valid in the run. -/
def StaysValid (trace : List (Event Operation Operation.Ret)) : Prop :=
  ∀ answer, ⟨.valid, answer⟩ ∈ trace → answer = .ok ()

theorem StaysValid.append {front back : List (Event Operation Operation.Ret)}
    (h : StaysValid (front ++ back)) : StaysValid front ∧ StaysValid back :=
  ⟨fun answer hmem => h answer (List.mem_append_left _ hmem),
    fun answer hmem => h answer (List.mem_append_right _ hmem)⟩

theorem headerPointer_eq_some (h : (notification.data.args 1).toNat + index * 64 < 2 ^ 64) :
    headerPointer notification index = some (entryPointer notification index) := by
  rw [headerPointer, if_pos h, entryPointer]

/-- One turn of the loop: the entry fails and the loop stops, or it is done and the next follows. -/
theorem runs_entries_succ (hbatch : batch arch notification = true) {remaining : Nat}
    (hwrap : (notification.data.args 1).toNat + index * 64 < 2 ^ 64)
    {result : Except IoError (Reply ⊕ Progress)}
    (hrun : Runs (entries arch attempted memoryAt notification deadline (remaining + 1) index).run
      trace result) (hvalid : StaysValid trace) :
    (∃ error, EntryFails arch (memoryAt index) notification index trace error ∧
      result = .ok (.inr ⟨index, .error error⟩)) ∨
    ∃ front back length, trace = front ++ back ∧
      EntryDone arch (memoryAt index) notification index front length ∧
      Runs (entries arch attempted memoryAt notification deadline remaining (index + 1)).run back
        result := by
  unfold entries at hrun
  rw [headerPointer_eq_some hwrap] at hrun
  rcases runs_andThen.mp hrun with ⟨e, hentry, _⟩ | ⟨front, back, outcome, rfl, hentry, hrest⟩
  · obtain ⟨_, heq, _⟩ := runs_attempt.mp hentry
    cases heq
  obtain ⟨_, heq, hentry⟩ := runs_attempt.mp hentry
  cases heq
  cases outcome with
  | error error =>
    obtain ⟨rfl, rfl⟩ := runs_done_iff.mp hrest
    rw [List.append_nil]
    exact .inl ⟨error, entryFails_of_runs hbatch hentry, rfl⟩
  | ok length =>
    dsimp only at hrest
    rw [hbatch] at hrest
    rcases runs_andThen.mp hrest with ⟨e, hstale, _⟩ | ⟨check, tail, _, rfl, hcheck, hwrite⟩
    · cases runs_single_iff.mp hstale
      exact nomatch hvalid _ (List.mem_append_right _ (List.mem_singleton_self _))
    cases runs_single_iff.mp hcheck
    rcases runs_andThen.mp hwrite with ⟨e, hword, _⟩ | ⟨word, later, answer, rfl, hword, hlater⟩
    · obtain ⟨_, heq, _⟩ := runs_attempt.mp hword
      cases heq
    obtain ⟨_, heq, hword⟩ := runs_attempt.mp hword
    cases heq
    cases runs_single_iff.mp hword
    cases answer with
    | error error =>
      obtain ⟨rfl, rfl⟩ := runs_done_iff.mp hlater
      exact .inl ⟨error, entryFails_of_recording hbatch hentry, rfl⟩
    | ok _ =>
      refine .inr ⟨_, later, length, ?_, entryDone_of_runs hbatch hentry, hlater⟩
      simp only [recording, List.append_assoc, List.cons_append, List.nil_append]

/-- The loop over a batch stops at the first entry that fails. -/
theorem runs_entries (hbatch : batch arch notification = true) {remaining : Nat}
    (hwrap : ∀ i < index + remaining, (notification.data.args 1).toNat + i * 64 < 2 ^ 64)
    {result : Except IoError (Reply ⊕ Progress)}
    (hrun : Runs (entries arch attempted memoryAt notification deadline remaining index).run trace
      result) (hvalid : StaysValid trace) :
    ∃ done last lengths, trace = done ++ last ∧
      Completed arch memoryAt notification index done lengths ∧
      ((lengths.length = remaining ∧ last = [] ∧
        result = .ok (.inr ⟨index + lengths.length, .ok (.value 0)⟩)) ∨
      (lengths.length < remaining ∧ ∃ error,
        EntryFails arch (memoryAt (index + lengths.length)) notification (index + lengths.length)
          last error ∧
        result = .ok (.inr ⟨index + lengths.length, .error error⟩))) := by
  induction remaining generalizing index trace with
  | zero =>
    obtain ⟨rfl, rfl⟩ := runs_done_iff.mp hrun
    exact ⟨[], [], [], rfl, .nil _, Or.inl ⟨rfl, rfl, rfl⟩⟩
  | succ remaining ih =>
    rcases runs_entries_succ hbatch (hwrap index (by omega)) hrun hvalid with
      ⟨error, hentry, hresult⟩ | ⟨front, back, length, rfl, hentry, hlater⟩
    · exact ⟨[], trace, [], rfl, .nil _, Or.inr ⟨Nat.succ_pos _, error, hentry, hresult⟩⟩
    · obtain ⟨done, last, lengths, rfl, hdone, hend⟩ :=
        ih (fun i hi => hwrap i (by omega)) hlater hvalid.append.2
      refine ⟨front ++ done, last, length :: lengths, (List.append_assoc ..).symm,
        .cons hentry hdone, ?_⟩
      rw [List.length_cons, ← Nat.add_assoc, Nat.add_right_comm]
      rcases hend with ⟨hall, hlast, hresult⟩ | ⟨hless, hfailed⟩
      · exact Or.inl ⟨congrArg (· + 1) hall, hlast, hresult⟩
      · exact Or.inr ⟨Nat.add_lt_add_right hless 1, hfailed⟩

end Datagram

end Scproxy
