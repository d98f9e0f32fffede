import Scproxy.BatchRuns

namespace Scproxy

open Interaction

namespace Datagram

variable {arch : Arch} {attempted : Nat} {memory : Memory} {notification : Notification}

theorem dispatch_of_batch (h : batch arch notification = true) :
    dispatch arch attempted memory notification =
      transferEach arch attempted memory (fun _ => memory) notification := by
  rw [transferEach_const, dispatch, if_neg, if_neg]
  · rcases calls_of_batch h with hcall | hcall
    · rw [hcall]
      cases arch <;> decide
    · rw [hcall]
      cases arch <;> decide
  · rcases calls_of_batch h with hcall | hcall
    · rw [hcall]
      cases arch <;> decide
    · rw [hcall]
      cases arch <;> decide

theorem effects_of_refused {trace : List (Event Operation Operation.Ret)} {error : IoError}
    (h : Refused arch notification trace error) : effects trace = [] := by
  rcases h with rfl | rfl
  · rfl
  · rfl

/-- A batch is transferred up to the first entry that fails, and the call reports how many
entries are done, or why the first one is not. -/
theorem batch_reports_first_failure (arch : Arch) (attempted : Nat) (memory : Memory)
    (memoryAt : Nat → Memory) (notification : Notification)
    (hbatch : batch arch notification = true)
    (hwrap : ∀ i < batchLength notification,
      (notification.data.args 1).toNat + i * 64 < 2 ^ 64) :
    dispatch arch attempted memory notification =
      transferEach arch attempted memory (fun _ => memory) notification ∧
    (∀ trace result,
      Runs (transferEach arch attempted memory memoryAt notification).run trace result →
      StaysValid trace → TimeoutValid arch memory notification trace → TimeoutWritable trace →
      (∃ error, result = .error error ∧ Refused arch notification trace error ∧
        effects trace = []) ∨
      ∃ setup done last settled timeout lengths,
        trace = setup ++ (done ++ last ++ settled) ∧ effects setup = [] ∧ effects settled = [] ∧
        TimeoutFrom arch memory notification setup timeout ∧
        Completed arch memoryAt notification 0 done lengths ∧
        ((lengths.length = batchLength notification ∧ last = [] ∧
          result = .ok (.value (batchLength notification))) ∨
        (lengths.length < batchLength notification ∧ ∃ error,
          EntryFails arch (memoryAt lengths.length) notification lengths.length last error ∧
          (0 < lengths.length → result = .ok (.value lengths.length)) ∧
          (lengths.length = 0 →
            (error = .os Errno.eagain ∧ Expired timeout settled → result = .ok (.value 0)) ∧
            (¬(error = .os Errno.eagain ∧ Expired timeout settled) → result = .error error))))) ∧
    (∀ trace result,
      Runs (transferEach arch attempted memory memoryAt notification).run trace result →
      ∀ event ∈ trace, WithoutWaitforone event.op) ∧
    ∀ trace, Halts (transferEach arch attempted memory memoryAt notification).run trace →
      attempted ≤ retryCount trace := by
  refine ⟨dispatch_of_batch hbatch, ?_, fun _ _ hrun => withoutWaitforone_transferEach.runs hrun,
    fun _ => halts_transferEach⟩
  intro trace result hrun hvalid htimeout hwritable
  rcases runs_transferEach hbatch hrun htimeout with ⟨error, hresult, hrefused⟩ |
    ⟨setup, rest, socket, timeout, rfl, hquiet, hfrom, hloop⟩
  · exact .inl ⟨error, hresult, hrefused, effects_of_refused hrefused⟩
  refine .inr ?_
  rw [count_of_batch hbatch] at hloop
  have hvalidRest := hvalid.append.2
  have hno : ∀ i < 0 + batchLength notification,
      (notification.data.args 1).toNat + i * 64 < 2 ^ 64 := fun i hi => hwrap i (by omega)
  rcases runs_andThen.mp hloop with ⟨e, hentries, _⟩ | ⟨front, settled, out, rfl, hentries, hreport⟩
  · obtain ⟨_, _, _, _, _, ⟨_, _, heq⟩ | ⟨_, _, _, heq⟩⟩ := runs_entries hbatch hno hentries hvalidRest
    · cases heq
    · cases heq
  obtain ⟨done, last, lengths, rfl, hcompleted, hend⟩ :=
    runs_entries hbatch hno hentries hvalidRest.append.1
  have hwritableSettled : TimeoutWritable settled := fun tid pointer bytes answer hmem =>
    hwritable tid pointer bytes answer (List.mem_append_right _ (List.mem_append_right _ hmem))
  rcases hend with ⟨hall, rfl, heq⟩ | ⟨hless, error, hfailed, heq⟩
  · cases heq
    obtain ⟨hsettled, hsome, hnone⟩ := runs_report hreport hvalidRest.append.2 hwritableSettled
    refine ⟨setup, done, [], settled, timeout, lengths, rfl, hquiet, hsettled, hfrom, hcompleted,
      .inl ⟨hall, rfl, ?_⟩⟩
    rw [Nat.zero_add, hall] at hsome hnone
    by_cases hzero : batchLength notification = 0
    · rw [hzero]
      exact (hnone hzero).2 fun h => nomatch h.1
    · exact hsome (Nat.pos_of_ne_zero hzero)
  · cases heq
    obtain ⟨hsettled, hsome, hnone⟩ := runs_report hreport hvalidRest.append.2 hwritableSettled
    rw [Nat.zero_add] at hsome hnone hfailed
    rw [Except.error.injEq] at hnone
    exact ⟨setup, done, last, settled, timeout, lengths, rfl, hquiet, hsettled, hfrom, hcompleted,
      .inr ⟨hless, error, hfailed, hsome, hnone⟩⟩

/-- `sendmmsg` with three messages. -/
def threeMessages : Notification :=
  ⟨1, 1, ⟨307, 0, 0, fun i => if i = 1 then 4096 else if i = 2 then 3 else 0⟩⟩

/-- The header of a message with one buffer, which stands at an address below 65536. -/
def headerBytes (vector : Nat) : List UInt8 :=
  List.replicate 16 0 ++ toNe 8 vector ++ toNe 8 1 ++ List.replicate 32 0

/-- Two headers, a page that cannot be read where the third one should be, the buffers of both
messages, and what is in them. -/
def twoHeaders : Memory := fun address =>
  if 4224 ≤ address ∧ address < 4288 then none
  else (headerBytes 4288 ++ headerBytes 4304 ++ List.replicate 64 0 ++ toNe 8 4320 ++ toNe 8 2 ++
    toNe 8 4322 ++ toNe 8 3 ++ [1, 2, 3, 4, 5])[address.toNat - 4096]?

def resolver : SocketAddrV4 := ⟨.unspecified, 53⟩

/-- A message of the batch is sent, and its length is written. -/
def sendOne (payload : List UInt8) (pointer : UInt64) : List (Event Operation Operation.Ret) :=
  [⟨.peerAddress false, .ok resolver⟩, ⟨.originalServer resolver, some resolver⟩, ⟨.valid, .ok ()⟩,
    ⟨.sendmsg resolver payload [] 0x4040, .ok payload.length⟩, ⟨.valid, .ok ()⟩,
    ⟨.write .messageLength 1 pointer (toNe 4 payload.length), .ok ()⟩]

def twoSent : List (Event Operation Operation.Ret) :=
  [⟨.asyncFd, .ok ()⟩, ⟨.timeout false, .ok (0, 0)⟩] ++ sendOne [1, 2] 4152 ++
    sendOne [3, 4, 5] 4216

theorem runs_twoSent :
    Runs (transferEach .x86_64 1 twoHeaders (fun _ => twoHeaders) threeMessages).run twoSent
      (.ok (.value 2)) :=
  .perform (.perform (.perform (.perform (.perform (.perform (.perform (.perform
    (.perform (.perform (.perform (.perform (.perform (.perform (.done _))))))))))))))

/-- Two messages are sent, and the header of the third one cannot be read. -/
theorem batch_reports_twoSent :
    Runs (transferEach .x86_64 1 twoHeaders (fun _ => twoHeaders) threeMessages).run twoSent
      (.ok (.value 2)) ∧
    effects twoSent = [.sent resolver [1, 2] [] 0x4040 2, .recorded 1 4152 [2, 0, 0, 0],
      .sent resolver [3, 4, 5] [] 0x4040 3, .recorded 1 4216 [3, 0, 0, 0]] ∧
    ∃ setup done last settled lengths, twoSent = setup ++ (done ++ last ++ settled) ∧
      Completed .x86_64 (fun _ => twoHeaders) threeMessages 0 done lengths ∧ lengths.length = 2 ∧
      ∃ error, EntryFails .x86_64 twoHeaders threeMessages 2 last error := by
  refine ⟨runs_twoSent, rfl, ?_⟩
  have hvalid : StaysValid twoSent := by
    intro answer hmem
    simpa [twoSent, sendOne] using hmem
  have htimeout : TimeoutValid .x86_64 twoHeaders threeMessages twoSent := by
    rintro ⟨hreceives, _⟩
    exact absurd hreceives (by decide)
  have hwritable : TimeoutWritable twoSent := by
    intro tid pointer bytes answer hmem
    simp [twoSent, sendOne] at hmem
  obtain ⟨_, hreports, _⟩ := batch_reports_first_failure .x86_64 1 twoHeaders
    (fun _ => twoHeaders) threeMessages (by decide) (by decide)
  rcases hreports twoSent _ runs_twoSent hvalid htimeout hwritable with ⟨_, heq, _⟩ |
    ⟨setup, done, last, settled, timeout, lengths, htrace, _, _, _, hcompleted, hend⟩
  · cases heq
  have hlength : batchLength threeMessages = 3 := by decide
  rw [hlength] at hend
  rcases hend with ⟨_, _, heq⟩ | ⟨_, error, hfails, hsome, hnone⟩
  · cases heq
  rcases Nat.eq_zero_or_pos lengths.length with hzero | hpos
  · obtain ⟨hexpired, hother⟩ := hnone hzero
    by_cases h : error = .os Errno.eagain ∧ Expired timeout settled
    · cases hexpired h
    · cases hother h
  · have htwo : lengths.length = 2 := by
      have hvalue := Reply.value.inj (Except.ok.inj (hsome hpos))
      omega
    exact ⟨setup, done, last, settled, lengths, htrace, hcompleted, htwo, error, htwo ▸ hfails⟩

end Datagram

end Scproxy
