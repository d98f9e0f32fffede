import Scproxy.BatchTransfer

namespace Scproxy

open Interaction

namespace Datagram

variable {arch : Arch} {memory : Memory} {notification : Notification}
  {trace : List (Event Operation Operation.Ret)}

section Timeout

variable (arch : Arch) (memory : Memory) (notification : Notification)

/-- The call has a timeout argument. -/
def TimeoutGiven : Prop := receives arch notification = true ∧ notification.data.args 4 ≠ 0

/-- The timeout argument, if there is one, can be read and is in range, and so is each time that
it is added to. -/
def TimeoutValid (trace : List (Event Operation Operation.Ret)) : Prop :=
  TimeoutGiven arch notification → ∃ bytes, ∃ seconds nanos : Nat,
    memory.read notification.pid (notification.data.args 4) 16 = .ok bytes ∧
    (Message.word bytes 0).toInt64.toInt = seconds ∧ (Message.word bytes 8).toInt64.toInt = nanos ∧
    nanos < 1000000000 ∧
    ∀ now, ⟨.now, now⟩ ∈ trace → (now + seconds * 1000000000 + nanos) / 1000000000 < 2 ^ 63

/-- The deadline of the timeout argument, from the time at which the call began. -/
def TimeoutFrom (setup : List (Event Operation Operation.Ret)) (timeout : Option Nat) : Prop :=
  (¬TimeoutGiven arch notification ∧ timeout = none) ∨
  (TimeoutGiven arch notification ∧ ∃ bytes, ∃ seconds nanos start : Nat,
    memory.read notification.pid (notification.data.args 4) 16 = .ok bytes ∧
    (Message.word bytes 0).toInt64.toInt = seconds ∧ (Message.word bytes 8).toInt64.toInt = nanos ∧
    ⟨.now, start⟩ ∈ setup ∧ timeout = some (start + seconds * 1000000000 + nanos))

end Timeout

theorem TimeoutFrom.mono {setup setup' : List (Event Operation Operation.Ret)}
    {timeout : Option Nat} (h : TimeoutFrom arch memory notification setup timeout)
    (hsub : setup ⊆ setup') : TimeoutFrom arch memory notification setup' timeout := by
  rcases h with hnone | ⟨hgiven, bytes, seconds, nanos, start, hread, hs, hn, hstart, htimeout⟩
  · exact .inl hnone
  · exact .inr ⟨hgiven, bytes, seconds, nanos, start, hread, hs, hn, hsub hstart, htimeout⟩

theorem runs_now {result : Except IoError Nat} :
    Runs Act.now.run trace result ↔ ∃ now, trace = [⟨.now, now⟩] ∧ result = .ok now := by
  refine runs_perform_iff.trans ?_
  constructor
  · rintro ⟨now, rest, rfl, hdone⟩
    obtain ⟨rfl, rfl⟩ := runs_done_iff.mp hdone
    exact ⟨now, rfl, rfl⟩
  · rintro ⟨now, rfl, rfl⟩
    exact ⟨now, [], rfl, .done _⟩

/-- A valid timeout argument gives its deadline. -/
theorem runs_batchDeadline {result : Except IoError (Option Nat)}
    (hrun : Runs (batchDeadline arch memory notification).run trace result)
    (hvalid : TimeoutValid arch memory notification trace) :
    ∃ timeout, result = .ok timeout ∧ TimeoutFrom arch memory notification trace timeout := by
  have hgiven : call notification = arch.number .recvmmsg ∧ notification.data.args 4 ≠ 0 ↔
      TimeoutGiven arch notification := by
    rw [TimeoutGiven, receives, beq_iff_eq]
  unfold batchDeadline at hrun
  dsimp only at hrun
  by_cases hcall : TimeoutGiven arch notification
  · obtain ⟨bytes, seconds, nanos, hread, hseconds, hnanos, hrange, hclock⟩ := hvalid hcall
    rw [if_pos (hgiven.mpr hcall), hread] at hrun
    rcases runs_andThen.mp hrun with ⟨_, hbytes, _⟩ | ⟨_, _, _, rfl, hbytes, hrest⟩
    · cases (runs_done_iff.mp hbytes).2
    obtain ⟨rfl, heq⟩ := runs_done_iff.mp hbytes
    cases heq
    rw [List.nil_append] at hclock ⊢
    rw [hseconds, hnanos, if_neg (by omega), Int.toNat_natCast, Int.toNat_natCast] at hrest
    rcases runs_andThen.mp hrest with ⟨_, hnow, _⟩ | ⟨_, _, now, rfl, hnow, hlast⟩
    · obtain ⟨_, _, heq⟩ := runs_now.mp hnow
      cases heq
    obtain ⟨_, rfl, heq⟩ := runs_now.mp hnow
    cases heq
    rw [checkedAdd, if_pos (hclock now (by simp))] at hlast
    obtain ⟨rfl, rfl⟩ := runs_done_iff.mp hlast
    exact ⟨_, rfl, .inr ⟨hcall, bytes, seconds, nanos, now, hread, hseconds, hnanos, by simp, rfl⟩⟩
  · rw [if_neg (mt hgiven.mp hcall)] at hrun
    obtain ⟨rfl, rfl⟩ := runs_done_iff.mp hrun
    exact ⟨none, rfl, .inl ⟨hcall, rfl⟩⟩

/-- The timeout argument can be written back. -/
def TimeoutWritable (trace : List (Event Operation Operation.Ret)) : Prop :=
  ∀ tid pointer bytes answer, ⟨.write .timeout tid pointer bytes, answer⟩ ∈ trace → answer = .ok ()

/-- The last look at the clock is past the deadline of the call. -/
def Expired (timeout : Option Nat) (settled : List (Event Operation Operation.Ret)) : Prop :=
  ∃ deadline now, timeout = some deadline ∧ settled.getLast? = some ⟨.now, now⟩ ∧ deadline ≤ now

theorem runs_settleTimeout {timeout : Option Nat} {progress : Progress}
    {result : Except IoError Bool}
    (hrun : Runs (settleTimeout notification timeout progress).run trace result)
    (hvalid : StaysValid trace) (hwritable : TimeoutWritable trace) :
    ∃ timedOut, result = .ok timedOut ∧ (timedOut = true → progress.completed = 0) ∧
      (progress.completed = 0 →
        (timedOut = true ↔ progress.result = .error (.os Errno.eagain) ∧ Expired timeout trace)) := by
  cases timeout with
  | none =>
    obtain ⟨rfl, rfl⟩ := runs_done_iff.mp hrun
    refine ⟨false, rfl, nofun, fun _ => ⟨nofun, ?_⟩⟩
    rintro ⟨_, _, _, h, _⟩
    cases h
  | some deadline =>
    rcases runs_andThen.mp hrun with ⟨e, hstale, _⟩ | ⟨first, rest, _, rfl, hcheck, hrest⟩
    · cases runs_single_iff.mp hstale
      exact nomatch hvalid _ (List.mem_singleton_self _)
    rcases runs_andThen.mp hrest with ⟨e, hclock, _⟩ | ⟨second, tail, now, rfl, hclock, htail⟩
    · obtain ⟨_, _, heq⟩ := runs_now.mp hclock
      cases heq
    rcases runs_andThen.mp htail with ⟨e, hword, _⟩ | ⟨third, last, _, rfl, hword, hlast⟩
    · cases runs_single_iff.mp hword
      exact nomatch hwritable _ _ _ _
        (List.mem_append_right _ (List.mem_append_right _ (List.mem_singleton_self _)))
    split at hlast
    next hcompleted =>
      obtain ⟨rfl, rfl⟩ := runs_done_iff.mp hlast
      exact ⟨false, rfl, nofun, fun h => absurd h hcompleted⟩
    next hcompleted =>
      rcases runs_andThen.mp hlast with ⟨e, hclock, _⟩ | ⟨fourth, none', later, rfl, hlater, hdone⟩
      · obtain ⟨_, _, heq⟩ := runs_now.mp hclock
        cases heq
      obtain ⟨_, rfl, heq⟩ := runs_now.mp hlater
      cases heq
      obtain ⟨rfl, rfl⟩ := runs_done_iff.mp hdone
      refine ⟨_, rfl, fun _ => not_not.mp hcompleted, fun _ => ?_⟩
      have hlastEvent : ∀ event : Event Operation Operation.Ret,
          (first ++ (second ++ (third ++ ([event] ++ [])))).getLast? = some event := by
        simp
      rw [decide_eq_true_iff]
      constructor
      · rintro ⟨hexpired, hresult⟩
        exact ⟨hresult, deadline, later, rfl, hlastEvent _, hexpired⟩
      · rintro ⟨hresult, _, now', heq, hevent, hexpired⟩
        cases heq
        rw [hlastEvent] at hevent
        cases hevent
        exact ⟨hexpired, hresult⟩

end Datagram

end Scproxy
