import Scproxy.ReaperLaw

namespace Scproxy

namespace CommandTree

open Interaction

/-- The exit codes of the processes that were reaped under a pid, in this order. -/
def reapedCodes (pid : Pid) (trace : List TreeEvent) : List Int :=
  trace.filterMap fun
    | ⟨.waitpid, .ok (.reaped other status)⟩ => if other = pid then some status.code else none
    | _ => none

theorem reapedCodes_append (pid : Pid) (front back : List TreeEvent) :
    reapedCodes pid (front ++ back) = reapedCodes pid front ++ reapedCodes pid back :=
  List.filterMap_append

section Loop

variable {self commandPid : Pid} {waits turns : Nat} {trace : List TreeEvent}

/-- The code of the process that was reaped last, if there is one. -/
def lastCode (code : Option Int) (codes : List Int) : Option Int := codes.getLast?.or code

theorem lastCode_append (code : Option Int) (front back : List Int) :
    lastCode code (front ++ back) = lastCode (lastCode code front) back := by
  rw [lastCode, lastCode, lastCode, List.getLast?_append, Option.or_assoc]

theorem runs_collect {code : Option Int} {collected : Collected}
    (h : Runs (collect commandPid waits code).run trace (.ok collected)) :
    collected = .alive (lastCode code (reapedCodes commandPid trace)) ∨
    collected = .childless (lastCode code (reapedCodes commandPid trace)) ∧
      ∃ before, trace = before ++ [⟨.waitpid, .error Errno.echild⟩] := by
  induction waits generalizing code trace with
  | zero =>
    obtain ⟨answer, _⟩ := runs_perform_iff.mp h
    exact answer.elim
  | succ waits ih =>
    obtain ⟨answer, rest, rfl, hrest⟩ := runs_op_andThen.mp h
    have hnext : ∀ next, lastCode code (reapedCodes commandPid [⟨.waitpid, answer⟩]) = next →
        Runs (collect commandPid waits next).run rest (.ok collected) →
        collected = .alive (lastCode code (reapedCodes commandPid (⟨.waitpid, answer⟩ :: rest))) ∨
        collected = .childless (lastCode code (reapedCodes commandPid (⟨.waitpid, answer⟩ :: rest))) ∧
          ∃ before, ⟨.waitpid, answer⟩ :: rest = before ++ [⟨.waitpid, .error Errno.echild⟩] := by
      rintro next rfl hlater
      rw [← List.singleton_append, reapedCodes_append, lastCode_append]
      rcases ih hlater with heq | ⟨heq, before, rfl⟩
      · exact Or.inl heq
      · exact Or.inr ⟨heq, ⟨.waitpid, answer⟩ :: before, rfl⟩
    split at hrest
    next pid status =>
      refine hnext _ ?_ hrest
      by_cases hpid : pid = commandPid
      · simp [reapedCodes, lastCode, hpid]
      · simp [reapedCodes, lastCode, hpid]
    next =>
      obtain ⟨rfl, heq⟩ := runs_done_iff.mp hrest
      cases heq
      exact Or.inl rfl
    next => exact hnext code rfl hrest
    next errno =>
      split at hrest
      next => exact hnext code rfl hrest
      next =>
        split at hrest
        next hechild =>
          obtain ⟨rfl, heq⟩ := runs_done_iff.mp hrest
          cases heq
          exact Or.inr ⟨rfl, [], by rw [hechild]; rfl⟩
        next =>
          obtain ⟨_, heq⟩ := runs_done_iff.mp hrest
          cases heq

theorem reapedCodes_of_searches {signal : Sending}
    (h : ∀ event ∈ trace, Searches signal event.op) : reapedCodes commandPid trace = [] := by
  apply List.filterMap_eq_nil_iff.mpr
  intro event hevent
  have hop := h event hevent
  obtain ⟨op, answer⟩ := event
  cases op with
  | waitpid => exact hop.elim
  | _ => rfl

theorem reapedCodes_signalRound {termination : Option (Signal × Nat)} {timeout : Option Nat}
    (h : Runs (signalRound self termination).run trace (.ok timeout)) :
    reapedCodes commandPid trace = [] := by
  cases termination with
  | none =>
    obtain ⟨rfl, _⟩ := runs_done_iff.mp h
    rfl
  | some known =>
    obtain ⟨time, round, rfl, hsend⟩ := runs_signalRound h
    show reapedCodes commandPid round = []
    exact reapedCodes_of_searches ((searches_signalDescendants self _).runs hsend)

/-- The value is the code of the last process reaped under the pid, and no child is left. -/
theorem runs_waitLoop {code : Option Int} {termination : Option (Signal × Nat)} {value : Int}
    (h : Runs (waitLoop self commandPid waits turns code termination).run trace (.ok value)) :
    lastCode code (reapedCodes commandPid trace) = some value ∧
      ∃ before, trace = before ++ [⟨.waitpid, .error Errno.echild⟩] := by
  induction turns generalizing code termination trace with
  | zero =>
    obtain ⟨answer, _⟩ := runs_perform_iff.mp h
    exact answer.elim
  | succ turns ih =>
    rcases runs_andThen.mp h with ⟨e, _, heq⟩ | ⟨front, back, collected, rfl, hcollect, hback⟩
    · cases heq
    rcases runs_collect hcollect with rfl | ⟨rfl, before, rfl⟩
    · rcases runs_andThen.mp hback with ⟨e, _, heq⟩ | ⟨round, last, timeout, rfl, hround, hlast⟩
      · cases heq
      obtain ⟨answer, rest, rfl, hrest⟩ := runs_op_andThen.mp hlast
      have hnext : ∀ next, Runs (waitLoop self commandPid waits turns
          (lastCode code (reapedCodes commandPid front)) next).run rest (.ok value) →
          lastCode code (reapedCodes commandPid
            (front ++ (round ++ ⟨.sigtimedwait timeout, answer⟩ :: rest))) = some value ∧
          ∃ before, front ++ (round ++ ⟨.sigtimedwait timeout, answer⟩ :: rest) =
            before ++ [⟨.waitpid, .error Errno.echild⟩] := by
        intro next hlater
        obtain ⟨hcode, before, rfl⟩ := ih hlater
        refine ⟨?_, front ++ (round ++ ⟨.sigtimedwait timeout, answer⟩ :: before), by simp⟩
        rw [reapedCodes_append, reapedCodes_append, reapedCodes_signalRound hround, lastCode_append]
        exact hcode
      cases answer with
      | ok awaited => exact hnext _ hrest
      | error errno =>
        dsimp only at hrest
        split at hrest
        next => exact hnext _ hrest
        next =>
          obtain ⟨_, heq⟩ := runs_done_iff.mp hrest
          cases heq
    · split at hback
      next =>
        obtain ⟨_, heq⟩ := runs_done_iff.mp hback
        cases heq
      next heq =>
        obtain ⟨rfl, hvalue⟩ := runs_done_iff.mp hback
        cases hvalue
        rw [List.append_nil]
        exact ⟨Collected.childless.inj heq, before, rfl⟩
      next heq => cases heq

end Loop

theorem waitForCommandTree_exit_code {self commandPid : Pid} {waits turns : Nat}
    {trace : List TreeEvent} {value : Int}
    (h : Runs (waitForCommandTree self commandPid waits turns).run trace (.ok value)) :
    ∃ first rest, reapedCodes commandPid trace = first :: rest ∧
      (value = first ↔ (first :: rest).getLast? = some first) := by
  have hlast : (reapedCodes commandPid trace).getLast? = some value := by
    have := (runs_waitLoop h).1
    rwa [lastCode, Option.or_none] at this
  cases hcodes : reapedCodes commandPid trace with
  | nil =>
    rw [hcodes] at hlast
    cases hlast
  | cons first rest =>
    rw [hcodes] at hlast
    refine ⟨first, rest, rfl, ?_⟩
    rw [hlast, Option.some.injEq]

/-- The command exits before one of its descendants. -/
theorem waitForCommandTree_exit_code_descendant :
    ∃ trace, Runs (waitForCommandTree 1 10 3 1).run trace (.ok 7) ∧
      ∃ first rest, reapedCodes 10 trace = first :: rest ∧
        (7 = first ↔ (first :: rest).getLast? = some first) := by
  have hrun : Runs (waitForCommandTree 1 10 3 1).run
      [⟨.waitpid, .ok (.reaped 10 (.exited 7))⟩, ⟨.waitpid, .ok (.reaped 11 (.exited 0))⟩,
        ⟨.waitpid, .error Errno.echild⟩] (.ok 7) :=
    .perform (.perform (.perform (.done _)))
  exact ⟨_, hrun, waitForCommandTree_exit_code hrun⟩

/-- The command exits with 0. A descendant that later got its pid exits with 7. -/
def reusedPid : List TreeEvent :=
  [⟨.waitpid, .ok (.reaped 10 (.exited 0))⟩, ⟨.waitpid, .ok .stillAlive⟩,
    ⟨.sigtimedwait none, .ok .sigChld⟩, ⟨.waitpid, .ok (.reaped 10 (.exited 7))⟩,
    ⟨.waitpid, .error Errno.echild⟩]

theorem exit_code_of_reusedPid :
    Runs (waitForCommandTree 1 10 2 2).run reusedPid (.ok 7) ∧
      (reapedCodes 10 reusedPid).head? = some 0 :=
  ⟨.perform (.perform (.perform (.perform (.perform (.done _))))), rfl⟩

end CommandTree

end Scproxy
