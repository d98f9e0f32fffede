import Scproxy.DatagramSteps

namespace Scproxy

open Interaction

namespace Operation

def again {α : Type} : Except IoError α → Bool
  | .error error => error.isWouldBlock || error.isInterrupted
  | .ok _ => false

/-- An attempt that the code may repeat. -/
def retried : (op : Operation) → op.Ret → Bool
  | .sendmsg .., r => again r
  | .recvmsg .., r => again r
  | _, _ => false

end Operation

def retryCount (trace : List (Event Operation Operation.Ret)) : Nat :=
  trace.countP fun event => event.op.retried event.answer

theorem retryCount_append (front back : List (Event Operation Operation.Ret)) :
    retryCount (front ++ back) = retryCount front + retryCount back :=
  List.countP_append

namespace Datagram

open Act

variable {memory : Memory} {tid : UInt32} {message : Message} {flags : UInt32}
  {destination : SocketAddrV4} {payload control : List UInt8} {deadline : Option Nat}
  {receive : Bool} {attempted : Nat}

theorem retried_transferNow {trace : List (Event Operation Operation.Ret)} {error : IoError}
    (hrun : Runs (transferNow destination payload control flags receive).run trace (.error error))
    (h : (error.isWouldBlock || error.isInterrupted) = true) : 1 ≤ retryCount trace := by
  unfold transferNow at hrun
  split at hrun
  next =>
    cases runs_single_iff.mp hrun
    simp [retryCount, Operation.retried, Operation.again, h]
  next =>
    rcases runs_andThen.mp hrun with ⟨_, hsend, heq⟩ | ⟨_, _, _, _, _, hdone⟩
    · cases heq
      cases runs_single_iff.mp hsend
      simp [retryCount, Operation.retried, Operation.again, h]
    · cases (runs_done_iff.mp hdone).2

theorem deliver_not_halts {received : Received} {trace : List (Event Operation Operation.Ret)} :
    ¬Halts (deliver tid message received).run trace := by
  have hwrites : ∀ vectors bytes,
      (Message.writeVectors tid vectors bytes).run.Performs fun op => Nonempty op.Ret := by
    intro vectors
    induction vectors with
    | nil => exact fun _ => trivial
    | cons vector vectors ih =>
      intro bytes
      refine Performs.andThen ⟨⟨Except.ok ()⟩, fun _ => trivial⟩ fun _ => ?_
      split
      next => trivial
      next => exact ih _
  refine Performs.not_halts ?_
  refine Performs.andThen ⟨⟨Except.ok ()⟩, fun _ => trivial⟩ fun _ => ?_
  refine Performs.andThen (hwrites _ _) fun _ => ?_
  refine Performs.andThen ⟨⟨(none : Option SocketAddrV4)⟩, fun _ => trivial⟩ fun _ => ?_
  exact Message.still_finish.mono fun _ => Operation.nonempty_of_still

theorem halts_waits {error : IoError} {retry : Act Nat}
    {trace : List (Event Operation Operation.Ret)}
    (h : Halts (waits flags deadline receive error retry).run trace) :
    ∃ front back, trace = front ++ back ∧ Halts retry.run back := by
  rcases halts_andThen h with hstatus | ⟨first, rest, value, rfl, _, hrest⟩
  · exact absurd hstatus still_nonblocking.not_halts
  have hlater : (if value then pure false else expired deadline : Act Bool).Still := by
    split
    next => exact still_done
    next => exact still_expired
  rcases halts_andThen hrest with hexpired | ⟨second, last, late, rfl, _, hlast⟩
  · exact absurd hexpired hlater.not_halts
  split at hlast
  next => cases hlast
  next =>
    rcases halts_andThen hlast with hready | ⟨ready, back, _, rfl, _, hback⟩
    · cases hready with
      | stop hempty => exact absurd ⟨Except.ok ()⟩ hempty
      | perform hdone => cases hdone
    · exact ⟨first ++ (second ++ ready), back, by simp only [List.append_assoc], hback⟩

theorem transferNow_not_halts {trace : List (Event Operation Operation.Ret)} :
    ¬Halts (transferNow destination payload control flags receive).run trace := by
  apply Performs.not_halts
  unfold transferNow
  split
  next => exact ⟨⟨.error (.os 0)⟩, fun _ => trivial⟩
  next => exact Performs.andThen ⟨⟨.error (.os 0)⟩, fun _ => trivial⟩ fun _ => trivial

/-- A further attempt follows only an answer that asks for it. -/
theorem halts_attempts_succ {trace : List (Event Operation Operation.Ret)}
    (h : Halts (attempts tid message destination payload control flags deadline receive
      (attempted + 1)).run trace) :
    ∃ front back, trace = front ++ back ∧ 1 ≤ retryCount front ∧
      Halts (attempts tid message destination payload control flags deadline receive
        attempted).run back := by
  rcases halts_andThen h with hvalid | ⟨first, rest, _, rfl, _, hrest⟩
  · exact absurd hvalid (still_operation .valid rfl).not_halts
  rcases halts_andThen hrest with hattempt | ⟨second, last, received, rfl, hattempt, hlast⟩
  · exact absurd (halts_attempt hattempt) transferNow_not_halts
  obtain ⟨_, heq, hnow⟩ := runs_attempt.mp hattempt
  cases heq
  cases received with
  | ok received =>
    rcases halts_andThen hlast with hdeliver | ⟨_, _, _, _, _, hdone⟩
    · split at hdeliver
      next => exact absurd hdeliver deliver_not_halts
      next => cases hdeliver
    · cases hdone
  | error error =>
    have hagain := retried_transferNow hnow
    have hfirst : ∀ {later}, 1 ≤ retryCount second → 1 ≤ retryCount (first ++ (second ++ later)) := by
      intro later hsecond
      rw [retryCount_append, retryCount_append]
      omega
    dsimp only at hlast
    split at hlast
    next hblock =>
      obtain ⟨front, back, rfl, hback⟩ := halts_waits hlast
      refine ⟨first ++ (second ++ front), back, ?_, hfirst (hagain (by simp [hblock])), hback⟩
      simp only [List.append_assoc]
    next =>
      split at hlast
      next hinterrupted =>
        refine ⟨first ++ (second ++ []), last, ?_, hfirst (hagain (by simp [hinterrupted])), hlast⟩
        simp only [List.append_assoc, List.append_nil]
      next => cases hlast

/-- A transfer that never comes to an end was asked to try again all along. -/
theorem halts_attempts {trace : List (Event Operation Operation.Ret)}
    (h : Halts (attempts tid message destination payload control flags deadline receive
      attempted).run trace) : attempted ≤ retryCount trace := by
  induction attempted generalizing trace with
  | zero => exact Nat.zero_le _
  | succ attempted ih =>
    obtain ⟨front, back, rfl, hfront, hback⟩ := halts_attempts_succ h
    have hlater := ih hback
    rw [retryCount_append]
    omega

theorem halts_transfer {trace : List (Event Operation Operation.Ret)}
    (h : Halts (transfer attempted memory tid message flags deadline receive).run trace) :
    attempted ≤ retryCount trace := by
  rcases halts_andThen h with hcapacity | ⟨_, _, _, rfl, _, hsized⟩
  · cases hcapacity
  split at hsized
  next => cases hsized
  next =>
    rcases halts_andThen hsized with hpayload | ⟨_, _, payload, rfl, _, hread⟩
    · cases hpayload
    rcases halts_andThen hread with hcontrol | ⟨_, _, control, rfl, _, hready⟩
    · cases hcontrol
    rcases halts_andThen hready with haddress | ⟨front, back, _, rfl, _, hattempts⟩
    · exact absurd haddress still_destination.not_halts
    · have hcount := halts_attempts hattempts
      simp only [retryCount_append]
      omega

end Datagram

end Scproxy
