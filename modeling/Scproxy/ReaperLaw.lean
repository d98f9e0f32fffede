import Scproxy.DescendantRound

namespace Scproxy

namespace CommandTree

open Interaction

/-- The termination signals that were received, each with its time. -/
def terminations (trace : List TreeEvent) : List (Signal × Nat) :=
  trace.filterMap fun
    | ⟨.sigtimedwait _, .ok (.termination signal time)⟩ => some (signal, time)
    | _ => none

/-- The readings of the clock. -/
def readings (trace : List TreeEvent) : List Nat :=
  trace.filterMap fun
    | ⟨.now, time⟩ => some time
    | ⟨.sigtimedwait _, .ok (.termination _ time)⟩ => some time
    | _ => none

theorem terminations_append (front back : List TreeEvent) :
    terminations (front ++ back) = terminations front ++ terminations back :=
  List.filterMap_append

theorem readings_append (front back : List TreeEvent) :
    readings (front ++ back) = readings front ++ readings back :=
  List.filterMap_append

/-- What the reaper knows of the termination signals: the last one, and the deadline
of the first. -/
def terminationOf : List (Signal × Nat) → Option (Signal × Nat)
  | [] => none
  | first :: rest => some (((first :: rest).getLast (List.cons_ne_nil _ _)).1, first.2 + grace)

theorem receive_terminationOf (received : List (Signal × Nat)) (signal : Signal) (time : Nat) :
    receive (terminationOf received) (.termination signal time) =
      terminationOf (received ++ [(signal, time)]) := by
  cases received with
  | nil => rfl
  | cons first rest =>
    simp only [terminationOf, receive, List.cons_append]
    rw [List.getLast_congr _ (by simp) (List.cons_append (a := first)).symm, List.getLast_concat]

/-- A signal that is sent is the one for the time of the round, the last reading of the clock. -/
def SignalLaw (past : List TreeEvent) (event : TreeEvent) : Prop :=
  ∀ pid sent, event.op = .kill pid sent → ∃ signal deadline time,
    terminationOf (terminations past) = some (signal, deadline) ∧
    (readings past).getLast? = some time ∧ sent = roundSignal signal deadline time

/-- Once a termination signal was received, the reaper waits only right after a whole
round that sent the signal for its time. -/
def RoundLaw (reaper : Pid) (past : List TreeEvent) (event : TreeEvent) : Prop :=
  ∀ timeout signal deadline, event.op = .sigtimedwait timeout →
    terminationOf (terminations past) = some (signal, deadline) →
    ∃ before time round, past = before ++ ⟨.now, time⟩ :: round ∧ readings round = [] ∧
      SignallingRound reaper (roundSignal signal deadline time) round

structure ReaperLaw (reaper : Pid) (past : List TreeEvent) (event : TreeEvent) : Prop where
  signal : SignalLaw past event
  round : RoundLaw reaper past event

/-- The law is about signals that are sent and waits for one. -/
theorem reaperLaw_of_op {reaper : Pid} {past : List TreeEvent} {event : TreeEvent}
    (hkill : ∀ pid sent, event.op ≠ .kill pid sent)
    (hwait : ∀ timeout, event.op ≠ .sigtimedwait timeout) : ReaperLaw reaper past event :=
  ⟨fun pid sent hop => absurd hop (hkill pid sent),
    fun timeout _ _ hop => absurd hop (hwait timeout)⟩

/-- Neither a signal is received nor the clock read. -/
def Timeless : TreeOperation → Prop
  | .now | .sigtimedwait _ => False
  | _ => True

theorem terminations_of_timeless {trace : List TreeEvent}
    (h : ∀ event ∈ trace, Timeless event.op) : terminations trace = [] := by
  apply List.filterMap_eq_nil_iff.mpr
  intro event hevent
  have := h event hevent
  obtain ⟨op, answer⟩ := event
  cases op with
  | sigtimedwait timeout => exact this.elim
  | _ => rfl

theorem readings_of_timeless {trace : List TreeEvent}
    (h : ∀ event ∈ trace, Timeless event.op) : readings trace = [] := by
  apply List.filterMap_eq_nil_iff.mpr
  intro event hevent
  have := h event hevent
  obtain ⟨op, answer⟩ := event
  cases op with
  | sigtimedwait timeout => exact this.elim
  | now => exact this.elim
  | _ => rfl

theorem timeless_of_searches {signal : Sending} {op : TreeOperation} (h : Searches signal op) :
    Timeless op := by
  cases op with
  | now => exact h.elim
  | sigtimedwait timeout => exact h.elim
  | _ => trivial

section Loop

variable {self commandPid : Pid} {waits turns : Nat} {past trace : List TreeEvent}

/-- The inner loop only waits. -/
theorem performs_collect {code : Option Int} :
    (collect commandPid waits code).run.Performs fun op => op = .waitpid ∨ op = .pending := by
  induction waits generalizing code with
  | zero => exact ⟨Or.inr rfl, nofun⟩
  | succ waits ih =>
    refine Performs.andThen ⟨Or.inl rfl, fun _ => trivial⟩ fun answer => ?_
    split
    next => exact ih
    next => trivial
    next => exact ih
    next =>
      split
      next => exact ih
      next =>
        split
        next => trivial
        next => trivial

theorem timeless_collect {code : Option Int} :
    (collect commandPid waits code).run.Performs Timeless :=
  performs_collect.mono fun op h => by
    rcases h with rfl | rfl
    · trivial
    · trivial

theorem follows_collect {code : Option Int}
    (h : Behaves (collect commandPid waits code).run trace) :
    Follows (ReaperLaw self) past trace := by
  apply follows_of_forall
  rintro before event after rfl
  rcases performs_collect.behaves h event (by simp) with hwait | hwait
  · exact reaperLaw_of_op (by simp [hwait]) (by simp [hwait])
  · exact reaperLaw_of_op (by simp [hwait]) (by simp [hwait])

/-- The signals of a round all are the one for its time. -/
theorem follows_signalDescendants {root : Pid} {signal : Signal} {deadline time : Nat}
    (hpast : terminationOf (terminations past) = some (signal, deadline))
    (htime : (readings past).getLast? = some time)
    (h : Behaves (signalDescendants root (roundSignal signal deadline time)).run trace) :
    Follows (ReaperLaw self) past trace := by
  have hsearches := (searches_signalDescendants root _).behaves h
  apply follows_of_forall
  rintro before event after rfl
  have hsent := hsearches event (by simp)
  constructor
  · intro pid sent hop
    have hbefore : ∀ event ∈ before, Timeless event.op :=
      fun other hother => timeless_of_searches (hsearches other (List.mem_append_left _ hother))
    rw [hop] at hsent
    refine ⟨signal, deadline, time, ?_, ?_, hsent⟩
    · rw [terminations_append, terminations_of_timeless hbefore, List.append_nil, hpast]
    · rw [readings_append, readings_of_timeless hbefore, List.append_nil, htime]
  · intro timeout _ _ hop
    rw [hop] at hsent
    exact hsent.elim

theorem behaves_op {op : TreeOperation} {trace : List TreeEvent}
    (h : Behaves (Tree.perform op).run trace) : trace = [] ∨ ∃ answer, trace = [⟨op, answer⟩] := by
  rcases h with ⟨result, hrun⟩ | hhalts
  · obtain ⟨answer, rfl, _⟩ := runs_op.mp hrun
    exact Or.inr ⟨answer, rfl⟩
  · cases hhalts with
    | stop _ => exact Or.inl rfl
    | perform h => cases h

/-- `behaves_andThen` for a program that begins with an operation. -/
theorem behaves_op_andThen {α : Type} {op : TreeOperation} {f : op.Ret → Tree α}
    (h : Behaves (Tree.perform op >>= f).run trace) :
    trace = [] ∨ ∃ answer rest, trace = ⟨op, answer⟩ :: rest ∧
      (rest = [] ∨ Behaves (f answer).run rest) := by
  rcases behaves_andThen h with hop | ⟨front, back, answer, rfl, hop, hrest⟩
  · rcases behaves_op hop with rfl | ⟨answer, rfl⟩
    · exact Or.inl rfl
    · exact Or.inr ⟨answer, [], rfl, Or.inl rfl⟩
  · obtain ⟨_, rfl, heq⟩ := runs_op.mp hop
    cases heq
    exact Or.inr ⟨answer, back, rfl, Or.inr hrest⟩

theorem behaves_pending {α : Type} (h : Behaves (Tree.pending : Tree α).run trace) :
    trace = [] := by
  rcases h with ⟨result, hrun⟩ | hhalts
  · obtain ⟨answer, _⟩ := runs_perform_iff.mp hrun
    exact answer.elim
  · cases hhalts with
    | stop _ => rfl
    | @perform _ _ answer => exact answer.elim

/-- A round sends the signals of its time, and what follows goes on from there. -/
theorem follows_signalRound {termination : Option (Signal × Nat)}
    (hpast : terminationOf (terminations past) = termination)
    (h : Behaves (signalRound self termination).run trace) :
    Follows (ReaperLaw self) past trace ∧ terminations trace = [] := by
  cases termination with
  | none =>
    cases behaves_done h
    exact ⟨trivial, rfl⟩
  | some known =>
    obtain ⟨signal, deadline⟩ := known
    rcases behaves_op_andThen h with rfl | ⟨time, rest, rfl, hrest⟩
    · exact ⟨trivial, rfl⟩
    have hnow : ReaperLaw self past ⟨.now, time⟩ := reaperLaw_of_op (by simp) (by simp)
    rcases hrest with rfl | hrest
    · exact ⟨⟨hnow, trivial⟩, rfl⟩
    have hpast' : terminationOf (terminations (past ++ [⟨.now, time⟩])) =
        some (signal, deadline) := by
      rw [terminations_append, show terminations [⟨.now, time⟩] = [] from rfl, List.append_nil,
        hpast]
    have htime : (readings (past ++ [⟨.now, time⟩])).getLast? = some time := by
      rw [readings_append, show readings [⟨.now, time⟩] = [time] from rfl, List.getLast?_concat]
    have hsend : ∀ {front : List TreeEvent},
        Behaves (signalDescendants self (roundSignal signal deadline time)).run front →
        Follows (ReaperLaw self) (past ++ [⟨.now, time⟩]) front ∧ terminations front = [] := by
      intro front hfront
      refine ⟨follows_signalDescendants hpast' htime hfront, terminations_of_timeless ?_⟩
      exact fun event hevent =>
        timeless_of_searches ((searches_signalDescendants self _).behaves hfront event hevent)
    rcases behaves_andThen hrest with hfront | ⟨front, back, _, rfl, hfront, hback⟩
    · obtain ⟨hfollows, hnone⟩ := hsend hfront
      exact ⟨⟨hnow, hfollows⟩, hnone⟩
    · cases behaves_done hback
      obtain ⟨hfollows, hnone⟩ := hsend (Or.inl ⟨_, hfront⟩)
      rw [List.append_nil]
      exact ⟨⟨hnow, hfollows⟩, hnone⟩

/-- A round that ends well. -/
theorem runs_signalRound {signal : Signal} {deadline : Nat} {timeout : Option Nat}
    (h : Runs (signalRound self (some (signal, deadline))).run trace (.ok timeout)) :
    ∃ time round, trace = ⟨.now, time⟩ :: round ∧
      Runs (signalDescendants self (roundSignal signal deadline time)).run round (.ok ()) := by
  obtain ⟨time, rest, rfl, hrest⟩ := runs_op_andThen.mp h
  rcases runs_andThen.mp hrest with ⟨e, _, heq⟩ | ⟨front, back, _, rfl, hsend, hdone⟩
  · cases heq
  · obtain ⟨rfl, _⟩ := runs_done_iff.mp hdone
    exact ⟨time, front, by rw [List.append_nil], hsend⟩

/-- A wait right after a round. -/
theorem reaperLaw_wait {termination : Option (Signal × Nat)} {timeout : Option Nat}
    (hpast : terminationOf (terminations past) = termination) (hnone : terminations trace = [])
    (hround : Runs (signalRound self termination).run trace (.ok timeout))
    (answer : (TreeOperation.sigtimedwait timeout).Ret) :
    ReaperLaw self (past ++ trace) ⟨.sigtimedwait timeout, answer⟩ := by
  refine ⟨fun _ _ hop => (nomatch hop), ?_⟩
  intro _ signal deadline _ hknown
  rw [terminations_append, hnone, List.append_nil, hpast] at hknown
  rw [hknown] at hround
  obtain ⟨time, sent, rfl, hsent⟩ := runs_signalRound hround
  have htimeless : readings sent = [] := readings_of_timeless fun event hevent =>
    timeless_of_searches ((searches_signalDescendants self _).runs hsent event hevent)
  exact ⟨past, time, sent, rfl, htimeless, round_signalDescendants hsent⟩

/-- A whole run, from any turn on. -/
theorem follows_waitLoop {code : Option Int} {termination : Option (Signal × Nat)}
    (hpast : terminationOf (terminations past) = termination)
    (h : Behaves (waitLoop self commandPid waits turns code termination).run trace) :
    Follows (ReaperLaw self) past trace := by
  induction turns generalizing code termination past trace with
  | zero =>
    cases behaves_pending h
    trivial
  | succ turns ih =>
    rcases behaves_andThen h with hcollect | ⟨front, back, collected, rfl, hcollect, hback⟩
    · exact follows_collect hcollect
    have hfront : terminations front = [] :=
      terminations_of_timeless (timeless_collect.runs hcollect)
    refine follows_append.mpr ⟨follows_collect (Or.inl ⟨_, hcollect⟩), ?_⟩
    have hpast' : terminationOf (terminations (past ++ front)) = termination := by
      rw [terminations_append, hfront, List.append_nil, hpast]
    cases collected with
    | childless code =>
      cases code with
      | none =>
        cases behaves_done hback
        trivial
      | some code =>
        cases behaves_done hback
        trivial
    | alive code =>
      rcases behaves_andThen hback with hround | ⟨round, last, timeout, rfl, hround, hlast⟩
      · exact (follows_signalRound hpast' hround).1
      obtain ⟨hfollows, hnone⟩ := follows_signalRound hpast' (Or.inl ⟨_, hround⟩)
      refine follows_append.mpr ⟨hfollows, ?_⟩
      rcases behaves_op_andThen hlast with rfl | ⟨answer, rest, rfl, hrest⟩
      · trivial
      refine ⟨reaperLaw_wait hpast' hnone hround answer, ?_⟩
      rcases hrest with rfl | hrest
      · trivial
      have hpast'' : ∀ received, terminations [⟨.sigtimedwait timeout, answer⟩] = received →
          terminations (past ++ front ++ round ++ [⟨.sigtimedwait timeout, answer⟩]) =
            terminations past ++ received := by
        intro received hreceived
        rw [terminations_append, terminations_append, terminations_append, hfront, hnone, hreceived,
          List.append_nil, List.append_nil]
      cases answer with
      | ok awaited =>
        refine ih ?_ hrest
        cases awaited with
        | sigChld => rw [hpast'' [] rfl, List.append_nil, hpast, receive]
        | termination signal time =>
          rw [hpast'' [(signal, time)] rfl, ← hpast, receive_terminationOf]
      | error errno =>
        dsimp only at hrest
        split at hrest
        next =>
          refine ih ?_ hrest
          rw [hpast'' [] rfl, List.append_nil, hpast]
        next =>
          cases behaves_done hrest
          trivial

end Loop

end CommandTree

end Scproxy
