import Scproxy.ReaperExit

namespace Scproxy

namespace CommandTree

open Interaction

theorem terminationOf_eq_some {received : List (Signal × Nat)} {signal : Signal} {deadline : Nat}
    (h : terminationOf received = some (signal, deadline)) :
    ∃ first rest last, received = first :: rest ∧ received.getLast? = some last ∧
      last.1 = signal ∧ first.2 + grace = deadline := by
  cases received with
  | nil => cases h
  | cons first rest =>
    obtain ⟨hsignal, hdeadline⟩ := Prod.mk.inj (Option.some.inj h)
    exact ⟨first, rest, _, rfl, List.getLast?_eq_some_getLast _, hsignal, hdeadline⟩

theorem terminationOf_of_first {received rest : List (Signal × Nat)} {first last : Signal × Nat}
    (hfirst : received = first :: rest) (hlast : received.getLast? = some last) :
    terminationOf received = some (last.1, first.2 + grace) := by
  subst hfirst
  rw [List.getLast?_eq_some_getLast (List.cons_ne_nil _ _), Option.some.injEq] at hlast
  rw [terminationOf, hlast]

theorem roundSignal_eq_ite (signal : Signal) (deadline time : Nat) :
    roundSignal signal deadline time =
      if deadline ≤ time then .sigKill else .termination signal := by
  simp only [roundSignal, Nat.sub_eq_zero_iff_le]

theorem roundSignal_eq_sigKill {signal : Signal} {deadline time : Nat} :
    roundSignal signal deadline time = .sigKill ↔ deadline ≤ time := by
  rw [roundSignal_eq_ite]
  split
  next h => exact ⟨fun _ => h, fun _ => rfl⟩
  next h => exact ⟨nofun, fun hle => absurd hle h⟩

/-- The clock does not go back between two signals. -/
theorem getLast?_readings_le {before after : List TreeEvent} {event : TreeEvent} {time time' : Nat}
    (hclock : (readings (before ++ event :: after)).Pairwise (· ≤ ·))
    (htime : (readings before).getLast? = some time) {middle : List TreeEvent}
    (hmiddle : middle <+: event :: after)
    (htime' : (readings (before ++ middle)).getLast? = some time') : time ≤ time' := by
  obtain ⟨rest, heq⟩ := hmiddle
  rw [← heq, ← List.append_assoc, readings_append] at hclock
  have hsorted := (List.pairwise_append.mp hclock).1
  rw [readings_append] at hsorted htime'
  rw [List.getLast?_append] at htime'
  cases hlast : (readings middle).getLast? with
  | none =>
    rw [hlast, Option.none_or, htime] at htime'
    exact (Option.some.inj htime').le
  | some later =>
    rw [hlast] at htime'
    cases htime'
    exact (List.pairwise_append.mp hsorted).2.2 _ (List.mem_of_getLast? htime) _
      (List.mem_of_getLast? hlast)

theorem waitForCommandTree_signals {self commandPid : Pid} {waits turns : Nat}
    {trace : List TreeEvent}
    (hbehaves : Behaves (waitForCommandTree self commandPid waits turns).run trace)
    (hclock : (readings trace).Pairwise (· ≤ ·)) :
    (∀ before pid sent answer after, trace = before ++ ⟨.kill pid sent, answer⟩ :: after →
      ∃ first rest last time, terminations before = first :: rest ∧
        (terminations before).getLast? = some last ∧ (readings before).getLast? = some time ∧
        (sent = .sigKill ↔ first.2 + 2000000000 ≤ time) ∧
        (time < first.2 + 2000000000 → sent = .termination last.1) ∧
        (sent = .sigKill → ∀ event ∈ after, ∀ other later,
          event.op = .kill other later → later = .sigKill)) ∧
    (∀ before timeout answer after first rest last,
      trace = before ++ ⟨.sigtimedwait timeout, answer⟩ :: after →
      terminations before = first :: rest → (terminations before).getLast? = some last →
      ∃ front time round, before = front ++ ⟨.now, time⟩ :: round ∧ readings round = [] ∧
        SignallingRound self (if first.2 + 2000000000 ≤ time then .sigKill
          else .termination last.1) round) ∧
    ∀ value, Runs (waitForCommandTree self commandPid waits turns).run trace (.ok value) →
      ∃ before, trace = before ++ [⟨.waitpid, .error Errno.echild⟩] := by
  have hfollows : Follows (ReaperLaw self) [] trace := follows_waitLoop rfl hbehaves
  refine ⟨?_, ?_, fun value hrun => (runs_waitLoop hrun).2⟩
  · rintro before pid sent answer after rfl
    obtain ⟨signal, deadline, time, hknown, htime, rfl⟩ := hfollows.law_at.signal pid sent rfl
    rw [List.nil_append] at hknown htime
    obtain ⟨first, rest, last, hreceived, hlast, rfl, rfl⟩ := terminationOf_eq_some hknown
    refine ⟨first, rest, last, time, hreceived, hlast, htime, roundSignal_eq_sigKill, ?_, ?_⟩
    · intro hearly
      exact if_neg (Nat.sub_ne_zero_of_lt hearly)
    · intro hkill event hevent other later hop
      have hlate := roundSignal_eq_sigKill.mp hkill
      obtain ⟨middle, tail, rfl⟩ := List.append_of_mem hevent
      rw [← List.cons_append, ← List.append_assoc] at hfollows
      obtain ⟨signal', deadline', time', hknown', htime', rfl⟩ :=
        hfollows.law_at.signal other later hop
      rw [List.nil_append] at hknown' htime'
      obtain ⟨first', rest', last', hreceived', _, rfl, rfl⟩ := terminationOf_eq_some hknown'
      rw [terminations_append, hreceived, List.cons_append] at hreceived'
      obtain ⟨rfl, _⟩ := List.cons.inj hreceived'
      have hle := getLast?_readings_le hclock htime
        ⟨event :: tail, by rw [List.cons_append]⟩ htime'
      exact roundSignal_eq_sigKill.mpr (hlate.trans hle)
  · rintro before timeout answer after first rest last rfl hreceived hlast
    have hround := hfollows.law_at.round timeout last.1 (first.2 + grace) rfl
    rw [List.nil_append] at hround
    obtain ⟨front, time, round, heq, htimeless, hsent⟩ :=
      hround (terminationOf_of_first hreceived hlast)
    rw [roundSignal_eq_ite] at hsent
    exact ⟨front, time, round, heq, htimeless, hsent⟩

theorem explore_of_pending {root pid : Pid} {s : StackSearch root} {rest : List Pid}
    (h : s.pending = pid :: rest) :
    explore s = (readProcess pid >>= fun children => explore (children.foldl .offer s.pop)) := by
  rw [explore]
  split
  next hnil => simp [hnil] at h
  next other _ hcons =>
    cases hcons.symm.trans h
    rfl

theorem explore_of_empty {root : Pid} {s : StackSearch root} (h : s.pending = []) :
    explore s = pure s.found := by
  rw [explore]
  split
  next => rfl
  next hcons => simp [hcons] at h

/-- Process 1 has the child 10, which has no directory when it is looked at. -/
def oneChild (sent : Sending) : List TreeEvent :=
  [⟨.readDir 1, .ok [.ok "1"]⟩, ⟨.readChildren 1 "1", .ok (childrenText [10])⟩,
    ⟨.readDir 10, .error (.os Errno.enoent)⟩, ⟨.kill 10 sent, .ok ()⟩]

theorem runs_oneChild (sent : Sending) :
    Runs (signalDescendants 1 sent).run (oneChild sent) (.ok ()) := by
  have hparent : Runs (readProcess 1).run
      [⟨.readDir 1, .ok [.ok "1"]⟩, ⟨.readChildren 1 "1", .ok (childrenText [10])⟩] (.ok [10]) := by
    refine .perform (.perform ?_)
    show Runs (Interaction.bind (.done (parsePids (childrenText [10]))) _) _ _
    rw [parsePids_childrenText [10]]
    exact .done _
  have hchild : Runs (readProcess 10).run [⟨.readDir 10, .error (.os Errno.enoent)⟩] (.ok []) :=
    .perform (.done _)
  have hsearch : Runs (explore (StackSearch.start (1 : Pid))).run
      [⟨.readDir 1, .ok [.ok "1"]⟩, ⟨.readChildren 1 "1", .ok (childrenText [10])⟩,
        ⟨.readDir 10, .error (.os Errno.enoent)⟩] (.ok [10]) := by
    rw [@explore_of_pending 1 1 _ [] rfl]
    refine runs_andThen.mpr (Or.inr ⟨_, _, [10], rfl, hparent, ?_⟩)
    rw [@explore_of_pending 1 10 _ [] rfl]
    refine runs_andThen.mpr (Or.inr ⟨_, [], [], rfl, hchild, ?_⟩)
    rw [explore_of_empty rfl]
    exact .done _
  have hsend : Runs (forwardAll sent [10]).run [⟨.kill 10 sent, .ok ()⟩] (.ok ()) :=
    .perform (.done _)
  exact runs_andThen.mpr (Or.inr ⟨_, _, [10], rfl, hsearch, hsend⟩)

/-- A command that does not end on `SIGTERM` and is killed at the deadline. -/
def stubborn : List TreeEvent :=
  [⟨.waitpid, .ok .stillAlive⟩, ⟨.sigtimedwait none, .ok (.termination .sigTerm 5)⟩,
    ⟨.waitpid, .ok .stillAlive⟩, ⟨.now, (7 : Nat)⟩] ++ oneChild (.termination .sigTerm) ++
  [⟨.sigtimedwait (some 1999999998), .ok .sigChld⟩, ⟨.waitpid, .ok .stillAlive⟩,
    ⟨.now, (2000000005 : Nat)⟩] ++ oneChild .sigKill ++
  [⟨.sigtimedwait (some 100000000), .ok .sigChld⟩, ⟨.waitpid, .ok (.reaped 10 (.signaled 9))⟩,
    ⟨.waitpid, .error Errno.echild⟩]

/-- A turn of the outer loop from its parts. -/
theorem runs_turn {self commandPid : Pid} {waits turns : Nat} {code next : Option Int}
    {termination : Option (Signal × Nat)} {waited round rest : List TreeEvent}
    {timeout : Option Nat} {result : Except TreeError Int} (awaited : Awaited)
    (hwaited : Runs (collect commandPid waits code).run waited (.ok (.alive next)))
    (hround : Runs (signalRound self termination).run round (.ok timeout))
    (hrest : Runs (waitLoop self commandPid waits turns next (receive termination awaited)).run rest
      result) :
    Runs (waitLoop self commandPid waits (turns + 1) code termination).run
      (waited ++ (round ++ ⟨.sigtimedwait timeout, .ok awaited⟩ :: rest)) result := by
  refine runs_andThen.mpr (Or.inr ⟨waited, _, _, rfl, hwaited, ?_⟩)
  refine runs_andThen.mpr (Or.inr ⟨round, _, timeout, rfl, hround, ?_⟩)
  exact runs_op_andThen.mpr ⟨.ok awaited, rest, rfl, hrest⟩

theorem runs_stubborn : Runs (waitForCommandTree 1 10 2 4).run stubborn (.ok 137) := by
  have hcollect : Runs (collect 10 2 none).run [⟨.waitpid, .ok .stillAlive⟩] (.ok (.alive none)) :=
    .perform (.done _)
  have hround : ∀ time, Runs (signalRound 1 (some (.sigTerm, 2000000005))).run
      (⟨.now, time⟩ :: oneChild (roundSignal .sigTerm 2000000005 time))
      (.ok (some (if 2000000005 - time = 0 then 100000000 else 2000000005 - time))) := by
    intro time
    refine runs_op_andThen.mpr ⟨time, _, rfl, ?_⟩
    exact runs_andThen.mpr (Or.inr ⟨_, [], (), (List.append_nil _).symm, runs_oneChild _, .done _⟩)
  have hlast : Runs (waitLoop 1 10 2 1 none (some (.sigTerm, 2000000005))).run
      [⟨.waitpid, .ok (.reaped 10 (.signaled 9))⟩, ⟨.waitpid, .error Errno.echild⟩] (.ok 137) :=
    .perform (.perform (.done _))
  have hquiet : Runs (signalRound 1 none).run [] (.ok none) := .done _
  have hthird : Runs (waitLoop 1 10 2 2 none (some (.sigTerm, 2000000005))).run _ (.ok 137) :=
    runs_turn .sigChld hcollect (hround 2000000005) hlast
  have hsecond : Runs (waitLoop 1 10 2 3 none (some (.sigTerm, 2000000005))).run _ (.ok 137) :=
    runs_turn .sigChld hcollect (hround 7) hthird
  exact runs_turn (.termination .sigTerm 5) hcollect hquiet hsecond

/-- The kill comes when the grace period is over, in a whole round. -/
theorem waitForCommandTree_signals_stubborn :
    Runs (waitForCommandTree 1 10 2 4).run stubborn (.ok 137) ∧
    (∃ before after time, stubborn = before ++ ⟨.kill 10 .sigKill, .ok ()⟩ :: after ∧
      (readings before).getLast? = some time ∧ 2000000005 ≤ time) ∧
    ∃ front round rest, stubborn = front ++ ⟨.now, (2000000005 : Nat)⟩ :: round ++
        ⟨.sigtimedwait (some 100000000), .ok .sigChld⟩ :: rest ∧
      SignallingRound 1 .sigKill round := by
  have hclock : (readings stubborn).Pairwise (· ≤ ·) := by
    show List.Pairwise (· ≤ ·) [5, 7, 2000000005]
    decide
  obtain ⟨hsignals, hrounds, _⟩ := waitForCommandTree_signals (Or.inl ⟨_, runs_stubborn⟩) hclock
  refine ⟨runs_stubborn, ?_, ?_⟩
  · obtain ⟨first, rest, last, time, hreceived, _, htime, hkill, _⟩ :=
      hsignals (stubborn.take 14) 10 .sigKill (.ok ()) (stubborn.drop 15) rfl
    have hfirst : terminations (stubborn.take 14) = [(.sigTerm, 5)] := rfl
    rw [hfirst] at hreceived
    obtain ⟨rfl, _⟩ := List.cons.inj hreceived
    exact ⟨stubborn.take 14, stubborn.drop 15, time, rfl, htime, hkill.mp rfl⟩
  · obtain ⟨front, time, round, heq, htimeless, hround⟩ :=
      hrounds (stubborn.take 15) (some 100000000) (.ok .sigChld) (stubborn.drop 16) (.sigTerm, 5) []
        (.sigTerm, 5) rfl rfl rfl
    have hreadings : readings (stubborn.take 15) = readings front ++ [time] := by
      rw [heq, readings_append, ← List.singleton_append, readings_append, htimeless, List.append_nil]
      rfl
    have htime : time = 2000000005 := by
      have hlast : (readings (stubborn.take 15)).getLast? = some 2000000005 := rfl
      rw [hreadings, List.getLast?_concat] at hlast
      exact Option.some.inj hlast
    subst htime
    refine ⟨front, round, stubborn.drop 16, ?_, hround⟩
    rw [← heq]
    rfl

end CommandTree

end Scproxy
