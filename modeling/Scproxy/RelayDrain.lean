import Scproxy.RelayQueues

namespace Scproxy.Relay

namespace Draining

variable {capacity : Nat}

/-- What holds at every moment since a first one. -/
structure Kept (first s : Draining) : Prop where
  closing : s.relay.closeAfterDrain = true
  host : bytesWritten .host s.relay.trace ++ s.relay.toHost ++ s.unread =
    bytesWritten .host first.relay.trace ++ first.relay.toHost ++ first.unread
  application : bytesWritten .application s.relay.trace ++ s.relay.toApplication =
    bytesWritten .application first.relay.trace ++ first.relay.toApplication
  emptied : s.finished = true → s.Emptied
  loop : ∃ rounds, Relay.loop rounds first.relay = (.ok s.finished, s.relay)

section

variable {first s t : Draining}

theorem Kept.turn (h : Kept first s) (hstep : Step capacity .turn s t) : Kept first t := by
  have hturned := turned_of_step h.closing hstep
  obtain ⟨hunfinished, fired, finished, relay, hturn, rfl⟩ := hstep
  obtain ⟨rounds, hloop⟩ := h.loop
  rw [hunfinished] at hloop
  refine ⟨hturned.closing, ?_, ?_, hturned.finished.mp, _, loop_concat hloop hturn⟩
  · rw [hturned.host, hturned.toHost, List.append_assoc _ (List.take _ _), List.take_append_drop,
      ← h.host]
    simp only [List.append_assoc, List.take_append_drop]
  · rw [hturned.application, hturned.toApplication, List.append_assoc, List.take_append_drop,
      h.application]

theorem Kept.acknowledge (h : Kept first s) {side : Side} {n : Nat} (hn : n < s.queue side) :
    Kept first { s with queue := Function.update s.queue side n } := by
  refine ⟨h.closing, h.host, h.application, ?_, h.loop⟩
  intro hfinished
  obtain ⟨happlication, hhost, hqueue, hunread⟩ := h.emptied hfinished
  refine ⟨happlication, hhost, ?_, hunread⟩
  cases side with
  | application => omega
  | host => exact hqueue

/-- Every turn and every acknowledgement brings the end of the relay nearer. Only a turn that finds
the queues full does not, and then a peer is due. -/
theorem drains (hcapacity : 0 < capacity) (first : Draining) :
    (drainSystem capacity).Drains (fun _ => True) (Kept first) (fun s => s.finished = true)
      (next capacity) rank where
  step l s t hkept hstep := by
    cases l with
    | turn =>
      refine ⟨hkept.turn hstep, ?_⟩
      have hturned := turned_of_step hkept.closing hstep
      have hrank := hturned.rank hstep.1
      by_cases hidle : s.moves capacity = 0
      · obtain ⟨hsame, hfinished⟩ := hturned.idle hidle
        by_cases hempty : s.Emptied
        · rw [if_pos (hfinished.mpr hempty)] at hrank
          exact .inl (by omega)
        · rw [if_neg (fun ht => hempty (hfinished.mp ht)), hidle] at hrank
          refine .inr ⟨hrank, fun _ => ⟨hsame, ?_⟩⟩
          unfold next
          rw [if_neg (not_or.mpr ⟨by omega, hempty⟩)]
          split
          · exact nofun
          · exact nofun
      · exact .inl (by omega)
    | acknowledge side =>
      obtain ⟨n, hn, rfl⟩ := hstep
      refine ⟨hkept.acknowledge hn, .inl ?_⟩
      cases side with
      | application => simp [rank]; omega
      | host => simp [rank]; omega
  enabled s hkept hunfinished := by
    refine ⟨trivial, ?_⟩
    unfold next
    split
    next => exact enabled_turn hkept.closing (Bool.eq_false_iff.mpr hunfinished)
    next hidle =>
      rw [not_or, Nat.not_lt, Nat.le_zero] at hidle
      obtain ⟨happlication, hhost⟩ := queue_pos_of_idle hcapacity hidle.1 hidle.2
      split
      next hempty => exact ⟨_, 0, happlication hempty, rfl⟩
      next hpending => exact ⟨_, 0, hhost hpending, rfl⟩

end

end Draining

/-- After the end of a stream, when the application sends nothing more and the peers go on taking
what they are sent, the relay returns without an error. By then each side was sent all that was
read for it, and the application has acknowledged it. -/
theorem drain_completes {capacity : Nat} (hcapacity : 0 < capacity)
    (run : (drainSystem capacity).Run) (hfair : run.Fair fun _ => True) :
    ∃ i rounds, loop rounds (run.state 0).relay = (.ok true, (run.state i).relay) ∧
      bytesWritten .host (run.state i).relay.trace =
        bytesWritten .host (run.state 0).relay.trace ++ (run.state 0).relay.toHost ++
          (run.state 0).unread ∧
      bytesWritten .application (run.state i).relay.trace =
        bytesWritten .application (run.state 0).relay.trace ++ (run.state 0).relay.toApplication ∧
      (run.state i).queue .application = 0 := by
  have hdrains := Draining.drains hcapacity (run.state 0)
  obtain ⟨hclosing, hunfinished⟩ := run.starts
  have hstart : Draining.Kept (run.state 0) (run.state 0) :=
    ⟨hclosing, rfl, rfl, by rw [hunfinished]; exact nofun, [], by rw [hunfinished]; rfl⟩
  obtain ⟨i, hi, hfinished⟩ := hdrains.reaches hfair hstart
  have hkept : Draining.Kept (run.state 0) (run.state i) :=
    run.keeps (fun j _ hj l hl => (hdrains.step l _ _ hj (run.happens j l hl)).1) hstart hi
  obtain ⟨happlication, hhost, hqueue, hunread⟩ := hkept.emptied hfinished
  obtain ⟨rounds, hloop⟩ := hkept.loop
  rw [hfinished] at hloop
  refine ⟨i, rounds, hloop, ?_, ?_, hqueue⟩
  · have hall := hkept.host
    rw [hhost, hunread, List.append_nil, List.append_nil] at hall
    exact hall
  · have hall := hkept.application
    rw [happlication, List.append_nil] at hall
    exact hall

def drainFirst : Draining := ⟨⟨[], [], [65], true, []⟩, [66], fun _ => 0, false⟩

/-- `drainFirst` behind its first turn. -/
def drainSecond : Draining :=
  ⟨(turn (drainFirst.round 4 0) drainFirst.relay).2, [], fun side => drainFirst.writes 4 side, true⟩

theorem drainPath : (drainSystem 4).Path drainFirst [(.turn, drainSecond),
    (.acknowledge .host,
      { drainSecond with queue := Function.update drainSecond.queue .host 0 })] := by
  refine ⟨⟨rfl, 0, true, _, rfl, ?_⟩, ⟨0, by decide, rfl⟩, trivial⟩
  have hqueue : (fun side => drainFirst.queue side + drainFirst.writes 4 side) =
      fun side => drainFirst.writes 4 side := funext fun side => Nat.zero_add _
  rw [hqueue]
  rfl

theorem drain_completes_pending : ∃ run : (drainSystem 4).Run, ∃ i rounds,
    loop rounds (run.state 0).relay = (.ok true, (run.state i).relay) ∧
      bytesWritten .host (run.state i).relay.trace = [65, 66] := by
  have hfair : (drainPath.run ⟨rfl, rfl⟩).Fair fun _ => True := by
    refine drainPath.run_fair ⟨rfl, rfl⟩ fun l _ => ?_
    rintro ⟨t, hstep⟩
    cases l with
    | turn => exact absurd hstep.1 (by decide)
    | acknowledge side =>
      obtain ⟨n, hn, _⟩ := hstep
      cases side with
      | application => exact absurd hn (Nat.not_lt_zero n)
      | host => exact absurd hn (Nat.not_lt_zero n)
  obtain ⟨i, rounds, hloop, hhost, _, _⟩ := drain_completes (by decide) _ hfair
  exact ⟨_, i, rounds, hloop, hhost⟩

end Scproxy.Relay
