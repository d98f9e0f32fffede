import Scproxy.ReceiverAccount

namespace Scproxy

namespace Receiving

/-- The receiver with nothing in the channel. -/
def quiet (thread : ReceiverPoint) (owner : ReceiverOwner) (stop wake handled : Bool) : Receiving :=
  ⟨thread, owner, stop, wake, handled, false, [], [], [], [], []⟩

/-- The notification vanishes behind `epoll_wait`, and the first signal comes before the thread
is inside the receive that waits for it. -/
def missedSignal : List (ReceivingEvent × Receiving) :=
  [(.work, quiet (.polling .outside) .owning false false true),
   (.work, quiet (.polling .inside) .owning false false true),
   (.answer, quiet (.polled [⟨epollIn, 1⟩]) .owning false false true),
   (.work, quiet (.receiving .outside) .owning false false true),
   (.begin, quiet (.receiving .outside) .storing false false true),
   (.drop, quiet (.receiving .outside) .waking true false true),
   (.drop, quiet (.receiving .outside) .checking true true true),
   (.drop, quiet (.receiving .outside) .signalling true true true),
   (.drop, quiet (.receiving .outside) .checking true true true),
   (.work, quiet (.receiving .inside) .checking true true true),
   (.drop, quiet (.receiving .inside) .signalling true true true),
   (.drop, quiet (.receiving .interrupted) .checking true true true),
   (.work, quiet .test .checking true true true),
   (.work, quiet .finished .checking true true true),
   (.drop, quiet .finished .joining true true true),
   (.drop, quiet .finished .restoring true true true),
   (.drop, quiet .finished .gone true true false)]

theorem missedSignal_path : receiving.Path (quiet .test .owning false false true) missedSignal := by
  refine ⟨rfl, rfl, Or.inl ⟨rfl, .ok [⟨epollIn, 1⟩], rfl⟩, rfl, ⟨rfl, rfl⟩, rfl, rfl, rfl, rfl, rfl,
    rfl, rfl, ⟨.error (.os Errno.eintr), rfl⟩, rfl, rfl, rfl, rfl, trivial⟩

/-- The receives that may still succeed, with the flag set. -/
def budget (s : Receiving) : Nat := s.taken.length + if s.thread.isReceiving then 1 else 0

theorem Moves.budget {s t : Receiving} (h : s.Moves t) (hstop : s.stop = true) :
    t.budget ≤ s.budget := by
  cases h with
  | go point _ _ _ hreceiving =>
    have hkeeps := hreceiving hstop
    simp only [Receiving.budget]
    split <;> split <;> simp_all
  | receive call result hthread =>
    have hafter := (ReceiverPoint.rank_afterReceive result).2
    have hone : result.toOption.toList.length ≤ 1 := by
      cases result <;> simp [Except.toOption]
    have hbefore : s.thread.isReceiving = true := by rw [hthread]; rfl
    simp only [Receiving.budget, received, hafter, hbefore, List.length_append, if_true,
      Bool.false_eq_true, if_false]
    omega
  | send item hthread =>
    simp only [Receiving.budget]
    rcases s.send_cases item with ⟨_, hsend⟩ | ⟨_, point, _, _, hpoint, hsend⟩ |
      ⟨point, _, _, hpoint, hsend⟩ <;> rw [hsend]
    · simp [ReceiverPoint.isReceiving]
    · simp [hpoint]
    · simp [hpoint]
  | refuse notification hthread =>
    simp [Receiving.budget, ReceiverPoint.isReceiving]

theorem Drop.budget {s t : Receiving} (h : s.Drop t) (hstop : s.stop = true) :
    t.stop = true ∧ t.budget = s.budget := by
  unfold Drop at h
  split at h
  all_goals cases h
  all_goals simp [Receiving.budget, hstop]

theorem budget_step {event : ReceivingEvent} {s t : Receiving} (hstop : s.stop = true)
    (hstep : Step event s t) : t.stop = true ∧ t.budget ≤ s.budget := by
  rcases step_cases hstep with hmoves | ⟨item, rest, _, rfl⟩ | rfl | ⟨howner, rfl⟩ | hdrop
  · exact ⟨by rw [hmoves.frame.2.1]; exact hstop, hmoves.budget hstop⟩
  · exact ⟨hstop, Nat.le_refl _⟩
  · exact ⟨hstop, Nat.le_refl _⟩
  · exact ⟨hstop, Nat.le_refl _⟩
  · obtain ⟨hset, hsame⟩ := hdrop.budget hstop
    exact ⟨hset, Nat.le_of_eq hsame⟩

/-- Once the flag is set, at most one more notification is taken from the kernel, and only if
the thread was past its second test of the flag by then. -/
theorem stop_bounds_receives {s t : Receiving} (hstop : s.stop = true)
    (h : receiving.Steps s t) :
    t.taken.length ≤ s.taken.length + if s.thread.isReceiving then 1 else 0 := by
  have hbudget : t.budget ≤ s.budget :=
    Transition.Steps.relate (I := fun s => s.stop = true) (R := fun s t => t.budget ≤ s.budget)
      (fun _ => Nat.le_refl _) (fun _ _ _ hst htu => Nat.le_trans htu hst)
      (fun _ _ _ hs hstep => budget_step hs hstep) hstop h
  exact Nat.le_trans (Nat.le_add_right _ _) hbudget

theorem stop_bounds_receives_late :
    ∃ s t : Receiving, s.stop = true ∧ s.taken = [] ∧ t.taken.length = 1 ∧
      t.taken.length ≤ s.taken.length + if s.thread.isReceiving then 1 else 0 := by
  have hsteps : receiving.Steps (quiet (.receiving .outside) .waking true false true)
      ((quiet (.receiving .inside) .waking true false true).received
        (.ok ⟨1, 1, ⟨0, 0, 0, fun _ => 0⟩⟩)) :=
    .head ⟨.work, rfl⟩ (.single ⟨.answer, Or.inr ⟨rfl, _, rfl⟩⟩)
  exact ⟨_, _, rfl, rfl, rfl, stop_bounds_receives rfl hsteps⟩

/-- A call of the thread goes on until it is interrupted or answered. -/
def inside : ReceiverPoint → Bool
  | .polling .inside | .receiving .inside => true
  | _ => false

/-- How much the owner has still to do while the thread stays where it is. -/
def ownerRank (point : ReceiverPoint) : ReceiverOwner → Nat
  | .checking => if point.isFinished then 3 else if inside point then 2 else 1
  | .signalling => if point.isFinished then 4 else 1
  | .joining => 2
  | .restoring => 1
  | .owning | .storing | .waking | .gone => 0

/-- Until the flag is set and the eventfd written, the thread does not count. -/
def rank (s : Receiving) : Nat :=
  match s.owner with
  | .owning => 102
  | .storing => 101
  | .waking => 100
  | owner => 8 * s.thread.rank + ownerRank s.thread owner

/-- The step that must not be left out for the thread to end. -/
def threadNext : ReceiverPoint → ReceivingEvent
  | .finished => .drop
  | .polling .inside => .woken
  | .receiving .inside => .drop
  | _ => .work

def next (s : Receiving) : ReceivingEvent :=
  match s.owner with
  | .owning => .begin
  | .storing | .waking => .drop
  | _ => threadNext s.thread

/-- The kernel need not have a notification for a thread that waits for one. -/
def due : ReceivingEvent → Prop
  | .work | .woken | .drop => True
  | .answer | .take | .close | .begin => False

def Gone (s : Receiving) : Prop := s.owner = .gone

def Stopping (s : Receiving) : Prop := s.Owned ∧ s.owner ≠ .owning

theorem ownerRank_le (point : ReceiverPoint) (owner : ReceiverOwner) :
    ownerRank point owner ≤ 4 := by
  cases owner <;> simp only [ownerRank] <;> repeat' split
  all_goals omega

theorem rank_le (point : ReceiverPoint) : point.rank ≤ 6 := by
  cases point with
  | polling call | receiving call => cases call <;> decide
  | test | polled _ | sending _ | refusing _ | pausing | finished => simp [ReceiverPoint.rank]

/-- A step of the thread counts for more than anything it changes for the owner. -/
theorem Moves.rank_step {s t : Receiving} (h : s.Stopping) (hmoves : s.Moves t) :
    t.rank < s.rank ∨ t.rank = s.rank ∧ next t = next s ∧ next s = .drop := by
  have howner := hmoves.frame.1
  have hweight := ownerRank_le t.thread s.owner
  by_cases hearly : s.owner = .storing ∨ s.owner = .waking
  · right
    rcases hearly with heq | heq <;> simp [Receiving.rank, next, howner, heq]
  · left
    push Not at hearly
    have hset : s.stop = true := h.1.stop.mpr ⟨h.2, hearly.1⟩
    have hlower := hmoves.rank hset
    have hnot := h.2
    simp only [Receiving.rank, howner]
    cases hcase : s.owner <;> simp_all <;> omega

theorem interrupt_of_outside {point : ReceiverPoint} (h : inside point = false) :
    point.interrupt = point := by
  cases point with
  | polling call | receiving call => cases call <;> first | rfl | cases h
  | test | polled _ | sending _ | refusing _ | pausing | finished => rfl

theorem rank_interrupt {point : ReceiverPoint} (h : inside point = true) :
    point.interrupt.rank + 1 = point.rank ∧ point.interrupt.isFinished = false ∧
      inside point.interrupt = false := by
  cases point with
  | polling call | receiving call => cases call <;> first | exact ⟨rfl, rfl, rfl⟩ | cases h
  | test | polled _ | sending _ | refusing _ | pausing | finished => cases h

theorem threadNext_ne_drop {point : ReceiverPoint} (hfinished : point.isFinished = false)
    (hinside : inside point = false) : threadNext point ≠ .drop := by
  cases point with
  | polling call | receiving call => cases call <;> first | decide | cases hinside
  | test | polled _ | sending _ | refusing _ | pausing => exact nofun
  | finished => cases hfinished

/-- A turn of the loop of the destructor brings nothing while the thread is busy outside the
two calls, and then the thread's step is the one to come. -/
theorem Drop.rank_step {s t : Receiving} (hdrop : s.Drop t) :
    t.rank < s.rank ∨ t.rank = s.rank ∧ next t = next s ∧ next s ≠ .drop := by
  unfold Drop at hdrop
  cases howner : s.owner with
  | owning | gone =>
    rw [howner] at hdrop
    cases hdrop
  | storing =>
    rw [howner] at hdrop
    subst hdrop
    simp [Receiving.rank, howner]
  | waking =>
    rw [howner] at hdrop
    subst hdrop
    have hthread := rank_le s.thread
    have hweight := ownerRank_le s.thread .checking
    left
    simp only [Receiving.rank, howner]
    omega
  | checking =>
    rw [howner] at hdrop
    subst hdrop
    cases hfinished : s.thread.isFinished with
    | true => simp [Receiving.rank, howner, ownerRank, hfinished]
    | false =>
      cases hinside : inside s.thread with
      | true => simp [Receiving.rank, howner, ownerRank, hfinished, hinside]
      | false =>
        have hother := threadNext_ne_drop hfinished hinside
        simp [Receiving.rank, next, howner, ownerRank, hfinished, hinside, hother]
  | signalling =>
    rw [howner] at hdrop
    subst hdrop
    cases hinside : inside s.thread with
    | true =>
      obtain ⟨hlower, hnot, hout⟩ := rank_interrupt hinside
      left
      simp only [Receiving.rank, howner, ownerRank, hnot, hout, Bool.false_eq_true, if_false]
      split <;> omega
    | false =>
      rw [interrupt_of_outside hinside]
      cases hfinished : s.thread.isFinished with
      | true => simp [Receiving.rank, howner, ownerRank, hfinished]
      | false =>
        have hother := threadNext_ne_drop hfinished hinside
        simp [Receiving.rank, next, howner, ownerRank, hfinished, hinside, hother]
  | joining | restoring =>
    rw [howner] at hdrop
    subst hdrop
    simp [Receiving.rank, howner, ownerRank]

theorem next_ne_broker (s : Receiving) : next s ≠ .take ∧ next s ≠ .close := by
  unfold next
  split
  · exact ⟨nofun, nofun⟩
  · exact ⟨nofun, nofun⟩
  · exact ⟨nofun, nofun⟩
  · unfold threadNext
    split <;> exact ⟨nofun, nofun⟩

theorem rank_step {event : ReceivingEvent} {s t : Receiving} (h : s.Stopping)
    (hstep : Step event s t) : Transition.Nears Gone next rank event s t := by
  have hmoved (hmoves : s.Moves t) (hevent : event ≠ .drop) :
      Transition.Nears Gone next rank event s t := by
    rcases hmoves.rank_step h with hlower | ⟨hsame, hnext, hdrop⟩
    · exact Or.inl hlower
    · exact Or.inr ⟨hsame, fun _ => ⟨hnext, hdrop ▸ hevent⟩⟩
  obtain ⟨htake, hclose⟩ := next_ne_broker s
  cases event with
  | work => exact hmoved (Work.moves hstep) nofun
  | answer =>
    rcases hstep with ⟨hthread, result, rfl⟩ | ⟨hthread, result, rfl⟩
    · exact hmoved (.poll hthread result) nofun
    · exact hmoved (.receive _ result hthread) nofun
  | woken =>
    obtain ⟨hthread, _, events, _, rfl⟩ := hstep
    exact hmoved (.poll hthread _) nofun
  | take =>
    obtain ⟨item, rest, _, _, rfl⟩ := hstep
    exact Or.inr ⟨rfl, fun _ => ⟨rfl, htake.symm⟩⟩
  | close =>
    cases hstep
    exact Or.inr ⟨rfl, fun _ => ⟨rfl, hclose.symm⟩⟩
  | begin => exact absurd hstep.1 h.2
  | drop =>
    rcases Drop.rank_step hstep with hlower | ⟨hsame, hnext, hother⟩
    · exact Or.inl hlower
    · exact Or.inr ⟨hsame, fun _ => ⟨hnext, hother.symm⟩⟩

theorem Stopping.step {event : ReceivingEvent} {s t : Receiving} (h : s.Stopping)
    (hstep : Step event s t) : t.Stopping := by
  refine ⟨h.1.step hstep, ?_⟩
  rcases step_cases hstep with hmoves | ⟨item, rest, _, rfl⟩ | rfl | ⟨_, rfl⟩ | hdrop
  · rw [hmoves.frame.1]
    exact h.2
  · exact h.2
  · exact h.2
  · exact nofun
  · unfold Drop at hdrop
    split at hdrop
    case h_4 =>
      subst hdrop
      cases s.thread.isFinished <;> exact nofun
    all_goals cases hdrop
    all_goals exact nofun

/-- The destructor finds its next step at every point. -/
theorem drop_enabled {s : Receiving} (hstarted : s.owner ≠ .owning) (hgone : ¬s.Gone) :
    receiving.Enabled .drop s := by
  simp only [Transition.Enabled, receiving, Step, Drop]
  cases howner : s.owner with
  | owning => exact absurd howner hstarted
  | gone => exact absurd howner hgone
  | storing | waking | checking | signalling | joining | restoring => exact ⟨_, rfl⟩

theorem next_enabled {s : Receiving} (h : s.Stopping) (hgone : ¬s.Gone) :
    due (next s) ∧ receiving.Enabled (next s) s := by
  have hdrop := drop_enabled h.2 hgone
  have hwake := h.1.wake
  have hstarted := h.2
  have hthread : s.owner ≠ .storing → s.owner ≠ .waking →
      due (threadNext s.thread) ∧ receiving.Enabled (threadNext s.thread) s := by
    intro hstoring hwaking
    have hset : s.wake = true := hwake.mpr ⟨hstarted, hstoring, hwaking⟩
    have hwork {t : Receiving} (hstep : s.Work t) : receiving.Enabled .work s := ⟨t, hstep⟩
    simp only [Work] at hwork
    cases hpoint : s.thread with
    | finished => exact ⟨trivial, hdrop⟩
    | polling call =>
      cases call with
      | inside =>
        exact ⟨trivial, _, hpoint, hset, [⟨epollIn, 2⟩], ⟨_, List.mem_singleton_self _, rfl⟩, rfl⟩
      | outside => exact ⟨trivial, hwork (by simp only [hpoint]; rfl)⟩
      | interrupted => exact ⟨trivial, hwork (by simp only [hpoint]; exact ⟨.ok [], rfl⟩)⟩
    | receiving call =>
      cases call with
      | inside => exact ⟨trivial, hdrop⟩
      | outside => exact ⟨trivial, hwork (by simp only [hpoint]; rfl)⟩
      | interrupted =>
        exact ⟨trivial, hwork (by simp only [hpoint]; exact ⟨.error (.os Errno.eintr), rfl⟩)⟩
    | test | polled _ | sending _ | refusing _ | pausing =>
      exact ⟨trivial, hwork (by simp only [hpoint]; rfl)⟩
  cases howner : s.owner with
  | owning => exact absurd howner hstarted
  | storing | waking =>
    simp only [next, howner]
    exact ⟨trivial, hdrop⟩
  | checking | signalling | joining | restoring | gone =>
    simp only [next, howner]
    exact hthread (by rw [howner]; exact nofun) (by rw [howner]; exact nofun)

theorem drains : receiving.Drains due Stopping Gone next rank where
  step _ _ _ h hstep := ⟨h.step hstep, rank_step h hstep⟩
  enabled _ h hgone := next_enabled h hgone

/-- However the thread and the signals race, and though a notification that the thread waits
for may never come, a receiver that is dropped gets rid of its thread. -/
theorem dropped_receiver_stops (run : receiving.Run) (hfair : run.Fair due) {i : Nat}
    (hdropped : (run.state i).owner ≠ .owning) : ∃ j, i ≤ j ∧ (run.state j).Gone :=
  drains.reaches hfair ⟨owned (run.reachable i), hdropped⟩

theorem gone_ends {event : ReceivingEvent} (hdue : due event) :
    ¬receiving.Enabled event (quiet .finished .gone true true false) := by
  rintro ⟨t, hstep⟩
  cases event with
  | work | drop => exact hstep
  | woken => cases hstep.1
  | answer | take | close | begin => exact hdue

theorem dropped_receiver_stops_missed :
    ∃ j, 5 ≤ j ∧ ((missedSignal_path.run rfl).state j).Gone :=
  dropped_receiver_stops _ (missedSignal_path.run_fair rfl fun _ hdue => gone_ends hdue)
    (by decide)

end Receiving

end Scproxy
