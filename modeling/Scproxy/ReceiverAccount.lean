import Scproxy.ReceiverMoves

namespace Scproxy

namespace Receiving

/-- The notifications that were put into the channel, in order. -/
def passed (s : Receiving) : List Notification :=
  (s.delivered ++ s.channel).filterMap Except.toOption

/-- Every notification that was taken was passed on, refused, lost to a closed channel or is in
the hands of the thread. Those passed on keep their order. -/
structure Accounted (s : Receiving) : Prop where
  split : ∃ earlier, s.taken = earlier ++ s.thread.held ∧ s.passed.Sublist earlier ∧
    earlier.Perm (s.passed ++ s.refused ++ s.lost)
  room : s.channel.length ≤ capacity
  lost : s.closed = false → s.lost = []

theorem Accounted.of_eq {s t : Receiving} (h : s.Accounted) (htaken : t.taken = s.taken)
    (hheld : t.thread.held = s.thread.held) (hpassed : t.passed = s.passed)
    (hrefused : t.refused = s.refused) (hlost : t.lost = s.lost)
    (hroom : t.channel.length ≤ s.channel.length) (hclosed : t.closed = false → s.closed = false) :
    t.Accounted := by
  refine ⟨?_, Nat.le_trans hroom h.room, fun hopen => hlost ▸ h.lost (hclosed hopen)⟩
  rw [htaken, hheld, hpassed, hrefused, hlost]
  exact h.split

theorem perm_append_between {α : Type} (front back more : List α) :
    (front ++ back ++ more).Perm (front ++ more ++ back) := by
  rw [List.append_assoc, List.append_assoc]
  exact List.perm_append_comm.append_left front

theorem Accounted.receive {s : Receiving} (h : s.Accounted) (hheld : s.thread.held = [])
    (result : Except IoError Notification) : (s.received result).Accounted := by
  obtain ⟨earlier, htaken, hsub, hperm⟩ := h.split
  refine ⟨⟨earlier, ?_, hsub, hperm⟩, h.room, h.lost⟩
  rw [hheld] at htaken
  simp [received, htaken, ReceiverPoint.held_afterReceive]

theorem Accounted.refuse {s : Receiving} (h : s.Accounted) {notification : Notification}
    (hheld : s.thread.held = [notification]) :
    Accounted { s with thread := .test, refused := s.refused ++ [notification] } := by
  obtain ⟨earlier, htaken, hsub, hperm⟩ := h.split
  rw [hheld] at htaken
  refine ⟨⟨s.taken, (List.append_nil _).symm, ?_, ?_⟩, h.room, h.lost⟩
  · rw [htaken]
    exact hsub.trans (List.sublist_append_left _ _)
  · rw [htaken]
    show (earlier ++ [notification]).Perm (s.passed ++ (s.refused ++ [notification]) ++ s.lost)
    rw [← List.append_assoc s.passed]
    exact (hperm.append_right _).trans (perm_append_between (s.passed ++ s.refused) _ _)

theorem Accounted.lose {s : Receiving} (h : s.Accounted) (hclosed : s.closed = true)
    {item : Except IoError Notification} (hheld : s.thread.held = item.toOption.toList) :
    Accounted { s with thread := .finished, lost := s.lost ++ item.toOption.toList } := by
  obtain ⟨earlier, htaken, hsub, hperm⟩ := h.split
  rw [hheld] at htaken
  refine ⟨⟨s.taken, (List.append_nil _).symm, ?_, ?_⟩, h.room, fun hopen => ?_⟩
  · rw [htaken]
    exact hsub.trans (List.sublist_append_left _ _)
  · rw [htaken, ← List.append_assoc]
    exact hperm.append_right _
  · cases hclosed.symm.trans hopen

theorem Accounted.pass {s : Receiving} (h : s.Accounted) (hroom : s.channel.length < capacity)
    {item : Except IoError Notification} (hheld : s.thread.held = item.toOption.toList)
    {point : ReceiverPoint} (hpoint : point.held = []) :
    Accounted { s with thread := point, channel := s.channel ++ [item] } := by
  obtain ⟨earlier, htaken, hsub, hperm⟩ := h.split
  rw [hheld] at htaken
  have hpassed : passed { s with thread := point, channel := s.channel ++ [item] } =
      s.passed ++ item.toOption.toList := by
    cases item <;> simp [passed, Except.toOption]
  refine ⟨⟨s.taken, by simp [hpoint], ?_, ?_⟩, ?_, h.lost⟩
  · rw [hpassed, htaken]
    exact hsub.append_right _
  · rw [hpassed, htaken]
    show (earlier ++ item.toOption.toList).Perm
      (s.passed ++ item.toOption.toList ++ s.refused ++ s.lost)
    rw [List.append_assoc _ s.refused]
    rw [List.append_assoc] at hperm
    exact (hperm.append_right _).trans (perm_append_between s.passed _ _)
  · simp only [List.length_append, List.length_singleton]
    omega

theorem Accounted.moves {s t : Receiving} (h : s.Accounted) (hmoves : s.Moves t) : t.Accounted := by
  cases hmoves with
  | go point hbefore hafter =>
    exact h.of_eq rfl (hafter.trans hbefore.symm) rfl rfl rfl (Nat.le_refl _) id
  | receive call result hthread => exact h.receive (by rw [hthread]; rfl) result
  | refuse notification hthread => exact h.refuse (by rw [hthread]; rfl)
  | send item hthread =>
    have hheld : s.thread.held = item.toOption.toList := by
      rw [hthread]
      cases item <;> rfl
    rcases s.send_cases item with ⟨hclosed, hsend⟩ | ⟨hroom, point, hpoint, _, _, hsend⟩ |
      ⟨point, hpoint, _, _, hsend⟩ <;> rw [hsend]
    · exact h.lose hclosed hheld
    · exact h.pass hroom hheld hpoint
    · exact h.of_eq rfl (hpoint.trans hheld.symm) rfl rfl rfl (Nat.le_refl _) id

theorem Drop.accounted {s t : Receiving} (h : s.Accounted) (hdrop : s.Drop t) : t.Accounted := by
  unfold Drop at hdrop
  split at hdrop
  case h_5 =>
    subst hdrop
    exact h.of_eq rfl (by simp) rfl rfl rfl (Nat.le_refl _) id
  all_goals cases hdrop
  all_goals exact h.of_eq rfl rfl rfl rfl rfl (Nat.le_refl _) id

theorem Accounted.step {event : ReceivingEvent} {s t : Receiving} (h : s.Accounted)
    (hstep : Step event s t) : t.Accounted := by
  rcases step_cases hstep with hmoves | ⟨item, rest, hchannel, rfl⟩ | rfl | ⟨_, rfl⟩ | hdrop
  · exact h.moves hmoves
  · refine h.of_eq rfl rfl ?_ rfl rfl ?_ id
    · simp [passed, hchannel]
    · simp [hchannel]
  · exact h.of_eq rfl rfl rfl rfl rfl (Nat.le_refl _) nofun
  · exact h.of_eq rfl rfl rfl rfl rfl (Nat.le_refl _) id
  · exact hdrop.accounted h

/-- What the destructor has done so far. -/
structure Owned (s : Receiving) : Prop where
  stop : s.stop = true ↔ s.owner ≠ .owning ∧ s.owner ≠ .storing
  wake : s.wake = true ↔ s.owner ≠ .owning ∧ s.owner ≠ .storing ∧ s.owner ≠ .waking
  finished : s.owner = .joining ∨ s.owner = .restoring ∨ s.owner = .gone → s.thread = .finished
  handled : s.handled = true ↔ s.owner ≠ .gone

theorem Owned.moves {s t : Receiving} (h : s.Owned) (hmoves : s.Moves t) : t.Owned := by
  obtain ⟨howner, hstop, hwake, hhandled⟩ := hmoves.frame
  refine ⟨by rw [hstop, howner]; exact h.stop, by rw [hwake, howner]; exact h.wake, fun hlate => ?_,
    by rw [hhandled, howner]; exact h.handled⟩
  rw [howner] at hlate
  have hset : s.stop = true := by
    rw [h.stop]
    rcases hlate with heq | heq | heq <;> rw [heq] <;> exact ⟨nofun, nofun⟩
  have hlower := hmoves.rank hset
  rw [h.finished hlate] at hlower
  cases hlower

theorem isFinished_iff (point : ReceiverPoint) : point.isFinished = true ↔ point = .finished := by
  cases point <;> simp [ReceiverPoint.isFinished]

theorem Drop.owned {s t : Receiving} (h : s.Owned) (hdrop : s.Drop t) : t.Owned := by
  obtain ⟨hstop, hwake, hfinished, hhandled⟩ := h
  unfold Drop at hdrop
  cases howner : s.owner with
  | owning | gone =>
    rw [howner] at hdrop
    cases hdrop
  | checking =>
    rw [howner] at hdrop
    cases hdrop
    have hjoin := isFinished_iff s.thread
    cases hthread : s.thread.isFinished <;> constructor <;> simp_all
  | storing | waking | signalling | joining | restoring =>
    rw [howner] at hdrop
    cases hdrop
    constructor <;> simp_all

theorem Owned.step {event : ReceivingEvent} {s t : Receiving} (h : s.Owned)
    (hstep : Step event s t) : t.Owned := by
  rcases step_cases hstep with hmoves | ⟨item, rest, _, rfl⟩ | rfl | ⟨howner, rfl⟩ | hdrop
  · exact h.moves hmoves
  · exact ⟨h.stop, h.wake, h.finished, h.handled⟩
  · exact ⟨h.stop, h.wake, h.finished, h.handled⟩
  · obtain ⟨hstop, hwake, hfinished, hhandled⟩ := h
    constructor <;> simp_all
  · exact hdrop.owned h

theorem owned {s : Receiving} (h : receiving.Reachable s) : s.Owned := by
  refine h.invariant ?_ fun _ _ _ hs _ hstep => hs.step hstep
  rintro _ rfl
  constructor <;> simp

theorem accounted {s : Receiving} (h : receiving.Reachable s) : s.Accounted := by
  refine h.invariant ?_ fun _ _ _ hs _ hstep => hs.step hstep
  rintro _ rfl
  exact ⟨⟨[], rfl, List.Sublist.refl _, List.Perm.refl _⟩, Nat.zero_le _, fun _ => rfl⟩

/-- At any moment every notification taken from the kernel is with the broker, in the order of
the receives, was refused for want of room, is in the hands of the thread, or met a channel
that the broker had closed. The thread does not outlive its owner, and the handler of the
signal stays as long as the thread can be signalled. -/
theorem taken_accounted {s : Receiving} (h : receiving.Reachable s) :
    (∃ earlier, s.taken = earlier ++ s.thread.held ∧ s.passed.Sublist earlier ∧
      earlier.Perm (s.passed ++ s.refused ++ s.lost)) ∧
    s.channel.length ≤ capacity ∧
    (s.closed = false → s.lost = []) ∧
    (s.owner = .gone → s.thread = .finished) ∧
    (s.thread ≠ .finished → s.handled = true) := by
  have haccounted := accounted h
  have howned := owned h
  refine ⟨haccounted.split, haccounted.room, haccounted.lost,
    fun hgone => howned.finished (Or.inr (Or.inr hgone)), fun halive => ?_⟩
  rw [howned.handled]
  exact fun hgone => halive (howned.finished (Or.inr (Or.inr hgone)))

theorem reachable_step {s t : Receiving} (h : receiving.Reachable s) (event : ReceivingEvent)
    (hstep : Step event s t) : receiving.Reachable t := .next event h trivial hstep

/-- The thread takes a notification, with any number of them waiting. -/
theorem reachable_sending {s : Receiving} (h : receiving.Reachable s) (hthread : s.thread = .test)
    (hstop : s.stop = false) (notification : Notification) :
    receiving.Reachable
      { s with thread := .sending (.ok notification), taken := s.taken ++ [notification] } := by
  obtain ⟨thread, owner, stop, wake, handled, closed, channel, delivered, taken, refused, lost⟩ := s
  cases hthread
  cases hstop
  have htested := reachable_step h .work rfl
  have hpolling := reachable_step htested .work rfl
  have hpolled := reachable_step hpolling .answer (Or.inl ⟨rfl, .ok [⟨epollIn, 1⟩], rfl⟩)
  have hready := reachable_step hpolled .work rfl
  have hinside := reachable_step hready .work rfl
  exact reachable_step hinside .answer (Or.inr ⟨rfl, .ok notification, rfl⟩)

/-- Some notification, known by its identifier. -/
def sample (id : UInt64) : Notification := ⟨id, 1, ⟨0, 0, 0, fun _ => 0⟩⟩

/-- The broker has taken the first notification, and a number of others wait in the channel. -/
def loaded (n : Nat) : Receiving :=
  ⟨.test, .owning, false, false, true, false, List.replicate n (.ok (sample 2)),
    [.ok (sample 1)], sample 1 :: List.replicate n (sample 2), [], []⟩

theorem reachable_loaded {n : Nat} (hn : n ≤ capacity) : receiving.Reachable (loaded n) := by
  induction n with
  | zero =>
    have hfirst := reachable_sending (.start rfl) rfl rfl (sample 1)
    have hsent := reachable_step hfirst .work rfl
    exact reachable_step hsent .take ⟨_, [], rfl, rfl, rfl⟩
  | succ n ih =>
    have hsending := reachable_sending (ih (by omega)) rfl rfl (sample 2)
    have hsent := reachable_step hsending .work rfl
    have hpushed : Receiving.send
        { loaded n with
          thread := .sending (.ok (sample 2)), taken := (loaded n).taken ++ [sample 2] }
        (.ok (sample 2)) = loaded (n + 1) := by
      simp only [send, loaded, List.length_replicate, if_pos (Nat.lt_of_succ_le hn)]
      simp [List.replicate_succ']
    exact hpushed ▸ hsent

/-- A notification comes when the channel is full. -/
theorem taken_accounted_full :
    ∃ s : Receiving, receiving.Reachable s ∧ s.delivered = [.ok (sample 1)] ∧
      s.channel.length = capacity ∧ s.refused = [sample 3] ∧
      (∃ earlier, s.taken = earlier ++ s.thread.held ∧ s.passed.Sublist earlier ∧
        earlier.Perm (s.passed ++ s.refused ++ s.lost)) ∧
      s.channel.length ≤ capacity ∧
      (s.closed = false → s.lost = []) ∧
      (s.owner = .gone → s.thread = .finished) ∧
      (s.thread ≠ .finished → s.handled = true) := by
  have hsending := reachable_sending (reachable_loaded (Nat.le_refl capacity)) rfl rfl (sample 3)
  have htried := reachable_step hsending .work rfl
  have hfull : Receiving.send
      { loaded capacity with
        thread := .sending (.ok (sample 3)), taken := (loaded capacity).taken ++ [sample 3] }
      (.ok (sample 3)) = { loaded capacity with
        thread := .refusing (sample 3), taken := (loaded capacity).taken ++ [sample 3] } := by
    simp only [send, loaded, List.length_replicate, Nat.lt_irrefl, if_false, Bool.false_eq_true]
  have hrefusing : receiving.Reachable { loaded capacity with
      thread := .refusing (sample 3), taken := (loaded capacity).taken ++ [sample 3] } :=
    hfull ▸ htried
  have hrefused := reachable_step hrefusing .work rfl
  exact ⟨_, hrefused, rfl, List.length_replicate, rfl, taken_accounted hrefused⟩

end Receiving

end Scproxy
