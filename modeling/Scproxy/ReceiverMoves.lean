import Scproxy.ReceiverSystem

namespace Scproxy

namespace ReceiverPoint

def callRank : BlockingCall → Nat
  | .interrupted => 1
  | .inside => 2
  | .outside => 3

/-- How far the thread is from its end once the flag is set. -/
def rank : ReceiverPoint → Nat
  | .finished => 0
  | .test | .polled _ => 1
  | .pausing | .refusing _ => 2
  | .sending _ => 3
  | .polling call | .receiving call => 3 + callRank call

theorem afterPoll_cases (result : Except IoError (List EpollEvent)) :
    afterPoll result = .test ∨ (∃ events, afterPoll result = .polled events) ∨
      ∃ error, afterPoll result = .sending (.error error) := by
  cases result with
  | ok events => exact Or.inr (Or.inl ⟨events, rfl⟩)
  | error error =>
    simp only [afterPoll]
    split
    · exact Or.inl rfl
    · exact Or.inr (Or.inr ⟨error, rfl⟩)

theorem afterReceive_cases (result : Except IoError Notification) :
    afterReceive result = .sending result ∨
      ∃ error, result = .error error ∧
        (afterReceive result = .test ∨ afterReceive result = .pausing) := by
  cases result with
  | ok notification => exact Or.inl rfl
  | error error =>
    simp only [afterReceive]
    repeat' split
    · exact Or.inr ⟨error, rfl, Or.inl rfl⟩
    · exact Or.inr ⟨error, rfl, Or.inr rfl⟩
    · exact Or.inl rfl
    · exact Or.inl rfl

theorem held_afterPolled (stop : Bool) (events : List EpollEvent) :
    (afterPolled stop events).held = [] := by
  unfold afterPolled
  repeat' split
  all_goals rfl

theorem afterPolled_true (events : List EpollEvent) : afterPolled true events = .finished := rfl

theorem held_afterReceive (result : Except IoError Notification) :
    (afterReceive result).held = result.toOption.toList := by
  rcases afterReceive_cases result with hsend | ⟨error, rfl, htest | hpause⟩
  · rw [hsend]
    cases result <;> rfl
  · rw [htest]; rfl
  · rw [hpause]; rfl

theorem rank_afterReceive (result : Except IoError Notification) :
    (afterReceive result).rank ≤ 3 ∧ (afterReceive result).isReceiving = false := by
  rcases afterReceive_cases result with hsend | ⟨error, _, htest | hpause⟩
  · rw [hsend]; exact ⟨Nat.le_refl 3, rfl⟩
  · rw [htest]; exact ⟨by decide, rfl⟩
  · rw [hpause]; exact ⟨by decide, rfl⟩

theorem rank_call (call : BlockingCall) : 3 < (polling call).rank ∧ 3 < (receiving call).rank := by
  cases call <;> decide

@[simp]
theorem held_interrupt (point : ReceiverPoint) : point.interrupt.held = point.held := by
  unfold interrupt
  split <;> rfl

@[simp]
theorem isReceiving_interrupt (point : ReceiverPoint) :
    point.interrupt.isReceiving = point.isReceiving := by
  unfold interrupt
  split <;> rfl

end ReceiverPoint

namespace Receiving

/-- What the thread or the kernel for it can do: move on with empty hands, take a notification,
pass it on or refuse it. With the flag set it does not come to `seccomp::receive` again. -/
inductive Moves (s : Receiving) : Receiving → Prop
  | go (point : ReceiverPoint) (hbefore : s.thread.held = []) (hafter : point.held = [])
      (hrank : s.stop = true → point.rank < s.thread.rank)
      (hreceiving : s.stop = true → point.isReceiving = true → s.thread.isReceiving = true) :
      Moves s { s with thread := point }
  | receive (call : BlockingCall) (result : Except IoError Notification)
      (hthread : s.thread = .receiving call) : Moves s (s.received result)
  | send (item : Except IoError Notification) (hthread : s.thread = .sending item) :
      Moves s (s.send item)
  | refuse (notification : Notification) (hthread : s.thread = .refusing notification) :
      Moves s { s with thread := .test, refused := s.refused ++ [notification] }

theorem Moves.poll {s : Receiving} {call : BlockingCall} (hthread : s.thread = .polling call)
    (result : Except IoError (List EpollEvent)) :
    s.Moves { s with thread := .afterPoll result } := by
  have hheld : s.thread.held = [] := by rw [hthread]; rfl
  have hrank : 3 < s.thread.rank := by rw [hthread]; exact (ReceiverPoint.rank_call call).1
  rcases ReceiverPoint.afterPoll_cases result with htest | ⟨events, hpolled⟩ | ⟨error, hsend⟩
  · rw [htest]
    exact .go _ hheld rfl (fun _ => Nat.lt_trans (by decide) hrank) nofun
  · rw [hpolled]
    exact .go _ hheld rfl (fun _ => Nat.lt_trans (by decide : 1 < 3) hrank) nofun
  · rw [hsend]
    exact .go _ hheld rfl (fun _ => hrank) nofun

theorem Work.moves {s t : Receiving} (h : s.Work t) : s.Moves t := by
  unfold Work at h
  split at h
  next hthread =>
    subst h
    refine .go _ (by rw [hthread]; rfl) (by split <;> rfl) (fun hstop => ?_) fun hstop => ?_
    · simp [hstop, hthread, ReceiverPoint.rank]
    · simp [hstop, ReceiverPoint.isReceiving]
  next hthread =>
    subst h
    exact .go _ (by rw [hthread]; rfl) rfl
      (fun _ => by simp [hthread, ReceiverPoint.rank, ReceiverPoint.callRank]) nofun
  next => cases h
  next hthread =>
    obtain ⟨result, rfl⟩ := h
    exact .poll hthread result
  next events hthread =>
    subst h
    refine .go _ (by rw [hthread]; rfl) (ReceiverPoint.held_afterPolled _ _) (fun hstop => ?_)
      fun hstop => ?_
    · simp [hstop, hthread, ReceiverPoint.afterPolled_true, ReceiverPoint.rank]
    · simp [hstop, ReceiverPoint.afterPolled_true, ReceiverPoint.isReceiving]
  next hthread =>
    subst h
    exact .go _ (by rw [hthread]; rfl) rfl
      (fun _ => by simp [hthread, ReceiverPoint.rank, ReceiverPoint.callRank])
      fun _ _ => by rw [hthread]; rfl
  next => cases h
  next hthread =>
    obtain ⟨result, rfl⟩ := h
    exact .receive _ result hthread
  next item hthread =>
    subst h
    exact .send item hthread
  next notification hthread =>
    subst h
    exact .refuse notification hthread
  next hthread =>
    subst h
    exact .go _ (by rw [hthread]; rfl) rfl (fun _ => by simp [hthread, ReceiverPoint.rank]) nofun
  next => cases h

/-- The three ends of `try_send`. -/
theorem send_cases (s : Receiving) (item : Except IoError Notification) :
    (s.closed = true ∧
      s.send item = { s with thread := .finished, lost := s.lost ++ item.toOption.toList }) ∨
    (s.channel.length < capacity ∧ ∃ point : ReceiverPoint, point.held = [] ∧ point.rank ≤ 1 ∧
      point.isReceiving = false ∧
      s.send item = { s with thread := point, channel := s.channel ++ [item] }) ∨
    (∃ point : ReceiverPoint, point.held = item.toOption.toList ∧ point.rank ≤ 2 ∧
      point.isReceiving = false ∧ s.send item = { s with thread := point }) := by
  unfold send
  split
  next hclosed =>
    refine Or.inl ⟨hclosed, ?_⟩
    cases item with
    | ok notification => rfl
    | error error =>
      simp only [Except.toOption, Option.toList, List.append_nil]
  next =>
    refine Or.inr ?_
    split
    next hroom =>
      refine Or.inl ⟨hroom, ?_⟩
      cases item with
      | ok notification => exact ⟨.test, rfl, by decide, rfl, rfl⟩
      | error error => exact ⟨.finished, rfl, by decide, rfl, rfl⟩
    next =>
      refine Or.inr ?_
      cases item with
      | ok notification => exact ⟨.refusing notification, rfl, Nat.le_refl 2, rfl, rfl⟩
      | error error => exact ⟨.finished, rfl, by decide, rfl, rfl⟩

theorem Moves.frame {s t : Receiving} (h : s.Moves t) :
    t.owner = s.owner ∧ t.stop = s.stop ∧ t.wake = s.wake ∧ t.handled = s.handled := by
  cases h with
  | go | receive | refuse => exact ⟨rfl, rfl, rfl, rfl⟩
  | send item hthread =>
    rcases s.send_cases item with ⟨_, hsend⟩ | ⟨_, _, _, _, _, hsend⟩ | ⟨_, _, _, _, hsend⟩ <;>
      rw [hsend] <;> exact ⟨rfl, rfl, rfl, rfl⟩

theorem Moves.rank {s t : Receiving} (h : s.Moves t) (hstop : s.stop = true) :
    t.thread.rank < s.thread.rank := by
  cases h with
  | go point _ _ hrank => exact hrank hstop
  | receive call result hthread =>
    have hcall := (ReceiverPoint.rank_call call).2
    have hafter := (ReceiverPoint.rank_afterReceive result).1
    rw [hthread]
    exact Nat.lt_of_le_of_lt hafter hcall
  | send item hthread =>
    have hbefore : s.thread.rank = 3 := by rw [hthread]; rfl
    rw [hbefore]
    rcases s.send_cases item with ⟨_, hsend⟩ | ⟨_, point, _, hpoint, _, hsend⟩ |
      ⟨point, _, hpoint, _, hsend⟩ <;> rw [hsend]
    · exact Nat.zero_lt_succ 2
    · exact Nat.lt_of_le_of_lt hpoint (by decide)
    · exact Nat.lt_of_le_of_lt hpoint (by decide)
  | refuse notification hthread =>
    rw [hthread]
    exact Nat.lt_succ_self 1

/-- What the steps of the owner and of the broker leave alone. -/
theorem step_cases {event : ReceivingEvent} {s t : Receiving} (hstep : Step event s t) :
    s.Moves t ∨
    (∃ item rest, s.channel = item :: rest ∧
      t = { s with channel := rest, delivered := s.delivered ++ [item] }) ∨
    t = { s with closed := true } ∨
    (s.owner = .owning ∧ t = { s with owner := .storing }) ∨ s.Drop t := by
  cases event with
  | work => exact Or.inl (Work.moves hstep)
  | answer =>
    left
    rcases hstep with ⟨hthread, result, rfl⟩ | ⟨hthread, result, rfl⟩
    · exact .poll hthread result
    · exact .receive _ result hthread
  | woken =>
    obtain ⟨hthread, _, events, _, rfl⟩ := hstep
    exact Or.inl (.poll hthread _)
  | take =>
    obtain ⟨item, rest, _, hchannel, rfl⟩ := hstep
    exact Or.inr (Or.inl ⟨item, rest, hchannel, rfl⟩)
  | close => exact Or.inr (Or.inr (Or.inl hstep))
  | begin => exact Or.inr (Or.inr (Or.inr (Or.inl hstep)))
  | drop => exact Or.inr (Or.inr (Or.inr (Or.inr hstep)))

end Receiving

end Scproxy
