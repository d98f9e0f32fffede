import Scproxy.NotifyPlaces

namespace Scproxy

namespace NotifySystem

/-- No refusal by the receiver fails, unless the call is gone. -/
def Refuses (event : NotifyEvent) (_ : NotifySystem) : Prop :=
  ∀ r, event = .refuse r → answers r = true

section

variable {context : RequestContext} {s t : NotifySystem}

theorem placed_initial (h : Initial s) : Placed s := by
  obtain ⟨hkernel, hreceived, hreceiver, hchannel, hloop, hrequests, hanswered, hlost⟩ := h
  refine ⟨?_, ?_, ⟨?_, ?_, ?_⟩, ?_, ?_, ?_⟩
  · simp [NotifySystem.places, hands, queued, answeredIds, inFlight, hreceived, hreceiver,
      hchannel, hloop, hrequests, hanswered, hlost, ReceiverThread.held, BrokerLoop.held]
  · simp [hreceived]
  · simp [hreceived]
  · simp [hkernel]
  · simp [answeredIds, hanswered]
  · simp [hchannel]
  · simp [hrequests]
  · simp [hrequests]

/-- The broker does not go on after it has stopped. -/
theorem placed_step {event : NotifyEvent} (h : s.loop ≠ .stopped → Placed s)
    (hstep : Step context event s t) (hrunning : t.loop ≠ .stopped) : Placed t := by
  cases event with
  | notify id =>
    obtain ⟨hid, rfl⟩ := hstep
    exact (h hrunning).notify hid
  | interrupt id =>
    obtain ⟨_, rfl⟩ := hstep
    exact (h hrunning).interrupt id
  | receive notification =>
    obtain ⟨hreceiver, hid, rfl⟩ := hstep
    exact (h hrunning).receive hreceiver hid
  | offer =>
    obtain ⟨notification, hreceiver, ⟨hstopped, rfl⟩ | ⟨_, hroom, rfl⟩ | ⟨_, _, rfl⟩⟩ := hstep
    · exact absurd hstopped hrunning
    · exact (h hrunning).queue hreceiver hroom
    · exact (h hrunning).full hreceiver
  | refuse r =>
    obtain ⟨notification, kernel, hreceiver, hsend, rfl⟩ := hstep
    exact (h hrunning).refuse hreceiver hsend
  | take =>
    obtain ⟨notification, rest, hloop, hchannel, rfl⟩ := hstep
    exact (h (by simp [hloop])).take hloop hchannel
  | spawn memory =>
    obtain ⟨notification, hloop, hroom, rfl⟩ := hstep
    exact (h (by simp [hloop])).spawn hloop hroom
  | saturate =>
    obtain ⟨notification, r, kernel, hloop, _, hsend, rfl⟩ := hstep
    have hr : answers r = true := by
      by_contra hfailed
      simp [hfailed] at hrunning
    exact (h (by simp [hloop])).saturate hloop hsend hr
  | operate =>
    obtain ⟨before, task, after, op, next, r, kernel, answered, hrequests, hprogram, hoperates,
      rfl⟩ := hstep
    exact (h hrunning).operate hrequests hprogram hoperates
  | panic =>
    obtain ⟨before, task, after, op, next, hrequests, hprogram, rfl⟩ := hstep
    exact (h hrunning).panic hrequests hprogram
  | join =>
    obtain ⟨before, task, after, hloop, hrequests, ⟨hprogram, rfl⟩ | ⟨_, rfl⟩⟩ := hstep
    · exact (h hrunning).join hrequests hprogram
    · exact absurd rfl hrunning
  | stop =>
    cases hstep
    exact absurd rfl hrunning

theorem placed_of_reachable (h : (notifySystem context).Reachable s)
    (hrunning : s.loop ≠ .stopped) : Placed s :=
  h.invariant (I := fun s => s.loop ≠ .stopped → Placed s)
    (fun _ hs _ => placed_initial hs) (fun _ _ _ hs _ hstep => placed_step hs hstep) hrunning

/-- Only a refusal that fails loses a notification. -/
theorem lost_step {event : NotifyEvent} (hstep : Step context event s t) :
    t.lost = s.lost ∨ ∃ r id, event = .refuse r ∧ answers r = false ∧ t.lost = id :: s.lost := by
  cases event with
  | refuse r =>
    obtain ⟨notification, _, _, _, rfl⟩ := hstep
    cases hr : answers r with
    | true => exact .inl rfl
    | false => exact .inr ⟨r, notification.id, rfl, hr, rfl⟩
  | notify id =>
    obtain ⟨_, rfl⟩ := hstep
    exact .inl rfl
  | interrupt id =>
    obtain ⟨_, rfl⟩ := hstep
    exact .inl rfl
  | receive notification =>
    obtain ⟨_, _, rfl⟩ := hstep
    exact .inl rfl
  | offer =>
    obtain ⟨_, _, ⟨_, rfl⟩ | ⟨_, _, rfl⟩ | ⟨_, _, rfl⟩⟩ := hstep
    · exact .inl rfl
    · exact .inl rfl
    · exact .inl rfl
  | take =>
    obtain ⟨_, _, _, _, rfl⟩ := hstep
    exact .inl rfl
  | spawn memory =>
    obtain ⟨_, _, _, rfl⟩ := hstep
    exact .inl rfl
  | saturate =>
    obtain ⟨_, _, _, _, _, _, rfl⟩ := hstep
    exact .inl rfl
  | operate =>
    obtain ⟨_, _, _, _, _, _, _, _, _, _, _, rfl⟩ := hstep
    exact .inl rfl
  | panic =>
    obtain ⟨_, _, _, _, _, _, _, rfl⟩ := hstep
    exact .inl rfl
  | join =>
    obtain ⟨_, _, _, _, _, ⟨_, rfl⟩ | ⟨_, rfl⟩⟩ := hstep
    · exact .inl rfl
    · exact .inl rfl
  | stop =>
    cases hstep
    exact .inl rfl

theorem lost_eq_nil (h : (notifySystem context).ReachableWith Refuses s) : s.lost = [] := by
  refine h.invariant (I := fun s => s.lost = []) ?_ ?_
  · rintro s ⟨_, _, _, _, _, _, _, hlost⟩
    exact hlost
  intro event s t hs hallowed hstep
  rcases lost_step hstep with hlost | ⟨r, id, hevent, hr, _⟩
  · rw [hlost, hs]
  · rw [hallowed r hevent] at hr
    cases hr

theorem runs_next {allowed : NotifyEvent → NotifySystem → Prop} (event : NotifyEvent)
    (h : (notifySystem context).ReachableWith allowed s) (hallowed : allowed event s)
    (hstep : Step context event s t) : (notifySystem context).ReachableWith allowed t :=
  .next event h hallowed hstep

/-- What is lost is never found again. -/
theorem mem_lost_of_steps {id : UInt64} (hsteps : (notifySystem context).Steps s t)
    (hid : id ∈ s.lost) : id ∈ t.lost := by
  induction hsteps with
  | refl => exact hid
  | tail _ hstep ih =>
    obtain ⟨event, hstep⟩ := hstep
    rcases lost_step hstep with hlost | ⟨_, other, _, _, hlost⟩
    · rw [hlost]
      exact ih
    · rw [hlost]
      exact List.mem_cons_of_mem _ ih

/-- The receiver puts its notification into the channel or answers it. -/
theorem receiver_passes (h : Placed s) (hrunning : s.loop ≠ .stopped) :
    ∃ t, (notifySystem context).Steps s t ∧ t.receiver = .waiting ∧ t.loop = s.loop ∧
      t.received = s.received := by
  have hrefuse : ∀ (s : NotifySystem) notification, Placed s →
      s.receiver = .refusing notification →
      ∃ t, (notifySystem context).Steps s t ∧ t.receiver = .waiting ∧ t.loop = s.loop ∧
        t.received = s.received := by
    intro s notification h hreceiver
    have hheld : 0 < (s.hands ++ s.queued ++ inFlight s.requests).count notification.id := by
      simp [hands, hreceiver, ReceiverThread.held]
    obtain ⟨r, kernel, hsend, _⟩ := h.can_send hheld
    exact ⟨_, .single ⟨.refuse r, notification, kernel, hreceiver, hsend, rfl⟩, rfl, rfl, rfl⟩
  cases hreceiver : s.receiver with
  | waiting => exact ⟨s, .refl, hreceiver, rfl, rfl⟩
  | refusing notification => exact hrefuse s notification h hreceiver
  | received notification =>
    by_cases hroom : s.channel.length < capacity
    · exact ⟨_, .single ⟨.offer, notification, hreceiver, .inr (.inl ⟨hrunning, hroom, rfl⟩)⟩,
        rfl, rfl, rfl⟩
    · obtain ⟨t, hsteps, ht⟩ := hrefuse _ notification (h.full hreceiver) rfl
      exact ⟨t, .head ⟨.offer, notification, hreceiver,
        .inr (.inr ⟨hrunning, Nat.le_of_not_lt hroom, rfl⟩)⟩ hsteps, ht⟩

/-- The loop spawns a task for its notification or answers it. -/
theorem loop_passes (h : Placed s) (hrunning : s.loop ≠ .stopped) :
    ∃ t, (notifySystem context).Steps s t ∧ t.receiver = s.receiver ∧ t.loop = .selecting ∧
      t.received = s.received := by
  cases hloop : s.loop with
  | selecting => exact ⟨s, .refl, rfl, hloop, rfl⟩
  | stopped => exact absurd hloop hrunning
  | taken notification =>
    by_cases hroom : s.requests.length < capacity
    · exact ⟨_, .single ⟨.spawn fun _ => none, notification, hloop, hroom, rfl⟩, rfl, rfl, rfl⟩
    · have hheld : 0 < (s.hands ++ s.queued ++ inFlight s.requests).count notification.id := by
        simp [hands, hloop, BrokerLoop.held]
      obtain ⟨r, kernel, hsend, hr⟩ := h.can_send hheld
      refine ⟨_, .single ⟨.saturate, notification, r, kernel, hloop, Nat.le_of_not_lt hroom, hsend,
        rfl⟩, rfl, ?_, rfl⟩
      simp only [hr, if_true]

theorem hands_pass (h : (notifySystem context).Reachable s) (hrunning : s.loop ≠ .stopped) :
    ∃ t, (notifySystem context).Steps s t ∧ t.hands = [] ∧ t.received = s.received ∧
      t.loop ≠ .stopped := by
  obtain ⟨u, hsteps, hreceiver, hloop, hreceived⟩ :=
    @receiver_passes context _ (placed_of_reachable h hrunning) hrunning
  rw [← hloop] at hrunning
  have hplaced := placed_of_reachable (h.steps hsteps) hrunning
  obtain ⟨t, hsteps', hreceiver', hloop', hreceived'⟩ := loop_passes hplaced hrunning
  refine ⟨t, hsteps.trans hsteps', ?_, hreceived'.trans hreceived, by simp [hloop']⟩
  simp [hands, hreceiver', hreceiver, hloop', ReceiverThread.held, BrokerLoop.held]

end

end NotifySystem

section

open NotifySystem

/-- A notification that was received is queued, in flight in one task or answered
once, unless it is being passed on between two of these. That never takes more
than the next steps of the thread that holds it. -/
theorem notification_places {context : RequestContext} {s : NotifySystem}
    (h : (notifySystem context).ReachableWith Refuses s) (hrunning : s.loop ≠ .stopped) :
    s.channel.length ≤ 256 ∧ s.requests.length ≤ 256 ∧
    (∀ id ∈ s.received, s.hands.count id + s.queued.count id + (inFlight s.requests).count id +
      s.answeredIds.count id = 1) ∧
    (∀ id ∉ s.received, id ∉ s.hands ∧ id ∉ s.queued ∧ id ∉ inFlight s.requests ∧
      id ∉ s.answeredIds) ∧
    (∀ id ∈ s.answeredIds, s.kernel id = some .replied ∨ s.kernel id = some .gone) ∧
    (∀ id, s.kernel id = some .replied → id ∈ s.answeredIds) ∧
    ∃ t, (notifySystem context).Steps s t ∧ t.hands = [] ∧ t.received = s.received ∧
      t.loop ≠ .stopped := by
  have hplaced := placed_of_reachable h.reachable hrunning
  have hlost := lost_eq_nil h
  refine ⟨hplaced.channel, hplaced.requests, ?_, ?_, hplaced.kernel.settled,
    hplaced.kernel.replied, hands_pass h.reachable hrunning⟩
  · intro id hid
    have hplaces := hplaced.places id
    rw [List.count_eq_one_of_mem hplaced.distinct hid] at hplaces
    simpa only [NotifySystem.places, hlost, List.append_nil, List.count_append] using hplaces
  · intro id hid
    have hplaces := hplaced.places id
    rw [List.count_eq_zero.mpr hid] at hplaces
    simpa only [NotifySystem.places, hlost, List.append_nil, List.count_eq_zero, List.mem_append,
      not_or, and_assoc] using hplaces

end

namespace NotifySystem

/-- A `socket` call. -/
def calling (id : UInt64) : Notification := ⟨id, 1, ⟨41, 0, 0, fun i => if i < 2 then 2 else 0⟩⟩

def resolving : RequestContext :=
  ⟨.x86_64, 0, TcpSystem.proxied, TcpSystem.ingressAddress,
    ⟨fun _ => none, fun _ => false, fun _ path => path, fun _ _ => false⟩, []⟩

def initial : NotifySystem := ⟨fun _ => none, [], .waiting, [], .selecting, [], [], []⟩

theorem initial_start (context : RequestContext) : (notifySystem context).start initial :=
  ⟨fun _ => rfl, rfl, rfl, rfl, rfl, rfl, rfl, rfl⟩

/-- The loop has taken none of the notifications in the channel. -/
structure Filled (n : Nat) (s : NotifySystem) : Prop where
  reached : (notifySystem resolving).Reachable s
  loop : s.loop = .selecting
  receiver : s.receiver = .waiting
  channel : s.channel.length = n
  unused : ∀ id : UInt64, n ≤ id.toNat → s.kernel id = none

/-- A notification that no call has had yet comes to the receiver. -/
theorem Filled.received {n : Nat} {s : NotifySystem} (h : Filled n s) {id : UInt64}
    (hid : id.toNat = n) :
    (notifySystem resolving).Reachable { s with
      kernel := Function.update (Function.update s.kernel id (some .init)) id (some .sent)
      received := id :: s.received
      receiver := .received (calling id) } := by
  have hnotify := runs_next (.notify id) h.reached trivial
    ⟨h.unused id (by omega), rfl⟩
  exact runs_next (.receive (calling id)) hnotify trivial
    ⟨h.receiver, by simp [calling], rfl⟩

theorem Filled.next {n : Nat} {s : NotifySystem} (h : Filled n s) (hn : n < 256) :
    ∃ t, Filled (n + 1) t := by
  have hid : (UInt64.ofNat n).toNat = n := by
    rw [UInt64.toNat_ofNat']
    omega
  have hoffer := runs_next .offer (h.received hid) trivial
    ⟨_, rfl, .inr (.inl ⟨by simp [h.loop], by simpa [capacity, h.channel] using hn, rfl⟩)⟩
  refine ⟨_, hoffer, h.loop, rfl, ?_, ?_⟩
  · simp [h.channel]
  · intro other hother
    have hne : other ≠ UInt64.ofNat n := by
      rintro rfl
      omega
    simp only [Function.update_of_ne hne]
    exact h.unused other (by omega)

theorem filled_of_le : ∀ {n : Nat}, n ≤ 256 → ∃ s, Filled n s
  | 0, _ => ⟨initial, .start (initial_start _), rfl, rfl, rfl, fun _ _ => rfl⟩
  | n + 1, hn => by
    obtain ⟨s, hs⟩ := filled_of_le (n := n) (by omega)
    exact hs.next (by omega)

end NotifySystem

section

open NotifySystem

/-- The channel is full, and the call that refuses the next notification is interrupted. The
thread waits for it, and no one answers it while the broker runs. -/
theorem refused_notification_lost : ∃ s id, (notifySystem resolving).Reachable s ∧
    s.loop = .selecting ∧ id ∈ s.received ∧ s.kernel id = some .sent ∧
    ∀ t, (notifySystem resolving).Steps s t → t.loop ≠ .stopped →
      id ∉ t.hands ∧ id ∉ t.queued ∧ id ∉ inFlight t.requests ∧ id ∉ t.answeredIds := by
  obtain ⟨s, hs⟩ := filled_of_le (Nat.le_refl 256)
  have hid : (256 : UInt64).toNat = 256 := rfl
  have hoffer := runs_next .offer (hs.received hid) trivial
    ⟨_, rfl, .inr (.inr ⟨by simp [hs.loop], by simp [capacity, hs.channel], rfl⟩)⟩
  have hrefuse := runs_next (.refuse (.error (.os Errno.eintr))) hoffer trivial
    ⟨_, _, rfl, .fails _ (by decide), rfl⟩
  refine ⟨_, 256, hrefuse, hs.loop, List.mem_cons_self, by simp, ?_⟩
  intro t hsteps hrunning
  have hplaced := placed_of_reachable (Transition.Reachable.steps hrefuse hsteps) hrunning
  exact hplaced.nowhere (mem_lost_of_steps hsteps List.mem_cons_self)

/-- One call has been answered and the next one is queued. -/
theorem notification_places_socket : ∃ s, (notifySystem resolving).ReachableWith Refuses s ∧
    s.loop ≠ .stopped ∧ s.queued = [2] ∧ s.answeredIds = [1] ∧
    ∀ id ∈ s.received, s.hands.count id + s.queued.count id + (inFlight s.requests).count id +
      s.answeredIds.count id = 1 := by
  have hstart : (notifySystem resolving).ReachableWith Refuses initial :=
    .start (initial_start resolving)
  have hfirst := runs_next (.notify 1) hstart nofun ⟨rfl, rfl⟩
  have hreceive := runs_next (.receive (calling 1)) hfirst nofun ⟨rfl, rfl, rfl⟩
  have hoffer := runs_next .offer hreceive nofun
    ⟨calling 1, rfl, .inr (.inl ⟨nofun, by decide, rfl⟩)⟩
  have htake := runs_next .take hoffer nofun ⟨calling 1, [], rfl, rfl, rfl⟩
  have hspawn := runs_next (.spawn fun _ => none) htake nofun ⟨calling 1, rfl, by decide, rfl⟩
  have hvalid := runs_next .operate hspawn nofun
    ⟨[], _, [], .base .valid, _, .ok (), _, _, rfl, rfl, ⟨rfl, rfl⟩, rfl⟩
  have hrespond := runs_next .operate hvalid nofun
    ⟨[], _, [], .respond 0 0 true, _, .ok (), _, _, rfl, rfl, ⟨.replies rfl, rfl⟩, rfl⟩
  have hsecond := runs_next (.notify 2) hrespond nofun ⟨rfl, rfl⟩
  have hreceive' := runs_next (.receive (calling 2)) hsecond nofun ⟨rfl, rfl, rfl⟩
  have hoffer' := runs_next .offer hreceive' nofun
    ⟨calling 2, rfl, .inr (.inl ⟨nofun, by decide, rfl⟩)⟩
  exact ⟨_, hoffer', nofun, rfl, rfl, (notification_places hoffer' nofun).2.2.1⟩

end

end Scproxy
