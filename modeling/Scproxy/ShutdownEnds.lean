import Scproxy.ShutdownSystem

namespace Scproxy

namespace BrokerRun

/-- How far the task is from its end once it is told to stop. -/
def rank (s : BrokerRun) : Nat :=
  match s.phase with
  | .serving => 300
  | .aborting _ => 3 + s.requests
  | .draining => if s.Drained then 1 else 2
  | .ended _ => 0

/-- The step that must not be left out for the task to end. -/
def next (s : BrokerRun) : BrokerEvent :=
  match s.phase with
  | .serving => .notice
  | .aborting _ => if s.requests = 0 then .joined else .abortRequest
  | .draining => if s.Drained then .drained else .deadline
  | .ended _ => .release

section

variable {aborted : Prop} {shutdown : Shutdown} {event : BrokerEvent} {s t : BrokerRun}

/-- The step brings the task nearer to its end, or leaves what is due as it is. -/
def Nears (event : BrokerEvent) (s t : BrokerRun) : Prop :=
  t.rank < s.rank ∨ t.rank = s.rank ∧ t.next = s.next ∧ event ≠ s.next

theorem nears_serving (hs : s.phase = .serving) (ht : t.phase = .serving)
    (hevent : event ≠ .notice) : Nears event s t := by
  right
  simp only [rank, next, hs, ht]
  exact ⟨trivial, trivial, hevent⟩

theorem nears_aborting (h : s.Sound aborted) (hs : s.phase = .serving)
    {result : Except IoError Unit} (ht : t.phase = .aborting result)
    (hrequests : t.requests ≤ s.requests) : Nears event s t := by
  left
  have hroom := h.room
  simp only [capacity] at hroom
  simp only [rank, hs, ht]
  omega

/-- While the requests are joined, only their number counts. -/
theorem nears_joining {result : Except IoError Unit} (hs : s.phase = .aborting result)
    (ht : t.phase = .aborting result) (hlower : t.requests < s.requests) : Nears event s t := by
  left
  simp only [rank, hs, ht]
  omega

theorem nears_idle (hs : t.phase = s.phase) (hrequests : t.requests = s.requests)
    (hdrained : t.Drained ↔ s.Drained) (hother : event ≠ s.next) : Nears event s t := by
  right
  simp only [rank, next, hs, hrequests, hdrained]
  exact ⟨trivial, trivial, hother⟩

theorem not_drained_relays (h : 0 < s.relays) : ¬s.Drained := fun hdrained => by
  have hzero := hdrained.1
  omega

theorem not_drained_closed {result : Except IoError Unit} {rest : List (Except IoError Unit)}
    (h : s.closed = result :: rest) : ¬s.Drained := fun hdrained => by
  cases h.symm.trans hdrained.2

theorem rank_of_drained (hphase : s.phase = .draining) (h : s.Drained) :
    s.rank = 1 ∧ s.next = .drained := by
  simp [rank, next, hphase, h]

theorem rank_of_left (hphase : s.phase = .draining) (h : ¬s.Drained) :
    s.rank = 2 ∧ s.next = .deadline := by
  simp [rank, next, hphase, h]

theorem rank_draining (hphase : s.phase = .draining) : s.rank ≤ 2 := by
  by_cases h : s.Drained
  · rw [(rank_of_drained hphase h).1]
    decide
  · exact Nat.le_of_eq (rank_of_left hphase h).1

/-- The events of the tasks themselves are never the ones that are due. -/
theorem next_ne_task (s : BrokerRun) : (∀ result, s.next ≠ .requestEnds result) ∧
    s.next ≠ .connect ∧ ∀ result, s.next ≠ .relayEnds result := by
  unfold next
  repeat' split
  all_goals exact ⟨nofun, nofun, nofun⟩

/-- A task that ends counts only while the requests are joined. -/
theorem nears_requestEnds (h : s.Sound aborted) (hbefore : s.phase.result = none)
    (hrequests : 0 < s.requests) (hphase : t.phase = s.phase)
    (hlower : t.requests = s.requests - 1) (hevent : event ≠ .notice) : Nears event s t := by
  cases hcase : s.phase with
  | serving => exact nears_serving hcase (hphase.trans hcase) hevent
  | aborting result => exact nears_joining hcase (hphase.trans hcase) (by omega)
  | draining =>
    have hnone := h.draining hcase
    omega
  | ended result =>
    rw [hcase] at hbefore
    cases hbefore

theorem Step.nears (h : s.Sound aborted) (hstep : Step shutdown s event t)
    (hbefore : s.phase.result = none) (hafter : t.phase.result = none) : Nears event s t := by
  obtain ⟨_, hconnect, hrelay⟩ := s.next_ne_task
  cases hstep with
  | notify hphase | tick hphase => exact nears_serving hphase hphase nofun
  | refuse hphase => exact nears_serving hphase hphase nofun
  | eof hphase => exact nears_aborting h hphase rfl (Nat.le_refl _)
  | fail hphase error => exact nears_aborting h hphase rfl (Nat.le_refl _)
  | notice hphase => exact nears_aborting h hphase rfl (Nat.le_refl _)
  | @joinRequest hphase result rest hanswered =>
    cases result with
    | ok value => exact nears_serving hphase rfl nofun
    | error error => exact nears_aborting h hphase rfl (Nat.le_refl _)
  | requestEnds hrequests result => exact nears_requestEnds h hbefore hrequests rfl rfl nofun
  | abortRequest _ hrequests => exact nears_requestEnds h hbefore hrequests rfl rfl nofun
  | connect hrequests =>
    cases hcase : s.phase with
    | serving => exact nears_serving hcase rfl nofun
    | aborting result =>
      right
      simp only [rank, next, hcase]
      refine ⟨trivial, trivial, ?_⟩
      split <;> exact nofun
    | draining =>
      have hnone := h.draining hcase
      omega
    | ended result =>
      rw [hcase] at hbefore
      cases hbefore
  | relayEnds hrelays result =>
    refine nears_idle rfl rfl ?_ (hrelay result).symm
    have hbefore := not_drained_relays hrelays
    have hafter : ¬Drained { s with
        relays := s.relays - 1, closed := s.closed ++ [result] } := fun hdrained => by
      simpa using hdrained.2
    exact ⟨fun hdrained => absurd hdrained hafter, fun hdrained => absurd hdrained hbefore⟩
  | @joined result hphase hrequests =>
    cases result with
    | ok value =>
      left
      have hlow : (s.afterJoin (.ok value)).rank ≤ 2 := rank_draining rfl
      have hhigh : s.rank = 3 + s.requests := by simp [rank, hphase]
      omega
    | error error => cases hafter
  | @joinRelay hphase result rest hclosed =>
    cases result with
    | ok value =>
      have hbefore := rank_of_left hphase (not_drained_closed hclosed)
      have hstays : (s.afterRelay rest (.ok value)).phase = .draining := hphase
      by_cases hdrained : (s.afterRelay rest (.ok value)).Drained
      · left
        have hafter := rank_of_drained hstays hdrained
        omega
      · right
        have hafter := rank_of_left hstays hdrained
        refine ⟨hafter.1.trans hbefore.1.symm, hafter.2.trans hbefore.2.symm, ?_⟩
        rw [hbefore.2]
        exact nofun
    | error error => cases hafter
  | refuseFails | drained | abandon | ingressFails | deadline => cases hafter
  | release hphase =>
    rw [hphase] at hbefore
    cases hbefore

end

end BrokerRun

namespace SupervisedBroker

/-- The main thread has the code of the command and waits for the broker. -/
def Draining (s : SupervisedBroker) : Prop :=
  ∃ status failed interrupted, s.sup.supervisor = .draining status failed interrupted

def Finished (s : SupervisedBroker) : Prop := ∃ code, s.sup.supervisor = .finished (some code)

def Exiting (s : SupervisedBroker) : Prop := s.Linked ∧ (s.Draining ∨ s.Finished)

def serviceRank (s : SupervisedBroker) : Nat :=
  match s.sup.service with
  | .taken => 1
  | .ended _ => 2
  | .running => 3 + s.broker.rank

def rank (s : SupervisedBroker) : Nat :=
  match s.sup.supervisor with
  | .finished _ => 0
  | _ => s.serviceRank

def next (s : SupervisedBroker) : ShutdownEvent :=
  match s.sup.service with
  | .taken => .supervise .drained
  | .ended _ => .supervise .takeServiceDraining
  | .running => .broker s.broker.next

/-- The relays and the requests may take any time by themselves, and signals may come or not. -/
def due : ShutdownEvent → Prop
  | .supervise .drained | .supervise .takeServiceDraining => True
  | .broker .notice | .broker .abortRequest | .broker .joined | .broker .drained
  | .broker .deadline => True
  | _ => False

section

variable {s t : SupervisedBroker}

theorem rank_of_draining (h : s.Draining) : s.rank = s.serviceRank := by
  obtain ⟨status, failed, interrupted, hdraining⟩ := h
  simp only [rank, hdraining]

theorem rank_of_finished (h : s.Finished) : s.rank = 0 := by
  obtain ⟨code, hfinished⟩ := h
  simp only [rank, hfinished]

/-- What the main thread, its worker, the child and the signals can do while the main thread
waits for the broker, apart from the two steps that bring it on. -/
theorem supervise_cases {event : SuperviseEvent} {sup : Supervision} (h : s.Exiting)
    (hother : ∀ result, event ≠ .brokerEnds result) (hstep : Supervision.Step event s.sup sup) :
    (∃ result, event = .takeServiceDraining ∧ s.sup.service = .ended result ∧
      s.Draining ∧ sup.service = .taken ∧ Draining { s with sup := sup }) ∨
    (event = .drained ∧ s.sup.service = .taken ∧ s.Draining ∧ Finished { s with sup := sup }) ∨
    (event ≠ .takeServiceDraining ∧ event ≠ .drained ∧ sup.service = s.sup.service ∧
      (s.Draining ∧ Draining { s with sup := sup } ∨ sup.supervisor = s.sup.supervisor)) := by
  obtain ⟨_, hplace⟩ := h
  have helse {supervisor : Supervisor} (hs : s.sup.supervisor = supervisor)
      (hdraining : ∀ status failed interrupted, supervisor ≠ .draining status failed interrupted)
      (hfinished : ∀ code, supervisor ≠ .finished (some code)) : False := by
    rcases hplace with ⟨status, failed, interrupted, heq⟩ | ⟨code, heq⟩
    · exact hdraining _ _ _ (hs.symm.trans heq)
    · exact hfinished _ (hs.symm.trans heq)
  cases event with
  | childExits status =>
    obtain ⟨_, rfl⟩ := hstep
    exact Or.inr (Or.inr ⟨nofun, nofun, rfl, Or.inr rfl⟩)
  | reap =>
    obtain ⟨_, _, _, rfl⟩ := hstep
    exact Or.inr (Or.inr ⟨nofun, nofun, rfl, Or.inr rfl⟩)
  | waitFails errno =>
    obtain ⟨_, _, rfl⟩ := hstep
    exact Or.inr (Or.inr ⟨nofun, nofun, rfl, Or.inr rfl⟩)
  | publish =>
    obtain ⟨_, _, rfl⟩ := hstep
    exact Or.inr (Or.inr ⟨nofun, nofun, rfl, Or.inr rfl⟩)
  | arrive signal =>
    cases hstep
    exact Or.inr (Or.inr ⟨nofun, nofun, rfl, Or.inr rfl⟩)
  | brokerEnds result => exact absurd rfl (hother result)
  | started => exact (helse hstep.1 nofun nofun).elim
  | startFails => exact (helse hstep.1 nofun nofun).elim
  | takeWait =>
    obtain ⟨_, _, _, hs, _⟩ := hstep
    exact (helse hs nofun nofun).elim
  | takeSignal signal =>
    obtain ⟨_, _, hs, _⟩ := hstep
    exact (helse hs nofun nofun).elim
  | takeService =>
    obtain ⟨_, _, _, hs, _⟩ := hstep
    exact (helse hs nofun nofun).elim
  | kill outcome =>
    obtain ⟨_, _, hs, _⟩ := hstep
    exact (helse hs nofun nofun).elim
  | takeSignalDraining signal =>
    obtain ⟨_, _, _, hs, _, rfl⟩ := hstep
    exact Or.inr (Or.inr ⟨nofun, nofun, rfl, Or.inl ⟨⟨_, _, _, hs⟩, _, _, _, rfl⟩⟩)
  | takeServiceDraining =>
    obtain ⟨_, _, _, result, hs, hended, rfl⟩ := hstep
    exact Or.inl ⟨result, rfl, hended, ⟨_, _, _, hs⟩, rfl, _, _, _, rfl⟩
  | drained =>
    obtain ⟨_, _, _, hs, htaken, rfl⟩ := hstep
    exact Or.inr (Or.inl ⟨rfl, htaken, ⟨_, _, _, hs⟩, _, rfl⟩)
  | dropRuntime => exact (helse hstep.1 nofun nofun).elim
  | terminate outcome => exact (helse hstep.1 nofun nofun).elim
  | collect failed => exact (helse hstep.1 nofun nofun).elim

theorem nears_finished {event : ShutdownEvent} (hs : s.Finished) (ht : t.Finished) :
    Transition.Nears Finished next rank event s t :=
  Or.inr ⟨(rank_of_finished ht).trans (rank_of_finished hs).symm, fun hnot => absurd hs hnot⟩

theorem next_ne_supervise {event : SuperviseEvent} (hservice : event ≠ .takeServiceDraining)
    (hdrained : event ≠ .drained) : ShutdownEvent.supervise event ≠ s.next := by
  unfold next
  split
  · exact fun heq => hdrained (ShutdownEvent.supervise.inj heq)
  · exact fun heq => hservice (ShutdownEvent.supervise.inj heq)
  · exact nofun

theorem Exiting.supervise {event : SuperviseEvent} {sup : Supervision} (h : s.Exiting)
    (hother : ∀ result, event ≠ .brokerEnds result) (hstep : Supervision.Step event s.sup sup)
    (ht : t = ⟨sup, s.broker, hear s.heard event, collect s.sup.child s.collected event⟩) :
    t.Exiting ∧ Transition.Nears Finished next rank (.supervise event) s t := by
  have hlinked : t.Linked := ht ▸ h.1.supervise hother hstep
  have hsup : t.sup = sup := by rw [ht]
  have hbroker : t.broker = s.broker := by rw [ht]
  rcases supervise_cases h hother hstep with ⟨result, rfl, hended, hdraining, htaken, hafter⟩ |
    ⟨rfl, htaken, hdraining, hafter⟩ | ⟨hservice, hdrained, hsame, hplace⟩
  · have hdrains : t.Draining := by unfold Draining; rw [hsup]; exact hafter
    refine ⟨⟨hlinked, Or.inl hdrains⟩, Or.inl ?_⟩
    rw [rank_of_draining hdrains, rank_of_draining hdraining]
    simp only [serviceRank, hsup, hended, htaken]
    omega
  · have hfinished : t.Finished := by unfold Finished; rw [hsup]; exact hafter
    refine ⟨⟨hlinked, Or.inr hfinished⟩, Or.inl ?_⟩
    rw [rank_of_finished hfinished, rank_of_draining hdraining]
    simp only [serviceRank, htaken]
    omega
  · have hrank : t.serviceRank = s.serviceRank := by
      simp only [serviceRank, hsup, hbroker, hsame]
    have hnext : t.next = s.next := by simp only [next, hsup, hbroker, hsame]
    have hevent := next_ne_supervise (s := s) hservice hdrained
    have hdraining (hs : s.Draining) (hdrains : t.Draining) :
        t.Exiting ∧ Transition.Nears Finished next rank (.supervise event) s t := by
      refine ⟨⟨hlinked, Or.inl hdrains⟩, Or.inr ⟨?_, fun _ => ⟨hnext, hevent⟩⟩⟩
      rw [rank_of_draining hdrains, rank_of_draining hs, hrank]
    rcases hplace with ⟨hs, hafter⟩ | hstays
    · exact hdraining hs (by unfold Draining; rw [hsup]; exact hafter)
    · rcases h.2 with hs | hs
      · exact hdraining hs (by unfold Draining; rw [hsup, hstays]; exact hs)
      · have hfinished : t.Finished := by unfold Finished; rw [hsup, hstays]; exact hs
        exact ⟨⟨hlinked, Or.inr hfinished⟩, nears_finished hs hfinished⟩

theorem Exiting.broker {event : BrokerEvent} {broker : BrokerRun} (h : s.Exiting)
    (hstep : BrokerRun.Step s.sup.shutdown s.broker event broker)
    (hsame : broker.phase.result = s.broker.phase.result) :
    Exiting { s with broker := broker } ∧ Transition.Nears Finished next rank (.broker event) s { s with broker := broker } := by
  refine ⟨⟨h.1.broker hstep hsame, h.2⟩, ?_⟩
  rcases h.2 with hdraining | hfinished
  · have hafter : rank { s with broker := broker } = serviceRank { s with broker := broker } :=
      rank_of_draining hdraining
    have hbefore := rank_of_draining hdraining
    unfold Transition.Nears
    rw [hafter, hbefore]
    have hserves := h.1.service
    cases hservice : s.sup.service with
    | running =>
      rw [hservice] at hserves
      have hnears := hstep.nears h.1.sound hserves (hsame.trans hserves)
      simp only [serviceRank, next, hservice]
      rcases hnears with hlower | ⟨hrank, hnext, hevent⟩
      · left
        omega
      · right
        refine ⟨by rw [hrank], fun _ => ⟨by rw [hnext], fun heq => ?_⟩⟩
        exact hevent (ShutdownEvent.broker.inj heq)
    | ended result | taken =>
      right
      simp only [serviceRank, next, hservice]
      exact ⟨trivial, fun _ => ⟨trivial, nofun⟩⟩
  · exact nears_finished hfinished hfinished

theorem Exiting.step {event : ShutdownEvent} (h : s.Exiting) (hstep : s.Step event t) :
    t.Exiting ∧ Transition.Nears Finished next rank event s t := by
  cases hstep with
  | supervise hother hstep => exact h.supervise hother hstep rfl
  | broker hstep hsame => exact h.broker hstep hsame
  | ends hstep _ hresult hsup =>
    have hlinked := h.1.ends hstep hresult hsup
    obtain ⟨hrunning, rfl⟩ := hsup
    refine ⟨⟨hlinked, h.2⟩, ?_⟩
    rcases h.2 with hdraining | hfinished
    · left
      rw [rank_of_draining hdraining, rank_of_draining (by exact hdraining)]
      simp only [serviceRank, hrunning]
      omega
    · exact nears_finished hfinished hfinished

/-- Whatever the broker can do it can do beside the main thread. -/
theorem broker_enabled (hservice : s.sup.service = .running) (hphase : s.broker.phase.result = none)
    {event : BrokerEvent} {broker : BrokerRun}
    (hstep : BrokerRun.Step s.sup.shutdown s.broker event broker) :
    supervisedBroker.Enabled (.broker event) s := by
  cases hresult : broker.phase.result with
  | none => exact ⟨_, .broker hstep (hresult.trans hphase.symm)⟩
  | some result => exact ⟨_, .ends hstep hphase hresult ⟨hservice, rfl⟩⟩

theorem broker_next_enabled (hservice : s.sup.service = .running)
    (hphase : s.broker.phase.result = none) (hshutdown : s.sup.shutdown ≠ .running) :
    due (.broker s.broker.next) ∧ supervisedBroker.Enabled (.broker s.broker.next) s := by
  unfold BrokerRun.next
  cases hcase : s.broker.phase with
  | serving => exact ⟨trivial, broker_enabled hservice hphase (.notice hcase hshutdown)⟩
  | aborting result =>
    by_cases hnone : s.broker.requests = 0
    · simp only [hnone, if_true]
      exact ⟨trivial, broker_enabled hservice hphase (.joined hcase hnone)⟩
    · simp only [hnone, if_false]
      exact ⟨trivial, broker_enabled hservice hphase
        (.abortRequest (by rw [hcase]; exact nofun) (Nat.pos_of_ne_zero hnone))⟩
  | draining =>
    by_cases hdrained : s.broker.Drained
    · simp only [hdrained, if_true]
      exact ⟨trivial, broker_enabled hservice hphase (.drained hcase hdrained)⟩
    · simp only [hdrained, if_false]
      exact ⟨trivial, broker_enabled hservice hphase (.deadline hcase hdrained)⟩
  | ended result =>
    rw [hcase] at hphase
    cases hphase

theorem next_enabled (h : s.Exiting) (hnot : ¬s.Finished) :
    due s.next ∧ supervisedBroker.Enabled s.next s := by
  obtain ⟨status, failed, interrupted, hdraining⟩ := h.2.resolve_right hnot
  have hserves := h.1.service
  have hpoint := h.1.point
  rw [hdraining] at hpoint
  unfold next
  cases hservice : s.sup.service with
  | taken => exact ⟨trivial, _, .supervise nofun ⟨_, _, _, hdraining, hservice, rfl⟩⟩
  | ended result => exact ⟨trivial, _, .supervise nofun ⟨_, _, _, _, hdraining, hservice, rfl⟩⟩
  | running =>
    rw [hservice] at hserves
    exact broker_next_enabled hservice hserves hpoint.2.2.1

theorem drains : supervisedBroker.Drains due Exiting Finished next rank where
  step _ _ _ h hstep := h.step hstep
  enabled _ h hnot := next_enabled h hnot

/-- Once the command tree has ended the supervisor exits, whatever the relays, the requests
and the signals do. -/
theorem supervisor_exits (run : supervisedBroker.Run) (hfair : run.Fair due) {i : Nat}
    (hdraining : (run.state i).Draining) : ∃ j, i ≤ j ∧ (run.state j).Finished :=
  drains.reaches hfair ⟨linked (run.reachable i), Or.inl hdraining⟩

end

/-- Behind a clean end nothing is due. -/
theorem finished_ends {s : SupervisedBroker} (hfinished : s.Finished)
    (hended : s.broker.phase = .ended (.ok ())) (hnone : s.broker.requests = 0)
    {event : ShutdownEvent} (hdue : due event) : ¬supervisedBroker.Enabled event s := by
  obtain ⟨code, hfinished⟩ := hfinished
  rintro ⟨t, hstep⟩
  cases hstep with
  | @supervise event sup _ hstep =>
    cases event with
    | drained =>
      obtain ⟨_, _, _, hdraining, _⟩ := hstep
      cases hdraining.symm.trans hfinished
    | takeServiceDraining =>
      obtain ⟨_, _, _, _, hdraining, _⟩ := hstep
      cases hdraining.symm.trans hfinished
    | _ => exact hdue
  | broker hstep _ =>
    cases hstep with
    | notice hphase | joined hphase | drained hphase | deadline hphase =>
      cases hphase.symm.trans hended
    | abortRequest _ hrequests => omega
    | _ => exact hdue
  | ends _ hbefore =>
    rw [hended] at hbefore
    cases hbefore

theorem supervisor_exits_quiet :
    ∃ j, 8 ≤ j ∧ ((quietExit_path.run quietStart_initial).state j).Finished :=
  supervisor_exits _ (quietExit_path.run_fair quietStart_initial fun _ =>
    finished_ends ⟨7, rfl⟩ rfl rfl)
    ⟨7, false, none, rfl⟩

end SupervisedBroker

end Scproxy
