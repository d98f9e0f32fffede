import Scproxy.BrokerRun
import Scproxy.Fairness

namespace Scproxy

/-- The result of the task, once it has ended. -/
def BrokerPhase.result : BrokerPhase → Option (Except IoError Unit)
  | .ended result => some result
  | _ => none

/-- The supervisor and its broker. `heard` are the signals that the main thread has taken and
`collected` is the exit code of the child that was reaped. -/
structure SupervisedBroker where
  sup : Supervision
  broker : BrokerRun
  heard : List Signal
  collected : Option Int

inductive ShutdownEvent
  | supervise (event : SuperviseEvent)
  | broker (event : BrokerEvent)

namespace SupervisedBroker

def hear (heard : List Signal) : SuperviseEvent → List Signal
  | .takeSignal signal | .takeSignalDraining signal => heard ++ [signal]
  | _ => heard

def collect (child : Child) (collected : Option Int) : SuperviseEvent → Option Int
  | .reap =>
    match child with
    | .exited status => some status.code
    | _ => collected
  | _ => collected

/-- The broker reads the state of the shutdown, and the end of its task is what
`Service::wait` waits for. -/
inductive Step (s : SupervisedBroker) : ShutdownEvent → SupervisedBroker → Prop
  | supervise {event : SuperviseEvent} {sup : Supervision}
      (hother : ∀ result, event ≠ .brokerEnds result) (hstep : Supervision.Step event s.sup sup) :
      Step s (.supervise event)
        ⟨sup, s.broker, hear s.heard event, collect s.sup.child s.collected event⟩
  | broker {event : BrokerEvent} {broker : BrokerRun}
      (hstep : BrokerRun.Step s.sup.shutdown s.broker event broker)
      (hsame : broker.phase.result = s.broker.phase.result) :
      Step s (.broker event) { s with broker := broker }
  | ends {event : BrokerEvent} {broker : BrokerRun} {sup : Supervision}
      {result : Except IoError Unit}
      (hstep : BrokerRun.Step s.sup.shutdown s.broker event broker)
      (hbefore : s.broker.phase.result = none) (hresult : broker.phase.result = some result)
      (hsup : Supervision.Step (.brokerEnds result) s.sup sup) :
      Step s (.broker event) { s with sup := sup, broker := broker }

def Initial (s : SupervisedBroker) : Prop :=
  s.sup.Initial ∧ s.sup.shutdown = .running ∧ s.broker.Initial ∧ s.heard = [] ∧ s.collected = none

end SupervisedBroker

def supervisedBroker : Transition SupervisedBroker ShutdownEvent where
  start := SupervisedBroker.Initial
  step event s t := s.Step event t

namespace SupervisedBroker

/-- The composition is one of the runs of the supervisor with any broker. -/
theorem supervision_reachable {s : SupervisedBroker} (h : supervisedBroker.Reachable s) :
    supervision.Reachable s.sup := by
  induction h with
  | start hs => exact .start hs.1
  | next event _ _ hstep ih =>
    cases hstep with
    | supervise _ hstep => exact .next _ ih trivial hstep
    | broker => exact ih
    | @ends _ _ _ result _ _ _ hsup => exact .next (.brokerEnds result) ih trivial hsup

def Serves (phase : BrokerPhase) : ServiceTask → Prop
  | .running => phase.result = none
  | .ended result => phase = .ended result
  | .taken => ∃ result, phase = .ended result

/-- `failed` says that the task has failed and that the main thread knows it. -/
def Failed (service : ServiceTask) (phase : BrokerPhase) (failed : Bool) : Prop :=
  failed = true ↔ service = .taken ∧ ∃ error, phase = .ended (.error error)

/-- The code comes from a failed broker, from the child, or from a signal heard. -/
def Exit (s : SupervisedBroker) (code : Int) : Prop :=
  (∃ error, s.broker.phase = .ended (.error error)) ∧ code = 1 ∨
    s.broker.phase = .ended (.ok ()) ∧
      (s.collected = some code ∨ ∃ signal ∈ s.heard, code = 128 + signal.number) ∧
      (s.heard = [] → s.collected = some code)

def Point (s : SupervisedBroker) : Supervisor → Prop
  | .starting => s.sup.service ≠ .taken ∧ s.sup.shutdown = .running
  | .watching failed terminating => Failed s.sup.service s.broker.phase failed ∧
      s.sup.shutdown = .running ∧ (terminating = true → s.heard ≠ [] ∨ failed = true)
  | .forwarding failed _ => Failed s.sup.service s.broker.phase failed ∧
      s.sup.shutdown = .running ∧ (s.heard ≠ [] ∨ failed = true)
  | .draining status failed interrupted => Failed s.sup.service s.broker.phase failed ∧
      s.sup.worker = .taken ∧ s.sup.shutdown ≠ .running ∧ s.collected = some status ∧
      (∀ code, interrupted = some code → ∃ signal ∈ s.heard, code = 128 + signal.number)
  | .finished (some code) => s.sup.worker = .taken ∧ s.sup.service = .taken ∧ s.Exit code
  | .leaving | .terminating | .collecting | .finished none => True

structure Linked (s : SupervisedBroker) : Prop where
  service : Serves s.broker.phase s.sup.service
  sound : s.broker.Sound (s.heard ≠ [])
  abort : s.sup.shutdown = .abort → s.heard ≠ [] ∨ ∃ result, s.broker.phase = .ended result
  point : s.Point s.sup.supervisor
  worker : ∀ code, s.sup.worker = .returned (.ok code) ∨ s.sup.worker = .published (.ok code) →
    s.collected = some code

theorem result_eq_some {phase : BrokerPhase} {result : Except IoError Unit} :
    phase.result = some result ↔ phase = .ended result := by
  cases phase <;> simp [BrokerPhase.result]

/-- Only what `Service::wait` has handed out counts for the main thread. -/
theorem Failed.congr {service service' : ServiceTask} {phase phase' : BrokerPhase} {failed : Bool}
    (h : Failed service phase failed)
    (htaken : service' = .taken ↔ service = .taken)
    (hphase : service = .taken → phase' = phase) : Failed service' phase' failed := by
  unfold Failed at h ⊢
  rw [h, htaken]
  constructor
  · rintro ⟨hs, error, heq⟩
    exact ⟨hs, error, (hphase hs).trans heq⟩
  · rintro ⟨hs, error, heq⟩
    exact ⟨hs, error, (hphase hs).symm.trans heq⟩

/-- A step of the broker changes nothing that the main thread has seen. -/
theorem Point.broker {s t : SupervisedBroker} {supervisor : Supervisor} (h : s.Point supervisor)
    (hworker : t.sup.worker = s.sup.worker) (hshutdown : t.sup.shutdown = s.sup.shutdown)
    (hheard : t.heard = s.heard) (hcollected : t.collected = s.collected)
    (htaken : t.sup.service = .taken ↔ s.sup.service = .taken)
    (hphase : s.sup.service = .taken → t.broker.phase = s.broker.phase) :
    t.Point supervisor := by
  cases supervisor with
  | starting => exact ⟨fun heq => h.1 (htaken.mp heq), hshutdown.trans h.2⟩
  | watching failed terminating =>
    exact ⟨h.1.congr htaken hphase, hshutdown.trans h.2.1, hheard ▸ h.2.2⟩
  | forwarding failed signal =>
    exact ⟨h.1.congr htaken hphase, hshutdown.trans h.2.1, hheard ▸ h.2.2⟩
  | draining status failed interrupted =>
    exact ⟨h.1.congr htaken hphase, hworker.trans h.2.1, hshutdown ▸ h.2.2.1,
      hcollected.trans h.2.2.2.1, hheard ▸ h.2.2.2.2⟩
  | finished code =>
    cases code with
    | none => trivial
    | some code =>
      obtain ⟨hw, hs, hexit⟩ := h
      refine ⟨hworker.trans hw, htaken.mpr hs, ?_⟩
      unfold Exit at hexit ⊢
      rw [hphase hs, hheard, hcollected]
      exact hexit
  | leaving | terminating | collecting => trivial

theorem Linked.broker {s : SupervisedBroker} (h : s.Linked) {event : BrokerEvent}
    {broker : BrokerRun} (hstep : BrokerRun.Step s.sup.shutdown s.broker event broker)
    (hsame : broker.phase.result = s.broker.phase.result) :
    Linked { s with broker := broker } := by
  have hkept : ∀ result, s.broker.phase = .ended result → broker.phase = .ended result :=
    fun _ hended => hstep.ended hended
  refine ⟨?_, ?_, fun habort => ?_, ?_, h.worker⟩
  · have hservice := h.service
    cases hcase : s.sup.service with
    | running =>
      rw [hcase] at hservice
      exact hsame.trans hservice
    | ended result =>
      rw [hcase] at hservice
      exact hkept result hservice
    | taken =>
      rw [hcase] at hservice
      obtain ⟨result, hended⟩ := hservice
      exact ⟨result, hkept result hended⟩
  · refine h.sound.step hstep fun habort hdraining => ?_
    rcases h.abort habort with hheard | ⟨result, hended⟩
    · exact hheard
    · cases hdraining.symm.trans hended
  · rcases h.abort habort with hheard | ⟨result, hended⟩
    · exact Or.inl hheard
    · exact Or.inr ⟨result, hkept result hended⟩
  · refine h.point.broker rfl rfl rfl rfl Iff.rfl fun htaken => ?_
    have hservice := h.service
    rw [htaken] at hservice
    obtain ⟨result, hended⟩ := hservice
    exact (hkept result hended).trans hended.symm

theorem Linked.ends {s : SupervisedBroker} (h : s.Linked) {event : BrokerEvent}
    {broker : BrokerRun} {sup : Supervision} {result : Except IoError Unit}
    (hstep : BrokerRun.Step s.sup.shutdown s.broker event broker)
    (hresult : broker.phase.result = some result)
    (hsup : Supervision.Step (.brokerEnds result) s.sup sup) :
    Linked { s with sup := sup, broker := broker } := by
  obtain ⟨hrunning, rfl⟩ := hsup
  have hended := result_eq_some.mp hresult
  refine ⟨hended, ?_, fun _ => Or.inr ⟨result, hended⟩, ?_, h.worker⟩
  · refine h.sound.step hstep fun habort hdraining => ?_
    rcases h.abort habort with hheard | ⟨result', hended'⟩
    · exact hheard
    · cases hdraining.symm.trans hended'
  · refine h.point.broker rfl rfl rfl rfl ?_ fun htaken => ?_
    · rw [hrunning]
      exact ⟨nofun, nofun⟩
    · rw [hrunning] at htaken
      cases htaken

/-- Until the result of the wait is taken, the main thread does not see what the worker does. -/
theorem Point.unseen {s t : SupervisedBroker} {supervisor : Supervisor} (h : s.Point supervisor)
    (hworker : s.sup.worker ≠ .taken) (hservice : t.sup.service = s.sup.service)
    (hshutdown : t.sup.shutdown = s.sup.shutdown) (hheard : t.heard = s.heard)
    (hphase : t.broker.phase = s.broker.phase) : t.Point supervisor := by
  cases supervisor with
  | starting => exact ⟨hservice ▸ h.1, hshutdown.trans h.2⟩
  | watching failed terminating =>
    exact ⟨hservice ▸ hphase ▸ h.1, hshutdown.trans h.2.1, hheard ▸ h.2.2⟩
  | forwarding failed signal =>
    exact ⟨hservice ▸ hphase ▸ h.1, hshutdown.trans h.2.1, hheard ▸ h.2.2⟩
  | draining status failed interrupted => exact absurd h.2.1 hworker
  | finished code =>
    cases code with
    | none => trivial
    | some code => exact absurd h.1 hworker
  | leaving | terminating | collecting => trivial

theorem Failed.not_taken {service : ServiceTask} {phase : BrokerPhase} {failed : Bool}
    (h : Failed service phase failed) (hservice : service ≠ .taken) : failed = false := by
  cases failed with
  | false => rfl
  | true => exact absurd (h.mp rfl).1 hservice

theorem failed_not_taken {service : ServiceTask} {phase : BrokerPhase} (hservice : service ≠ .taken) :
    Failed service phase false :=
  ⟨nofun, fun htaken => absurd htaken.1 hservice⟩

/-- The results that `Service::wait` hands out. -/
theorem failed_taken_ok {phase : BrokerPhase} (hphase : phase = .ended (.ok ())) :
    Failed .taken phase false := by
  subst hphase
  refine ⟨nofun, ?_⟩
  rintro ⟨_, error, heq⟩
  cases heq

theorem failed_taken_error {phase : BrokerPhase} {error : IoError}
    (hphase : phase = .ended (.error error)) : Failed .taken phase true :=
  ⟨fun _ => ⟨rfl, error, hphase⟩, fun _ => rfl⟩

theorem begin_eq_abort {force : Bool} (h : Shutdown.begin force .running = .abort) :
    force = true := by
  cases force with
  | true => rfl
  | false => cases h

/-- What the main thread returns once the service is gone. -/
theorem exit_of_drained {s : SupervisedBroker} {status : Int} {failed : Bool}
    {interrupted : Option Int} {result : Except IoError Unit}
    (hended : s.broker.phase = .ended result) (hfailed : Failed .taken s.broker.phase failed)
    (hcollected : s.collected = some status)
    (hinterrupted : ∀ code, interrupted = some code →
      ∃ signal ∈ s.heard, code = 128 + signal.number) :
    s.Exit (Supervision.exitCode status failed interrupted) := by
  cases failed with
  | true => exact Or.inl ⟨(hfailed.mp rfl).2, rfl⟩
  | false =>
    have hok : s.broker.phase = .ended (.ok ()) := by
      cases result with
      | ok value => exact hended
      | error error => cases hfailed.mpr ⟨rfl, error, hended⟩
    refine Or.inr ⟨hok, ?_⟩
    cases interrupted with
    | none => exact ⟨Or.inl hcollected, fun _ => hcollected⟩
    | some code =>
      obtain ⟨signal, hmem, hcode⟩ := hinterrupted code rfl
      exact ⟨Or.inr ⟨signal, hmem, hcode⟩, fun hnone => by rw [hnone] at hmem; cases hmem⟩

theorem Shutdown.begin_ne_running (force : Bool) (shutdown : Shutdown) :
    shutdown.begin force ≠ .running := by
  cases shutdown <;> cases force <;> exact nofun

theorem Linked.supervise {s : SupervisedBroker} (h : s.Linked) {event : SuperviseEvent}
    {sup : Supervision} (hother : ∀ result, event ≠ .brokerEnds result)
    (hstep : Supervision.Step event s.sup sup) :
    Linked ⟨sup, s.broker, hear s.heard event, collect s.sup.child s.collected event⟩ := by
  obtain ⟨hservice, hsound, habort, hpoint, hworker⟩ := h
  cases event with
  | childExits status =>
    obtain ⟨_, rfl⟩ := hstep
    exact ⟨hservice, hsound, habort, hpoint.broker rfl rfl rfl rfl Iff.rfl fun _ => rfl, hworker⟩
  | reap =>
    obtain ⟨status, hwaiting, hchild, rfl⟩ := hstep
    refine ⟨hservice, hsound, habort, hpoint.unseen (by rw [hwaiting]; exact nofun) rfl rfl rfl rfl,
      fun code hcode => ?_⟩
    rcases hcode with hcode | hcode
    · cases hcode
      simp [collect, hchild]
    · cases hcode
  | waitFails errno =>
    obtain ⟨hwaiting, _, rfl⟩ := hstep
    exact ⟨hservice, hsound, habort, hpoint.unseen (by rw [hwaiting]; exact nofun) rfl rfl rfl rfl,
      by rintro _ (hcode | hcode) <;> cases hcode⟩
  | publish =>
    obtain ⟨result, hreturned, rfl⟩ := hstep
    refine ⟨hservice, hsound, habort, hpoint.unseen (by rw [hreturned]; exact nofun) rfl rfl rfl rfl,
      fun code hcode => ?_⟩
    rcases hcode with hcode | hcode
    · cases hcode
    · cases hcode
      exact hworker code (Or.inl hreturned)
  | arrive signal =>
    cases hstep
    exact ⟨hservice, hsound, habort, hpoint.broker rfl rfl rfl rfl Iff.rfl fun _ => rfl, hworker⟩
  | brokerEnds result => exact absurd rfl (hother result)
  | started =>
    obtain ⟨hstarting, _, rfl⟩ := hstep
    rw [hstarting] at hpoint
    exact ⟨hservice, hsound, habort, ⟨failed_not_taken hpoint.1, hpoint.2, nofun⟩,
      by rintro _ (hcode | hcode) <;> cases hcode⟩
  | startFails =>
    obtain ⟨_, rfl⟩ := hstep
    exact ⟨hservice, hsound, habort, trivial, hworker⟩
  | takeWait =>
    obtain ⟨failed, terminating, result, hwatching, hpublished, rfl⟩ := hstep
    rw [hwatching] at hpoint
    obtain ⟨hfailed, hrunning, hterminating⟩ := hpoint
    cases result with
    | error error =>
      exact ⟨hservice, hsound, habort, trivial, by rintro _ (hcode | hcode) <;> cases hcode⟩
    | ok status =>
      refine ⟨hservice, hsound, fun hforced => ?_, ⟨hfailed, rfl, Shutdown.begin_ne_running _ _,
        hworker status (Or.inr hpublished), nofun⟩, by rintro _ (hcode | hcode) <;> cases hcode⟩
      simp only [hrunning] at hforced
      have hreason := begin_eq_abort hforced
      rw [Bool.or_eq_true] at hreason
      have hbecause : s.heard ≠ [] ∨ failed = true := hreason.elim hterminating Or.inr
      rcases hbecause with hheard | hbroken
      · exact Or.inl hheard
      · obtain ⟨_, error, hended⟩ := hfailed.mp hbroken
        exact Or.inr ⟨.error error, hended⟩
  | takeSignal signal =>
    obtain ⟨failed, terminating, hwatching, _, rfl⟩ := hstep
    rw [hwatching] at hpoint
    exact ⟨hservice, hsound.mono fun _ => by simp [hear], fun _ => Or.inl (by simp [hear]),
      ⟨hpoint.1, hpoint.2.1, Or.inl (by simp [hear])⟩, hworker⟩
  | takeService =>
    obtain ⟨failed, terminating, result, hwatching, hended, rfl⟩ := hstep
    rw [hwatching] at hpoint
    obtain ⟨hfailed, hrunning, hterminating⟩ := hpoint
    rw [hended] at hservice hfailed
    have hnot := hfailed.not_taken nofun
    subst hnot
    refine ⟨⟨result, hservice⟩, hsound, habort, ?_, hworker⟩
    cases result with
    | ok value => exact ⟨failed_taken_ok hservice, hrunning, hterminating⟩
    | error error => exact ⟨failed_taken_error hservice, hrunning, Or.inr rfl⟩
  | kill outcome =>
    obtain ⟨failed, signal, hforwarding, rfl⟩ := hstep
    rw [hforwarding] at hpoint
    refine ⟨hservice, hsound, habort, ?_, hworker⟩
    simp only [Supervision.afterKill]
    split
    · exact ⟨hpoint.1, hpoint.2.1, fun _ => hpoint.2.2⟩
    · trivial
  | takeSignalDraining signal =>
    obtain ⟨status, failed, interrupted, hdraining, _, rfl⟩ := hstep
    rw [hdraining] at hpoint
    obtain ⟨hfailed, htaken, hshutdown, hcollected, hinterrupted⟩ := hpoint
    refine ⟨hservice, hsound.mono fun _ => by simp [hear], fun _ => Or.inl (by simp [hear]),
      ⟨hfailed, htaken, Shutdown.begin_ne_running _ _, hcollected, fun code hcode => ?_⟩, hworker⟩
    cases hcode
    cases interrupted with
    | none => exact ⟨signal, by simp [hear], rfl⟩
    | some first =>
      obtain ⟨earlier, hmem, hfirst⟩ := hinterrupted first rfl
      exact ⟨earlier, by simp [hear, hmem], hfirst⟩
  | takeServiceDraining =>
    obtain ⟨status, failed, interrupted, result, hdraining, hended, rfl⟩ := hstep
    rw [hdraining] at hpoint
    obtain ⟨hfailed, htaken, hshutdown, hcollected, hinterrupted⟩ := hpoint
    rw [hended] at hservice hfailed
    have hnot := hfailed.not_taken nofun
    subst hnot
    refine ⟨⟨result, hservice⟩, hsound, habort,
      ⟨?_, htaken, hshutdown, hcollected, hinterrupted⟩, hworker⟩
    cases result with
    | ok value => exact failed_taken_ok hservice
    | error error => exact failed_taken_error hservice
  | drained =>
    obtain ⟨status, failed, interrupted, hdraining, hserved, rfl⟩ := hstep
    rw [hdraining] at hpoint
    obtain ⟨hfailed, htaken, hshutdown, hcollected, hinterrupted⟩ := hpoint
    have hresult := hservice
    rw [hserved] at hresult hfailed
    obtain ⟨result, hended⟩ := hresult
    exact ⟨hservice, hsound, fun _ => Or.inr ⟨result, hended⟩,
      ⟨htaken, hserved, exit_of_drained hended hfailed hcollected hinterrupted⟩, hworker⟩
  | dropRuntime =>
    obtain ⟨_, _, rfl⟩ := hstep
    exact ⟨hservice, hsound, habort, trivial, by rintro _ (hcode | hcode) <;> cases hcode⟩
  | terminate outcome =>
    obtain ⟨_, rfl⟩ := hstep
    exact ⟨hservice, hsound, habort, trivial, hworker⟩
  | collect failed =>
    obtain ⟨_, _, rfl⟩ := hstep
    exact ⟨hservice, hsound, habort, trivial, hworker⟩

theorem linked {s : SupervisedBroker} (h : supervisedBroker.Reachable s) : s.Linked := by
  refine h.invariant ?_ fun event s t hs _ hstep => ?_
  · intro s hs
    obtain ⟨⟨_, hworker, _, hservice, hstarting, _⟩, hshutdown, hbroker, _, _⟩ := hs
    have hphase : s.broker.phase = .serving := by rw [hbroker]
    refine ⟨?_, ?_, ?_, ?_, ?_⟩
    · rw [hservice, hphase]
      rfl
    · rw [hbroker]
      exact ⟨Nat.zero_le _, nofun, nofun, fun hcut => absurd rfl hcut⟩
    · rw [hshutdown]
      exact nofun
    · rw [hstarting]
      exact ⟨by rw [hservice]; exact nofun, hshutdown⟩
    · rw [hworker]
      rintro _ (hcode | hcode) <;> cases hcode
  · cases hstep with
    | supervise hother hstep => exact hs.supervise hother hstep
    | broker hstep hsame => exact hs.broker hstep hsame
    | ends hstep _ hresult hsup => exact hs.ends hstep hresult hsup

/-- The exit code of a supervisor that saw the end of its command: 1 if the broker failed,
otherwise the command's own code or that of a signal. Without a signal it is the command's own
code, and no connection of the command was cut off. -/
theorem exit_code_sound {s : SupervisedBroker} (h : supervisedBroker.Reachable s) {code : Int}
    (hfinished : s.sup.supervisor = .finished (some code)) :
    ((∃ error, s.broker.phase = .ended (.error error)) ∧ code = 1) ∨
    (s.broker.phase = .ended (.ok ()) ∧ s.broker.requests = 0 ∧ s.broker.relays = 0 ∧
      (s.collected = some code ∨ ∃ signal ∈ s.heard, code = 128 + signal.number) ∧
      (s.heard = [] → s.collected = some code ∧ s.broker.cut = 0)) := by
  have hlinked := linked h
  have hpoint := hlinked.point
  rw [hfinished] at hpoint
  obtain ⟨_, _, hexit⟩ := hpoint
  rcases hexit with hbroken | ⟨hok, hcode, hquiet⟩
  · exact Or.inl hbroken
  · obtain ⟨hrequests, hrelays⟩ := hlinked.sound.ended hok
    refine Or.inr ⟨hok, hrequests, hrelays, hcode, fun hnone => ⟨hquiet hnone, ?_⟩⟩
    by_contra hcut
    rcases hlinked.sound.cut hcut with ⟨error, hfailed⟩ | ⟨_, hheard⟩
    · cases hok.symm.trans hfailed
    · exact hheard hnone

/-- A supervisor without signals. -/
def calm (child : Child) (worker : Worker) (service : ServiceTask) (shutdown : Shutdown)
    (supervisor : Supervisor) : Supervision :=
  ⟨child, worker, fun _ => false, service, shutdown, supervisor, []⟩

/-- The command connects, and its last connection ends after the command itself. -/
def quietExit : List (ShutdownEvent × SupervisedBroker) :=
  let ended : Child := .exited (.exited 7)
  let watching : Supervisor := .watching false false
  let draining : Supervisor := .draining 7 false none
  let idle : BrokerRun := ⟨.serving, 0, [], 0, [], 0⟩
  let open_ : BrokerRun := ⟨.serving, 0, [.ok ()], 1, [], 0⟩
  [(.supervise .started, ⟨calm .running .waiting .running .running watching, idle, [], none⟩),
   (.broker .notify,
    ⟨calm .running .waiting .running .running watching, ⟨.serving, 1, [], 0, [], 0⟩, [], none⟩),
   (.broker .connect,
    ⟨calm .running .waiting .running .running watching, ⟨.serving, 1, [], 1, [], 0⟩, [], none⟩),
   (.broker (.requestEnds (.ok ())),
    ⟨calm .running .waiting .running .running watching, open_, [], none⟩),
   (.supervise (.childExits (.exited 7)),
    ⟨calm ended .waiting .running .running watching, open_, [], none⟩),
   (.supervise .reap,
    ⟨calm .reaped (.returned (.ok 7)) .running .running watching, open_, [], some 7⟩),
   (.supervise .publish,
    ⟨calm .reaped (.published (.ok 7)) .running .running watching, open_, [], some 7⟩),
   (.supervise .takeWait,
    ⟨calm .reaped .taken .running .drain draining, open_, [], some 7⟩),
   (.broker .notice,
    ⟨calm .reaped .taken .running .drain draining, ⟨.aborting (.ok ()), 0, [.ok ()], 1, [], 0⟩,
      [], some 7⟩),
   (.broker .joined,
    ⟨calm .reaped .taken .running .drain draining, ⟨.draining, 0, [], 1, [], 0⟩, [], some 7⟩),
   (.broker (.relayEnds (.ok ())),
    ⟨calm .reaped .taken .running .drain draining, ⟨.draining, 0, [], 0, [.ok ()], 0⟩, [], some 7⟩),
   (.broker .joinRelay,
    ⟨calm .reaped .taken .running .drain draining, ⟨.draining, 0, [], 0, [], 0⟩, [], some 7⟩),
   (.broker .drained,
    ⟨calm .reaped .taken (.ended (.ok ())) .drain draining, ⟨.ended (.ok ()), 0, [], 0, [], 0⟩,
      [], some 7⟩),
   (.supervise .takeServiceDraining,
    ⟨calm .reaped .taken .taken .drain draining, ⟨.ended (.ok ()), 0, [], 0, [], 0⟩, [], some 7⟩),
   (.supervise .drained,
    ⟨calm .reaped .taken .taken .abort (.finished (some 7)), ⟨.ended (.ok ()), 0, [], 0, [], 0⟩,
      [], some 7⟩)]

def quietStart : SupervisedBroker :=
  ⟨calm .running .idle .running .running .starting, ⟨.serving, 0, [], 0, [], 0⟩, [], none⟩

theorem quietStart_initial : quietStart.Initial :=
  ⟨⟨rfl, rfl, fun _ => rfl, rfl, rfl, rfl⟩, rfl, rfl, rfl, rfl⟩

theorem quietExit_path : supervisedBroker.Path quietStart quietExit := by
  refine ⟨.supervise nofun ⟨rfl, rfl, rfl⟩, .broker (.notify rfl (by decide)) rfl,
    .broker (.connect (by decide)) rfl, .broker (.requestEnds (by decide) _) rfl,
    .supervise nofun ⟨rfl, rfl⟩, .supervise nofun ⟨.exited 7, rfl, rfl, rfl⟩,
    .supervise nofun ⟨_, rfl, rfl⟩, .supervise nofun ⟨_, _, _, rfl, rfl, rfl⟩,
    .broker (.notice rfl nofun) rfl, .broker (@BrokerRun.Step.joined _ _ (.ok ()) rfl rfl) rfl,
    .broker (.relayEnds (by decide) _) rfl,
    .broker (@BrokerRun.Step.joinRelay _ _ rfl (.ok ()) [] rfl) rfl,
    .ends (.drained rfl ⟨rfl, rfl⟩) rfl rfl ⟨rfl, rfl⟩,
    .supervise nofun ⟨_, _, _, _, rfl, rfl, rfl⟩, .supervise nofun ⟨_, _, _, rfl, rfl, rfl⟩, trivial⟩

theorem exit_code_sound_quiet :
    ∃ s : SupervisedBroker, s.sup.supervisor = .finished (some 7) ∧ s.heard = [] ∧
      s.broker.cut = 0 := by
  have hreachable := (quietExit_path.run quietStart_initial).reachable quietExit.length
  rcases exit_code_sound hreachable rfl with ⟨_, hone⟩ | ⟨_, _, _, _, hquiet⟩
  · cases hone
  · exact ⟨_, rfl, rfl, (hquiet rfl).2⟩

end SupervisedBroker

end Scproxy
