import Scproxy.Supervise

namespace Scproxy

namespace Supervision

/-- Where the main thread can be once the child is reaped. -/
def AfterReap (s : Supervision) : Prop :=
  (∃ failed terminating, s.supervisor = .watching failed terminating ∧ s.Quiet) ∨
    (∃ status failed interrupted, s.supervisor = .draining status failed interrupted) ∨
    ∃ code, s.supervisor = .finished code

/-- The worker was started and has not reaped the child. -/
def Unreaped : Worker → Prop
  | .waiting => True
  | .returned (.error _) => True
  | .published (.error _) => True
  | _ => False

structure Sound (s : Supervision) : Prop where
  kills : ∀ kill ∈ s.kills, kill.2 ≠ .reaped
  reaped : s.child = .reaped → s.AfterReap
  busy : s.worker ≠ .idle → s.worker ≠ .taken → s.InFirstLoop
  unreaped : Unreaped s.worker → s.child ≠ .reaped

variable {s t : Supervision}

theorem sound_initial (h : s.Initial) : Sound s := by
  obtain ⟨hchild, hworker, _, _, _, hkills⟩ := h
  refine ⟨?_, ?_, ?_, ?_⟩
  · rw [hkills]
    simp
  · intro hreaped
    rw [hchild] at hreaped
    cases hreaped
  · intro hidle
    exact absurd hworker hidle
  · intro hunreaped
    rw [hworker] at hunreaped
    exact hunreaped.elim

/-- Neither at a `select!` nor at the end. -/
def BeforeReap : Supervisor → Prop
  | .watching _ _ => False
  | .draining _ _ _ => False
  | .finished _ => False
  | _ => True

theorem Sound.not_reaped (h : Sound s) (hbefore : BeforeReap s.supervisor) : s.child ≠ .reaped := by
  intro hreaped
  rcases h.reaped hreaped with ⟨_, _, hs, _⟩ | ⟨_, _, _, hs⟩ | ⟨_, hs⟩
  · rw [hs] at hbefore
    exact hbefore
  · rw [hs] at hbefore
    exact hbefore
  · rw [hs] at hbefore
    exact hbefore

theorem Sound.worker_of_not_inFirstLoop (h : Sound s) (hloop : ¬ s.InFirstLoop) :
    s.worker = .idle ∨ s.worker = .taken := by
  by_contra hworker
  rw [not_or] at hworker
  exact hloop (h.busy hworker.1 hworker.2)

theorem not_inFirstLoop {supervisor : Supervisor} (hs : s.supervisor = supervisor)
    (hwatching : ∀ failed terminating, supervisor ≠ .watching failed terminating)
    (hforwarding : ∀ failed signal, supervisor ≠ .forwarding failed signal) : ¬ s.InFirstLoop := by
  subst hs
  rintro (⟨failed, terminating, h⟩ | ⟨failed, signal, h⟩)
  · exact hwatching failed terminating h
  · exact hforwarding failed signal h

theorem Sound.quiet (h : Sound s) {failed terminating : Bool}
    (hs : s.supervisor = .watching failed terminating) (hreaped : s.child = .reaped) : s.Quiet := by
  rcases h.reaped hreaped with ⟨_, _, _, hq⟩ | ⟨_, _, _, hd⟩ | ⟨_, hf⟩
  · exact hq
  · cases hs.symm.trans hd
  · cases hs.symm.trans hf

theorem Sound.reap (h : Sound s) (hallowed : Undisturbed .reap s) (hstep : Step .reap s t) :
    Sound t := by
  obtain ⟨status, hworker, hchild, rfl⟩ := hstep
  obtain ⟨hquiet, hforwarding⟩ := hallowed
  have hloop := h.busy (by simp [hworker]) (by simp [hworker])
  refine ⟨h.kills, fun _ => ?_, fun _ _ => hloop, False.elim⟩
  rcases hloop with ⟨failed, terminating, hs⟩ | ⟨failed, signal, hs⟩
  · exact .inl ⟨failed, terminating, hs, hquiet⟩
  · exact absurd hs (hforwarding failed signal)

theorem Sound.environment (h : Sound s) {pending : Signal → Bool} {service : ServiceTask}
    (hallowed : ¬(s.child = .reaped ∧ s.InFirstLoop)) :
    Sound { s with pending := pending, service := service } := by
  refine ⟨h.kills, fun hreaped => ?_, h.busy, h.unreaped⟩
  rcases h.reaped hreaped with ⟨failed, terminating, hs, _⟩ | hd | hf
  · exact absurd ⟨hreaped, .inl ⟨failed, terminating, hs⟩⟩ hallowed
  · exact .inr (.inl hd)
  · exact .inr (.inr hf)

theorem Sound.takeWait (h : Sound s) (hstep : Step .takeWait s t) : Sound t := by
  obtain ⟨failed, terminating, result, hs, hworker, rfl⟩ := hstep
  refine ⟨h.kills, fun hreaped => ?_, fun _ htaken => absurd rfl htaken, False.elim⟩
  cases result with
  | ok status => exact .inr (.inl ⟨status, failed, none, rfl⟩)
  | error error =>
    refine absurd hreaped (h.unreaped ?_)
    rw [hworker]
    trivial

theorem Sound.forward (h : Sound s) {failed : Bool} {signal : Signal} {pending : Signal → Bool}
    {service : ServiceTask} (hchild : s.child ≠ .reaped) :
    Sound { s with
      pending := pending
      service := service
      supervisor := .forwarding failed signal } :=
  ⟨h.kills, fun hreaped => absurd hreaped hchild, fun _ _ => .inr ⟨failed, signal, rfl⟩,
    h.unreaped⟩

theorem Sound.takeSignal (h : Sound s) {signal : Signal} (hstep : Step (.takeSignal signal) s t) :
    Sound t := by
  obtain ⟨failed, terminating, hs, hpending, rfl⟩ := hstep
  refine h.forward fun hreaped => ?_
  have hquiet := (h.quiet hs hreaped).1 signal
  rw [hpending] at hquiet
  cases hquiet

theorem Sound.takeService (h : Sound s) (hstep : Step .takeService s t) : Sound t := by
  obtain ⟨failed, terminating, result, hs, hservice, rfl⟩ := hstep
  cases result with
  | ok _ =>
    refine ⟨h.kills, fun hreaped => ?_, fun _ _ => .inl ⟨failed, terminating, rfl⟩, h.unreaped⟩
    have hquiet := h.quiet hs hreaped
    exact .inl ⟨failed, terminating, rfl, hquiet.1, fun _ heq => by cases heq⟩
  | error error =>
    exact h.forward fun hreaped => (h.quiet hs hreaped).2 error hservice

theorem Sound.kill (h : Sound s) {outcome : Except Nat Unit} (hallowed : Undisturbed (.kill outcome) s)
    (hstep : Step (.kill outcome) s t) : Sound t := by
  obtain ⟨failed, signal, hs, rfl⟩ := hstep
  have hchild := h.not_reaped (hs ▸ trivial)
  have hafter : afterKill failed outcome = .watching failed true := by
    rw [afterKill, show forwardSignal outcome = .ok () from hallowed]
  refine ⟨?_, fun hreaped => absurd hreaped hchild, fun _ _ => .inl ⟨failed, true, hafter⟩,
    h.unreaped⟩
  rintro kill hmem
  rcases List.mem_cons.mp hmem with rfl | hmem
  · exact hchild
  · exact h.kills kill hmem

/-- Outside the first loop the worker is not there any more. -/
theorem Sound.outside (h : Sound s) {pending : Signal → Bool} {service : ServiceTask}
    {shutdown : Shutdown} {supervisor : Supervisor} {worker : Worker}
    (hworker : worker = .idle ∨ worker = .taken)
    (hreaped : s.child = .reaped → (∃ status failed interrupted,
      supervisor = .draining status failed interrupted) ∨ ∃ code, supervisor = .finished code) :
    Sound { s with
      worker := worker
      pending := pending
      service := service
      shutdown := shutdown
      supervisor := supervisor } := by
  refine ⟨h.kills, fun hr => .inr (hreaped hr), ?_, ?_⟩
  · intro hidle htaken
    rcases hworker with rfl | rfl
    · exact absurd rfl hidle
    · exact absurd rfl htaken
  · rcases hworker with rfl | rfl
    · exact False.elim
    · exact False.elim

theorem Sound.draining (h : Sound s) {status : Int} {failed : Bool} {interrupted : Option Int}
    (hs : s.supervisor = .draining status failed interrupted) {pending : Signal → Bool}
    {service : ServiceTask} {shutdown : Shutdown} {supervisor : Supervisor}
    (hnext : (∃ status failed interrupted, supervisor = .draining status failed interrupted) ∨
      ∃ code, supervisor = .finished code) :
    Sound { s with
      pending := pending
      service := service
      shutdown := shutdown
      supervisor := supervisor } :=
  h.outside (h.worker_of_not_inFirstLoop (not_inFirstLoop hs (by simp) (by simp))) fun _ => hnext

theorem Sound.terminate (h : Sound s) {outcome : Except Nat Unit}
    (hstep : Step (.terminate outcome) s t) : Sound t := by
  obtain ⟨hs, rfl⟩ := hstep
  have hchild := h.not_reaped (hs ▸ trivial)
  have hworker := h.worker_of_not_inFirstLoop (not_inFirstLoop hs (by simp) (by simp))
  refine ⟨?_, fun hreaped => absurd hreaped hchild, ?_, fun _ => hchild⟩
  · intro kill hmem
    rcases List.mem_cons.mp hmem with rfl | hmem
    · exact hchild
    · exact h.kills kill hmem
  · intro hidle htaken
    exact absurd hworker (not_or.mpr ⟨hidle, htaken⟩)

theorem Sound.collect (h : Sound s) {failed : Bool} (hstep : Step (.collect failed) s t) :
    Sound t := by
  obtain ⟨hs, _, rfl⟩ := hstep
  have hworker := h.worker_of_not_inFirstLoop (not_inFirstLoop hs (by simp) (by simp))
  refine ⟨h.kills, fun _ => .inr (.inr ⟨none, rfl⟩), ?_, ?_⟩
  · intro hidle htaken
    exact absurd hworker (not_or.mpr ⟨hidle, htaken⟩)
  · intro hunreaped
    rcases hworker with hw | hw
    · exact (hw ▸ hunreaped : Unreaped .idle).elim
    · exact (hw ▸ hunreaped : Unreaped .taken).elim

end Supervision

def Supervision.initial : Supervision :=
  ⟨.running, .idle, fun _ => false, .running, .running, .starting, []⟩

theorem Supervision.reachable_started (allowed : SuperviseEvent → Supervision → Prop)
    (h : allowed .started Supervision.initial) : supervision.ReachableWith allowed
      { Supervision.initial with supervisor := .watching false false, worker := .waiting } :=
  .next .started (.start ⟨rfl, rfl, fun _ => rfl, rfl, rfl, rfl⟩) h ⟨rfl, rfl, rfl⟩

theorem Supervision.reachable_next {allowed : SuperviseEvent → Supervision → Prop}
    {s t : Supervision} (label : SuperviseEvent) (h : supervision.ReachableWith allowed s)
    (hallowed : allowed label s) (hstep : Supervision.Step label s t) :
    supervision.ReachableWith allowed t :=
  .next label h hallowed hstep

end Scproxy
