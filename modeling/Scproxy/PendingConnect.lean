import Scproxy.Fairness
import Scproxy.IoError

namespace Scproxy

/-- The blocking task. When it is aborted in the queue of the pool it stays there until a thread
of the pool gets to it and drops it. Once it runs, it enters `connect(2)` and may block there
until the kernel is done or a `shutdown` wakes it. -/
inductive ConnectWorker
  | queued
  | aborted
  | removed
  | entering
  | blocked
  | woken
  | finished (result : Except IoError Unit)
  deriving DecidableEq

/-- How `PendingConnect::wait` ends. Its future may be dropped at any time. -/
inductive ConnectOutcome
  | returned (result : Except IoError Unit)
  | invalid (error : IoError)
  | timedOut
  | cancelled
  deriving DecidableEq

/-- The owner waits, then drops itself: it aborts the task and repeats `shutdown` until the
task has finished. -/
inductive ConnectOwner
  | waiting
  | aborting (outcome : ConnectOutcome)
  | checking (outcome : ConnectOutcome)
  | stopping (outcome : ConnectOutcome)
  | gone (outcome : ConnectOutcome)
  deriving DecidableEq

structure PendingConnect where
  worker : ConnectWorker
  owner : ConnectOwner
  shutdowns : Nat
  deriving DecidableEq

inductive ConnectEvent
  | schedule
  | discard
  | enter
  | complete
  | leave
  | ready
  | expire
  | drop
  deriving DecidableEq

namespace ConnectWorker

/-- `JoinHandle::is_finished`. -/
def isFinished : ConnectWorker → Bool
  | removed | finished _ => true
  | _ => false

/-- `JoinHandle::abort`, which marks a queued task and leaves a running one alone. -/
def abort : ConnectWorker → ConnectWorker
  | queued => aborted
  | worker => worker

/-- `shutdown(2)` of the socket. Before the worker is inside the call it has no effect. -/
def shutdown : ConnectWorker → ConnectWorker
  | blocked => woken
  | worker => worker

/-- How far the worker is from its end. -/
def rank : ConnectWorker → Nat
  | queued => 4
  | aborted | entering => 3
  | blocked => 2
  | woken => 1
  | removed | finished _ => 0

end ConnectWorker

namespace ConnectOwner

/-- The owner is on its way out. -/
def outcome : ConnectOwner → Option ConnectOutcome
  | waiting => none
  | aborting outcome | checking outcome | stopping outcome | gone outcome => some outcome

end ConnectOwner

namespace PendingConnect

/-- `schedule` and `discard` are the pool's, which comes to the task in its queue. `complete` is
the peer's: it may end the call at any time, with any result. `leave` is the
way out of a call that was woken, `ready` the task's result in the `select!` of the loop,
`expire` a failed check, the timeout or a cancellation, and `drop` the next step of the
destructor. -/
def Step : ConnectEvent → PendingConnect → PendingConnect → Prop
  | .schedule, s, t => s.worker = .queued ∧ t = { s with worker := .entering }
  | .discard, s, t => s.worker = .aborted ∧ t = { s with worker := .removed }
  | .enter, s, t => s.worker = .entering ∧
      ((∃ result, t = { s with worker := .finished result }) ∨ t = { s with worker := .blocked })
  | .complete, s, t => s.worker = .blocked ∧ ∃ result, t = { s with worker := .finished result }
  | .leave, s, t => s.worker = .woken ∧ ∃ result, t = { s with worker := .finished result }
  | .ready, s, t => s.owner = .waiting ∧
      ∃ result, s.worker = .finished result ∧ t = { s with owner := .aborting (.returned result) }
  | .expire, s, t => s.owner = .waiting ∧
      ((∃ error, t = { s with owner := .aborting (.invalid error) }) ∨
        t = { s with owner := .aborting .timedOut } ∨ t = { s with owner := .aborting .cancelled })
  | .drop, s, t =>
    (∃ outcome, s.owner = .aborting outcome ∧
      t = { s with worker := s.worker.abort, owner := .checking outcome }) ∨
    (∃ outcome, s.owner = .checking outcome ∧
      t = { s with owner := if s.worker.isFinished then .gone outcome else .stopping outcome }) ∨
    (∃ outcome, s.owner = .stopping outcome ∧
      t = ⟨s.worker.shutdown, .checking outcome, s.shutdowns + 1⟩)

def Initial (s : PendingConnect) : Prop := s = ⟨.queued, .waiting, 0⟩

end PendingConnect

def pendingConnect : Transition PendingConnect ConnectEvent where
  start := PendingConnect.Initial
  step := PendingConnect.Step

namespace PendingConnect

/-- The owner leaves only a finished task behind. A result that is returned is the task's
own, and the socket was not shut down then. An aborted task is not queued. -/
structure Sound (s : PendingConnect) : Prop where
  gone : ∀ outcome, s.owner = .gone outcome → s.worker.isFinished = true
  returned : ∀ result, s.owner.outcome = some (.returned result) →
    s.worker = .finished result ∧ s.shutdowns = 0
  stopping : ∀ result, s.owner ≠ .stopping (.returned result)
  waiting : s.owner = .waiting → s.shutdowns = 0
  aborted : ∀ outcome, s.owner = .checking outcome ∨ s.owner = .stopping outcome →
    s.worker ≠ .queued

/-- A step of the task, or of the kernel for it. -/
theorem Sound.work {s : PendingConnect} (h : s.Sound) (hworker : s.worker.isFinished = false)
    {worker : ConnectWorker} (hqueued : worker ≠ .queued) :
    Sound { s with worker := worker } := by
  refine ⟨fun outcome howner => ?_, fun result hresult => ?_, h.stopping, h.waiting,
    fun _ _ => hqueued⟩
  · rw [h.gone outcome howner] at hworker
    cases hworker
  · rw [(h.returned result hresult).1] at hworker
    cases hworker

theorem Sound.returned_of_owner {s : PendingConnect} (h : s.Sound) {owner : ConnectOwner}
    {outcome : ConnectOutcome} (howner : s.owner = owner) (houtcome : owner.outcome = some outcome)
    {result : Except IoError Unit} (hresult : some outcome = some (.returned result)) :
    s.worker = .finished result ∧ s.shutdowns = 0 := by
  apply h.returned result
  rw [howner, houtcome]
  exact hresult

theorem Sound.drop {s t : PendingConnect} (h : s.Sound) (hstep : Step .drop s t) : t.Sound := by
  rcases hstep with ⟨outcome, howner, rfl⟩ | ⟨outcome, howner, rfl⟩ | ⟨outcome, howner, rfl⟩
  · refine ⟨nofun, fun result hresult => ?_, nofun, nofun, fun _ _ => ?_⟩
    · obtain ⟨hfinished, hnone⟩ := h.returned_of_owner howner rfl hresult
      exact ⟨by rw [hfinished]; rfl, hnone⟩
    · cases s.worker <;> simp [ConnectWorker.abort]
  · have hqueued := h.aborted outcome (Or.inl howner)
    have hreturned : ∀ result, some outcome = some (.returned result) →
        s.worker = .finished result ∧ s.shutdowns = 0 := fun _ => h.returned_of_owner howner rfl
    cases hfinished : s.worker.isFinished with
    | true => exact ⟨fun _ _ => hfinished, hreturned, nofun, nofun, fun _ _ => hqueued⟩
    | false =>
      refine ⟨nofun, hreturned, fun result hstopping => ?_, nofun, fun _ _ => hqueued⟩
      cases hstopping
      rw [(hreturned result rfl).1] at hfinished
      cases hfinished
  · refine ⟨nofun, fun result hresult => ?_, nofun, nofun, fun _ _ => ?_⟩
    · cases hresult
      exact absurd howner (h.stopping result)
    · have hqueued := h.aborted outcome (Or.inr howner)
      revert hqueued
      cases s.worker <;> simp [ConnectWorker.shutdown]

theorem Sound.step {event : ConnectEvent} {s t : PendingConnect} (h : s.Sound)
    (hstep : Step event s t) : t.Sound := by
  cases event with
  | schedule | discard =>
    obtain ⟨hworker, rfl⟩ := hstep
    exact h.work (by rw [hworker]; rfl) nofun
  | enter =>
    obtain ⟨hworker, ⟨result, rfl⟩ | rfl⟩ := hstep
    · exact h.work (by rw [hworker]; rfl) nofun
    · exact h.work (by rw [hworker]; rfl) nofun
  | complete | leave =>
    obtain ⟨hworker, result, rfl⟩ := hstep
    exact h.work (by rw [hworker]; rfl) nofun
  | ready =>
    obtain ⟨howner, result, hworker, rfl⟩ := hstep
    refine ⟨nofun, fun result' hresult => ?_, nofun, nofun, nofun⟩
    cases hresult
    exact ⟨hworker, h.waiting howner⟩
  | expire =>
    obtain ⟨_, ⟨error, rfl⟩ | rfl | rfl⟩ := hstep
    · exact ⟨nofun, nofun, nofun, nofun, nofun⟩
    · exact ⟨nofun, nofun, nofun, nofun, nofun⟩
    · exact ⟨nofun, nofun, nofun, nofun, nofun⟩
  | drop => exact h.drop hstep

theorem sound {s : PendingConnect} (h : pendingConnect.Reachable s) : s.Sound := by
  refine h.invariant ?_ fun _ _ _ hs _ hstep => hs.step hstep
  rintro _ rfl
  exact ⟨nofun, nofun, nofun, fun _ => rfl, nofun⟩

/-- Nothing of a connection outlives its owner: once the owner is gone the worker has left
`connect(2)` or never entered it. A result that was passed on is the worker's own, and the
socket was not shut down before. -/
theorem no_worker_left {s : PendingConnect} (h : pendingConnect.Reachable s)
    {outcome : ConnectOutcome} (hgone : s.owner = .gone outcome) :
    (s.worker = .removed ∨ ∃ result, s.worker = .finished result) ∧
      ∀ result, outcome = .returned result → s.worker = .finished result ∧ s.shutdowns = 0 := by
  have hsound := sound h
  constructor
  · have hfinished := hsound.gone outcome hgone
    revert hfinished
    cases s.worker <;> simp [ConnectWorker.isFinished]
  · rintro result rfl
    exact hsound.returned_of_owner hgone rfl rfl

/-- The timeout comes while the worker is on its way into the call, so that the first
`shutdown` is lost and a second one wakes it. -/
def missedShutdown : List (ConnectEvent × PendingConnect) :=
  [(.schedule, ⟨.entering, .waiting, 0⟩),
   (.expire, ⟨.entering, .aborting .timedOut, 0⟩),
   (.drop, ⟨.entering, .checking .timedOut, 0⟩),
   (.drop, ⟨.entering, .stopping .timedOut, 0⟩),
   (.drop, ⟨.entering, .checking .timedOut, 1⟩),
   (.enter, ⟨.blocked, .checking .timedOut, 1⟩),
   (.drop, ⟨.blocked, .stopping .timedOut, 1⟩),
   (.drop, ⟨.woken, .checking .timedOut, 2⟩),
   (.leave, ⟨.finished (.error (.os Errno.etimedout)), .checking .timedOut, 2⟩),
   (.drop, ⟨.finished (.error (.os Errno.etimedout)), .gone .timedOut, 2⟩)]

theorem missedShutdown_path : pendingConnect.Path ⟨.queued, .waiting, 0⟩ missedShutdown := by
  have hcheck {worker owner owner' outcome shutdowns}
      (howner : owner = ConnectOwner.checking outcome)
      (hnext : owner' = if worker.isFinished then .gone outcome else .stopping outcome) :
      Step .drop ⟨worker, owner, shutdowns⟩ ⟨worker, owner', shutdowns⟩ :=
    Or.inr (Or.inl ⟨outcome, howner, by rw [hnext]⟩)
  refine ⟨⟨rfl, rfl⟩, ⟨rfl, Or.inr (Or.inl rfl)⟩, Or.inl ⟨_, rfl, rfl⟩, hcheck rfl rfl,
    Or.inr (Or.inr ⟨_, rfl, rfl⟩), ⟨rfl, Or.inr rfl⟩, hcheck rfl rfl,
    Or.inr (Or.inr ⟨_, rfl, rfl⟩), ⟨rfl, _, rfl⟩, hcheck rfl rfl, trivial⟩

theorem no_worker_left_missed :
    ∃ s : PendingConnect, s.owner = .gone .timedOut ∧ s.shutdowns = 2 ∧
      (s.worker = .removed ∨ ∃ result, s.worker = .finished result) :=
  ⟨_, rfl, rfl,
    (no_worker_left ((missedShutdown_path.run rfl).reachable missedShutdown.length) rfl).1⟩

/-- How much the owner has still to do while the worker stays where it is. -/
def ownerRank (worker : ConnectWorker) : ConnectOwner → Nat
  | .waiting => 4
  | .aborting _ => 3
  | .checking _ => if worker = .blocked then 2 else 1
  | .stopping _ => if worker.isFinished then 2 else 1
  | .gone _ => 0

def rank (s : PendingConnect) : Nat := 4 * s.worker.rank + ownerRank s.worker s.owner

/-- The step that must not be left out for the owner to get away. An aborted task misses every
`shutdown`, and a worker about to enter the call misses those made before, so the owner has to
wait for them. -/
def next (s : PendingConnect) : ConnectEvent :=
  match s.owner, s.worker with
  | .waiting, _ => .expire
  | .aborting _, _ => .drop
  | _, .aborted => .discard
  | _, .entering => .enter
  | _, .woken => .leave
  | _, _ => .drop

/-- The peer may never answer, and the pool may never run the task, but it comes to a task that
was aborted. -/
def due : ConnectEvent → Prop
  | .discard | .enter | .leave | .expire | .drop => True
  | .schedule | .complete | .ready => False

def Gone (s : PendingConnect) : Prop := ∃ outcome, s.owner = .gone outcome

theorem ownerRank_le (worker worker' : ConnectWorker) (owner : ConnectOwner) :
    ownerRank worker owner ≤ ownerRank worker' owner + 1 := by
  cases owner with
  | waiting | aborting _ | gone _ => simp [ownerRank]
  | checking _ | stopping _ =>
    simp only [ownerRank]
    split <;> split <;> omega

/-- A step of the worker counts for more than anything it changes for the owner. -/
theorem rank_work {s : PendingConnect} {worker : ConnectWorker}
    (hlower : worker.rank < s.worker.rank) : rank { s with worker := worker } < s.rank := by
  have howner := ownerRank_le worker s.worker s.owner
  simp only [rank]
  omega

/-- A turn of the loop of the destructor brings nothing while the worker is on its way into the
call or out of it, and then the worker's step is the one to come. -/
theorem rank_drop {s t : PendingConnect} (h : s.Sound) (hstep : Step .drop s t) :
    t.rank < s.rank ∨ t.rank = s.rank ∧ next t = next s ∧ next s ≠ .drop := by
  obtain ⟨worker, owner, shutdowns⟩ := s
  rcases hstep with ⟨outcome, rfl, rfl⟩ | ⟨outcome, rfl, rfl⟩ | ⟨outcome, rfl, rfl⟩
  · left
    cases worker <;> simp [rank, ownerRank, ConnectWorker.abort, ConnectWorker.rank]
  · have hqueued := h.aborted outcome (Or.inl rfl)
    cases worker <;>
      simp_all [rank, ownerRank, next, ConnectWorker.isFinished, ConnectWorker.rank]
  · have hqueued := h.aborted outcome (Or.inr rfl)
    cases worker <;>
      simp_all [rank, ownerRank, next, ConnectWorker.shutdown, ConnectWorker.isFinished,
        ConnectWorker.rank]

/-- Every other step brings the owner nearer to its end. -/
theorem rank_other {event : ConnectEvent} {s t : PendingConnect} (hevent : event ≠ .drop)
    (hstep : Step event s t) : t.rank < s.rank := by
  cases event with
  | schedule | discard =>
    obtain ⟨hworker, rfl⟩ := hstep
    exact rank_work (by simp [hworker, ConnectWorker.rank])
  | enter =>
    obtain ⟨hworker, ⟨result, rfl⟩ | rfl⟩ := hstep
    · exact rank_work (by simp [hworker, ConnectWorker.rank])
    · exact rank_work (by simp [hworker, ConnectWorker.rank])
  | complete | leave =>
    obtain ⟨hworker, result, rfl⟩ := hstep
    exact rank_work (by simp [hworker, ConnectWorker.rank])
  | ready =>
    obtain ⟨howner, result, hworker, rfl⟩ := hstep
    simp [rank, ownerRank, howner]
  | expire =>
    obtain ⟨howner, ⟨error, rfl⟩ | rfl | rfl⟩ := hstep
    · simp [rank, ownerRank, howner]
    · simp [rank, ownerRank, howner]
    · simp [rank, ownerRank, howner]
  | drop => exact absurd rfl hevent

theorem rank_step {event : ConnectEvent} {s t : PendingConnect} (h : s.Sound)
    (hstep : Step event s t) : Transition.Nears Gone next rank event s t := by
  by_cases hevent : event = .drop
  · subst hevent
    rcases rank_drop h hstep with hlower | ⟨hsame, hnext, hother⟩
    · exact Or.inl hlower
    · exact Or.inr ⟨hsame, fun _ => ⟨hnext, hother.symm⟩⟩
  · exact Or.inl (rank_other hevent hstep)

theorem next_enabled {s : PendingConnect} (hgone : ¬s.Gone) :
    due (next s) ∧ pendingConnect.Enabled (next s) s := by
  obtain ⟨worker, owner, shutdowns⟩ := s
  cases owner with
  | waiting => exact ⟨trivial, _, rfl, Or.inr (Or.inl rfl)⟩
  | aborting outcome => exact ⟨trivial, _, Or.inl ⟨outcome, rfl, rfl⟩⟩
  | checking outcome =>
    cases worker with
    | aborted => exact ⟨trivial, _, rfl, rfl⟩
    | entering => exact ⟨trivial, _, rfl, Or.inr rfl⟩
    | woken => exact ⟨trivial, _, rfl, .ok (), rfl⟩
    | queued | removed | blocked | finished _ =>
      exact ⟨trivial, _, Or.inr (Or.inl ⟨outcome, rfl, rfl⟩)⟩
  | stopping outcome =>
    cases worker with
    | aborted => exact ⟨trivial, _, rfl, rfl⟩
    | entering => exact ⟨trivial, _, rfl, Or.inr rfl⟩
    | woken => exact ⟨trivial, _, rfl, .ok (), rfl⟩
    | queued | removed | blocked | finished _ =>
      exact ⟨trivial, _, Or.inr (Or.inr ⟨outcome, rfl, rfl⟩)⟩
  | gone outcome => exact absurd ⟨outcome, rfl⟩ hgone

theorem drains : pendingConnect.Drains due Sound Gone next rank where
  step _ _ _ h hstep := ⟨h.step hstep, rank_step h hstep⟩
  enabled _ _ hgone := next_enabled hgone

/-- The destructor always ends, although the peer may never answer, an aborted task stays in the
queue until the pool comes to it, and a `shutdown` made before the worker enters the call is
lost. -/
theorem owner_always_leaves (run : pendingConnect.Run) (hfair : run.Fair due) :
    ∃ i, (run.state i).Gone := by
  obtain ⟨i, _, hgone⟩ := drains.reaches hfair (i := 0) (sound (run.reachable 0))
  exact ⟨i, hgone⟩

theorem gone_ends {s : PendingConnect} {result : Except IoError Unit} {outcome : ConnectOutcome}
    (hworker : s.worker = .finished result) (howner : s.owner = .gone outcome)
    (event : ConnectEvent) : ¬pendingConnect.Enabled event s := by
  obtain ⟨worker, owner, shutdowns⟩ := s
  cases hworker
  cases howner
  rintro ⟨t, hstep⟩
  cases event <;> simp [pendingConnect, Step] at hstep

theorem owner_always_leaves_missed :
    ∃ i, ((missedShutdown_path.run rfl).state i).Gone :=
  owner_always_leaves _ (missedShutdown_path.run_fair rfl fun event _ => gone_ends rfl rfl event)

end PendingConnect

end Scproxy
