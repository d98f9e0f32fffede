import Mathlib.Logic.Function.Basic
import Scproxy.IoError
import Scproxy.Transition

namespace Scproxy

/-- The signals that the supervisor forwards. -/
inductive Signal
  | sigHup
  | sigInt
  | sigTerm
  deriving DecidableEq

def Signal.number : Signal → Int
  | .sigHup => 1
  | .sigInt => 2
  | .sigTerm => 15

inductive WaitStatus
  | exited (code : Int)
  | signaled (signal : Int)

/-- The result of `wait_child` for the status that ends its loop. -/
def WaitStatus.code : WaitStatus → Int
  | .exited code => code
  | .signaled signal => 128 + signal

/-- The reaper process as the kernel sees it. -/
inductive Child
  | running
  | exited (status : WaitStatus)
  | reaped

/-- The blocking worker that runs `wait_child`. Its result is published some time
after it has reaped the child. -/
inductive Worker
  | idle
  | waiting
  | returned (result : Except IoError Int)
  | published (result : Except IoError Int)
  | taken

/-- The task of the broker service; its result is taken by `Service::wait`. -/
inductive ServiceTask
  | running
  | ended (result : Except IoError Unit)
  | taken

inductive Shutdown
  | running
  | drain
  | abort

/-- `Service::begin_shutdown`. -/
def Shutdown.begin (force : Bool) : Shutdown → Shutdown
  | .abort => .abort
  | _ => if force then .abort else .drain

/-- `process::forward_signal`, with the result of `kill`. -/
def forwardSignal : Except Nat Unit → Except Nat Unit
  | .ok () => .ok ()
  | .error errno => if errno = Errno.esrch then .ok () else .error errno

/-- Where the main thread is: in `supervise` up to its first loop, at the
`select!` of the first loop, about to forward a signal, in the second loop, in
the drop of the runtime that ends a failed `supervise`, at `forward_signal` and
at `wait_child` of `run`, or at the end, with the exit code if there is one. -/
inductive Supervisor
  | starting
  | watching (failed terminating : Bool)
  | forwarding (failed : Bool) (signal : Signal)
  | draining (status : Int) (failed : Bool) (interrupted : Option Int)
  | leaving
  | terminating
  | collecting
  | finished (code : Option Int)

/-- `kills` are the signals sent to the pid of the child, each with the child's
state at that moment. -/
structure Supervision where
  child : Child
  worker : Worker
  pending : Signal → Bool
  service : ServiceTask
  shutdown : Shutdown
  supervisor : Supervisor
  kills : List (Signal × Child)

inductive SuperviseEvent
  | childExits (status : WaitStatus)
  | reap
  | waitFails (errno : Nat)
  | publish
  | arrive (signal : Signal)
  | brokerEnds (result : Except IoError Unit)
  | started
  | startFails
  | takeWait
  | takeSignal (signal : Signal)
  | takeService
  | kill (outcome : Except Nat Unit)
  | takeSignalDraining (signal : Signal)
  | takeServiceDraining
  | drained
  | dropRuntime
  | terminate (outcome : Except Nat Unit)
  | collect (failed : Bool)

namespace Supervision

def receive (s : Supervision) (signal : Signal) : Supervision :=
  { s with pending := Function.update s.pending signal false }

def send (s : Supervision) (signal : Signal) : Supervision :=
  { s with kills := (signal, s.child) :: s.kills }

/-- The branch of `service.wait()` in the first loop. -/
def watchService (terminating : Bool) (failed : Bool) : Except IoError Unit → Supervisor
  | .ok () => .watching failed terminating
  | .error _ => .forwarding true .sigTerm

def afterKill (failed : Bool) (outcome : Except Nat Unit) : Supervisor :=
  match forwardSignal outcome with
  | .ok () => .watching failed true
  | .error _ => .leaving

def exitCode (status : Int) (failed : Bool) (interrupted : Option Int) : Int :=
  if failed then 1 else interrupted.getD status

/-- Steps of the child, of the worker, of the environment and of the main
thread. The drop of the runtime waits for the worker. -/
def Step : SuperviseEvent → Supervision → Supervision → Prop
  | .childExits status, s, t => s.child = .running ∧ t = { s with child := .exited status }
  | .reap, s, t => ∃ status, s.worker = .waiting ∧ s.child = .exited status ∧
      t = { s with child := .reaped, worker := .returned (.ok status.code) }
  | .waitFails errno, s, t => s.worker = .waiting ∧ errno ≠ Errno.eintr ∧
      t = { s with worker := .returned (.error (.os errno)) }
  | .publish, s, t => ∃ result, s.worker = .returned result ∧
      t = { s with worker := .published result }
  | .arrive signal, s, t => t = { s with pending := Function.update s.pending signal true }
  | .brokerEnds result, s, t => s.service = .running ∧ t = { s with service := .ended result }
  | .started, s, t => s.supervisor = .starting ∧ s.worker = .idle ∧
      t = { s with supervisor := .watching false false, worker := .waiting }
  | .startFails, s, t => s.supervisor = .starting ∧ t = { s with supervisor := .terminating }
  | .takeWait, s, t => ∃ failed terminating result, s.supervisor = .watching failed terminating ∧
      s.worker = .published result ∧
      t = { s with
        worker := .taken
        shutdown := match result with
          | .ok _ => s.shutdown.begin (terminating || failed)
          | .error _ => s.shutdown
        supervisor := match result with
          | .ok status => .draining status failed none
          | .error _ => .leaving }
  | .takeSignal signal, s, t => ∃ failed terminating,
      s.supervisor = .watching failed terminating ∧ s.pending signal = true ∧
      t = { s.receive signal with supervisor := .forwarding failed signal }
  | .takeService, s, t => ∃ failed terminating result,
      s.supervisor = .watching failed terminating ∧ s.service = .ended result ∧
      t = { s with service := .taken, supervisor := watchService terminating failed result }
  | .kill outcome, s, t => ∃ failed signal, s.supervisor = .forwarding failed signal ∧
      t = { s.send signal with supervisor := afterKill failed outcome }
  | .takeSignalDraining signal, s, t => ∃ status failed interrupted,
      s.supervisor = .draining status failed interrupted ∧ s.pending signal = true ∧
      t = { s.receive signal with
        shutdown := s.shutdown.begin true
        supervisor := .draining status failed (some (interrupted.getD (128 + signal.number))) }
  | .takeServiceDraining, s, t => ∃ status failed interrupted result,
      s.supervisor = .draining status failed interrupted ∧ s.service = .ended result ∧
      t = { s with
        service := .taken
        supervisor := .draining status (failed || result matches .error _) interrupted }
  | .drained, s, t => ∃ status failed interrupted,
      s.supervisor = .draining status failed interrupted ∧ s.service = .taken ∧
      t = { s with
        shutdown := s.shutdown.begin true
        supervisor := .finished (some (exitCode status failed interrupted)) }
  | .dropRuntime, s, t => s.supervisor = .leaving ∧
      (s.worker = .taken ∨ ∃ result, s.worker = .published result) ∧
      t = { s with worker := .taken, supervisor := .terminating }
  | .terminate _, s, t => s.supervisor = .terminating ∧
      t = { s.send .sigTerm with supervisor := .collecting }
  | .collect failed, s, t => s.supervisor = .collecting ∧
      (failed = false → ∃ status, s.child = .exited status) ∧
      t = { s with
        child := if failed then s.child else .reaped
        supervisor := .finished none }

def Initial (s : Supervision) : Prop :=
  s.child = .running ∧ s.worker = .idle ∧ (∀ signal, s.pending signal = false) ∧
    s.service = .running ∧ s.supervisor = .starting ∧ s.kills = []

/-- Neither a signal nor a failure of the broker waits to be handled. -/
def Quiet (s : Supervision) : Prop :=
  (∀ signal, s.pending signal = false) ∧ ∀ error, s.service ≠ .ended (.error error)

def InFirstLoop (s : Supervision) : Prop :=
  (∃ failed terminating, s.supervisor = .watching failed terminating) ∨
    ∃ failed signal, s.supervisor = .forwarding failed signal

/-- When the child is reaped, no signal and no broker failure is waiting or being
forwarded; none comes until the first loop has taken the result of the wait; and
the first loop's `kill` fails with nothing but `ESRCH`. -/
def Undisturbed : SuperviseEvent → Supervision → Prop
  | .reap, s => s.Quiet ∧ ∀ failed signal, s.supervisor ≠ .forwarding failed signal
  | .arrive _, s => ¬(s.child = .reaped ∧ s.InFirstLoop)
  | .brokerEnds (.error _), s => ¬(s.child = .reaped ∧ s.InFirstLoop)
  | .kill outcome, _ => forwardSignal outcome = .ok ()
  | _, _ => True

end Supervision

def supervision : Transition Supervision SuperviseEvent where
  start := Supervision.Initial
  step := Supervision.Step

end Scproxy
