import Mathlib.Logic.Function.Basic
import Scproxy.RequestAnswer
import Scproxy.Transition

namespace Scproxy

/-- A notification in the kernel. It is gone when its call was interrupted or
its thread was killed. -/
inductive NotificationState
  | init
  | sent
  | replied
  | gone
  deriving DecidableEq

/-- How a notification was answered. The last two are for want of room. -/
inductive AnswerKind
  | respond (value : Int) (errno : Nat) (passthrough : Bool)
  | addfdSend
  | channelFull (errno : Nat)
  | tasksFull (errno : Nat)

structure Answer where
  id : UInt64
  kind : AnswerKind

/-- The thread of `Receiver::start`. It refuses a notification that does not fit
into the channel. -/
inductive ReceiverThread
  | waiting
  | received (notification : Notification)
  | refusing (notification : Notification)

/-- The notification in the hands of the thread. -/
def ReceiverThread.held : ReceiverThread → List UInt64
  | .waiting => []
  | .received notification => [notification.id]
  | .refusing notification => [notification.id]

/-- The loop of `Broker::run`. -/
inductive BrokerLoop
  | selecting
  | taken (notification : Notification)
  | stopped

def BrokerLoop.held : BrokerLoop → List UInt64
  | .taken notification => [notification.id]
  | _ => []

/-- A task of the `JoinSet`, without a program after a panic. -/
structure RequestTask where
  notification : Notification
  program : Option (Interaction RequestOperation RequestOperation.Ret (Except IoError Unit))

/-- The task has not succeeded. -/
def RequestTask.inFlight (task : RequestTask) : Bool :=
  match task.program with
  | some (.done (.ok ())) => false
  | _ => true

abbrev Kernel := UInt64 → Option NotificationState

/-- `SECCOMP_IOCTL_NOTIF_SEND`. It may fail with `EINPROGRESS` for a notification that does not
wait, and with `EINTR` or another error for any. -/
inductive Kernel.Sends (kernel : Kernel) (id : UInt64) : Except IoError Unit → Kernel → Prop
  | replies (h : kernel id = some .sent) :
      Kernel.Sends kernel id (.ok ()) (Function.update kernel id (some .replied))
  | unknown (h : kernel id = some .gone ∨ kernel id = none) :
      Kernel.Sends kernel id (.error (.os Errno.enoent)) kernel
  | fails (error : IoError) (h : error ≠ .os Errno.enoent) :
      Kernel.Sends kernel id (.error error) kernel

/-- A notification is lost when the receiver lets it go without an answer. -/
structure NotifySystem where
  kernel : Kernel
  received : List UInt64
  receiver : ReceiverThread
  channel : List Notification
  loop : BrokerLoop
  requests : List RequestTask
  answered : List Answer
  lost : List UInt64

inductive NotifyEvent
  | notify (id : UInt64)
  | interrupt (id : UInt64)
  | receive (notification : Notification)
  | offer
  | refuse (result : Except IoError Unit)
  | take
  | spawn (memory : Memory)
  | saturate
  | operate
  | panic
  | join
  | stop

namespace NotifySystem

/-- Both the bound of the channel and of the set of tasks. -/
def capacity : Nat := 256

/-- The notifications that are being passed on. -/
def hands (s : NotifySystem) : List UInt64 := s.receiver.held ++ s.loop.held

def queued (s : NotifySystem) : List UInt64 := s.channel.map (·.id)

def inFlight (requests : List RequestTask) : List UInt64 :=
  (requests.filter (·.inFlight)).map (·.notification.id)

def answeredIds (s : NotifySystem) : List UInt64 := s.answered.map (·.id)

def record (s : NotifySystem) (id : UInt64) (kind : AnswerKind) (r : Except IoError Unit) :
    List Answer :=
  if answers r then ⟨id, kind⟩ :: s.answered else s.answered

/-- How an operation of a task is answered. An answer that does not matter to the
notification may be any. `ADDFD_SEND` may fail for many reasons. -/
def Operates (s : NotifySystem) (id : UInt64) :
    (op : RequestOperation) → op.Ret → Kernel → List Answer → Prop
  | .respond value errno passthrough, r, kernel, answered =>
    s.kernel.Sends id r kernel ∧ answered = s.record id (.respond value errno passthrough) r
  | .addfdSend .., r, kernel, answered =>
    (s.kernel id = some .sent ∧ r = .ok () ∧
      kernel = Function.update s.kernel id (some .replied) ∧
      answered = ⟨id, .addfdSend⟩ :: s.answered) ∨
    ∃ error, r = .error error ∧ kernel = s.kernel ∧ answered = s.answered
  | _, _, kernel, answered => kernel = s.kernel ∧ answered = s.answered

def Step (context : RequestContext) : NotifyEvent → NotifySystem → NotifySystem → Prop
  | .notify id, s, t => s.kernel id = none ∧
      t = { s with kernel := Function.update s.kernel id (some .init) }
  | .interrupt id, s, t => (s.kernel id = some .init ∨ s.kernel id = some .sent) ∧
      t = { s with kernel := Function.update s.kernel id (some .gone) }
  | .receive notification, s, t => s.receiver = .waiting ∧
      s.kernel notification.id = some .init ∧
      t = { s with
        kernel := Function.update s.kernel notification.id (some .sent)
        received := notification.id :: s.received
        receiver := .received notification }
  | .offer, s, t => ∃ notification, s.receiver = .received notification ∧
      ((s.loop = .stopped ∧ t = { s with receiver := .waiting }) ∨
      (s.loop ≠ .stopped ∧ s.channel.length < capacity ∧
        t = { s with receiver := .waiting, channel := s.channel ++ [notification] }) ∨
      (s.loop ≠ .stopped ∧ capacity ≤ s.channel.length ∧
        t = { s with receiver := .refusing notification }))
  -- The thread does not look at the result.
  | .refuse r, s, t => ∃ notification kernel, s.receiver = .refusing notification ∧
      s.kernel.Sends notification.id r kernel ∧
      t = { s with
        receiver := .waiting
        kernel := kernel
        answered := s.record notification.id (.channelFull Errno.eagain) r
        lost := if answers r then s.lost else notification.id :: s.lost }
  | .take, s, t => ∃ notification rest, s.loop = .selecting ∧ s.channel = notification :: rest ∧
      t = { s with loop := .taken notification, channel := rest }
  | .spawn memory, s, t => ∃ notification, s.loop = .taken notification ∧
      s.requests.length < capacity ∧
      t = { s with
        loop := .selecting
        requests := s.requests ++ [⟨notification, some (context.task memory notification)⟩] }
  | .saturate, s, t => ∃ notification r kernel, s.loop = .taken notification ∧
      capacity ≤ s.requests.length ∧ s.kernel.Sends notification.id r kernel ∧
      t = { s with
        loop := if answers r then .selecting else .stopped
        kernel := kernel
        answered := s.record notification.id (.tasksFull Errno.eagain) r }
  | .operate, s, t => ∃ before task after op next r kernel answered,
      s.requests = before ++ task :: after ∧ task.program = some (.perform op next) ∧
      s.Operates task.notification.id op r kernel answered ∧
      t = { s with
        kernel := kernel
        answered := answered
        requests := before ++ { task with program := some (next r) } :: after }
  | .panic, s, t => ∃ before task after op next, s.requests = before ++ task :: after ∧
      task.program = some (.perform op next) ∧
      t = { s with requests := before ++ { task with program := none } :: after }
  | .join, s, t => ∃ before task after, s.loop = .selecting ∧
      s.requests = before ++ task :: after ∧
      ((task.program = some (.done (.ok ())) ∧ t = { s with requests := before ++ after }) ∨
      ((task.program = none ∨ ∃ error, task.program = some (.done (.error error))) ∧
        t = { s with loop := .stopped, requests := before ++ after }))
  | .stop, s, t => t = { s with loop := .stopped }

def Initial (s : NotifySystem) : Prop :=
  (∀ id, s.kernel id = none) ∧ s.received = [] ∧ s.receiver = .waiting ∧ s.channel = [] ∧
    s.loop = .selecting ∧ s.requests = [] ∧ s.answered = [] ∧ s.lost = []

end NotifySystem

def notifySystem (context : RequestContext) : Transition NotifySystem NotifyEvent where
  start := NotifySystem.Initial
  step := NotifySystem.Step context

end Scproxy
