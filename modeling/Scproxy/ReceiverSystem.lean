import Scproxy.Fairness
import Scproxy.Memory

namespace Scproxy

/-- Where a thread is with a call that may block. A signal interrupts the call only once the
thread is inside. -/
inductive BlockingCall
  | outside
  | inside
  | interrupted
  deriving DecidableEq

structure EpollEvent where
  events : UInt32
  tag : UInt64

def epollIn : UInt32 := 1

def epollErr : UInt32 := 8

def epollHup : UInt32 := 16

/-- Where the thread of `Receiver::start` is in its loop. -/
inductive ReceiverPoint
  | test
  | polling (call : BlockingCall)
  | polled (events : List EpollEvent)
  | receiving (call : BlockingCall)
  | sending (item : Except IoError Notification)
  | refusing (notification : Notification)
  | pausing
  | finished

namespace ReceiverPoint

/-- Behind `epoll_wait`. -/
def afterPoll : Except IoError (List EpollEvent) → ReceiverPoint
  | .ok events => .polled events
  | .error error => if error.isInterrupted then .test else .sending (.error error)

/-- Behind the second test of the flag. -/
def afterPolled (stop : Bool) (events : List EpollEvent) : ReceiverPoint :=
  if stop then .finished
  else
    match events.find? (·.tag == 1) with
    | none => .test
    | some event =>
      if event.events &&& epollIn ≠ 0 then .receiving .outside
      else if event.events &&& (epollHup ||| epollErr) ≠ 0 then .finished
      else .test

/-- Behind `seccomp::receive`. -/
def afterReceive : Except IoError Notification → ReceiverPoint
  | .ok notification => .sending (.ok notification)
  | .error error =>
    match error.rawOsError with
    | some errno =>
      if errno = Errno.eintr ∨ errno = Errno.enoent ∨ errno = Errno.eagain then .test
      else if errno = Errno.enomem ∨ errno = Errno.enobufs then .pausing
      else .sending (.error error)
    | none => .sending (.error error)

/-- The notification in the hands of the thread. -/
def held : ReceiverPoint → List Notification
  | .sending (.ok notification) => [notification]
  | .refusing notification => [notification]
  | _ => []

/-- `JoinHandle::is_finished`. -/
def isFinished : ReceiverPoint → Bool
  | .finished => true
  | _ => false

/-- The call the thread is inside of goes on until something interrupts it. -/
def interrupt : ReceiverPoint → ReceiverPoint
  | .polling .inside => .polling .interrupted
  | .receiving .inside => .receiving .interrupted
  | point => point

/-- The thread may still call `seccomp::receive` before it tests the flag. -/
def isReceiving : ReceiverPoint → Bool
  | .receiving _ => true
  | _ => false

end ReceiverPoint

/-- The destructor of `Receiver`. -/
inductive ReceiverOwner
  | owning
  | storing
  | waking
  | checking
  | signalling
  | joining
  | restoring
  | gone
  deriving DecidableEq

/-- The thread, its owner and the channel to the broker, with what became of every
notification. -/
structure Receiving where
  thread : ReceiverPoint
  owner : ReceiverOwner
  stop : Bool
  wake : Bool
  handled : Bool
  closed : Bool
  channel : List (Except IoError Notification)
  delivered : List (Except IoError Notification)
  taken : List Notification
  refused : List Notification
  lost : List Notification

inductive ReceivingEvent
  | work
  | answer
  | woken
  | take
  | close
  | begin
  | drop
  deriving DecidableEq

namespace Receiving

/-- The bound of the channel. -/
def capacity : Nat := 256

/-- `seccomp::receive` has answered. -/
def received (s : Receiving) (result : Except IoError Notification) : Receiving :=
  { s with thread := .afterReceive result, taken := s.taken ++ result.toOption.toList }

/-- `try_send` and what the thread makes of it. The error of a call ends the thread in any case. -/
def send (s : Receiving) (item : Except IoError Notification) : Receiving :=
  if s.closed then
    match item with
    | .ok notification => { s with thread := .finished, lost := s.lost ++ [notification] }
    | .error _ => { s with thread := .finished }
  else if s.channel.length < capacity then
    match item with
    | .ok _ => { s with thread := .test, channel := s.channel ++ [item] }
    | .error _ => { s with thread := .finished, channel := s.channel ++ [item] }
  else
    match item with
    | .ok notification => { s with thread := .refusing notification }
    | .error _ => { s with thread := .finished }

/-- What the thread does by itself. -/
def Work (s t : Receiving) : Prop :=
  match s.thread with
  | .test => t = { s with thread := if s.stop then .finished else .polling .outside }
  | .polling .outside => t = { s with thread := .polling .inside }
  | .polling .inside => False
  | .polling .interrupted => ∃ result, t = { s with thread := .afterPoll result }
  | .polled events => t = { s with thread := .afterPolled s.stop events }
  | .receiving .outside => t = { s with thread := .receiving .inside }
  | .receiving .inside => False
  | .receiving .interrupted => ∃ result, t = s.received result
  | .sending item => t = s.send item
  | .refusing notification =>
    t = { s with thread := .test, refused := s.refused ++ [notification] }
  | .pausing => t = { s with thread := .test }
  | .finished => False

/-- The destructor, one step at a time. -/
def Drop (s t : Receiving) : Prop :=
  match s.owner with
  | .owning => False
  | .storing => t = { s with owner := .waking, stop := true }
  | .waking => t = { s with owner := .checking, wake := true }
  | .checking =>
    t = { s with owner := if s.thread.isFinished then .joining else .signalling }
  | .signalling => t = { s with owner := .checking, thread := s.thread.interrupt }
  | .joining => t = { s with owner := .restoring }
  | .restoring => t = { s with owner := .gone, handled := false }
  | .gone => False

/-- `answer` ends a call the thread is inside of, with any result and perhaps never. `woken` is
the event of the eventfd, which nobody reads, so `epoll_wait` reports it again and again. -/
def Step : ReceivingEvent → Receiving → Receiving → Prop
  | .work, s, t => s.Work t
  | .answer, s, t =>
    (s.thread = .polling .inside ∧ ∃ result, t = { s with thread := .afterPoll result }) ∨
    (s.thread = .receiving .inside ∧ ∃ result, t = s.received result)
  | .woken, s, t => s.thread = .polling .inside ∧ s.wake = true ∧
      ∃ events, (∃ event ∈ events, event.tag = 2) ∧
        t = { s with thread := .afterPoll (.ok events) }
  | .take, s, t => ∃ item rest, s.closed = false ∧ s.channel = item :: rest ∧
      t = { s with channel := rest, delivered := s.delivered ++ [item] }
  | .close, s, t => t = { s with closed := true }
  | .begin, s, t => s.owner = .owning ∧ t = { s with owner := .storing }
  | .drop, s, t => s.Drop t

def Initial (s : Receiving) : Prop :=
  s = ⟨.test, .owning, false, false, true, false, [], [], [], [], []⟩

end Receiving

def receiving : Transition Receiving ReceivingEvent where
  start := Receiving.Initial
  step := Receiving.Step

end Scproxy
