import Mathlib.Data.List.Basic
import Scproxy.IoError

namespace Scproxy.Relay

def buffer : Nat := 65536

inductive Side
  | application
  | host
  deriving DecidableEq

def Side.other : Side → Side
  | .application => .host
  | .host => .application

/-- What a stream has for a read: bytes, the end, or an error such as WouldBlock. -/
inductive ReadOutcome
  | ready (first : UInt8) (rest : List UInt8)
  | eof
  | failed (error : IoError)
  deriving DecidableEq

/-- The bytes copied into a buffer with room for `space`. -/
def ReadOutcome.copied (space : Nat) : ReadOutcome → Except IoError (List UInt8)
  | .ready first rest => .ok ((first :: rest).take space)
  | .eof => .ok []
  | .failed error => .error error

inductive WriteOutcome
  | accepted (count : Nat)
  | failed (error : IoError)

def WriteOutcome.count (pending : List UInt8) : WriteOutcome → Except IoError Nat
  | .accepted count => .ok (min count pending.length)
  | .failed error => .error error

inductive Event
  | read (source : Side) (space : Nat) (outcome : ReadOutcome)
  | wrote (target : Side) (bytes : List UInt8)
  | receiveQueue (length : Nat)
  | sendQueue (length : Nat)
  deriving DecidableEq

/-- The variables of the loop, the bytes still buffered in the proxy stream,
and a record of the I/O done so far. -/
structure State where
  prefetched : List UInt8
  toApplication : List UInt8
  toHost : List UInt8
  closeAfterDrain : Bool
  trace : List Event

def State.start (prefetched : List UInt8) : State := ⟨prefetched, [], [], false, []⟩

/-- The bytes waiting to be written to a side. -/
def State.pending (s : State) : Side → List UInt8
  | .application => s.toApplication
  | .host => s.toHost

def State.setPending (s : State) (bytes : List UInt8) : Side → State
  | .application => { s with toApplication := bytes }
  | .host => { s with toHost := bytes }

def State.record (s : State) (event : Event) : State := { s with trace := s.trace ++ [event] }

abbrev Action := Prog State Fault

/-- What a read finds: `ProxyStream::try_read` empties its own buffer first. -/
def State.available (s : State) (outcome : ReadOutcome) : Side → ReadOutcome
  | .application => outcome
  | .host =>
    match s.prefetched with
    | [] => outcome
    | first :: rest => .ready first rest

def State.consume (s : State) (count : Nat) : Side → State
  | .application => s
  | .host => { s with prefetched := s.prefetched.drop count }

def tryRead (source : Side) (space : Nat) (outcome : ReadOutcome) :
    Action (Except IoError (List UInt8)) := do
  let s ← .get
  let found := s.available outcome source
  let result := found.copied space
  Prog.modify fun s =>
    (s.consume (result.toOption.getD []).length source).record (.read source space found)
  pure result

/-- A read from `source` into the bytes for the other side, if `enabled` and there is room. -/
def readBlock (source : Side) (enabled : Bool) (outcome : ReadOutcome) : Action Bool := do
  let s ← .get
  let pending := s.pending source.other
  if enabled && pending.length < buffer then do
    match ← tryRead source (buffer - pending.length) outcome with
    | .ok [] => do
      Prog.modify fun s => { s with closeAfterDrain := true }
      pure true
    | .ok bytes => do
      Prog.modify fun s => s.setPending (pending ++ bytes) source.other
      pure true
    | .error error => if error.isWouldBlock then pure false else .fail (.io error)
  else pure false

def flush (target : Side) (outcome : WriteOutcome) : Action Bool := do
  let s ← .get
  let pending := s.pending target
  if pending.isEmpty then pure false
  else
    match outcome.count pending with
    | .ok 0 => .fail (.io (.simple .writeZero))
    | .ok count => do
      Prog.modify fun s =>
        (s.setPending (pending.drop count) target).record (.wrote target (pending.take count))
      pure true
    | .error error => if error.isWouldBlock then pure false else .fail (.io error)

/-- `sockets::queue_len` of the application stream. -/
def queueLen (event : Nat → Event) (reading : Except IoError Nat) : Action Nat := do
  let length ← Prog.lift reading
  Prog.modify fun s => s.record (event length)
  pure length

/-- What the operating system answers during one turn of the loop. -/
structure Round where
  hostRead : ReadOutcome
  applicationWrite : WriteOutcome
  queued : Except IoError Nat
  applicationRead : ReadOutcome
  hostWrite : WriteOutcome
  takeError : Except IoError (Option IoError)
  sendQueue : Except IoError Nat
  receiveQueue : Except IoError Nat
  fired : Nat
  readiness : Except IoError Unit

inductive Branch
  | hostReadable
  | applicationReadable
  | hostWritable
  | applicationWritable
  | sleep
  deriving DecidableEq

def State.guard (s : State) (queued : Nat) : Branch → Bool
  | .hostReadable => !s.closeAfterDrain && s.toApplication.length < buffer
  | .applicationReadable => (!s.closeAfterDrain || 0 < queued) && s.toHost.length < buffer
  | .hostWritable => !s.toHost.isEmpty
  | .applicationWritable => !s.toApplication.isEmpty
  | .sleep => s.closeAfterDrain

def State.branches (s : State) (queued : Nat) : List Branch :=
  [Branch.hostReadable, .applicationReadable, .hostWritable, .applicationWritable, .sleep].filter
    (s.guard queued)

/-- `tokio::select!`, which panics when no branch is enabled. -/
def select (queued : Nat) (round : Round) : Action Unit := do
  let s ← .get
  let enabled := s.branches queued
  match enabled[round.fired % enabled.length]? with
  | none => .fail (.panic .allBranchesDisabled)
  | some .sleep => pure ()
  | some _ => Prog.lift round.readiness

def observeReset (round : Round) : Action Unit := do
  let s ← .get
  if s.closeAfterDrain then do
    match ← Prog.lift round.takeError with
    | some error => .fail (.io error)
    | none => pure ()
  else pure ()

def drained (round : Round) : Action Bool := do
  let s ← .get
  if s.closeAfterDrain && s.toApplication.isEmpty && s.toHost.isEmpty then do
    let unsent ← queueLen .sendQueue round.sendQueue
    if unsent = 0 then do
      let unread ← queueLen .receiveQueue round.receiveQueue
      pure (unread == 0)
    else pure false
  else pure false

/-- One turn of the loop; `true` is the return of `Ok`. -/
def turn (round : Round) : Action Bool := do
  let s ← .get
  let hostProgress ← readBlock .host (!s.closeAfterDrain) round.hostRead
  let applicationFlushed ← flush .application round.applicationWrite
  let queued ← queueLen .receiveQueue round.queued
  let s ← .get
  let applicationProgress ←
    readBlock .application (!s.closeAfterDrain || 0 < queued) round.applicationRead
  let hostFlushed ← flush .host round.hostWrite
  observeReset round
  let finished ← drained round
  if finished then pure true
  else if hostProgress || applicationFlushed || applicationProgress || hostFlushed then pure false
  else do
    select queued round
    pure false

def loop : List Round → Action Bool
  | [] => pure false
  | round :: rounds => do
    let finished ← turn round
    if finished then pure true else loop rounds

/-- `relay::run`, as far as the given rounds take it. -/
def run (applicationNodelay hostNodelay : Except IoError Unit) (rounds : List Round) :
    Action Bool := do
  Prog.lift applicationNodelay
  Prog.lift hostNodelay
  loop rounds

end Scproxy.Relay
