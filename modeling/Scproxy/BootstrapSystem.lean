import Scproxy.Bootstrap
import Scproxy.Parties
import Scproxy.Transition

namespace Scproxy

inductive BootRole
  | supervisor
  | reaper
  | command
  deriving DecidableEq

/-- How far a process is: before its fork, before the metadata, with the metadata sent or
received, with the broker started, and after the ready byte. -/
inductive BootPhase
  | unforked
  | early
  | told (metadata : Metadata)
  | running (metadata : Metadata)
  | ready (metadata : Metadata)
  deriving DecidableEq

namespace BootPhase

def start : BootPhase → BootPhase
  | told metadata => running metadata
  | phase => phase

def finish : BootPhase → BootPhase
  | told metadata => ready metadata
  | running metadata => ready metadata
  | phase => phase

end BootPhase

/-- What a process has done to the descriptors and the memory of another one, or with a
descriptor that it took from it. -/
inductive BootUse
  | got (tid fd : UInt32) (descriptor : Nat)
  | tcp (descriptor : Nat)
  | addfd (listener probe : Nat)
  | memoryRead (tid : UInt32) (address : UInt64) (byte : UInt8)
  | memoryWritten (tid : UInt32) (address : UInt64) (byte : UInt8)
  | receiver (listener : Nat)
  | broker (listener : Nat)
  deriving DecidableEq

def BootUse.of : (op : BootOperation) → op.Ret → Option BootUse
  | .get tid fd, .ok descriptor => some (.got tid fd descriptor)
  | .isTcpV4 fd, .ok true => some (.tcp fd)
  | .step (.probeAddfd listener probe), .ok _ => some (.addfd listener probe)
  | .readMemory tid address, .ok byte => some (.memoryRead tid address byte)
  | .step (.writeMemory tid address byte), .ok _ => some (.memoryWritten tid address byte)
  | .step (.receiver listener), .ok _ => some (.receiver listener)
  | .startBroker listener, .ok _ => some (.broker listener)
  | _, _ => none

/-- A process with the ends of the control socket pair that it has open, and what it has
used, in this order. -/
structure BootOwn where
  role : BootRole
  parent : Bool
  child : Bool
  phase : BootPhase
  uses : List BootUse

/-- What is in the control sockets, and what has happened: the metadata was sent and taken,
what was used of the command, the ready byte was sent and read. -/
structure BootShared where
  toParent : List UInt8
  toChild : List UInt8
  sent : Option Metadata
  taken : Bool
  uses : List BootUse
  acked : Bool
  heard : Bool

abbrev BootSystem := Parties BootOperation BootOperation.Ret BootOwn BootShared

abbrev BootParty := Party BootOperation BootOperation.Ret BootOwn

abbrev BootEffect := PartyEffect BootOperation BootOperation.Ret BootOwn BootShared

inductive BootEvent
  | operate
  | exit
  | die

def ControlEnd.other : ControlEnd → ControlEnd
  | parent => child
  | child => parent

namespace BootOwn

def holds (w : BootOwn) : ControlEnd → Bool
  | .parent => w.parent
  | .child => w.child

def advance (w : BootOwn) : (op : BootOperation) → op.Ret → BootOwn
  | .forkReaper, .ok _ | .forkCommand, .ok _ => { w with phase := .early }
  | .close .parent, _ => { w with parent := false }
  | .close .child, _ => { w with child := false }
  | .readExact .parent _, .ok bytes => { w with phase := .told (.decode bytes) }
  | .readExact .child _, .ok bytes =>
    if bytes = [1] then { w with phase := w.phase.finish } else w
  | .writeAll .child bytes, .ok _ => { w with phase := .told (.decode bytes) }
  | .writeAll .parent _, .ok _ => { w with phase := w.phase.finish }
  | .startBroker _, .ok _ => { w with phase := w.phase.start }
  | _, _ => w

def after (w : BootOwn) (op : BootOperation) (r : op.Ret) : BootOwn :=
  { w.advance op r with uses := (BootUse.of op r).elim w.uses fun use => w.uses ++ [use] }

end BootOwn

namespace BootShared

/-- What can be read at an end. -/
def queue (s : BootShared) : ControlEnd → List UInt8
  | .parent => s.toParent
  | .child => s.toChild

def exchange (s : BootShared) : (op : BootOperation) → op.Ret → BootShared
  | .readExact .parent n, .ok _ => { s with toParent := s.toParent.drop n, taken := true }
  | .readExact .parent _, .error _ => { s with toParent := [] }
  | .readExact .child n, .ok _ => { s with toChild := s.toChild.drop n, heard := true }
  | .readExact .child _, .error _ => { s with toChild := [] }
  | .writeAll .child bytes, .ok _ =>
    { s with toParent := s.toParent ++ bytes, sent := some (.decode bytes) }
  | .writeAll .parent bytes, .ok _ => { s with toChild := s.toChild ++ bytes, acked := true }
  | _, _ => s

def after (s : BootShared) (op : BootOperation) (r : op.Ret) : BootShared :=
  { s.exchange op r with uses := (BootUse.of op r).elim s.uses fun use => s.uses ++ [use] }

/-- The answers that an operation can have now. A read waits for its bytes until no process
has the other end open; a wait lasts as long as the process does. -/
def Allows (s : BootShared) (owns : List BootOwn) : (op : BootOperation) → op.Ret → Prop
  | .readExact e n, .ok bytes => n ≤ (s.queue e).length ∧ bytes = (s.queue e).take n
  | .readExact e n, .error error => (s.queue e).length < n ∧
      (∀ v ∈ owns, v.holds e.other = false) ∧ error = .simple .unexpectedEof
  | .writeAll e _, .ok _ => ∃ v ∈ owns, v.holds e.other = true
  | .writeAll e _, .error _ => ∀ v ∈ owns, v.holds e.other = false
  | .waitTree, _ => ∀ v ∈ owns, v.role ≠ .command
  | .waitChild, _ => ∀ v ∈ owns, v.role ≠ .reaper
  | _, _ => True

/-- A forked process has the ends of its parent. -/
def started (command : List String) (w : BootOwn) : (op : BootOperation) → op.Ret → List BootParty
  | .forkReaper, .ok _ => [⟨{ w with role := .reaper, phase := .unforked }, runReaper⟩]
  | .forkCommand, .ok _ => [⟨{ w with role := .command, phase := .early }, runCommand command⟩]
  | _, _ => []

def Operates (command : List String) (s : BootShared) (owns : List BootOwn) (w : BootOwn)
    (op : BootOperation) (r : op.Ret) (effect : BootEffect) : Prop :=
  s.Allows owns op r ∧ effect = ⟨s.after op r, w.after op r, started command w op r⟩

def Execs (op : BootOperation) : Prop := ∃ command, op = .exec command

/-- A process may be killed at any time. Its ends are then closed, as they are when it exits
or executes the command. -/
def Step (command : List String) : BootEvent → BootSystem → BootSystem → Prop
  | .operate, s, t => s.Operate (Operates command) t
  | .exit, s, t => s.Leave Execs t
  | .die, s, t => ∃ before party after, s.parties = before ++ party :: after ∧
      t = { s with parties := before ++ after }

def Initial (s : BootSystem) : Prop :=
  s = ⟨⟨[], [], none, false, [], false, false⟩,
    [⟨⟨.supervisor, true, true, .unforked, []⟩, runSupervisor⟩]⟩

end BootShared

def bootSystem (command : List String) : Transition BootSystem BootEvent where
  start := BootShared.Initial
  step := BootShared.Step command

end Scproxy
