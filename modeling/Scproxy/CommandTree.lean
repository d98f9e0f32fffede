import Mathlib.Data.FinEnum
import Scproxy.InteractionRuns
import Scproxy.StackSearch
import Scproxy.StdParse
import Scproxy.Supervise

namespace Scproxy

namespace Errno

def echild : Nat := 10

end Errno

def IoError.isNotFound : IoError → Bool
  | .os errno => errno == Errno.enoent
  | .simple _ => false

abbrev Pid := Int32

instance : Finite Pid := Finite.of_injective Int32.toBitVec fun _ _ => Int32.toBitVec_inj.mp

/-- What `sigtimedwait` takes from the blocked signals. A termination signal
comes with the reading of the clock that follows it. -/
inductive Awaited
  | sigChld
  | termination (signal : Signal) (time : Nat)

/-- The signals that the reaper sends. -/
inductive Sending
  | sigKill
  | termination (signal : Signal)
  deriving DecidableEq

def Sending.name : Sending → String
  | .sigKill => "SIGKILL"
  | .termination .sigHup => "SIGHUP"
  | .termination .sigInt => "SIGINT"
  | .termination .sigTerm => "SIGTERM"

/-- A successful `waitpid` with `WNOHANG`; a child that is stopped, continued or
traced is `other`. -/
inductive WaitResult
  | reaped (pid : Pid) (status : WaitStatus)
  | stillAlive
  | other

inductive TreeCause
  | io (error : IoError)
  | errno (errno : Nat)
  | parse (message : String)

/-- An error with the context that was attached to it. -/
structure TreeError where
  context : Option String
  cause : Option TreeCause

/-- What the reaper asks of the kernel. Times are nanoseconds. -/
inductive TreeOperation
  | readDir (pid : Pid)
  | readChildren (pid : Pid) (task : String)
  | kill (pid : Pid) (signal : Sending)
  | waitpid
  | now
  | sigtimedwait (timeout : Option Nat)
  | pending

abbrev TreeOperation.Ret : TreeOperation → Type
  | readDir _ => Except IoError (List (Except IoError String))
  | readChildren .. => Except IoError String
  | kill .. => Except Nat Unit
  | waitpid => Except Nat WaitResult
  | now => Nat
  | sigtimedwait _ => Except Nat Awaited
  | pending => Empty

abbrev Tree := ExceptT TreeError (Interaction TreeOperation TreeOperation.Ret)

namespace Tree

def ofExcept {α : Type} (e : Except TreeError α) : Tree α := ExceptT.mk (.done e)

def perform (op : TreeOperation) : Tree op.Ret :=
  ExceptT.mk (.perform op fun answer => .done (.ok answer))

/-- A reaper that is still at work. -/
def pending {α : Type} : Tree α := ExceptT.mk (.perform .pending nofun)

end Tree

namespace CommandTree

def parsePid (word : String) : Except TreeError Pid :=
  match parseSigned (2 ^ 31 - 1) word with
  | .ok n => .ok (.ofInt n)
  | .error message => .error ⟨none, some (.parse message)⟩

def parsePids (text : String) : Except TreeError (List Pid) := (splitWhitespace text).mapM parsePid

/-- The children that one thread lists. -/
def readTask (pid : Pid) (task : Except IoError String) : Tree (List Pid) := do
  match task with
  | .error error => throw ⟨none, some (.io error)⟩
  | .ok task =>
    match ← Tree.perform (.readChildren pid task) with
    | .error error =>
      if error.isNotFound then pure []
      else throw ⟨some "list managed child processes", some (.io error)⟩
    | .ok children => Tree.ofExcept (parsePids children)

def readTasks (pid : Pid) : List (Except IoError String) → Tree (List Pid)
  | [] => pure []
  | task :: tasks => do
    let front ← readTask pid task
    let back ← readTasks pid tasks
    pure (front ++ back)

/-- The children of a process. Nothing is done with them before all are read, since
an error gives up the whole search. -/
def readProcess (pid : Pid) : Tree (List Pid) := do
  match ← Tree.perform (.readDir pid) with
  | .error error =>
    if error.isNotFound then pure []
    else throw ⟨some "list managed process threads", some (.io error)⟩
  | .ok tasks => readTasks pid tasks

/-- The first loop of `signal_descendants`. -/
def explore {root : Pid} (s : StackSearch root) : Tree (List Pid) :=
  match _h : s.pending with
  | [] => pure s.found
  | pid :: _ => do
    let children ← readProcess pid
    explore (children.foldl .offer s.pop)
termination_by s.weight
decreasing_by
  exact (StackSearch.weight_foldl_offer _ _).trans_lt (StackSearch.weight_pop (by simp [_h]))

def forward (pid : Pid) (signal : Sending) : Tree Unit := do
  match forwardSignal (← Tree.perform (.kill pid signal)) with
  | .ok () => pure ()
  | .error errno =>
    throw ⟨some ("send " ++ signal.name ++ " to managed process " ++ toString pid.toInt),
      some (.errno errno)⟩

def forwardAll (signal : Sending) : List Pid → Tree Unit
  | [] => pure ()
  | pid :: pids => do
    forward pid signal
    forwardAll signal pids

def signalDescendants (root : Pid) (signal : Sending) : Tree Unit := do
  let descendants ← explore (StackSearch.start root)
  forwardAll signal descendants.reverse

/-- `TERMINATION_GRACE`. -/
def grace : Nat := 2000000000

/-- How the inner loop of `wait_for_command_tree` ends: children are left, or none is. -/
inductive Collected
  | alive (code : Option Int)
  | childless (code : Option Int)

/-- The inner loop, with the most waits that it makes. -/
def collect (commandPid : Pid) : Nat → Option Int → Tree Collected
  | 0, _ => Tree.pending
  | waits + 1, code => do
    match ← Tree.perform .waitpid with
    | .ok (.reaped pid status) =>
      collect commandPid waits (if pid = commandPid then some status.code else code)
    | .ok .stillAlive => pure (.alive code)
    | .ok .other => collect commandPid waits code
    | .error errno =>
      if errno = Errno.eintr then collect commandPid waits code
      else if errno = Errno.echild then pure (.childless code)
      else throw ⟨some "waitpid command tree", some (.errno errno)⟩

/-- The signal of a round at a time, once a termination signal was received. -/
def roundSignal (signal : Signal) (deadline time : Nat) : Sending :=
  if deadline - time = 0 then .sigKill else .termination signal

/-- The descendants are signalled if the tree is being terminated. The result is the
timeout of the wait that follows. -/
def signalRound (self : Pid) : Option (Signal × Nat) → Tree (Option Nat)
  | none => pure none
  | some (signal, deadline) => do
    let time ← Tree.perform .now
    signalDescendants self (roundSignal signal deadline time)
    pure (some (if deadline - time = 0 then 100000000 else deadline - time))

/-- The first deadline is kept, the last signal is forwarded. -/
def receive (termination : Option (Signal × Nat)) : Awaited → Option (Signal × Nat)
  | .sigChld => termination
  | .termination signal time =>
    match termination with
    | some (_, deadline) => some (signal, deadline)
    | none => some (signal, time + grace)

/-- The outer loop, with the most turns that it takes. -/
def waitLoop (self commandPid : Pid) (waits : Nat) :
    Nat → Option Int → Option (Signal × Nat) → Tree Int
  | 0, _, _ => Tree.pending
  | turns + 1, code, termination => do
    match ← collect commandPid waits code with
    | .childless none => throw ⟨some "command process exited without status", none⟩
    | .childless (some code) => pure code
    | .alive code =>
      let timeout ← signalRound self termination
      match ← Tree.perform (.sigtimedwait timeout) with
      | .ok awaited => waitLoop self commandPid waits turns code (receive termination awaited)
      | .error errno =>
        if errno = Errno.eintr ∨ errno = Errno.eagain then
          waitLoop self commandPid waits turns code termination
        else throw ⟨some "wait for command-tree signal", some (.errno errno)⟩

/-- `wait_for_command_tree` in the process `self`, for as many turns and waits in each. -/
def waitForCommandTree (self commandPid : Pid) (waits turns : Nat) : Tree Int :=
  waitLoop self commandPid waits turns none none

end CommandTree

end Scproxy
