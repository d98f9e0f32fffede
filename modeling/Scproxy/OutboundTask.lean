import Scproxy.Exchange
import Scproxy.TcpProgram

namespace Scproxy

/-- How a relay task reaches its destination. -/
inductive Connector
  | direct (host : String) (port : UInt16)
  | proxy (route : ProxyConfig) (target : ProxyTarget)
  deriving DecidableEq

/-- The choice that the spawned task makes. -/
def Connector.choose : ProxyConfig → ProxyTarget → Connector
  | .direct, .domain host port => .direct host port
  | route, target => .proxy route target

/-- The end of a wait under a timeout. The task that waits may be cancelled. -/
inductive Waited (ε α : Type)
  | cancelled
  | elapsed
  | ended (result : Except ε α)

/-- The operations of `connect_tcp` with the drops of what it owns, and those of the
task that it spawns. -/
inductive OwnerOperation
  | tcp (op : TcpOperation)
  | dropRegistration
  | dropPermit
  | accept
  | upstream (connector : Connector)
  | serveDns
  | relay

abbrev OwnerOperation.Ret : OwnerOperation → Type
  | tcp op => op.Ret
  | dropRegistration | dropPermit => Unit
  | accept => Waited IoError Unit
  | upstream _ => Waited AnyError Unit
  | serveDns | relay => Option (Except IoError Unit)

abbrev OwnerProgram := Interaction OwnerOperation OwnerOperation.Ret

namespace OwnedCall

abbrev Program := OwnerProgram (Except IoError Reply)

def stop : Program := .perform (.tcp .stop) nofun

def release (lock : Nat) (result : Except IoError Reply) : Program :=
  .perform (.tcp (.unlock lock)) fun _ => .done result

def releaseStopped (lock : Nat) : Program := .perform (.tcp (.unlock lock)) fun _ => stop

def dropPermit (next : Program) : Program := .perform .dropPermit fun _ => next

/-- The pending peer is not committed. -/
def rollback (locked : Locked) (next : Program) : Program :=
  .perform (.tcp (.removePeer locked.cookie)) fun _ => dropPermit next

def rollbackRegistered (locked : Locked) (next : Program) : Program :=
  .perform .dropRegistration fun _ => rollback locked next

def runConnect (address : SocketAddrV4) (next : Option (Except IoError Unit) → Program) :
    Program :=
  .perform (.tcp .valid) fun
    | .error error => next (some (.error error))
    | .ok () => .perform (.tcp (.connect address)) next

/-- The registration and the permit move into the task. -/
def launch (locked : Locked) (port : UInt16) (service : Service) (result : Except IoError Unit) :
    Program :=
  .perform (.tcp (.settlePeer locked.cookie)) fun _ =>
  .perform (.tcp (.spawn ⟨locked.cookie, port, service⟩)) fun _ =>
  release locked.lock (result.map fun _ => .value 0)

def redirect (relay : SocketAddrV4) (locked : Locked) (service : Service) : Program :=
  .perform (.tcp (.insertPeer locked.cookie locked.target relay)) fun _ =>
  .perform (.tcp .register) fun
    | .error error => rollback locked (release locked.lock (.error error))
    | .ok port => runConnect relay fun
      | none => rollbackRegistered locked (releaseStopped locked.lock)
      | some result =>
        if TcpProgram.failed result then
          rollbackRegistered locked (release locked.lock (result.map fun _ => .value 0))
        else launch locked port service result

/-- The part of `connect_tcp` that begins with the permit. Locals are dropped in the
reverse order of their declaration: the registration, the pending peer, the permit
and the guard of the lock. -/
def acquire (relay : SocketAddrV4) (locked : Locked) (service : Service) : Program :=
  .perform (.tcp .acquire) fun
    | false => release locked.lock (.error (.os Errno.eagain))
    | true => .perform (.tcp .valid) fun
      | .error error => dropPermit (release locked.lock (.error error))
      | .ok () => redirect relay locked service

/-- The drops of the registration and of the permit are left out. -/
def erase : (op : OwnerOperation) → Interaction TcpOperation TcpOperation.Ret op.Ret
  | .tcp op => .perform op .done
  | .dropRegistration | .dropPermit => .done ()
  | .accept | .upstream _ => .done .cancelled
  | .serveDns | .relay => .done none

theorem handle_releaseStopped (lock : Nat) :
    (releaseStopped lock).handle erase = TcpProgram.releaseStopped lock := by
  refine congrArg (Interaction.perform _) (funext fun _ => ?_)
  exact congrArg (Interaction.perform _) (funext nofun)

theorem handle_runConnect (address : SocketAddrV4)
    (next : Option (Except IoError Unit) → Program) :
    (runConnect address next).handle erase =
      TcpProgram.runConnect address fun result => (next result).handle erase := by
  refine congrArg (Interaction.perform _) (funext fun r => ?_)
  cases r with
  | error error => rfl
  | ok _ => rfl

theorem handle_redirect (relay : SocketAddrV4) (locked : Locked) (service : Service) :
    (redirect relay locked service).handle erase =
      TcpProgram.redirect relay locked service := by
  refine congrArg (Interaction.perform _) (funext fun _ => ?_)
  refine congrArg (Interaction.perform _) (funext fun r => ?_)
  cases r with
  | error error => rfl
  | ok port =>
    dsimp only [Interaction.bind]
    rw [handle_runConnect]
    refine congrArg (TcpProgram.runConnect relay) (funext fun result => ?_)
    cases result with
    | none => exact congrArg (Interaction.perform _) (funext fun _ => handle_releaseStopped _)
    | some result =>
      dsimp only
      split
      next => rfl
      next => rfl

/-- With the drops left out it is the program of `connect_tcp`. -/
theorem handle_acquire (relay : SocketAddrV4) (locked : Locked) (service : Service) :
    (acquire relay locked service).handle erase = TcpProgram.acquire relay locked service := by
  refine congrArg (Interaction.perform _) (funext fun r => ?_)
  cases r with
  | false => rfl
  | true =>
    refine congrArg (Interaction.perform _) (funext fun valid => ?_)
    cases valid with
    | error error => rfl
    | ok _ => exact handle_redirect relay locked service

end OwnedCall

/-- The task that `connect_tcp` spawns. `Registration::accept` drops the registration at
its end, a cancelled wait drops it before the permit. -/
def Service.task : Service → OwnerProgram Unit
  | .dns =>
    .perform .accept fun accepted =>
    .perform .dropRegistration fun _ =>
    .perform .dropPermit fun _ =>
      match accepted with
      | .ended (.ok ()) => .perform .serveDns fun _ => .done ()
      | _ => .done ()
  | .outbound target route =>
    .perform .accept fun accepted =>
    .perform .dropRegistration fun _ =>
      match accepted with
      | .ended (.ok ()) =>
        .perform (.upstream (.choose route target)) fun connected =>
        .perform .dropPermit fun _ =>
          match connected with
          | .ended (.ok ()) => .perform .relay fun _ => .done ()
          | _ => .done ()
      | _ => .perform .dropPermit fun _ => .done ()

end Scproxy
