import Scproxy.DnsServers
import Scproxy.Interaction

namespace Scproxy

/-- What a write into the application's memory is for. -/
inductive Field
  | payload
  | source (capacity : UInt32)
  | peer
  | nameLength
  | control
  | controlLength
  | flags
  | messageLength
  | timeout

/-- What the kernel returns from `recvmsg`. -/
structure Received where
  length : Nat
  payload : List UInt8
  source : SocketAddrV4
  control : List UInt8
  flags : UInt32

/-- What the task of one notification asks of the kernel and of the shared
state. Between two operations every other task may run. -/
inductive Operation
  | valid
  | get
  | domain
  | protocol
  | openFile
  | checkUnixConnect
  | tcp
  | asyncFd
  | timeout (receive : Bool)
  | now
  | nonblocking
  | ready (receive : Bool)
  | serverFor (destination : SocketAddrV4)
  | originalServer (localAddr : SocketAddrV4)
  | connect (address : SocketAddrV4)
  | peerAddress (socketOption : Bool)
  | sendmsg (destination : SocketAddrV4) (payload control : List UInt8) (flags : UInt32)
  | recvmsg (capacity controlCapacity : Nat) (flags : UInt32)
  | write (field : Field) (tid : UInt32) (pointer : UInt64) (bytes : List UInt8)
  | pending

namespace Operation

abbrev Ret : Operation → Type
  | valid | get | checkUnixConnect | asyncFd | ready _ | connect _ | write .. =>
    Except IoError Unit
  | domain | protocol => Except IoError UInt32
  | openFile | tcp => Except IoError Reply
  | timeout _ => Except IoError (Int × Int)
  | now => Nat
  | nonblocking => Except IoError Bool
  | serverFor _ | peerAddress _ => Except IoError SocketAddrV4
  | originalServer _ => Option SocketAddrV4
  | sendmsg .. => Except IoError Nat
  | recvmsg .. => Except IoError Received
  | pending => Empty

end Operation

/-- The asynchronous functions of the broker. -/
abbrev Act := ExceptT IoError (Interaction Operation Operation.Ret)

namespace Act

def ofExcept {α : Type} (e : Except IoError α) : Act α := ExceptT.mk (.done e)

theorem ofExcept_ok_bind {α β : Type} (a : α) (f : α → Act β) :
    (ofExcept (.ok a) >>= f) = f a := rfl

def valid : Act Unit := ExceptT.mk (.perform .valid .done)

def get : Act Unit := ExceptT.mk (.perform .get .done)

def domain : Act UInt32 := ExceptT.mk (.perform .domain .done)

def protocol : Act UInt32 := ExceptT.mk (.perform .protocol .done)

def openFile : Act Reply := ExceptT.mk (.perform .openFile .done)

def checkUnixConnect : Act Unit := ExceptT.mk (.perform .checkUnixConnect .done)

def tcp : Act Reply := ExceptT.mk (.perform .tcp .done)

def asyncFd : Act Unit := ExceptT.mk (.perform .asyncFd .done)

def timeout (receive : Bool) : Act (Int × Int) := ExceptT.mk (.perform (.timeout receive) .done)

def now : Act Nat := ExceptT.mk (.perform .now fun now => .done (.ok now))

def nonblocking : Act Bool := ExceptT.mk (.perform .nonblocking .done)

def ready (receive : Bool) : Act Unit := ExceptT.mk (.perform (.ready receive) .done)

def serverFor (destination : SocketAddrV4) : Act SocketAddrV4 :=
  ExceptT.mk (.perform (.serverFor destination) .done)

def originalServer (localAddr : SocketAddrV4) : Act (Option SocketAddrV4) :=
  ExceptT.mk (.perform (.originalServer localAddr) fun original => .done (.ok original))

def connect (address : SocketAddrV4) : Act Unit := ExceptT.mk (.perform (.connect address) .done)

def peerAddress (socketOption : Bool) : Act SocketAddrV4 :=
  ExceptT.mk (.perform (.peerAddress socketOption) .done)

def sendmsg (destination : SocketAddrV4) (payload control : List UInt8) (flags : UInt32) :
    Act Nat :=
  ExceptT.mk (.perform (.sendmsg destination payload control flags) .done)

def recvmsg (capacity controlCapacity : Nat) (flags : UInt32) : Act Received :=
  ExceptT.mk (.perform (.recvmsg capacity controlCapacity flags) .done)

/-- `access::write_exact`. -/
def write (field : Field) (tid : UInt32) (pointer : UInt64) (bytes : List UInt8) : Act Unit :=
  ExceptT.mk (.perform (.write field tid pointer bytes) .done)

/-- A task that waits for good. -/
def pending {α : Type} : Act α := ExceptT.mk (.perform .pending nofun)

end Act

end Scproxy
