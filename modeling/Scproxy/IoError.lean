import Scproxy.Hoare
import Scproxy.Slice

namespace Scproxy

inductive ErrorKind
  | wouldBlock
  | writeZero
  | timedOut
  | unexpectedEof
  | invalidData
  | interrupted
  | other
  deriving DecidableEq

/-- `std::io::Error`, from an error number or from a kind alone. -/
inductive IoError
  | os (errno : Nat)
  | simple (kind : ErrorKind)
  deriving DecidableEq

namespace Errno

def enoent : Nat := 2

def esrch : Nat := 3

def eintr : Nat := 4

def eio : Nat := 5

def e2big : Nat := 7

def eagain : Nat := 11

def enomem : Nat := 12

def eacces : Nat := 13

def efault : Nat := 14

def eexist : Nat := 17

def enotdir : Nat := 20

def einval : Nat := 22

def enametoolong : Nat := 36

def eloop : Nat := 40

def edestaddrreq : Nat := 89

def emsgsize : Nat := 90

def eprotonosupport : Nat := 93

def eopnotsupp : Nat := 95

def eafnosupport : Nat := 97

def eaddrinuse : Nat := 98

def eaddrnotavail : Nat := 99

def enetunreach : Nat := 101

def enobufs : Nat := 105

def enotconn : Nat := 107

def etimedout : Nat := 110

def econnrefused : Nat := 111

def ehostunreach : Nat := 113

def einprogress : Nat := 115

end Errno

def IoError.rawOsError : IoError → Option Nat
  | .os errno => some errno
  | .simple _ => none

def IoError.isWouldBlock : IoError → Bool
  | .os errno => errno == Errno.eagain
  | .simple kind => kind == .wouldBlock

def IoError.isInterrupted : IoError → Bool
  | .os errno => errno == Errno.eintr
  | .simple _ => false

/-- How a task ends other than by returning a value. -/
inductive Fault
  | io (error : IoError)
  | panic (reason : Panic)
  deriving DecidableEq

namespace Prog

variable {σ α : Type}

/-- The `?` operator on an I/O result. -/
def lift : Except IoError α → Prog σ Fault α
  | .ok a => pure a
  | .error error => .fail (.io error)

def unwrap : Except Panic α → Prog σ Fault α
  | .ok a => pure a
  | .error reason => .fail (.panic reason)

end Prog

end Scproxy
