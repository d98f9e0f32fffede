import Mathlib.Algebra.GroupWithZero.Nat
import Mathlib.Data.List.FinRange
import Scproxy.Bpf

namespace Scproxy

open Bpf

namespace Seccomp

def retKillProcess : UInt32 := 0x80000000

def retErrno : UInt32 := 0x00050000

def retUserNotif : UInt32 := 0x7fc00000

def retAllow : UInt32 := 0x7fff0000

end Seccomp

namespace Libc

def enosys : UInt32 := 38

def msgOob : UInt32 := 1

def msgFastopen : UInt32 := 0x20000000

def solSocket : UInt32 := 1

def soPeername : UInt32 := 28

end Libc

/-- The supported targets. -/
inductive Arch
  | x86_64
  | aarch64
  deriving DecidableEq

/-- The system calls that exist on both targets and that the filter names. -/
inductive Syscall
  | ioUringSetup
  | ioUringEnter
  | ioUringRegister
  | getsockopt
  | sendto
  | recvfrom
  | openat
  | openat2
  | socket
  | connect
  | getpeername
  | sendmsg
  | sendmmsg
  | recvmsg
  | recvmmsg
  deriving DecidableEq

namespace Arch

def nativeArch : Arch → UInt32
  | .x86_64 => 0xc000003e
  | .aarch64 => 0xc00000b7

def number : Arch → Syscall → UInt32
  | _, .ioUringSetup => 425
  | _, .ioUringEnter => 426
  | _, .ioUringRegister => 427
  | _, .openat2 => 437
  | .x86_64, .openat => 257
  | .x86_64, .socket => 41
  | .x86_64, .connect => 42
  | .x86_64, .sendto => 44
  | .x86_64, .recvfrom => 45
  | .x86_64, .sendmsg => 46
  | .x86_64, .recvmsg => 47
  | .x86_64, .getpeername => 52
  | .x86_64, .getsockopt => 55
  | .x86_64, .recvmmsg => 299
  | .x86_64, .sendmmsg => 307
  | .aarch64, .openat => 56
  | .aarch64, .socket => 198
  | .aarch64, .connect => 203
  | .aarch64, .getpeername => 205
  | .aarch64, .sendto => 206
  | .aarch64, .recvfrom => 207
  | .aarch64, .getsockopt => 209
  | .aarch64, .sendmsg => 211
  | .aarch64, .recvmsg => 212
  | .aarch64, .recvmmsg => 243
  | .aarch64, .sendmmsg => 269

/-- `SYS_open`, which aarch64 does not have. -/
def sysOpen : Arch → List UInt32
  | .x86_64 => [2]
  | .aarch64 => []

def ioUring (arch : Arch) : List UInt32 :=
  [Syscall.ioUringSetup, .ioUringEnter, .ioUringRegister].map arch.number

def notified (arch : Arch) : List UInt32 :=
  arch.sysOpen ++ [Syscall.openat, .openat2, .socket, .connect, .getpeername, .sendmsg, .sendmmsg,
    .recvmsg, .recvmmsg].map arch.number

end Arch

/-- A call has six arguments, so that `0` to `5` name one. -/
instance Data.sixArguments : NeZero 6 := ⟨by decide⟩

/-- The call a filter decides, `struct seccomp_data`. -/
structure Data where
  nr : Int32
  arch : UInt32
  instructionPointer : UInt64
  args : Fin 6 → UInt64

namespace Data

def offsetNr : UInt32 := 0

def offsetArch : UInt32 := 4

def offsetArgs : UInt32 := 16

def low (value : UInt64) : UInt32 := value.toUInt32

def high (value : UInt64) : UInt32 := (value >>> 32).toUInt32

/-- The structure in memory, low halves first. -/
def words (data : Data) : List UInt32 :=
  [data.nr.toUInt32, data.arch, low data.instructionPointer, high data.instructionPointer] ++
    (List.finRange 6).flatMap fun i => [low (data.args i), high (data.args i)]

/-- A load must be aligned and inside the structure. -/
def word (data : Data) (offset : UInt32) : Option UInt32 :=
  if offset.toNat % 4 = 0 then data.words[offset.toNat / 4]? else none

end Data

namespace Seccomp

def header (arch : Arch) : List SockFilter :=
  [statement load Data.offsetArch,
    jump jeq arch.nativeArch 1 0,
    statement ret retKillProcess,
    statement load Data.offsetNr,
    jump jset 0x40000000 0 1,
    statement ret (retErrno ||| Libc.enosys)]

def table (numbers : List UInt32) (value : UInt32) : List SockFilter :=
  numbers.flatMap fun number => [jump jeq number 0 1, statement ret value]

/-- Only `SO_PEERNAME` needs virtualization; other socket options stay native. -/
def peerNameCheck (arch : Arch) : List SockFilter :=
  [jump jeq (arch.number .getsockopt) 0 6,
    statement load (Data.offsetArgs + 8),
    jump jeq Libc.solSocket 0 3,
    statement load (Data.offsetArgs + 16),
    jump jeq Libc.soPeername 0 1,
    statement ret retUserNotif,
    statement ret retAllow]

/-- Plain send and recv need no broker work, but addresses and special flags do. -/
def addressCheck (syscall flags : UInt32) : List SockFilter :=
  [jump jeq syscall 0 8,
    statement load (Data.offsetArgs + 3 * 8),
    jump jset flags 5 0,
    statement load (Data.offsetArgs + 4 * 8),
    jump jeq 0 0 3,
    statement load (Data.offsetArgs + 4 * 8 + 4),
    jump jeq 0 0 1,
    statement ret retAllow,
    statement ret retUserNotif]

def filter (arch : Arch) : List SockFilter :=
  header arch ++ table arch.ioUring (retErrno ||| Libc.enosys) ++ peerNameCheck arch ++
    addressCheck (arch.number .sendto) (Libc.msgOob ||| Libc.msgFastopen) ++
    addressCheck (arch.number .recvfrom) Libc.msgOob ++ table arch.notified retUserNotif ++
    [statement ret retAllow]

end Seccomp

end Scproxy
