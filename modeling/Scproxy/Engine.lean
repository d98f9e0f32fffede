import Scproxy.Datagram

namespace Scproxy

namespace Libc

def afUnix : UInt16 := 1

def afNetlink : UInt16 := 16

def sockStream : UInt32 := 1

def sockDgram : UInt32 := 2

def sockNonblock : UInt32 := 0x800

def sockCloexec : UInt32 := 0x80000

def ipprotoTcp : UInt32 := 6

def ipprotoUdp : UInt32 := 17

end Libc

namespace Broker

def isOpen (arch : Arch) (call : UInt32) : Bool :=
  (arch.sysOpen ++ [arch.number .openat, arch.number .openat2]).contains call

/-- Only Unix and netlink sockets and the TCP and UDP sockets of IPv4 are created. -/
def socket (args : Fin 6 → UInt64) : Except IoError Reply :=
  let family := Data.low (args 0)
  let kind := Data.low (args 1) &&& ~~~(Libc.sockNonblock ||| Libc.sockCloexec)
  let protocol := Data.low (args 2)
  if family = Libc.afUnix.toUInt32 ∨ family = Libc.afNetlink.toUInt32 then .ok .continueSyscall
  else if family ≠ Libc.afInet.toUInt32 then .error (.os Errno.eafnosupport)
  else if (kind = Libc.sockStream ∧ (protocol = 0 ∨ protocol = Libc.ipprotoTcp)) ∨
      (kind = Libc.sockDgram ∧ (protocol = 0 ∨ protocol = Libc.ipprotoUdp)) then
    .ok .continueSyscall
  else .error (.os Errno.eprotonosupport)

def flags (arch : Arch) (data : Data) : UInt32 :=
  let call := data.nr.toUInt32
  if [arch.number .sendto, arch.number .recvfrom, arch.number .sendmmsg,
      arch.number .recvmmsg].contains call then Data.low (data.args 3)
  else if [arch.number .sendmsg, arch.number .recvmsg].contains call then Data.low (data.args 2)
  else 0

def isFastopen (arch : Arch) (data : Data) : Bool :=
  [arch.number .sendto, arch.number .sendmsg, arch.number .sendmmsg].contains data.nr.toUInt32 &&
    flags arch data &&& Libc.msgFastopen != 0

/-- Decide a notification. The handlers of TCP sockets and of files are
operations of their own here. -/
def dispatch (arch : Arch) (retries : Nat) (memory : Memory) (notification : Notification) :
    Act Reply := do
  Act.valid
  let call := notification.data.nr.toUInt32
  if isOpen arch call then Act.openFile
  else if call = arch.number .socket then Act.ofExcept (socket notification.data.args)
  else if isFastopen arch notification.data then throw (.os Errno.eopnotsupp)
  else do
    Act.get
    Act.valid
    let domain ← Act.domain
    (if domain = Libc.afUnix.toUInt32 ∧ call = arch.number .connect then Act.checkUnixConnect
      else pure ())
    if domain ≠ Libc.afInet.toUInt32 then pure .continueSyscall
    else do
      let protocol ← Act.protocol
      if protocol = Libc.ipprotoTcp then Act.tcp
      else if protocol = Libc.ipprotoUdp then
        Datagram.dispatch arch retries memory notification
      else throw (.os Errno.eprotonosupport)

end Broker

end Scproxy
