import Scproxy.Message

namespace Scproxy

namespace Libc

def msgDontwait : UInt32 := 0x40

def msgNosignal : UInt32 := 0x4000

def msgWaitforone : UInt32 := 0x10000

end Libc

namespace Datagram

def transferNow (destination : SocketAddrV4) (payload control : List UInt8) (flags : UInt32)
    (receive : Bool) : Act Received :=
  if receive then Act.recvmsg payload.length control.length (flags ||| Libc.msgDontwait)
  else do
    let count ←
      Act.sendmsg destination payload control (flags ||| Libc.msgDontwait ||| Libc.msgNosignal)
    pure ⟨count, payload, destination, control, 0⟩

/-- The address handed to the kernel; `recvmsg` overwrites it with the source. -/
def destination (memory : Memory) (tid : UInt32) (message : Message) (receive : Bool) :
    Act SocketAddrV4 := do
  if receive then pure ⟨.unspecified, 0⟩
  else if message.name ≠ 0 then do
    let target ← Act.ofExcept (memory.ipv4 tid message.name message.nameLength.toUInt64)
    Act.serverFor target
  else do
    match ← Interaction.attempt (Act.peerAddress false) with
    | .ok address => do
      match ← Act.originalServer address with
      | some _ => pure address
      | none => throw (.os Errno.enetunreach)
    | .error _ => throw (.os Errno.edestaddrreq)

/-- Hand a received datagram to the application. -/
def deliver (tid : UInt32) (message : Message) (received : Received) : Act Unit := do
  Act.valid
  message.writePayload tid (received.payload.take received.length)
  let original ← Act.originalServer received.source
  message.finish tid (original.getD received.source) received.control received.flags

def expired : Option Nat → Act Bool
  | none => pure false
  | some deadline => do
    let now ← Act.now
    pure (deadline ≤ now)

def nonblocking (flags : UInt32) : Act Bool := do
  let status ← Act.nonblocking
  pure (status || flags &&& Libc.msgDontwait != 0)

/-- The loop of `transfer`, cut off after a number of attempts. -/
def attempts (tid : UInt32) (message : Message) (destination : SocketAddrV4)
    (payload control : List UInt8) (flags : UInt32) (deadline : Option Nat) (receive : Bool) :
    Nat → Act Nat
  | 0 => Act.pending
  | retries + 1 => do
    Act.valid
    match ← Interaction.attempt (transferNow destination payload control flags receive) with
    | .ok received => do
      (if receive then deliver tid message received else pure ())
      pure received.length
    | .error error =>
      if error.isWouldBlock then do
        let nonblocking ← nonblocking flags
        let expired ← (if nonblocking then pure false else expired deadline)
        if nonblocking || expired then throw error
        else do
          Act.ready receive
          attempts tid message destination payload control flags deadline receive retries
      else if error.isInterrupted then
        attempts tid message destination payload control flags deadline receive retries
      else throw error

def transfer (retries : Nat) (memory : Memory) (tid : UInt32) (message : Message) (flags : UInt32)
    (deadline : Option Nat) (receive : Bool) : Act Nat := do
  let capacity ← Act.ofExcept message.capacity
  if !receive && 65536 < message.controlLength then throw (.os Errno.enobufs)
  else do
    let payload ← Act.ofExcept <|
      if receive then .ok (List.replicate (min capacity 65536) 0)
      else message.readPayload memory tid
    let control ← Act.ofExcept <|
      if receive then .ok (List.replicate (min message.controlLength 65536) 0)
      else memory.read tid message.control message.controlLength
    let destination ← destination memory tid message receive
    attempts tid message destination payload control flags deadline receive retries

section Dispatch

variable (arch : Arch) (retries : Nat) (memory : Memory) (notification : Notification)

def call : UInt32 := notification.data.nr.toUInt32

def receive : Bool :=
  [arch.number .recvfrom, arch.number .recvmsg, arch.number .recvmmsg].contains (call notification)

def batch : Bool :=
  [arch.number .sendmmsg, arch.number .recvmmsg].contains (call notification)

def flat : Bool :=
  [arch.number .sendto, arch.number .recvfrom].contains (call notification)

def flags : UInt32 :=
  if flat arch notification || batch arch notification then Data.low (notification.data.args 3)
  else Data.low (notification.data.args 2)

def count : Nat :=
  if batch arch notification then min (Data.low (notification.data.args 2)).toNat 1024 else 1

def currentFlags (index : Nat) : UInt32 :=
  let flags := flags arch notification
  (if 0 < index ∧ receive arch notification = true ∧ flags &&& Libc.msgWaitforone ≠ 0
    then flags ||| Libc.msgDontwait else flags) &&& ~~~Libc.msgWaitforone

def connect : Act Reply := do
  let args := notification.data.args
  let family ← Act.ofExcept (memory.family notification.pid (args 1) (args 2))
  if family = Libc.afUnspec then pure .continueSyscall
  else do
    let target ← Act.ofExcept (memory.ipv4 notification.pid (args 1) (args 2))
    let localAddr ← Act.serverFor target
    Act.valid
    Act.connect localAddr
    pure (.value 0)

def peerName : Act Reply := do
  let actual ← Act.peerAddress (call notification == arch.number .getsockopt)
  match ← Act.originalServer actual with
  | none => pure .continueSyscall
  | some original => do
    Act.valid
    memory.peerName arch notification original
    pure (.value 0)

def socketDeadline : Act (Option Nat) := do
  let timeout ← Act.timeout (receive arch notification)
  if timeout.1 = 0 ∧ timeout.2 = 0 then pure none
  else do
    let now ← Act.now
    pure (some (now + timeout.1.toNat * 1000000000 + timeout.2.toNat * 1000))

/-- `Instant::checked_add`, in nanoseconds. -/
def checkedAdd (now seconds nanos : Nat) : Option Nat :=
  let sum := now + seconds * 1000000000 + nanos
  if sum / 1000000000 < 2 ^ 63 then some sum else none

def batchDeadline : Act (Option Nat) := do
  let args := notification.data.args
  if call notification = arch.number .recvmmsg ∧ args 4 ≠ 0 then do
    let bytes ← Act.ofExcept (memory.read notification.pid (args 4) 16)
    let seconds := (Message.word bytes 0).toInt64.toInt
    let nanos := (Message.word bytes 8).toInt64.toInt
    if seconds < 0 ∨ nanos < 0 ∨ 1000000000 ≤ nanos then throw (.os Errno.einval)
    else do
      let now ← Act.now
      match checkedAdd now seconds.toNat nanos.toNat with
      | some deadline => pure (some deadline)
      | none => throw (.os Errno.einval)
  else pure none

def earlier : Option Nat → Option Nat → Option Nat
  | some a, some b => some (min a b)
  | a, b => a <|> b

/-- The address of the header of a message, `none` on overflow. -/
def headerPointer (index : Nat) : Option UInt64 :=
  if (notification.data.args 1).toNat + index * 64 < 2 ^ 64 then
    some (notification.data.args 1 + UInt64.ofNat (index * 64))
  else none

def message (header : UInt64) : Except IoError Message :=
  let args := notification.data.args
  if flat arch notification then
    Message.flat memory notification.pid (args 1) (args 2) (args 4) (args 5)
      (receive arch notification)
  else Message.headerAt memory notification.pid header

/-- What the loop over the messages leaves behind. -/
structure Progress where
  completed : Nat
  result : Except IoError Reply

/-- The loop over the messages; a single message returns from inside it. -/
def messages (deadline : Option Nat) : (remaining index : Nat) → Act (Reply ⊕ Progress)
  | 0, completed => pure (.inr ⟨completed, .ok (.value 0)⟩)
  | remaining + 1, index => do
    match headerPointer notification index with
    | none => throw (.os Errno.efault)
    | some header => do
      let operation ← Interaction.attempt do
        let message ← Act.ofExcept (message arch memory notification header)
        transfer retries memory notification.pid message (currentFlags arch notification index)
          deadline (receive arch notification)
      match operation with
      | .error error => pure (.inr ⟨index, .error error⟩)
      | .ok length =>
        if !batch arch notification then pure (.inl (.value length))
        else do
          Act.valid
          let written ← Interaction.attempt
            (Act.write .messageLength notification.pid (header + 56) (toNe 4 length))
          match written with
          | .error error => pure (.inr ⟨index, .error error⟩)
          | .ok () => messages deadline remaining (index + 1)

/-- The unused part of the timeout is written back. Tell whether the call timed out. -/
def settleTimeout (deadline : Option Nat) (progress : Progress) : Act Bool := do
  match deadline with
  | none => pure false
  | some deadline => do
    Act.valid
    let now ← Act.now
    let remaining := deadline - now
    Act.write .timeout notification.pid (notification.data.args 4)
      (toNe 8 (remaining / 1000000000) ++ toNe 8 (remaining % 1000000000))
    if progress.completed ≠ 0 then pure false
    else do
      let now ← Act.now
      pure (deadline ≤ now ∧ progress.result = .error (.os Errno.eagain))

def transferAll : Act Reply := do
  Act.asyncFd
  let socketDeadline ← socketDeadline arch notification
  let batchDeadline ← batchDeadline arch memory notification
  match ← messages arch retries memory notification (earlier socketDeadline batchDeadline)
    (count arch notification) 0 with
  | .inl reply => pure reply
  | .inr progress => do
    let timedOut ← settleTimeout notification batchDeadline progress
    if timedOut then pure (.value 0)
    else if 0 < progress.completed then pure (.value progress.completed)
    else Act.ofExcept progress.result

def dispatch : Act Reply := do
  if call notification = arch.number .connect then connect memory notification
  else if call notification = arch.number .getpeername ∨
      call notification = arch.number .getsockopt then
    peerName arch memory notification
  else transferAll arch retries memory notification

end Dispatch

end Datagram

end Scproxy
