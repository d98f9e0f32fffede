import Mathlib.Data.Nat.Digits.Defs
import Scproxy.Operation

namespace Scproxy

/-- Both targets are little-endian. -/
def fromNe (bytes : List UInt8) : Nat := Nat.ofDigits 256 (bytes.map UInt8.toNat)

def toNe (width n : Nat) : List UInt8 :=
  (List.range width).map fun i => UInt8.ofNat (n / 256 ^ i)

namespace Memory

def u32At (memory : Memory) (tid : UInt32) (address : UInt64) : Except IoError UInt32 := do
  let bytes ← memory.read tid address 4
  .ok (UInt32.ofNat (fromNe bytes))

def putAddress (field : Field) (tid : UInt32) (pointer : UInt64) (capacity : UInt32)
    (address : SocketAddrV4) : Act Unit :=
  if 2 ^ 31 - 1 < capacity.toNat then throw (.os Errno.einval)
  else Act.write field tid pointer ((addressBytes address).take (min capacity.toNat 16))

/-- `SO_PEERNAME` preserves the length on truncation and rejects oversized buffers. -/
def peerName (arch : Arch) (memory : Memory) (notification : Notification)
    (address : SocketAddrV4) : Act Unit := do
  let tid := notification.pid
  let args := notification.data.args
  let socketOption := notification.data.nr.toUInt32 == arch.number .getsockopt
  let pointer := if socketOption then args 3 else args 1
  let length := if socketOption then args 4 else args 2
  let capacity ← Act.ofExcept (memory.u32At tid length)
  if socketOption && 16 < capacity then throw (.os Errno.einval)
  else do
    putAddress .peer tid pointer capacity address
    let returned := if socketOption then capacity else 16
    Act.write .nameLength tid length (toNe 4 returned.toNat)

end Memory

/-- The buffers of one message of a send or receive call. -/
structure Message where
  name : UInt64
  nameLength : UInt32
  control : UInt64
  controlLength : Nat
  vectors : List (UInt64 × Nat)
  header : Option UInt64
  lengthPointer : Option UInt64

namespace Message

def flat (memory : Memory) (tid : UInt32) (buffer length name lengthPointer : UInt64)
    (receive : Bool) : Except IoError Message := do
  let nameLength ←
    if name = 0 then .ok 0
    else if receive then memory.u32At tid lengthPointer
    else .ok lengthPointer.toUInt32
  .ok {
    name := name
    nameLength := nameLength
    control := 0
    controlLength := 0
    vectors := [(buffer, length.toNat)]
    header := none
    lengthPointer := if receive ∧ name ≠ 0 then some lengthPointer else none }

/-- The word at an offset of `struct msghdr`. -/
def word (bytes : List UInt8) (offset : Nat) : UInt64 :=
  UInt64.ofNat (fromNe ((bytes.drop offset).take 8))

def ioVectors (count : Nat) (bytes : List UInt8) : List (UInt64 × Nat) :=
  (List.range count).map fun i => (word bytes (16 * i), (word bytes (16 * i + 8)).toNat)

def headerAt (memory : Memory) (tid : UInt32) (pointer : UInt64) : Except IoError Message := do
  let bytes ← memory.read tid pointer 56
  let count := (word bytes 24).toNat
  if 1024 < count then .error (.os Errno.emsgsize)
  else do
    let vectors ← memory.read tid (word bytes 16) (count * 16)
    .ok {
      name := word bytes 0
      nameLength := UInt32.ofNat (fromNe ((bytes.drop 8).take 4))
      control := word bytes 32
      controlLength := (word bytes 40).toNat
      vectors := ioVectors count vectors
      header := some pointer
      lengthPointer := none }

def capacity (message : Message) : Except IoError Nat :=
  message.vectors.foldlM
    (fun size vector =>
      if size + vector.2 ≤ 2 ^ 63 - 1 then .ok (size + vector.2) else .error (.os Errno.einval)) 0

def readPayload (message : Message) (memory : Memory) (tid : UInt32) :
    Except IoError (List UInt8) := do
  let size ← message.capacity
  if 65507 < size then .error (.os Errno.emsgsize)
  else
    message.vectors.foldlM
      (fun data vector => do .ok (data ++ (← memory.read tid vector.1 vector.2))) []

def writeVectors (tid : UInt32) : List (UInt64 × Nat) → List UInt8 → Act Unit
  | [], _ => pure ()
  | (pointer, length) :: vectors, remaining => do
    Act.write .payload tid pointer (remaining.take length)
    if remaining.drop length = [] then pure ()
    else writeVectors tid vectors (remaining.drop length)

def writePayload (message : Message) (tid : UInt32) (bytes : List UInt8) : Act Unit :=
  writeVectors tid message.vectors bytes

def finishHeader (message : Message) (tid : UInt32) (header : UInt64) (control : List UInt8)
    (flags : UInt32) : Act Unit := do
  Act.write .nameLength tid (header + 8) (toNe 4 (if message.name = 0 then 0 else 16))
  Act.write .control tid message.control control
  Act.write .controlLength tid (header + 40) (toNe 8 control.length)
  Act.write .flags tid (header + 48) (toNe 4 flags.toNat)

def finishName (message : Message) (tid : UInt32) (source : SocketAddrV4) : Act Unit :=
  if message.name ≠ 0 then
    Memory.putAddress (.source message.nameLength) tid message.name message.nameLength source
  else pure ()

def finishLength (message : Message) (tid : UInt32) : Act Unit :=
  match message.lengthPointer with
  | some pointer => Act.write .nameLength tid pointer (toNe 4 16)
  | none => pure ()

def finish (message : Message) (tid : UInt32) (source : SocketAddrV4) (control : List UInt8)
    (flags : UInt32) : Act Unit := do
  message.finishName tid source
  message.finishLength tid
  match message.header with
  | some header => message.finishHeader tid header control flags
  | none => pure ()

end Message

end Scproxy
