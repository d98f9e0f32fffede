import Mathlib.Data.Finset.Insert
import Scproxy.Message

namespace Scproxy

namespace Diagnostics

/-- The errors of `snapshot`: an error number, or a kind with a message. -/
inductive SnapshotError
  | raw (errno : Int)
  | new (kind : ErrorKind) (message : String)
  deriving DecidableEq

/-- What one call of `recv` with `MSG_TRUNC` gives; a datagram is whole here
even if the buffer cannot hold it. -/
inductive Recv
  | failed (errno : Nat)
  | datagram (bytes : List UInt8)

/-- What the code does after one netlink message. -/
inductive Progress
  | finished
  | failed (error : SnapshotError)
  | next (offset : Nat) (sockets : Finset UInt64)

/-- The next message starts at a multiple of four. -/
def align (len : Nat) : Nat := (len + 3) / 4 * 4

def cookie (payload : List UInt8) : Except Panic UInt64 := do
  let low := fromNe (← slice payload 44 48)
  let high := fromNe (← slice payload 48 52)
  .ok (UInt64.ofNat low ||| (UInt64.ofNat high <<< 32))

structure Header where
  len : Nat
  kind : Nat
  flags : Nat

def header (buffer : List UInt8) (offset : Nat) : Except Panic Header := do
  let header ← slice buffer offset (offset + 16)
  let len := fromNe (← slice header 0 4)
  let kind := fromNe (← slice header 4 6)
  let flags := fromNe (← slice header 6 8)
  .ok ⟨len, kind, flags⟩

/-- A message that is not malformed; `next` is where the next one starts. An
error number is negated as the release profile does it. -/
def handle (kind : Nat) (payload : List UInt8) (next : Nat) (sockets : Finset UInt64) :
    Except Panic Progress :=
  if kind = 3 then .ok .finished
  else if kind = 2 then
    if payload.length < 4 then .ok (.failed (.new .other "invalid netlink error"))
    else if BitVec.ofNat 32 (fromNe (payload.take 4)) ≠ 0 then
      .ok (.failed (.raw (-BitVec.ofNat 32 (fromNe (payload.take 4))).toInt))
    else .ok (.next next sockets)
  else if kind = 20 ∧ 72 ≤ payload.length then do
    let cookie ← cookie payload
    .ok (.next next (insert cookie sockets))
  else .ok (.next next sockets)

/-- One round of the loop over the messages of a datagram of `count` bytes. -/
def message (buffer : List UInt8) (count offset : Nat) (sockets : Finset UInt64) :
    Except Panic Progress := do
  let header ← header buffer offset
  if header.len < 16 ∨ count < offset + header.len then
    .ok (.failed (.new .other "invalid socket diagnostic message"))
  else if header.flags &&& 0x10 ≠ 0 then
    .ok (.failed (.new .interrupted "socket diagnostic dump interrupted"))
  else do
    let payload ← slice buffer (offset + 16) (offset + header.len)
    handle header.kind payload (offset + align header.len) sockets

theorem align_ge (len : Nat) : len ≤ align len := by
  unfold align
  omega

theorem handle_next {kind next next' : Nat} {payload : List UInt8} {sockets sockets' : Finset UInt64}
    (h : handle kind payload next sockets = .ok (.next next' sockets')) : next' = next := by
  unfold handle at h
  split at h
  next => cases h
  next =>
    split at h
    next =>
      split at h
      next => cases h
      next =>
        split at h
        next => cases h
        next => cases h; rfl
    next =>
      split at h
      next =>
        obtain ⟨cookie, _, h⟩ := bind_eq_ok.mp h
        cases h
        rfl
      next => cases h; rfl

theorem message_advances {buffer : List UInt8} {count offset next : Nat}
    {sockets sockets' : Finset UInt64}
    (h : message buffer count offset sockets = .ok (.next next sockets')) : offset + 16 ≤ next := by
  obtain ⟨header, _, h⟩ := bind_eq_ok.mp h
  have halign := align_ge header.len
  split at h
  next => cases h
  next hlen =>
    split at h
    next => cases h
    next =>
      obtain ⟨payload, _, h⟩ := bind_eq_ok.mp h
      rw [handle_next h]
      omega

/-- What is left when the messages of a datagram have been read. -/
inductive Scan
  | finished (sockets : Finset UInt64)
  | failed (error : SnapshotError)
  | more (sockets : Finset UInt64)

def messages (buffer : List UInt8) (count offset : Nat) (sockets : Finset UInt64) :
    Except Panic Scan :=
  if offset + 16 ≤ count then
    match _h : message buffer count offset sockets with
    | .error reason => .error reason
    | .ok .finished => .ok (.finished sockets)
    | .ok (.failed error) => .ok (.failed error)
    | .ok (.next next sockets) => messages buffer count next sockets
  else .ok (.more sockets)
termination_by count - offset
decreasing_by
  have := message_advances _h
  omega

/-- The loop over the datagrams. A result of `none` is a call that still waits. -/
def receive (buffer : List UInt8) (sockets : Finset UInt64) :
    List Recv → Except Panic (Option (Except SnapshotError (Finset UInt64)))
  | [] => .ok none
  | .failed errno :: rest =>
    if errno = Errno.eintr then receive buffer sockets rest else .ok (some (.error (.raw errno)))
  | .datagram bytes :: rest =>
    if bytes.length = 0 ∨ buffer.length < bytes.length then
      .ok (some (.error (.new .other "truncated socket diagnostic response")))
    else do
      let buffer := bytes ++ buffer.drop bytes.length
      match ← messages buffer bytes.length 0 sockets with
      | .finished sockets => .ok (some (.ok sockets))
      | .failed error => .ok (some (.error error))
      | .more sockets => receive buffer sockets rest

/-- `nlmsghdr` followed by `inet_diag_req_v2`. -/
def request : List UInt8 :=
  toNe 4 72 ++ toNe 2 20 ++ toNe 2 0x301 ++ toNe 4 1 ++ List.replicate 4 0 ++ [2, 6, 0, 0] ++
    toNe 4 (2 ^ 32 - 1) ++ List.replicate 40 0 ++ List.replicate 8 0xFF

/-- What the kernel answers to `diagnostic_socket`, `send` and each `recv`. -/
structure DiagnosticsOs where
  socket : Except Nat Unit
  send : List UInt8 → Except Nat Unit
  received : List Recv

def snapshot (os : DiagnosticsOs) :
    Except Panic (Option (Except SnapshotError (Finset UInt64))) :=
  match os.socket with
  | .error errno => .ok (some (.error (.raw errno)))
  | .ok () =>
    match os.send request with
    | .error errno => .ok (some (.error (.raw errno)))
    | .ok () => receive (List.replicate 65536 0) ∅ os.received

end Diagnostics

end Scproxy
