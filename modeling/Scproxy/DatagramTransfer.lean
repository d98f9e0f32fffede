import Scproxy.DatagramMoves

namespace Scproxy

open Interaction

namespace Datagram

/-- Where a message goes: to the server for the address that it names, or to the peer of the
socket, if that stands for a server. -/
def Addressed (memory : Memory) (tid : UInt32) (message : Message)
    (trace : List (Event Operation Operation.Ret)) (destination : SocketAddrV4) : Prop :=
  (message.name ≠ 0 ∧ ∃ target,
    memory.ipv4 tid message.name message.nameLength.toUInt64 = .ok target ∧
    ⟨.serverFor target, .ok destination⟩ ∈ trace) ∨
  (message.name = 0 ∧ ⟨.peerAddress false, .ok destination⟩ ∈ trace ∧ ∃ original,
    ⟨.originalServer destination, some original⟩ ∈ trace)

/-- The effects of a message that is transferred, with the length of its datagram: what its
buffers hold is sent, or a datagram is received and goes into its buffers. -/
inductive Moved (memory : Memory) (tid : UInt32) (message : Message) (flags : UInt32)
    (receive : Bool) (trace : List (Event Operation Operation.Ret)) : Nat → List Effect → Prop
  | sent {payload control : List UInt8} {destination : SocketAddrV4} (length : Nat)
    (hreceive : receive = false) (hpayload : message.readPayload memory tid = .ok payload)
    (hlength : message.controlLength ≤ 65536)
    (hcontrol : memory.read tid message.control message.controlLength = .ok control)
    (hdestination : Addressed memory tid message trace destination) :
    Moved memory tid message flags receive trace length
      [.sent destination payload control (flags ||| Libc.msgDontwait ||| Libc.msgNosignal) length]
  | received {capacity : Nat} (datagram : Received) (hreceive : receive = true)
    (hcapacity : message.capacity = .ok capacity) :
    Moved memory tid message flags receive trace datagram.length
      (.received (min capacity 65536) (min message.controlLength 65536)
          (flags ||| Libc.msgDontwait) datagram ::
        scattered tid message.vectors (datagram.payload.take datagram.length))

/-- Why a message is not transferred. -/
inductive TransferFails (memory : Memory) (tid : UInt32) (message : Message) (receive : Bool)
    (trace : List (Event Operation Operation.Ret)) : IoError → Prop
  | operation {error : IoError} (h : (failures trace).getLast? = some error) :
    TransferFails memory tid message receive trace error
  | capacity {error : IoError} (h : message.capacity = .error error) :
    TransferFails memory tid message receive trace error
  | controlLength (hreceive : receive = false) (h : 65536 < message.controlLength) :
    TransferFails memory tid message receive trace (.os Errno.enobufs)
  | payload {error : IoError} (hreceive : receive = false)
    (h : message.readPayload memory tid = .error error) :
    TransferFails memory tid message receive trace error
  | control {error : IoError} (hreceive : receive = false)
    (h : memory.read tid message.control message.controlLength = .error error) :
    TransferFails memory tid message receive trace error
  | name {error : IoError} (hreceive : receive = false) (hname : message.name ≠ 0)
    (h : memory.ipv4 tid message.name message.nameLength.toUInt64 = .error error) :
    TransferFails memory tid message receive trace error
  | unconnected {error : IoError} (hreceive : receive = false) (hname : message.name = 0)
    (h : ⟨.peerAddress false, .error error⟩ ∈ trace) :
    TransferFails memory tid message receive trace (.os Errno.edestaddrreq)
  | unreachable {address : SocketAddrV4} (hreceive : receive = false) (hname : message.name = 0)
    (h : ⟨.peerAddress false, .ok address⟩ ∈ trace)
    (hnone : ⟨.originalServer address, none⟩ ∈ trace) :
    TransferFails memory tid message receive trace (.os Errno.enetunreach)
  | unnameable {error : IoError} (hreceive : receive = true) (h : message.Unnameable error) :
    TransferFails memory tid message receive trace error

variable {memory : Memory} {tid : UInt32} {message : Message} {flags : UInt32}
  {deadline : Option Nat} {receive : Bool} {attempted : Nat}
  {trace trace' : List (Event Operation Operation.Ret)}

theorem Addressed.mono {destination : SocketAddrV4}
    (h : Addressed memory tid message trace destination) (hsub : trace ⊆ trace') :
    Addressed memory tid message trace' destination := by
  rcases h with ⟨hname, target, htarget, hserver⟩ | ⟨hname, hpeer, original, horiginal⟩
  · exact .inl ⟨hname, target, htarget, hsub hserver⟩
  · exact .inr ⟨hname, hsub hpeer, original, hsub horiginal⟩

theorem Moved.mono {length : Nat} {moved : List Effect}
    (h : Moved memory tid message flags receive trace length moved) (hsub : trace ⊆ trace') :
    Moved memory tid message flags receive trace' length moved := by
  cases h with
  | sent length hreceive hpayload hlength hcontrol hdestination =>
    exact .sent length hreceive hpayload hlength hcontrol (hdestination.mono hsub)
  | received datagram hreceive hcapacity => exact .received datagram hreceive hcapacity

theorem runs_destination {result : Except IoError SocketAddrV4}
    (hrun : Runs (Datagram.destination memory tid message receive).run trace result) :
    (∃ destination, result = .ok destination ∧
      (receive = false → Addressed memory tid message trace destination)) ∨
    ∃ error, result = .error error ∧ TransferFails memory tid message receive trace error := by
  unfold Datagram.destination at hrun
  split at hrun
  next hreceive =>
    obtain ⟨rfl, rfl⟩ := runs_done_iff.mp hrun
    exact .inl ⟨_, rfl, fun h => absurd hreceive (by simp [h])⟩
  next hreceive =>
    rw [Bool.not_eq_true] at hreceive
    split at hrun
    next hname =>
      rcases runs_andThen.mp hrun with ⟨error, hread, rfl⟩ | ⟨_, _, target, rfl, hread, hserver⟩
      · exact .inr ⟨error, rfl, .name hreceive hname (runs_done_iff.mp hread).2.symm⟩
      obtain ⟨rfl, htarget⟩ := runs_done_iff.mp hread
      cases runs_single_iff.mp hserver
      cases result with
      | error error => exact .inr ⟨error, rfl, .operation rfl⟩
      | ok destination =>
        exact .inl ⟨destination, rfl, fun _ => .inl ⟨hname, target, htarget.symm, by simp⟩⟩
    next hname =>
      have hname : message.name = 0 := not_not.mp hname
      rcases runs_andThen.mp hrun with ⟨_, hpeer, _⟩ | ⟨_, _, address, rfl, hpeer, hrest⟩
      · obtain ⟨_, heq, _⟩ := runs_attempt.mp hpeer
        cases heq
      obtain ⟨_, heq, hpeer⟩ := runs_attempt.mp hpeer
      cases heq
      cases runs_single_iff.mp hpeer
      cases address with
      | error error =>
        obtain ⟨rfl, rfl⟩ := runs_done_iff.mp hrest
        exact .inr ⟨_, rfl, .unconnected hreceive hname List.mem_cons_self⟩
      | ok address =>
        obtain ⟨original, rest, rfl, hdone⟩ := runs_perform_iff.mp hrest
        cases original with
        | none =>
          obtain ⟨rfl, rfl⟩ := runs_done_iff.mp hdone
          exact .inr ⟨_, rfl, .unreachable hreceive hname List.mem_cons_self (by simp)⟩
        | some original =>
          obtain ⟨rfl, rfl⟩ := runs_done_iff.mp hdone
          exact .inl ⟨address, rfl, fun _ => .inr ⟨hname, by simp, original, by simp⟩⟩

/-- The message was moved, or it failed for a reason. -/
structure Transferred (memory : Memory) (tid : UInt32) (message : Message) (flags : UInt32)
    (receive : Bool) (trace : List (Event Operation Operation.Ret)) (result : Except IoError Nat) :
    Prop where
  ok : ∀ length, result = .ok length → Moved memory tid message flags receive trace length
    (effects trace)
  begins : effects trace = [] ∨ ∃ length moved,
    Moved memory tid message flags receive trace length moved ∧ effects trace <+: moved
  error : ∀ e, result = .error e → TransferFails memory tid message receive trace e

theorem transferred_of_error {e : IoError} (heffects : effects trace = [])
    (h : TransferFails memory tid message receive trace e) :
    Transferred memory tid message flags receive trace (.error e) := by
  refine ⟨nofun, .inl heffects, ?_⟩
  rintro _ ⟨⟩
  exact h

theorem transferred_of_attempted {destination : SocketAddrV4} {payload control : List UInt8}
    {result : Except IoError Nat}
    (h : Attempted tid message destination payload control flags receive trace result)
    (hmoved : ∀ received : Received, Moved memory tid message flags receive trace received.length
      (movedBy tid message destination payload control flags receive received)) :
    Transferred memory tid message flags receive trace result := by
  refine ⟨?_, ?_, ?_⟩
  · intro length hlength
    obtain ⟨received, rfl, heffects⟩ := h.ok length hlength
    rw [heffects]
    exact hmoved received
  · cases result with
    | ok length =>
      obtain ⟨received, rfl, heffects⟩ := h.ok length rfl
      exact .inr ⟨_, _, hmoved received, heffects ▸ List.prefix_rfl⟩
    | error e =>
      rcases (h.error e rfl).1 with hnone | ⟨received, hbegins⟩
      · exact .inl hnone
      · exact .inr ⟨_, _, hmoved received, hbegins⟩
  · intro e he
    rcases (h.error e he).2 with hlast | ⟨hreceive, hname⟩
    · exact .operation hlast
    · exact .unnameable hreceive hname

/-- The end of a transfer, when its buffers are there. -/
theorem runs_exchange {payload control : List UInt8} {result : Except IoError Nat}
    (hrun : Runs (Datagram.destination memory tid message receive >>= fun destination =>
      attempts tid message destination payload control flags deadline receive attempted).run trace
      result)
    (hmoved : ∀ (received : Received) (destination : SocketAddrV4),
      (receive = false → Addressed memory tid message trace destination) →
      Moved memory tid message flags receive trace received.length
        (movedBy tid message destination payload control flags receive received)) :
    Transferred memory tid message flags receive trace result := by
  rcases runs_andThen.mp hrun with ⟨e, haddress, rfl⟩ | ⟨front, back, _, rfl, haddress, hattempts⟩
  · rcases runs_destination haddress with ⟨_, heq, _⟩ | ⟨_, heq, hfails⟩
    · cases heq
    · cases heq
      exact transferred_of_error (still_destination.effects haddress) hfails
  · rcases runs_destination haddress with ⟨_, heq, haddressed⟩ | ⟨_, heq, _⟩
    · cases heq
      have hattempted := (runs_attempts hattempts).after (still_destination.effects haddress)
      refine transferred_of_attempted hattempted fun received => hmoved received _ fun hreceive => ?_
      exact (haddressed hreceive).mono (List.subset_append_left _ _)
    · cases heq

theorem runs_transfer {result : Except IoError Nat}
    (hrun : Runs (transfer attempted memory tid message flags deadline receive).run trace result) :
    Transferred memory tid message flags receive trace result := by
  rcases runs_andThen.mp hrun with ⟨e, hread, rfl⟩ | ⟨_, _, capacity, rfl, hread, hsized⟩
  · obtain ⟨rfl, hcapacity⟩ := runs_done_iff.mp hread
    exact transferred_of_error rfl (.capacity hcapacity.symm)
  obtain ⟨rfl, hcapacity⟩ := runs_done_iff.mp hread
  split at hsized
  next hlong =>
    obtain ⟨rfl, rfl⟩ := runs_done_iff.mp hsized
    rw [Bool.and_eq_true, Bool.not_eq_true', decide_eq_true_iff] at hlong
    exact transferred_of_error rfl (.controlLength hlong.1 hlong.2)
  next hlong =>
    rcases runs_andThen.mp hsized with ⟨e, hread, rfl⟩ | ⟨_, _, payload, rfl, hread, hrest⟩
    · obtain ⟨rfl, hpayload⟩ := runs_done_iff.mp hread
      cases receive with
      | true => cases hpayload
      | false => exact transferred_of_error rfl (.payload rfl hpayload.symm)
    obtain ⟨rfl, hpayload⟩ := runs_done_iff.mp hread
    rcases runs_andThen.mp hrest with ⟨e, hread, rfl⟩ | ⟨_, _, control, rfl, hread, hready⟩
    · obtain ⟨rfl, hcontrol⟩ := runs_done_iff.mp hread
      cases receive with
      | true => cases hcontrol
      | false => exact transferred_of_error rfl (.control rfl hcontrol.symm)
    obtain ⟨rfl, hcontrol⟩ := runs_done_iff.mp hread
    refine runs_exchange hready fun received destination haddressed => ?_
    cases receive with
    | true =>
      cases hpayload
      cases hcontrol
      simp only [movedBy, handedOver, List.length_replicate, if_true]
      exact .received received rfl hcapacity.symm
    | false =>
      refine .sent received.length rfl hpayload.symm ?_ hcontrol.symm (haddressed rfl)
      simpa using hlong

end Datagram

end Scproxy
