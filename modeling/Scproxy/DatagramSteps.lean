import Scproxy.Datagram
import Scproxy.InteractionRuns

namespace Scproxy

open Interaction

/-- Operations that neither wait nor move a datagram, and leave the payload and
the length words of a batch alone; the handlers of other calls are not among them. -/
def Operation.still : Operation → Bool
  | .openFile | .tcp | .ready _ | .sendmsg .. | .recvmsg .. | .write .payload ..
  | .write .messageLength .. | .pending => false
  | _ => true

/-- Only such operations are performed. -/
def Act.Still {α : Type} (p : Act α) : Prop := p.run.Performs fun op => op.still = true

namespace Act

variable {α β : Type}

theorem still_operation (op : Operation) (h : op.still = true) {next : op.Ret → Except IoError α} :
    Still (ExceptT.mk (.perform op fun r => .done (next r))) :=
  ⟨h, fun _ => trivial⟩

theorem still_done {r : Except IoError α} : Still (ExceptT.mk (.done r)) := trivial

theorem Still.bind {p : Act α} {f : α → Act β} (hp : p.Still) (hf : ∀ a, (f a).Still) :
    (p >>= f).Still :=
  Performs.andThen hp hf

end Act

open Act

theorem still_putAddress {field : Field} {tid : UInt32} {pointer : UInt64} {capacity : UInt32}
    {address : SocketAddrV4} (h : ∀ bytes, (Operation.write field tid pointer bytes).still = true) :
    (Memory.putAddress field tid pointer capacity address).Still := by
  unfold Memory.putAddress
  split
  next => exact still_done
  next => exact still_operation (.write ..) (h _)

namespace Message

variable {message : Message} {tid : UInt32}

theorem still_finish {source : SocketAddrV4} {control : List UInt8} {flags : UInt32} :
    (message.finish tid source control flags).Still := by
  have hname : (message.finishName tid source).Still := by
    unfold finishName
    split
    next => exact still_putAddress fun _ => rfl
    next => exact still_done
  have hlength : (message.finishLength tid).Still := by
    unfold finishLength
    split
    next => exact still_operation (.write ..) rfl
    next => exact still_done
  refine hname.bind fun _ => hlength.bind fun _ => ?_
  split
  next =>
    refine (still_operation (.write ..) rfl).bind fun _ => ?_
    refine (still_operation (.write ..) rfl).bind fun _ => ?_
    refine (still_operation (.write ..) rfl).bind fun _ => ?_
    exact still_operation (.write ..) rfl
  next => exact still_done

end Message

namespace Operation

theorem nonempty_of_still {op : Operation} (h : op.still = true) : Nonempty op.Ret := by
  cases op with
  | pending => cases h
  | now => exact ⟨(0 : Nat)⟩
  | originalServer localAddr => exact ⟨(none : Option SocketAddrV4)⟩
  | _ => exact ⟨Except.error (IoError.os 0)⟩

end Operation

theorem Act.Still.not_halts {α : Type} {p : Act α} (hp : p.Still)
    {trace : List (Event Operation Operation.Ret)} : ¬Halts p.run trace :=
  Performs.not_halts (hp.mono fun _ => Operation.nonempty_of_still)

namespace Datagram

variable {memory : Memory} {tid : UInt32} {message : Message} {flags : UInt32}
  {destination : SocketAddrV4} {payload control : List UInt8} {deadline : Option Nat}
  {receive : Bool} {attempted : Nat}

theorem still_destination : (Datagram.destination memory tid message receive).Still := by
  unfold Datagram.destination
  split
  next => exact still_done
  next =>
    split
    next => exact still_done.bind fun _ => still_operation (.serverFor _) rfl
    next =>
      refine Still.bind (still_operation (.peerAddress _) rfl).attempt fun address => ?_
      cases address with
      | error error => exact still_done
      | ok address =>
        refine (still_operation (.originalServer _) rfl).bind fun original => ?_
        cases original with
        | none => exact still_done
        | some _ => exact still_done

theorem still_expired : (expired deadline).Still := by
  cases deadline with
  | none => exact still_done
  | some deadline => exact (still_operation .now rfl).bind fun _ => still_done

theorem still_nonblocking : (nonblocking flags).Still :=
  (still_operation .nonblocking rfl).bind fun _ => still_done

section Deadlines

variable {arch : Arch} {notification : Notification}

theorem still_socketDeadline : (socketDeadline arch notification).Still := by
  refine (still_operation (.timeout _) rfl).bind fun _ => ?_
  split
  next => exact still_done
  next => exact (still_operation .now rfl).bind fun _ => still_done

theorem still_batchDeadline : (batchDeadline arch memory notification).Still := by
  unfold batchDeadline
  dsimp only
  split
  next =>
    refine still_done.bind fun _ => ?_
    split
    next => exact still_done
    next =>
      refine (still_operation .now rfl).bind fun _ => ?_
      split
      next => exact still_done
      next => exact still_done
  next => exact still_done

theorem still_settleTimeout {timeout : Option Nat} {progress : Progress} :
    (settleTimeout notification timeout progress).Still := by
  unfold settleTimeout
  split
  next => exact still_done
  next =>
    refine (still_operation .valid rfl).bind fun _ => ?_
    refine (still_operation .now rfl).bind fun _ => ?_
    refine (still_operation (.write ..) rfl).bind fun _ => ?_
    split
    next => exact still_done
    next => exact (still_operation .now rfl).bind fun _ => still_done

end Deadlines

/-- What one message may ask of the kernel: it waits only without `MSG_DONTWAIT`. -/
def Transfers (flags : UInt32) : Operation → Prop
  | .sendmsg _ _ _ passed => passed = flags ||| Libc.msgDontwait ||| Libc.msgNosignal
  | .recvmsg _ _ passed => passed = flags ||| Libc.msgDontwait
  | .ready _ => flags &&& Libc.msgDontwait = 0
  | .write .payload .. | .pending => True
  | op => op.still = true

theorem transfers_of_still {op : Operation} (h : op.still = true) : Transfers flags op := by
  cases op with
  | sendmsg destination payload control flags => cases h
  | recvmsg capacity controlCapacity flags => cases h
  | ready receive => cases h
  | pending => trivial
  | write field tid pointer bytes =>
    cases field with
    | payload => trivial
    | _ => exact h
  | _ => exact h

theorem Still.transfers {α : Type} {p : Act α} (hp : p.Still) :
    p.run.Performs (Transfers flags) :=
  Performs.mono hp fun _ => transfers_of_still

theorem transfers_transferNow :
    (transferNow destination payload control flags receive).run.Performs (Transfers flags) := by
  unfold transferNow
  split
  next => exact ⟨rfl, fun _ => trivial⟩
  next => exact Performs.andThen ⟨rfl, fun _ => trivial⟩ fun _ => trivial

theorem transfers_writeVectors {vectors : List (UInt64 × Nat)} {bytes : List UInt8} :
    (Message.writeVectors tid vectors bytes).run.Performs (Transfers flags) := by
  induction vectors generalizing bytes with
  | nil => trivial
  | cons vector vectors ih =>
    refine Performs.andThen ⟨trivial, fun _ => trivial⟩ fun _ => ?_
    split
    next => trivial
    next => exact ih

theorem transfers_deliver {received : Received} :
    (deliver tid message received).run.Performs (Transfers flags) := by
  refine Performs.andThen ⟨rfl, fun _ => trivial⟩ fun _ => ?_
  refine Performs.andThen transfers_writeVectors fun _ => ?_
  exact Performs.andThen ⟨rfl, fun _ => trivial⟩ fun _ => Still.transfers Message.still_finish

theorem nonblocking_of_dontwait (h : flags &&& Libc.msgDontwait ≠ 0) :
    (nonblocking flags).run.Yields fun r => ∀ value, r = .ok value → value = true := by
  refine yields_last fun status => ?_
  rintro _ ⟨⟩
  simp [h]

theorem transfers_attempts :
    (attempts tid message destination payload control flags deadline receive attempted).run.Performs
      (Transfers flags) := by
  induction attempted with
  | zero => exact ⟨trivial, nofun⟩
  | succ attempted ih =>
    refine Performs.andThen ⟨rfl, fun _ => trivial⟩ fun _ => ?_
    refine Performs.andThen transfers_transferNow.attempt fun received => ?_
    cases received with
    | ok received =>
      refine Performs.andThen ?_ fun _ => trivial
      split
      next => exact transfers_deliver
      next => trivial
    | error error =>
      dsimp only
      split
      next =>
        by_cases hflags : flags &&& Libc.msgDontwait = 0
        · refine Performs.andThen (Still.transfers still_nonblocking) fun value => ?_
          refine Performs.andThen ?_ fun _ => ?_
          · split
            next => trivial
            next => exact Still.transfers still_expired
          · split
            next => trivial
            next => exact Performs.andThen ⟨hflags, fun _ => trivial⟩ fun _ => ih
        · refine Performs.andThenOf (Still.transfers still_nonblocking)
            (nonblocking_of_dontwait hflags) ?_
          rintro _ rfl
          exact trivial
      next =>
        split
        next => exact ih
        next => trivial

theorem transfers_transfer :
    (transfer attempted memory tid message flags deadline receive).run.Performs
      (Transfers flags) := by
  refine Performs.andThen trivial fun _ => ?_
  split
  next => trivial
  next =>
    refine Performs.andThen trivial fun _ => Performs.andThen trivial fun _ => ?_
    exact Performs.andThen (Still.transfers still_destination) fun _ => transfers_attempts

/-- What `transfer` does when the kernel has no datagram, or no room, yet. -/
def waits (flags : UInt32) (deadline : Option Nat) (receive : Bool) (error : IoError)
    (retry : Act Nat) : Act Nat := do
  let nonblocking ← nonblocking flags
  let expired ← (if nonblocking then pure false else expired deadline)
  if nonblocking || expired then throw error
  else do
    Act.ready receive
    retry

end Datagram

end Scproxy
