import Scproxy.DatagramEffects

namespace Scproxy

open Interaction

/-- The bytes of a datagram go into one buffer after another, as far as they reach. -/
def scattered (tid : UInt32) : List (UInt64 × Nat) → List UInt8 → List Effect
  | [], _ => []
  | (pointer, length) :: vectors, bytes =>
    .stored tid pointer (bytes.take length) ::
      if bytes.drop length = [] then [] else scattered tid vectors (bytes.drop length)

namespace Message

/-- The name of the sender does not fit into the range of an `int`. -/
def Unnameable (message : Message) (error : IoError) : Prop :=
  message.name ≠ 0 ∧ 2 ^ 31 - 1 < message.nameLength.toNat ∧ error = .os Errno.einval

variable {message : Message} {tid : UInt32} {own : IoError → Prop}

theorem accomplishing_write (field : Field) (pointer : UInt64) (bytes : List UInt8)
    (h : ∀ r, (Operation.write field tid pointer bytes).effect r = none) :
    (Act.write field tid pointer bytes).Accomplishing [] own := by
  refine Act.accomplishing_operation (.write field tid pointer bytes) ?_ ?_
  · intro r _ _
    rw [h r]
    rfl
  · rintro _ error rfl
    exact ⟨h _, rfl⟩

theorem accomplishing_writeVectors (vectors : List (UInt64 × Nat)) (bytes : List UInt8) :
    (writeVectors tid vectors bytes).Accomplishing (scattered tid vectors bytes) own := by
  induction vectors generalizing bytes with
  | nil => exact Act.accomplishing_pure
  | cons vector vectors ih =>
    obtain ⟨pointer, length⟩ := vector
    have hwrite : (Act.write .payload tid pointer (bytes.take length)).Accomplishing
        [.stored tid pointer (bytes.take length)] own := by
      refine Act.accomplishing_operation (.write .payload tid pointer (bytes.take length)) ?_ ?_
      · rintro _ _ rfl
        rfl
      · rintro _ _ rfl
        exact ⟨rfl, rfl⟩
    have hrest : (if bytes.drop length = [] then pure () else
        writeVectors tid vectors (bytes.drop length) : Act Unit).Accomplishing
        (if bytes.drop length = [] then [] else scattered tid vectors (bytes.drop length)) own := by
      by_cases hdone : bytes.drop length = []
      · rw [if_pos hdone, if_pos hdone]
        exact Act.accomplishing_pure
      · rw [if_neg hdone, if_neg hdone]
        exact ih _
    exact hwrite.bind fun _ => hrest

theorem accomplishing_finish {source : SocketAddrV4} {control : List UInt8} {flags : UInt32} :
    (message.finish tid source control flags).Accomplishing [] message.Unnameable := by
  have hname : (message.finishName tid source).Accomplishing [] message.Unnameable := by
    unfold finishName Memory.putAddress
    split
    next hname =>
      split
      next hlength => exact Act.accomplishing_throw ⟨hname, hlength, rfl⟩
      next => exact accomplishing_write _ _ _ fun _ => rfl
    next => exact Act.accomplishing_pure
  have hlength : (message.finishLength tid).Accomplishing [] message.Unnameable := by
    unfold finishLength
    split
    next => exact accomplishing_write _ _ _ fun _ => rfl
    next => exact Act.accomplishing_pure
  refine hname.bind fun _ => hlength.bind fun _ => ?_
  split
  next =>
    refine (accomplishing_write _ _ _ fun _ => rfl).bind fun _ => ?_
    refine (accomplishing_write _ _ _ fun _ => rfl).bind fun _ => ?_
    refine (accomplishing_write _ _ _ fun _ => rfl).bind fun _ => ?_
    exact accomplishing_write _ _ _ fun _ => rfl
  next => exact Act.accomplishing_pure

end Message

namespace Datagram

open Act

variable {memory : Memory} {tid : UInt32} {message : Message} {flags : UInt32}
  {destination : SocketAddrV4} {payload control : List UInt8} {deadline : Option Nat}
  {receive : Bool} {attempted : Nat} {trace : List (Event Operation Operation.Ret)}
  {own : IoError → Prop}

theorem accomplishing_valid : Act.valid.Accomplishing [] own := by
  refine accomplishing_operation .valid (fun _ _ _ => rfl) ?_
  rintro _ error rfl
  exact ⟨rfl, rfl⟩

theorem accomplishing_originalServer {address : SocketAddrV4} :
    (Act.originalServer address).Accomplishing [] own := by
  refine accomplishing_operation (.originalServer address) (fun _ _ _ => rfl) ?_
  rintro _ _ ⟨⟩

theorem accomplishing_deliver {received : Received} :
    (deliver tid message received).Accomplishing
      (scattered tid message.vectors (received.payload.take received.length))
      message.Unnameable := by
  rw [← List.append_nil (scattered _ _ _)]
  refine accomplishing_valid.bind fun _ => ?_
  refine (Message.accomplishing_writeVectors _ _).bind fun _ => ?_
  exact accomplishing_originalServer.bind fun _ => Message.accomplishing_finish

/-- What a transfer does once the kernel has moved a datagram. -/
def handOver (tid : UInt32) (message : Message) (receive : Bool) (received : Received) : Act Unit :=
  if receive then deliver tid message received else pure ()

def handedOver (tid : UInt32) (message : Message) (receive : Bool) (received : Received) :
    List Effect :=
  if receive then scattered tid message.vectors (received.payload.take received.length) else []

theorem accomplishing_handOver {received : Received} :
    (handOver tid message receive received).Accomplishing
      (handedOver tid message receive received)
      fun error => receive = true ∧ message.Unnameable error := by
  cases receive with
  | false => exact accomplishing_pure
  | true => exact accomplishing_deliver.mono fun error h => ⟨rfl, h⟩

/-- The effects of a datagram that the kernel has moved. -/
def movedBy (tid : UInt32) (message : Message) (destination : SocketAddrV4)
    (payload control : List UInt8) (flags : UInt32) (receive : Bool) (received : Received) :
    List Effect :=
  (if receive then
    .received payload.length control.length (flags ||| Libc.msgDontwait) received
  else
    .sent destination payload control (flags ||| Libc.msgDontwait ||| Libc.msgNosignal)
      received.length) ::
    handedOver tid message receive received

theorem runs_transferNow {result : Except IoError Received}
    (hrun : Runs (transferNow destination payload control flags receive).run trace result) :
    (∃ received, result = .ok received ∧
      effects trace ++ handedOver tid message receive received =
        movedBy tid message destination payload control flags receive received) ∨
    ∃ error, result = .error error ∧ effects trace = [] ∧
      (failures trace).getLast? = some error := by
  cases receive with
  | true =>
    cases runs_single_iff.mp hrun
    cases result with
    | ok received => exact .inl ⟨received, rfl, rfl⟩
    | error error => exact .inr ⟨error, rfl, rfl, rfl⟩
  | false =>
    rcases runs_andThen.mp hrun with ⟨error, hsend, rfl⟩ | ⟨front, back, count, rfl, hsend, hdone⟩
    · cases runs_single_iff.mp hsend
      exact .inr ⟨error, rfl, rfl, rfl⟩
    · cases runs_single_iff.mp hsend
      obtain ⟨rfl, rfl⟩ := runs_done_iff.mp hdone
      exact .inl ⟨_, rfl, rfl⟩

theorem runs_expired {result : Except IoError Bool}
    (hrun : Runs (expired deadline).run trace result) :
    effects trace = [] ∧ failures trace = [] ∧ ∃ late, result = .ok late := by
  cases deadline with
  | none =>
    obtain ⟨rfl, rfl⟩ := runs_done_iff.mp hrun
    exact ⟨rfl, rfl, false, rfl⟩
  | some deadline =>
    obtain ⟨now, rest, rfl, hdone⟩ := runs_perform_iff.mp hrun
    obtain ⟨rfl, rfl⟩ := runs_done_iff.mp hdone
    exact ⟨rfl, rfl, _, rfl⟩

theorem runs_nonblocking {result : Except IoError Bool}
    (hrun : Runs (nonblocking flags).run trace result) :
    effects trace = [] ∧ ((∃ value, result = .ok value ∧ failures trace = []) ∨
      ∃ e, result = .error e ∧ (failures trace).getLast? = some e) := by
  rcases runs_andThen.mp hrun with ⟨e, hstatus, rfl⟩ | ⟨front, back, status, rfl, hstatus, hdone⟩
  · cases runs_single_iff.mp hstatus
    exact ⟨rfl, .inr ⟨e, rfl, rfl⟩⟩
  · cases runs_single_iff.mp hstatus
    obtain ⟨rfl, rfl⟩ := runs_done_iff.mp hdone
    exact ⟨rfl, .inl ⟨_, rfl, rfl⟩⟩

/-- The transfer gives up, or it tries again. -/
theorem runs_waits {error : IoError} {retry : Act Nat} {result : Except IoError Nat}
    (hrun : Runs (waits flags deadline receive error retry).run trace result) :
    (∃ e, result = .error e ∧ effects trace = [] ∧
      ((failures trace).getLast? = some e ∨ e = error ∧ failures trace = [])) ∨
    ∃ front back, trace = front ++ back ∧ effects front = [] ∧ Runs retry.run back result := by
  rcases runs_andThen.mp hrun with ⟨e, hstatus, rfl⟩ | ⟨first, rest, value, rfl, hstatus, hrest⟩
  · obtain ⟨hnone, ⟨_, heq, _⟩ | ⟨_, heq, hfailure⟩⟩ := runs_nonblocking hstatus
    · cases heq
    · cases heq
      exact .inl ⟨e, rfl, hnone, .inl hfailure⟩
  obtain ⟨hfirst, ⟨_, _, hfirstFailures⟩ | ⟨_, heq, _⟩⟩ := runs_nonblocking hstatus
  case inr => cases heq
  have hlater : ∀ {second : List (Event Operation Operation.Ret)} {late : Except IoError Bool},
      Runs (if value then pure false else expired deadline : Act Bool).run second late →
      effects second = [] ∧ failures second = [] ∧ ∃ b, late = .ok b := by
    intro second late hsecond
    split at hsecond
    next =>
      obtain ⟨rfl, rfl⟩ := runs_done_iff.mp hsecond
      exact ⟨rfl, rfl, false, rfl⟩
    next => exact runs_expired hsecond
  rcases runs_andThen.mp hrest with ⟨e, hexpired, _⟩ | ⟨second, last, late, rfl, hexpired, hlast⟩
  · obtain ⟨_, _, _, heq⟩ := hlater hexpired
    cases heq
  obtain ⟨hsecond, hsecondFailures, _⟩ := hlater hexpired
  split at hlast
  next =>
    obtain ⟨rfl, rfl⟩ := runs_done_iff.mp hlast
    refine .inl ⟨error, rfl, ?_, .inr ⟨rfl, ?_⟩⟩
    · rw [List.append_nil, effects_append, hfirst, hsecond, List.append_nil]
    · rw [List.append_nil, failures_append, hfirstFailures, hsecondFailures, List.append_nil]
  next =>
    rcases runs_andThen.mp hlast with ⟨e, hready, rfl⟩ | ⟨ready, back, _, rfl, hready, hback⟩
    · cases runs_single_iff.mp hready
      refine .inl ⟨e, rfl, ?_, .inl ?_⟩
      · rw [effects_append, effects_append, hfirst, hsecond]
        rfl
      · exact getLast?_failures_append (getLast?_failures_append rfl)
    · cases runs_single_iff.mp hready
      refine .inr ⟨first ++ (second ++ [⟨.ready receive, .ok ()⟩]), back, ?_, ?_, hback⟩
      · simp only [List.append_assoc]
      · rw [effects_append, effects_append, hfirst, hsecond]
        rfl

/-- A datagram was moved and handed over, or the transfer was stopped by an error. -/
structure Attempted (tid : UInt32) (message : Message) (destination : SocketAddrV4)
    (payload control : List UInt8) (flags : UInt32) (receive : Bool)
    (trace : List (Event Operation Operation.Ret)) (result : Except IoError Nat) : Prop where
  ok : ∀ length, result = .ok length → ∃ received : Received, received.length = length ∧
    effects trace = movedBy tid message destination payload control flags receive received
  error : ∀ e, result = .error e →
    (effects trace = [] ∨ ∃ received,
      effects trace <+: movedBy tid message destination payload control flags receive received) ∧
    ((failures trace).getLast? = some e ∨ receive = true ∧ message.Unnameable e)

theorem attempted_of_error {e : IoError} (heffects : effects trace = [])
    (hfailure : (failures trace).getLast? = some e) :
    Attempted tid message destination payload control flags receive trace (.error e) := by
  refine ⟨nofun, ?_⟩
  rintro _ ⟨⟩
  exact ⟨.inl heffects, .inl hfailure⟩

theorem Attempted.after {front back : List (Event Operation Operation.Ret)}
    {result : Except IoError Nat}
    (h : Attempted tid message destination payload control flags receive back result)
    (hfront : effects front = []) :
    Attempted tid message destination payload control flags receive (front ++ back) result := by
  have heffects : effects (front ++ back) = effects back := by
    rw [effects_append, hfront, List.nil_append]
  constructor
  · rw [heffects]
    exact h.ok
  · intro e he
    rw [heffects]
    exact (h.error e he).imp_right fun hblame => hblame.imp_left getLast?_failures_append

/-- The kernel has moved the datagram, and it is handed over as far as this goes. -/
theorem attempted_of_moved {front back : List (Event Operation Operation.Ret)} {received : Received}
    {result : Except IoError Nat}
    (hmoved : effects front ++ handedOver tid message receive received =
      movedBy tid message destination payload control flags receive received)
    (hrun : Runs (do handOver tid message receive received; pure received.length : Act Nat).run
      back result) :
    Attempted tid message destination payload control flags receive (front ++ back) result := by
  rcases runs_andThen.mp hrun with ⟨e, hfailed, rfl⟩ | ⟨third, fourth, _, rfl, hdone, hpure⟩
  · have hhand := accomplishing_handOver _ _ hfailed
    refine ⟨nofun, ?_⟩
    rintro _ ⟨⟩
    refine ⟨.inr ⟨received, ?_⟩, (hhand.blame e rfl).imp_left getLast?_failures_append⟩
    rw [← hmoved, effects_append]
    exact (List.prefix_append_right_inj _).mpr hhand.begins
  · obtain ⟨rfl, rfl⟩ := runs_done_iff.mp hpure
    have hhand := (accomplishing_handOver _ _ hdone).all () rfl
    refine ⟨?_, nofun⟩
    rintro _ ⟨⟩
    refine ⟨received, rfl, ?_⟩
    rw [List.append_nil, effects_append, hhand, hmoved]

/-- One attempt settles the transfer, or it moves nothing and another one follows. -/
theorem runs_attempts_succ {result : Except IoError Nat}
    (hrun : Runs (attempts tid message destination payload control flags deadline receive
      (attempted + 1)).run trace result) :
    Attempted tid message destination payload control flags receive trace result ∨
    ∃ front back, trace = front ++ back ∧ effects front = [] ∧
      Runs (attempts tid message destination payload control flags deadline receive
        attempted).run back result := by
  rcases runs_andThen.mp hrun with ⟨e, hvalid, rfl⟩ | ⟨first, rest, _, rfl, hvalid, hrest⟩
  · cases runs_single_iff.mp hvalid
    exact .inl (attempted_of_error rfl rfl)
  cases runs_single_iff.mp hvalid
  rcases runs_andThen.mp hrest with ⟨e, hattempt, _⟩ | ⟨second, last, received, rfl, hattempt, hlast⟩
  · obtain ⟨_, heq, _⟩ := runs_attempt.mp hattempt
    cases heq
  obtain ⟨_, heq, hnow⟩ := runs_attempt.mp hattempt
  cases heq
  rcases @runs_transferNow tid message _ _ _ _ _ _ _ hnow with
    ⟨received, rfl, hmoved⟩ | ⟨error, rfl, hnone, hfailure⟩
  · exact .inl (Attempted.after (attempted_of_moved hmoved hlast) rfl)
  · dsimp only at hlast
    split at hlast
    next =>
      rcases runs_waits hlast with ⟨e, rfl, hlater, hblame⟩ | ⟨front, back, rfl, hfront, hback⟩
      · refine .inl (Attempted.after (attempted_of_error ?_ ?_) rfl)
        · rw [effects_append, hnone, hlater, List.append_nil]
        · rcases hblame with hlast | ⟨rfl, hnothing⟩
          · exact getLast?_failures_append hlast
          · rw [failures_append, hnothing, List.append_nil, hfailure]
      · refine .inr ⟨[⟨.valid, .ok ()⟩] ++ (second ++ front), back, ?_, ?_, hback⟩
        · simp only [List.append_assoc]
        · rw [effects_append, effects_append, hnone, hfront]
          rfl
    next =>
      split at hlast
      next =>
        refine .inr ⟨[⟨.valid, .ok ()⟩] ++ second, last, ?_, ?_, hlast⟩
        · simp only [List.append_assoc]
        · rw [effects_append, hnone]
          rfl
      next =>
        obtain ⟨rfl, rfl⟩ := runs_done_iff.mp hlast
        rw [List.append_nil]
        exact .inl (Attempted.after (attempted_of_error hnone hfailure) rfl)

theorem runs_attempts {result : Except IoError Nat}
    (hrun : Runs (attempts tid message destination payload control flags deadline receive
      attempted).run trace result) :
    Attempted tid message destination payload control flags receive trace result := by
  induction attempted generalizing trace with
  | zero =>
    obtain ⟨r, _⟩ := runs_perform_iff.mp hrun
    exact r.elim
  | succ attempted ih =>
    rcases runs_attempts_succ hrun with hdone | ⟨front, back, rfl, hfront, hback⟩
    · exact hdone
    · exact (ih hback).after hfront

end Datagram

end Scproxy
