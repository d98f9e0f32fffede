import Scproxy.DatagramDiscipline

namespace Scproxy

open Discipline

/-- The message names an address that no DNS server has. -/
def Message.Refused (message : Message) (memory : Memory) (tid : UInt32) : Prop :=
  message.name ≠ 0 ∧ ∃ target,
    memory.ipv4 tid message.name message.nameLength.toUInt64 = .ok target ∧ target.port ≠ 53

/-- The address is the one a received answer has to be reported from. -/
def View.Reported (source : SocketAddrV4) (v : View) : Prop :=
  ∀ e, v.expected = some e → e = source

theorem stable_reported (source : SocketAddrV4) : View.Stable (View.Reported source) := by
  intro v v' hv h e he
  obtain ⟨_, _, _, hexpected⟩ := hv
  exact h e (hexpected.symm.trans he)

section

variable {w : View}

theorem safe_putAddress_source {tid : UInt32} {pointer : UInt64} {capacity : UInt32}
    {source : SocketAddrV4} (h : w.Reported source) :
    datagramDiscipline.Safe (fun _ _ => True)
      (Memory.putAddress (.source capacity) tid pointer capacity source) w := by
  unfold Memory.putAddress
  split
  next => exact Safe.throw
  next =>
    intro v hv
    refine ⟨?_, fun _ _ _ _ _ => trivial⟩
    intro e he
    rw [stable_reported source w v hv h e he]

theorem safe_write_field {field : Field} {tid : UInt32} {pointer : UInt64} {bytes : List UInt8}
    (h : (Operation.write field tid pointer bytes).quiet = true) :
    datagramDiscipline.Safe (fun _ _ => True) (Act.write field tid pointer bytes) w :=
  safe_quiet _ h stable_true trivial

theorem safe_finishName {message : Message} {tid : UInt32} {source : SocketAddrV4}
    (h : w.Reported source) :
    datagramDiscipline.Safe (fun _ _ => True) (message.finishName tid source) w := by
  unfold Message.finishName
  split
  next => exact safe_putAddress_source h
  next => exact Safe.pure trivial

theorem safe_finishLength {message : Message} {tid : UInt32} :
    datagramDiscipline.Safe (fun _ _ => True) (message.finishLength tid) w := by
  unfold Message.finishLength
  split
  next => exact safe_write_field rfl
  next => exact Safe.pure trivial

theorem safe_finish {message : Message} {tid : UInt32} {source : SocketAddrV4}
    {control : List UInt8} {flags : UInt32} (h : w.Reported source) :
    datagramDiscipline.Safe (fun _ _ => True) (message.finish tid source control flags) w := by
  unfold Message.finish
  refine Safe.bind (safe_finishName h) fun _ v _ => ?_
  refine Safe.bind safe_finishLength fun _ v _ => ?_
  split
  next =>
    refine Safe.bind (safe_write_field rfl) fun _ _ _ => ?_
    refine Safe.bind (safe_write_field rfl) fun _ _ _ => ?_
    refine Safe.bind (safe_write_field rfl) fun _ _ _ => ?_
    exact safe_write_field rfl
  next => exact Safe.pure trivial

theorem safe_writeVectors {P : View → Prop} (hP : View.Stable P) {tid : UInt32}
    (vectors : List (UInt64 × Nat)) (remaining : List UInt8) (h : P w) :
    datagramDiscipline.Safe (fun _ v => P v) (Message.writeVectors tid vectors remaining) w := by
  induction vectors generalizing remaining w with
  | nil => exact Safe.pure h
  | cons vector vectors ih =>
    obtain ⟨pointer, length⟩ := vector
    unfold Message.writeVectors
    refine Safe.bind (safe_quiet (.write .payload tid pointer (remaining.take length)) rfl hP h)
      fun _ v hv => ?_
    split
    next => exact Safe.pure hv
    next => exact ih _ hv

namespace Datagram

theorem safe_deliver {tid : UInt32} {message : Message} {received : Received}
    (h : w.Answered received.source) :
    datagramDiscipline.Safe (fun _ _ => True) (deliver tid message received) w := by
  have hstable := stable_answered received.source
  unfold deliver
  refine Safe.bind (safe_quiet .valid rfl hstable h) fun _ v hv => ?_
  refine Safe.bind (safe_writeVectors hstable message.vectors _ hv) fun _ v hv => ?_
  refine Safe.bind (safe_originalServer received.source hstable hv) fun original v hv => ?_
  obtain ⟨hanswered, horiginal⟩ := hv
  apply safe_finish
  intro e he
  rw [horiginal, hanswered e he]
  rfl

/-- A send needs a destination that stands for the named address; a datagram
received comes with a source that stands for the address of its query. -/
theorem spec_transferNow {destination : SocketAddrV4} {payload control : List UInt8}
    {flags : UInt32} {receive : Bool} (h : receive = false → w.Aimed destination) :
    datagramDiscipline.Spec
      (fun r v => (receive = false → v.Aimed destination) ∧
        ∀ received, r = .ok received → receive = true → v.Answered received.source)
      (transferNow destination payload control flags receive).run w := by
  cases receive with
  | true =>
    intro v hv
    refine ⟨trivial, fun r v' hr => ?_⟩
    constructor
    · intro hf
      cases hf
    · intro received hreceived _
      exact hr.2.2 received hreceived
  | false =>
    intro v hv
    have haimed := stable_aimed destination w v hv (h rfl)
    refine ⟨haimed, fun r v' hr => ?_⟩
    rw [hr]
    cases r with
    | error e => exact ⟨fun _ => haimed, fun _ _ hf => nomatch hf⟩
    | ok n => exact ⟨fun _ => haimed, fun _ _ hf => nomatch hf⟩

theorem safe_expired {P : View → Prop} (hP : View.Stable P) (deadline : Option Nat) (h : P w) :
    datagramDiscipline.Safe (fun _ v => P v) (expired deadline) w := by
  cases deadline with
  | none => exact Safe.pure h
  | some deadline =>
    refine Safe.bind (safe_quiet .now rfl hP h) fun now v hv => ?_
    exact Safe.pure hv

theorem safe_nonblocking {P : View → Prop} (hP : View.Stable P) (flags : UInt32) (h : P w) :
    datagramDiscipline.Safe (fun _ v => P v) (nonblocking flags) w := by
  refine Safe.bind (safe_quiet .nonblocking rfl hP h) fun status v hv => ?_
  exact Safe.pure hv

theorem safe_attempts {tid : UInt32} {message : Message} {destination : SocketAddrV4}
    {payload control : List UInt8} {flags : UInt32} {deadline : Option Nat} {receive : Bool}
    (retries : Nat) (h : receive = false → w.Aimed destination) :
    datagramDiscipline.Safe (fun _ _ => True)
      (attempts tid message destination payload control flags deadline receive retries) w := by
  have hstable : View.Stable fun v => receive = false → v.Aimed destination :=
    fun v v' hv hsend hr => stable_aimed destination v v' hv (hsend hr)
  induction retries generalizing w with
  | zero => exact fun v hv => ⟨trivial, fun r => nomatch r⟩
  | succ retries ih =>
    unfold attempts
    refine Safe.bind (safe_quiet .valid rfl hstable h) fun _ v hv => ?_
    refine Safe.bind (Spec.attempt (spec_transferNow hv)) fun r v hr => ?_
    obtain ⟨hsend, hreceive⟩ := hr
    cases r with
    | ok received =>
      refine Safe.bind (R := fun _ _ => True) ?_ fun _ v _ => ?_
      rotate_left
      · exact Safe.pure trivial
      split
      next hr => exact safe_deliver (hreceive received rfl hr)
      next => exact Safe.pure trivial
    | error error =>
      dsimp only
      split
      next =>
        refine Safe.bind (safe_nonblocking hstable flags hsend) fun nonblocking v hv => ?_
        refine Safe.bind (R := fun _ v => receive = false → View.Aimed destination v) ?_
          fun expired v hv => ?_
        · split
          next => exact Safe.pure hv
          next => exact safe_expired hstable deadline hv
        · split
          next => exact Safe.throw
          next => exact Safe.bind (safe_quiet (.ready receive) rfl hstable hv) fun _ v hv => ih hv
      next =>
        split
        next => exact ih hsend
        next => exact Safe.throw

theorem safe_destination {memory : Memory} {tid : UInt32} {message : Message} {receive : Bool} :
    datagramDiscipline.Safe
      (fun address v => receive = false → v.Aimed address ∧ ¬message.Refused memory tid)
      (destination memory tid message receive) w := by
  unfold destination
  split
  next hr =>
    apply Safe.pure
    intro hf
    rw [hr] at hf
    cases hf
  next =>
    split
    next hname =>
      refine Safe.bind safe_ofExcept fun target v htarget => ?_
      refine (safe_serverFor target).weaken ?_
      intro address v haimed _
      obtain ⟨haimed, hport⟩ := haimed
      refine ⟨haimed, fun hrefused => ?_⟩
      obtain ⟨_, target', htarget', hne⟩ := hrefused
      rw [htarget] at htarget'
      cases htarget'
      exact hne hport
    next hname =>
      refine Safe.bind (Spec.attempt (spec_peerAddress false)) fun r v hr => ?_
      cases r with
      | error error => exact Safe.throw
      | ok address =>
        refine Safe.bind (safe_originalServer address (stable_aimed address) (hr address rfl))
          fun original v hv => ?_
        cases original with
        | none => exact Safe.throw
        | some original =>
          exact Safe.pure fun _ => ⟨hv.1, fun hrefused => hname hrefused.1⟩

theorem safe_transfer {retries : Nat} {memory : Memory} {tid : UInt32} {message : Message}
    {flags : UInt32} {deadline : Option Nat} {receive : Bool} :
    datagramDiscipline.Safe (fun _ _ => receive = false → ¬message.Refused memory tid)
      (transfer retries memory tid message flags deadline receive) w := by
  unfold transfer
  refine Safe.bind safe_ofExcept fun capacity v _ => ?_
  split
  next => exact Safe.throw
  next =>
    refine Safe.bind safe_ofExcept fun payload v _ => ?_
    refine Safe.bind safe_ofExcept fun control v _ => ?_
    refine Safe.bind safe_destination fun destination v hv => ?_
    exact (safe_attempts retries fun hr => (hv hr).1).weaken fun _ _ _ hr => (hv hr).2

end Datagram

end

end Scproxy
