import Scproxy.DatagramSteps
import Scproxy.Engine

namespace Scproxy

open Interaction

/-- The operations of `dispatch` that are not handlers of their own. -/
def Operation.plain : Operation → Bool
  | .openFile | .tcp => false
  | _ => true

/-- Only plain operations are performed. -/
def Act.Plain {α : Type} (p : Act α) : Prop := p.run.Performs fun op => op.plain = true

/-- The reply does not say that an answer was sent. -/
def Act.Unsent (p : Act Reply) : Prop := p.run.Yields fun r => ∀ reply, r = .ok reply → reply ≠ .sent

namespace Act

variable {α β : Type}

theorem plain_operation (op : Operation) (h : op.plain = true) {next : op.Ret → Except IoError α} :
    Plain (ExceptT.mk (.perform op fun r => .done (next r))) :=
  ⟨h, fun _ => trivial⟩

theorem plain_done {r : Except IoError α} : Plain (ExceptT.mk (.done r)) := trivial

theorem Plain.bind {p : Act α} {f : α → Act β} (hp : p.Plain) (hf : ∀ a, (f a).Plain) :
    (p >>= f).Plain :=
  Performs.andThen hp hf

theorem unsent_last {p : Act α} {f : α → Act Reply} (hf : ∀ a, (f a).Unsent) : (p >>= f).Unsent :=
  yields_last hf

theorem unsent_pure {reply : Reply} (h : reply ≠ .sent) : Unsent (pure reply) := by
  rintro _ ⟨⟩
  exact h

theorem unsent_throw {error : IoError} : Unsent (throw error) := by
  rintro _ ⟨⟩

end Act

open Act

theorem Operation.plain_of_still {op : Operation} (h : op.still = true) : op.plain = true := by
  cases op with
  | openFile => cases h
  | tcp => cases h
  | _ => rfl

theorem Act.Still.plain {α : Type} {p : Act α} (hp : p.Still) : p.Plain :=
  Performs.mono hp fun _ => Operation.plain_of_still

theorem plain_peerName {arch : Arch} {memory : Memory} {notification : Notification}
    {address : SocketAddrV4} : (memory.peerName arch notification address).Plain := by
  unfold Memory.peerName
  refine plain_done.bind fun capacity => ?_
  split
  · exact plain_done
  · exact (still_putAddress fun _ => rfl).plain.bind fun _ => plain_operation (.write ..) rfl

namespace Datagram

variable {arch : Arch} {retries : Nat} {memory : Memory} {notification : Notification}

theorem plain_of_transfers {flags : UInt32} {op : Operation} (h : Transfers flags op) :
    op.plain = true := by
  cases op with
  | openFile => cases h
  | tcp => cases h
  | _ => rfl

theorem plain_transfer {tid : UInt32} {message : Message} {flags : UInt32} {deadline : Option Nat}
    {receive : Bool} : (transfer retries memory tid message flags deadline receive).Plain :=
  transfers_transfer.mono fun _ => plain_of_transfers

theorem plain_messages {deadline : Option Nat} (remaining index : Nat) :
    (messages arch retries memory notification deadline remaining index).Plain := by
  induction remaining generalizing index with
  | zero => exact plain_done
  | succ remaining ih =>
    unfold messages
    split
    · exact plain_done
    · refine Plain.bind (Performs.attempt (plain_done.bind fun _ => plain_transfer)) fun operation => ?_
      cases operation with
      | error error => exact plain_done
      | ok length =>
        dsimp only
        split
        · exact plain_done
        · refine (plain_operation .valid rfl).bind fun _ => ?_
          refine Plain.bind (plain_operation (.write ..) rfl).attempt fun written => ?_
          cases written with
          | error error => exact plain_done
          | ok _ => exact ih (index + 1)

theorem plain_dispatch : (dispatch arch retries memory notification).Plain := by
  unfold dispatch
  split
  · unfold connect
    refine plain_done.bind fun _ => ?_
    split
    · exact plain_done
    · refine plain_done.bind fun _ => (plain_operation (.serverFor _) rfl).bind fun _ => ?_
      refine (plain_operation .valid rfl).bind fun _ => ?_
      exact (plain_operation (.connect _) rfl).bind fun _ => plain_done
  · split
    · unfold peerName
      refine (plain_operation (.peerAddress _) rfl).bind fun _ => ?_
      refine (plain_operation (.originalServer _) rfl).bind fun original => ?_
      cases original with
      | none => exact plain_done
      | some original =>
        refine (plain_operation .valid rfl).bind fun _ => ?_
        exact plain_peerName.bind fun _ => plain_done
    · unfold transferAll
      refine (plain_operation .asyncFd rfl).bind fun _ => still_socketDeadline.plain.bind fun _ => ?_
      refine still_batchDeadline.plain.bind fun _ => (plain_messages _ _).bind fun out => ?_
      cases out with
      | inl reply => exact plain_done
      | inr progress =>
        refine still_settleTimeout.plain.bind fun _ => ?_
        split
        · exact plain_done
        · split
          · exact plain_done
          · exact plain_done

/-- What the loop over the messages ends with. -/
def Replies : Reply ⊕ Progress → Prop
  | .inl reply => reply ≠ .sent
  | .inr progress => progress.result ≠ .ok .sent

theorem yields_messages {deadline : Option Nat} (remaining index : Nat) :
    (messages arch retries memory notification deadline remaining index).run.Yields
      fun r => ∀ out, r = .ok out → Replies out := by
  induction remaining generalizing index with
  | zero =>
    rintro _ ⟨⟩
    exact fun h => nomatch h
  | succ remaining ih =>
    unfold messages
    split
    · rintro _ ⟨⟩
    · refine yields_last fun operation => ?_
      cases operation with
      | error error =>
        rintro _ ⟨⟩
        exact fun h => nomatch h
      | ok length =>
        dsimp only
        split
        · rintro _ ⟨⟩
          exact fun h => nomatch h
        · refine yields_last fun _ => yields_last fun written => ?_
          cases written with
          | error error =>
            rintro _ ⟨⟩
            exact fun h => nomatch h
          | ok _ => exact ih (index + 1)

theorem unsent_dispatch : (dispatch arch retries memory notification).Unsent := by
  unfold dispatch
  split
  · refine unsent_last fun _ => ?_
    split
    · exact unsent_pure (by simp)
    · exact unsent_last fun _ => unsent_last fun _ => unsent_last fun _ => unsent_last fun _ =>
        unsent_pure (by simp)
  · split
    · refine unsent_last fun _ => unsent_last fun original => ?_
      cases original with
      | none => exact unsent_pure (by simp)
      | some original => exact unsent_last fun _ => unsent_last fun _ => unsent_pure (by simp)
    · refine unsent_last fun _ => unsent_last fun _ => unsent_last fun _ => ?_
      refine Yields.andThen (yields_messages _ _) fun out hout => ?_
      cases out with
      | inl reply => exact unsent_pure hout
      | inr progress =>
        refine unsent_last fun _ => ?_
        split
        · exact unsent_pure (by simp)
        · split
          · exact unsent_pure (by simp)
          · rintro reply hreply rfl
            exact hout hreply

end Datagram

end Scproxy
