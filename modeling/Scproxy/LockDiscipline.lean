import Scproxy.TcpSystem

namespace Scproxy

open Interaction

/-- An operation that has nothing to do with the locks. -/
def TcpOperation.quiet : TcpOperation → Bool
  | getLock _ | lock _ | unlock _ | forget _ | stop => false
  | _ => true

/-- What a call has of a lock, between two operations. -/
inductive LockUse
  | none
  | refers (lock : Nat)
  | holds (lock : Nat)

/-- How `connect_tcp` uses the lock it gets. A call that ends has given it back. -/
def lockDiscipline : Discipline TcpOperation TcpOperation.Ret LockUse where
  rely := Eq
  rely_trans _ _ _ := Eq.trans
  guard
    | .getLock _, use | .stop, use => use = .none
    | .lock lock, use | .forget lock, use => use = .refers lock
    | .unlock lock, use => use = .holds lock
    | _, _ => True
  after
    | .getLock _, lock, _, use => use = .refers lock
    | .lock lock, acquired, _, use => use = if acquired then .holds lock else .refers lock
    | .unlock _, _, _, use | .forget _, _, _, use => use = .none
    | _, _, before, use => use = before

namespace TcpProgram

def KeepsLocks (program : TcpProgram) (use : LockUse) : Prop :=
  lockDiscipline.Spec (fun _ use => use = .none) program use

section KeepsLocks

variable {config : Config} {relay : SocketAddrV4} {use : LockUse} {lock : Nat}

theorem keepsLocks_perform {op : TcpOperation} {next : op.Ret → TcpProgram} :
    KeepsLocks (.perform op next) use ↔ lockDiscipline.guard op use ∧
      ∀ r use', lockDiscipline.after op r use use' → KeepsLocks (next r) use' := by
  constructor
  · intro h
    exact h use rfl
  · rintro h _ rfl
    exact h

theorem keepsLocks_quiet {op : TcpOperation} {next : op.Ret → TcpProgram}
    (hquiet : op.quiet = true) :
    KeepsLocks (.perform op next) use ↔ ∀ r, KeepsLocks (next r) use := by
  have hguard : lockDiscipline.guard op use := by
    cases op with
    | getLock _ | lock _ | unlock _ | forget _ | stop => cases hquiet
    | _ => trivial
  have hafter : ∀ r use', lockDiscipline.after op r use use' ↔ use' = use := by
    intro r use'
    cases op with
    | getLock _ | lock _ | unlock _ | forget _ | stop => cases hquiet
    | _ => exact Iff.rfl
  simp only [keepsLocks_perform, hguard, hafter, forall_eq, true_and]

theorem keepsLocks_stop : KeepsLocks stop .none :=
  keepsLocks_perform.mpr ⟨rfl, nofun⟩

theorem keepsLocks_release (lock : Nat) (result : Except IoError Reply) :
    KeepsLocks (release lock result) (.holds lock) :=
  keepsLocks_perform.mpr ⟨rfl, fun _ _ h => h⟩

theorem keepsLocks_releaseStopped (lock : Nat) :
    KeepsLocks (releaseStopped lock) (.holds lock) := by
  refine keepsLocks_perform.mpr ⟨rfl, ?_⟩
  rintro _ _ rfl
  exact keepsLocks_stop

theorem keepsLocks_runConnect {address : SocketAddrV4}
    {next : Option (Except IoError Unit) → TcpProgram} (h : ∀ r, KeepsLocks (next r) use) :
    KeepsLocks (runConnect address next) use := by
  refine (keepsLocks_quiet rfl).mpr fun r => ?_
  cases r with
  | error error => exact h _
  | ok _ => exact (keepsLocks_quiet rfl).mpr h

theorem keepsLocks_reconnect (locked : Locked) :
    KeepsLocks (reconnect locked) (.holds locked.lock) := by
  refine (keepsLocks_quiet rfl).mpr fun peer => ?_
  cases peer with
  | none => exact keepsLocks_release _ _
  | some peer =>
    refine keepsLocks_runConnect fun r => ?_
    cases r with
    | none => exact keepsLocks_releaseStopped _
    | some result => exact keepsLocks_release _ _

theorem keepsLocks_redirect (locked : Locked) (service : Service) :
    KeepsLocks (redirect relay locked service) (.holds locked.lock) := by
  refine (keepsLocks_quiet rfl).mpr fun _ => (keepsLocks_quiet rfl).mpr fun r => ?_
  cases r with
  | error error => exact (keepsLocks_quiet rfl).mpr fun _ => keepsLocks_release _ _
  | ok port =>
    refine keepsLocks_runConnect fun r => ?_
    cases r with
    | none => exact (keepsLocks_quiet rfl).mpr fun _ => keepsLocks_releaseStopped _
    | some result =>
      dsimp only
      split
      next => exact (keepsLocks_quiet rfl).mpr fun _ => keepsLocks_release _ _
      next =>
        refine (keepsLocks_quiet rfl).mpr fun _ => (keepsLocks_quiet rfl).mpr fun _ => ?_
        exact keepsLocks_release _ _

theorem keepsLocks_acquire (locked : Locked) (service : Service) :
    KeepsLocks (acquire relay locked service) (.holds locked.lock) := by
  refine (keepsLocks_quiet rfl).mpr fun permit => ?_
  cases permit with
  | false => exact keepsLocks_release _ _
  | true =>
    refine (keepsLocks_quiet rfl).mpr fun r => ?_
    cases r with
    | error error => exact keepsLocks_release _ _
    | ok _ => exact keepsLocks_redirect locked service

theorem keepsLocks_route (locked : Locked) (proxyTarget : ProxyTarget) :
    KeepsLocks (route config relay locked proxyTarget) (.holds locked.lock) := by
  unfold route
  dsimp only
  split
  next => exact keepsLocks_releaseStopped _
  next =>
    split
    next => exact keepsLocks_release _ _
    next => exact keepsLocks_acquire locked _

theorem keepsLocks_connect (locked : Locked) :
    KeepsLocks (connect config relay locked) (.holds locked.lock) := by
  refine (keepsLocks_quiet rfl).mpr fun _ => ?_
  split
  next => exact keepsLocks_route locked _
  next =>
    refine (keepsLocks_quiet rfl).mpr fun r => ?_
    cases r with
    | error error => exact keepsLocks_release _ _
    | ok proxyTarget => exact keepsLocks_route locked proxyTarget

theorem keepsLocks_checkState (locked : Locked) :
    KeepsLocks (checkState config relay locked) (.holds locked.lock) := by
  refine (keepsLocks_quiet rfl).mpr fun r => ?_
  cases r with
  | error error => exact keepsLocks_release _ _
  | ok _ =>
    refine (keepsLocks_quiet rfl).mpr fun r => ?_
    cases r with
    | error error => exact keepsLocks_release _ _
    | ok state =>
      dsimp only
      split
      next => exact keepsLocks_reconnect locked
      next => exact keepsLocks_connect locked

theorem keepsLocks_lockSocket (target : SocketAddrV4) :
    KeepsLocks (lockSocket config relay target) .none := by
  refine (keepsLocks_quiet rfl).mpr fun r => ?_
  cases r with
  | error error => exact rfl
  | ok cookie =>
    refine keepsLocks_perform.mpr ⟨rfl, ?_⟩
    rintro lock _ rfl
    refine keepsLocks_perform.mpr ⟨rfl, ?_⟩
    rintro acquired _ rfl
    cases acquired with
    | true => exact keepsLocks_checkState ⟨cookie, lock, target⟩
    | false =>
      refine keepsLocks_perform.mpr ⟨rfl, ?_⟩
      rintro _ _ rfl
      exact keepsLocks_stop

theorem keepsLocks_connectTcp (memory : Memory) (notification : Notification) :
    KeepsLocks (connectTcp config relay memory notification) .none := by
  unfold connectTcp
  dsimp only
  split
  next => exact rfl
  next =>
    split
    next => exact rfl
    next =>
      split
      next => exact rfl
      next target _ => exact keepsLocks_lockSocket target

end KeepsLocks

end TcpProgram

end Scproxy
