import Scproxy.IngressSystem
import Scproxy.OutboundTask

namespace Scproxy

/-- What a connect call or a relay task owns. -/
structure Holding where
  permit : Bool
  registration : Option Registration

namespace Holding

def nothing : Holding := ⟨false, none⟩

def permitted : Holding := ⟨true, none⟩

def both (registration : Registration) : Holding := ⟨true, some registration⟩

/-- The entry of the table that the registration made. -/
def entry (holding : Holding) : Option (UInt16 × Nat) :=
  holding.registration.map fun registration => (registration.port, registration.fd)

end Holding

/-- A registration is made under a permit and dropped before it, and nothing is owned while
a connection is served. -/
def ownership : Discipline OwnerOperation OwnerOperation.Ret Holding where
  rely w v := v = w
  rely_trans _ _ _ huv hvw := hvw.trans huv
  guard
    | .tcp .acquire, w | .tcp .stop, w | .serveDns, w | .relay, w => w = .nothing
    | .tcp .register, w | .upstream _, w | .dropPermit, w => w = .permitted
    | .tcp (.spawn task), w => ∃ registration, registration.port = task.port ∧ w = .both registration
    | .accept, w | .dropRegistration, w => ∃ registration, w = .both registration
    | _, _ => True
  after
    | .tcp .acquire, acquired, w, w' => w' = { w with permit := acquired }
    | .tcp .register, .ok port, w, w' =>
      ∃ registration, registration.port = port ∧ w' = { w with registration := some registration }
    | .tcp (.spawn _), _, _, w' => w' = .nothing
    | .dropRegistration, _, w, w' => w' = { w with registration := none }
    | .dropPermit, _, w, w' => w' = { w with permit := false }
    | _, _, w, w' => w' = w

/-- The program keeps to the order of its drops and leaves nothing behind. -/
def OwnerKeeps {α : Type} : OwnerProgram α → Holding → Prop :=
  ownership.Spec fun _ w => w = .nothing

namespace OwnedCall

theorem keeps_stop : OwnerKeeps stop .nothing := by
  intro v hv
  exact ⟨hv, nofun⟩

theorem keeps_release (lock : Nat) (result : Except IoError Reply) :
    OwnerKeeps (release lock result) .nothing := by
  intro v hv
  exact ⟨trivial, fun _ v' hv' => hv'.trans hv⟩

theorem keeps_releaseStopped (lock : Nat) : OwnerKeeps (releaseStopped lock) .nothing := by
  intro v hv
  refine ⟨trivial, fun _ v' hv' => ?_⟩
  have hnothing : v' = .nothing := hv'.trans hv
  rw [hnothing]
  exact keeps_stop

theorem keeps_dropPermit {next : Program} (h : OwnerKeeps next .nothing) :
    OwnerKeeps (dropPermit next) .permitted := by
  rintro v rfl
  refine ⟨rfl, fun _ v' hv' => ?_⟩
  cases hv'
  exact h

theorem keeps_rollback {locked : Locked} {next : Program} (h : OwnerKeeps next .nothing) :
    OwnerKeeps (rollback locked next) .permitted := by
  rintro v rfl
  refine ⟨trivial, fun _ v' hv' => ?_⟩
  cases hv'
  exact keeps_dropPermit h

theorem keeps_rollbackRegistered {locked : Locked} {next : Program} {registration : Registration}
    (h : OwnerKeeps next .nothing) :
    OwnerKeeps (rollbackRegistered locked next) (.both registration) := by
  rintro v rfl
  refine ⟨⟨registration, rfl⟩, fun _ v' hv' => ?_⟩
  cases hv'
  exact keeps_rollback h

theorem keeps_runConnect {address : SocketAddrV4} {next : Option (Except IoError Unit) → Program}
    {w : Holding} (h : ∀ result, OwnerKeeps (next result) w) :
    OwnerKeeps (runConnect address next) w := by
  rintro v rfl
  refine ⟨trivial, fun valid v' hv' => ?_⟩
  cases hv'
  cases valid with
  | error error => exact h _
  | ok _ =>
    rintro v rfl
    refine ⟨trivial, fun result v' hv' => ?_⟩
    cases hv'
    exact h result

theorem keeps_launch (locked : Locked) (service : Service) (result : Except IoError Unit)
    (registration : Registration) :
    OwnerKeeps (launch locked registration.port service result) (.both registration) := by
  rintro v rfl
  refine ⟨trivial, fun _ v' hv' => ?_⟩
  cases hv'
  rintro v rfl
  refine ⟨⟨registration, rfl, rfl⟩, fun _ v' hv' => ?_⟩
  cases hv'
  exact keeps_release _ _

theorem keeps_redirect (relay : SocketAddrV4) (locked : Locked) (service : Service) :
    OwnerKeeps (redirect relay locked service) .permitted := by
  rintro v rfl
  refine ⟨trivial, fun _ v' hv' => ?_⟩
  cases hv'
  rintro v rfl
  refine ⟨rfl, fun registered v' hv' => ?_⟩
  cases registered with
  | error error =>
    cases hv'
    exact keeps_rollback (keeps_release _ _)
  | ok port =>
    obtain ⟨registration, rfl, rfl⟩ := hv'
    refine keeps_runConnect fun result => ?_
    cases result with
    | none => exact keeps_rollbackRegistered (keeps_releaseStopped _)
    | some result =>
      dsimp only
      split
      next => exact keeps_rollbackRegistered (keeps_release _ _)
      next => exact keeps_launch locked service result registration

theorem keeps_acquire (relay : SocketAddrV4) (locked : Locked) (service : Service) :
    OwnerKeeps (acquire relay locked service) .nothing := by
  rintro v rfl
  refine ⟨rfl, fun acquired v' hv' => ?_⟩
  cases hv'
  cases acquired with
  | false => exact keeps_release _ _
  | true =>
    rintro v rfl
    refine ⟨trivial, fun valid v' hv' => ?_⟩
    cases hv'
    cases valid with
    | error error => exact keeps_dropPermit (keeps_release _ _)
    | ok _ => exact keeps_redirect relay locked service

end OwnedCall

theorem keeps_serving {op : OwnerOperation} {next : op.Ret → OwnerProgram Unit}
    (hop : op = .serveDns ∨ op = .relay) (hnext : ∀ r, next r = .done ()) :
    OwnerKeeps (.perform op next) .nothing := by
  rintro v rfl
  rcases hop with rfl | rfl
  · refine ⟨rfl, fun r v' hv' => ?_⟩
    rw [hnext r]
    exact hv'
  · refine ⟨rfl, fun r v' hv' => ?_⟩
    rw [hnext r]
    exact hv'

/-- The task gets the registration and the permit, and returns them on every path. -/
theorem Service.keeps_task (service : Service) (registration : Registration) :
    OwnerKeeps service.task (.both registration) := by
  cases service with
  | dns =>
    rintro v rfl
    refine ⟨⟨registration, rfl⟩, fun accepted v' hv' => ?_⟩
    cases hv'
    rintro v rfl
    refine ⟨⟨registration, rfl⟩, fun _ v' hv' => ?_⟩
    cases hv'
    rintro v rfl
    refine ⟨rfl, fun _ v' hv' => ?_⟩
    cases hv'
    split
    next => exact keeps_serving (Or.inl rfl) fun _ => rfl
    next => rfl
  | outbound target route =>
    rintro v rfl
    refine ⟨⟨registration, rfl⟩, fun accepted v' hv' => ?_⟩
    cases hv'
    rintro v rfl
    refine ⟨⟨registration, rfl⟩, fun _ v' hv' => ?_⟩
    cases hv'
    split
    next =>
      rintro v rfl
      refine ⟨rfl, fun connected v' hv' => ?_⟩
      cases hv'
      rintro v rfl
      refine ⟨rfl, fun _ v' hv' => ?_⟩
      cases hv'
      split
      next => exact keeps_serving (Or.inr rfl) fun _ => rfl
      next => rfl
    next =>
      rintro v rfl
      refine ⟨rfl, fun _ v' hv' => ?_⟩
      cases hv'
      rfl

end Scproxy
