import Scproxy.Hoare
import Scproxy.IoError
import Scproxy.Net

namespace Scproxy

/-- The part of an application's TCP socket that binding reads and changes;
`noPort` is `IP_BIND_ADDRESS_NO_PORT`. -/
structure BoundSocket where
  source : SocketAddrV4
  noPort : Bool
  deriving DecidableEq

/-- What the kernel makes of a bind to an address with port 0. A failing one
claims no port, and may forget the address that was bound. -/
inductive BindOutcome
  | bound (port : UInt16) (nonzero : port ≠ 0)
  | failed (error : IoError) (reset : Bool)

/-- What the kernel answers to the calls of `prepare`, in their order. -/
structure PrepareOs where
  setOption : Nat → Except IoError Unit
  bind : Nat → BindOutcome

namespace TcpBind

def deferPort (answer : Except IoError Unit) (enabled : Bool) : Prog BoundSocket IoError Unit :=
  fun s =>
    match answer with
    | .ok () => (.ok (), { s with noPort := enabled })
    | .error error => (.error error, s)

/-- A port is assigned at once unless that is deferred. -/
def bind (outcome : BindOutcome) (source : SocketAddrV4) : Prog BoundSocket IoError Unit :=
  fun s =>
    match outcome with
    | .bound port _ =>
      (.ok (), { s with source := ⟨source.ip, if s.noPort then 0 else port⟩ })
    | .failed error reset =>
      (.error error,
        { s with source := ⟨if reset then .unspecified else s.source.ip, s.source.port⟩ })

def address : Prog BoundSocket IoError SocketAddrV4 := do
  let s ← .get
  pure s.source

def optionInt : Prog BoundSocket IoError Bool := do
  let s ← .get
  pure s.noPort

/-- Restore the address without claiming another port, then the option. -/
def restore (os : PrepareOs) (source : SocketAddrV4) (delayed : Bool) :
    Prog BoundSocket IoError Unit := do
  let restored ← Prog.attempt do
    deferPort (os.setOption 1) true
    bind (os.bind 1) source
  let optionRestored ← Prog.attempt (deferPort (os.setOption 2) delayed)
  Prog.ofExcept restored
  Prog.ofExcept optionRestored

def prepare (os : PrepareOs) : Prog BoundSocket IoError UInt16 := do
  let source ← address
  if source.port ≠ 0 then pure source.port
  else do
    let delayed ← optionInt
    (if delayed then deferPort (os.setOption 0) false else pure ())
    let bound ← Prog.attempt (bind (os.bind 0) source)
    match bound with
    | .error _ => restore os source delayed
    | .ok () => if delayed then deferPort (os.setOption 1) delayed else pure ()
    Prog.ofExcept bound
    let reserved ← address
    if reserved.port = 0 then Prog.fail (.os Errno.eaddrnotavail) else pure reserved.port

variable {os : PrepareOs} {s : BoundSocket}

theorem prepare_reserved (h : s.source.port ≠ 0) : prepare os s = (.ok s.source.port, s) := by
  show (if s.source.port ≠ 0 then _ else _ : Prog _ _ _) s = _
  rw [if_pos h]
  rfl

theorem deferPort_of_ok {answer : Except IoError Unit} (h : answer = .ok ()) (enabled : Bool) :
    deferPort answer enabled s = (.ok (), { s with noPort := enabled }) := by
  rw [h]
  rfl

theorem bind_of_bound {outcome : BindOutcome} {port : UInt16} {nonzero : port ≠ 0}
    (h : outcome = .bound port nonzero) (source : SocketAddrV4) :
    bind outcome source s =
      (.ok (), { s with source := ⟨source.ip, if s.noPort then 0 else port⟩ }) := by
  rw [h]
  rfl

/-- The address comes back with the option on, so no port is claimed. -/
theorem restore_of_bound (set : ∀ i, os.setOption i = .ok ()) {port : UInt16} {nonzero : port ≠ 0}
    (h : os.bind 1 = .bound port nonzero) (source : SocketAddrV4) (delayed : Bool) :
    restore os source delayed s = (.ok (), ⟨⟨source.ip, 0⟩, delayed⟩) := by
  have hrestored : (do
      deferPort (os.setOption 1) true
      bind (os.bind 1) source : Prog BoundSocket IoError Unit) s =
        (.ok (), ⟨⟨source.ip, 0⟩, true⟩) :=
    (Prog.bind_of_ok (deferPort_of_ok (set 1) true)).trans (bind_of_bound h source)
  have hoption := deferPort_of_ok (s := ⟨⟨source.ip, 0⟩, true⟩) (set 2) delayed
  rw [restore, Prog.bind_of_ok (Prog.attempt_of_eq hrestored),
    Prog.bind_of_ok (Prog.attempt_of_eq hoption)]
  rfl

/-- Delayed allocation is off when the port is reserved. -/
theorem disable_of_ok (set : ∀ i, os.setOption i = .ok ()) :
    (if s.noPort then deferPort (os.setOption 0) false else pure () :
      Prog BoundSocket IoError Unit) s = (.ok (), { s with noPort := false }) := by
  obtain ⟨source, noPort⟩ := s
  cases noPort with
  | false => rfl
  | true => exact deferPort_of_ok (set 0) false

theorem prepare_of_bind (set : ∀ i, os.setOption i = .ok ()) (h : s.source.port = 0)
    {bound : Except IoError Unit} {t : BoundSocket}
    (hbind : bind (os.bind 0) s.source { s with noPort := false } = (bound, t)) :
    prepare os s = (do
      match bound with
      | .error _ => restore os s.source s.noPort
      | .ok () => if s.noPort then deferPort (os.setOption 1) s.noPort else pure ()
      Prog.ofExcept bound
      let reserved ← address
      if reserved.port = 0 then Prog.fail (.os Errno.eaddrnotavail) else pure reserved.port :
        Prog BoundSocket IoError UInt16) t := by
  have haddress : address s = (.ok s.source, s) := rfl
  have hoption : optionInt s = (.ok s.noPort, s) := rfl
  rw [prepare, Prog.bind_of_ok haddress, if_neg (not_not.mpr h), Prog.bind_of_ok hoption,
    Prog.bind_of_ok (disable_of_ok set), Prog.bind_of_ok (Prog.attempt_of_eq hbind)]

theorem prepare_bound (set : ∀ i, os.setOption i = .ok ()) (h : s.source.port = 0) {port : UInt16}
    {nonzero : port ≠ 0} (hbind : os.bind 0 = .bound port nonzero) :
    prepare os s = (.ok port, { s with source := ⟨s.source.ip, port⟩ }) := by
  rw [prepare_of_bind set h (bind_of_bound hbind s.source)]
  have hlast : ∀ t : BoundSocket, t.source.port = port →
      (do
        let reserved ← address
        if reserved.port = 0 then Prog.fail (.os Errno.eaddrnotavail) else pure reserved.port :
          Prog BoundSocket IoError UInt16) t = (.ok port, t) := by
    rintro t rfl
    exact congrFun (if_neg nonzero) t
  obtain ⟨source, noPort⟩ := s
  cases noPort with
  | false => exact hlast _ rfl
  | true =>
    have hoption := deferPort_of_ok (s := ⟨⟨source.ip, port⟩, false⟩) (set 1) true
    exact (Prog.bind_of_ok hoption).trans (hlast _ rfl)

theorem prepare_failed (set : ∀ i, os.setOption i = .ok ()) (h : s.source.port = 0)
    {error : IoError} {reset : Bool} (hbind : os.bind 0 = .failed error reset) {port : UInt16}
    {nonzero : port ≠ 0} (hrestore : os.bind 1 = .bound port nonzero) :
    prepare os s = (.error error, s) := by
  have hfailed : ∃ t, bind (os.bind 0) s.source { s with noPort := false } = (.error error, t) := by
    rw [hbind]
    exact ⟨_, rfl⟩
  obtain ⟨t, hfailed⟩ := hfailed
  have hsource : (⟨⟨s.source.ip, 0⟩, s.noPort⟩ : BoundSocket) = s := by rw [← h]
  rw [prepare_of_bind set h hfailed]
  refine (Prog.bind_of_ok (restore_of_bound set hrestore s.source s.noPort)).trans ?_
  rw [hsource]
  rfl

/-- Without a reserved port only a successful reservation succeeds. -/
theorem prepare_error (set : ∀ i, os.setOption i = .ok ()) (h : s.source.port = 0)
    {error : IoError} {reset : Bool} (hbind : os.bind 0 = .failed error reset) :
    ∃ e t, prepare os s = (.error e, t) := by
  have hfailed : ∃ t, bind (os.bind 0) s.source { s with noPort := false } = (.error error, t) := by
    rw [hbind]
    exact ⟨_, rfl⟩
  obtain ⟨t, hfailed⟩ := hfailed
  rw [prepare_of_bind set h hfailed]
  rcases hrestore : restore os s.source s.noPort t with ⟨e | _, u⟩
  · exact ⟨e, u, Prog.bind_of_error hrestore⟩
  · exact ⟨error, u, Prog.bind_of_ok hrestore⟩

theorem prepare_reserves_or_restores (os : PrepareOs) (set : ∀ i, os.setOption i = .ok ())
    (s : BoundSocket) :
    (∀ port t, prepare os s = (.ok port, t) → port ≠ 0 ∧
      t = { s with source := ⟨s.source.ip, port⟩ } ∧
      (s.source.port ≠ 0 → port = s.source.port)) ∧
    (s.source.port ≠ 0 ∨ (∃ port nonzero, os.bind 0 = .bound port nonzero) →
      ∃ port t, prepare os s = (.ok port, t)) ∧
    ∀ error reset, s.source.port = 0 → os.bind 0 = .failed error reset →
      (∃ port nonzero, os.bind 1 = .bound port nonzero) →
      prepare os s = (.error error, s) ∧
      ∀ later : PrepareOs, (∀ i, later.setOption i = .ok ()) →
        ∀ port nonzero, later.bind 0 = .bound port nonzero →
          prepare later s = (.ok port, { s with source := ⟨s.source.ip, port⟩ }) := by
  refine ⟨?_, ?_, ?_⟩
  · intro port t hprepare
    by_cases hport : s.source.port = 0
    · rcases hbind : os.bind 0 with ⟨assigned, nonzero⟩ | ⟨error, reset⟩
      · rw [prepare_bound set hport hbind] at hprepare
        cases hprepare
        exact ⟨nonzero, rfl, fun hne => absurd hport hne⟩
      · obtain ⟨e, u, herror⟩ := prepare_error set hport hbind
        rw [herror] at hprepare
        cases hprepare
    · rw [prepare_reserved hport] at hprepare
      cases hprepare
      exact ⟨hport, rfl, fun _ => rfl⟩
  · intro h
    by_cases hport : s.source.port = 0
    · obtain ⟨port, nonzero, hbind⟩ := h.resolve_left (not_not.mpr hport)
      exact ⟨_, _, prepare_bound set hport hbind⟩
    · exact ⟨_, _, prepare_reserved hport⟩
  · rintro error reset hport hbind ⟨port, nonzero, hrestore⟩
    exact ⟨prepare_failed set hport hbind hrestore,
      fun later hset port nonzero hlater => prepare_bound hset hport hlater⟩

/-- No port is free, and the failed bind has forgotten the bound address. -/
def exhausted : PrepareOs where
  setOption _ := .ok ()
  bind
    | 0 => .failed (.os Errno.eaddrinuse) true
    | _ => .bound 40000 (by decide)

theorem prepare_exhausted :
    prepare exhausted ⟨⟨.new 127 0 0 2, 0⟩, true⟩ =
      (.error (.os Errno.eaddrinuse), ⟨⟨.new 127 0 0 2, 0⟩, true⟩) :=
  ((prepare_reserves_or_restores exhausted (fun _ => rfl) ⟨⟨.new 127 0 0 2, 0⟩, true⟩).2.2
    (.os Errno.eaddrinuse) true rfl rfl ⟨40000, by decide, rfl⟩).1

end TcpBind

end Scproxy
