import Scproxy.TcpSystem

namespace Scproxy

/-- What a call knows of itself and of its socket: the peer entry, and whether
the socket is connected to the relay for another call. -/
structure PeerView where
  record : CallRecord
  entry : Option Peer
  foreign : Prop

/-- While a call holds the lock of its socket, the cleanup may drop an entry that
is not pending, and nothing else is done to the entry and the socket. -/
def PeerView.Later (v w : PeerView) : Prop :=
  w.record = v.record ∧ (v.record.holding = true →
    (w.entry = v.entry ∨ w.entry = none ∧ ∀ peer, v.entry = some peer → peer.pending = false) ∧
      (w.foreign → v.foreign))

theorem PeerView.Later.refl (v : PeerView) : v.Later v := ⟨rfl, fun _ => ⟨.inl rfl, id⟩⟩

theorem PeerView.Later.trans {u v w : PeerView} (huv : u.Later v) (hvw : v.Later w) :
    u.Later w := by
  obtain ⟨hrecord, huv⟩ := huv
  obtain ⟨hrecord', hvw⟩ := hvw
  refine ⟨hrecord'.trans hrecord, fun hholding => ?_⟩
  obtain ⟨hentry, hforeign⟩ := huv hholding
  obtain ⟨hentry', hforeign'⟩ := hvw (hrecord ▸ hholding)
  refine ⟨?_, fun h => hforeign (hforeign' h)⟩
  rcases hentry' with hsame | ⟨hnone, hsettled⟩
  · rw [hsame]
    exact hentry
  · rcases hentry with hsame | ⟨_, hsettled'⟩
    · exact .inr ⟨hnone, hsame ▸ hsettled⟩
    · exact .inr ⟨hnone, hsettled'⟩

/-- What the calls on a socket do to its peer entry. An entry is changed under
the lock, by a call for which the socket is not connected to the relay already. -/
def peerDiscipline (relay : SocketAddrV4) (socket : UInt64) (memory : Memory)
    (notification : Notification) : Discipline TcpOperation TcpOperation.Ret PeerView where
  rely := PeerView.Later
  rely_trans _ _ _ := PeerView.Later.trans
  guard
    | .getLock cookie, v => cookie = socket ∧ v.record.handle = none ∧ v.record.holding = false
    | .lock lock, v => v.record.handle = some lock ∧ v.record.foundOpen = false
    | .peer cookie, _ => cookie = socket
    | .removePeer cookie, v | .insertPeer cookie _ _, v =>
      cookie = socket ∧ v.record.holding = true ∧ v.record.settled = false ∧ ¬v.foreign
    | .register, v => v.record.registered = false
    | .connect address, v => v.record.holding = true ∧ v.record.settled = false ∧
      (v.record.foundOpen = true ∨ v.record.registered = true ∧ address = relay)
    | .settlePeer cookie, v => cookie = socket ∧ v.record.holding = true ∧
      v.record.settled = false ∧ ¬v.foreign ∧ ∃ target created,
        ConnectsTo memory notification target ∧ v.entry = some ⟨target, relay, created, true⟩
    | .unlock lock, v => v.record.handle = some lock ∧ v.record.holding = true
    | .forget _, v => v.record.holding = false
    | .stop, v => v.record.inserted = true → v.record.left = some none
    | _, _ => True
  after
    | .cookie, r, v, v' => v' = v ∧ ∀ cookie, r = .ok cookie → cookie = socket
    | .getLock _, r, v, v' => v'.record = { v.record with handle := some r }
    | .lock _, r, v, v' => v'.record = { v.record with holding := v.record.holding || r }
    | .state, r, v, v' => v'.record = { v.record with foundOpen := r.toOption.any (· != 7) } ∧
      v'.entry = v.entry ∧ (r = .ok 7 → ¬v'.foreign)
    | .peer _, r, v, v' => v' = v ∧ r = v.entry
    | .removePeer _, _, v, v' => v' = { v with entry := none }
    | .insertPeer _ target internal, _, v, v' => ∃ created, v' = { v with
        record := { v.record with inserted := true }
        entry := some ⟨target, internal, created, true⟩ }
    | .register, r, v, v' => v' = { v with record := { v.record with registered := r.isOk } }
    | .settlePeer _, _, v, v' => v'.record = { v.record with settled := true }
    | .unlock _, _, v, v' => v'.record = { v.record with
        handle := none
        holding := false
        left := some v.entry }
    | .forget _, _, v, v' => v'.record = { v.record with handle := none }
    | _, _, v, v' => v' = v

/-- What a call that ends has left behind. -/
structure Ends (memory : Memory) (notification : Notification) (result : Except IoError Reply)
    (record : CallRecord) : Prop where
  failed : record.inserted = true → ∀ error, result = .error error →
    error ≠ .os Errno.einprogress → record.left = some none
  continued : result = .ok .continueSyscall →
    Disconnects memory notification ∨ record.left = some none
  settled : record.registered = true →
    result = .ok (.value 0) ∨ result = .error (.os Errno.einprogress) → record.settled = true

namespace TcpProgram

/-- The program keeps to the discipline and ends well. -/
def Keeps (relay : SocketAddrV4) (socket : UInt64) (memory : Memory) (notification : Notification) :
    TcpProgram → PeerView → Prop :=
  (peerDiscipline relay socket memory notification).Spec fun result v =>
    Ends memory notification result v.record

section

variable {relay target : SocketAddrV4} {socket : UInt64} {memory : Memory}
  {notification : Notification} {lock : Nat} {w v : PeerView}

/-- The call holds the lock and has changed nothing. -/
def held (lock : Nat) : CallRecord := ⟨some lock, true, false, false, false, false, none⟩

/-- The call has found the socket open. -/
def heldOpen (lock : Nat) : CallRecord := ⟨some lock, true, true, false, false, false, none⟩

/-- The call has inserted its entry. -/
def entered (lock : Nat) (registered : Bool) : CallRecord :=
  ⟨some lock, true, false, true, registered, false, none⟩

/-- The entry of the call is in place. -/
def Entered (relay target : SocketAddrV4) (lock : Nat) (registered : Bool) (v : PeerView) : Prop :=
  v.record = entered lock registered ∧ ¬v.foreign ∧
    ∃ created, v.entry = some ⟨target, relay, created, true⟩

theorem later_none (hlater : w.Later v) (hholding : w.record.holding = true)
    (h : w.entry = none) : v.entry = none := by
  rcases (hlater.2 hholding).1 with hsame | ⟨hnone, _⟩
  · exact hsame.trans h
  · exact hnone

theorem Entered.later {registered : Bool} (h : Entered relay target lock registered w)
    (hlater : w.Later v) : Entered relay target lock registered v := by
  obtain ⟨hrecord, hforeign, created, hentry⟩ := h
  obtain ⟨hkept, hforeign'⟩ := hlater.2 (hrecord ▸ rfl)
  refine ⟨hlater.1.trans hrecord, fun hv => hforeign (hforeign' hv), created, ?_⟩
  rcases hkept with hsame | ⟨_, hsettled⟩
  · exact hsame.trans hentry
  · cases hsettled _ hentry

theorem peers_release {result : Except IoError Reply} (hhandle : w.record.handle = some lock)
    (hholding : w.record.holding = true)
    (h : ∀ v, w.Later v → Ends memory notification result { w.record with
      handle := none
      holding := false
      left := some v.entry }) :
    Keeps relay socket memory notification (release lock result) w := by
  intro v hv
  refine ⟨⟨hv.1 ▸ hhandle, hv.1 ▸ hholding⟩, ?_⟩
  intro _ v' hv'
  have hrecord : v'.record = { w.record with
      handle := none
      holding := false
      left := some v.entry } := by
    rw [hv', hv.1]
  change Ends memory notification result v'.record
  rw [hrecord]
  exact h v hv

/-- An error before an entry is inserted. -/
theorem peers_error {error : IoError} (hrecord : w.record = held lock) :
    Keeps relay socket memory notification (release lock (.error error)) w := by
  refine peers_release (hrecord ▸ rfl) (hrecord ▸ rfl) fun v _ => ?_
  rw [hrecord]
  exact ⟨fun h => (nomatch h), fun h => (nomatch h), fun h => (nomatch h)⟩

theorem peers_releaseStopped (hhandle : w.record.handle = some lock)
    (hholding : w.record.holding = true)
    (h : w.record.inserted = true → w.entry = none) :
    Keeps relay socket memory notification (releaseStopped lock) w := by
  intro v hv
  refine ⟨⟨hv.1 ▸ hhandle, hv.1 ▸ hholding⟩, ?_⟩
  intro _ v' hv' u hu
  have hrecord : u.record = { w.record with
      handle := none
      holding := false
      left := some v.entry } := by
    rw [hu.1, hv', hv.1]
  refine ⟨fun hinserted => ?_, nofun⟩
  rw [hrecord] at hinserted ⊢
  exact congrArg some (later_none hv hholding (h hinserted))

theorem peers_runConnect {address : SocketAddrV4}
    {next : Option (Except IoError Unit) → TcpProgram} (hholding : w.record.holding = true)
    (hsettled : w.record.settled = false)
    (hfresh : w.record.foundOpen = true ∨ w.record.registered = true ∧ address = relay)
    (hnext : ∀ r v, w.Later v → Keeps relay socket memory notification (next r) v) :
    Keeps relay socket memory notification (runConnect address next) w := by
  intro v hv
  refine ⟨trivial, ?_⟩
  rintro r _ rfl
  cases r with
  | error error => exact hnext _ _ hv
  | ok _ =>
    intro u hu
    have hlater := hv.trans hu
    refine ⟨⟨hlater.1 ▸ hholding, hlater.1 ▸ hsettled, hlater.1 ▸ hfresh⟩, ?_⟩
    rintro r _ rfl
    exact hnext r _ hlater

theorem peers_reconnect (locked : Locked) (hsocket : locked.cookie = socket)
    (hrecord : w.record = heldOpen locked.lock) :
    Keeps relay socket memory notification (reconnect locked) w := by
  intro v hv
  refine ⟨hsocket, ?_⟩
  rintro r _ ⟨rfl, hentry⟩
  have hvrecord := hv.1.trans hrecord
  cases r with
  | none =>
    refine peers_release (hvrecord ▸ rfl) (hvrecord ▸ rfl) fun u hu => ?_
    rw [hvrecord, later_none hu (hvrecord ▸ rfl) hentry.symm]
    exact ⟨fun h => (nomatch h), fun _ => .inr rfl, fun h => (nomatch h)⟩
  | some peer =>
    refine peers_runConnect (hvrecord ▸ rfl) (hvrecord ▸ rfl) (.inl (hvrecord ▸ rfl)) ?_
    intro r u hu
    have hurecord := hu.1.trans hvrecord
    cases r with
    | none =>
      refine peers_releaseStopped (hurecord ▸ rfl) (hurecord ▸ rfl) fun h => ?_
      rw [hurecord] at h
      cases h
    | some result =>
      refine peers_release (hurecord ▸ rfl) (hurecord ▸ rfl) fun x _ => ?_
      rw [hurecord]
      refine ⟨fun h => (nomatch h), fun h => ?_, fun h => (nomatch h)⟩
      cases result with
      | ok _ => cases h
      | error error => cases h

/-- After a rollback there is no entry. -/
theorem peers_rollback {registered : Bool} {locked : Locked} {next : TcpProgram}
    (hsocket : locked.cookie = socket) (h : Entered relay target locked.lock registered w)
    (hnext : ∀ v, v.record = entered locked.lock registered → v.entry = none →
      Keeps relay socket memory notification next v) :
    Keeps relay socket memory notification (rollback locked next) w := by
  intro v hv
  obtain ⟨hrecord, hforeign, _⟩ := h.later hv
  refine ⟨⟨hsocket, hrecord ▸ rfl, hrecord ▸ rfl, hforeign⟩, ?_⟩
  rintro _ _ rfl
  exact hnext _ hrecord rfl

/-- A failed connect leaves no entry. -/
theorem peers_rollback_failed {registered : Bool} {locked : Locked} {result : Except IoError Reply}
    (hsocket : locked.cookie = socket) (h : Entered relay target locked.lock registered w)
    (hresult : registered = true →
      ¬(result = .ok (.value 0) ∨ result = .error (.os Errno.einprogress))) :
    Keeps relay socket memory notification (rollback locked (release locked.lock result)) w := by
  refine peers_rollback hsocket h fun v hrecord hentry => ?_
  refine peers_release (hrecord ▸ rfl) (hrecord ▸ rfl) fun u hu => ?_
  rw [hrecord, later_none hu (hrecord ▸ rfl) hentry]
  exact ⟨fun _ _ _ _ => rfl, fun _ => .inr rfl, fun hr h => absurd h (hresult hr)⟩

theorem peers_launch {locked : Locked} {port : UInt16} {service : Service}
    {result : Except IoError Unit} (hsocket : locked.cookie = socket)
    (hconnects : ConnectsTo memory notification target)
    (h : Entered relay target locked.lock true w) (hresult : failed result = false) :
    Keeps relay socket memory notification (launch locked port service result) w := by
  intro v hv
  obtain ⟨hrecord, hforeign, created, hentry⟩ := h.later hv
  refine ⟨⟨hsocket, hrecord ▸ rfl, hrecord ▸ rfl, hforeign, target, created, hconnects, hentry⟩, ?_⟩
  intro _ v' hv' u hu
  have hurecord : u.record = { entered locked.lock true with settled := true } := by
    rw [hu.1, hv', hrecord]
  refine ⟨trivial, ?_⟩
  rintro _ _ rfl
  refine peers_release (hurecord ▸ rfl) (hurecord ▸ rfl) fun x _ => ?_
  rw [hurecord]
  cases result with
  | ok _ => exact ⟨fun _ _ h => (nomatch h), fun h => (nomatch h), fun _ _ => rfl⟩
  | error error =>
    refine ⟨fun _ _ he hne => ?_, fun h => (nomatch h), fun _ _ => rfl⟩
    cases he
    simp only [failed, bne_eq_false_iff_eq] at hresult
    exact absurd hresult hne

theorem peers_redirect {locked : Locked} {service : Service} (hsocket : locked.cookie = socket)
    (hconnects : ConnectsTo memory notification locked.target)
    (hrecord : w.record = held locked.lock) (hforeign : ¬w.foreign) :
    Keeps relay socket memory notification (redirect relay locked service) w := by
  intro v hv
  have hvrecord := hv.1.trans hrecord
  have hvforeign : ¬v.foreign := fun h => hforeign ((hv.2 (hrecord ▸ rfl)).2 h)
  refine ⟨⟨hsocket, hvrecord ▸ rfl, hvrecord ▸ rfl, hvforeign⟩, ?_⟩
  rintro _ _ ⟨created, rfl⟩
  have hentered : Entered relay locked.target locked.lock false { v with
      record := { v.record with inserted := true }
      entry := some ⟨locked.target, relay, created, true⟩ } := by
    refine ⟨?_, hvforeign, created, rfl⟩
    rw [hvrecord]
    rfl
  intro u hu
  have hu := hentered.later hu
  refine ⟨show u.record.registered = false from hu.1 ▸ rfl, ?_⟩
  rintro r _ rfl
  have hregistered : Entered relay locked.target locked.lock r.isOk
      { u with record := { u.record with registered := r.isOk } } := by
    refine ⟨?_, hu.2⟩
    rw [hu.1]
    rfl
  cases r with
  | error error => exact peers_rollback_failed hsocket hregistered fun h => (nomatch h)
  | ok port =>
    refine peers_runConnect (hregistered.1 ▸ rfl) (hregistered.1 ▸ rfl)
      (.inr ⟨hregistered.1 ▸ rfl, rfl⟩) fun r x hx => ?_
    have hx := hregistered.later hx
    cases r with
    | none =>
      refine peers_rollback hsocket hx fun y hyrecord hyentry => ?_
      exact peers_releaseStopped (hyrecord ▸ rfl) (hyrecord ▸ rfl) fun _ => hyentry
    | some result =>
      dsimp only
      split
      · next hfailed =>
        refine peers_rollback_failed hsocket hx fun _ h => ?_
        cases result with
        | ok _ => cases hfailed
        | error error =>
          rcases h with h | h
          · cases h
          · cases h
            cases hfailed
      · next hfailed =>
        exact peers_launch hsocket hconnects hx (Bool.not_eq_true _ ▸ hfailed)

theorem peers_acquire {locked : Locked} {service : Service} (hsocket : locked.cookie = socket)
    (hconnects : ConnectsTo memory notification locked.target)
    (hrecord : w.record = held locked.lock) (hforeign : ¬w.foreign) :
    Keeps relay socket memory notification (acquire relay locked service) w := by
  intro v hv
  refine ⟨trivial, ?_⟩
  rintro r _ rfl
  have hvrecord := hv.1.trans hrecord
  cases r with
  | false => exact peers_error hvrecord
  | true =>
    intro u hu
    refine ⟨trivial, ?_⟩
    rintro r _ rfl
    have hlater := hv.trans hu
    have hurecord := hlater.1.trans hrecord
    cases r with
    | error error => exact peers_error hurecord
    | ok _ =>
      exact peers_redirect hsocket hconnects hurecord fun h =>
        hforeign ((hlater.2 (hrecord ▸ rfl)).2 h)

theorem peers_route {config : Config} {locked : Locked} {proxyTarget : ProxyTarget}
    (hsocket : locked.cookie = socket) (hconnects : ConnectsTo memory notification locked.target)
    (hrecord : w.record = held locked.lock) (hforeign : ¬w.foreign) (hentry : w.entry = none) :
    Keeps relay socket memory notification (route config relay locked proxyTarget) w := by
  unfold route
  dsimp only
  split
  · refine peers_releaseStopped (hrecord ▸ rfl) (hrecord ▸ rfl) fun h => ?_
    rw [hrecord] at h
    cases h
  · split
    · refine peers_release (hrecord ▸ rfl) (hrecord ▸ rfl) fun v hv => ?_
      rw [hrecord, later_none hv (hrecord ▸ rfl) hentry]
      exact ⟨fun _ _ h => (nomatch h), fun _ => .inr rfl, fun h => (nomatch h)⟩
    · exact peers_acquire hsocket hconnects hrecord hforeign

theorem peers_connect {config : Config} {locked : Locked} (hsocket : locked.cookie = socket)
    (hconnects : ConnectsTo memory notification locked.target)
    (hrecord : w.record = held locked.lock) (hforeign : ¬w.foreign) :
    Keeps relay socket memory notification (connect config relay locked) w := by
  intro v hv
  have hvrecord := hv.1.trans hrecord
  have hvforeign : ¬v.foreign := fun h => hforeign ((hv.2 (hrecord ▸ rfl)).2 h)
  refine ⟨⟨hsocket, hvrecord ▸ rfl, hvrecord ▸ rfl, hvforeign⟩, ?_⟩
  rintro _ _ rfl
  dsimp only
  split
  · exact peers_route hsocket hconnects hvrecord hvforeign rfl
  · intro u hu
    refine ⟨trivial, ?_⟩
    rintro r _ rfl
    have hurecord := hu.1.trans hvrecord
    cases r with
    | error error => exact peers_error hurecord
    | ok proxyTarget =>
      exact peers_route hsocket hconnects hurecord
        (fun h => hvforeign ((hu.2 (hvrecord ▸ rfl)).2 h)) (later_none hu (hvrecord ▸ rfl) rfl)

theorem peers_checkState {config : Config} (locked : Locked) (hsocket : locked.cookie = socket)
    (hconnects : ConnectsTo memory notification locked.target)
    (hrecord : w.record = held locked.lock) :
    Keeps relay socket memory notification (checkState config relay locked) w := by
  intro v hv
  refine ⟨trivial, ?_⟩
  rintro r _ rfl
  have hvrecord := hv.1.trans hrecord
  cases r with
  | error error => exact peers_error hvrecord
  | ok _ =>
    intro u hu
    refine ⟨trivial, ?_⟩
    rintro r x ⟨hxrecord, _, hxforeign⟩
    rw [hu.1, hvrecord] at hxrecord
    cases r with
    | error error => exact peers_error hxrecord
    | ok state =>
      dsimp only
      split
      · next hstate =>
        refine peers_reconnect locked hsocket (hxrecord.trans ?_)
        simpa [Except.toOption, held, heldOpen] using hstate
      · next hstate =>
        have hclosed : state = 7 := not_not.mp hstate
        subst hclosed
        exact peers_connect hsocket hconnects hxrecord (hxforeign rfl)

theorem peers_lockSocket {config : Config} (hconnects : ConnectsTo memory notification target)
    (hrecord : w.record = .new) :
    Keeps relay socket memory notification (lockSocket config relay target) w := by
  intro v hv
  refine ⟨trivial, ?_⟩
  rintro r _ ⟨rfl, hcookie⟩
  have hvrecord := hv.1.trans hrecord
  cases r with
  | error error =>
    change Ends memory notification (.error error) _
    rw [hvrecord]
    exact ⟨fun h => (nomatch h), fun h => (nomatch h), fun h => (nomatch h)⟩
  | ok cookie =>
    have hsocket := hcookie cookie rfl
    intro u hu
    have hurecord := hu.1.trans hvrecord
    refine ⟨⟨hsocket, hurecord ▸ rfl, hurecord ▸ rfl⟩, ?_⟩
    intro lock x hx y hy
    have hyrecord : y.record = { CallRecord.new with handle := some lock } := by
      rw [hy.1, hx, hurecord]
    refine ⟨⟨hyrecord ▸ rfl, hyrecord ▸ rfl⟩, ?_⟩
    intro r z hz
    change z.record = _ at hz
    rw [hyrecord] at hz
    cases r with
    | false =>
      intro z' hz'
      have hzrecord := hz'.1.trans hz
      refine ⟨show z'.record.holding = false from hzrecord ▸ rfl, ?_⟩
      intro _ a ha b hb
      have hbrecord : b.record.inserted = false := by
        rw [hb.1, ha, hzrecord]
        rfl
      refine ⟨fun h => ?_, nofun⟩
      rw [hbrecord] at h
      cases h
    | true => exact peers_checkState ⟨cookie, lock, target⟩ hsocket hconnects hz

theorem peers_connectTcp {config : Config} (hrecord : w.record = .new) :
    Keeps relay socket memory notification (connectTcp config relay memory notification) w := by
  have hfails : ∀ error, Ends memory notification (.error error) w.record := by
    intro error
    rw [hrecord]
    exact ⟨fun h => (nomatch h), fun h => (nomatch h), fun h => (nomatch h)⟩
  unfold connectTcp
  dsimp only
  split
  · exact hfails _
  · next family hfamily =>
    split
    · next hunspec =>
      rw [hunspec] at hfamily
      refine ⟨fun _ _ h => (nomatch h), fun _ => .inl (disconnects_of_family hfamily), ?_⟩
      rw [hrecord]
      exact fun h => (nomatch h)
    · split
      · exact hfails _
      · next target htarget =>
        refine peers_lockSocket ?_ hrecord
        unfold ConnectsTo
        rw [low_of_family hfamily]
        exact htarget

end

end TcpProgram

end Scproxy
