import Scproxy.LockDiscipline
import Scproxy.WeakTable

namespace Scproxy

open Interaction

/-- The calls of `connect_tcp` with `Broker.locks`. -/
structure SocketLocks where
  programs : Nat → Option TcpProgram
  locks : WeakTable UInt64

inductive LockEvent
  | begin (id : Nat) (memory : Memory) (notification : Notification)
  | operate (id : Nat)
  | cancel (id : Nat)
  | table (event : LockTableEvent UInt64)
  | leave (id : Nat)

namespace SocketLocks

open TcpProgram

def setProgram (s : SocketLocks) (id : Nat) (program : Option TcpProgram) : SocketLocks :=
  { s with programs := Function.update s.programs id program }

/-- The lookup of a lock and its release are several steps, and everything else
may come between them. The answers of the other operations may be any. -/
inductive Step (config : Config) (relay : SocketAddrV4) :
    LockEvent → SocketLocks → SocketLocks → Prop
  | begin {s : SocketLocks} {id : Nat} {memory : Memory} {notification : Notification}
    (hid : s.programs id = none) :
    Step config relay (.begin id memory notification) s
      (s.setProgram id (some (connectTcp config relay memory notification)))
  | operate {s : SocketLocks} {id : Nat} {op : TcpOperation} {next : op.Ret → TcpProgram}
    (r : op.Ret) (hid : s.programs id = some (.perform op next)) (hquiet : op.quiet = true) :
    Step config relay (.operate id) s (s.setProgram id (some (next r)))
  | look {s : SocketLocks} {id : Nat} {cookie : UInt64} {next : Nat → TcpProgram}
    {locks : WeakTable UInt64} (hid : s.programs id = some (.perform (.getLock cookie) next))
    (hlocks : WeakTable.Step (.look id cookie) s.locks locks) :
    Step config relay (.table (.look id cookie)) s { s with locks := locks }
  | inside {s : SocketLocks} {event : LockTableEvent UInt64} {id : Nat} {locks : WeakTable UInt64}
    (hevent : event ∈ [.upgrade id, .miss id, .create id, .insert id])
    (hlocks : WeakTable.Step event s.locks locks) :
    Step config relay (.table event) s { s with locks := locks }
  | exit {s : SocketLocks} {id lock : Nat} {cookie : UInt64} {next : Nat → TcpProgram}
    {locks : WeakTable UInt64} (hid : s.programs id = some (.perform (.getLock cookie) next))
    (hlocks : WeakTable.Step (.exit id lock) s.locks locks) :
    Step config relay (.table (.exit id lock)) s
      ({ s with locks := locks }.setProgram id (some (next lock)))
  | acquire {s : SocketLocks} {id lock : Nat} {next : Bool → TcpProgram} {locks : WeakTable UInt64}
    (hid : s.programs id = some (.perform (.lock lock) next))
    (hlocks : WeakTable.Step (.acquire id lock) s.locks locks) :
    Step config relay (.table (.acquire id lock)) s
      ({ s with locks := locks }.setProgram id (some (next true)))
  | cancel {s : SocketLocks} {id lock : Nat} {next : Bool → TcpProgram}
    (hid : s.programs id = some (.perform (.lock lock) next)) :
    Step config relay (.cancel id) s (s.setProgram id (some (next false)))
  | dropGuard {s : SocketLocks} {id lock : Nat} {next : Unit → TcpProgram}
    {locks : WeakTable UInt64} (hid : s.programs id = some (.perform (.unlock lock) next))
    (hlocks : WeakTable.Step (.dropGuard id lock) s.locks locks) :
    Step config relay (.table (.dropGuard id lock)) s { s with locks := locks }
  | unlock {s : SocketLocks} {id lock : Nat} {next : Unit → TcpProgram} {locks : WeakTable UInt64}
    (hid : s.programs id = some (.perform (.unlock lock) next))
    (hlocks : WeakTable.Step (.dropReference id lock) s.locks locks) :
    Step config relay (.table (.dropReference id lock)) s
      ({ s with locks := locks }.setProgram id (some (next ())))
  | forget {s : SocketLocks} {id lock : Nat} {next : Unit → TcpProgram} {locks : WeakTable UInt64}
    (hid : s.programs id = some (.perform (.forget lock) next))
    (hlocks : WeakTable.Step (.dropReference id lock) s.locks locks) :
    Step config relay (.table (.dropReference id lock)) s
      ({ s with locks := locks }.setProgram id (some (next ())))
  | leave {s : SocketLocks} {id : Nat} {program : TcpProgram} (hid : s.programs id = some program)
    (hends : (∃ result, program = .done result) ∨ program = stop) :
    Step config relay (.leave id) s (s.setProgram id none)
  | cleanup {s : SocketLocks} {event : LockTableEvent UInt64} {locks : WeakTable UInt64}
    (hevent : event.OfCleanup) (hlocks : WeakTable.Step event s.locks locks) :
    Step config relay (.table event) s { s with locks := locks }

def Initial (s : SocketLocks) : Prop :=
  (∀ id, s.programs id = none) ∧ (∀ id, s.locks.clients id = .away) ∧ s.locks.table = ∅ ∧
    s.locks.owner = none ∧ (∀ lock, s.locks.holders lock = none) ∧ s.locks.cleanup = .idle

end SocketLocks

def socketLocks (config : Config) (relay : SocketAddrV4) : Transition SocketLocks LockEvent where
  start := SocketLocks.Initial
  step := SocketLocks.Step config relay

namespace SocketLocks

open TcpProgram

/-- A program and what its client has of the locks agree. -/
def Fits (program : TcpProgram) : LockClient UInt64 → Prop
  | .away => program.KeepsLocks .none
  | .looking cookie | .missed cookie | .created cookie _ | .found cookie _ =>
    ∃ next, program = .perform (.getLock cookie) next ∧
      ∀ lock, KeepsLocks (next lock) (.refers lock)
  | .referring _ lock => program.KeepsLocks (.refers lock) ∨
    ∃ next, program = .perform (.unlock lock) next ∧ KeepsLocks (next ()) .none
  | .holding _ lock => program.KeepsLocks (.holds lock)

/-- A call that waits for a lock refers to it. -/
theorem Fits.waiting {client : LockClient UInt64} {lock : Nat} {next : Bool → TcpProgram}
    (h : Fits (.perform (.lock lock) next) client) :
    ∃ cookie, client = .referring cookie lock ∧
      ∀ acquired, KeepsLocks (next acquired) (if acquired then .holds lock else .refers lock) := by
  have hkeeps : ∀ {use}, KeepsLocks (.perform (.lock lock) next) use → use = .refers lock ∧
      ∀ acquired, KeepsLocks (next acquired) (if acquired then .holds lock else .refers lock) := by
    intro use hlock
    obtain ⟨hguard, hnext⟩ := keepsLocks_perform.mp hlock
    exact ⟨hguard, fun acquired => hnext acquired _ rfl⟩
  cases client with
  | away => cases (hkeeps h).1
  | looking _ | missed _ | created _ _ | found _ _ =>
    obtain ⟨_, heq, _⟩ := h
    cases heq
  | referring cookie _ =>
    rcases h with h | ⟨_, heq, _⟩
    · obtain ⟨heq, hnext⟩ := hkeeps h
      cases heq
      exact ⟨cookie, rfl, hnext⟩
    · cases heq
  | holding _ _ => cases (hkeeps h).1

theorem Fits.quiet {client : LockClient UInt64} {op : TcpOperation} {next : op.Ret → TcpProgram}
    (h : Fits (.perform op next) client) (hquiet : op.quiet = true) (r : op.Ret) :
    Fits (next r) client := by
  cases client with
  | away => exact (keepsLocks_quiet hquiet).mp h r
  | looking _ | missed _ | created _ _ | found _ _ =>
    obtain ⟨_, heq, _⟩ := h
    cases heq
    cases hquiet
  | referring _ _ =>
    rcases h with h | ⟨_, heq, _⟩
    · exact Or.inl ((keepsLocks_quiet hquiet).mp h r)
    · cases heq
      cases hquiet
  | holding _ _ => exact (keepsLocks_quiet hquiet).mp h r

/-- A call that ends has no lock. -/
theorem Fits.ended {client : LockClient UInt64} {program : TcpProgram} (h : Fits program client)
    (hends : (∃ result, program = .done result) ∨ program = stop) : client = .away := by
  have hnone : ∀ {use}, program.KeepsLocks use → use = .none := by
    intro use hkeeps
    rcases hends with ⟨result, rfl⟩ | rfl
    · exact hkeeps
    · exact (keepsLocks_perform.mp hkeeps).1
  have hnot : ∀ {op : TcpOperation} {next : op.Ret → TcpProgram}, program = .perform op next →
      op = .stop := by
    intro op next heq
    rcases hends with ⟨result, rfl⟩ | rfl
    · cases heq
    · cases heq
      rfl
  cases client with
  | away => rfl
  | looking _ | missed _ | created _ _ | found _ _ =>
    obtain ⟨_, heq, _⟩ := h
    cases hnot heq
  | referring _ _ =>
    rcases h with h | ⟨_, heq, _⟩
    · cases hnone h
    · cases hnot heq
  | holding _ _ => cases hnone h

/-- A call that has left has no lock. -/
def Agrees : Option TcpProgram → LockClient UInt64 → Prop
  | none, client => client = .away
  | some program, client => Fits program client

structure Valid (s : SocketLocks) : Prop where
  sound : s.locks.Sound
  agrees : ∀ id, Agrees (s.programs id) (s.locks.clients id)

section Step

variable {config : Config} {relay : SocketAddrV4} {s t : SocketLocks} {event : LockEvent} {id : Nat}

@[simp] theorem programs_setProgram (s : SocketLocks) (id : Nat) (program : Option TcpProgram) :
    (s.setProgram id program).programs id = program :=
  Function.update_self ..

theorem programs_setProgram_of_ne (s : SocketLocks) {id other : Nat} (h : other ≠ id)
    (program : Option TcpProgram) : (s.setProgram id program).programs other = s.programs other :=
  Function.update_of_ne h _ _

theorem Valid.fits (h : s.Valid) {program : TcpProgram} (hid : s.programs id = some program)
    {client : LockClient UInt64} (hclient : s.locks.clients id = client) : Fits program client := by
  have hagrees := h.agrees id
  rwa [hid, hclient] at hagrees

theorem Valid.running (h : s.Valid) {client : LockClient UInt64}
    (hclient : s.locks.clients id = client) (hne : client ≠ .away) :
    ∃ program, s.programs id = some program ∧ Fits program client := by
  cases hid : s.programs id with
  | none =>
    have hagrees := h.agrees id
    rw [hid] at hagrees
    exact absurd (hclient.symm.trans hagrees) hne
  | some program => exact ⟨program, rfl, h.fits hid hclient⟩

/-- A step of one call. -/
theorem Valid.advance (h : s.Valid) (id : Nat) (hsound : t.locks.Sound)
    (hothers : ∀ other, other ≠ id → t.programs other = s.programs other ∧
      t.locks.clients other = s.locks.clients other)
    (hid : Agrees (t.programs id) (t.locks.clients id)) : t.Valid := by
  refine ⟨hsound, fun other => ?_⟩
  by_cases heq : other = id
  · rw [heq]
    exact hid
  · obtain ⟨hprogram, hclient⟩ := hothers other heq
    rw [hprogram, hclient]
    exact h.agrees other

/-- A step of one call that leaves the locks as they are. -/
theorem Valid.proceed (h : s.Valid) {program : Option TcpProgram}
    (hid : Agrees program (s.locks.clients id)) : (s.setProgram id program).Valid := by
  refine h.advance id h.sound (fun other hne => ⟨programs_setProgram_of_ne s hne program, rfl⟩) ?_
  rw [programs_setProgram]
  exact hid

/-- A step of one call on the locks. -/
theorem Valid.useLocks (h : s.Valid) {event : LockTableEvent UInt64} {locks : WeakTable UInt64}
    (hlocks : WeakTable.Step event s.locks locks) (hevent : event.client? = some id)
    {client : LockClient UInt64} (hclient : locks.clients id = client) {program : TcpProgram}
    (hid : Fits program client) :
    ({ s with locks := locks }.setProgram id (some program)).Valid := by
  refine h.advance id (h.sound.step hlocks) (fun other hne => ?_) ?_
  · refine ⟨programs_setProgram_of_ne _ hne _, hlocks.clients_of_ne ?_⟩
    rw [hevent]
    exact fun heq => hne (Option.some.inj heq).symm
  · rw [programs_setProgram]
    exact hclient ▸ hid

/-- A step within an operation of a call. -/
theorem Valid.useLocksWithin (h : s.Valid) {event : LockTableEvent UInt64}
    {locks : WeakTable UInt64} (hlocks : WeakTable.Step event s.locks locks)
    (hevent : event.client? = some id) {client : LockClient UInt64}
    (hclient : locks.clients id = client) {program : TcpProgram}
    (hprogram : s.programs id = some program) (hid : Fits program client) :
    Valid { s with locks := locks } := by
  have hvalid := h.useLocks hlocks hevent hclient hid
  rwa [setProgram, show Function.update s.programs id (some program) = s.programs from by
    rw [← hprogram, Function.update_eq_self]] at hvalid

/-- The program stays at its lookup while its client is inside. -/
theorem Valid.stays (h : s.Valid) {event : LockTableEvent UInt64} {locks : WeakTable UInt64}
    {before after : LockClient UInt64} (hlocks : WeakTable.Step event s.locks locks)
    (hevent : event.client? = some id) (hbefore : s.locks.clients id = before)
    (hne : before ≠ .away) (hafter : locks.clients id = after)
    (hfits : ∀ program, Fits program before → Fits program after) :
    Valid { s with locks := locks } := by
  obtain ⟨program, hprogram, hold⟩ := h.running hbefore hne
  exact h.useLocksWithin hlocks hevent hafter hprogram (hfits program hold)

theorem Valid.step (h : s.Valid) (hstep : Step config relay event s t) : t.Valid := by
  cases hstep with
  | @begin _ id memory notification hid =>
    have hagrees := h.agrees id
    rw [hid] at hagrees
    refine h.proceed ?_
    rw [hagrees]
    exact keepsLocks_connectTcp memory notification
  | operate r hid hquiet => exact h.proceed ((h.fits hid rfl).quiet hquiet r)
  | cancel hid =>
    obtain ⟨cookie, hclient, hnext⟩ := (h.fits hid rfl).waiting
    refine h.proceed ?_
    rw [hclient]
    exact Or.inl (hnext false)
  | leave hid hends => exact h.proceed ((h.fits hid rfl).ended hends)
  | look hid hlocks =>
    obtain ⟨hclient, hclient'⟩ := hlocks.moves rfl
    obtain ⟨_, hnext⟩ := keepsLocks_perform.mp (h.fits hid hclient)
    exact h.useLocksWithin hlocks rfl hclient' hid ⟨_, rfl, fun lock => hnext lock _ rfl⟩
  | inside hevent hlocks =>
    rcases hevent with _ | ⟨_, _ | ⟨_, _ | ⟨_, _ | ⟨_, ⟨⟩⟩⟩⟩⟩
    · obtain ⟨cookie, lock, hbefore, hafter⟩ := hlocks.moves rfl
      exact h.stays hlocks rfl hbefore nofun hafter fun _ => id
    · obtain ⟨cookie, hbefore, hafter⟩ := hlocks.moves rfl
      exact h.stays hlocks rfl hbefore nofun hafter fun _ => id
    · obtain ⟨cookie, lock, hbefore, hafter⟩ := hlocks.moves rfl
      exact h.stays hlocks rfl hbefore nofun hafter fun _ => id
    · obtain ⟨cookie, lock, hbefore, hafter⟩ := hlocks.moves rfl
      exact h.stays hlocks rfl hbefore nofun hafter fun _ => id
  | exit hid hlocks =>
    obtain ⟨cookie, hclient, hclient'⟩ := hlocks.moves rfl
    obtain ⟨next, heq, hnext⟩ := h.fits hid hclient
    cases heq
    exact h.useLocks hlocks rfl hclient' (Or.inl (hnext _))
  | acquire hid hlocks =>
    obtain ⟨cookie, _, hclient'⟩ := hlocks.moves rfl
    obtain ⟨_, _, hnext⟩ := (h.fits hid rfl).waiting
    exact h.useLocks hlocks rfl hclient' (hnext true)
  | dropGuard hid hlocks =>
    obtain ⟨cookie, hclient, hclient'⟩ := hlocks.moves rfl
    obtain ⟨_, hnext⟩ := keepsLocks_perform.mp (h.fits hid hclient)
    exact h.useLocksWithin hlocks rfl hclient' hid (Or.inr ⟨_, rfl, hnext () _ rfl⟩)
  | unlock hid hlocks =>
    obtain ⟨cookie, hclient, hclient'⟩ := hlocks.moves rfl
    refine h.useLocks hlocks rfl hclient' ?_
    rcases h.fits hid hclient with hkeeps | ⟨_, heq, hnext⟩
    · cases (keepsLocks_perform.mp hkeeps).1
    · cases heq
      exact hnext
  | forget hid hlocks =>
    obtain ⟨cookie, hclient, hclient'⟩ := hlocks.moves rfl
    refine h.useLocks hlocks rfl hclient' ?_
    rcases h.fits hid hclient with hkeeps | ⟨_, heq, _⟩
    · exact (keepsLocks_perform.mp hkeeps).2 () _ rfl
    · cases heq
  | @cleanup _ event locks hevent hlocks =>
    have hnone : event.client? = none := by
      cases event with
      | startCleanup | check | remove | endCleanup => rfl
      | _ => exact hevent.elim
    refine ⟨h.sound.step hlocks, fun id => ?_⟩
    show Agrees (s.programs id) (locks.clients id)
    rw [hlocks.clients_of_ne (by rw [hnone]; nofun)]
    exact h.agrees id

theorem valid_of_reachable (h : (socketLocks config relay).Reachable s) : s.Valid := by
  refine h.invariant (fun s hs => ?_) fun _ _ _ hvalid _ hstep => hvalid.step hstep
  obtain ⟨hprograms, hclients, _, _, hholders, hcleanup⟩ := hs
  refine ⟨.of_away hclients hholders hcleanup, fun id => ?_⟩
  rw [hprograms]
  exact hclients id

theorem one_lock_for_a_socket (h : (socketLocks config relay).Reachable s) :
    (∀ id id' cookie lock lock', (s.locks.clients id).reference = some (cookie, lock) →
      (s.locks.clients id').reference = some (cookie, lock') → lock = lock') ∧
    (∀ id id' cookie lock lock', s.locks.clients id = .holding cookie lock →
      s.locks.clients id' = .holding cookie lock' → id = id') ∧
    ∀ event t cookie lock, event.OfCleanup →
      (socketLocks config relay).step (.table event) s t →
      s.locks.table.lookup cookie = some lock → t.locks.table.lookup cookie ≠ some lock →
      s.locks.holders lock = none ∧ ¬s.locks.Alive lock ∧
      ∀ id next, s.programs id ≠ some (.perform (.lock lock) next) := by
  have hvalid := valid_of_reachable h
  refine ⟨fun _ _ _ _ _ => hvalid.sound.same_lock, fun _ _ _ _ _ => hvalid.sound.one_holder, ?_⟩
  intro event t cookie lock hcleanup hstep hentry hgone
  have hlocks : WeakTable.Step event s.locks t.locks := by
    cases hstep with
    | cleanup _ hlocks => exact hlocks
    | inside hevent _ =>
      rcases hevent with _ | ⟨_, _ | ⟨_, _ | ⟨_, _ | ⟨_, ⟨⟩⟩⟩⟩⟩
      all_goals exact hcleanup.elim
    | _ => exact hcleanup.elim
  obtain ⟨hdead, hfree⟩ := hvalid.sound.removed hlocks hcleanup hentry hgone
  refine ⟨hfree, hdead, fun id next hwaits => ?_⟩
  obtain ⟨cookie', hclient, _⟩ := (hvalid.fits hwaits rfl).waiting
  exact hdead ⟨id, cookie', congrArg LockClient.reference hclient⟩

end Step

/-- Nothing has been called yet. -/
def initial : SocketLocks := ⟨fun _ => none, ⟨fun _ => .away, ∅, none, fun _ => none, .idle⟩⟩

theorem reachable_next {config : Config} {relay : SocketAddrV4} {s t : SocketLocks}
    {event : LockEvent} (h : (socketLocks config relay).Reachable s)
    (hstep : Step config relay event s t) : (socketLocks config relay).Reachable t :=
  .next event h trivial hstep

/-- One call holds the lock of a socket, and another one waits for it. -/
theorem one_lock_for_a_socket_contended :
    ∃ s, (socketLocks TcpSystem.proxied TcpSystem.ingressAddress).Reachable s ∧
      s.locks.clients 0 = .holding 9 3 ∧ s.locks.clients 1 = .found 9 3 ∧
      ∀ lock, (s.locks.clients 1).reference = some (9, lock) → lock = 3 := by
  have h0 : (socketLocks TcpSystem.proxied TcpSystem.ingressAddress).Reachable initial :=
    .start ⟨fun _ => rfl, fun _ => rfl, rfl, rfl, fun _ => rfl, rfl⟩
  have h1 := reachable_next h0 (@Step.begin _ _ _ 0
    (TcpSystem.holding (addressBytes TcpSystem.server)) (TcpSystem.connecting 16) rfl)
  have h2 := reachable_next h1 (@Step.operate _ _ _ 0 .cookie _ (.ok 9) rfl rfl)
  have h3 := reachable_next h2 (@Step.look _ _ _ 0 9 _ _ rfl (.look rfl rfl))
  have h4 := reachable_next h3 (@Step.inside _ _ _ (.miss 0) 0 _ (by simp) (.miss rfl nofun))
  have h5 := reachable_next h4 (@Step.inside _ _ _ (.create 0) 0 _ (by simp)
    (@WeakTable.Step.create _ _ _ 0 3 9 rfl (by
      rintro ⟨id, key, href⟩
      cases id with
      | zero => cases href
      | succ id => cases href) nofun))
  have h6 := reachable_next h5 (@Step.inside _ _ _ (.insert 0) 0 _ (by simp) (.insert rfl))
  have h7 := reachable_next h6 (@Step.exit _ _ _ 0 3 9 _ _ rfl (.exit rfl))
  have h8 := reachable_next h7 (@Step.acquire _ _ _ 0 3 _ _ rfl (.acquire rfl rfl))
  have h9 := reachable_next h8 (@Step.begin _ _ _ 1
    (TcpSystem.holding (addressBytes TcpSystem.server)) (TcpSystem.connecting 16) rfl)
  have h10 := reachable_next h9 (@Step.operate _ _ _ 1 .cookie _ (.ok 9) rfl rfl)
  have h11 := reachable_next h10 (@Step.look _ _ _ 1 9 _ _ rfl (.look rfl rfl))
  have h12 := reachable_next h11 (@Step.inside _ _ _ (.upgrade 1) 1 _ (by simp)
    (@WeakTable.Step.upgrade _ _ _ 1 3 9 rfl rfl ⟨0, 9, rfl⟩))
  exact ⟨_, h12, rfl, rfl, fun lock hlock => (one_lock_for_a_socket h12).1 1 0 9 lock 3 hlock rfl⟩

end SocketLocks

end Scproxy
