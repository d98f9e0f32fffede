import Scproxy.Environment
import Scproxy.Memory
import Scproxy.StdParse
import Scproxy.TextLines

namespace Scproxy

namespace Errno

def ebadf : Nat := 9

end Errno

/-- How a descriptor is reached. -/
inductive AccessMethod
  | thread
  | process
  deriving DecidableEq

/-- The system calls of `SocketAccess::get` and the check of the notification. A pidfd is
known by the thread that it names, a descriptor by its open file. -/
inductive AccessOperation
  | pidfdOpen (tid : UInt32) (flags : UInt32)
  | pidfdGetfd (pidfd : Nat) (fd : Int)
  | status (tid : UInt32)
  | kcmp (tid : UInt32) (duplicate : Nat) (fd : Int)
  | valid

abbrev AccessOperation.Ret : AccessOperation → Type
  | pidfdOpen _ _ | pidfdGetfd _ _ => Except IoError Nat
  | status _ => Except IoError String
  | kcmp _ _ _ => Except IoError Int
  | valid => Except IoError Bool

abbrev Access := ExceptT IoError (Interaction AccessOperation AccessOperation.Ret)

namespace SocketAccess

def pidfdThread : UInt32 := 0x80

def ofExcept {α : Type} (e : Except IoError α) : Access α := ExceptT.mk (.done e)

def pidfdOpen (tid flags : UInt32) : Access Nat := do
  ofExcept (Memory.checkTid tid)
  ExceptT.mk (.perform (.pidfdOpen tid flags) .done)

def pidfdGetfd (pidfd : Nat) (fd : Int) : Access Nat :=
  ExceptT.mk (.perform (.pidfdGetfd pidfd fd) .done)

/-- The first line that begins with the tag decides. -/
def parseThreadGroup (status : String) : Except IoError UInt32 :=
  match ((textLines status).findSome? (stripPrefix "Tgid:")).bind fun value =>
      (parseUnsigned (2 ^ 32 - 1) (trim value)).toOption with
  | some tgid =>
    if 0 < tgid ∧ tgid ≤ 2 ^ 31 - 1 then .ok (UInt32.ofNat tgid) else .error (.simple .invalidData)
  | none => .error (.simple .invalidData)

def threadGroup (tid : UInt32) : Access UInt32 := do
  let status ← ExceptT.mk (.perform (.status tid) .done)
  ofExcept (parseThreadGroup status)

def verifyFile (tid : UInt32) (fd : Int) (duplicate : Nat) : Access Unit := do
  let result ← ExceptT.mk (.perform (.kcmp tid duplicate fd) .done)
  if result ≠ 0 then ofExcept (.error (.os Errno.eopnotsupp)) else pure ()

/-- `SocketAccess::get`. -/
def get (method : AccessMethod) (tid : UInt32) (fd : Int) : Access Nat := do
  ofExcept (Memory.checkTid tid)
  if fd < 0 then ofExcept (.error (.os Errno.ebadf))
  else
    match method with
    | .thread => do
      let pidfd ← pidfdOpen tid pidfdThread
      pidfdGetfd pidfd fd
    | .process => do
      let tgid ← threadGroup tid
      let pidfd ← pidfdOpen tgid 0
      let duplicate ← pidfdGetfd pidfd fd
      verifyFile tid fd duplicate
      pure duplicate

/-- `Broker::valid`. -/
def valid : Access Unit := do
  let pending ← ExceptT.mk (.perform .valid .done)
  if pending then pure () else ofExcept (.error (.os Errno.eintr))

/-- How `dispatch` gets the socket of a notification. -/
def socket (method : AccessMethod) (tid : UInt32) (fd : Int) : Access Nat := do
  let duplicate ← get method tid fd
  valid
  pure duplicate

end SocketAccess

/-- The threads and their descriptors at one moment: who has an identifier, and which open
file a thread has at a descriptor. `pending` says that the notification still waits. -/
structure ThreadWorld where
  thread : UInt32 → Option Nat
  file : Nat → Int → Option Nat
  pending : Bool

/-- The moments of a call, up to now. -/
structure Moments where
  past : List ThreadWorld
  now : ThreadWorld

namespace Moments

def worlds (m : Moments) : List ThreadWorld := m.past ++ [m.now]

/-- The thread that made the notification keeps its identifier while the notification waits,
and a notification that no longer waits never does so again. -/
structure Lawful (tid : UInt32) (caller : Nat) (m : Moments) : Prop where
  blocked : ∀ world ∈ m.worlds, world.pending = true → world.thread tid = some caller
  once : m.worlds.Pairwise fun earlier later => later.pending = true → earlier.pending = true

/-- What an answer says about the moment at which it was given. -/
def Answers (now : ThreadWorld) : (op : AccessOperation) → op.Ret → Prop
  | .pidfdOpen tid _, .ok thread => now.thread tid = some thread
  | .pidfdGetfd thread fd, .ok file => now.file thread fd = some file
  | .kcmp tid duplicate fd, .ok result =>
    result = 0 → ∃ thread, now.thread tid = some thread ∧ now.file thread fd = some duplicate
  | .valid, .ok pending => pending = now.pending
  | _, _ => True

/-- Between any two system calls every thread may open, close and replace descriptors, and
threads may come and go. -/
def discipline (tid : UInt32) (caller : Nat) :
    Discipline AccessOperation AccessOperation.Ret Moments where
  rely w v := (∃ more, v.worlds = w.worlds ++ more) ∧ v.Lawful tid caller
  rely_trans _ _ _ := by
    rintro ⟨⟨more, huv⟩, _⟩ ⟨⟨rest, hvw⟩, hlawful⟩
    exact ⟨⟨more ++ rest, by rw [hvw, huv, List.append_assoc]⟩, hlawful⟩
  guard _ _ := True
  after op r w v := v = w ∧ Answers w.now op r

/-- The thread had the file at the descriptor at a moment at which the notification waited. -/
def Held (caller : Nat) (fd : Int) (m : Moments) (file : Nat) : Prop :=
  ∃ world ∈ m.worlds, world.pending = true ∧ world.file caller fd = some file

end Moments

namespace Moments

variable {tid : UInt32} {caller : Nat} {fd : Int} {w v : Moments}

theorem now_mem (m : Moments) : m.now ∈ m.worlds := List.mem_append_right _ (List.mem_singleton_self _)

theorem mem_of_rely (h : (discipline tid caller).rely w v) {world : ThreadWorld}
    (hworld : world ∈ w.worlds) : world ∈ v.worlds := by
  obtain ⟨⟨more, hmore⟩, _⟩ := h
  rw [hmore]
  exact List.mem_append_left more hworld

/-- A notification that waits has waited at every moment. -/
theorem Lawful.pending_of_now (h : v.Lawful tid caller) (hpending : v.now.pending = true)
    {world : ThreadWorld} (hworld : world ∈ v.worlds) : world.pending = true := by
  rcases List.mem_append.mp hworld with hpast | hnow
  · have hpairs := (List.pairwise_append.mp h.once).2.2
    exact hpairs world hpast v.now (List.mem_singleton_self _) hpending
  · rw [List.mem_singleton.mp hnow]
    exact hpending

/-- If the notification still waits later, the thread has held the file. -/
def Supports (tid : UInt32) (caller : Nat) (fd : Int) (v : Moments) (file : Nat) : Prop :=
  ∀ u, (discipline tid caller).rely v u → u.now.pending = true → Held caller fd u file

theorem supports_of_thread {earlier : ThreadWorld} {thread file : Nat} (hmem : earlier ∈ v.worlds)
    (hthread : earlier.thread tid = some thread) (hfile : v.now.file thread fd = some file) :
    Supports tid caller fd v file := by
  intro u hu hpending
  have hearlier := mem_of_rely hu hmem
  have hnow := mem_of_rely hu v.now_mem
  have hcaller := hu.2.blocked earlier hearlier (hu.2.pending_of_now hpending hearlier)
  have heq : thread = caller := Option.some.inj (hthread.symm.trans hcaller)
  refine ⟨v.now, hnow, hu.2.pending_of_now hpending hnow, ?_⟩
  rw [← heq]
  exact hfile

end Moments

namespace SocketAccess

open Moments

variable {α β : Type} {tid : UInt32} {caller : Nat} {fd : Int}

def Ensures (tid : UInt32) (caller : Nat) (Q : Except IoError α → Moments → Prop) (p : Access α)
    (w : Moments) : Prop :=
  (discipline tid caller).Spec Q p.run w

/-- Nothing needs to be known about the first part. -/
theorem ensures_andThen {p : Access α} {f : α → Access β} {w : Moments}
    {Q : Except IoError β → Moments → Prop} (herror : ∀ e v, Q (.error e) v)
    (hok : ∀ a v, Ensures tid caller Q (f a) v) : Ensures tid caller Q (p >>= f) w := by
  apply Discipline.Spec.andThen
  refine Discipline.Spec.of_forall (fun _ _ => trivial) (fun r v => ?_) p.run w
  exact ⟨fun a _ => hok a v, fun e _ => herror e v⟩

/-- A duplicate is of a file that the notifying thread has held, if it still waits. -/
def Duplicates (tid : UInt32) (caller : Nat) (fd : Int) (result : Except IoError Nat)
    (v : Moments) : Prop :=
  ∀ file, result = .ok file → Supports tid caller fd v file

theorem ensures_get_thread (w : Moments) :
    Ensures tid caller (Duplicates tid caller fd)
      (do let pidfd ← pidfdOpen tid pidfdThread; pidfdGetfd pidfd fd) w := by
  apply Discipline.Spec.andThen
  refine ensures_andThen (fun _ _ => ⟨nofun, fun _ _ => nofun⟩) fun _ w' => ?_
  intro v _
  refine ⟨trivial, fun opened v' hv' => ?_⟩
  obtain ⟨rfl, hopened⟩ := hv'
  refine ⟨fun thread hthread => ?_, fun _ _ => nofun⟩
  subst hthread
  intro u hu
  refine ⟨trivial, fun copied u' hu' => ?_⟩
  obtain ⟨rfl, hcopied⟩ := hu'
  intro file hfile
  subst hfile
  exact supports_of_thread (mem_of_rely hu v'.now_mem) hopened hcopied

/-- The comparison is with the descriptor of the thread itself. -/
theorem ensures_verifyFile (duplicate : Nat) (w : Moments) :
    Ensures tid caller (Duplicates tid caller fd)
      (do verifyFile tid fd duplicate; pure duplicate) w := by
  apply Discipline.Spec.andThen
  apply Discipline.Spec.andThen
  intro v _
  refine ⟨trivial, fun compared v' hv' => ?_⟩
  obtain ⟨rfl, hanswer⟩ := hv'
  refine ⟨fun result hresult => ?_, fun _ _ => ⟨nofun, fun _ _ => nofun⟩⟩
  subst hresult
  split
  next => exact ⟨nofun, fun _ _ => nofun⟩
  next hzero =>
    obtain ⟨thread, hthread, hfile⟩ := hanswer (not_not.mp hzero)
    refine ⟨fun _ _ file heq => ?_, nofun⟩
    cases heq
    exact supports_of_thread v'.now_mem hthread hfile

theorem ensures_get (method : AccessMethod) (w : Moments) :
    Ensures tid caller (Duplicates tid caller fd) (get method tid fd) w := by
  refine ensures_andThen (fun _ _ => nofun) fun _ w => ?_
  split
  next => exact nofun
  next =>
    cases method with
    | thread => exact ensures_get_thread w
    | process =>
      refine ensures_andThen (fun _ _ => nofun) fun _ w => ?_
      refine ensures_andThen (fun _ _ => nofun) fun _ w => ?_
      refine ensures_andThen (fun _ _ => nofun) fun duplicate w => ?_
      exact ensures_verifyFile duplicate w

theorem ensures_socket (method : AccessMethod) (w : Moments) :
    Ensures tid caller (fun result v => ∀ file, result = .ok file → Held caller fd v file)
      (socket method tid fd) w := by
  apply Discipline.Spec.andThen
  refine (ensures_get method w).weaken fun result v hresult => ?_
  refine ⟨fun duplicate heq => ?_, fun _ _ => nofun⟩
  have hsupports := hresult duplicate heq
  apply Discipline.Spec.andThen
  apply Discipline.Spec.andThen
  intro u hu
  refine ⟨trivial, fun checked u' hu' => ?_⟩
  obtain ⟨rfl, hanswer⟩ := hu'
  refine ⟨fun pending hpending => ?_, fun _ _ => ⟨nofun, fun _ _ => nofun⟩⟩
  subst hpending
  split
  next hwaits =>
    refine ⟨fun _ _ file hfile => ?_, nofun⟩
    cases hfile
    exact hsupports u' hu (hanswer ▸ hwaits)
  next => exact ⟨nofun, fun _ _ => nofun⟩

/-- A call that begins at some moment, with everything that may happen meanwhile. -/
def system (method : AccessMethod) (tid : UInt32) (caller : Nat) (fd : Int) (start : ThreadWorld) :
    Transition (Running AccessOperation AccessOperation.Ret Moments (Except IoError Nat))
      RunningEvent :=
  (discipline tid caller).running (socket method tid fd).run (· = ⟨[], start⟩)

/-- Whatever other threads do to the descriptors, whether the identifier is reused and
whichever way the descriptor is reached, a socket that is obtained for a notification is one
that the notifying thread itself had at that descriptor at some moment at which it waited. -/
theorem socket_held_by_caller {method : AccessMethod} {tid : UInt32} {caller : Nat} {fd : Int}
    {start : ThreadWorld}
    {s : Running AccessOperation AccessOperation.Ret Moments (Except IoError Nat)}
    (h : (system method tid caller fd start).Reachable s) {file : Nat}
    (hdone : s.program = .done (.ok file)) :
    ∃ world ∈ s.world.worlds, world.pending = true ∧ world.file caller fd = some file := by
  have hspec : ∀ w, w = ⟨[], start⟩ → (discipline tid caller).Spec
      (fun result v => ∀ file, result = .ok file → Held caller fd v file)
      (socket method tid fd).run w := fun w _ => ensures_socket method w
  refine Discipline.Spec.result hspec ?_ h hdone file rfl
  intro result w v hresult hrely file hfile
  obtain ⟨world, hworld, hheld⟩ := hresult file hfile
  exact ⟨world, mem_of_rely hrely hworld, hheld⟩

/-- A world with one thread that has one file at every descriptor. -/
def uniform (file : Nat) : ThreadWorld := ⟨fun _ => some 70, fun _ _ => some file, true⟩

/-- Another thread replaces the descriptor after it was duplicated. -/
theorem socket_held_by_caller_replaced :
    ∃ s, (system .thread 7 70 3 (uniform 1)).Reachable s ∧ s.program = .done (.ok 1) ∧
      s.world.now.file 70 3 = some 2 ∧
      ∃ world ∈ s.world.worlds, world.pending = true ∧ world.file 70 3 = some 1 := by
  have hrun : ∃ s, (system .thread 7 70 3 (uniform 1)).Reachable s ∧
      s.program = .done (.ok 1) ∧ s.world.now.file 70 3 = some 2 := by
    have hlawful : (⟨[], uniform 1⟩ : Moments).Lawful 7 70 :=
      ⟨by simp [worlds, uniform], by simp [worlds]⟩
    have hreplaced : (⟨[uniform 1], uniform 2⟩ : Moments).Lawful 7 70 :=
      ⟨by simp [worlds, uniform], by simp [worlds, uniform]⟩
    have hstart : (system .thread 7 70 3 (uniform 1)).Reachable
        ⟨(socket .thread 7 3).run, ⟨[], uniform 1⟩⟩ := .start ⟨rfl, rfl⟩
    have hopened : (system .thread 7 70 3 (uniform 1)).Reachable ⟨_, ⟨[], uniform 1⟩⟩ :=
      .next .operate hstart trivial
        ⟨.pidfdOpen 7 pidfdThread, _, .ok 70, _, rfl, ⟨⟨[], rfl⟩, hlawful⟩, ⟨rfl, rfl⟩, rfl⟩
    have hcopied : (system .thread 7 70 3 (uniform 1)).Reachable ⟨_, ⟨[], uniform 1⟩⟩ :=
      .next .operate hopened trivial
        ⟨.pidfdGetfd 70 3, _, .ok 1, _, rfl, ⟨⟨[], rfl⟩, hlawful⟩, ⟨rfl, rfl⟩, rfl⟩
    have hchecked : (system .thread 7 70 3 (uniform 1)).Reachable ⟨_, ⟨[uniform 1], uniform 2⟩⟩ :=
      .next .operate hcopied trivial
        ⟨.valid, _, .ok true, _, rfl, ⟨⟨[uniform 2], rfl⟩, hreplaced⟩, ⟨rfl, rfl⟩, rfl⟩
    exact ⟨_, hchecked, rfl, rfl⟩
  obtain ⟨s, hs, hdone, hnow⟩ := hrun
  exact ⟨s, hs, hdone, hnow, socket_held_by_caller hs hdone⟩

end SocketAccess

end Scproxy
