import Mathlib.Logic.Function.Basic
import Scproxy.Fairness
import Scproxy.RelayTurn

namespace Scproxy.Relay

/-- A relay after the end of a stream, with the kernel around it: what the application has sent and
the relay has not read, and how many bytes the peers have not acknowledged. -/
structure Draining where
  relay : State
  unread : List UInt8
  queue : Side → Nat
  finished : Bool

inductive DrainEvent
  | turn
  | acknowledge (side : Side)
  deriving DecidableEq

namespace Draining

variable (capacity : Nat)

def room (s : Draining) (side : Side) : Nat := capacity - s.queue side

/-- How many bytes a turn reads from the application. -/
def reads (s : Draining) : Nat := min (buffer - s.relay.toHost.length) s.unread.length

/-- How many bytes a turn writes to a side. -/
def writes (s : Draining) : Side → Nat
  | .application => min (s.room capacity .application) s.relay.toApplication.length
  | .host => min (s.room capacity .host) (s.relay.toHost.length + s.reads)

/-- What the kernel answers in the next turn. -/
def round (s : Draining) (fired : Nat) : Round :=
  kernelRound (s.room capacity .application) (s.room capacity .host) s.unread
    (s.queue .application + s.writes capacity .application) (s.unread.length - s.reads) fired

/-- The application sends nothing more. The peers take what is in the queues at their own pace. -/
def Step : DrainEvent → Draining → Draining → Prop
  | .turn, s, t => s.finished = false ∧ ∃ fired finished relay,
      turn (s.round capacity fired) s.relay = (.ok finished, relay) ∧
      t = ⟨relay, s.unread.drop s.reads, fun side => s.queue side + s.writes capacity side,
        finished⟩
  | .acknowledge side, s, t => ∃ n < s.queue side,
      t = { s with queue := Function.update s.queue side n }

end Draining

def drainSystem (capacity : Nat) : Transition Draining DrainEvent where
  start s := s.relay.closeAfterDrain = true ∧ s.finished = false
  step := Draining.Step capacity

namespace Draining

variable {capacity : Nat}

/-- What a turn does. -/
structure Turned (capacity : Nat) (s t : Draining) : Prop where
  toApplication : t.relay.toApplication =
    s.relay.toApplication.drop (s.writes capacity .application)
  toHost : t.relay.toHost =
    (s.relay.toHost ++ s.unread.take s.reads).drop (s.writes capacity .host)
  unread : t.unread = s.unread.drop s.reads
  queue : t.queue = fun side => s.queue side + s.writes capacity side
  closing : t.relay.closeAfterDrain = true
  application : bytesWritten .application t.relay.trace = bytesWritten .application s.relay.trace ++
    s.relay.toApplication.take (s.writes capacity .application)
  host : bytesWritten .host t.relay.trace = bytesWritten .host s.relay.trace ++
    (s.relay.toHost ++ s.unread.take s.reads).take (s.writes capacity .host)
  finished : t.finished = true ↔ t.relay.toApplication = [] ∧ t.relay.toHost = [] ∧
    t.queue .application = 0 ∧ t.unread = []

section

variable {s t : Draining}

theorem takes_eq (u : State) (h : u.toHost = s.relay.toHost) :
    u.takes s.unread = s.unread.take s.reads := by
  rw [State.takes, h, reads]
  exact List.take_eq_take_min

/-- The application's side of a turn. -/
theorem moved_application (u : State) (applicationRoom hostRoom : Nat) (unread : List UInt8) :
    (u.moved applicationRoom hostRoom unread).toApplication =
        u.toApplication.drop (min applicationRoom u.toApplication.length) ∧
      bytesWritten .application (u.moved applicationRoom hostRoom unread).trace =
        bytesWritten .application u.trace ++
          u.toApplication.take (min applicationRoom u.toApplication.length) := by
  constructor
  · refine (pending_flushed .host hostRoom .application).trans ?_
    refine (toApplication_taken unread).trans ?_
    exact pending_flushed .application applicationRoom .application
  · refine (written_flushed .host hostRoom .application).trans ?_
    rw [if_neg nofun, List.append_nil, written_taken]
    refine (bytesWritten_concat .application _ _).trans ?_
    rw [written_flushed, if_pos rfl]
    exact List.append_nil _

theorem moved_host (applicationRoom hostRoom : Nat) :
    (s.relay.moved applicationRoom hostRoom s.unread).toHost =
        (s.relay.toHost ++ s.unread.take s.reads).drop
          (min hostRoom (s.relay.toHost.length + s.reads)) ∧
      bytesWritten .host (s.relay.moved applicationRoom hostRoom s.unread).trace =
        bytesWritten .host s.relay.trace ++ (s.relay.toHost ++ s.unread.take s.reads).take
          (min hostRoom (s.relay.toHost.length + s.reads)) := by
  have hfirst : ((s.relay.flushed .application applicationRoom).record
      (.receiveQueue s.unread.length)).toHost = s.relay.toHost :=
    pending_flushed .application applicationRoom .host
  have htaken : (((s.relay.flushed .application applicationRoom).record
      (.receiveQueue s.unread.length)).taken s.unread).pending .host =
        s.relay.toHost ++ s.unread.take s.reads := by
    refine (toHost_taken s.unread).trans ?_
    rw [takes_eq _ hfirst, hfirst]
  have hlength : (s.relay.toHost ++ s.unread.take s.reads).length =
      s.relay.toHost.length + s.reads := by
    have hle : s.reads ≤ s.unread.length := Nat.min_le_right _ _
    rw [List.length_append, List.length_take, Nat.min_eq_left hle]
  constructor
  · refine (pending_flushed .host hostRoom .host).trans ?_
    rw [if_pos rfl, State.flushes, htaken, hlength]
  · refine (written_flushed .host hostRoom .host).trans ?_
    rw [if_pos rfl, State.flushes, htaken, hlength, written_taken]
    refine congrArg (· ++ _) ((bytesWritten_concat .host _ _).trans ?_)
    rw [written_flushed, if_neg nofun, List.append_nil]
    exact List.append_nil _

theorem turned_of_step (hclose : s.relay.closeAfterDrain = true)
    (h : Step capacity .turn s t) : Turned capacity s t := by
  obtain ⟨_, fired, finished, relay, hturn, rfl⟩ := h
  obtain ⟨u, hclosing, hsame⟩ := turn_closing hclose (s.room capacity .application)
    (s.room capacity .host) s.unread (s.queue .application + s.writes capacity .application)
    (s.unread.length - s.reads) fired
  have hboth := hturn.symm.trans hclosing
  rw [Prod.mk.injEq, Except.ok.injEq] at hboth
  obtain ⟨hfinished, rfl⟩ := hboth
  obtain ⟨happlication, hwritten⟩ := moved_application s.relay (s.room capacity .application)
    (s.room capacity .host) s.unread
  obtain ⟨hhost, hwritten'⟩ := @moved_host s (s.room capacity .application) (s.room capacity .host)
  refine ⟨(hsame.pending .application).trans happlication, (hsame.pending .host).trans hhost, rfl,
    rfl, ?_, (hsame.written _).trans hwritten, (hsame.written _).trans hwritten', ?_⟩
  · rw [hsame.closing, closing_moved]
    exact hclose
  · have hpending : relay.toApplication = _ := hsame.pending .application
    have hpending' : relay.toHost = _ := hsame.pending .host
    simp only [hfinished, decide_eq_true_eq, hpending, hpending', State.pending]
    rw [← List.length_eq_zero_iff (l := s.unread.drop s.reads), List.length_drop]

/-- A turn is always possible until the relay has returned. -/
theorem enabled_turn (hclose : s.relay.closeAfterDrain = true) (hfinished : s.finished = false) :
    ∃ t, Step capacity .turn s t := by
  obtain ⟨relay, hturn, _⟩ := turn_closing hclose (s.room capacity .application)
    (s.room capacity .host) s.unread (s.queue .application + s.writes capacity .application)
    (s.unread.length - s.reads) 0
  exact ⟨_, hfinished, 0, _, relay, hturn, rfl⟩

end

/-- Nothing is left to move, and the application has acknowledged all it was sent. -/
def Emptied (s : Draining) : Prop :=
  s.relay.toApplication = [] ∧ s.relay.toHost = [] ∧ s.queue .application = 0 ∧ s.unread = []

instance (s : Draining) : Decidable s.Emptied := inferInstanceAs (Decidable (_ ∧ _ ∧ _ ∧ _))

def moves (capacity : Nat) (s : Draining) : Nat :=
  s.reads + s.writes capacity .application + s.writes capacity .host

/-- What the relay waits for: its own next turn, or a peer that takes what was sent to it. -/
def next (capacity : Nat) (s : Draining) : DrainEvent :=
  if 0 < s.moves capacity ∨ s.Emptied then .turn
  else if s.relay.toHost = [] then .acknowledge .application
  else .acknowledge .host

/-- A byte has to be read, written and acknowledged. -/
def rank (s : Draining) : Nat :=
  3 * s.unread.length + 2 * s.relay.toHost.length + 2 * s.relay.toApplication.length +
    s.queue .application + s.queue .host + if s.finished then 0 else 1

section

variable {s t : Draining}

theorem next_congr (happlication : t.relay.toApplication = s.relay.toApplication)
    (hhost : t.relay.toHost = s.relay.toHost) (hunread : t.unread = s.unread)
    (hqueue : t.queue = s.queue) : next capacity t = next capacity s := by
  have hmoves : t.moves capacity = s.moves capacity := by
    simp only [moves, reads, writes, room, happlication, hhost, hunread, hqueue]
  have hempty : t.Emptied ↔ s.Emptied := by
    rw [Emptied, Emptied, happlication, hhost, hunread, hqueue]
  exact if_congr (or_congr (by rw [hmoves]) hempty) rfl (if_congr (by rw [hhost]) rfl rfl)

theorem Turned.rank (h : Turned capacity s t) (hfinished : s.finished = false) :
    t.rank + s.moves capacity + (if t.finished then 1 else 0) = s.rank := by
  have hreads : s.reads ≤ s.unread.length := Nat.min_le_right _ _
  have happlication : s.writes capacity .application ≤ s.relay.toApplication.length :=
    Nat.min_le_right _ _
  have hhost : s.writes capacity .host ≤ s.relay.toHost.length + s.reads := Nat.min_le_right _ _
  simp only [Draining.rank, moves, h.toApplication, h.toHost, h.unread, h.queue, hfinished,
    List.length_drop, List.length_append, List.length_take, Nat.min_eq_left hreads]
  cases t.finished with
  | true => simp only [if_true, Bool.false_eq_true, if_false]; omega
  | false => simp only [Bool.false_eq_true, if_false]; omega

/-- A turn that moves nothing leaves the pending bytes and the queues as they are. -/
theorem Turned.idle (h : Turned capacity s t) (hidle : s.moves capacity = 0) :
    next capacity t = next capacity s ∧ (t.finished = true ↔ s.Emptied) := by
  have hreads : s.reads = 0 := by unfold moves at hidle; omega
  have hwrites : ∀ side, s.writes capacity side = 0 := by
    intro side
    unfold moves at hidle
    cases side with
    | application => omega
    | host => omega
  have happlication := h.toApplication
  have hhost := h.toHost
  have hunread := h.unread
  have hqueue := h.queue
  rw [hwrites, List.drop_zero] at happlication hhost
  rw [hreads, List.take_zero, List.append_nil] at hhost
  rw [hreads, List.drop_zero] at hunread
  simp only [hwrites, Nat.add_zero] at hqueue
  refine ⟨next_congr happlication hhost hunread hqueue, ?_⟩
  rw [h.finished, Emptied, happlication, hhost, hunread, hqueue]

/-- Whatever keeps the relay from moving bytes, a peer can end it. -/
theorem queue_pos_of_idle (hcapacity : 0 < capacity) (hidle : s.moves capacity = 0)
    (hleft : ¬s.Emptied) :
    (s.relay.toHost = [] → 0 < s.queue .application) ∧
      (s.relay.toHost ≠ [] → 0 < s.queue .host) := by
  simp only [moves, reads, writes, room] at hidle
  constructor
  · intro hhost
    have hunread : s.unread = [] := by
      have hlength : min buffer s.unread.length = 0 := by
        rw [hhost] at hidle
        simp only [List.length_nil, Nat.sub_zero] at hidle
        omega
      exact List.length_eq_zero_iff.mp (by simp only [buffer] at hlength; omega)
    by_contra hqueue
    refine hleft ⟨List.length_eq_zero_iff.mp (by omega), hhost, by omega, hunread⟩
  · intro hhost
    have hlength := List.length_pos_iff.mpr hhost
    omega

end

end Draining

end Scproxy.Relay
