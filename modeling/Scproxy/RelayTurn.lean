import Scproxy.RelayInvariant

namespace Scproxy.Relay

open Prog

/-- A write to a socket with room for `room` bytes. -/
def writeOutcome (room : Nat) : WriteOutcome :=
  if room = 0 then .failed (.simple .wouldBlock) else .accepted room

/-- A read from an open socket that holds these bytes. -/
def readOutcome : List UInt8 → ReadOutcome
  | [] => .failed (.simple .wouldBlock)
  | first :: rest => .ready first rest

namespace State

/-- How many bytes `flush` writes. -/
def flushes (s : State) (target : Side) (room : Nat) : Nat := min room (s.pending target).length

/-- The state behind `flush`. -/
def flushed (s : State) (target : Side) (room : Nat) : State :=
  if s.flushes target room = 0 then s
  else (s.setPending ((s.pending target).drop (s.flushes target room)) target).record
    (.wrote target ((s.pending target).take (s.flushes target room)))

/-- The bytes that are read from the application. -/
def takes (s : State) (unread : List UInt8) : List UInt8 := unread.take (buffer - s.toHost.length)

/-- The state behind the read from the application. -/
def taken (s : State) (unread : List UInt8) : State :=
  if s.takes unread = [] then s
  else { s.record (.read .application (buffer - s.toHost.length) (readOutcome unread)) with
    toHost := s.toHost ++ s.takes unread }

end State

section

variable (s : State) (target : Side) (room : Nat) (unread : List UInt8)

theorem flush_ok : ∃ progress, flush target (writeOutcome room) s =
    (.ok progress, s.flushed target room) := by
  unfold flush State.flushed State.flushes writeOutcome
  by_cases hempty : s.pending target = []
  · exact ⟨false, by simp [hempty, bind, Prog.get, pure]⟩
  · have hlength : (s.pending target).length ≠ 0 := by simpa using hempty
    by_cases hroom : room = 0
    · exact ⟨false, by simp [hempty, hroom, bind, Prog.get, pure, WriteOutcome.count,
        IoError.isWouldBlock]⟩
    · have hcount : min room (s.pending target).length ≠ 0 := by omega
      obtain ⟨count, hcount'⟩ := Nat.exists_eq_succ_of_ne_zero hcount
      refine ⟨true, ?_⟩
      simp [hempty, hroom, bind, Prog.get, Prog.modify, pure, WriteOutcome.count, hcount']

theorem readBlock_ok : ∃ progress,
    readBlock .application (decide (0 < unread.length)) (readOutcome unread) s =
      (.ok progress, s.taken unread) := by
  unfold readBlock State.taken State.takes
  by_cases hunread : unread = []
  · exact ⟨false, by simp [hunread, bind, Prog.get, pure]⟩
  · obtain ⟨first, rest, rfl⟩ := List.exists_cons_of_ne_nil hunread
    by_cases hroom : s.toHost.length < buffer
    · obtain ⟨space, hspace⟩ := Nat.exists_eq_succ_of_ne_zero
        (by omega : buffer - s.toHost.length ≠ 0)
      refine ⟨true, ?_⟩
      simp [bind, Prog.get, Prog.modify, pure, hroom, tryRead, State.pending, Side.other,
        State.available, readOutcome, ReadOutcome.copied, hspace, State.consume, State.setPending]
    · have hspace : buffer - s.toHost.length = 0 := by omega
      exact ⟨false, by simp [bind, Prog.get, pure, hroom, State.pending, Side.other, hspace]⟩

theorem readBlock_disabled (source : Side) (outcome : ReadOutcome) :
    readBlock source false outcome s = (.ok false, s) := rfl

theorem select_ok {queued : Nat} {round : Round} (hready : round.readiness = .ok ()) :
    select queued round s = (.ok (), s) := by
  have hpos : 0 < (s.branches queued).length := List.length_pos_iff.mpr (branches_ne_nil s queued)
  have hlt := Nat.mod_lt round.fired hpos
  unfold select
  simp only [bind, Prog.get, List.getElem?_eq_getElem hlt, hready]
  cases (s.branches queued)[round.fired % (s.branches queued).length] with
  | sleep => rfl
  | _ => rfl

end

/-- The states differ in the record only, and there in what does not move bytes. -/
structure Same (s t : State) : Prop where
  pending : ∀ side, t.pending side = s.pending side
  closing : t.closeAfterDrain = s.closeAfterDrain
  written : ∀ side, bytesWritten side t.trace = bytesWritten side s.trace

theorem Same.refl (s : State) : Same s s := ⟨fun _ => rfl, rfl, fun _ => rfl⟩

theorem Same.queue {s t : State} (h : Same s t) (event : Event) (hevent : event.IsQueue) :
    Same s (t.record event) where
  pending := h.pending
  closing := h.closing
  written side := by
    have hnone : event.wroteTo side = [] := by
      cases event with
      | read => cases hevent
      | wrote => cases hevent
      | receiveQueue n => rfl
      | sendQueue n => rfl
    exact (bytesWritten_concat side t.trace event).trans
      (by rw [hnone, List.append_nil, h.written side])

/-- What the kernel answers in a turn: how much room the two sockets have for writes, what the
application has sent, and at the end the lengths of the queues of its socket. -/
def kernelRound (applicationRoom hostRoom : Nat) (unread : List UInt8) (unsent left fired : Nat) :
    Round where
  hostRead := .failed (.simple .wouldBlock)
  applicationWrite := writeOutcome applicationRoom
  queued := .ok unread.length
  applicationRead := readOutcome unread
  hostWrite := writeOutcome hostRoom
  takeError := .ok none
  sendQueue := .ok unsent
  receiveQueue := .ok left
  fired := fired
  readiness := .ok ()

/-- The state behind the four transfers of a turn after the end of a stream. -/
def State.moved (s : State) (applicationRoom hostRoom : Nat) (unread : List UInt8) : State :=
  (((s.flushed .application applicationRoom).record (.receiveQueue unread.length)).taken
    unread).flushed .host hostRoom

theorem drained_ok {s : State} (hclose : s.closeAfterDrain = true)
    (applicationRoom hostRoom : Nat) (unread : List UInt8) (unsent left fired : Nat) :
    ∃ t, drained (kernelRound applicationRoom hostRoom unread unsent left fired) s =
      (.ok (decide (s.toApplication = [] ∧ s.toHost = [] ∧ unsent = 0 ∧ left = 0)), t) ∧
      Same s t := by
  by_cases hempty : s.toApplication = [] ∧ s.toHost = []
  · by_cases hunsent : unsent = 0
    · refine ⟨(s.record (.sendQueue unsent)).record (.receiveQueue left), ?_,
        ((Same.refl s).queue (.sendQueue unsent) trivial).queue (.receiveQueue left) trivial⟩
      simp [drained, kernelRound, queueLen, bind, Prog.get, Prog.modify, Prog.lift, pure, hclose,
        hempty, hunsent]
      rfl
    · refine ⟨s.record (.sendQueue unsent), ?_, (Same.refl s).queue (.sendQueue unsent) trivial⟩
      simp [drained, kernelRound, queueLen, bind, Prog.get, Prog.modify, Prog.lift, pure, hclose,
        hempty, hunsent]
  · refine ⟨s, ?_, Same.refl s⟩
    simp [drained, bind, Prog.get, pure, hclose, hempty]
    exact fun happlication hhost _ _ => hempty ⟨happlication, hhost⟩

section

variable {s : State} (target : Side) (room : Nat) (unread : List UInt8)

theorem pending_flushed (side : Side) : (s.flushed target room).pending side =
    if side = target then (s.pending side).drop (s.flushes target room) else s.pending side := by
  unfold State.flushed
  split
  next hnone =>
    rw [hnone, List.drop_zero, ite_self]
  next =>
    refine (pending_setPending s _ side target).trans ?_
    by_cases hside : side = target
    · rw [if_pos hside, if_pos hside, hside]
    · rw [if_neg hside, if_neg hside]

theorem closing_flushed : (s.flushed target room).closeAfterDrain = s.closeAfterDrain := by
  unfold State.flushed
  split
  · rfl
  · exact setPending_closeAfterDrain s _ target

theorem written_flushed (side : Side) : bytesWritten side (s.flushed target room).trace =
    bytesWritten side s.trace ++
      if side = target then (s.pending side).take (s.flushes target room) else [] := by
  unfold State.flushed
  split
  next hnone => simp [hnone]
  next =>
    refine (bytesWritten_concat side _ _).trans ?_
    rw [setPending_trace]
    by_cases hside : side = target
    · rw [if_pos hside, Event.wroteTo, if_pos hside.symm, hside]
    · rw [if_neg hside, Event.wroteTo, if_neg (Ne.symm hside)]

theorem toHost_taken : (s.taken unread).toHost = s.toHost ++ s.takes unread := by
  unfold State.taken
  split
  next hnone => rw [hnone, List.append_nil]
  next => rfl

theorem toApplication_taken : (s.taken unread).toApplication = s.toApplication := by
  unfold State.taken
  split
  · rfl
  · rfl

theorem closing_taken : (s.taken unread).closeAfterDrain = s.closeAfterDrain := by
  unfold State.taken
  split
  · rfl
  · rfl

theorem written_taken (side : Side) :
    bytesWritten side (s.taken unread).trace = bytesWritten side s.trace := by
  unfold State.taken
  split
  · rfl
  · exact (bytesWritten_concat side _ _).trans (List.append_nil _)

theorem closing_moved (applicationRoom hostRoom : Nat) :
    (s.moved applicationRoom hostRoom unread).closeAfterDrain = s.closeAfterDrain := by
  unfold State.moved
  rw [closing_flushed, closing_taken]
  exact closing_flushed .application applicationRoom

end

/-- A turn after the end of a stream never fails. It returns if nothing is left to move. -/
theorem turn_closing {s : State} (hclose : s.closeAfterDrain = true)
    (applicationRoom hostRoom : Nat) (unread : List UInt8) (unsent left fired : Nat) :
    ∃ t, turn (kernelRound applicationRoom hostRoom unread unsent left fired) s =
      (.ok (decide ((s.moved applicationRoom hostRoom unread).toApplication = [] ∧
        (s.moved applicationRoom hostRoom unread).toHost = [] ∧ unsent = 0 ∧ left = 0)), t) ∧
      Same (s.moved applicationRoom hostRoom unread) t := by
  have hmoved : (s.moved applicationRoom hostRoom unread).closeAfterDrain = true :=
    (closing_moved unread applicationRoom hostRoom).trans hclose
  obtain ⟨t, hdrained, hsame⟩ := drained_ok hmoved applicationRoom hostRoom unread unsent left fired
  refine ⟨t, ?_, hsame⟩
  obtain ⟨applicationFlushed, hflush⟩ := flush_ok s .application applicationRoom
  obtain ⟨applicationProgress, hread⟩ := readBlock_ok
    ((s.flushed .application applicationRoom).record (.receiveQueue unread.length)) unread
  obtain ⟨hostFlushed, hflush'⟩ := flush_ok (((s.flushed .application applicationRoom).record
    (.receiveQueue unread.length)).taken unread) .host hostRoom
  have hreset : observeReset (kernelRound applicationRoom hostRoom unread unsent left fired)
      (s.moved applicationRoom hostRoom unread) =
        (.ok (), s.moved applicationRoom hostRoom unread) := by
    simp [observeReset, bind, Prog.get, hmoved, kernelRound, Prog.lift, pure]
  unfold turn
  refine (bind_of_ok rfl).trans ?_
  rw [hclose]
  refine (bind_of_ok (readBlock_disabled s .host _)).trans ?_
  refine (bind_of_ok hflush).trans ?_
  have hqueue : queueLen .receiveQueue (.ok unread.length)
      (s.flushed .application applicationRoom) =
        (.ok unread.length, (s.flushed .application applicationRoom).record
          (.receiveQueue unread.length)) := rfl
  refine (bind_of_ok hqueue).trans ?_
  refine (bind_of_ok rfl).trans ?_
  have hclose' : ((s.flushed .application applicationRoom).record
      (.receiveQueue unread.length)).closeAfterDrain = true :=
    (closing_flushed .application applicationRoom).trans hclose
  rw [hclose', Bool.not_true, Bool.false_or]
  refine (bind_of_ok hread).trans ?_
  refine (bind_of_ok hflush').trans ?_
  refine (bind_of_ok hreset).trans ?_
  refine (bind_of_ok hdrained).trans ?_
  split
  next hfinished =>
    rw [hfinished]
    rfl
  next hunfinished =>
    rw [Bool.not_eq_true] at hunfinished
    rw [hunfinished]
    split
    · rfl
    · exact bind_of_ok (select_ok t rfl)

theorem loop_concat {rounds : List Round} {round : Round} {s t u : State} {finished : Bool}
    (hloop : loop rounds s = (.ok false, t)) (hturn : turn round t = (.ok finished, u)) :
    loop (rounds ++ [round]) s = (.ok finished, u) := by
  induction rounds generalizing s with
  | nil =>
    cases hloop
    refine (bind_of_ok hturn).trans ?_
    cases finished with
    | true => rfl
    | false => rfl
  | cons first rounds ih =>
    obtain ⟨done, v, hfirst, hrest⟩ := Prog.bind_eq_ok.mp hloop
    refine (bind_of_ok hfirst).trans ?_
    cases done with
    | true => cases hrest
    | false => exact ih hrest

end Scproxy.Relay
