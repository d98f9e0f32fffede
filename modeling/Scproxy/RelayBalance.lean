import Mathlib.Data.List.Infix
import Scproxy.Relay

namespace Scproxy.Relay

def Event.readFrom (source : Side) : Event → List UInt8
  | .read side space outcome =>
    if side = source then (outcome.copied space).toOption.getD [] else []
  | _ => []

def Event.wroteTo (target : Side) : Event → List UInt8
  | .wrote side bytes => if side = target then bytes else []
  | _ => []

def bytesRead (source : Side) (trace : List Event) : List UInt8 :=
  trace.flatMap (Event.readFrom source)

def bytesWritten (target : Side) (trace : List Event) : List UInt8 :=
  trace.flatMap (Event.wroteTo target)

/-- A read had room, so that reading nothing means the end of the stream. -/
def Event.Roomy : Event → Prop
  | .read _ space outcome => 0 < space ∧ (outcome.copied space = .ok [] → outcome = .eof)
  | _ => True

/-- The reads of the proxy stream begin with what it had buffered at the start, and go on with
what the socket has only when nothing of this is left. -/
def Prefetches (start : List UInt8) (s : State) : Prop :=
  ∃ received, bytesRead .host s.trace ++ s.prefetched = start ++ received ∧
    (s.prefetched ≠ [] → received = [])

/-- What an event takes from the buffer of the proxy stream. -/
def State.Draws (s : State) (event : Event) (left : List UInt8) : Prop :=
  s.prefetched = event.readFrom .host ++ left ∨ s.prefetched = [] ∧ left = []

structure Balanced (start : List UInt8) (s : State) : Prop where
  prefetches : Prefetches start s
  forwarded : ∀ side, bytesWritten side s.trace ++ s.pending side = bytesRead side.other s.trace
  bounded : ∀ side, (s.pending side).length ≤ buffer
  roomy : ∀ event ∈ s.trace, event.Roomy
  closing : s.closeAfterDrain = true → ∃ side space, Event.read side space .eof ∈ s.trace

def Failed (start : List UInt8) (fault : Fault) (s : State) : Prop :=
  Balanced start s ∧ ∀ reason, fault ≠ .panic reason

variable {start : List UInt8}

theorem eq_other_comm (source side : Side) : source = side.other ↔ side = source.other := by
  cases source with
  | application =>
    cases side with
    | application => simp [Side.other]
    | host => simp [Side.other]
  | host =>
    cases side with
    | application => simp [Side.other]
    | host => simp [Side.other]

theorem copied_length_le {space : Nat} {found : ReadOutcome} :
    ((found.copied space).toOption.getD []).length ≤ space := by
  cases found with
  | ready first rest => exact List.length_take_le _ _
  | eof => exact Nat.zero_le _
  | failed error => exact Nat.zero_le _

theorem copied_eq_nil {space : Nat} {outcome : ReadOutcome} (hspace : 0 < space)
    (h : outcome.copied space = .ok []) : outcome = .eof := by
  cases outcome with
  | ready first rest =>
    obtain ⟨n, rfl⟩ := Nat.exists_eq_add_of_lt hspace
    simp [ReadOutcome.copied] at h
  | eof => rfl
  | failed error => simp [ReadOutcome.copied] at h

@[simp] theorem bytesRead_concat (source : Side) (trace : List Event) (event : Event) :
    bytesRead source (trace ++ [event]) = bytesRead source trace ++ event.readFrom source := by
  simp [bytesRead]

@[simp] theorem bytesWritten_concat (target : Side) (trace : List Event) (event : Event) :
    bytesWritten target (trace ++ [event]) = bytesWritten target trace ++ event.wroteTo target := by
  simp [bytesWritten]

theorem pending_setPending (s : State) (bytes : List UInt8) (side target : Side) :
    (s.setPending bytes target).pending side = if side = target then bytes else s.pending side := by
  cases target with
  | application =>
    cases side with
    | application => rfl
    | host => rfl
  | host =>
    cases side with
    | application => rfl
    | host => rfl

theorem setPending_trace (s : State) (bytes : List UInt8) (target : Side) :
    (s.setPending bytes target).trace = s.trace := by
  cases target with
  | application => rfl
  | host => rfl

theorem setPending_closeAfterDrain (s : State) (bytes : List UInt8) (target : Side) :
    (s.setPending bytes target).closeAfterDrain = s.closeAfterDrain := by
  cases target with
  | application => rfl
  | host => rfl

theorem consume_pending (s : State) (count : Nat) (source side : Side) :
    (s.consume count source).pending side = s.pending side := by
  cases source with
  | application => rfl
  | host => rfl

theorem consume_trace (s : State) (count : Nat) (source : Side) :
    (s.consume count source).trace = s.trace := by
  cases source with
  | application => rfl
  | host => rfl

theorem setPending_prefetched (s : State) (bytes : List UInt8) (target : Side) :
    (s.setPending bytes target).prefetched = s.prefetched := by
  cases target with
  | application => rfl
  | host => rfl

theorem consume_closeAfterDrain (s : State) (count : Nat) (source : Side) :
    (s.consume count source).closeAfterDrain = s.closeAfterDrain := by
  cases source with
  | application => rfl
  | host => rfl

/-- A read of the proxy stream takes what its buffer has, and the rest stays there. -/
theorem draws_available (s : State) (source : Side) (space : Nat) (outcome : ReadOutcome) :
    s.Draws (.read source space (s.available outcome source))
      (s.consume (((s.available outcome source).copied space).toOption.getD []).length
        source).prefetched := by
  cases source with
  | application => exact Or.inl rfl
  | host =>
    cases hprefetched : s.prefetched with
    | nil =>
      refine Or.inr ⟨hprefetched, ?_⟩
      show s.prefetched.drop _ = []
      rw [hprefetched, List.drop_nil]
    | cons first rest =>
      have havailable : s.available outcome .host = .ready first rest := by
        simp only [State.available, hprefetched]
      rw [havailable]
      refine Or.inl ?_
      show s.prefetched = (first :: rest).take space ++
        s.prefetched.drop ((first :: rest).take space).length
      rw [hprefetched]
      exact List.prefix_append_drop (List.take_prefix space _)

theorem Prefetches.extend {s u : State} (h : Prefetches start s) {event : Event}
    (htrace : u.trace = s.trace ++ [event]) (hdraws : s.Draws event u.prefetched) :
    Prefetches start u := by
  obtain ⟨received, hstart, hnone⟩ := h
  unfold Prefetches
  rw [htrace, bytesRead_concat, List.append_assoc]
  rcases hdraws with hdrawn | ⟨hempty, hleft⟩
  · rw [← hdrawn]
    refine ⟨received, hstart, fun hleft => hnone ?_⟩
    rw [hdrawn]
    exact fun hnil => hleft (List.append_eq_nil_iff.mp hnil).2
  · rw [hempty, List.append_nil] at hstart
    refine ⟨received ++ event.readFrom .host, ?_, fun hne => absurd hleft hne⟩
    rw [hleft, hstart, List.append_nil, List.append_assoc]

/-- One more event keeps the balance if it moves as many bytes into a buffer
as it reads and as many out as it writes. -/
theorem Balanced.extend {s u : State} (h : Balanced start s) (event : Event)
    (htrace : u.trace = s.trace ++ [event]) (hdraws : s.Draws event u.prefetched)
    (hbytes : ∀ side, event.wroteTo side ++ u.pending side =
      s.pending side ++ event.readFrom side.other)
    (hbound : ∀ side, (u.pending side).length ≤ buffer) (hroomy : event.Roomy)
    (hclose : u.closeAfterDrain = true →
      s.closeAfterDrain = true ∨ ∃ side space, event = .read side space .eof) :
    Balanced start u := by
  refine ⟨h.prefetches.extend htrace hdraws, ?_, hbound, ?_, ?_⟩
  · intro side
    rw [htrace, bytesWritten_concat, bytesRead_concat, List.append_assoc, hbytes,
      ← List.append_assoc, h.forwarded]
  · intro e he
    rw [htrace] at he
    rcases List.mem_append.mp he with he | he
    · exact h.roomy e he
    · rw [List.mem_singleton.mp he]
      exact hroomy
  · intro hu
    rw [htrace]
    rcases hclose hu with hs | ⟨side, space, rfl⟩
    · obtain ⟨side, space, hmem⟩ := h.closing hs
      exact ⟨side, space, List.mem_append_left _ hmem⟩
    · exact ⟨side, space, by simp⟩

theorem Balanced.read {s u : State} {source : Side} {space : Nat} {found : ReadOutcome}
    (h : Balanced start s) (bytes : List UInt8) (hspace : 0 < space)
    (hroom : (s.pending source.other).length + space ≤ buffer)
    (htrace : u.trace = s.trace ++ [.read source space found])
    (hdraws : s.Draws (.read source space found) u.prefetched)
    (hbytes : (found.copied space).toOption.getD [] = bytes)
    (hpending : ∀ side, u.pending side =
      if side = source.other then s.pending side ++ bytes else s.pending side)
    (hclose : u.closeAfterDrain = true → s.closeAfterDrain = true ∨ found = .eof) :
    Balanced start u := by
  have hlen : bytes.length ≤ space := hbytes ▸ copied_length_le
  refine h.extend (.read source space found) htrace hdraws ?_ ?_ ⟨hspace, copied_eq_nil hspace⟩ ?_
  · intro side
    rw [hpending]
    show [] ++ _ = _ ++ (if source = side.other then _ else _)
    rw [List.nil_append, hbytes]
    by_cases hs : side = source.other
    · rw [if_pos hs, if_pos ((eq_other_comm source side).mpr hs)]
    · rw [if_neg hs, if_neg (mt (eq_other_comm source side).mp hs), List.append_nil]
  · intro side
    rw [hpending]
    have hside := h.bounded side
    by_cases hs : side = source.other
    · rw [if_pos hs, List.length_append, hs]
      omega
    · rw [if_neg hs]
      exact hside
  · intro hu
    rcases hclose hu with hs | rfl
    · exact Or.inl hs
    · exact Or.inr ⟨source, space, rfl⟩

def Event.IsQueue : Event → Prop
  | .receiveQueue _ => True
  | .sendQueue _ => True
  | _ => False

theorem Balanced.queue {s : State} (h : Balanced start s) {event : Event} (hevent : event.IsQueue) :
    Balanced start (s.record event) := by
  cases event with
  | read => cases hevent
  | wrote => cases hevent
  | receiveQueue n =>
    exact h.extend (.receiveQueue n) rfl (Or.inl rfl) (fun _ => (List.append_nil _).symm) h.bounded
      trivial Or.inl
  | sendQueue n =>
    exact h.extend (.sendQueue n) rfl (Or.inl rfl) (fun _ => (List.append_nil _).symm) h.bounded
      trivial Or.inl

theorem Balanced.wrote {s : State} {target : Side} {count : Nat} (h : Balanced start s) :
    Balanced start ((s.setPending ((s.pending target).drop count) target).record
      (.wrote target ((s.pending target).take count))) := by
  have hpending : ∀ side, ((s.setPending ((s.pending target).drop count) target).record
      (.wrote target ((s.pending target).take count))).pending side =
        if side = target then (s.pending side).drop count else s.pending side := by
    intro side
    refine (pending_setPending s _ side target).trans ?_
    by_cases hs : side = target
    · rw [if_pos hs, if_pos hs, hs]
    · rw [if_neg hs, if_neg hs]
  refine h.extend (.wrote target ((s.pending target).take count)) ?_ ?_ ?_ ?_ trivial ?_
  · show (s.setPending _ target).trace ++ _ = _
    rw [setPending_trace]
  · exact Or.inl (setPending_prefetched s _ target).symm
  · intro side
    rw [hpending]
    show (if target = side then _ else _) ++ _ = _ ++ []
    by_cases hs : side = target
    · rw [if_pos hs.symm, if_pos hs, hs, List.take_append_drop, List.append_nil]
    · rw [if_neg (Ne.symm hs), if_neg hs, List.append_nil, List.nil_append]
  · intro side
    rw [hpending]
    have hside := h.bounded side
    split
    next =>
      rw [List.length_drop]
      omega
    next => exact hside
  · intro hu
    refine Or.inl ?_
    rw [← hu]
    exact (setPending_closeAfterDrain s _ target).symm

/-- A read that copies nothing: the end of the stream or an error. -/
theorem Balanced.read_nothing {s : State} {source : Side} {space count : Nat} {close : Bool}
    {found : ReadOutcome} (h : Balanced start s) (hspace : 0 < space)
    (hroom : (s.pending source.other).length + space ≤ buffer)
    (hdraws : s.Draws (.read source space found) (s.consume count source).prefetched)
    (hbytes : (found.copied space).toOption.getD [] = [])
    (hclose : close = true → s.closeAfterDrain = true ∨ found = .eof) :
    Balanced start { (s.consume count source).record (.read source space found) with
      closeAfterDrain := close } := by
  refine h.read [] hspace hroom ?_ hdraws hbytes ?_ hclose
  · exact congrArg (· ++ _) (consume_trace s count source)
  · intro side
    rw [List.append_nil, ite_self]
    exact consume_pending s count source side

/-- A read whose bytes are appended to those for the other side. -/
theorem Balanced.read_bytes {s : State} {source : Side} {space count : Nat} {found : ReadOutcome}
    {bytes : List UInt8} (h : Balanced start s) (hspace : 0 < space)
    (hroom : (s.pending source.other).length + space ≤ buffer)
    (hdraws : s.Draws (.read source space found) (s.consume count source).prefetched)
    (hbytes : (found.copied space).toOption.getD [] = bytes) :
    Balanced start (((s.consume count source).record (.read source space found)).setPending
      (s.pending source.other ++ bytes) source.other) := by
  refine h.read bytes hspace hroom ?_ ?_ hbytes ?_ ?_
  · rw [setPending_trace]
    exact congrArg (· ++ _) (consume_trace s count source)
  · rw [setPending_prefetched]
    exact hdraws
  · intro side
    rw [pending_setPending]
    by_cases hs : side = source.other
    · rw [if_pos hs, if_pos hs, hs]
    · rw [if_neg hs, if_neg hs]
      exact consume_pending s count source side
  · intro hu
    rw [setPending_closeAfterDrain] at hu
    exact Or.inl ((consume_closeAfterDrain s count source).symm.trans hu)

end Scproxy.Relay
