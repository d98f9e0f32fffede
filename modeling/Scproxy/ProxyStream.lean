import Scproxy.Exchange

namespace Scproxy

/-- `std::io::Cursor` over bytes. -/
structure Cursor where
  bytes : List UInt8
  position : Nat

namespace Cursor

def new (bytes : List UInt8) : Cursor := ⟨bytes, 0⟩

def remaining (cursor : Cursor) : List UInt8 := cursor.bytes.drop cursor.position

/-- `Read::read` into a buffer of `n` bytes. -/
def read (n : Nat) (cursor : Cursor) : List UInt8 × Cursor :=
  let bytes := cursor.remaining.take n
  (bytes, { cursor with position := cursor.position + bytes.length })

end Cursor

structure ProxyStream where
  inner : Source UInt8 IoError
  buffered : Cursor

namespace ProxyStream

def new (inner : Source UInt8 IoError) (buffered : List UInt8) : ProxyStream :=
  ⟨inner, Cursor.new buffered⟩

def hasBufferedData (stream : ProxyStream) : Bool :=
  stream.buffered.position < stream.buffered.bytes.length

def tryRead (n : Nat) (stream : ProxyStream) : Except IoError (List UInt8) × ProxyStream :=
  if stream.hasBufferedData then
    let (bytes, buffered) := stream.buffered.read n
    (.ok bytes, { stream with buffered := buffered })
  else
    match stream.inner.poll n with
    | (.ok (some bytes), inner) => (.ok bytes, { stream with inner := inner })
    | (.ok none, inner) => (.error (.simple .wouldBlock), { stream with inner := inner })
    | (.error error, inner) => (.error error, { stream with inner := inner })

/-- `none` is `Poll::Pending`. -/
def pollRead (n : Nat) (stream : ProxyStream) :
    Option (Except IoError (List UInt8)) × ProxyStream :=
  if stream.hasBufferedData then
    let (bytes, buffered) := stream.buffered.read n
    (some (.ok bytes), { stream with buffered := buffered })
  else
    match stream.inner.poll n with
    | (.ok (some bytes), inner) => (some (.ok bytes), { stream with inner := inner })
    | (.ok none, inner) => (none, { stream with inner := inner })
    | (.error error, inner) => (some (.error error), { stream with inner := inner })

/-- All that is still to be read. -/
def remaining (stream : ProxyStream) : List UInt8 :=
  stream.buffered.remaining ++ stream.inner.items

end ProxyStream

/-- One call of either read function, with the size of its buffer. -/
inductive ReadCall
  | tryRead (size : Nat)
  | pollRead (size : Nat)

namespace ReadCall

abbrev Result := Option (Except IoError (List UInt8))

def size : ReadCall → Nat
  | .tryRead n => n
  | .pollRead n => n

def perform : ReadCall → ProxyStream → Result × ProxyStream
  | .tryRead n, stream =>
    let (result, stream) := stream.tryRead n
    (some result, stream)
  | .pollRead n, stream => stream.pollRead n

def results : List ReadCall → ProxyStream → List Result
  | [], _ => []
  | call :: calls, stream => (call.perform stream).1 :: results calls (call.perform stream).2

def bytes : Result → List UInt8
  | some (.ok bytes) => bytes
  | _ => []

def delivered (results : List Result) : List UInt8 := results.flatMap bytes

/-- The read that finds the end of the stream or its failure. -/
def Ended : Result → Prop
  | some (.ok bytes) => bytes = []
  | some (.error error) => error.isWouldBlock = false
  | none => False

end ReadCall

theorem Cursor.read_spec (n : Nat) (cursor : Cursor) :
    cursor.remaining = (cursor.read n).1 ++ (cursor.read n).2.remaining := by
  show cursor.remaining = cursor.remaining.take n ++
    cursor.bytes.drop (cursor.position + (cursor.remaining.take n).length)
  rw [← List.drop_drop]
  show cursor.remaining = cursor.remaining.take n ++
    cursor.remaining.drop (cursor.remaining.take n).length
  conv_lhs => rw [← List.take_append_drop n cursor.remaining]
  congr 1
  rw [List.length_take]
  by_cases hn : n ≤ cursor.remaining.length
  · rw [Nat.min_eq_left hn]
  · rw [Nat.min_eq_right (by omega), List.drop_of_length_le (by omega), List.drop_length]

namespace ProxyStream

theorem tryRead_eq (n : Nat) (stream : ProxyStream) :
    stream.tryRead n = ((stream.pollRead n).1.getD (.error (.simple .wouldBlock)),
      (stream.pollRead n).2) := by
  unfold tryRead pollRead
  split
  · rfl
  · rcases stream.inner.poll n with ⟨e | bytes | _, inner⟩
    · rfl
    · rfl
    · rfl

/-- A read takes bytes, or finds that there are none yet, or fails at the end. -/
theorem pollRead_cases {n : Nat} (hn : 0 < n) (stream : ProxyStream) :
    (∃ bytes t, stream.pollRead n = (some (.ok bytes), t) ∧
      stream.remaining = bytes ++ t.remaining ∧ (bytes = [] → stream.remaining = [])) ∨
    (∃ t, stream.pollRead n = (none, t) ∧ stream.remaining = t.remaining) ∨
    ∃ error t, stream.pollRead n = (some (.error error), t) ∧ stream.remaining = [] ∧
      t.remaining = [] := by
  unfold pollRead
  by_cases hbuffered : stream.hasBufferedData
  · rw [if_pos hbuffered]
    refine .inl ⟨(stream.buffered.read n).1,
      { stream with buffered := (stream.buffered.read n).2 }, rfl, ?_, ?_⟩
    · show stream.buffered.remaining ++ _ = _
      rw [Cursor.read_spec n, List.append_assoc]
      rfl
    · intro hnil
      have hlt : stream.buffered.position < stream.buffered.bytes.length := by
        simpa [hasBufferedData] using hbuffered
      have hpos : 0 < stream.buffered.remaining.length := by
        rw [Cursor.remaining, List.length_drop]
        omega
      have hlen : (stream.buffered.remaining.take n).length = 0 := congrArg List.length hnil
      rw [List.length_take] at hlen
      omega
  · have hnil : stream.buffered.remaining = [] := by
      rw [Cursor.remaining, List.drop_eq_nil_iff]
      simpa [hasBufferedData] using hbuffered
    have hremaining : ∀ inner, remaining { stream with inner := inner } = inner.items := by
      intro inner
      rw [remaining, hnil, List.nil_append]
    rw [if_neg hbuffered, show stream.remaining = stream.inner.items from hremaining stream.inner]
    rcases Source.poll_spec hn stream.inner with ⟨bytes, t, hpoll, hitems, hempty⟩ |
      ⟨t, hpoll, hitems⟩ | ⟨e, hpoll, hitems⟩
    · rw [hpoll]
      refine .inl ⟨bytes, { stream with inner := t }, rfl, ?_, hempty⟩
      rw [hremaining t]
      exact hitems
    · rw [hpoll]
      refine .inr (.inl ⟨{ stream with inner := t }, rfl, ?_⟩)
      rw [hremaining t]
      exact hitems
    · rw [hpoll]
      exact .inr (.inr ⟨e, stream, rfl, hitems, (hremaining stream.inner).trans hitems⟩)

end ProxyStream

namespace ReadCall

theorem perform_spec {call : ReadCall} (hcall : 0 < call.size) (stream : ProxyStream) :
    stream.remaining = bytes (call.perform stream).1 ++ (call.perform stream).2.remaining ∧
      (Ended (call.perform stream).1 → stream.remaining = []) := by
  cases call with
  | tryRead n =>
    simp only [perform, ProxyStream.tryRead_eq]
    rcases ProxyStream.pollRead_cases hcall stream with ⟨bytes, t, hread, hremaining, hempty⟩ |
      ⟨t, hread, hremaining⟩ | ⟨error, t, hread, hremaining, hrest⟩
    · rw [show stream.pollRead n = _ from hread]
      exact ⟨hremaining, hempty⟩
    · rw [show stream.pollRead n = _ from hread]
      exact ⟨hremaining, fun h => by simp [Ended, IoError.isWouldBlock] at h⟩
    · rw [show stream.pollRead n = _ from hread]
      exact ⟨hremaining.trans hrest.symm, fun _ => hremaining⟩
  | pollRead n =>
    rw [perform]
    rcases ProxyStream.pollRead_cases hcall stream with ⟨bytes, t, hread, hremaining, hempty⟩ |
      ⟨t, hread, hremaining⟩ | ⟨error, t, hread, hremaining, hrest⟩
    · rw [show stream.pollRead n = _ from hread]
      exact ⟨hremaining, hempty⟩
    · rw [show stream.pollRead n = _ from hread]
      exact ⟨hremaining, False.elim⟩
    · rw [show stream.pollRead n = _ from hread]
      exact ⟨hremaining.trans hrest.symm, fun _ => hremaining⟩

theorem delivered_prefix {calls : List ReadCall} (hcalls : ∀ call ∈ calls, 0 < call.size)
    (stream : ProxyStream) : delivered (results calls stream) <+: stream.remaining := by
  induction calls generalizing stream with
  | nil => exact List.nil_prefix
  | cons call calls ih =>
    obtain ⟨hcall, hcalls⟩ := List.forall_mem_cons.mp hcalls
    obtain ⟨hremaining, _⟩ := perform_spec hcall stream
    rw [hremaining]
    exact List.prefix_append_right_inj _ |>.mpr (ih hcalls _)

theorem delivered_of_ended {calls : List ReadCall} (hcalls : ∀ call ∈ calls, 0 < call.size)
    (stream : ProxyStream) {result : Result} (hmem : result ∈ results calls stream)
    (hended : Ended result) : delivered (results calls stream) = stream.remaining := by
  induction calls generalizing stream with
  | nil => simp [results] at hmem
  | cons call calls ih =>
    have hprefix := delivered_prefix hcalls stream
    obtain ⟨hcall, hcalls⟩ := List.forall_mem_cons.mp hcalls
    obtain ⟨hremaining, hend⟩ := perform_spec hcall stream
    rcases List.mem_cons.mp hmem with rfl | hmem
    · have hnil := hend hended
      rw [hnil] at hprefix ⊢
      exact List.prefix_nil.mp hprefix
    · rw [hremaining]
      exact congrArg _ (ih hcalls _ hmem)

end ReadCall

end Scproxy
