import Scproxy.IoError
import Scproxy.Segmented

namespace Scproxy

/-- One link of an `anyhow` error. -/
inductive Cause
  | text (message : String)
  | io (error : IoError)
  deriving DecidableEq

/-- An `anyhow` error over an I/O error; the context added last comes first. -/
abbrev AnyError := List Cause

inductive ExchangeEvent
  | wrote (bytes : List UInt8)
  | read (bytes : List UInt8)
  deriving DecidableEq

/-- A connection to a server: what is still to be read, and what was done so far. -/
structure Exchange where
  inbound : Source UInt8 IoError
  trace : List ExchangeEvent

abbrev Dialogue := Prog Exchange AnyError

def Exchange.record (s : Exchange) (event : ExchangeEvent) : Exchange :=
  { s with trace := s.trace ++ [event] }

namespace Dialogue

variable {α : Type}

/-- `Context::context`. -/
def context (message : String) (m : Dialogue α) : Dialogue α := fun s =>
  match m s with
  | (.ok a, t) => (.ok a, t)
  | (.error chain, t) => (.error (.text message :: chain), t)

/-- `write_all`, with what the operating system makes of each message. A
message that fails may have been written in part. -/
def writeAll (write : List UInt8 → Except IoError Unit) (bytes : List UInt8) : Dialogue Unit :=
  fun s =>
    match write bytes with
    | .ok () => (.ok (), s.record (.wrote bytes))
    | .error error => (.error [.io error], s.record (.wrote bytes))

def readExact (n : Nat) : Dialogue (List UInt8) := fun s =>
  match s.inbound.readExact n with
  | .ok (bytes, inbound) => (.ok bytes, { s with inbound := inbound }.record (.read bytes))
  | .error ending => (.error [.io (ending.getD (.simple .unexpectedEof))], s)

/-- `bail!`. -/
def bail (message : String) : Dialogue α := Prog.fail [.text message]

/-- One message and the fixed part of the reply to it. -/
def ask (write : List UInt8 → Except IoError Unit) (message : List UInt8) (writing : String)
    (n : Nat) (reading : String) : Dialogue (List UInt8) := do
  context writing (writeAll write message)
  context reading (readExact n)

theorem context_eq_ok {message : String} {m : Dialogue α} {s t : Exchange} {a : α} :
    context message m s = (.ok a, t) ↔ m s = (.ok a, t) := by
  unfold context
  rcases m s with ⟨e | b, u⟩
  · simp
  · simp

theorem triple_context {P : Exchange → Prop} {Q : α → Exchange → Prop} {E : Exchange → Prop}
    {m : Dialogue α} (message : String) (h : Prog.Triple P m Q fun _ => E) :
    Prog.Triple P (context message m) Q fun _ => E := by
  intro s hs
  have hm := h s hs
  unfold context
  rcases hr : m s with ⟨e | b, u⟩
  · rw [hr] at hm
    exact hm
  · rw [hr] at hm
    exact hm

theorem writeAll_eq_ok {write : List UInt8 → Except IoError Unit} {bytes : List UInt8}
    {s t : Exchange} : writeAll write bytes s = (.ok (), t) ↔
      write bytes = .ok () ∧ t = s.record (.wrote bytes) := by
  unfold writeAll
  rcases hw : write bytes with e | _
  · simp
  · simp [eq_comm]

theorem triple_writeAll {write : List UInt8 → Except IoError Unit} {bytes : List UInt8}
    (s : Exchange) {E : Exchange → Prop} (hE : E (s.record (.wrote bytes))) :
    Prog.Triple (· = s) (writeAll write bytes)
      (fun _ t => write bytes = .ok () ∧ t = s.record (.wrote bytes)) fun _ => E := by
  intro s' hs
  subst hs
  unfold writeAll
  rcases hw : write bytes with e | u
  · exact hE
  · exact ⟨rfl, rfl⟩

theorem readExact_of_append {s : Exchange} {front rest : List UInt8}
    (h : s.inbound.items = front ++ rest) :
    ∃ inbound, readExact front.length s = (.ok front, ⟨inbound, s.trace ++ [.read front]⟩) ∧
      inbound.items = rest := by
  obtain ⟨inbound, hread, hrest, _⟩ := Source.readExact_of_append h
  refine ⟨inbound, ?_, hrest⟩
  unfold readExact
  rw [hread]
  rfl

/-- A read of `n` bytes takes the next `n` bytes, or fails if there are fewer. -/
theorem triple_readExact {n : Nat} (s : Exchange) {E : Exchange → Prop} (hE : E s) :
    Prog.Triple (· = s) (readExact n)
      (fun bytes t => bytes.length = n ∧ s.inbound.items = bytes ++ t.inbound.items ∧
        t.trace = s.trace ++ [.read bytes]) fun _ => E := by
  intro s' hs
  subst hs
  unfold readExact
  rcases Source.readExact_cases n s'.inbound with ⟨bytes, inbound, hread, hlen, hitems⟩ | hread
  · rw [hread]
    exact ⟨hlen, hitems, rfl⟩
  · rw [hread]
    exact hE

/-- The message is written, then there are only reads. -/
def Asked (s : Exchange) (message : List UInt8) (t : Exchange) : Prop :=
  ∃ replies : List (List UInt8), t.trace = s.trace ++ .wrote message :: replies.map .read

theorem triple_ask {write : List UInt8 → Except IoError Unit} {message : List UInt8}
    {writing reading : String} {n : Nat} (s : Exchange) :
    Prog.Triple (· = s) (ask write message writing n reading)
      (fun reply t => reply.length = n ∧ write message = .ok () ∧
        s.inbound.items = reply ++ t.inbound.items ∧
        t.trace = s.trace ++ [.wrote message, .read reply]) fun _ => Asked s message := by
  have hwrote : Asked s message (s.record (.wrote message)) := ⟨[], rfl⟩
  refine Prog.Triple.bind (triple_context writing (triple_writeAll s hwrote)) fun _ => ?_
  rintro _ ⟨hwrite, rfl⟩
  have hread := triple_context reading (triple_readExact (n := n) _ hwrote) _ rfl
  rcases hr : context reading (readExact n) (s.record (.wrote message)) with ⟨e | reply, t⟩
  · rw [hr] at hread
    exact hread
  · rw [hr] at hread
    obtain ⟨hlen, hitems, htrace⟩ := hread
    refine ⟨hlen, hwrite, hitems, ?_⟩
    rw [htrace, Exchange.record, List.append_assoc]
    rfl

theorem ask_of_append {write : List UInt8 → Except IoError Unit} {message reply rest : List UInt8}
    {writing reading : String} {s : Exchange} (hwrite : write message = .ok ())
    (h : s.inbound.items = reply ++ rest) :
    ∃ t, ask write message writing reply.length reading s = (.ok reply, t) ∧
      t.inbound.items = rest := by
  obtain ⟨inbound, hread, hrest⟩ := readExact_of_append (s := s.record (.wrote message)) h
  refine ⟨⟨inbound, (s.record (.wrote message)).trace ++ [.read reply]⟩, ?_, hrest⟩
  exact Prog.bind_eq_ok.mpr ⟨(), _, context_eq_ok.mpr (writeAll_eq_ok.mpr ⟨hwrite, rfl⟩),
    context_eq_ok.mpr hread⟩

end Dialogue

end Scproxy
