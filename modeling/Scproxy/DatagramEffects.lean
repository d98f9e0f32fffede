import Scproxy.DatagramSteps

namespace Scproxy

open Interaction

/-- What a call does to its socket, to the buffers of its messages and to their length words. -/
inductive Effect
  | sent (destination : SocketAddrV4) (payload control : List UInt8) (flags : UInt32) (length : Nat)
  | received (capacity controlCapacity : Nat) (flags : UInt32) (datagram : Received)
  | stored (tid : UInt32) (pointer : UInt64) (bytes : List UInt8)
  | recorded (tid : UInt32) (pointer : UInt64) (bytes : List UInt8)

namespace Operation

def effect : (op : Operation) → op.Ret → Option Effect
  | .sendmsg destination payload control flags, r =>
    (Except.toOption r).map (.sent destination payload control flags)
  | .recvmsg capacity controlCapacity flags, r =>
    (Except.toOption r).map (.received capacity controlCapacity flags)
  | .write .payload tid pointer bytes, r =>
    (Except.toOption r).map fun _ => .stored tid pointer bytes
  | .write .messageLength tid pointer bytes, r =>
    (Except.toOption r).map fun _ => .recorded tid pointer bytes
  | _, _ => none

def errorOf {α : Type} : Except IoError α → Option IoError
  | .error error => some error
  | .ok _ => none

/-- The error of an operation that fails. -/
def failure : (op : Operation) → op.Ret → Option IoError
  | .now, _ | .originalServer _, _ | .pending, _ => none
  | .valid, r | .get, r | .checkUnixConnect, r | .asyncFd, r | .ready _, r | .connect _, r
  | .write .., r | .domain, r | .protocol, r | .openFile, r | .tcp, r | .timeout _, r
  | .nonblocking, r | .serverFor _, r | .peerAddress _, r | .sendmsg .., r | .recvmsg .., r =>
    errorOf r

theorem effect_of_still {op : Operation} (h : op.still = true) (r : op.Ret) :
    op.effect r = none := by
  cases op with
  | write field tid pointer bytes =>
    cases field with
    | payload => cases h
    | messageLength => cases h
    | _ => rfl
  | sendmsg destination payload control flags => cases h
  | recvmsg capacity controlCapacity flags => cases h
  | _ => rfl

end Operation

/-- The effects of a run, in order. -/
def effects (trace : List (Event Operation Operation.Ret)) : List Effect :=
  trace.filterMap fun event => event.op.effect event.answer

/-- The errors that a run got from the kernel, in order. -/
def failures (trace : List (Event Operation Operation.Ret)) : List IoError :=
  trace.filterMap fun event => event.op.failure event.answer

@[simp] theorem effects_append (front back : List (Event Operation Operation.Ret)) :
    effects (front ++ back) = effects front ++ effects back :=
  List.filterMap_append

theorem failures_append (front back : List (Event Operation Operation.Ret)) :
    failures (front ++ back) = failures front ++ failures back :=
  List.filterMap_append

theorem getLast?_failures_append {front back : List (Event Operation Operation.Ret)}
    {error : IoError} (h : (failures back).getLast? = some error) :
    (failures (front ++ back)).getLast? = some error := by
  rw [failures_append, List.getLast?_append, h, Option.some_or]

theorem Act.Still.effects {α : Type} {p : Act α} (hp : p.Still)
    {trace : List (Event Operation Operation.Ret)} {r : Except IoError α}
    (hrun : Runs p.run trace r) : Scproxy.effects trace = [] := by
  apply List.filterMap_eq_nil_iff.mpr
  intro event hevent
  exact Operation.effect_of_still (hp.runs hrun event hevent) event.answer

/-- A run has these effects, or it stops on the way: with the last error that it got, or with
one of its own. -/
structure Accomplishes {α : Type} (full : List Effect) (own : IoError → Prop)
    (trace : List (Event Operation Operation.Ret)) (result : Except IoError α) : Prop where
  begins : effects trace <+: full
  all : ∀ a, result = .ok a → effects trace = full
  blame : ∀ error, result = .error error → (failures trace).getLast? = some error ∨ own error

theorem Accomplishes.append {α : Type} {full full' : List Effect} {own : IoError → Prop}
    {front back : List (Event Operation Operation.Ret)} {result : Except IoError α}
    (hfront : effects front = full) (h : Accomplishes full' own back result) :
    Accomplishes (full ++ full') own (front ++ back) result := by
  refine ⟨?_, fun a ha => ?_, fun error herror => ?_⟩
  · rw [effects_append, hfront]
    exact (List.prefix_append_right_inj _).mpr h.begins
  · rw [effects_append, hfront, h.all a ha]
  · exact (h.blame error herror).imp_left getLast?_failures_append

namespace Act

variable {α β : Type} {full full' : List Effect} {own : IoError → Prop}

def Accomplishing (p : Act α) (full : List Effect) (own : IoError → Prop) : Prop :=
  ∀ trace result, Runs p.run trace result → Accomplishes full own trace result

theorem accomplishing_ofExcept {e : Except IoError α} (h : ∀ error, e = .error error → own error) :
    Accomplishing (ofExcept e) [] own := by
  intro trace result hrun
  obtain ⟨rfl, rfl⟩ := runs_done_iff.mp hrun
  exact ⟨List.nil_prefix, fun _ _ => rfl, fun error herror => .inr (h error herror)⟩

theorem accomplishing_pure {a : α} : Accomplishing (pure a) [] own :=
  @accomplishing_ofExcept _ _ (.ok a) nofun

theorem accomplishing_throw {error : IoError} (h : own error) :
    Accomplishing (throw error : Act α) full own := by
  intro trace result hrun
  obtain ⟨rfl, rfl⟩ := runs_done_iff.mp hrun
  refine ⟨List.nil_prefix, nofun, ?_⟩
  rintro _ ⟨⟩
  exact .inr h

theorem accomplishing_operation (op : Operation) {next : op.Ret → Except IoError α}
    (hok : ∀ r a, next r = .ok a → (op.effect r).toList = full)
    (herror : ∀ r error, next r = .error error → op.effect r = none ∧ op.failure r = some error) :
    Accomplishing (ExceptT.mk (.perform op fun r => .done (next r))) full own := by
  intro trace result hrun
  obtain ⟨r, rest, rfl, hdone⟩ := runs_perform_iff.mp hrun
  obtain ⟨rfl, hnext⟩ := runs_done_iff.mp hdone
  have heffects : effects [⟨op, r⟩] = (op.effect r).toList := by
    cases heffect : op.effect r with
    | none => simp [effects, heffect]
    | some effect => simp [effects, heffect]
  cases result with
  | ok a =>
    have hfull : effects [⟨op, r⟩] = full := heffects.trans (hok r a hnext.symm)
    exact ⟨hfull ▸ List.prefix_rfl, fun _ _ => hfull, nofun⟩
  | error error =>
    obtain ⟨hnone, hfailure⟩ := herror r error hnext.symm
    refine ⟨by rw [heffects, hnone]; exact List.nil_prefix, nofun, ?_⟩
    rintro _ ⟨⟩
    exact .inl (by simp [failures, hfailure])

theorem Accomplishing.mono {p : Act α} {own' : IoError → Prop} (hp : p.Accomplishing full own)
    (h : ∀ error, own error → own' error) : p.Accomplishing full own' := by
  intro trace result hrun
  have hdone := hp trace result hrun
  exact ⟨hdone.begins, hdone.all, fun error herror => (hdone.blame error herror).imp_right (h error)⟩

theorem Accomplishing.bind {p : Act α} {f : α → Act β} (hp : p.Accomplishing full own)
    (hf : ∀ a, (f a).Accomplishing full' own) : (p >>= f).Accomplishing (full ++ full') own := by
  intro trace result hrun
  rcases runs_andThen.mp hrun with ⟨error, hfirst, rfl⟩ | ⟨front, back, a, rfl, hfirst, hrest⟩
  · have h := hp _ _ hfirst
    refine ⟨h.begins.trans (List.prefix_append _ _), nofun, ?_⟩
    rintro _ ⟨⟩
    exact h.blame error rfl
  · exact (hf a _ _ hrest).append ((hp _ _ hfirst).all a rfl)

end Act

end Scproxy
