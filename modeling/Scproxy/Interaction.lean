import Mathlib.Logic.Basic

namespace Scproxy

/-- Programs that perform one operation at a time and continue with its answer. -/
inductive Interaction (Op : Type) (Ret : Op → Type) (α : Type)
  | done (a : α)
  | perform (op : Op) (next : Ret op → Interaction Op Ret α)

namespace Interaction

variable {Op : Type} {Ret : Op → Type} {α β W : Type}

def bind : Interaction Op Ret α → (α → Interaction Op Ret β) → Interaction Op Ret β
  | .done a, f => f a
  | .perform op next, f => .perform op fun r => (next r).bind f

instance : Monad (Interaction Op Ret) where
  pure := .done
  bind := bind

end Interaction

/-- What a program may rely on between two operations, what must hold when it
performs one, and what each answer tells it. -/
structure Discipline (Op : Type) (Ret : Op → Type) (W : Type) where
  rely : W → W → Prop
  rely_trans : ∀ u v w, rely u v → rely v w → rely u w
  guard : Op → W → Prop
  after : (op : Op) → Ret op → W → W → Prop

namespace Discipline

variable {Op : Type} {Ret : Op → Type} {W α β ε : Type} (D : Discipline Op Ret W)

/-- Every operation is performed under its guard, and the result is in `Q`. -/
def Spec (Q : α → W → Prop) : Interaction Op Ret α → W → Prop
  | .done a, w => Q a w
  | .perform op next, w =>
    ∀ v, D.rely w v → D.guard op v ∧ ∀ r v', D.after op r v v' → Spec Q (next r) v'

/-- `Spec` for programs that may stop with an error. -/
def Safe (Q : α → W → Prop) (p : ExceptT ε (Interaction Op Ret) α) (w : W) : Prop :=
  D.Spec (fun r v => ∀ a, r = .ok a → Q a v) p.run w

variable {D} {Q R : α → W → Prop} {w : W}

theorem Spec.bind {p : Interaction Op Ret α} {f : α → Interaction Op Ret β} {Q : β → W → Prop}
    (h : D.Spec (fun a v => D.Spec Q (f a) v) p w) : D.Spec Q (p >>= f) w := by
  induction p generalizing w with
  | done a => exact h
  | perform op next ih =>
    intro v hv
    obtain ⟨hguard, hnext⟩ := h v hv
    exact ⟨hguard, fun r v' hr => ih r (hnext r v' hr)⟩

theorem Spec.weaken {p : Interaction Op Ret α} (hQ : ∀ a v, R a v → Q a v)
    (h : D.Spec R p w) : D.Spec Q p w := by
  induction p generalizing w with
  | done a => exact hQ a w h
  | perform op next ih =>
    intro v hv
    obtain ⟨hguard, hnext⟩ := h v hv
    exact ⟨hguard, fun r v' hr => ih r (hnext r v' hr)⟩

/-- What others do between two operations does not hurt. -/
theorem Spec.later {p : Interaction Op Ret α} {v : W} (hQ : ∀ a, Q a w → Q a v)
    (hv : D.rely w v) (h : D.Spec Q p w) : D.Spec Q p v := by
  cases p with
  | done a => exact hQ a h
  | perform op next => exact fun u hu => h u (D.rely_trans w v u hv hu)

theorem Safe.pure {a : α} (h : Q a w) :
    D.Safe Q (Pure.pure a : ExceptT ε (Interaction Op Ret) α) w := by
  intro b hb
  cases hb
  exact h

theorem Safe.throw {e : ε} : D.Safe Q (throw e : ExceptT ε (Interaction Op Ret) α) w := by
  intro b hb
  cases hb

theorem Safe.bind {p : ExceptT ε (Interaction Op Ret) α}
    {f : α → ExceptT ε (Interaction Op Ret) β} {Q : β → W → Prop} (hp : D.Safe R p w)
    (hf : ∀ a v, R a v → D.Safe Q (f a) v) : D.Safe Q (p >>= f) w := by
  apply Spec.bind
  apply hp.weaken
  intro r v hr
  cases r with
  | error e => exact fun b hb => nomatch hb
  | ok a => exact hf a v (hr a rfl)

/-- `Spec.bind` for programs that may stop with an error. -/
theorem Spec.andThen {p : ExceptT ε (Interaction Op Ret) α}
    {f : α → ExceptT ε (Interaction Op Ret) β} {Q : Except ε β → W → Prop}
    (hp : D.Spec
      (fun r v => (∀ a, r = .ok a → D.Spec Q (f a).run v) ∧ ∀ e, r = .error e → Q (.error e) v)
      p.run w) :
    D.Spec Q (p >>= f).run w := by
  apply Spec.bind
  apply hp.weaken
  intro r v hr
  cases r with
  | error e => exact hr.2 e rfl
  | ok a => exact hr.1 a rfl

theorem Safe.weaken {p : ExceptT ε (Interaction Op Ret) α} (hQ : ∀ a v, R a v → Q a v)
    (h : D.Safe R p w) : D.Safe Q p w :=
  Spec.weaken (fun _ v hr a ha => hQ a v (hr a ha)) h

end Discipline

/-- Run a program to its result, an error included. -/
def Interaction.attempt {Op : Type} {Ret : Op → Type} {α ε : Type}
    (p : ExceptT ε (Interaction Op Ret) α) : ExceptT ε (Interaction Op Ret) (Except ε α) :=
  ExceptT.lift p.run

theorem Discipline.Spec.attempt {Op : Type} {Ret : Op → Type} {W α ε : Type}
    {D : Discipline Op Ret W} {R : Except ε α → W → Prop} {w : W}
    {p : ExceptT ε (Interaction Op Ret) α} (h : D.Spec R p.run w) :
    D.Safe R (Interaction.attempt p) w := by
  apply Spec.bind
  refine Spec.weaken ?_ h
  intro r v hr b hb
  cases hb
  exact hr

namespace Interaction

variable {Op Op' : Type} {Ret : Op → Type} {Ret' : Op' → Type} {W α β ε : Type}

/-- Every operation that the program can perform is allowed. -/
def Performs (allowed : Op → Prop) : Interaction Op Ret α → Prop
  | .done _ => True
  | .perform op next => allowed op ∧ ∀ r, (next r).Performs allowed

/-- Every result that the program can have is in `P`. -/
def Yields (P : α → Prop) : Interaction Op Ret α → Prop
  | .done a => P a
  | .perform _ next => ∀ r, (next r).Yields P

/-- Every operation is carried out by a program of its own. -/
def handle (handler : (op : Op) → Interaction Op' Ret' (Ret op)) :
    Interaction Op Ret α → Interaction Op' Ret' α
  | .done a => .done a
  | .perform op next => (handler op).bind fun r => (next r).handle handler

/-- The program with a state that answers its operations, or stops it. -/
def interpret {S : Type} (answer : (op : Op) → S → Option (Ret op × S)) :
    Interaction Op Ret α → S → Option α × S
  | .done a, s => (some a, s)
  | .perform op next, s =>
    match answer op s with
    | some (r, t) => interpret answer (next r) t
    | none => (none, s)

variable {allowed : Op → Prop} {P : α → Prop}

theorem Performs.mono {allowed' : Op → Prop} {p : Interaction Op Ret α} (hp : p.Performs allowed)
    (h : ∀ op, allowed op → allowed' op) : p.Performs allowed' := by
  induction p with
  | done a => trivial
  | perform op next ih => exact ⟨h op hp.1, fun r => ih r (hp.2 r)⟩

theorem Performs.bindOf {p : Interaction Op Ret α} {f : α → Interaction Op Ret β}
    (hp : p.Performs allowed) (hy : p.Yields P) (hf : ∀ a, P a → (f a).Performs allowed) :
    (p >>= f).Performs allowed := by
  induction p with
  | done a => exact hf a hy
  | perform op next ih => exact ⟨hp.1, fun r => ih r (hp.2 r) (hy r)⟩

theorem Yields.bind {p : Interaction Op Ret α} {f : α → Interaction Op Ret β} {Q : β → Prop}
    (hp : p.Yields P) (hf : ∀ a, P a → (f a).Yields Q) : (p >>= f).Yields Q := by
  induction p with
  | done a => exact hf a hp
  | perform op next ih => exact fun r => ih r (hp r)

theorem yields_true {p : Interaction Op Ret α} : p.Yields fun _ => True := by
  induction p with
  | done a => trivial
  | perform op next ih => exact ih

theorem Performs.bind {p : Interaction Op Ret α} {f : α → Interaction Op Ret β}
    (hp : p.Performs allowed) (hf : ∀ a, (f a).Performs allowed) : (p >>= f).Performs allowed :=
  hp.bindOf yields_true fun a _ => hf a

/-- `Performs.bind` for programs that may stop with an error. -/
theorem Performs.andThen {p : ExceptT ε (Interaction Op Ret) α}
    {f : α → ExceptT ε (Interaction Op Ret) β} (hp : p.run.Performs allowed)
    (hf : ∀ a, (f a).run.Performs allowed) : (p >>= f).run.Performs allowed := by
  refine Performs.bind hp fun r => ?_
  cases r with
  | error e => trivial
  | ok a => exact hf a

/-- `Performs.andThen` with what the first part yields. -/
theorem Performs.andThenOf {p : ExceptT ε (Interaction Op Ret) α}
    {f : α → ExceptT ε (Interaction Op Ret) β} {R : α → Prop} (hp : p.run.Performs allowed)
    (hy : p.run.Yields fun r => ∀ a, r = .ok a → R a)
    (hf : ∀ a, R a → (f a).run.Performs allowed) : (p >>= f).run.Performs allowed := by
  refine Performs.bindOf hp hy fun r hr => ?_
  cases r with
  | error e => trivial
  | ok a => exact hf a (hr a rfl)

theorem Performs.attempt {p : ExceptT ε (Interaction Op Ret) α} (hp : p.run.Performs allowed) :
    (attempt p).run.Performs allowed :=
  Performs.bind hp fun _ => trivial

/-- `Yields.bind` for programs that may stop with an error. -/
theorem Yields.andThen {p : ExceptT ε (Interaction Op Ret) α}
    {f : α → ExceptT ε (Interaction Op Ret) β} {R : α → Prop} {Q : β → Prop}
    (hp : p.run.Yields fun r => ∀ a, r = .ok a → R a)
    (hf : ∀ a, R a → (f a).run.Yields fun r => ∀ b, r = .ok b → Q b) :
    (p >>= f).run.Yields fun r => ∀ b, r = .ok b → Q b := by
  refine Yields.bind hp fun r hr => ?_
  cases r with
  | error e => exact fun b hb => nomatch hb
  | ok a => exact hf a (hr a rfl)

/-- The last part of a program decides what it yields. -/
theorem yields_last {p : ExceptT ε (Interaction Op Ret) α}
    {f : α → ExceptT ε (Interaction Op Ret) β} {Q : β → Prop}
    (hf : ∀ a, (f a).run.Yields fun r => ∀ b, r = .ok b → Q b) :
    (p >>= f).run.Yields fun r => ∀ b, r = .ok b → Q b := by
  refine Yields.bind yields_true fun r _ => ?_
  cases r with
  | error e => exact fun b hb => nomatch hb
  | ok a => exact hf a

theorem Performs.handle {allowed' : Op' → Prop} {handler : (op : Op) → Interaction Op' Ret' (Ret op)}
    {p : Interaction Op Ret α} (hp : p.Performs allowed)
    (hhandler : ∀ op, allowed op → (handler op).Performs allowed') :
    (p.handle handler).Performs allowed' := by
  induction p with
  | done a => trivial
  | perform op next ih => exact (hhandler op hp.1).bind fun r => ih r (hp.2 r)

theorem Yields.handle {handler : (op : Op) → Interaction Op' Ret' (Ret op)}
    {p : Interaction Op Ret α} (hp : p.Yields P) : (p.handle handler).Yields P := by
  induction p with
  | done a => exact hp
  | perform op next ih => exact yields_true.bind fun r _ => ih r (hp r)

theorem bind_assoc {γ : Type} (p : Interaction Op Ret α) (f : α → Interaction Op Ret β)
    (g : β → Interaction Op Ret γ) : (p.bind f).bind g = p.bind fun a => (f a).bind g := by
  induction p with
  | done a => rfl
  | perform op next ih => exact congrArg (Interaction.perform op) (funext ih)

theorem bind_done (p : Interaction Op Ret α) : p.bind .done = p := by
  induction p with
  | done a => rfl
  | perform op next ih => exact congrArg (Interaction.perform op) (funext ih)

theorem handle_bind (handler : (op : Op) → Interaction Op' Ret' (Ret op)) (p : Interaction Op Ret α)
    (f : α → Interaction Op Ret β) :
    (p.bind f).handle handler = (p.handle handler).bind fun a => (f a).handle handler := by
  induction p with
  | done a => rfl
  | perform op next ih =>
    change ((handler op).bind fun r => ((next r).bind f).handle handler) = _
    rw [funext ih]
    exact (bind_assoc _ _ _).symm

/-- `handle_bind` for programs that may stop with an error. -/
theorem handle_andThen (handler : (op : Op) → Interaction Op' Ret' (Ret op))
    (p : ExceptT ε (Interaction Op Ret) α) (f : α → ExceptT ε (Interaction Op Ret) β) :
    (p >>= f).run.handle handler = (ExceptT.mk (p.run.handle handler) >>= fun a =>
      ExceptT.mk ((f a).run.handle handler) : ExceptT ε (Interaction Op' Ret') β).run := by
  refine (handle_bind handler _ _).trans ?_
  refine congrArg (Interaction.bind _) (funext fun r => ?_)
  cases r with
  | error e => rfl
  | ok a => rfl

theorem performs_true {p : Interaction Op Ret α} : p.Performs fun _ => True := by
  induction p with
  | done a => trivial
  | perform op next ih => exact ⟨trivial, ih⟩

/-- A program of operations that a discipline always allows and that keep a property. -/
theorem Performs.spec {D : Discipline Op Ret W} {I : W → Prop} {p : Interaction Op Ret α} {w : W}
    (hrely : ∀ v v', I v → D.rely v v' → I v')
    (hquiet : ∀ op, allowed op → ∀ v, I v → D.guard op v ∧ ∀ r v', D.after op r v v' → I v')
    (hp : p.Performs allowed) (hy : p.Yields P) (hw : I w) :
    D.Spec (fun a v => P a ∧ I v) p w := by
  induction p generalizing w with
  | done a => exact ⟨hy, hw⟩
  | perform op next ih =>
    intro v hv
    obtain ⟨hguard, hafter⟩ := hquiet op hp.1 v (hrely w v hw hv)
    exact ⟨hguard, fun r v' hr => ih r (hp.2 r) (hy r) (hafter r v' hr)⟩

end Interaction

end Scproxy
